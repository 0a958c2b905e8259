import Scad.Proofs.Cursor
import Scad.Proofs.Nesting
import Scad.Proofs.Success

/-!
# Trees with Separate Nodes

In a tree whose nodes stand inside their parents and beside their siblings, a view that keeps to the
nodes keeps their distance.

* `Node.Parcelled` — the layout that is asked of a tree.
* `Node.ReusesPart` — a construct that finds one node for two roles.
* `Node.Separates` — a view whose parts are apart, as far as no node of the tree is reused.
* `Node.Carries.of_parts` — views of nodes that are apart are apart.
-/

namespace Scad

/-! ## §1 Layout -/

namespace Node

/-- The node encloses what it holds, and its children follow one another.  The named children are
some of the children, in their order. -/
structure Parcels (n : Node) : Prop where
  ordered : n.span.Ordered
  encloses : ∀ c, n.Holds c → n.span.encloses c.span = true
  children_apart : n.children.IsChain fun a b => b.span.start.before a.span.stop = false
  named_sublist : n.named.Sublist n.children

/-- Every node of the tree is such a node. -/
def Parcelled (root : Node) : Prop :=
  ∀ n : Node, n.Within root → n.Parcels

namespace Parcelled

variable {m n c d : Node}

theorem mono (h : n.Parcelled) (hm : m.Within n) : m.Parcelled :=
  fun _ hl => h _ (hl.trans hm)

/-- A node encloses everything in its subtree. -/
theorem encloses (h : n.Parcelled) (hm : m.Within n) : n.span.encloses m.span = true := by
  induction hm with
  | refl => exact Span.encloses_refl _
  | step hc _ ih =>
    exact Span.encloses_trans ((h _ (.refl _)).encloses _ hc) (ih (h.mono hc.within))

/-- A tree is parcelled, one level at a time. -/
theorem of_children (hordered : n.span.Ordered)
    (hencloses : ∀ c ∈ n.children, n.span.encloses c.span = true)
    (hchain : n.children.IsChain fun a b => b.span.start.before a.span.stop = false)
    (hnamed : n.named.Sublist n.children) (hchildren : ∀ c ∈ n.children, c.Parcelled) :
    n.Parcelled := by
  have hheld {c : Node} (hc : n.Holds c) : c ∈ n.children := hc.elim id fun hc => hnamed.subset hc
  exact forall_within ⟨hordered, fun c hc => hencloses c (hheld hc), hchain, hnamed⟩
    fun c hc => hchildren c (hheld hc)

theorem of_leaf (hordered : n.span.Ordered) (hchildren : n.children = []) (hnamed : n.named = []) :
    n.Parcelled :=
  .of_children hordered (by simp [hchildren]) (by simp [hchildren]) (by simp [hnamed])
    (by simp [hchildren])

end Parcelled

/-! ## §2 Nodes that reuse a part -/

/-- The left operand of an operation. -/
def leftOperand? (n : Node) : Option n.Part :=
  (n.field? "left").or n.significant.head?

/-- The right operand of an operation. -/
def rightOperand? (n : Node) : Option n.Part :=
  (n.field? "right").or
    (if 2 ≤ n.significant.length then n.significant.getLast? else none)

/-- The body of a `let` expression. -/
def letInBody? (n : Node) : Option n.Part :=
  (n.field? "body").or (n.findLast? (·.kind.isExpression))

/-- The node finds one node for two of its roles. -/
inductive ReusesPart : Node → Prop where
  /-- An operation whose operands are one and the same node. -/
  | operand {n : Node} {p : n.Part} (hkind : n.kind = .binaryExpression)
      (hleft : n.leftOperand? = some p) (hright : n.rightOperand? = some p) : ReusesPart n
  /-- A comprehension whose body is the node that is labelled as its `for` clause. -/
  | clause {n : Node} {p : n.Part} (hkind : n.kind = .listComprehension)
      (hloop : n.field? "for_clause" = some p) (helement : n.field? "element" = none)
      (hfound : n.find? (fun c => c.kind.isExpression && c.label != some "condition") = some p) :
      ReusesPart n

/-! ## §3 Separated views -/

/-- The view stands inside the node.  In it and in every view inside it no position lies in two
children, as long as the view is not made of a node that reuses a part. -/
structure Separates (n : Node) (v : View) : Prop where
  encloses : n.span.encloses v.span = true
  apart : ∀ w ∈ v.preorder, w.children.Pairwise View.Apart ∨
    ∃ m : Node, m.Within n ∧ m.ReusesPart ∧ w.span = m.span

namespace Separates

variable {m n : Node} {v w : View}

/-- A larger tree separates what a smaller one does. -/
theorem within (h : m.Separates v) (hn : n.Parcelled) (hm : m.Within n) : n.Separates v := by
  refine ⟨Span.encloses_trans (hn.encloses hm) h.encloses, fun w hw => ?_⟩
  rcases h.apart w hw with hapart | ⟨l, hl, hreuses, hspan⟩
  · exact .inl hapart
  · exact .inr ⟨l, hl.trans hm, hreuses, hspan⟩

/-- The view of a whole node is separated where its children are. -/
theorem of_children (hspan : v.span = n.span) (hchildren : ∀ c ∈ v.children, n.Separates c)
    (hapart : v.children.Pairwise View.Apart ∨ n.ReusesPart) : n.Separates v := by
  refine ⟨hspan ▸ Span.encloses_refl _, View.forall_mem_preorder.mpr ⟨?_, fun c hc => ?_⟩⟩
  · exact hapart.imp_right fun hreuses => ⟨n, .refl n, hreuses, hspan⟩
  · exact (hchildren c hc).apart

theorem views_apart (hv : m.Separates v) (hw : n.Separates w) (h : m.span.Apart n.span) :
    v.Apart w :=
  h.mono hv.encloses hw.encloses

end Separates

/-- The node separates all of the views, and no position lies in two of them. -/
structure Carries (n : Node) (vs : List View) : Prop where
  separates : ∀ v ∈ vs, n.Separates v
  apart : vs.Pairwise View.Apart

namespace Carries

variable {m n : Node} {v : View} {vs : List View}

theorem nil : n.Carries [] :=
  ⟨List.forall_mem_nil _, .nil⟩

theorem singleton (h : n.Separates v) : n.Carries [v] :=
  ⟨List.forall_mem_singleton.mpr h, List.pairwise_singleton _ _⟩

theorem within (h : m.Carries vs) (hn : n.Parcelled) (hm : m.Within n) : n.Carries vs :=
  ⟨fun v hv => (h.separates v hv).within hn hm, h.apart⟩

theorem append {ws : List View} (hv : n.Carries vs) (hw : n.Carries ws)
    (h : ∀ v ∈ vs, ∀ w ∈ ws, v.Apart w) : n.Carries (vs ++ ws) :=
  ⟨List.forall_mem_append.mpr ⟨hv.separates, hw.separates⟩,
    List.pairwise_append.mpr ⟨hv.apart, hw.apart, h⟩⟩

/-- What the nodes of a list carry, put together. -/
theorem flatten (hn : n.Parcelled) {ps : List n.Part} {groups : List (List View)}
    (hps : ∀ p ∈ ps, p.node.Within n)
    (hapart : ps.Pairwise fun p q => p.node.span.Apart q.node.span)
    (h : List.Forall₂ (fun p group => p.node.Carries group) ps groups) :
    n.Carries groups.flatten := by
  induction h with
  | nil => exact .nil
  | @cons p group ps groups hgroup hgroups ih =>
    obtain ⟨hp, hps⟩ := List.forall_mem_cons.mp hps
    obtain ⟨hfirst, hapart⟩ := List.pairwise_cons.mp hapart
    refine (hgroup.within hn hp).append (ih hps hapart) fun v hv w hw => ?_
    -- The two stand inside nodes that are apart.
    obtain ⟨other, hother, hw⟩ := List.mem_flatten.mp hw
    obtain ⟨q, hq, hcarries⟩ := Conversion.Meets.exists_of_forall₂ hgroups other hother
    exact (hgroup.separates v hv).views_apart (hcarries.separates w hw) (hfirst q hq)

/-- One view for each node of a list. -/
theorem of_parts (hn : n.Parcelled) {ps : List n.Part} (hps : ∀ p ∈ ps, p.node.Within n)
    (hapart : ps.Pairwise fun p q => p.node.span.Apart q.node.span)
    (h : List.Forall₂ (fun p v => p.node.Separates v) ps vs) : n.Carries vs := by
  have hgroups : List.Forall₂ (fun p group => p.node.Carries group) ps (vs.map fun v => [v]) :=
    List.forall₂_map_right_iff.mpr (h.imp fun _ _ => singleton)
  have hflatten : (vs.map fun v => [v]).flatten = vs := by simp [← List.flatMap_def]
  exact hflatten ▸ flatten hn hps hapart hgroups

end Carries

end Node

end Scad
