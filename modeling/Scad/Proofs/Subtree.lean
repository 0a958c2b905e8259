import Scad.Tree.Node

/-!
# Subtrees

A node *holds* its children and its named children; the subtree of a node is the node and
everything held in it, at any depth.  Every lookup of `Node` answers with a held node, so whatever a
conversion recurses on stands in the subtree it started from.
-/

namespace Scad.Node

/-! ## §1 Holding and standing within -/

/-- `c` is one of the children or of the named children of `n`. -/
def Holds (n c : Node) : Prop :=
  c ∈ n.children ∨ c ∈ n.named

/-- `m` stands in the subtree of `n`, the node itself included. -/
inductive Within : Node → Node → Prop where
  /-- A node stands in its own subtree. -/
  | refl (n : Node) : Within n n
  /-- What stands in the subtree of a held node stands in the subtree of its holder. -/
  | step {m c n : Node} : n.Holds c → Within m c → Within m n

theorem Holds.within {n c : Node} (h : n.Holds c) : c.Within n :=
  .step h (.refl c)

theorem Holds.of_push {n c d : Node} (h : (n.push c).Holds d) : n.Holds d ∨ d = c := by
  rcases h with h | h
  · rcases List.mem_append.mp h with h | h
    · exact .inl (.inl h)
    · exact .inr (List.mem_singleton.mp h)
  · rw [push] at h
    dsimp only at h
    split at h
    · rcases List.mem_append.mp h with h | h
      · exact .inl (.inr h)
      · exact .inr (List.mem_singleton.mp h)
    · exact .inl (.inr h)

theorem Within.trans {l m n : Node} (hlm : l.Within m) (hmn : m.Within n) : l.Within n := by
  induction hmn with
  | refl => exact hlm
  | step hc _ ih => exact .step hc ih

/-- What is true of a node, and in the subtree of everything it holds, is true in its whole
subtree. -/
theorem forall_within {P : Node → Prop} {n : Node} (hself : P n)
    (hheld : ∀ c, n.Holds c → ∀ m : Node, m.Within c → P m) : ∀ m : Node, m.Within n → P m := by
  intro m hm
  cases hm with
  | refl => exact hself
  | step hc hm => exact hheld _ hc m hm

/-! ## §2 Lookups stay within the subtree -/

variable {n : Node}

theorem Part.eq_of_node_eq {p q : n.Part} (h : p.node = q.node) : p = q := by
  cases p
  cases q
  cases h
  rfl

/-- Whatever part the lookup answers with stands in the subtree of the node. -/
def Finds (n : Node) (x : Option n.Part) : Prop :=
  ∀ p, x = some p → p.node.Within n

theorem mem_children_of_mem_parts {p : n.Part} (h : p ∈ n.parts) : p.node ∈ n.children := by
  rw [← n.map_node_parts]
  exact List.mem_map_of_mem h

theorem within_of_mem_parts {p : n.Part} (h : p ∈ n.parts) : p.node.Within n :=
  Holds.within (.inl (mem_children_of_mem_parts h))

theorem mem_named_of_mem_namedParts {p : n.Part} (h : p ∈ n.namedParts) : p.node ∈ n.named := by
  rw [← n.map_node_namedParts]
  exact List.mem_map_of_mem h

theorem within_of_mem_namedParts {p : n.Part} (h : p ∈ n.namedParts) : p.node.Within n :=
  Holds.within (.inr (mem_named_of_mem_namedParts h))

theorem within_of_mem_significant {p : n.Part} (h : p ∈ n.significant) : p.node.Within n :=
  within_of_mem_namedParts (List.mem_filter.mp h).1

namespace Finds

theorem none : n.Finds none :=
  fun _ h => nomatch h

theorem some {p : n.Part} (h : p.node.Within n) : n.Finds (some p) := by
  rintro _ ⟨⟩
  exact h

theorem or {x y : Option n.Part} (hx : n.Finds x) (hy : n.Finds y) : n.Finds (x.or y) := by
  intro p h
  rcases Option.or_eq_some_iff.mp h with h | ⟨-, h⟩
  · exact hx p h
  · exact hy p h

theorem filter {x : Option n.Part} {accepts : n.Part → Bool} (hx : n.Finds x) :
    n.Finds (x.filter accepts) :=
  fun p h => hx p (Option.filter_eq_some_iff.mp h).1

theorem ite {c : Prop} [Decidable c] {x y : Option n.Part} (hx : n.Finds x) (hy : n.Finds y) :
    n.Finds (if c then x else y) := by
  split
  · exact hx
  · exact hy

/-- A part found inside a part that was found is a part that is found. -/
theorem bind_within {x : Option n.Part} {look : (p : n.Part) → Option p.node.Part}
    (hx : n.Finds x) (hlook : ∀ p : n.Part, p.node.Finds (look p)) :
    n.Finds (x.bind fun p => (look p).map p.within) := by
  intro q h
  obtain ⟨p, hp, h⟩ := Option.bind_eq_some_iff.mp h
  obtain ⟨r, hr, rfl⟩ := Option.map_eq_some_iff.mp h
  exact (hlook p r hr).trans (hx p hp)

theorem head? {l : List n.Part} (h : ∀ p ∈ l, p.node.Within n) : n.Finds l.head? :=
  fun p hp => h p (List.mem_of_head? hp)

theorem getLast? {l : List n.Part} (h : ∀ p ∈ l, p.node.Within n) : n.Finds l.getLast? :=
  fun p hp => h p (List.mem_of_getLast? hp)

theorem getElem? {l : List n.Part} {i : Nat} (h : ∀ p ∈ l, p.node.Within n) : n.Finds l[i]? :=
  fun p hp => h p (List.mem_of_getElem? hp)

end Finds

/-- What is found under a label is held by the node, and has the label. -/
theorem holds_of_field? {label : String} {p : n.Part} (h : n.field? label = some p) :
    n.Holds p.node ∧ p.node.label = some label := by
  rcases Option.or_eq_some_iff.mp h with h | ⟨-, h⟩
  · have hlabel := List.find?_some h
    exact ⟨.inl (mem_children_of_mem_parts (List.mem_of_find?_eq_some h)), by simpa using hlabel⟩
  · have hlabel := List.find?_some h
    exact ⟨.inr (mem_named_of_mem_namedParts (List.mem_of_find?_eq_some h)), by simpa using hlabel⟩

theorem finds_field? (label : String) : n.Finds (n.field? label) :=
  fun _ h => (holds_of_field? h).1.within

theorem finds_anyField? (labels : List String) : n.Finds (n.anyField? labels) := by
  intro p h
  obtain ⟨label, -, h⟩ := List.exists_of_findSome?_eq_some h
  exact finds_field? label p h

theorem finds_token? (accepts : Node → Bool) : n.Finds (n.token? accepts) :=
  fun _ h => within_of_mem_parts (List.mem_of_find?_eq_some h)

theorem finds_find? (accepts : Node → Bool) : n.Finds (n.find? accepts) :=
  fun _ h => within_of_mem_significant (List.mem_of_find?_eq_some h)

theorem finds_findLast? (accepts : Node → Bool) : n.Finds (n.findLast? accepts) :=
  .getLast? fun _ h => within_of_mem_significant (List.mem_filter.mp h).1

theorem finds_ofKind? (kind : Kind) : n.Finds (n.ofKind? kind) :=
  finds_find? _

theorem finds_head?_significant : n.Finds n.significant.head? :=
  .head? fun _ => within_of_mem_significant

theorem finds_getLast?_significant : n.Finds n.significant.getLast? :=
  .getLast? fun _ => within_of_mem_significant

theorem finds_getElem?_significant (i : Nat) : n.Finds n.significant[i]? :=
  .getElem? fun _ => within_of_mem_significant

theorem significant_of_onlyChild? {labels : List String} {p : n.Part}
    (h : n.onlyChild? labels = some p) : n.significant = [p] := by
  unfold onlyChild? at h
  split at h
  · cases h
  · split at h
    · next only honly =>
      obtain rfl : only = p := Option.some.inj h
      exact honly
    · cases h

/-- An empty rung has none of the labels, and no token. -/
theorem lookups_of_onlyChild? {labels : List String} {p : n.Part}
    (h : n.onlyChild? labels = some p) :
    (∀ label ∈ labels, n.field? label = none) ∧ ∀ accepts, n.token? accepts = none := by
  unfold onlyChild? at h
  split at h
  · cases h
  · next hempty =>
    rw [Bool.or_eq_true, not_or] at hempty
    refine ⟨fun label hlabel => ?_, fun accepts => List.find?_eq_none.mpr fun c hc => ?_⟩
    · have hfield := List.any_eq_false.mp (Bool.eq_false_iff.mpr hempty.1) label hlabel
      simpa using hfield
    · have htoken := List.any_eq_false.mp (Bool.eq_false_iff.mpr hempty.2) c.node
        (mem_children_of_mem_parts hc)
      simp_all

theorem finds_onlyChild? (labels : List String) : n.Finds (n.onlyChild? labels) := by
  intro p h
  have hp : p ∈ n.significant := by simp [significant_of_onlyChild? h]
  exact within_of_mem_significant hp

theorem finds_descendant? (n : Node) (kind : Kind) : n.Finds (n.descendant? kind) := by
  intro p h
  rw [descendant?] at h
  obtain ⟨c, hc, h⟩ := List.exists_of_findSome?_eq_some h
  split at h
  · obtain rfl : c = p := Option.some.inj h
    exact within_of_mem_parts hc
  · obtain ⟨q, hq, rfl⟩ := Option.map_eq_some_iff.mp h
    exact (finds_descendant? c.node kind q hq).trans (within_of_mem_parts hc)
termination_by sizeOf n
decreasing_by exact c.inside

end Scad.Node
