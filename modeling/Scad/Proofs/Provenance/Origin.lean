import Scad.Ast.View
import Scad.Proofs.Outcome

/-!
# Where Views Come From

A conversion never invents a place.  `Node.Yields n v` says that the view `v` is made of the syntax
in the subtree of `n`: it stands where a node of the subtree stands, or reaches from one such node to
another, and what stands inside it is made of the syntax inside that place.

The rules are all a conversion can do, whatever the construct.  What is true of the places of a
program, such as their nesting, is proved by induction on these rules and not construct by
construct.
-/

namespace Scad

/-! ## §1 Names -/

/-- Where the name of a definition, a binding or a call stands. -/
def View.nameSpan? : View → Option Span
  | .binding b => some b.nameSpan
  | .statement (.moduleDefinition _ nameSpan _ _ _)
  | .statement (.functionDefinition _ nameSpan _ _ _)
  | .statement (.call _ nameSpan _ _ _) => some nameSpan
  | _ => none

/-! ## §2 The rules -/

/-- The view is made of the syntax in the subtree of the node. -/
inductive Node.Yields : Node → View → Prop where
  /-- A construct stands where its node stands, and its name where a node inside stands. -/
  | made {n : Node} {v : View} (hspan : v.span = n.span)
      (hname : ∀ s, v.nameSpan? = some s → ∃ m : Node, m.Within n ∧ s = m.span)
      (hchildren : ∀ c ∈ v.children, Node.Yields n c) : Node.Yields n v
  /-- A wrapper stands for what it holds. -/
  | within {m n : Node} {v : View} (hm : m.Within n) (hv : Node.Yields m v) : Node.Yields n v
  /-- A loop binding reaches from its variable to its range. -/
  | loop {iterator range n : Node} {name : String} {value : Expression}
      (hiterator : iterator.Within n) (hrange : range.Within n)
      (hvalue : Node.Yields range (.expression value)) :
      Node.Yields n (.binding ⟨name, iterator.span, value, iterator.spanTo range⟩)
  /-- A modified statement reaches from the modifier to the statement. -/
  | modified {modifier target n : Node} {kind : Modifier} {child : Statement}
      (hmodifier : modifier.Within n) (htarget : target.Within n)
      (hchild : Node.Yields target (.ofStatement child)) :
      Node.Yields n (.statement (.modified kind child (modifier.spanTo target)))
  /-- A modifier that reaches as far as the statement behind it covers both by itself. -/
  | beside {modifier target n : Node} {kind : Modifier} {child : Statement}
      (hlist : [modifier, target].Sublist n.named) (hstop : target.stopByte ≤ modifier.stopByte)
      (hchild : Node.Yields target (.ofStatement child)) :
      Node.Yields n (.statement (.modified kind child modifier.span))

namespace Node.Yields

variable {m n : Node} {v : View}

/-- What stands inside a view is made of the same syntax. -/
theorem children (h : n.Yields v) : ∀ c ∈ v.children, n.Yields c := by
  induction h with
  | made _ _ hchildren _ => exact hchildren
  | within hm _ ih => exact fun c hc => .within hm (ih c hc)
  | loop _ hrange hvalue _ =>
    intro c hc
    obtain rfl := List.mem_singleton.mp hc
    exact .within hrange hvalue
  | modified _ htarget hchild _ =>
    intro c hc
    obtain rfl := List.mem_singleton.mp hc
    exact .within htarget hchild
  | beside hlist _ hchild _ =>
    intro c hc
    obtain rfl := List.mem_singleton.mp hc
    exact .within (Holds.within (.inr (hlist.subset (by simp)))) hchild

/-- What has no name is made at one node with all its parts. -/
theorem of_unnamed {v : View} (hspan : v.span = n.span) (hname : v.nameSpan? = none)
    (hparts : ∀ c ∈ v.children, n.Yields c) : n.Yields v :=
  .made hspan (by simp [hname]) hparts

/-- A fault stands at some node of the tree. -/
theorem of_fault {f : Fault} (h : f.PointsInto n) : n.Yields (.fault f) := by
  obtain ⟨m, hm, hspan⟩ := h.exists_span
  exact .within hm (.of_unnamed hspan rfl (List.forall_mem_nil _))

/-- An expression is no loop binding and no modified statement, so it was made at one node. -/
theorem exists_made {e : Expression} (h : n.Yields (.expression e)) :
    ∃ m : Node, m.Within n ∧ e.span = m.span ∧ m.Yields (.expression e) := by
  generalize hv : View.expression e = v at h
  induction h with
  | made hspan hname hchildren _ =>
    subst hv
    exact ⟨_, .refl _, hspan, .made hspan hname hchildren⟩
  | within hm _ ih =>
    obtain ⟨m', hm', h⟩ := ih hv
    exact ⟨m', hm'.trans hm, h⟩
  | loop | modified | beside => cases hv

/-- An expression with parts that are made of the same syntax. -/
theorem of_parts {e : Expression} (hspan : e.span = n.span)
    (hparts : ∀ c ∈ View.ofParts e, n.Yields c) : n.Yields (.expression e) :=
  .of_unnamed hspan rfl hparts

/-- A statement with parts that are made of the same syntax. -/
theorem of_statementParts {s : Statement} (hspan : s.span = n.span)
    (hname : ∀ t, (View.statement s).nameSpan? = some t → ∃ m : Node, m.Within n ∧ t = m.span)
    (hparts : ∀ c ∈ View.ofStatementParts s, n.Yields c) : n.Yields (.ofStatement s) := by
  cases s with
  | fault f => exact .of_unnamed hspan rfl (List.forall_mem_nil _)
  | _ => exact .made hspan hname hparts

theorem of_unnamedParts {s : Statement} (hspan : s.span = n.span)
    (hname : (View.statement s).nameSpan? = none)
    (hparts : ∀ c ∈ View.ofStatementParts s, n.Yields c) : n.Yields (.ofStatement s) :=
  .of_statementParts hspan (by simp [hname]) hparts

/-- What stands inside a statement is made of the same syntax. -/
theorem statementParts {s : Statement} (h : n.Yields (.ofStatement s)) :
    ∀ c ∈ View.ofStatementParts s, n.Yields c := by
  cases s with
  | fault f => exact List.forall_mem_nil _
  | _ => exact h.children

/-- An expression may stand as a statement. -/
theorem toStatement {e : Expression} (h : n.Yields (.expression e)) :
    n.Yields (.ofStatement (.expression e)) := by
  obtain ⟨m, hm, hspan, h⟩ := h.exists_made
  exact .within hm (.of_unnamedParts hspan rfl h.children)

end Node.Yields

/-! ## §3 Values -/

/-- Whatever of the value was kept as an expression is made of the syntax of the node. -/
def Node.YieldsValue (n : Node) (v : Value) : Prop :=
  ∀ c ∈ View.ofValue v, n.Yields c

theorem Node.yieldsValue_expression {n : Node} {e : Expression} :
    n.YieldsValue (.expression e) ↔ n.Yields (.expression e) := by
  simp [YieldsValue, View.ofValue, Value.expression?]

theorem Node.YieldsValue.of_settled {n : Node} {v : Value} (h : v.expression? = none) :
    n.YieldsValue v := by
  simp [YieldsValue, View.ofValue, h]

theorem Node.Yields.toValue {n : Node} {e : Expression} (h : n.Yields (.expression e)) :
    n.YieldsValue e.toValue := by
  cases e with
  | literal value _ => cases value <;> exact .of_settled rfl
  | _ => exact yieldsValue_expression.mpr h

/-- An argument is made of the syntax of its value. -/
theorem Node.Yields.argument_value {n : Node} {a : Argument} (h : n.Yields (.argument a)) :
    n.YieldsValue a.value :=
  h.children

/-- The same of a value that may be absent. -/
def Node.YieldsValue? (n : Node) (x : Option Value) : Prop :=
  ∀ v, x = some v → n.YieldsValue v

namespace Node.YieldsValue?

variable {n : Node} {x y : Option Value}

theorem or (hx : n.YieldsValue? x) (hy : n.YieldsValue? y) : n.YieldsValue? (x.or y) := by
  intro v h
  rcases Option.or_eq_some_iff.mp h with h | ⟨-, h⟩
  · exact hx v h
  · exact hy v h

/-- A default that was settled adds nothing. -/
theorem getD {default : Value} (hx : n.YieldsValue? x) (hdefault : default.expression? = none) :
    n.YieldsValue (x.getD default) := by
  cases x with
  | none => exact .of_settled hdefault
  | some v => exact hx v rfl

theorem views (hx : n.YieldsValue? x) : ∀ c ∈ View.ofValue? x, n.Yields c := by
  cases x with
  | none => exact List.forall_mem_nil _
  | some v =>
    rw [View.ofValue?, Option.toList_some, List.flatMap_singleton]
    exact hx v rfl

end Node.YieldsValue?

/-! ## §4 Conversions of parts -/

/-- Whatever `convert` makes of a part in the subtree is made of the syntax of that part. -/
def Converter.Traces {n : Node} {α : Type} (view : α → View) (convert : Converter n α) : Prop :=
  ∀ p : n.Part, p.node.Within n →
    (convert p).Meets p.node fun r => ∀ a, r = some a → p.node.Yields (view a)

theorem Converter.Traces.inside {n : Node} {α : Type} {view : α → View} {convert : Converter n α}
    (h : convert.Traces view) {p : n.Part} (hp : p.node.Within n) :
    (convert.inside p).Traces view :=
  fun q hq => h (p.within q) (hq.trans hp)

end Scad
