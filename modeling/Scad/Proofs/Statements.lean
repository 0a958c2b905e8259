import Mathlib.Data.List.Basic
import Scad.Ast.View

/-!
# The Statements of a Program

A program is walked through its views.  Its statements, and what each of them declares, can be
listed without them, straight from the constructors of `Statement`.

* `Statement.parts`, `Statement.preorder` — the statements stored in a statement, directly and at
  any depth.
* `Statement.parameters`, `Statement.bindings`, `Statement.strayBindings` — the names that a
  statement introduces by itself.
* `View.flatMap_ofStatementParts` — what stands directly inside a statement, where the expressions
  and arguments do not matter.
* `Program.filterMap_preorder` — the walk over a program meets each stored statement exactly once.
-/

namespace Scad

/-! ## §1 Stored statements -/

namespace Statement

/-- The statements stored directly in a statement, in the order of the source. -/
def parts : Statement → List Statement
  | assertion _ _ body _ | assign _ body _ | echo _ body _ => body.toList
  | moduleDefinition _ _ _ body _ | loop _ body _ | letIn _ body _ => body
  | call _ _ _ children _ | transform _ children _ | csg _ children _ => children
  | modified _ child _ => [child]
  | branch _ consequence alternative _ => consequence ++ alternative.getD []
  | block statements _ => statements
  | expression _ | fault _ | assignment _ | functionDefinition .. | primitive ..
  | inclusion .. => []

theorem sizeOf_lt_of_mem_parts {s t : Statement} (h : t ∈ s.parts) : sizeOf t < sizeOf s := by
  have hlist {ss : List Statement} (h : t ∈ ss) : sizeOf t < sizeOf ss := List.sizeOf_lt_of_mem h
  cases s <;> simp only [parts, List.not_mem_nil, Option.mem_toList, List.mem_append,
    List.mem_singleton] at h
  case assertion | assign | echo => subst h; simp; omega
  case moduleDefinition | loop | letIn | call | transform | csg | block =>
    have := hlist h
    simp
    omega
  case modified => subst h; simp; omega
  -- The alternative is an option of a list.
  case branch _ consequence alternative _ =>
    rcases h with h | h
    · have := hlist h
      simp
      omega
    · cases alternative with
      | none => simp at h
      | some alternative =>
        have hmem : t ∈ alternative := h
        have := hlist hmem
        simp
        omega

/-- The statement and every statement stored in it at any depth, a parent before its parts. -/
def preorder (s : Statement) : List Statement :=
  s :: s.parts.attach.flatMap fun t => preorder t.1
termination_by sizeOf s
decreasing_by exact sizeOf_lt_of_mem_parts t.2

theorem preorder_eq (s : Statement) : s.preorder = s :: s.parts.flatMap preorder := by
  rw [preorder]
  congr 1
  simp [List.flatMap_subtype]

/-! ## §2 What a statement introduces -/

/-- The parameters in the head of a definition. -/
def parameters : Statement → List Declaration
  | moduleDefinition _ _ parameters _ _ | functionDefinition _ _ parameters _ _ => parameters
  | _ => []

/-- The bindings of a statement that is made of them, or starts with them. -/
def bindings : Statement → List Binding
  | assignment b => [b]
  | assign bindings _ _ | loop bindings _ _ | letIn bindings _ _ => bindings
  | _ => []

/-- The bindings of an expression that stands as a statement by itself. -/
def strayBindings : Statement → List Binding
  | expression (.letIn bindings _ _) | expression (.comprehension _ bindings _ _ _ _ _) => bindings
  | _ => []

end Statement

/-! ## §3 Inside a single view -/

namespace View

theorem exists_expression_of_mem_ofValue {v : Value} {w : View} (h : w ∈ ofValue v) :
    ∃ e, w = expression e := by
  cases v <;> simp_all [ofValue, Value.expression?]

theorem exists_expression_of_mem_ofExpression? {e : Option Expression} {w : View}
    (h : w ∈ ofExpression? e) : ∃ e, w = expression e := by
  cases e <;> simp_all [ofExpression?]

theorem exists_expression_of_mem_ofPrimitive {p : Primitive} {w : View} (h : w ∈ ofPrimitive p) :
    ∃ e, w = expression e := by
  cases p <;> grind [ofPrimitive, ofValue?, exists_expression_of_mem_ofValue]

theorem exists_expression_of_mem_ofTransform {t : Transform} {w : View} (h : w ∈ ofTransform t) :
    ∃ e, w = expression e := by
  cases t <;> grind [ofTransform, ofValue?, exists_expression_of_mem_ofValue]

theorem children_ofStatement (s : Statement) :
    (ofStatement s).children = ofStatementParts s := by
  cases s <;> rfl

/-- Whatever is collected from what stands directly inside a statement comes from its parameters,
its bindings and its statements, where expressions and arguments give nothing. -/
theorem flatMap_ofStatementParts {α : Type} {collect : View → List α}
    (hexpression : ∀ e, collect (expression e) = [])
    (hargument : ∀ a, collect (argument a) = []) (s : Statement) :
    (ofStatementParts s).flatMap collect =
      (s.parameters.flatMap fun d => collect (declaration d)) ++
        ((s.bindings ++ s.strayBindings).flatMap fun b => collect (binding b)) ++
        s.parts.flatMap fun t => collect (ofStatement t) := by
  have hnone {vs : List View} (h : ∀ w ∈ vs, ∃ e, w = expression e) : vs.flatMap collect = [] := by
    apply List.flatMap_eq_nil_iff.mpr
    intro w hw
    obtain ⟨e, rfl⟩ := h w hw
    exact hexpression e
  have hexpression? (e : Option Expression) : (ofExpression? e).flatMap collect = [] :=
    hnone fun _ => exists_expression_of_mem_ofExpression?
  have hprimitive (shape : Primitive) : (ofPrimitive shape).flatMap collect = [] :=
    hnone fun _ => exists_expression_of_mem_ofPrimitive
  have htransform (transform : Transform) : (ofTransform transform).flatMap collect = [] :=
    hnone fun _ => exists_expression_of_mem_ofTransform
  have hstatement? (t : Option Statement) :
      (ofStatement? t).flatMap collect = t.toList.flatMap fun t => collect (ofStatement t) := by
    cases t <;> simp [ofStatement?]
  cases s with
  | expression e =>
    cases e <;> simp [ofStatementParts, ofParts, Statement.parts, Statement.parameters,
      Statement.bindings, Statement.strayBindings, List.flatMap_map, *]
  | _ =>
    simp [ofStatementParts, Statement.parts, Statement.parameters, Statement.bindings,
      Statement.strayBindings, List.flatMap_map, *]

/-- Whether a view shows a statement, a fault included. -/
def isStatement : View → Bool
  | statement _ | fault _ => true
  | _ => false

/-- No statement stands inside an expression, an argument, a declaration or a binding. -/
theorem isStatement_of_mem_children {v w : View} (hv : v.isStatement = false)
    (h : w ∈ v.children) : w.isStatement = false := by
  have hexpression (h : ∃ e, w = expression e) : w.isStatement = false := by
    obtain ⟨e, rfl⟩ := h
    rfl
  cases v with
  | statement | fault => cases hv
  | expression e =>
    cases e <;> simp only [children, ofParts, List.mem_append, List.mem_map, List.mem_cons,
      List.not_mem_nil, or_false] at h
    all_goals grind [isStatement, exists_expression_of_mem_ofExpression?]
  | argument a => exact hexpression (exists_expression_of_mem_ofValue h)
  | declaration d => exact hexpression (exists_expression_of_mem_ofExpression? h)
  | binding b => exact hexpression ⟨_, List.mem_singleton.mp h⟩

/-! ## §4 The walk over a program -/

section Walk

variable {α : Type} {ofView : View → Option α} {ofStored : Statement → Option α}

/-- Nothing is found in a view that shows no statement, where only statements are looked for. -/
theorem filterMap_preorder_eq_nil (hother : ∀ v : View, v.isStatement = false → ofView v = none)
    {v : View} (hv : v.isStatement = false) : v.preorder.filterMap ofView = [] := by
  induction v using View.induct with
  | step v ih =>
    rw [preorder_eq, List.filterMap_cons, hother v hv, List.filterMap_flatMap]
    apply List.flatMap_eq_nil_iff.mpr
    intro c hc
    exact ih c hc (isStatement_of_mem_children hv hc)

/-- What is found in the views inside a statement is found in the statements stored in it. -/
theorem filterMap_preorder_ofStatement (hstored : ∀ s, ofView (ofStatement s) = ofStored s)
    (hother : ∀ v : View, v.isStatement = false → ofView v = none) (s : Statement) :
    (ofStatement s).preorder.filterMap ofView = s.preorder.filterMap ofStored := by
  have hnone (v : View) (hv : v.isStatement = false) : v.preorder.filterMap ofView = [] :=
    filterMap_preorder_eq_nil hother hv
  have hparameters : (s.parameters.flatMap fun d =>
      (declaration d).preorder.filterMap ofView) = [] :=
    List.flatMap_eq_nil_iff.mpr fun d _ => hnone (declaration d) rfl
  have hbindings : ((s.bindings ++ s.strayBindings).flatMap fun b =>
      (binding b).preorder.filterMap ofView) = [] :=
    List.flatMap_eq_nil_iff.mpr fun b _ => hnone (binding b) rfl
  have hparts : (s.parts.flatMap fun t => (ofStatement t).preorder.filterMap ofView) =
      s.parts.flatMap fun t => t.preorder.filterMap ofStored := by
    apply List.flatMap_congr
    intro t ht
    exact filterMap_preorder_ofStatement hstored hother t
  have hinside : (ofStatementParts s).flatMap (fun c => c.preorder.filterMap ofView) =
      s.parts.flatMap fun t => t.preorder.filterMap ofStored := by
    rw [flatMap_ofStatementParts (fun e => hnone (expression e) rfl)
      (fun a => hnone (argument a) rfl), hparameters, hbindings, hparts]
    rfl
  rw [preorder_eq, s.preorder_eq, children_ofStatement, List.filterMap_cons, List.filterMap_cons,
    List.filterMap_flatMap, List.filterMap_flatMap, hinside, hstored]
termination_by sizeOf s
decreasing_by exact Statement.sizeOf_lt_of_mem_parts ht

end Walk

end View

namespace Program

/-- The statements of a program at any depth, in pre-order. -/
def statements (program : Program) : List Statement :=
  program.flatMap Statement.preorder

/-- The walk over a program meets each stored statement exactly once. -/
theorem filterMap_preorder {α : Type} {ofView : View → Option α}
    {ofStored : Statement → Option α} (hstored : ∀ s, ofView (.ofStatement s) = ofStored s)
    (hother : ∀ v : View, v.isStatement = false → ofView v = none) (program : Program) :
    program.preorder.filterMap ofView = program.statements.filterMap ofStored := by
  rw [preorder, statements, views, List.filterMap_flatMap, List.filterMap_flatMap,
    List.flatMap_map]
  apply List.flatMap_congr
  intro s _
  exact View.filterMap_preorder_ofStatement hstored hother s

end Program

end Scad
