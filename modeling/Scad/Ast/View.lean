import Scad.Ast.Statement

/-!
# Views

A view is any node of a program, of whatever type: a statement, an expression, a fault, an argument,
the declaration of a parameter, or a binding.  `View.children` lists what stands directly inside a
view, in the order of the source; everything that searches or walks a program goes through it.

* A literal value, and the value of an argument that was settled when it was read, have no view.
* A statement that is an expression is one view, whose children are those of the expression.
* `View.preorder` lists a view and everything inside it, a parent before its children.
-/

namespace Scad

/-- Any node of a program. -/
inductive View where
  | statement (s : Statement)
  | expression (e : Expression)
  | fault (f : Fault)
  | argument (a : Argument)
  | declaration (d : Declaration)
  | binding (b : Binding)
  deriving Inhabited

namespace View

/-! ## §1 A single view -/

/-- The view of a statement; a fault is a view of its own. -/
def ofStatement : Statement → View
  | .fault f => fault f
  | s => statement s

/-- The view of a value, where it was kept as an expression. -/
def ofValue (v : Value) : List View :=
  (v.expression?.map expression).toList

/-- The views of a value that may be absent. -/
def ofValue? (v : Option Value) : List View :=
  v.toList.flatMap ofValue

/-- The views of an expression that may be absent. -/
def ofExpression? (e : Option Expression) : List View :=
  (e.map expression).toList

/-- The views of a statement that may be absent. -/
def ofStatement? (s : Option Statement) : List View :=
  (s.map ofStatement).toList

/-- Where a view stands. -/
def span : View → Span
  | statement s => s.span
  | expression e => e.span
  | fault f => f.span
  | argument a => a.span
  | declaration d => d.span
  | binding b => b.span

/-- What a view is called. -/
def kind : View → String
  | statement s => s.typeName
  | expression e => e.typeName
  | fault _ => "error"
  | argument _ => "parameter"
  | declaration _ => "parameter_declaration"
  | binding _ => "assignment"

/-- The fault, where the view is one. -/
def fault? : View → Option Fault
  | fault f => some f
  | _ => none

/-! ## §2 What stands inside -/

/-- The views directly inside an expression. -/
def ofParts : Expression → List View
  | .literal .. | .identifier .. | .special .. => []
  | .call _ arguments _ => arguments.map argument
  | .vector elements _ => elements.map expression
  | .index array index _ => [expression array, expression index]
  | .member object _ _ => [expression object]
  | .range start step stop _ => [expression start] ++ ofExpression? step ++ [expression stop]
  | .letIn bindings body _ => bindings.map binding ++ [expression body]
  | .comprehension _ bindings _ iterable condition body _ =>
    bindings.map binding ++ [expression iterable] ++ ofExpression? condition ++ [expression body]
  | .binary _ left right _ => [expression left, expression right]
  | .unary _ operand _ => [expression operand]
  | .conditional condition consequence alternative _ =>
    [expression condition, expression consequence, expression alternative]

/-- The views of the parameters of a shape. -/
def ofPrimitive : Primitive → List View
  | .cube size center | .square size center => ofValue size ++ ofValue center
  | .sphere radius | .circle radius => ofValue radius
  | .cylinder height radiusBottom radiusTop center =>
    ofValue height ++ ofValue radiusBottom ++ ofValue radiusTop ++ ofValue center
  | .polyhedron points faces _ => ofValue points ++ ofValue faces
  | .polygon points paths => ofValue points ++ ofValue? paths
  | .text text size => ofValue text ++ ofValue size

/-- The views of the parameters of a transform. -/
def ofTransform : Transform → List View
  | .translate value | .scale value | .mirror value | .multmatrix value => ofValue value
  | .rotate angle axis => ofValue angle ++ ofValue? axis
  | .resize size auto => ofValue size ++ ofValue auto
  | .color color alpha => ofValue color ++ ofValue? alpha
  | .offset amount chamfer => ofValue amount.value ++ ofValue chamfer
  | .linearExtrude height center twist slices scale =>
    ofValue height ++ ofValue center ++ ofValue twist ++ ofValue? slices ++ ofValue scale
  | .rotateExtrude angle _ => ofValue angle

/-- The views directly inside a statement. -/
def ofStatementParts : Statement → List View
  | .expression e => ofParts e
  | .fault _ | .inclusion .. => []
  | .assertion condition message body _ =>
    [expression condition] ++ ofExpression? message ++ ofStatement? body
  | .assign bindings body _ => bindings.map binding ++ ofStatement? body
  | .assignment b => [binding b]
  | .moduleDefinition _ _ parameters body _ =>
    parameters.map declaration ++ body.map ofStatement
  | .functionDefinition _ _ parameters body _ =>
    parameters.map declaration ++ [expression body]
  | .call _ _ arguments children _ => arguments.map argument ++ children.map ofStatement
  | .primitive shape specials _ => ofPrimitive shape ++ specials.map argument
  | .transform transform children _ => ofTransform transform ++ children.map ofStatement
  | .csg _ children _ => children.map ofStatement
  | .modified _ child _ => [ofStatement child]
  | .branch condition consequence alternative _ =>
    [expression condition] ++ consequence.map ofStatement
      ++ (alternative.getD []).map ofStatement
  | .loop bindings body _ | .letIn bindings body _ =>
    bindings.map binding ++ body.map ofStatement
  | .echo arguments body _ => arguments.map argument ++ ofStatement? body
  | .block statements _ => statements.map ofStatement

/-- The views directly inside a view, in the order of the source. -/
def children : View → List View
  | statement s => ofStatementParts s
  | expression e => ofParts e
  | fault _ => []
  | argument a => ofValue a.value
  | declaration d => ofExpression? d.default?
  | binding b => [expression b.value]

/-! ## §3 Views get smaller -/

/-- The size of what a view shows. -/
noncomputable def weight : View → Nat
  | statement s => sizeOf s
  | expression e => sizeOf e
  | fault f => sizeOf f
  | argument a => sizeOf a
  | declaration d => sizeOf d
  | binding b => sizeOf b

@[simp] theorem weight_ofStatement (s : Statement) : (ofStatement s).weight ≤ sizeOf s := by
  cases s <;> simp [ofStatement, weight]

theorem weight_lt_of_mem_ofValue {v : Value} {w : View} (h : w ∈ ofValue v) :
    w.weight < sizeOf v := by
  cases v <;> simp_all [ofValue, Value.expression?, weight]

theorem weight_lt_of_mem_ofValue? {v : Option Value} {w : View} (h : w ∈ ofValue? v) :
    w.weight < sizeOf v := by
  cases v with
  | none => simp [ofValue?] at h
  | some v =>
    have := weight_lt_of_mem_ofValue (v := v) (by simpa [ofValue?] using h)
    simp
    omega

theorem weight_lt_of_mem_ofExpression? {e : Option Expression} {w : View}
    (h : w ∈ ofExpression? e) : w.weight < sizeOf e := by
  cases e <;> simp_all [ofExpression?, weight]

theorem weight_lt_of_mem_ofStatement? {s : Option Statement} {w : View}
    (h : w ∈ ofStatement? s) : w.weight < sizeOf s := by
  cases s with
  | none => simp [ofStatement?] at h
  | some s =>
    obtain rfl : w = ofStatement s := by simpa [ofStatement?] using h
    have := weight_ofStatement s
    simp
    omega

theorem weight_lt_of_mem_statements {ss : List Statement} {w : View}
    (h : w ∈ ss.map ofStatement) : w.weight < sizeOf ss := by
  obtain ⟨s, hs, rfl⟩ := List.mem_map.mp h
  exact Nat.lt_of_le_of_lt (weight_ofStatement s) (List.sizeOf_lt_of_mem hs)

theorem weight_lt_of_mem_expressions {es : List Expression} {w : View}
    (h : w ∈ es.map expression) : w.weight < sizeOf es := by
  obtain ⟨e, he, rfl⟩ := List.mem_map.mp h
  exact List.sizeOf_lt_of_mem he

theorem weight_lt_of_mem_arguments {as : List Argument} {w : View}
    (h : w ∈ as.map argument) : w.weight < sizeOf as := by
  obtain ⟨a, ha, rfl⟩ := List.mem_map.mp h
  exact List.sizeOf_lt_of_mem ha

theorem weight_lt_of_mem_declarations {ds : List Declaration} {w : View}
    (h : w ∈ ds.map declaration) : w.weight < sizeOf ds := by
  obtain ⟨d, hd, rfl⟩ := List.mem_map.mp h
  exact List.sizeOf_lt_of_mem hd

theorem weight_lt_of_mem_bindings {bs : List Binding} {w : View}
    (h : w ∈ bs.map binding) : w.weight < sizeOf bs := by
  obtain ⟨b, hb, rfl⟩ := List.mem_map.mp h
  exact List.sizeOf_lt_of_mem hb

theorem weight_lt_of_mem_ofParts {e : Expression} {w : View} (h : w ∈ ofParts e) :
    w.weight < sizeOf e := by
  cases e <;> simp only [ofParts, List.mem_append, List.mem_cons, List.not_mem_nil, or_false] at h
  case call => have := weight_lt_of_mem_arguments h; simp; omega
  case vector => have := weight_lt_of_mem_expressions h; simp; omega
  case index => rcases h with rfl | rfl <;> simp [weight] <;> omega
  case member => subst h; simp [weight]; omega
  case range =>
    rcases h with (rfl | h) | rfl
    · simp [weight]; omega
    · have := weight_lt_of_mem_ofExpression? h; simp; omega
    · simp [weight]; omega
  case letIn =>
    rcases h with h | rfl
    · have := weight_lt_of_mem_bindings h; simp; omega
    · simp [weight]; omega
  case comprehension =>
    rcases h with ((h | rfl) | h) | rfl
    · have := weight_lt_of_mem_bindings h; simp; omega
    · simp [weight]; omega
    · have := weight_lt_of_mem_ofExpression? h; simp; omega
    · simp [weight]; omega
  case binary => rcases h with rfl | rfl <;> simp [weight] <;> omega
  case unary => subst h; simp [weight]; omega
  case conditional => rcases h with rfl | rfl | rfl <;> simp [weight] <;> omega

theorem weight_lt_of_mem_ofPrimitive {p : Primitive} {w : View} (h : w ∈ ofPrimitive p) :
    w.weight < sizeOf p := by
  cases p <;> simp only [ofPrimitive, List.mem_append] at h
  case cube | square | polyhedron | text =>
    rcases h with h | h <;> have := weight_lt_of_mem_ofValue h <;> simp <;> omega
  case sphere | circle => have := weight_lt_of_mem_ofValue h; simp; omega
  case cylinder =>
    rcases h with ((h | h) | h) | h <;> have := weight_lt_of_mem_ofValue h <;> simp <;> omega
  case polygon =>
    rcases h with h | h
    · have := weight_lt_of_mem_ofValue h; simp; omega
    · have := weight_lt_of_mem_ofValue? h; simp; omega

theorem weight_lt_of_mem_ofTransform {t : Transform} {w : View} (h : w ∈ ofTransform t) :
    w.weight < sizeOf t := by
  cases t <;> simp only [ofTransform, List.mem_append] at h
  case translate | scale | mirror | multmatrix | rotateExtrude =>
    have := weight_lt_of_mem_ofValue h; simp; omega
  case rotate | color =>
    rcases h with h | h
    · have := weight_lt_of_mem_ofValue h; simp; omega
    · have := weight_lt_of_mem_ofValue? h; simp; omega
  case resize => rcases h with h | h <;> have := weight_lt_of_mem_ofValue h <;> simp <;> omega
  -- The amount is a record of its own.
  case offset amount _ =>
    rcases h with h | h
    · have := weight_lt_of_mem_ofValue h
      cases amount <;> simp_all [OffsetAmount.value] <;> omega
    · have := weight_lt_of_mem_ofValue h; simp; omega
  case linearExtrude =>
    rcases h with (((h | h) | h) | h) | h
    -- The number of slices is the only one that may be absent.
    case inl.inr => have := weight_lt_of_mem_ofValue? h; simp; omega
    all_goals have := weight_lt_of_mem_ofValue h; simp; omega

theorem weight_lt_of_mem_ofStatementParts {s : Statement} {w : View}
    (h : w ∈ ofStatementParts s) : w.weight < sizeOf s := by
  cases s <;>
    simp only [ofStatementParts, List.mem_append, List.mem_cons, List.not_mem_nil, or_false] at h
  case expression => have := weight_lt_of_mem_ofParts h; simp; omega
  case assertion =>
    rcases h with (rfl | h) | h
    · simp [weight]; omega
    · have := weight_lt_of_mem_ofExpression? h; simp; omega
    · have := weight_lt_of_mem_ofStatement? h; simp; omega
  case assign =>
    rcases h with h | h
    · have := weight_lt_of_mem_bindings h; simp; omega
    · have := weight_lt_of_mem_ofStatement? h; simp; omega
  case assignment => subst h; simp [weight]
  case moduleDefinition =>
    rcases h with h | h
    · have := weight_lt_of_mem_declarations h; simp; omega
    · have := weight_lt_of_mem_statements h; simp; omega
  case functionDefinition =>
    rcases h with h | rfl
    · have := weight_lt_of_mem_declarations h; simp; omega
    · simp [weight]; omega
  case call =>
    rcases h with h | h
    · have := weight_lt_of_mem_arguments h; simp; omega
    · have := weight_lt_of_mem_statements h; simp; omega
  case primitive =>
    rcases h with h | h
    · have := weight_lt_of_mem_ofPrimitive h; simp; omega
    · have := weight_lt_of_mem_arguments h; simp; omega
  case transform =>
    rcases h with h | h
    · have := weight_lt_of_mem_ofTransform h; simp; omega
    · have := weight_lt_of_mem_statements h; simp; omega
  case csg => have := weight_lt_of_mem_statements h; simp; omega
  -- The child is a statement, whose view may be that of its fault.
  case modified _ child _ => subst h; have := weight_ofStatement child; simp; omega
  -- The alternative is an option of a list.
  case branch _ _ alternative _ =>
    rcases h with (rfl | h) | h
    · simp [weight]; omega
    · have := weight_lt_of_mem_statements h; simp; omega
    · have := weight_lt_of_mem_statements h
      cases alternative <;> simp_all
      omega
  case loop | letIn =>
    rcases h with h | h
    · have := weight_lt_of_mem_bindings h; simp; omega
    · have := weight_lt_of_mem_statements h; simp; omega
  case echo =>
    rcases h with h | h
    · have := weight_lt_of_mem_arguments h; simp; omega
    · have := weight_lt_of_mem_ofStatement? h; simp; omega
  case block => have := weight_lt_of_mem_statements h; simp; omega

/-- What stands directly inside a view is smaller than the view. -/
theorem weight_lt_of_mem_children {v w : View} (h : w ∈ v.children) : w.weight < v.weight := by
  cases v with
  | statement s => exact weight_lt_of_mem_ofStatementParts h
  | expression e => exact weight_lt_of_mem_ofParts h
  | fault f => simp [children] at h
  | argument a =>
    have := weight_lt_of_mem_ofValue h
    cases a
    simp_all [weight]
    omega
  | declaration d =>
    have := weight_lt_of_mem_ofExpression? h
    cases d
    simp_all [weight]
    omega
  | binding b =>
    cases b
    simp_all [children, weight]
    omega

/-- What holds of a view once it holds of everything directly inside it holds of every view. -/
@[elab_as_elim]
theorem induct {motive : View → Prop} (step : ∀ v, (∀ c ∈ v.children, motive c) → motive v)
    (v : View) : motive v :=
  step v fun c _ => induct step c
termination_by v.weight
decreasing_by exact weight_lt_of_mem_children ‹_›

/-! ## §4 Everything inside -/

/-- A view and everything inside it, a parent before its children, with the depth of each. -/
def preorderAt (depth : Nat) (v : View) : List (Nat × View) :=
  (depth, v) :: v.children.attach.flatMap fun c => preorderAt (depth + 1) c.1
termination_by v.weight
decreasing_by exact weight_lt_of_mem_children c.2

/-- A view and everything inside it, a parent before its children. -/
def preorder (v : View) : List View :=
  v :: v.children.attach.flatMap fun c => preorder c.1
termination_by v.weight
decreasing_by exact weight_lt_of_mem_children c.2

theorem preorder_eq (v : View) : v.preorder = v :: v.children.flatMap preorder := by
  rw [preorder]
  congr 1
  simp [List.flatMap_subtype]

theorem preorderAt_eq (depth : Nat) (v : View) :
    preorderAt depth v = (depth, v) :: v.children.flatMap (preorderAt (depth + 1)) := by
  rw [preorderAt]
  congr 1
  simp [List.flatMap_subtype]

end View

/-! ## §5 Programs -/

/-- A program is a list of statements. -/
abbrev Program : Type := List Statement

namespace Program

/-- The views of the statements of a program. -/
def views (p : Program) : List View :=
  p.map View.ofStatement

/-- Every view of a program, a parent before its children. -/
def preorder (p : Program) : List View :=
  p.views.flatMap View.preorder

/-- Every view of a program with its depth. -/
def preorderAt (p : Program) : List (Nat × View) :=
  p.views.flatMap (View.preorderAt 0)

/-- Every fault of a program, in the order of the source. -/
def faults (p : Program) : List Fault :=
  p.preorder.filterMap View.fault?

end Program

end Scad
