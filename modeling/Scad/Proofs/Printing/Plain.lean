import Scad.Ast.Printer
import Scad.Proofs.Printing.Token

/-!
# Plain Expressions

The expressions that are built from names alone, without literals and comprehensions, and what is
left of an expression without its spans.

* `Expression.Plain` — every name is a name of the language, and every argument was kept as an
  expression.
* `Expression.bare` — the expression with empty spans throughout.
-/

namespace Scad

/-! ## §1 Expressions of names -/

/-- The expression is built from names. -/
inductive Expression.Plain : Expression → Prop where
  | identifier {name : String} {s : Span} (hname : isName name = true) :
      Plain (.identifier name s)
  | call {name : String} {arguments : List Argument} {s : Span} (hname : isName name = true)
      (hnames : ∀ a ∈ arguments, ∀ n, a.name = some n → isName n = true)
      (hkept : ∀ a ∈ arguments, ∃ e, a.value = .expression e)
      (hvalues : ∀ a ∈ arguments, ∀ e, a.value = .expression e → Plain e) :
      Plain (.call name arguments s)
  | vector {elements : List Expression} {s : Span} (helements : ∀ e ∈ elements, Plain e) :
      Plain (.vector elements s)
  | index {array index : Expression} {s : Span} (harray : Plain array) (hindex : Plain index) :
      Plain (.index array index s)
  | member {object : Expression} {property : String} {s : Span} (hobject : Plain object)
      (hname : isName property = true) : Plain (.member object property s)
  | range {start stop : Expression} {step : Option Expression} {s : Span} (hstart : Plain start)
      (hstep : ∀ e, step = some e → Plain e) (hstop : Plain stop) :
      Plain (.range start step stop s)
  | letIn {bindings : List Binding} {body : Expression} {s : Span}
      (hnames : ∀ b ∈ bindings, isName b.name = true) (hvalues : ∀ b ∈ bindings, Plain b.value)
      (hbody : Plain body) : Plain (.letIn bindings body s)
  | binary {op : BinaryOperator} {left right : Expression} {s : Span} (hleft : Plain left)
      (hright : Plain right) : Plain (.binary op left right s)
  | unary {op : UnaryOperator} {operand : Expression} {s : Span} (hoperand : Plain operand) :
      Plain (.unary op operand s)
  | conditional {condition consequence alternative : Expression} {s : Span}
      (hcondition : Plain condition) (hconsequence : Plain consequence)
      (halternative : Plain alternative) :
      Plain (.conditional condition consequence alternative s)

/-! ## §2 Expressions without spans -/

mutual

/-- The expression with empty spans. -/
def Expression.bare : Expression → Expression
  | .literal value _ => .literal value {}
  | .identifier name _ => .identifier name {}
  | .special name _ => .special name {}
  | .call name arguments _ => .call name (Argument.bareList arguments) {}
  | .vector elements _ => .vector (Expression.bareList elements) {}
  | .index array index _ => .index array.bare index.bare {}
  | .member object property _ => .member object.bare property {}
  | .range start step stop _ => .range start.bare (Expression.bare? step) stop.bare {}
  | .letIn bindings body _ => .letIn (Binding.bareList bindings) body.bare {}
  | .comprehension style bindings variableName iterable condition body _ =>
    .comprehension style (Binding.bareList bindings) variableName iterable.bare
      (Expression.bare? condition) body.bare {}
  | .binary operator left right _ => .binary operator left.bare right.bare {}
  | .unary operator operand _ => .unary operator operand.bare {}
  | .conditional condition consequence alternative _ =>
    .conditional condition.bare consequence.bare alternative.bare {}

/-- The expressions of a list with empty spans. -/
def Expression.bareList : List Expression → List Expression
  | [] => []
  | e :: rest => e.bare :: Expression.bareList rest

/-- An expression that may be absent with empty spans. -/
def Expression.bare? : Option Expression → Option Expression
  | none => none
  | some e => some e.bare

/-- The value with empty spans. -/
def Value.bare : Value → Value
  | .expression e => .expression e.bare
  | .number x => .number x
  | .boolean b => .boolean b
  | .string s => .string s
  | .undefined => .undefined
  | .vector2 x y => .vector2 x y
  | .vector3 x y z => .vector3 x y z

/-- The argument with empty spans. -/
def Argument.bare : Argument → Argument
  | ⟨name, value, _⟩ => ⟨name, value.bare, {}⟩

/-- The arguments of a list with empty spans. -/
def Argument.bareList : List Argument → List Argument
  | [] => []
  | a :: rest => a.bare :: Argument.bareList rest

/-- The binding with empty spans. -/
def Binding.bare : Binding → Binding
  | ⟨name, _, value, _⟩ => ⟨name, {}, value.bare, {}⟩

/-- The bindings of a list with empty spans. -/
def Binding.bareList : List Binding → List Binding
  | [] => []
  | b :: rest => b.bare :: Binding.bareList rest

end

namespace Expression

variable {s : Span}

theorem bare_identifier (name : String) : (identifier name s).bare = identifier name {} := rfl

theorem bare_call (name : String) (arguments : List Argument) :
    (call name arguments s).bare = call name (Argument.bareList arguments) {} := rfl

theorem bare_vector (elements : List Expression) :
    (vector elements s).bare = vector (bareList elements) {} := rfl

theorem bare_index (array subscript : Expression) :
    (index array subscript s).bare = index array.bare subscript.bare {} := rfl

theorem bare_member (object : Expression) (property : String) :
    (member object property s).bare = member object.bare property {} := rfl

theorem bare_range (start stop : Expression) :
    (range start none stop s).bare = range start.bare none stop.bare {} := rfl

theorem bare_steppedRange (start step stop : Expression) :
    (range start (some step) stop s).bare = range start.bare (some step.bare) stop.bare {} := rfl

theorem bare_letIn (bindings : List Binding) (body : Expression) :
    (letIn bindings body s).bare = letIn (Binding.bareList bindings) body.bare {} := rfl

theorem bare_binary (op : BinaryOperator) (left right : Expression) :
    (binary op left right s).bare = binary op left.bare right.bare {} := rfl

theorem bare_unary (op : UnaryOperator) (operand : Expression) :
    (unary op operand s).bare = unary op operand.bare {} := rfl

theorem bare_conditional (condition consequence alternative : Expression) :
    (conditional condition consequence alternative s).bare =
      conditional condition.bare consequence.bare alternative.bare {} := rfl

end Expression

theorem Expression.bareList_eq_map (es : List Expression) :
    Expression.bareList es = es.map Expression.bare := by
  induction es with
  | nil => rw [bareList, List.map_nil]
  | cons e es ih => rw [bareList, ih, List.map_cons]

theorem Argument.bareList_eq_map (as : List Argument) :
    Argument.bareList as = as.map Argument.bare := by
  induction as with
  | nil => rw [bareList, List.map_nil]
  | cons a as ih => rw [bareList, ih, List.map_cons]

theorem Binding.bareList_eq_map (bs : List Binding) :
    Binding.bareList bs = bs.map Binding.bare := by
  induction bs with
  | nil => rw [bareList, List.map_nil]
  | cons b bs ih => rw [bareList, ih, List.map_cons]

/-! ## §3 Lists of items -/

theorem Expression.writeList_eq (es : List Expression) :
    Expression.writeList es = itemSeparator.intercalate (es.map Expression.write) := by
  induction es with
  | nil => simp [writeList]
  | cons e es ih => cases es <;> simp_all [writeList]

theorem Argument.writeList_eq (as : List Argument) :
    Argument.writeList as = itemSeparator.intercalate (as.map Argument.write) := by
  induction as with
  | nil => simp [writeList]
  | cons a as ih => cases as <;> simp_all [writeList]

theorem Binding.writeList_eq (bs : List Binding) :
    Binding.writeList bs = itemSeparator.intercalate (bs.map Binding.write) := by
  induction bs with
  | nil => simp [writeList]
  | cons b bs ih => cases bs <;> simp_all [writeList]

end Scad
