import Scad.Ast.Operator
import Scad.Span

/-!
# Expressions

The typed tree of an expression, with the arguments of calls and the bindings of `let`.  Every node
carries the span of the syntax it was read from.

An argument is a `Value` and not simply an expression: literals and short vectors of plain numbers
are settled when they are read, and everything else is kept as an expression.
-/

namespace Scad

/-! ## §1 The tree -/

/-- A literal value. -/
inductive Literal where
  | number (x : Float)
  | boolean (b : Bool)
  | string (s : String)
  /-- The undefined value. -/
  | undefined
  deriving Inhabited

mutual

/-- An expression. -/
inductive Expression where
  | literal (value : Literal) (span : Span)
  | identifier (name : String) (span : Span)
  /-- A name that starts with a dollar sign. -/
  | special (name : String) (span : Span)
  /-- `name(arguments)` -/
  | call (name : String) (arguments : List Argument) (span : Span)
  /-- `[a, b, c]` -/
  | vector (elements : List Expression) (span : Span)
  /-- `array[index]` -/
  | index (array index : Expression) (span : Span)
  /-- `object.property` -/
  | member (object : Expression) (property : String) (span : Span)
  /-- `[start : stop]` or `[start : step : stop]` -/
  | range (start : Expression) (step : Option Expression) (stop : Expression) (span : Span)
  /-- `let (a = 1, b = 2) body` -/
  | letIn (bindings : List Binding) (body : Expression) (span : Span)
  /-- `[let (a = 1) for (variable = iterable) if (condition) body]`, in either style. -/
  | comprehension (style : ComprehensionStyle) (bindings : List Binding) (variableName : String)
      (iterable : Expression) (condition : Option Expression) (body : Expression) (span : Span)
  | binary (operator : BinaryOperator) (left right : Expression) (span : Span)
  | unary (operator : UnaryOperator) (operand : Expression) (span : Span)
  /-- `condition ? consequence : alternative` -/
  | conditional (condition consequence alternative : Expression) (span : Span)

/-- An argument of a call; one without a name is positional. -/
structure Argument where
  name : Option String
  value : Value
  span : Span

/-- The value of an argument. -/
inductive Value where
  | number (x : Float)
  | boolean (b : Bool)
  | string (s : String)
  /-- The undefined value. -/
  | undefined
  | vector2 (x y : Float)
  | vector3 (x y z : Float)
  /-- Whatever is no literal. -/
  | expression (e : Expression)

/-- `name = value` -/
structure Binding where
  name : String
  nameSpan : Span
  value : Expression
  span : Span

end

instance : Inhabited Expression := ⟨.literal .undefined {}⟩
instance : Inhabited Value := ⟨.undefined⟩
instance : Inhabited Argument := ⟨⟨none, .undefined, {}⟩⟩
instance : Inhabited Binding := ⟨⟨"", {}, default, {}⟩⟩

/-- A parameter in the head of a definition. -/
structure Declaration where
  name : String
  /-- The value that holds where a call gives none. -/
  default? : Option Expression
  span : Span
  deriving Inhabited

/-! ## §2 Reading a node -/

namespace Expression

/-- Where an expression stands. -/
def span : Expression → Span
  | literal _ s | identifier _ s | special _ s | call _ _ s | vector _ s | index _ _ s
  | member _ _ s | range _ _ _ s | letIn _ _ s | comprehension _ _ _ _ _ _ s | binary _ _ _ s
  | unary _ _ s | conditional _ _ _ s => s

/-- The name of an expression's constructor, as it is stored. -/
def typeName : Expression → String
  | literal .. => "literal"
  | identifier .. => "identifier"
  | special .. => "special_variable"
  | call .. => "function_call"
  | vector .. => "vector"
  | index .. => "index"
  | member .. => "member"
  | range .. => "range_expression"
  | letIn .. => "let_expression"
  | comprehension .. => "list_comprehension_expression"
  | binary .. => "binary"
  | unary .. => "unary"
  | conditional .. => "conditional_expression"

/-- Whether an expression is an operation with two operands. -/
def isBinary : Expression → Bool
  | binary .. => true
  | _ => false

/-- Whether an expression is an operation with one operand. -/
def isUnary : Expression → Bool
  | unary .. => true
  | _ => false

/-- Whether an expression is a choice between two. -/
def isConditional : Expression → Bool
  | conditional .. => true
  | _ => false

end Expression

/-- The value of a literal. -/
def Literal.toValue : Literal → Value
  | number x => .number x
  | boolean b => .boolean b
  | string s => .string s
  | undefined => .undefined

/-- The value of an expression: a literal stands for itself, anything else is kept. -/
def Expression.toValue : Expression → Value
  | .literal value _ => value.toValue
  | e => .expression e

namespace Argument

/-- Whether the argument has no name. -/
def isPositional (a : Argument) : Bool :=
  a.name.isNone

end Argument

namespace Value

/-- The number, where the value is one. -/
def number? : Value → Option Float
  | number x => some x
  | _ => none

/-- The expression, where the value was kept as one. -/
def expression? : Value → Option Expression
  | expression e => some e
  | _ => none

end Value

end Scad
