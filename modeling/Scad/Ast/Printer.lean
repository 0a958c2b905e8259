import Scad.Ast.Expression
import Scad.Decimal.Shortest

/-!
# Printing Expressions

The text of an expression, in the layout of this library: one blank on each side of a binary
operator, a comma and a blank between items, no blank inside brackets.

Parentheses stand only where precedence asks for them.  Every expression has a *strength*, and every
place has the least strength that may stand in it without parentheses.

* The looser an operator, the smaller its strength; a conditional and a `let` have none.
* Operators group to the left, so the right operand has to be stronger than the operator itself.
  The power groups to the right.
* What can only be taken for one thing, such as a name or a vector, has the greatest strength.
-/

namespace Scad

/-! ## §1 Strength -/

/-- The strength of a binary operation. -/
def BinaryOperator.strength : BinaryOperator → Nat
  | or => 2
  | and => 3
  | equal | notEqual => 4
  | less | lessEqual | greater | greaterEqual => 5
  | add | subtract => 6
  | multiply | divide | modulo => 7
  | power => 8

/-- The least strengths of the left and of the right operand of an operator. -/
def BinaryOperator.operandStrengths (op : BinaryOperator) : Nat × Nat :=
  if op = power then (op.strength + 1, op.strength) else (op.strength, op.strength + 1)

/-- The strength of an operation with one operand. -/
def UnaryOperator.strength : Nat := 12

namespace Expression

/-- The strength of what no neighbour can take apart. -/
def fullStrength : Nat := 13

/-- How strongly an expression holds together. -/
def strength : Expression → Nat
  | binary op .. => op.strength
  | unary .. => UnaryOperator.strength
  | conditional .. | letIn .. => 0
  | _ => fullStrength

/-- The text of an expression in a place, which takes parentheses where the expression is too
weak for it. -/
def inPlace (least : Nat) (e : Expression) (text : List Char) : List Char :=
  if e.strength < least then '(' :: text ++ [')'] else text

end Expression

/-! ## §2 Literals -/

/-- The characters of a string between its quotes: the backslash and the quote are escaped. -/
def escapeString (cs : List Char) : List Char :=
  cs.flatMap fun c => if c = '\\' ∨ c = '"' then ['\\', c] else [c]

/-- A string in quotes. -/
def quoteString (s : String) : List Char :=
  '"' :: escapeString s.toList ++ ['"']

/-- A truth value. -/
def writeBool : Bool → List Char
  | true => "true".toList
  | false => "false".toList

/-- The characters of a number. -/
def writeNumber (x : Float) : List Char :=
  (Decimal.text x).toList

/-- The characters of the undefined value. -/
def writeUndefined : List Char :=
  "undef".toList

/-- The characters of a literal. -/
def Literal.write : Literal → List Char
  | number x => writeNumber x
  | boolean b => writeBool b
  | string s => quoteString s
  | undefined => writeUndefined

/-! ## §3 Expressions -/

/-- What stands between two items of a list. -/
def itemSeparator : List Char :=
  [',', ' ']

/-- What stands between a name and its value. -/
def equalsSign : List Char :=
  [' ', '=', ' ']

mutual

/-- The characters of an expression. -/
def Expression.write : Expression → List Char
  | .literal value _ => value.write
  | .identifier name _ | .special name _ => name.toList
  | .call name arguments _ => name.toList ++ '(' :: Argument.writeList arguments ++ [')']
  | .vector elements _ => '[' :: Expression.writeList elements ++ [']']
  -- What is indexed has to hold together by itself; between brackets anything may stand.
  | .index array index _ =>
    array.inPlace Expression.fullStrength array.write ++ '[' :: index.write ++ [']']
  | .member object property _ =>
    object.inPlace Expression.fullStrength object.write ++ '.' :: property.toList
  -- The colons divide the parts of a range.
  | .range start none stop _ => '[' :: start.write ++ ':' :: stop.write ++ [']']
  | .range start (some step) stop _ =>
    '[' :: start.write ++ ':' :: step.write ++ ':' :: stop.write ++ [']']
  | .letIn bindings body _ =>
    "let (".toList ++ Binding.writeList bindings ++ ") ".toList ++ body.write
  | .comprehension _ bindings variableName iterable condition body _ =>
    '[' :: Binding.writeClause bindings ++ "for (".toList ++ variableName.toList ++ equalsSign
      ++ iterable.write ++ ") ".toList ++ Expression.writeCondition condition ++ body.write ++ [']']
  -- The two places of an operator differ in strength, so a chain is read back as it was.
  | .binary operator left right _ =>
    left.inPlace operator.operandStrengths.1 left.write ++ ' ' :: operator.symbol.toList
      ++ ' ' :: right.inPlace operator.operandStrengths.2 right.write
  | .unary operator operand _ =>
    operator.symbol.toList ++ operand.inPlace UnaryOperator.strength operand.write
  -- Only a condition that is a choice or a `let` itself takes parentheses.
  | .conditional condition consequence alternative _ =>
    condition.inPlace 1 condition.write ++ " ? ".toList ++ consequence.write ++ " : ".toList
      ++ alternative.write

/-- The characters of expressions in a row. -/
def Expression.writeList : List Expression → List Char
  | [] => []
  | [e] => e.write
  | e :: rest => e.write ++ itemSeparator ++ Expression.writeList rest

/-- The `if` clause of a comprehension, where it has one. -/
def Expression.writeCondition : Option Expression → List Char
  | none => []
  | some condition => "if (".toList ++ condition.write ++ ") ".toList

/-- The characters of a value. -/
def Value.write : Value → List Char
  | .number x => writeNumber x
  | .boolean b => writeBool b
  | .string s => quoteString s
  | .undefined => writeUndefined
  | .vector2 x y => '[' :: writeNumber x ++ itemSeparator ++ writeNumber y ++ [']']
  | .vector3 x y z =>
    '[' :: writeNumber x ++ itemSeparator ++ writeNumber y ++ itemSeparator ++ writeNumber z
      ++ [']']
  | .expression e => e.write

/-- The characters of an argument. -/
def Argument.write : Argument → List Char
  | ⟨none, value, _⟩ => value.write
  | ⟨some name, value, _⟩ => name.toList ++ equalsSign ++ value.write

/-- The characters of arguments in a row. -/
def Argument.writeList : List Argument → List Char
  | [] => []
  | [a] => a.write
  | a :: rest => a.write ++ itemSeparator ++ Argument.writeList rest

/-- The characters of a binding. -/
def Binding.write : Binding → List Char
  | ⟨name, _, value, _⟩ => name.toList ++ equalsSign ++ value.write

/-- The characters of bindings in a row. -/
def Binding.writeList : List Binding → List Char
  | [] => []
  | [b] => b.write
  | b :: rest => b.write ++ itemSeparator ++ Binding.writeList rest

/-- The `let` clause of a comprehension, where it has one. -/
def Binding.writeClause : List Binding → List Char
  | [] => []
  | [b] => "let (".toList ++ b.write ++ ") ".toList
  | b :: rest => "let (".toList ++ b.write ++ itemSeparator ++ Binding.writeList rest ++ ") ".toList

end

/-! ## §4 Texts -/

/-- The text of an expression. -/
def Expression.text (e : Expression) : String :=
  String.ofList e.write

/-- The text of a value. -/
def Value.text (v : Value) : String :=
  String.ofList v.write

/-- The text of a binding. -/
def Binding.text (b : Binding) : String :=
  String.ofList b.write

/-- The text of the arguments of a call. -/
def Argument.textOfList (arguments : List Argument) : String :=
  String.ofList (Argument.writeList arguments)

/-- The text of a parameter: its name, or `name = default`. -/
def Declaration.text (d : Declaration) : String :=
  match d.default? with
  | some value => d.name ++ " = " ++ value.text
  | none => d.name

/-! ## §5 The text of each form

The equations of `Expression.write`, one for each constructor of an expression of names. -/

namespace Expression

variable {s : Span}

theorem write_identifier (name : String) : (identifier name s).write = name.toList := rfl

theorem write_call (name : String) (arguments : List Argument) : (call name arguments s).write =
    name.toList ++ '(' :: Argument.writeList arguments ++ [')'] := rfl

theorem write_vector (elements : List Expression) : (vector elements s).write =
    '[' :: writeList elements ++ [']'] := rfl

theorem write_index (array subscript : Expression) : (index array subscript s).write =
    array.inPlace fullStrength array.write ++ '[' :: subscript.write ++ [']'] := rfl

theorem write_member (object : Expression) (property : String) : (member object property s).write =
    object.inPlace fullStrength object.write ++ '.' :: property.toList := rfl

theorem write_range (start stop : Expression) : (range start none stop s).write =
    '[' :: start.write ++ ':' :: stop.write ++ [']'] := rfl

theorem write_steppedRange (start step stop : Expression) :
    (range start (some step) stop s).write =
      '[' :: start.write ++ ':' :: step.write ++ ':' :: stop.write ++ [']'] := rfl

theorem write_letIn (bindings : List Binding) (body : Expression) : (letIn bindings body s).write =
    "let (".toList ++ Binding.writeList bindings ++ ") ".toList ++ body.write := rfl

theorem write_binary (op : BinaryOperator) (left right : Expression) :
    (binary op left right s).write =
      left.inPlace op.operandStrengths.1 left.write ++ ' ' :: op.symbol.toList
        ++ ' ' :: right.inPlace op.operandStrengths.2 right.write := rfl

theorem write_unary (op : UnaryOperator) (operand : Expression) : (unary op operand s).write =
    op.symbol.toList ++ operand.inPlace UnaryOperator.strength operand.write := rfl

theorem write_conditional (condition consequence alternative : Expression) :
    (conditional condition consequence alternative s).write =
      condition.inPlace 1 condition.write ++ " ? ".toList ++ consequence.write ++ " : ".toList
        ++ alternative.write := rfl

end Expression

end Scad
