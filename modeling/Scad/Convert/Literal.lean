import Scad.Ast.Expression
import Scad.Convert.Conversion
import Scad.Decimal.Literal

/-!
# Literals and Plain Values

Reads the nodes whose text alone says what they mean.

* `numberOf`, `unquote` — the value of a number, the contents of a string.
* `literal` — a literal node.
* `plainValue` — an argument that can be settled without the conversion of expressions: a literal,
  a signed number, or a vector of two or three of those numbers.
-/

namespace Scad.Convert

/-! ## §1 Texts -/

/-- The number that a node's text denotes.  Only finite unsigned decimal numbers are numbers. -/
def numberOf (n : Node) : Except Fault Float :=
  match Decimal.read? (Text.trimChars n.text.toList) with
  | some x => .ok x
  | none => .error ((Problem.invalidNumber n.trimmed).bareFault n)

/-- The characters between a quote at the start and the same quote at the end. -/
def dropQuotes (quote : Char) : List Char → Option (List Char)
  | [] => none
  | c :: rest => if c == quote && rest.getLast? == some quote then some rest.dropLast else none

/-- A text without blanks around it and without one layer of quotes, double ones or single ones. -/
def unquote (text : String) : String :=
  let cs := Text.trimChars text.toList
  String.ofList (((dropQuotes '"' cs).or (dropQuotes '\'' cs)).getD cs)

/-- The truth value that a text spells: everything but `true` is false. -/
def truth (text : String) : Bool :=
  Text.trim text == "true"

/-! ## §2 Literal nodes -/

/-- The literal that a node spells. -/
def literal (n : Node) : Conversion Literal :=
  match n.kind with
  | .number => .number <$> Conversion.ofExcept (numberOf n)
  | .string => pure (.string (unquote n.text))
  | .boolean => pure (.boolean (truth n.text))
  | .undefined => pure .undefined
  | _ => Conversion.fail (.notLiteral n.tag) n

/-! ## §3 Plain values -/

/-- The labels of a binary operation. -/
def binaryLabels : List String := ["left", "operator", "right"]

/-- The labels of a unary operation. -/
def unaryLabels : List String := ["operator", "operand"]

/-- The labels of a conditional. -/
def conditionalLabels : List String := ["condition", "consequence", "alternative"]

/-- The node inside a wrapper, or inside a rung of the ladder without an operator. -/
def wrapped? (n : Node) : Option n.Part :=
  match n.kind with
  | .expression | .literal | .binaryExpression => n.onlyChild? binaryLabels
  | _ => none

/-- The node inside all wrappers. -/
def unwrapped (n : Node) : Node :=
  match wrapped? n with
  | some inner => unwrapped inner.node
  | none => n
termination_by sizeOf n
decreasing_by exact inner.inside

/-- The number with its sign, where a unary operation is a sign in front of a number. -/
def signedNumber (n : Node) : OptionT (Except Fault) Float := do
  let operator ← OptionT.mk (pure ((n.field? "operator").or (n.token? fun _ => true)))
  let operand ← OptionT.mk (pure ((n.field? "operand").or n.significant.getLast?))
  let operand := unwrapped operand.node
  if operand.kind != .number then failure
  let x ← numberOf operand
  -- The number is read before its sign, so a broken number is told in any case.
  match UnaryOperator.ofSymbol? operator.node.text with
  | some .negate => pure (-x)
  | some .plus => pure x
  | _ => failure

/-- The vector of two or three numbers. -/
def shortVector : List Float → Option Value
  | [x, y] => some (.vector2 x y)
  | [x, y, z] => some (.vector3 x y z)
  | _ => none

/-- The value of a node that is a literal, a signed number, or a vector of two or three numbers;
a failure of the option says that the node is none of them.  The elements of a vector are looked
at from the left, up to the first that is no number. -/
def plainValue (n : Node) : OptionT (Except Fault) Value :=
  match wrapped? n with
  | some inner => plainValue inner.node
  | none =>
    match n.kind with
    | .number => do return .number (← numberOf n)
    | .string => pure (.string (unquote n.text))
    | .boolean => pure (.boolean (truth n.text))
    | .undefined => pure .undefined
    | .unaryExpression => do return .number (← signedNumber n)
    | .vector => do
      -- One element that is no number makes the whole vector an expression.
      let xs ← n.significant.mapM fun element => do
        match (← plainValue element.node).number? with
        | some x => pure x
        | none => failure
      OptionT.mk (pure (shortVector xs))
    | _ => failure
termination_by sizeOf n
decreasing_by
  · exact inner.inside
  · exact element.inside

end Scad.Convert
