import Scad.Convert.Comprehension

/-!
# Expressions from Syntax

Each construct has a conversion of its own, which takes the conversion of the parts of its node as
a parameter.  `expressionStep` chooses among them by the kind of the node, and `expression` ties
the knot: the parts of a node are converted in the same way.

* A wrapper, and a rung of the precedence ladder without an operator, stand for what they hold.
* Precedence is not read here: the tree already nests as the operators do.
* A node of a kind that is no expression answers `none`, and is reported.
-/

namespace Scad.Convert

open Conversion

/-! ## §1 Operators -/

/-- A rung that the conversion of an operation passes through, where what it holds turns out to be
such an operation itself. -/
def throughRung (inner : Conversion (Option Expression)) (accepts : Expression → Bool) :
    Conversion (Option Expression) :=
  return (← inner).filter accepts

/-- An operation with two operands.  Without labels, the operands are the first and the last
child, and the operator is the first token that spells one. -/
def binary (n : Node) (convert : Converter n Expression) : Conversion (Option Expression) := do
  -- A rung that lost its operator stands for what it holds.
  if let some inner := n.onlyChild? binaryLabels then
    return ← throughRung (convert inner) Expression.isBinary
  let left := (n.field? "left").or n.significant.head?
  let right := (n.field? "right").or
    (if 2 ≤ n.significant.length then n.significant.getLast? else none)
  let token := (n.field? "operator").or
    (n.token? fun c => (BinaryOperator.ofSymbol? c.text).isSome)
  -- Of several missing parts the first in this order is told.
  let left ← require left .noLeftOperand n
  let right ← require right .noRightOperand n
  let token ← require token .noBinaryOperator n
  let operator ← require (BinaryOperator.ofSymbol? token.node.text)
    (.unknownBinaryOperator token.node.trimmed) token.node
  -- Only a node with all its parts has them converted, from left to right.
  let left ← resolve convert .leftOperand left
  let right ← resolve convert .rightOperand right
  return some (.binary operator left right n.span)

/-- An operation with one operand.  Without labels, the operand is the last child. -/
def unary (n : Node) (convert : Converter n Expression) : Conversion (Option Expression) := do
  if let some inner := n.onlyChild? unaryLabels then
    return ← throughRung (convert inner) Expression.isUnary
  let token := (n.field? "operator").or
    (n.token? fun c => (UnaryOperator.ofSymbol? c.text).isSome)
  let operand := (n.field? "operand").or n.significant.getLast?
  -- The operator is read before the operand is missed.
  let token ← require token .noUnaryOperator n
  let operator ← require (UnaryOperator.ofSymbol? token.node.text)
    (.unknownUnaryOperator token.node.trimmed) token.node
  let operand ← require operand .noOperand n
  let operand ← resolve convert .operand operand
  return some (.unary operator operand n.span)

/-- A conditional.  Where no part has a label, the parts are the first three children. -/
def conditional (n : Node) (convert : Converter n Expression) : Conversion (Option Expression) := do
  if let some inner := n.onlyChild? conditionalLabels then
    return ← throughRung (convert inner) Expression.isConditional
  -- One label is enough to end the reading by position.
  let part (label : String) (i : Nat) : Option n.Part :=
    (n.field? label).or
      (if n.hasAnyField conditionalLabels then none else n.significant[i]?)
  let condition ← require (part "condition" 0) .noCondition n
  let consequence ← require (part "consequence" 1) .noConsequence n
  let alternative ← require (part "alternative" 2) .noAlternative n
  let condition ← resolve convert .condition condition
  let consequence ← resolve convert .consequence consequence
  let alternative ← resolve convert .alternative alternative
  return some (.conditional condition consequence alternative n.span)

/-! ## §2 Calls and access -/

/-- A call of a function. -/
def call (n : Node) (convert : Converter n Expression) : Conversion (Option Expression) := do
  let callee := (n.anyField? ["function", "name"]).or (nameChild? n)
  let callee ← require (callee.filter (·.node.hasText)) .noCallee n
  -- A call without an argument list is a call without arguments.
  let list := (n.field? "arguments").or (n.ofKind? .arguments)
  let arguments ← argumentsOf convert list
  return some (.call callee.node.trimmed arguments n.span)

/-- A part under one of the first labels and a part under one of the second.  Where no part has a
label, the parts are the first two children. -/
def accessParts (n : Node) (first second : List String) : Option n.Part × Option n.Part :=
  -- Once a part has a label, a part without one counts as missing.
  if n.hasAnyField (first ++ second) then (n.anyField? first, n.anyField? second)
  else (n.significant[0]?, n.significant[1]?)

/-- An element of a value. -/
def index (n : Node) (convert : Converter n Expression) : Conversion (Option Expression) := do
  let (array, position) := accessParts n ["array", "value"] ["index"]
  let array ← require array .noIndexTarget n
  -- An index that error recovery put in is no index.
  let position ← require (position.filter (!·.node.isMissing)) .noIndex n
  let array ← resolve convert .indexedValue array
  let position ← resolve convert .index position
  return some (.index array position n.span)

/-- A member of a value. -/
def member (n : Node) (convert : Converter n Expression) : Conversion (Option Expression) := do
  let (object, property) := accessParts n ["object", "value"] ["property", "index"]
  let object ← require object .noMemberObject n
  -- The name is taken as it is written, so it has to be more than blanks.
  let property ← require (property.filter (·.node.hasText)) .noMemberName n
  let object ← resolve convert .object object
  return some (.member object property.node.trimmed n.span)

/-! ## §3 Collections -/

/-- A vector of the significant children. -/
def vector (n : Node) (convert : Converter n Expression) : Conversion (Option Expression) := do
  let elements ← n.significant.mapM (resolve convert .vectorElement)
  return some (.vector elements n.span)

/-- The labels of a range. -/
def rangeLabels : List String := ["start", "step", "end"]

/-- The start, the step and the stop of a range.  What error recovery put in counts as absent.
Where no part has a label, the parts are the children that remain, at most three. -/
def rangeParts (n : Node) :
    Conversion (Option n.Part × Option n.Part × Option n.Part) := do
  if n.hasAnyField rangeLabels then
    let present (label : String) := (n.field? label).filter (!·.node.isPlaceholder)
    return (present "start", present "step", present "end")
  match n.significant.filter (!·.node.isPlaceholder) with
  | [] => return (none, none, none)
  | [start] => return (some start, none, none)
  | [start, stop] => return (some start, none, some stop)
  | [start, step, stop] => return (some start, some step, some stop)
  -- The fault stands at the part that is one too many.
  | _ :: _ :: _ :: extra :: _ => fail .extraRangePart extra.node

/-- A range.  A node of another kind is refused, whatever it holds. -/
def range (n : Node) (convert : Converter n Expression) : Conversion Expression := do
  if n.kind != .rangeExpression then fail (.notRange n.tag) n
  let (start, step, stop) ← rangeParts n
  -- Both ends have to be there before a part is converted.
  let start ← require start .noRangeStart n
  let stop ← require stop .noRangeStop n
  let start ← resolve convert .rangeStart start
  let step ← resolve? convert .rangeStep step
  let stop ← resolve convert .rangeStop stop
  return .range start step stop n.span

/-- A `let` expression.  Without a label, the body is the last child that is an expression. -/
def letIn (n : Node) (convert : Converter n Expression) : Conversion (Option Expression) := do
  let body ← require ((n.field? "body").or (n.findLast? (·.kind.isExpression))) .noLetBody n
  -- The bindings come first, as they stand in the text.
  let bound ← bindings n convert
  let body ← resolve convert .letBody body
  return some (.letIn bound body n.span)

/-! ## §4 Parentheses -/

/-- The first of the parts that converts to an expression. -/
def firstConverted {n : Node} (convert : Converter n Expression) :
    List n.Part → Conversion (Option Expression)
  | [] => pure none
  | p :: rest => do
    match ← convert p with
    | some e => return some e
    | none => firstConverted convert rest

/-- What stands in parentheses.  Of a wrapper, the first child that converts to an expression is
taken, and its first child of all where none does. -/
def parenthesized (n : Node) (convert : Converter n Expression) :
    Conversion (Option Expression) := do
  let inner ← require ((n.field? "expression").or n.significant.head?) .emptyParentheses n
  if inner.node.kind != .expression then
    convert inner
  else
    -- Error recovery may leave several children in a wrapper.
    let candidates := inner.node.significant.filter (!·.node.isPlaceholder)
    match ← firstConverted convert (candidates.map inner.within) with
    | some e => return some e
    | none =>
      -- Nothing was found, so the first child is left to say why.
      convert (inner.within (← require inner.node.parts.head? .emptyParentheses n))

/-! ## §5 The choice among them -/

/-- The labels that tell a construct from an empty rung of its kind. -/
def constructLabels? : Kind → Option (List String)
  | .binaryExpression => some binaryLabels
  | .unaryExpression => some unaryLabels
  | .conditionalExpression => some conditionalLabels
  | _ => none

/-- What an empty rung of the precedence ladder holds. -/
def rungChild? (n : Node) : Option n.Part :=
  (constructLabels? n.kind).bind n.onlyChild?

/-- What a wrapper holds: its first child that is significant, or else its first child. -/
def wrappedChild? (n : Node) : Option n.Part :=
  n.significant.head?.or n.parts.head?

/-- The report about a node that no expression can be made of. -/
def unsupported (n : Node) : Report :=
  { Report.on ("Unsupported expression type: " ++ n.tag) n with span := some n.span }

/-- The conversion of a node, given that of its parts. -/
def expressionStep (n : Node) (convert : Converter n Expression) :
    Conversion (Option Expression) := do
  if let some inner := rungChild? n then
    remark .passedThrough n
    return ← convert inner
  match n.kind with
  | .expression | .literal =>
    match wrappedChild? n with
    | some inner => convert inner
    | none => failBare .emptyWrapper n
  | .number | .string | .boolean | .undefined => return some (.literal (← literal n) n.span)
  | .identifier => return some (.identifier n.trimmed n.span)
  | .specialVariable => return some (.special n.trimmed n.span)
  | .callExpression | .accessorExpression => call n convert
  | .vector => vector n convert
  | .indexExpression => index n convert
  | .memberExpression => member n convert
  | .rangeExpression => some <$> range n convert
  | .letExpression => letIn n convert
  | .listComprehension => comprehension n convert
  | .binaryExpression => binary n convert
  | .unaryExpression => unary n convert
  | .conditionalExpression => conditional n convert
  | .parenthesizedExpression => parenthesized n convert
  -- A node that error recovery put in fails, so that its place in the program is kept.
  | .error => fail .syntaxError n
  | .missing => fail (.missingToken (Kind.missingToken n.tag)) n
  -- Statements, parts of calls and punctuation.
  | _ => do
    tell (.handled (unsupported n))
    return none

/-- The expression that a node stands for. -/
def expression (n : Node) : Conversion (Option Expression) :=
  expressionStep n fun p => expression p.node
termination_by sizeOf n
decreasing_by exact p.inside

/-- The conversion of the parts of a node. -/
def expressions (n : Node) : Converter n Expression :=
  fun p => expression p.node

theorem expression_eq (n : Node) : expression n = expressionStep n (expressions n) := by
  rw [expression]
  rfl

end Scad.Convert
