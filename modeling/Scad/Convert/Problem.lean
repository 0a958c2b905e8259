import Scad.Event
import Scad.Settings
import Scad.Text.Blank

/-!
# Problems and Remarks

Why a conversion fails, and what it remarks on its way, as values.  The wording of every message,
and the code that goes with it, is fixed here and nowhere else.

* `Role` — the part that an expression plays in a construct.
* `Problem` — why a construct cannot be converted.
* `Remark` — what is worth a line in the log.
-/

namespace Scad

/-! ## §1 Roles -/

/-- The part that an expression plays in a construct. -/
inductive Role where
  | leftOperand | rightOperand | operand
  | indexedValue | index | object | vectorElement | letBody
  | condition | consequence | alternative
  | rangeStart | rangeStep | rangeStop
  | iterable | comprehensionCondition | comprehensionBody
  | assertCondition | assertMessage | ifCondition | loopIterable
  | functionBody | defaultValue
  deriving DecidableEq, Repr, Inhabited

namespace Role

/-- What a role is called in messages. -/
def noun : Role → String
  | leftOperand => "left operand" | rightOperand => "right operand" | operand => "operand"
  | indexedValue => "indexed value" | index => "index" | object => "object"
  | vectorElement => "vector element" | letBody => "let body"
  | condition => "condition" | consequence => "consequence" | alternative => "alternative"
  | rangeStart => "range start" | rangeStep => "range step" | rangeStop => "range end"
  | iterable => "iterable" | comprehensionCondition => "comprehension condition"
  | comprehensionBody => "comprehension body"
  | assertCondition => "assert condition" | assertMessage => "assert message"
  | ifCondition => "if condition" | loopIterable => "for iterable"
  | functionBody => "function body" | defaultValue => "default value"

/-- The code of a fault in a role. -/
def code : Role → FaultCode
  | rangeStart => .invalidRangeStart | rangeStep => .invalidRangeStep
  | rangeStop => .invalidRangeEnd
  | iterable | loopIterable => .invalidIterable
  | comprehensionCondition => .invalidComprehensionCondition
  | comprehensionBody => .invalidComprehensionBody
  | assertCondition | ifCondition => .missingCondition
  | _ => .unresolvedExpression

/-- Whether the construct adds a fault of its own to the fault of the expression in this role. -/
def addsFault : Role → Bool
  | rangeStart | rangeStep | rangeStop | iterable | loopIterable | comprehensionCondition
  | comprehensionBody => true
  | _ => false

end Role

/-! ## §2 Problems -/

/-- Why a construct cannot be converted. -/
inductive Problem where
  | invalidNumber (text : String)
  | emptyWrapper | syntaxError | missingToken (token : String) | notLiteral (tag : String)
  | noLeftOperand | noRightOperand | noBinaryOperator | unknownBinaryOperator (text : String)
  | noUnaryOperator | unknownUnaryOperator (text : String) | noOperand
  | noCallee | noIndexTarget | noIndex | noMemberObject | noMemberName
  | noLetBody
  | noBindingName | noBindingValue (name : String) | unresolvedBinding (name : String)
  | positionalBinding | unnamedAssign
  | notRange (tag : String) | extraRangePart | noRangeStart | noRangeStop
  | noCondition | noConsequence | noAlternative
  | emptyParentheses
  | invalidLetClause | letWithoutFor | noForClause | noComprehensionBody | noComprehensionElement
  | clauseAsBody (tag : String) | afterBody (tag : String)
  | noIterator | noIterable
  | noArgumentValue | unresolvedArgument
  | noDefinitionName (what : String) | noFunctionBody (name : String) | noParameterName
  | ifWithoutCondition | loopWithoutVariable | loopWithoutRange | loopWithoutBindings
  | noPath
  /-- The expression in a role is nothing that can be converted. -/
  | unresolved (role : Role)
  /-- The expression in a role failed, with the message of its fault. -/
  | invalid (role : Role) (message : String)
  deriving DecidableEq, Repr, Inhabited

namespace Problem

/-- The code of a problem. -/
def code : Problem → FaultCode
  | invalidNumber _ => .invalidNumberLiteral
  | emptyWrapper => .emptyExpressionWrapper
  | syntaxError => .syntaxError
  | missingToken _ => .missingExpression
  | notLiteral _ => .unsupportedExpressionType
  | noLeftOperand | noRightOperand | noOperand => .missingOperand
  | noBinaryOperator | noUnaryOperator => .missingOperator
  | unknownBinaryOperator _ | unknownUnaryOperator _ => .unknownOperator
  | noCallee => .missingFunctionName
  | noIndexTarget | noMemberObject => .missingIndexTarget
  | noIndex => .missingIndex
  | noMemberName => .missingMemberName
  | noLetBody => .missingLetBody
  | noBindingName | positionalBinding | unnamedAssign => .missingAssignmentName
  | noBindingValue _ => .missingAssignmentValue
  | unresolvedBinding _ => .invalidAssignmentValue
  | notRange _ => .unexpectedNodeTypeForRangeVisitor
  | extraRangePart => .unexpectedRangeElement
  | noRangeStart => .missingRangeStart
  | noRangeStop => .missingRangeEnd
  | noCondition | ifWithoutCondition => .missingCondition
  | noConsequence => .missingConsequence
  | noAlternative => .missingAlternative
  | emptyParentheses => .emptyParentheses
  | invalidLetClause => .invalidLetClause
  | letWithoutFor | noForClause => .missingForClause
  | noComprehensionBody | noComprehensionElement => .missingComprehensionBody
  | clauseAsBody _ | afterBody _ => .unexpectedComprehensionElement
  | noIterator | loopWithoutVariable | loopWithoutBindings => .missingIterator
  | noIterable | loopWithoutRange => .missingIterable
  | noArgumentValue | unresolvedArgument => .invalidArgument
  | noDefinitionName _ => .missingDefinitionName
  | noFunctionBody _ => .missingFunctionBody
  | noParameterName => .invalidParameter
  | noPath => .missingIncludePath
  | unresolved role | invalid role _ => role.code

/-- The wording of a problem, before the offending text is quoted. -/
def wording : Problem → String
  | invalidNumber text => s!"Invalid number literal '{text}'"
  | emptyWrapper => "Expression wrapper has no inner expression"
  | syntaxError => "Syntax error in expression"
  | missingToken token => s!"Missing {token}"
  | notLiteral tag => s!"Expected a literal, found {tag}"
  | noLeftOperand => "Binary expression has no left operand"
  | noRightOperand => "Binary expression has no right operand"
  | noBinaryOperator => "Binary expression has no operator"
  | unknownBinaryOperator text => s!"Unknown binary operator '{text}'"
  | noUnaryOperator => "Unary expression has no operator"
  | unknownUnaryOperator text => s!"Unknown unary operator '{text}'"
  | noOperand => "Unary expression has no operand"
  | noCallee => "Call has no function name"
  | noIndexTarget => "Index expression has no target"
  | noIndex => "Index expression has no index"
  | noMemberObject => "Member access has no object"
  | noMemberName => "Member access has no member name"
  | noLetBody => "let expression has no body"
  | noBindingName => "Assignment has no name"
  | noBindingValue name => s!"Assignment to '{name}' has no value"
  | unresolvedBinding name => s!"Could not resolve value assigned to '{name}'"
  | positionalBinding => "Positional argument where a binding was expected"
  | unnamedAssign => "assign() arguments must be named"
  | notRange tag => s!"Expected range_expression, got {tag}"
  | extraRangePart => "Range has more than start, step and end"
  | noRangeStart => "Range has no start"
  | noRangeStop => "Range has no end"
  | noCondition => "Conditional expression has no condition"
  | noConsequence => "Conditional expression has no consequence"
  | noAlternative => "Conditional expression has no alternative"
  | emptyParentheses => "Empty parentheses"
  | invalidLetClause => "Invalid let clause"
  | letWithoutFor => "let clause is not followed by a for clause"
  | noForClause => "List comprehension has no for clause"
  | noComprehensionBody => "List comprehension has no body"
  | noComprehensionElement => "List comprehension has no element"
  | clauseAsBody tag => s!"Unexpected {tag} where the comprehension body was expected"
  | afterBody tag => s!"Unexpected {tag} after the comprehension body"
  | noIterator => "for clause has no loop variable"
  | noIterable => "for clause has nothing to iterate"
  | noArgumentValue => "Argument has no value"
  | unresolvedArgument => "Could not resolve argument"
  | noDefinitionName what => s!"{what} definition has no name"
  | noFunctionBody name => s!"Function '{name}' has no body"
  | noParameterName => "Parameter has no name"
  | ifWithoutCondition => "if without a condition"
  | loopWithoutVariable => "for loop without a variable"
  | loopWithoutRange => "for loop without a range"
  | loopWithoutBindings => "for loop without bindings"
  | noPath => "include/use without a path"
  | unresolved role => s!"Could not resolve {role.noun}"
  | invalid role message => s!"Invalid {role.noun}: {message}"

/-- The start of a text that a message quotes: at most `width` characters of it, trimmed. -/
def excerpt (text : String) (width : Nat) : String :=
  String.ofList ((Text.trimChars text.toList).take width)

/-- A wording that quotes the start of the text it is about, where there is any. -/
def quoting (wording : String) (text : String) (width : Nat) : String :=
  let quoted := excerpt text width
  if quoted.isEmpty then wording else wording ++ " near '" ++ quoted ++ "'"

/-- The fault of a problem at a node, without a quotation. -/
def bareFault (p : Problem) (n : Node) : Fault :=
  Fault.on p.code p.wording n

/-- The fault of a problem at a node, which quotes the start of the node's text. -/
def fault (p : Problem) (n : Node) (settings : Settings) : Fault :=
  Fault.on p.code (quoting p.wording n.text settings.previewWidth) n

end Problem

/-! ## §3 Remarks -/

/-- What a conversion remarks on its way. -/
inductive Remark where
  /-- A rung of the precedence ladder adds nothing. -/
  | passedThrough
  | letInComprehension
  | callWithoutName
  | deprecatedAssign
  | assertWithoutCondition
  | unknownModifier
  /-- A shape takes no children. -/
  | ignoredChildren (name : String)
  /-- A module has no such parameter. -/
  | ignoredArgument (name argument : String)
  deriving DecidableEq, Repr, Inhabited

namespace Remark

/-- How much a remark matters. -/
def level : Remark → Level
  | passedThrough | letInComprehension | callWithoutName => .debug
  | _ => .warn

/-- The wording of a remark. -/
def wording : Remark → String
  | passedThrough => "Passing through precedence wrapper"
  | letInComprehension => "let clause in list comprehension"
  | callWithoutName => "Call without a name"
  | deprecatedAssign => "assign() is deprecated, use plain assignments inside the body"
  | assertWithoutCondition => "assert without a condition"
  | unknownModifier => "Unknown modifier"
  | ignoredChildren name => s!"{name}() does not take children; they are ignored"
  | ignoredArgument name argument => s!"{name}() has no parameter '{argument}'; it is ignored"

/-- The context that a remark is logged under. -/
def context : Remark → String
  | passedThrough => "dispatch_specific_expression"
  | letInComprehension => "visit_openscad_style_comprehension"
  | callWithoutName => "visit_module_instantiation"
  | deprecatedAssign => "visit_assign_statement"
  | assertWithoutCondition => "visit_assert_statement"
  | unknownModifier => "visit_modifier"
  | ignoredChildren _ | ignoredArgument .. => "create_ast_node_for_function"

/-- The event of a remark about a node. -/
def event (r : Remark) (n : Node) : Event :=
  .logged r.level r.wording (some r.context) (some n)

end Remark

end Scad
