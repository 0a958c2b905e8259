import Scad.Tree.Node

/-!
# Faults

A fault is a conversion that failed, kept as a value: the tree it failed on, and the fault inside
it where an enclosing construct added its own.  Its code is meant for machines, its message for
people.
-/

namespace Scad

/-! ## §1 Codes -/

/-- What went wrong, as a code that does not change. -/
inductive FaultCode where
  | invalidNumberLiteral
  | emptyExpressionWrapper | unsupportedExpressionType | unresolvedExpression
  | syntaxError | missingExpression
  | missingOperand | missingOperator | unknownOperator
  | missingCondition | missingConsequence | missingAlternative
  | emptyParentheses
  | unexpectedNodeTypeForRangeVisitor | missingRangeStart | missingRangeEnd
  | invalidRangeStart | invalidRangeStep | invalidRangeEnd | unexpectedRangeElement
  | missingForClause | missingIterator | missingIterable | invalidIterable
  | missingComprehensionBody | unexpectedComprehensionElement
  | invalidComprehensionCondition | invalidComprehensionBody | invalidLetClause
  | missingFunctionName | missingIndex | missingIndexTarget | missingMemberName
  | invalidArgument
  | missingLetBody
  | missingAssignmentName | missingAssignmentValue | invalidAssignmentValue
  | missingDefinitionName | missingFunctionBody | invalidParameter
  | missingIncludePath
  deriving DecidableEq, Repr, Inhabited

namespace FaultCode

def all : List FaultCode :=
  [invalidNumberLiteral, emptyExpressionWrapper, unsupportedExpressionType, unresolvedExpression,
   syntaxError, missingExpression, missingOperand, missingOperator, unknownOperator,
   missingCondition, missingConsequence, missingAlternative, emptyParentheses,
   unexpectedNodeTypeForRangeVisitor, missingRangeStart, missingRangeEnd, invalidRangeStart,
   invalidRangeStep, invalidRangeEnd, unexpectedRangeElement, missingForClause, missingIterator,
   missingIterable, invalidIterable, missingComprehensionBody, unexpectedComprehensionElement,
   invalidComprehensionCondition, invalidComprehensionBody, invalidLetClause,
   missingFunctionName, missingIndex, missingIndexTarget, missingMemberName, invalidArgument,
   missingLetBody, missingAssignmentName, missingAssignmentValue, invalidAssignmentValue,
   missingDefinitionName, missingFunctionBody, invalidParameter, missingIncludePath]

def name : FaultCode → String
  | invalidNumberLiteral => "INVALID_NUMBER_LITERAL"
  | emptyExpressionWrapper => "EMPTY_EXPRESSION_WRAPPER"
  | unsupportedExpressionType => "UNSUPPORTED_EXPRESSION_TYPE"
  | unresolvedExpression => "UNRESOLVED_EXPRESSION"
  | syntaxError => "SYNTAX_ERROR"
  | missingExpression => "MISSING_EXPRESSION"
  | missingOperand => "MISSING_OPERAND"
  | missingOperator => "MISSING_OPERATOR"
  | unknownOperator => "UNKNOWN_OPERATOR"
  | missingCondition => "MISSING_CONDITION"
  | missingConsequence => "MISSING_CONSEQUENCE"
  | missingAlternative => "MISSING_ALTERNATIVE"
  | emptyParentheses => "EMPTY_PARENTHESES"
  | unexpectedNodeTypeForRangeVisitor => "UNEXPECTED_NODE_TYPE_FOR_RANGE_VISITOR"
  | missingRangeStart => "MISSING_RANGE_START"
  | missingRangeEnd => "MISSING_RANGE_END"
  | invalidRangeStart => "INVALID_RANGE_START"
  | invalidRangeStep => "INVALID_RANGE_STEP"
  | invalidRangeEnd => "INVALID_RANGE_END"
  | unexpectedRangeElement => "UNEXPECTED_RANGE_ELEMENT"
  | missingForClause => "MISSING_FOR_CLAUSE"
  | missingIterator => "MISSING_ITERATOR"
  | missingIterable => "MISSING_ITERABLE"
  | invalidIterable => "INVALID_ITERABLE"
  | missingComprehensionBody => "MISSING_COMPREHENSION_BODY"
  | unexpectedComprehensionElement => "UNEXPECTED_COMPREHENSION_ELEMENT"
  | invalidComprehensionCondition => "INVALID_COMPREHENSION_CONDITION"
  | invalidComprehensionBody => "INVALID_COMPREHENSION_BODY"
  | invalidLetClause => "INVALID_LET_CLAUSE"
  | missingFunctionName => "MISSING_FUNCTION_NAME"
  | missingIndex => "MISSING_INDEX"
  | missingIndexTarget => "MISSING_INDEX_TARGET"
  | missingMemberName => "MISSING_MEMBER_NAME"
  | invalidArgument => "INVALID_ARGUMENT"
  | missingLetBody => "MISSING_LET_BODY"
  | missingAssignmentName => "MISSING_ASSIGNMENT_NAME"
  | missingAssignmentValue => "MISSING_ASSIGNMENT_VALUE"
  | invalidAssignmentValue => "INVALID_ASSIGNMENT_VALUE"
  | missingDefinitionName => "MISSING_DEFINITION_NAME"
  | missingFunctionBody => "MISSING_FUNCTION_BODY"
  | invalidParameter => "INVALID_PARAMETER"
  | missingIncludePath => "MISSING_INCLUDE_PATH"

/-- The code of a name. -/
def ofName? (name : String) : Option FaultCode :=
  all.find? (·.name == name)

theorem mem_all (code : FaultCode) : code ∈ all := by
  cases code <;> decide

end FaultCode

/-! ## §2 Faults -/

/-- A conversion that failed. -/
structure Fault where
  code : FaultCode
  message : String
  /-- The tag of the node that failed. -/
  tag : String
  /-- The text of that node. -/
  text : String
  /-- Where that node stands. -/
  span : Span
  /-- The fault inside, where an enclosing construct added this one. -/
  cause : Option Fault := none
  deriving Repr, Inhabited

namespace Fault

/-- A fault at a node. -/
def on (code : FaultCode) (message : String) (n : Node) : Fault :=
  { code, message, tag := n.tag, text := n.text, span := n.span }

/-- The fault with the one inside it. -/
def causedBy (outer inner : Fault) : Fault :=
  { outer with cause := some inner }

/-- The fault and the causes inside it, the outermost first. -/
def chain : Fault → List Fault
  | ⟨code, message, tag, text, span, none⟩ => [⟨code, message, tag, text, span, none⟩]
  | ⟨code, message, tag, text, span, some inner⟩ =>
    ⟨code, message, tag, text, span, some inner⟩ :: inner.chain

/-- The innermost fault. -/
def rootCause : Fault → Fault
  | ⟨code, message, tag, text, span, none⟩ => ⟨code, message, tag, text, span, none⟩
  | ⟨_, _, _, _, _, some inner⟩ => inner.rootCause

/-- How a fault is shown. -/
def display (f : Fault) : String :=
  f.code.name ++ ": " ++ f.message

theorem chain_ne_nil (f : Fault) : f.chain ≠ [] := by
  obtain ⟨_, _, _, _, _, _ | _⟩ := f <;> simp [chain]

theorem getLast_chain (f : Fault) : f.chain.getLast (chain_ne_nil f) = f.rootCause := by
  obtain ⟨code, message, tag, text, span, _ | inner⟩ := f
  · simp [chain, rootCause]
  · have ih := getLast_chain inner
    simp only [chain, rootCause]
    rw [List.getLast_cons (chain_ne_nil inner), ih]
termination_by sizeOf f

end Fault

end Scad
