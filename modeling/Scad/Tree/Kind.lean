import Scad.Text.Blank

/-!
# Kinds of Syntax Nodes

A grammar names its rules by tags, and its revisions have given several constructs more than one
tag.  `Kind.ofTag` is the only place where a tag is interpreted: all tags of a construct share one
kind, and everything else in the library asks for the kind.
-/

namespace Scad

/-- What a syntax node stands for. -/
inductive Kind where
  | sourceFile | statement | expressionStatement | block | modifier
  | moduleInstantiation | callExpression | accessorExpression
  | arguments | argument | namedArgument
  | moduleDefinition | functionDefinition | parameterList | parameter
  | ifStatement | forStatement | forBinding | letStatement
  | assignmentStatement | assignment | assignStatement | assertStatement | echoStatement
  | includeStatement | useStatement
  | expression | literal
  | number | string | boolean | undefined
  | identifier | specialVariable
  | vector | indexExpression | memberExpression | rangeExpression | letExpression | letClause
  | listComprehension | forClause | conditionalExpression | binaryExpression | unaryExpression
  | parenthesizedExpression
  | comment | error | missing
  /-- Punctuation, keywords, and rules without a meaning of their own. -/
  | other
  deriving DecidableEq, Repr, Inhabited

namespace Kind

/-! ## §1 Tags -/

/-- Every tag with its kind. -/
def tags : List (String × Kind) :=
  [("source_file", sourceFile), ("statement", statement),
   ("expression_statement", expressionStatement), ("block", block), ("union_block", block),
   ("modifier", modifier), ("modifier_chain", modifier),
   ("module_instantiation", moduleInstantiation), ("module_call", moduleInstantiation),
   ("call_expression", callExpression), ("function_call", callExpression),
   ("accessor_expression", accessorExpression),
   ("arguments", arguments), ("argument_list", arguments), ("assignments", arguments),
   ("argument", argument), ("named_argument", namedArgument),
   -- Definitions and control flow.
   ("module_definition", moduleDefinition), ("module_declaration", moduleDefinition),
   ("module_item", moduleDefinition),
   ("function_definition", functionDefinition), ("function_declaration", functionDefinition),
   ("function_item", functionDefinition),
   ("parameter_list", parameterList), ("parameters", parameterList),
   ("parameter_declarations", parameterList),
   ("parameter", parameter), ("parameter_declaration", parameter),
   ("if_statement", ifStatement), ("if_block", ifStatement),
   ("for_statement", forStatement), ("for_block", forStatement), ("for_binding", forBinding),
   ("let_statement", letStatement), ("let_block", letStatement),
   ("assignment_statement", assignmentStatement), ("var_declaration", assignmentStatement),
   ("assignment", assignment), ("let_assignment", assignment),
   ("assign_statement", assignStatement), ("assert_statement", assertStatement),
   ("echo_statement", echoStatement), ("include_statement", includeStatement),
   ("use_statement", useStatement),
   -- Wrappers and literals.
   ("expression", expression), ("literal", literal),
   ("number", number), ("integer", number), ("float", number), ("decimal", number),
   ("number_literal", number),
   ("string", string), ("string_literal", string),
   ("boolean", boolean), ("true", boolean), ("false", boolean), ("boolean_literal", boolean),
   ("undef", undefined), ("undef_literal", undefined),
   ("identifier", identifier), ("special_variable", specialVariable),
   -- Collections and access.
   ("vector_expression", vector), ("vector_literal", vector), ("array_literal", vector),
   ("list", vector),
   ("index_expression", indexExpression),
   ("member_expression", memberExpression), ("dot_index_expression", memberExpression),
   ("range_expression", rangeExpression), ("range", rangeExpression),
   ("let_expression", letExpression), ("let_clause", letClause),
   ("list_comprehension", listComprehension),
   ("list_comprehension_expression", listComprehension),
   ("for_clause", forClause), ("list_comprehension_for", forClause),
   -- The ladder of precedence.
   ("conditional_expression", conditionalExpression),
   ("ternary_expression", conditionalExpression),
   ("binary_expression", binaryExpression), ("additive_expression", binaryExpression),
   ("multiplicative_expression", binaryExpression), ("relational_expression", binaryExpression),
   ("equality_expression", binaryExpression), ("logical_and_expression", binaryExpression),
   ("logical_or_expression", binaryExpression), ("exponentiation_expression", binaryExpression),
   ("unary_expression", unaryExpression), ("prefix_expression", unaryExpression),
   ("parenthesized_expression", parenthesizedExpression),
   -- What stands for nothing, and what could not be read.
   ("comment", comment), ("line_comment", comment), ("block_comment", comment),
   ("ERROR", error)]

/-- The word with which the tag of an inserted token starts. -/
def missingMark : List Char :=
  "MISSING".toList

/-- The characters after every leading mark. -/
def dropMarks : List Char → List Char
  | 'M' :: 'I' :: 'S' :: 'S' :: 'I' :: 'N' :: 'G' :: rest => dropMarks rest
  | cs => cs

/-- The token that the tag of an inserted token names. -/
def missingToken (tag : String) : String :=
  Text.trim (String.ofList (dropMarks tag.toList))

/-- The kind of a tag.  A tag that is not listed stands for an inserted token if it starts with the
mark of those, and for nothing otherwise. -/
def ofTag (tag : String) : Kind :=
  match tags.lookup tag with
  | some kind => kind
  | none => if missingMark.isPrefixOf tag.toList then missing else other

def name : Kind → String
  | sourceFile => "SourceFile" | statement => "Statement"
  | expressionStatement => "ExpressionStatement" | block => "Block" | modifier => "Modifier"
  | moduleInstantiation => "ModuleInstantiation" | callExpression => "CallExpression"
  | accessorExpression => "AccessorExpression" | arguments => "Arguments"
  | argument => "Argument" | namedArgument => "NamedArgument"
  | moduleDefinition => "ModuleDefinition" | functionDefinition => "FunctionDefinition"
  | parameterList => "ParameterList" | parameter => "Parameter"
  | ifStatement => "IfStatement" | forStatement => "ForStatement" | forBinding => "ForBinding"
  | letStatement => "LetStatement" | assignmentStatement => "AssignmentStatement"
  | assignment => "Assignment" | assignStatement => "AssignStatement"
  | assertStatement => "AssertStatement" | echoStatement => "EchoStatement"
  | includeStatement => "IncludeStatement" | useStatement => "UseStatement"
  | expression => "Expression" | literal => "Literal" | number => "Number" | string => "String"
  | boolean => "Boolean" | undefined => "Undef" | identifier => "Identifier"
  | specialVariable => "SpecialVariable" | vector => "Vector"
  | indexExpression => "IndexExpression" | memberExpression => "MemberExpression"
  | rangeExpression => "RangeExpression" | letExpression => "LetExpression"
  | letClause => "LetClause" | listComprehension => "ListComprehension"
  | forClause => "ForClause" | conditionalExpression => "ConditionalExpression"
  | binaryExpression => "BinaryExpression" | unaryExpression => "UnaryExpression"
  | parenthesizedExpression => "ParenthesizedExpression" | comment => "Comment"
  | error => "Error" | missing => "Missing" | other => "Other"

/-! ## §2 Classes of kinds -/

/-- Whether a node of this kind is an expression. -/
def isExpression : Kind → Bool
  | expression | literal | number | string | boolean | undefined | identifier | specialVariable
  | callExpression | accessorExpression | vector | indexExpression | memberExpression
  | rangeExpression | letExpression | listComprehension | conditionalExpression
  | binaryExpression | unaryExpression | parenthesizedExpression => true
  | _ => false

/-- Whether a node of this kind is a statement where it stands in a statement or a block. -/
def isStatement : Kind → Bool
  | statement | expressionStatement | block | modifier | moduleInstantiation | moduleDefinition
  | functionDefinition | ifStatement | forStatement | letStatement | assignmentStatement
  | assignStatement | assertStatement | echoStatement | includeStatement | useStatement => true
  | _ => false

/-- Whether a node of this kind can name something. -/
def isName : Kind → Bool
  | identifier | specialVariable => true
  | _ => false

/-- Whether a node of this kind was put in by error recovery. -/
def isPlaceholder : Kind → Bool
  | error | missing => true
  | _ => false

/-- No kind is both an expression and a statement. -/
theorem not_isStatement_of_isExpression {k : Kind} (h : k.isExpression = true) :
    k.isStatement = false := by
  cases k <;> simp_all [isExpression, isStatement]

end Kind

end Scad
