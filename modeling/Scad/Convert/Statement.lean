import Scad.Convert.Expression
import Scad.Convert.Predefined

/-!
# Statements from Syntax

Each construct has a conversion of its own, which takes the conversion of the statements inside its
node as a parameter.  `statementStep` chooses among them by the kind of the node, and `statement`
ties the knot.

* A statement that fails inside another stays there as a fault and leaves its owner alone.
* There are two dialects.  The complete dialect knows every construct; the dialect of calls knows
  calls and expressions only, and takes every call for the call of an unknown module.
-/

namespace Scad.Convert

open Conversion

/-- How much of the language is converted. -/
inductive Dialect where
  /-- Every construct. -/
  | complete
  /-- Calls and expressions; the calls are listed as events. -/
  | calls
  deriving DecidableEq, Repr, Inhabited

variable {n : Node}

/-! ## §1 Lists and bodies -/

/-- A statement whose fault, if it has one, takes its place. -/
def orFault (x : Conversion (Option Statement)) : Conversion (Option Statement) := do
  match ← x.settle with
  | .ok converted => return converted
  | .error fault => return some (.fault fault)

/-- The statements of a list of parts; what stands for nothing is left out. -/
def statements (convert : Converter n Statement) (parts : List n.Part) :
    Conversion (List Statement) :=
  return (← parts.mapM fun p => orFault (convert p)).filterMap id

/-- The statements directly under a node. -/
def significantStatements (n : Node) (convert : Converter n Statement) :
    Conversion (List Statement) :=
  statements convert n.significant

/-- A body as a list: a block is opened up. -/
def body (n : Node) (whole : Conversion (Option Statement)) (convert : Converter n Statement) :
    Conversion (List Statement) := do
  if n.kind == .block then
    significantStatements n convert
  else
    match ← orFault whole with
    | some (.block inner _) => return inner
    | some s => return [s]
    | none => return []

/-- The body that is a part of a node. -/
def partBody (convert : Converter n Statement) (p : n.Part) : Conversion (List Statement) :=
  body p.node (convert p) (convert.inside p)

/-- The body of a node, or no statements where there is none. -/
def bodyOf (convert : Converter n Statement) : Option n.Part → Conversion (List Statement)
  | some p => partBody convert p
  | none => pure []

/-- The statement that is the body of a node, where there is one. -/
def singleBody (convert : Converter n Statement) : Option n.Part → Conversion (Option Statement)
  | some p => orFault (convert p)
  | none => pure none

/-! ## §2 The parts of a call -/

/-- The name that is called: a labelled child or the first identifier, where it says anything. -/
def callee? (n : Node) : Option n.Part :=
  ((n.anyField? ["name", "function"]).or (n.ofKind? .identifier)).filter
    fun p => p.node.hasText && !p.node.isMissing

/-- The argument list of a call. -/
def argumentList? (n : Node) : Option n.Part :=
  (n.field? "arguments").or (n.ofKind? .arguments)

/-- The first statement among the children that starts at or after an offset. -/
def statementAfter? (n : Node) (offset : Nat) : Option n.Part :=
  n.find? fun c => offset ≤ c.startByte && c.kind.isStatement

/-- The child under one of the labels, or else the first statement behind the arguments, or behind
the name where there are no arguments. -/
def trailing? (n : Node) (labels : List String) : Option n.Part :=
  match n.anyField? labels with
  | some p => some p
  | none =>
    let before := (argumentList? n).or (callee? n)
    statementAfter? n ((before.map fun p => p.node.stopByte).getD n.startByte)

/-- The children of a call. -/
def callChildren (n : Node) (convert : Converter n Statement) : Conversion (List Statement) :=
  bodyOf convert (trailing? n ["body"])

/-! ## §3 Calls -/

/-- Remarks on the arguments that a predefined module has no parameter for. -/
def remarkIgnored (n : Node) (name : String) (args : List Argument) : Conversion Unit :=
  (ignored name args).forM fun argument => remark (.ignoredArgument name argument) n

/-- The statement that a call means in the complete dialect. -/
def predefinedCall (n : Node) (convert : Converter n Statement) (name : String)
    (args : List Argument) : Conversion Statement := do
  if let some shape := primitive? name args then
    -- A shape has no children, though its call may be followed by some.
    if (trailing? n ["body"]).isSome then remark (.ignoredChildren name) n
    remarkIgnored n name args
    return .primitive shape (args.filter isSpecial) n.span
  -- The arguments are judged before the children are converted.
  if let some transform := transform? name args then
    remarkIgnored n name args
    return .transform transform (← callChildren n convert) n.span
  -- An operation has no parameters, and passes over the arguments it is given.
  if let some operation := CsgOperation.ofName? name then
    return .csg operation (← callChildren n convert) n.span
  if name == "echo" then
    return .echo args (← singleBody convert (trailing? n ["body"])) n.span
  -- Every other name is a module of the program.
  let nameSpan := ((callee? n).map fun p => p.node.span).getD n.span
  return .call name nameSpan args (← callChildren n convert) n.span

/-- The statement that a call means in the dialect of calls. -/
def plainCall (n : Node) (convert : Converter n Statement) (name : String) (args : List Argument) :
    Conversion Statement := do
  -- The call is listed before those among its children.
  tell (.called name args.length)
  return .call name n.span args (← callChildren n convert) n.span

/-- A call. -/
def callStatement (d : Dialect) (n : Node) (convert : Converter n Statement) :
    Conversion (Option Statement) := do
  match callee? n with
  | none =>
    remark .callWithoutName n
    return none
  | some callee =>
    let args ← argumentsOf (expressions n) (argumentList? n)
    match d with
    | .complete => some <$> predefinedCall n convert callee.node.trimmed args
    | .calls => some <$> plainCall n convert callee.node.trimmed args

/-! ## §4 Assignments -/

/-- `name = value;`, labelled itself or around an assignment. -/
def assignmentStatement (n : Node) : Conversion (Option Statement) := do
  let bound ←
    -- Labels on the statement itself leave an assignment inside it aside.
    if n.hasAnyField ["name", "value"] then binding n (expressions n)
    else match n.ofKind? .assignment with
      | some inner => binding inner.node (expressions inner.node)
      | none => binding n (expressions n)
  return some (.assignment bound)

/-- The binding of an argument of `assign`, which must have a name. -/
def assignBinding (p : Node) : Conversion (List Binding) := do
  match p.kind with
  | .argument | .namedArgument | .assignment =>
    if p.kind == .argument && (p.field? "name").isNone then fail .unnamedAssign p
    return [← binding p (expressions p)]
  | kind => if kind.isExpression then fail .unnamedAssign p else return []

/-- `assign(a = 1, b = 2) body`, which is deprecated. -/
def assignStatement (n : Node) (convert : Converter n Statement) :
    Conversion (Option Statement) := do
  remark .deprecatedAssign n
  let list := argumentList? n
  let args := (list.map fun p => p.node.significant.map p.within).getD []
  -- Without an argument list there is nothing to bind.
  let groups ← args.mapM fun p => assignBinding p.node
  let after := (list.map fun p => p.node.stopByte).getD n.startByte
  let inner := (n.anyField? ["statement", "block", "body"]).or (statementAfter? n after)
  return some (.assign groups.flatten (← singleBody convert inner) n.span)

/-! ## §5 Assertions -/

/-- The value of an argument of `assert`. -/
def assertValue? (p : Node) : Option p.Part :=
  (p.field? "value").or
    (let nameStop := ((p.field? "name").map fun q => q.node.stopByte).getD 0
     p.findLast? fun c => nameStop ≤ c.startByte)

/-- The value that an argument hands over, as a part of the whole. -/
def argumentValue? (p : n.Part) : Option n.Part :=
  match p.node.kind with
  | .argument | .namedArgument | .assignment => (assertValue? p.node).map p.within
  | kind => if kind.isExpression then some p else none

/-- The condition and the message among the arguments of a list.  An argument with a name counts by
its name, and the last of a name wins; the others count by their order. -/
def assertArguments (list : n.Part) : Option n.Part × Option n.Part :=
  let args := list.node.significant.map list.within
  let nameOf (p : n.Part) := (p.node.field? "name").map fun q => q.node.trimmed
  let lastNamed (name : String) : Option n.Part :=
    ((args.filter fun p => nameOf p == some name).getLast?).bind argumentValue?
  -- What has no value does not count.
  let unnamed := (args.filter fun p => (nameOf p).isNone).filterMap argumentValue?
  let condition := lastNamed "condition"
  -- A condition given by name leaves the first place to the message.
  let message := (lastNamed "message").or unnamed[if condition.isSome then 0 else 1]?
  (condition.or unnamed[0]?, message)

/-- The condition and the message among bare children: the message follows the comma. -/
def assertChildren (n : Node) : Option n.Part × Option n.Part :=
  let comma := n.token? (·.text == ",")
  let message := comma.bind fun comma =>
    n.find? fun c => comma.node.stopByte ≤ c.startByte && c.kind.isExpression
  (n.find? (·.kind.isExpression), message)

/-- The condition and the message of an assertion. -/
def assertParts (n : Node) : Option n.Part × Option n.Part :=
  -- A labelled condition says that the grammar labels the message, too.
  match n.field? "condition" with
  | some condition => (some condition, n.field? "message")
  | none =>
    match argumentList? n with
    | some list => assertArguments list
    | none => assertChildren n

/-- `assert(condition, message) body` -/
def assertStatement (n : Node) (convert : Converter n Statement) :
    Conversion (Option Statement) := do
  let (condition, message) := assertParts n
  match condition with
  | none =>
    remark .assertWithoutCondition n
    return none
  | some condition =>
    let condition ← resolve (expressions n) .assertCondition condition
    let message ← resolve? (expressions n) .assertMessage message
    let inner ← singleBody convert (trailing? n ["statement", "body"])
    return some (.assertion condition message inner n.span)

/-! ## §6 Definitions -/

/-- The name of a definition. -/
def definitionName (n : Node) (what : String) : Conversion n.Part :=
  require
    (((n.field? "name").or (n.ofKind? .identifier)).filter
      fun p => !p.node.isMissing && p.node.hasText)
    (.noDefinitionName what) n

/-- The parameter list of a definition. -/
def parameterList? (n : Node) : Option n.Part :=
  (n.field? "parameters").or (n.ofKind? .parameterList)

/-- The node that holds the name and the default of a parameter: an assignment inside it, unless
the parameter has a name of its own. -/
def parameterTarget (n : Node) : Node :=
  match (n.ofKind? .assignment).filter fun _ => (n.field? "name").isNone with
  | some inner => inner.node
  | none => n

/-- One parameter: a bare name, `name = default`, or a node around either. -/
def declaration (n : Node) : Conversion Declaration := do
  -- A bare name is a parameter without a default.
  if n.kind.isName then return ⟨n.trimmed, none, n.span⟩
  let target := parameterTarget n
  let name := (target.field? "name").or (nameChild? target)
  let name ← require (name.filter (·.node.hasText)) .noParameterName n
  let default? := (target.anyField? ["default", "value"]).or
    (target.findLast? fun c => name.node.stopByte ≤ c.startByte)
  let default? ← resolve? (expressions target) .defaultValue default?
  return ⟨name.node.trimmed, default?, n.span⟩

/-- Whether a child of a parameter list is a parameter. -/
def isDeclaration (n : Node) : Bool :=
  n.kind == .parameter || n.kind.isName || n.kind == .assignment

/-- The parameters of a definition. -/
def declarations (n : Node) : Conversion (List Declaration) :=
  match parameterList? n with
  | some list => (list.node.significant.filter (isDeclaration ·.node)).mapM (declaration ·.node)
  | none => pure []

/-- `module name(parameters) body` -/
def moduleDefinition (n : Node) (convert : Converter n Statement) :
    Conversion (Option Statement) := do
  let name ← definitionName n "module"
  let parameters ← declarations n
  let inner ← bodyOf convert ((n.field? "body").or (n.findLast? (·.kind.isStatement)))
  return some (.moduleDefinition name.node.trimmed name.node.span parameters inner n.span)

/-- `function name(parameters) = body;` -/
def functionDefinition (n : Node) : Conversion (Option Statement) := do
  let name ← definitionName n "function"
  let parameters ← declarations n
  let after := ((parameterList? n).map fun p => p.node.stopByte).getD name.node.stopByte
  let inner := (n.anyField? ["value", "body"]).or
    (n.findLast? fun c => after ≤ c.startByte && c.kind.isExpression)
  let inner ← require (inner.filter (!·.node.isMissing)) (.noFunctionBody name.node.trimmed) n
  let inner ← resolve (expressions n) .functionBody inner
  return some (.functionDefinition name.node.trimmed name.node.span parameters inner n.span)

/-! ## §7 Control flow -/

/-- Statements in braces. -/
def blockStatement (n : Node) (convert : Converter n Statement) :
    Conversion (Option Statement) := do
  return some (.block (← significantStatements n convert) n.span)

/-- `if (condition) consequence else alternative`.  Without labels, the consequence lies between
the condition and the `else`, and the alternative behind the `else`. -/
def ifStatement (n : Node) (convert : Converter n Statement) : Conversion (Option Statement) := do
  let condition := (n.field? "condition").or (n.find? (·.kind.isExpression))
  let condition ← require (condition.filter (!·.node.isMissing)) .ifWithoutCondition n
  let value ← resolve (expressions n) .ifCondition condition
  -- The keyword divides what belongs to the condition from what does not.
  let elseStop := (n.token? (·.text == "else")).map fun p => p.node.stopByte
  let consequence := (n.field? "consequence").or
    (n.find? fun c => condition.node.stopByte ≤ c.startByte && c.kind.isStatement
      && elseStop.all fun stop => c.stopByte ≤ stop)
  let alternative := (n.field? "alternative").or
    (elseStop.bind fun stop => statementAfter? n stop)
  let consequence ← bodyOf convert consequence
  -- An `else` without a statement behind it is no alternative.
  let alternative ← match alternative with
    | some p => some <$> partBody convert p
    | none => pure none
  return some (.branch value consequence alternative n.span)

/-- The bindings of a loop: the one that its labels spell, or those under its node. -/
def loopBindings (n : Node) : Conversion (List Binding) := do
  match n.field? "iterator", n.field? "range" with
  | some iterator, some range =>
    let iterable ← resolve (expressions n) .loopIterable range
    return [⟨iterator.node.trimmed, iterator.node.span, iterable,
      iterator.node.spanTo range.node⟩]
  -- One of the two labels alone is half a binding.
  | none, some range => fail .loopWithoutVariable range.node
  | some iterator, none => fail .loopWithoutRange iterator.node
  | none, none => bindings n (expressions n)

/-- `for (a = v, b = w) body` -/
def forStatement (n : Node) (convert : Converter n Statement) : Conversion (Option Statement) := do
  let bound ← loopBindings n
  -- The body is looked for behind the last binding.
  let last ← require bound.getLast? .loopWithoutBindings n
  let inner := (n.field? "body").or (statementAfter? n last.span.stop.offset)
  return some (.loop bound (← bodyOf convert inner) n.span)

/-- `let (a = 1, b = 2) body` -/
def letStatement (n : Node) (convert : Converter n Statement) : Conversion (Option Statement) := do
  let bound ← bindings n (expressions n)
  -- The body stands behind the list of bindings, or behind the last bare one.
  let before := (argumentList? n).or (n.findLast? (·.kind == .assignment))
  let after := (before.map fun p => p.node.stopByte).getD n.startByte
  let inner := (n.field? "body").or (statementAfter? n after)
  return some (.letIn bound (← bodyOf convert inner) n.span)

/-- `echo(arguments) body` -/
def echoStatement (n : Node) (convert : Converter n Statement) : Conversion (Option Statement) := do
  let args ← argumentsOf (expressions n) (argumentList? n)
  let inner ← singleBody convert (trailing? n ["statement", "body"])
  return some (.echo args inner n.span)

/-! ## §8 References to files -/

/-- The characters between angle brackets. -/
def dropAngles : List Char → Option (List Char)
  | '<' :: rest => if rest.getLast? == some '>' then some rest.dropLast else none
  | _ => none

/-- A path without the brackets or the quotes around it. -/
def pathOf (text : String) : String :=
  match dropAngles (Text.trimChars text.toList) with
  | some inner => Text.trim (String.ofList inner)
  | none => Text.trim (unquote text)

/-- `include <path>` or `use <path>` -/
def inclusionStatement (n : Node) : Conversion (Option Statement) := do
  let kind := if n.kind == .useStatement then .definitions else .whole
  let path := ((n.field? "path").or n.significant.head?).map fun p => pathOf p.node.text
  let path ← require (path.filter (!·.isEmpty)) .noPath n
  return some (.inclusion kind path n.span)

/-! ## §9 Modifiers -/

/-- The modifier that a node spells: by its first token, or else by its first character. -/
def modifierOf (n : Node) : Option Modifier :=
  let token := (n.token? fun _ => true).bind fun p => p.node.text.toList.head?
  (token.or (Text.trimStartChars n.text.toList).head?).bind Modifier.ofChar?

/-- The statement `target` behind the modifier that `modifier` spells.  The result covers both. -/
def applyModifier (convert : Converter n Statement) (modifier : Node) (target : Option n.Part) :
    Conversion (Option Statement) := do
  match modifierOf modifier with
  | none =>
    remark .unknownModifier modifier
    return none
  | some kind =>
    match target with
    | none => return none
    | some target =>
      -- A modifier around its target covers it already.
      let span :=
        if modifier.stopByte < target.node.stopByte then modifier.spanTo target.node
        else modifier.span
      return (← orFault (convert target)).map fun child => .modified kind child span

/-- A modifier around its statement. -/
def modifierStatement (n : Node) (convert : Converter n Statement) :
    Conversion (Option Statement) :=
  applyModifier convert n
    ((n.anyField? ["statement", "body"]).or (n.findLast? (·.kind.isStatement)))

/-! ## §10 Wrappers -/

/-- An expression that stands as a statement. -/
def expressionNode (n : Node) : Conversion (Option Statement) :=
  return (← expression n).map .expression

/-- What an expression statement holds: a call is the call of a module. -/
def expressionStatement (n : Node) (convert : Converter n Statement) :
    Conversion (Option Statement) :=
  match n.significant.head? with
  | none => pure none
  | some inner =>
    match inner.node.kind with
    | .moduleInstantiation | .callExpression | .accessorExpression => convert inner
    | _ => expressionNode inner.node

/-- What a wrapper holds in the dialect of calls: an expression statement, or else the first call
inside it. -/
def plainWrapper (n : Node) (convert : Converter n Statement) : Conversion (Option Statement) :=
  match n.parts.find? (·.node.kind == .expressionStatement) with
  | some inner => convert inner
  | none =>
    match (n.descendant? .moduleInstantiation).or (n.descendant? .accessorExpression) with
    | some call => convert call
    | none => pure none

/-- The modifier that a wrapper starts with, where it stands beside the statement it applies to,
and that statement. -/
def siblingModifier? (n : Node) : Option (n.Part × Option n.Part) :=
  match n.significant with
  | first :: rest =>
    if first.node.kind == .modifier
        && !first.node.significant.any fun c => c.node.kind.isStatement then
      some (first, rest.find? fun c => c.node.kind.isStatement)
    else none
  | [] => none

/-- Whether a statement kind is looked for in a wrapper before the calls are. -/
def isDedicated (k : Kind) : Bool :=
  k.isStatement && k != .expressionStatement && k != .moduleInstantiation

/-- What a wrapper holds in the complete dialect. -/
def statementWrapper (n : Node) (convert : Converter n Statement) : Conversion (Option Statement) :=
  match siblingModifier? n with
  | some (modifier, target) => applyModifier convert modifier.node target
  | none =>
    match n.find? (isDedicated ·.kind) with
    | some inner => convert inner
    | none => plainWrapper n convert

/-! ## §11 The choice among them -/

/-- A module call whose label names `assign` or `assert` is that statement. -/
def moduleCall (n : Node) (convert : Converter n Statement) : Conversion (Option Statement) :=
  match (n.anyField? ["name", "function"]).map fun p => p.node.trimmed with
  | some "assign" => assignStatement n convert
  | some "assert" => assertStatement n convert
  | _ => callStatement .complete n convert

/-- The choice among the kinds that both dialects look at. -/
def commonStep (d : Dialect) (n : Node) (convert : Converter n Statement) :
    Conversion (Option Statement) :=
  match n.kind, d with
  | .moduleInstantiation, .complete => moduleCall n convert
  | .moduleInstantiation, .calls => callStatement d n convert
  | .callExpression, _ | .accessorExpression, _ => callStatement d n convert
  | .statement, .complete => statementWrapper n convert
  | .statement, .calls => plainWrapper n convert
  | .expressionStatement, _ => expressionStatement n convert
  | .letExpression, _ | .conditionalExpression, _ | .expression, _ => expressionNode n
  | .moduleDefinition, .complete => moduleDefinition n convert
  | .functionDefinition, .complete => functionDefinition n
  | .ifStatement, .complete => ifStatement n convert
  | .forStatement, .complete => forStatement n convert
  | .assignmentStatement, .complete => assignmentStatement n
  | .block, .complete => blockStatement n convert
  | _, _ => pure none

/-- The conversion of a node, given that of its parts. -/
def statementStep (d : Dialect) (n : Node) (convert : Converter n Statement) :
    Conversion (Option Statement) :=
  match n.kind, d with
  | .assignStatement, .complete => assignStatement n convert
  | .assertStatement, .complete => assertStatement n convert
  | .echoStatement, .complete => echoStatement n convert
  | .includeStatement, .complete | .useStatement, .complete => inclusionStatement n
  | .letStatement, .complete => letStatement n convert
  | .modifier, .complete => modifierStatement n convert
  | _, _ => commonStep d n convert

/-- The statement that a node stands for. -/
def statement (d : Dialect) (n : Node) : Conversion (Option Statement) :=
  statementStep d n fun p => statement d p.node
termination_by sizeOf n
decreasing_by exact p.inside

/-- The conversion of the statements inside a node. -/
def inner (d : Dialect) (n : Node) : Converter n Statement :=
  fun p => statement d p.node

theorem statement_eq (d : Dialect) (n : Node) : statement d n = statementStep d n (inner d n) := by
  rw [statement]
  rfl

end Scad.Convert
