import Scad.Convert.Literal

/-!
# Arguments and Bindings

Reads argument lists and `name = value` bindings.  What stands in the place of a value may be any
expression, so everything here takes the conversion of the parts of a node as a parameter; the
conversion of expressions is tied together elsewhere.
-/

namespace Scad.Convert

open Conversion

/-! ## §1 Converting the parts of a node -/

variable {n : Node}

/-- Converts the expression that plays a role.  Where the construct adds a fault of its own, the
fault of the expression becomes its cause. -/
def resolve (convert : Converter n Expression) (role : Role) (p : n.Part) :
    Conversion Expression := do
  let converted :=
    -- The fault of an expression passes unchanged where the construct adds none.
    if role.addsFault then (convert p).blame (fun inner => .invalid role inner.message) p.node
    else convert p
  require (← converted) (.unresolved role) p.node

/-- Converts the expression that plays a role which may be left open. -/
def resolve? (convert : Converter n Expression) (role : Role) :
    Option n.Part → Conversion (Option Expression)
  | some p => some <$> resolve convert role p
  | none => pure none

/-! ## §2 Arguments -/

/-- The value of an argument: settled at once where it is plain, and else converted as a whole. -/
def value (n : Node) (whole : Conversion (Option Expression)) : Conversion Value := do
  match ← ofExcept (plainValue n).run with
  | some settled => pure settled
  | none => return (← require (← whole) .unresolvedArgument n).toValue

/-- A single argument, `name = value` or a value by itself.  Without a label, the value is the last
child that starts after the name. -/
def argument (n : Node) (convert : Converter n Expression) : Conversion Argument := do
  -- A name of blanks alone is no name.
  let name := (n.field? "name").filter (·.node.hasText)
  let valueNode := (n.field? "value").or
    (n.findLast? fun c => name.all fun name => name.node.stopByte ≤ c.startByte)
  let valueNode ← require (valueNode.filter (!·.node.isMissing)) .noArgumentValue n
  -- Literals are settled at once, without the conversion of expressions.
  let settled ← value valueNode.node (convert valueNode)
  return ⟨name.map (·.node.trimmed), settled, n.span⟩

/-- The arguments of a list, in order; a list inside the list is opened up, and what is no argument
is passed over. -/
def arguments (n : Node) (convert : Converter n Expression) : Conversion (List Argument) := do
  let groups ← n.significant.mapM fun c =>
    match c.node.kind with
    | .arguments => arguments c.node (convert.inside c)
    | .argument | .namedArgument | .assignment => do
      return [← argument c.node (convert.inside c)]
    | kind =>
      if kind.isExpression then do
        return [⟨none, ← value c.node (convert c), c.node.span⟩]
      else pure []
  return groups.flatten
termination_by sizeOf n
decreasing_by exact c.inside

/-- The arguments of a list that may be absent. -/
def argumentsOf (convert : Converter n Expression) : Option n.Part → Conversion (List Argument)
  | some list => arguments list.node (convert.inside list)
  | none => pure []

/-! ## §3 Bindings -/

/-- The first significant child that can name something. -/
def nameChild? (n : Node) : Option n.Part :=
  n.find? (·.kind.isName)

/-- A binding `name = value`.  Without labels, the name is the first name in the node, and the value
the last child that starts after it. -/
def binding (n : Node) (convert : Converter n Expression) : Conversion Binding := do
  let name := (n.field? "name").or (nameChild? n)
  let name ← require (name.filter fun p => p.node.hasText && !p.node.isMissing) .noBindingName n
  let valueNode := (n.field? "value").or
    (n.findLast? fun c => name.node.stopByte ≤ c.startByte)
  let valueNode ← require (valueNode.filter (!·.node.isMissing))
    (.noBindingValue name.node.trimmed) n
  let bound ← require (← convert valueNode) (.unresolvedBinding name.node.trimmed) valueNode.node
  return ⟨name.node.trimmed, name.node.span, bound, n.span⟩

/-- The bindings directly under a node: as children, as arguments of a list, or in a `let` clause.
An argument must have a name. -/
def bindings (n : Node) (convert : Converter n Expression) : Conversion (List Binding) := do
  let groups ← n.significant.mapM fun c =>
    match c.node.kind with
    | .assignment | .namedArgument | .forBinding => do
      return [← binding c.node (convert.inside c)]
    | .argument => do
      -- A value alone would be bound to nothing.
      if (c.node.field? "name").isNone then fail .positionalBinding c.node
      return [← binding c.node (convert.inside c)]
    -- Lists and clauses are opened up, at any depth.
    | .arguments | .letClause => bindings c.node (convert.inside c)
    | _ => pure []
  return groups.flatten
termination_by sizeOf n
decreasing_by exact c.inside

end Scad.Convert
