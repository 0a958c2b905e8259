import Scad.Ast.Expression
import Scad.Json.Record

/-!
# Expressions as JSON

An expression is a record that its field `expressionType` tags, and is always written as an object.
How numbers are written is a parameter.

* A literal is the plain value, and `null` for the undefined one.
* The value of an argument is a variant.
-/

namespace Scad

open Json (Decoder Fields Placement)

/-! ## §1 Writing -/

variable (number : Float → Json)

def Literal.toJson : Literal → Json
  | .number x => number x
  | .boolean b => .bool b
  | .string s => .string s
  | .undefined => .null

/-- The record of an expression, given its own fields. -/
def Expression.record (e : Expression) (own : List (String × Json)) : List (String × Json) :=
  ("expressionType", .string e.typeName) :: own ++ [("location", e.span.toJson)]

mutual

/-- The fields of an expression, apart from its type and its place. -/
def Expression.ownFields : Expression → List (String × Json)
  | .literal value _ => [("value", value.toJson number)]
  | .identifier name _ | .special name _ => [("name", .string name)]
  | .call name arguments _ =>
    [("name", .string name), ("arguments", .array (Argument.listToJson arguments))]
  | .vector elements _ => [("elements", .array (Expression.listToJson elements))]
  | .index array index _ =>
    [("array", .object (array.record array.ownFields)),
     ("index", .object (index.record index.ownFields))]
  | .member object property _ =>
    [("object", .object (object.record object.ownFields)), ("property", .string property)]
  | .range start step stop _ =>
    [("start", .object (start.record start.ownFields)), ("step", Expression.optionToJson step),
     ("end", .object (stop.record stop.ownFields))]
  | .letIn bindings body _ =>
    [("assignments", .array (Binding.listToJson bindings)),
     ("body", .object (body.record body.ownFields))]
  | .comprehension style bindings variableName iterable condition body _ =>
    [("style", .string style.name), ("lets", .array (Binding.listToJson bindings)),
     ("variable", .string variableName),
     ("iterable", .object (iterable.record iterable.ownFields)),
     ("condition", Expression.optionToJson condition),
     ("body", .object (body.record body.ownFields))]
  | .binary operator left right _ =>
    [("operator", .string operator.name), ("left", .object (left.record left.ownFields)),
     ("right", .object (right.record right.ownFields))]
  | .unary operator operand _ =>
    [("operator", .string operator.name), ("operand", .object (operand.record operand.ownFields))]
  | .conditional condition consequence alternative _ =>
    [("condition", .object (condition.record condition.ownFields)),
     ("consequence", .object (consequence.record consequence.ownFields)),
     ("alternative", .object (alternative.record alternative.ownFields))]

/-- Expressions as values. -/
def Expression.listToJson : List Expression → List Json
  | [] => []
  | e :: rest => .object (e.record e.ownFields) :: Expression.listToJson rest

/-- An expression that may be absent as a value. -/
def Expression.optionToJson : Option Expression → Json
  | none => .null
  | some e => .object (e.record e.ownFields)

def Value.toJson : Value → Json
  | .number x => .object [("number", number x)]
  | .boolean b => .object [("boolean", .bool b)]
  | .string s => .object [("string", .string s)]
  | .undefined => .string "undef"
  | .vector2 x y => .object [("vector2", .array [number x, number y])]
  | .vector3 x y z => .object [("vector3", .array [number x, number y, number z])]
  | .expression e => .object [("expression", .object (e.record e.ownFields))]

def Argument.toJson : Argument → Json
  | ⟨name, value, span⟩ =>
    .object [("name", .optional .string name), ("value", value.toJson), ("location", span.toJson)]

/-- Arguments as values. -/
def Argument.listToJson : List Argument → List Json
  | [] => []
  | a :: rest => a.toJson :: Argument.listToJson rest

/-- The fields of a binding. -/
def Binding.fields : Binding → List (String × Json)
  | ⟨name, nameSpan, value, span⟩ =>
    [("name", .string name), ("name_location", nameSpan.toJson),
     ("value", .object (value.record value.ownFields)), ("location", span.toJson)]

/-- Bindings as values. -/
def Binding.listToJson : List Binding → List Json
  | [] => []
  | b :: rest => .object b.fields :: Binding.listToJson rest

end

/-- The fields of an expression. -/
def Expression.fields (e : Expression) : List (String × Json) :=
  e.record (e.ownFields number)

def Expression.toJson (e : Expression) : Json :=
  .object (e.fields number)

def Declaration.toJson (d : Declaration) : Json :=
  .object
    [("name", .string d.name), ("default", Expression.optionToJson number d.default?),
     ("location", d.span.toJson)]

/-! ## §2 Reading -/

/-- The literal that a value stands for. -/
def Literal.ofJson? (j : Json) : Option Literal :=
  match j with
  | .number n => some (.number n.toFloat)
  | .bool b => some (.boolean b)
  | .string s => some (.string s)
  | .null => some .undefined
  | _ => none

section Reading

variable {j : Json}

/-- Reads a field that is a span. -/
def Json.Fields.span (fields : Fields j) (name : String) : Option Span :=
  fields.require name (Span.ofJson? ·.json)

/-- The value of an argument that a value stands for. -/
def Value.ofJson? (j : Json) (placement : Placement) (expression : Decoder j Expression) :
    Option Value := do
  -- A vector is read as a list first, whose length has to fit.
  let numbers (p : j.Part) : Option (List Float) := Decoder.each (·.json.float?) p
  match ← j.variant? with
  | ("number", some p) => .number <$> p.json.float?
  | ("boolean", some p) => .boolean <$> p.json.bool?
  | ("string", some p) => .string <$> p.json.string?
  | ("undef", none) => some .undefined
  | ("undef", some p) => if p.json.isNothing placement then some .undefined else none
  | ("vector2", some p) =>
    match ← numbers p with
    | [x, y] => some (.vector2 x y)
    | _ => none
  | ("vector3", some p) =>
    match ← numbers p with
    | [x, y, z] => some (.vector3 x y z)
    | _ => none
  | ("expression", some p) => .expression <$> expression p
  | _ => none

/-- The argument that a value stands for. -/
def Argument.ofJson? (j : Json) (placement : Placement) (expression : Decoder j Expression) :
    Option Argument := do
  let fields ← j.fieldsOf? ["name", "value", "location"]
  return {
    name := ← fields.string? "name"
    value := ← fields.require "value" fun p =>
      Value.ofJson? p.json placement (expression.inside p)
    span := ← fields.span "location" }

/-- The binding of the fields of a record. -/
def Binding.ofFields? (fields : Fields j) (expression : Decoder j Expression) :
    Option Binding := do
  return {
    name := ← fields.string "name"
    nameSpan := ← fields.span "name_location"
    value := ← fields.require "value" expression
    span := ← fields.span "location" }

/-- The names of the fields of a binding. -/
def Binding.fieldNames : List String :=
  ["name", "name_location", "value", "location"]

/-- The binding that a value stands for. -/
def Binding.ofJson? (j : Json) (expression : Decoder j Expression) : Option Binding := do
  Binding.ofFields? (← j.fieldsOf? Binding.fieldNames) expression

/-- Reads the arguments of a list inside a statement or an expression. -/
def Argument.decoder (expression : Decoder j Expression) : Decoder j (List Argument) :=
  Decoder.each fun p => Argument.ofJson? p.json .inner (expression.inside p)

/-- Reads the bindings of a list. -/
def Binding.decoder (expression : Decoder j Expression) : Decoder j (List Binding) :=
  Decoder.each fun p => Binding.ofJson? p.json (expression.inside p)

/-- The tags of expressions, in the order of their numbers. -/
def Expression.tags : List String :=
  ["literal", "identifier", "special_variable", "function_call", "vector", "index", "member",
   "range_expression", "let_expression", "list_comprehension_expression", "binary", "unary",
   "conditional_expression"]

/-- The expression of the fields of a record, given how to read its parts.  The tag may be a number
wherever the expression stands. -/
def Expression.ofFields? (fields : Fields j) (expression : Decoder j Expression) :
    Option Expression := do
  let span ← fields.span "location"
  match ← fields.require "expressionType" (·.json.tag? .inner tags) with
  | "literal" => return .literal (← fields.require "value" (Literal.ofJson? ·.json)) span
  | "identifier" => return .identifier (← fields.string "name") span
  | "special_variable" => return .special (← fields.string "name") span
  | "function_call" =>
    return .call (← fields.string "name")
      (← fields.require "arguments" (Argument.decoder expression)) span
  | "vector" => return .vector (← fields.require "elements" expression.each) span
  | "index" =>
    return .index (← fields.require "array" expression) (← fields.require "index" expression) span
  | "member" =>
    return .member (← fields.require "object" expression) (← fields.string "property") span
  | "range_expression" =>
    return .range (← fields.require "start" expression) (← fields.optional "step" expression)
      (← fields.require "end" expression) span
  | "let_expression" =>
    return .letIn (← fields.require "assignments" (Binding.decoder expression))
      (← fields.require "body" expression) span
  | "list_comprehension_expression" =>
    return .comprehension
      (← fields.bare "style" ComprehensionStyle.ofName?)
      (← fields.require "lets" (Binding.decoder expression))
      (← fields.string "variable") (← fields.require "iterable" expression)
      (← fields.optional "condition" expression) (← fields.require "body" expression) span
  | "binary" =>
    return .binary (← fields.bare "operator" BinaryOperator.ofName?)
      (← fields.require "left" expression) (← fields.require "right" expression) span
  | "unary" =>
    return .unary (← fields.bare "operator" UnaryOperator.ofName?)
      (← fields.require "operand" expression) span
  | "conditional_expression" =>
    return .conditional (← fields.require "condition" expression)
      (← fields.require "consequence" expression) (← fields.require "alternative" expression) span
  | _ => none

end Reading

/-- The expression that a value stands for. -/
def Expression.ofJson? (j : Json) : Option Expression :=
  j.fields?.bind fun fields => Expression.ofFields? fields fun p => Expression.ofJson? p.json
termination_by sizeOf j
decreasing_by exact p.inside

/-- The declaration that a value stands for. -/
def Declaration.ofJson? (j : Json) : Option Declaration := do
  let fields ← j.fieldsOf? ["name", "default", "location"]
  return {
    name := ← fields.string "name"
    default? := ← fields.optional "default" (Expression.ofJson? ·.json)
    span := ← fields.span "location" }

end Scad
