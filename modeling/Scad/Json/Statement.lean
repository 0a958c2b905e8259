import Scad.Ast.View
import Scad.Json.Expression

/-!
# Programs as JSON

A program is the array of its statements.  A statement is a record that its field `type` tags; a
statement that is an expression holds the fields of the expression itself.  Shapes and transforms
are records that their field `kind` tags.

`Program.toJson` writes a program, `Program.ofJson?` reads one.
-/

namespace Scad

open Json (Decoder Fields Placement Record)

/-! ## §1 Faults -/

/-- The fields of a fault; one without a cause leaves that field out. -/
def Fault.fields : Fault → List (String × Json)
  | ⟨code, message, tag, text, span, cause⟩ =>
    [("errorCode", .string code.name), ("message", .string message),
     ("originalNodeType", .string tag), ("cstNodeText", .string text),
     ("location", span.toJson)] ++
    match cause with
    | none => []
    | some inner => [("cause", .object inner.fields)]

def Fault.toJson (f : Fault) : Json :=
  .object f.fields

/-- The names of the fields of a fault, the cause apart. -/
def Fault.fieldNames : List String :=
  ["errorCode", "message", "originalNodeType", "cstNodeText", "location"]

/-- The fault of a record, given how to read its cause.  An array may end before the cause. -/
def Fault.ofRecord? {j : Json} (record : Record j) (cause : Decoder j Fault) : Option Fault := do
  -- As an array, the record has six items or five.
  let fields ← (record.fields? (fieldNames ++ ["cause"])).or (record.fields? fieldNames)
  return {
    code := ← fields.bare "errorCode" FaultCode.ofName?
    message := ← fields.string "message"
    tag := ← fields.string "originalNodeType"
    text := ← fields.string "cstNodeText"
    span := ← fields.span "location"
    cause := ← fields.optional "cause" cause }

/-- The fault that a value stands for. -/
def Fault.ofJson? (j : Json) : Option Fault :=
  j.record?.bind fun record => Fault.ofRecord? record fun p => Fault.ofJson? p.json
termination_by sizeOf j
decreasing_by exact p.inside

/-! ## §2 Writing -/

variable (number : Float → Json)

/-- A value that may be absent as a value. -/
def Value.optionToJson (v : Option Value) : Json :=
  .optional (Value.toJson number) v

def Primitive.toJson (shape : Primitive) : Json :=
  .object <| ("kind", .string shape.name) ::
    match shape with
    | .cube size center | .square size center =>
      [("size", size.toJson number), ("center", center.toJson number)]
    | .sphere radius | .circle radius => [("radius", radius.toJson number)]
    | .cylinder height radiusBottom radiusTop center =>
      [("height", height.toJson number), ("radius_bottom", radiusBottom.toJson number),
       ("radius_top", radiusTop.toJson number), ("center", center.toJson number)]
    | .polyhedron points faces convexity =>
      [("points", points.toJson number), ("faces", faces.toJson number),
       ("convexity", .natural convexity)]
    | .polygon points paths =>
      [("points", points.toJson number), ("paths", Value.optionToJson number paths)]
    | .text content size => [("text", content.toJson number), ("size", size.toJson number)]

def OffsetAmount.toJson : OffsetAmount → Json
  | .radius value => .object [("radius", value.toJson number)]
  | .delta value => .object [("delta", value.toJson number)]

def Transform.toJson (transform : Transform) : Json :=
  .object <| ("kind", .string transform.name) ::
    match transform with
    | .translate vector => [("vector", vector.toJson number)]
    | .rotate angle axis =>
      [("angle", angle.toJson number), ("axis", Value.optionToJson number axis)]
    | .scale factors => [("factors", factors.toJson number)]
    | .mirror normal => [("normal", normal.toJson number)]
    | .resize size auto => [("size", size.toJson number), ("auto", auto.toJson number)]
    | .multmatrix matrix => [("matrix", matrix.toJson number)]
    | .color paint alpha =>
      [("color", paint.toJson number), ("alpha", Value.optionToJson number alpha)]
    | .offset amount chamfer =>
      [("amount", amount.toJson number), ("chamfer", chamfer.toJson number)]
    | .linearExtrude height center twist slices factors =>
      [("height", height.toJson number), ("center", center.toJson number),
       ("twist", twist.toJson number), ("slices", Value.optionToJson number slices),
       ("scale", factors.toJson number)]
    | .rotateExtrude angle convexity =>
      [("angle", angle.toJson number), ("convexity", .natural convexity)]

/-- The record of a statement, given its own fields. -/
def Statement.record (s : Statement) (own : List (String × Json)) : Json :=
  .object (("type", .string s.typeName) :: own)

mutual

/-- The fields of a statement, apart from its type. -/
def Statement.ownFields : Statement → List (String × Json)
  | .expression e => e.fields number
  | .fault f => f.fields
  | .assertion condition message body span =>
    [("condition", condition.toJson number),
     ("message", Expression.optionToJson number message),
     ("body", Statement.optionToJson body), ("location", span.toJson)]
  | .assign bindings body span =>
    [("assignments", .array (Binding.listToJson number bindings)),
     ("body", Statement.optionToJson body), ("location", span.toJson)]
  | .assignment b => b.fields number
  | .moduleDefinition name nameSpan parameters body span =>
    [("name", .string name), ("name_location", nameSpan.toJson),
     ("parameters", .list (Declaration.toJson number) parameters),
     ("body", .array (Statement.listToJson body)), ("location", span.toJson)]
  | .functionDefinition name nameSpan parameters body span =>
    [("name", .string name), ("name_location", nameSpan.toJson),
     ("parameters", .list (Declaration.toJson number) parameters),
     ("body", body.toJson number), ("location", span.toJson)]
  | .call name nameSpan arguments children span =>
    [("name", .string name), ("name_location", nameSpan.toJson),
     ("arguments", .array (Argument.listToJson number arguments)),
     ("children", .array (Statement.listToJson children)), ("location", span.toJson)]
  | .primitive shape specials span =>
    [("primitive", shape.toJson number),
     ("specials", .array (Argument.listToJson number specials)), ("location", span.toJson)]
  | .transform operation children span =>
    [("transform", operation.toJson number),
     ("children", .array (Statement.listToJson children)), ("location", span.toJson)]
  | .csg operation children span =>
    [("operation", .string operation.name),
     ("children", .array (Statement.listToJson children)), ("location", span.toJson)]
  | .modified modifier child span =>
    [("modifier", .string modifier.name), ("child", child.record child.ownFields),
     ("location", span.toJson)]
  | .branch condition consequence alternative span =>
    [("condition", condition.toJson number),
     ("consequence", .array (Statement.listToJson consequence)),
     ("alternative", Statement.alternativeToJson alternative), ("location", span.toJson)]
  | .loop bindings body span =>
    [("bindings", .array (Binding.listToJson number bindings)),
     ("body", .array (Statement.listToJson body)), ("location", span.toJson)]
  | .letIn bindings body span =>
    [("assignments", .array (Binding.listToJson number bindings)),
     ("body", .array (Statement.listToJson body)), ("location", span.toJson)]
  | .echo arguments body span =>
    [("arguments", .array (Argument.listToJson number arguments)),
     ("body", Statement.optionToJson body), ("location", span.toJson)]
  | .inclusion kind path span =>
    [("kind", .string kind.name), ("path", .string path), ("location", span.toJson)]
  | .block statements span =>
    [("statements", .array (Statement.listToJson statements)), ("location", span.toJson)]

/-- Statements as values. -/
def Statement.listToJson : List Statement → List Json
  | [] => []
  | s :: rest => s.record s.ownFields :: Statement.listToJson rest

/-- A statement that may be absent as a value. -/
def Statement.optionToJson : Option Statement → Json
  | none => .null
  | some s => s.record s.ownFields

/-- The alternative of a branch as a value. -/
def Statement.alternativeToJson : Option (List Statement) → Json
  | none => .null
  | some statements => .array (Statement.listToJson statements)

end

def Statement.toJson (s : Statement) : Json :=
  s.record (s.ownFields number)

def Program.toJson (p : Program) : Json :=
  .array (Statement.listToJson number p)

/-! ## §3 Reading shapes and transforms -/

section Reading

variable {j : Json}

/-- Reads a field that is the value of an argument. -/
def Json.Fields.value (fields : Fields j) (name : String) : Option Value :=
  fields.require name fun p => Value.ofJson? p.json .inner (Expression.ofJson? ·.json)

/-- Reads a field that is the value of an argument or absent. -/
def Json.Fields.value? (fields : Fields j) (name : String) : Option (Option Value) :=
  fields.optional name fun p => Value.ofJson? p.json .inner (Expression.ofJson? ·.json)

/-- Reads a field that is a natural number of 32 bits. -/
def Json.Fields.word (fields : Fields j) (name : String) : Option Nat :=
  (fields.natural name).filter (· < Nat.pow 2 32)

/-- The tags of shapes, in the order of their numbers. -/
def Primitive.tags : List String :=
  ["cube", "sphere", "cylinder", "polyhedron", "circle", "square", "polygon", "text"]

/-- The shape that a value stands for. -/
def Primitive.ofJson? (j : Json) : Option Primitive := do
  let (kind, record) ← (← j.record?).tagged? "kind" (·.json.tag? .inner tags)
  match kind with
  | "cube" =>
    let fields ← record.fields? ["size", "center"]
    return .cube (← fields.value "size") (← fields.value "center")
  | "sphere" => return .sphere (← (← record.fields? ["radius"]).value "radius")
  | "cylinder" =>
    let fields ← record.fields? ["height", "radius_bottom", "radius_top", "center"]
    return .cylinder (← fields.value "height") (← fields.value "radius_bottom")
      (← fields.value "radius_top") (← fields.value "center")
  | "polyhedron" =>
    let fields ← record.fields? ["points", "faces", "convexity"]
    return .polyhedron (← fields.value "points") (← fields.value "faces")
      (← fields.word "convexity")
  | "circle" => return .circle (← (← record.fields? ["radius"]).value "radius")
  | "square" =>
    let fields ← record.fields? ["size", "center"]
    return .square (← fields.value "size") (← fields.value "center")
  | "polygon" =>
    let fields ← record.fields? ["points", "paths"]
    return .polygon (← fields.value "points") (← fields.value? "paths")
  | "text" =>
    let fields ← record.fields? ["text", "size"]
    return .text (← fields.value "text") (← fields.value "size")
  | _ => none

/-- The amount of an offset that a value stands for. -/
def OffsetAmount.ofJson? (j : Json) : Option OffsetAmount := do
  let value (p : j.Part) := Value.ofJson? p.json .inner (Expression.ofJson? ·.json)
  match ← j.variant? with
  | ("radius", some p) => .radius <$> value p
  | ("delta", some p) => .delta <$> value p
  | _ => none

/-- The tags of transforms, in the order of their numbers. -/
def Transform.tags : List String :=
  ["translate", "rotate", "scale", "mirror", "resize", "multmatrix", "color", "offset",
   "linear_extrude", "rotate_extrude"]

/-- The transform that a value stands for. -/
def Transform.ofJson? (j : Json) : Option Transform := do
  let (kind, record) ← (← j.record?).tagged? "kind" (·.json.tag? .inner tags)
  match kind with
  | "translate" => return .translate (← (← record.fields? ["vector"]).value "vector")
  | "rotate" =>
    let fields ← record.fields? ["angle", "axis"]
    return .rotate (← fields.value "angle") (← fields.value? "axis")
  | "scale" => return .scale (← (← record.fields? ["factors"]).value "factors")
  | "mirror" => return .mirror (← (← record.fields? ["normal"]).value "normal")
  | "resize" =>
    let fields ← record.fields? ["size", "auto"]
    return .resize (← fields.value "size") (← fields.value "auto")
  | "multmatrix" => return .multmatrix (← (← record.fields? ["matrix"]).value "matrix")
  | "color" =>
    let fields ← record.fields? ["color", "alpha"]
    return .color (← fields.value "color") (← fields.value? "alpha")
  | "offset" =>
    let fields ← record.fields? ["amount", "chamfer"]
    return .offset (← fields.require "amount" (OffsetAmount.ofJson? ·.json))
      (← fields.value "chamfer")
  | "linear_extrude" =>
    let fields ← record.fields? ["height", "center", "twist", "slices", "scale"]
    return .linearExtrude (← fields.value "height") (← fields.value "center")
      (← fields.value "twist") (← fields.value? "slices") (← fields.value "scale")
  | "rotate_extrude" =>
    let fields ← record.fields? ["angle", "convexity"]
    return .rotateExtrude (← fields.value "angle") (← fields.word "convexity")
  | _ => none

/-! ## §4 Reading statements -/

/-- Reads a field that is an expression. -/
def Json.Fields.expression (fields : Fields j) (name : String) : Option Expression :=
  fields.require name (Expression.ofJson? ·.json)

/-- Reads a field that is a list of arguments. -/
def Json.Fields.arguments (fields : Fields j) (name : String) : Option (List Argument) :=
  fields.require name (Argument.decoder (Expression.ofJson? ·.json))

/-- Reads a field that is a list of bindings. -/
def Json.Fields.bindings (fields : Fields j) (name : String) : Option (List Binding) :=
  fields.require name (Binding.decoder (Expression.ofJson? ·.json))

/-- Reads a field that is a list of declarations. -/
def Json.Fields.declarations (fields : Fields j) (name : String) : Option (List Declaration) :=
  fields.require name (Decoder.each (Declaration.ofJson? ·.json))

/-- The statement of a record, given its tag and how to read its parts. -/
def Statement.ofRecord? (tag : String) (record : Record j) (statement : Decoder j Statement) :
    Option Statement := do
  match tag with
  | "expression" =>
    -- The fields of the expression stand among those of the statement.
    match record with
    | .named fields => .expression <$> Expression.ofFields? fields (Expression.ofJson? ·.json)
    | .listed _ => none
  | "error" => .fault <$> Fault.ofRecord? record (Fault.ofJson? ·.json)
  | "assert" =>
    let fields ← record.fields? ["condition", "message", "body", "location"]
    return .assertion (← fields.expression "condition")
      (← fields.optional "message" (Expression.ofJson? ·.json))
      (← fields.optional "body" statement) (← fields.span "location")
  | "assign" =>
    let fields ← record.fields? ["assignments", "body", "location"]
    return .assign (← fields.bindings "assignments") (← fields.optional "body" statement)
      (← fields.span "location")
  | "assignment" =>
    let fields ← record.fields? Binding.fieldNames
    .assignment <$> Binding.ofFields? fields (Expression.ofJson? ·.json)
  | "module_definition" =>
    let fields ← record.fields? ["name", "name_location", "parameters", "body", "location"]
    return .moduleDefinition (← fields.string "name") (← fields.span "name_location")
      (← fields.declarations "parameters") (← fields.require "body" statement.each)
      (← fields.span "location")
  | "function_definition" =>
    let fields ← record.fields? ["name", "name_location", "parameters", "body", "location"]
    return .functionDefinition (← fields.string "name") (← fields.span "name_location")
      (← fields.declarations "parameters") (← fields.expression "body")
      (← fields.span "location")
  | "module_instantiation" =>
    let fields ← record.fields? ["name", "name_location", "arguments", "children", "location"]
    return .call (← fields.string "name") (← fields.span "name_location")
      (← fields.arguments "arguments") (← fields.require "children" statement.each)
      (← fields.span "location")
  | "primitive" =>
    let fields ← record.fields? ["primitive", "specials", "location"]
    return .primitive (← fields.require "primitive" (Primitive.ofJson? ·.json))
      (← fields.arguments "specials") (← fields.span "location")
  | "transform" =>
    let fields ← record.fields? ["transform", "children", "location"]
    return .transform (← fields.require "transform" (Transform.ofJson? ·.json))
      (← fields.require "children" statement.each) (← fields.span "location")
  | "csg" =>
    let fields ← record.fields? ["operation", "children", "location"]
    return .csg (← fields.bare "operation" CsgOperation.ofName?)
      (← fields.require "children" statement.each) (← fields.span "location")
  | "modified" =>
    let fields ← record.fields? ["modifier", "child", "location"]
    return .modified (← fields.bare "modifier" Modifier.ofName?)
      (← fields.require "child" statement) (← fields.span "location")
  | "if" =>
    let fields ← record.fields? ["condition", "consequence", "alternative", "location"]
    return .branch (← fields.expression "condition")
      (← fields.require "consequence" statement.each)
      (← fields.optional "alternative" statement.each) (← fields.span "location")
  | "for" =>
    let fields ← record.fields? ["bindings", "body", "location"]
    return .loop (← fields.bindings "bindings") (← fields.require "body" statement.each)
      (← fields.span "location")
  | "let" =>
    let fields ← record.fields? ["assignments", "body", "location"]
    return .letIn (← fields.bindings "assignments") (← fields.require "body" statement.each)
      (← fields.span "location")
  | "echo" =>
    let fields ← record.fields? ["arguments", "body", "location"]
    return .echo (← fields.arguments "arguments") (← fields.optional "body" statement)
      (← fields.span "location")
  | "include" =>
    let fields ← record.fields? ["kind", "path", "location"]
    return .inclusion (← fields.bare "kind" InclusionKind.ofName?) (← fields.string "path")
      (← fields.span "location")
  | "block" =>
    let fields ← record.fields? ["statements", "location"]
    return .block (← fields.require "statements" statement.each) (← fields.span "location")
  | _ => none

end Reading

/-- The tags of statements, in the order of their numbers. -/
def Statement.tags : List String :=
  ["expression", "error", "assert", "assign", "assignment", "module_definition",
   "function_definition", "module_instantiation", "primitive", "transform", "csg", "modified",
   "if", "for", "let", "echo", "include", "block"]

/-- The statement that a value stands for. -/
def Statement.ofJson? (j : Json) (placement : Placement) : Option Statement :=
  (j.record?.bind (·.tagged? "type" (·.json.tag? placement tags))).bind fun (tag, record) =>
    Statement.ofRecord? tag record fun p => Statement.ofJson? p.json .inner
termination_by sizeOf j
decreasing_by exact p.inside

/-- The program that a value stands for. -/
def Program.ofJson? (j : Json) : Option Program :=
  j.items?.bind fun items => items.mapM fun p => Statement.ofJson? p.json .outermost

end Scad
