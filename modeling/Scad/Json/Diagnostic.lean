import Scad.Diagnostic
import Scad.Event
import Scad.Json.Record

/-!
# Diagnostics and Traces as JSON

A diagnostic is a record of its fields.  A record of a trace is an object of the fields of the
record, its level and its message.
-/

namespace Scad

def Diagnostic.toJson (d : Diagnostic) : Json :=
  .object
    [("severity", .string d.severity.name), ("message", .string d.message),
     ("span", d.span.toJson), ("hint", .optional .string d.hint),
     ("code", .optional .string d.code)]

/-- The diagnostic that a value stands for. -/
def Diagnostic.ofJson? (j : Json) : Option Diagnostic := do
  let fields ← j.fieldsOf? ["severity", "message", "span", "hint", "code"]
  return {
    severity := ← fields.require "severity" fun p =>
      (p.json.bareVariant? .outermost).bind Severity.ofName?
    message := ← fields.string "message"
    span := ← fields.require "span" (Span.ofJson? ·.json)
    hint := ← fields.string? "hint"
    code := ← fields.string? "code" }

/-- The report as a value, with the text that shows it. -/
def Report.toJson (r : Report) : Json :=
  .object
    [("message", .string r.message), ("line", .natural r.line), ("column", .natural r.column),
     ("node_type", .string r.tag), ("severity", .string r.severity.name),
     ("code", .optional (fun code => .string code.name) r.code),
     ("span", .optional Span.toJson r.span), ("display", .string r.display)]

def FieldValue.toJson : FieldValue → Json
  | text s => .string s
  | number n => .natural n

def TraceRecord.toJson (r : TraceRecord) : Json :=
  .object <|
    [("level", .string r.level.name), ("message", .string r.message)]
      ++ r.fields.map fun (name, value) => (name, value.toJson)

end Scad
