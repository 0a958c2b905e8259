import Scad.Json.Value
import Scad.Span

/-!
# Records in JSON

A record is written as an object, whose fields may stand in any order among fields of other names,
or as the array of the values of its fields.  A field whose value may be absent is left out or
`null`; an array has an item for it all the same.

* Of several records, a *tagged* one tells by a field which it is; in an array the tag comes first.
* A *variant* is a value of one of several forms: a bare name, or an object whose only field has
  that name.

A value inside a statement or an expression may be written more freely than one that stands on its
own: a tag also as its number, and what holds nothing also as an empty object.
-/

namespace Scad.Json

variable {j : Json} {α : Type}

/-! ## §1 Parts of parts -/

/-- A part of a part is a part of the whole. -/
def Part.within (p : j.Part) (q : p.json.Part) : j.Part :=
  ⟨q.json, Nat.lt_trans q.inside p.inside⟩

/-- The items of a part that is an array. -/
def Part.items? (p : j.Part) : Option (List j.Part) :=
  p.json.items?.map fun items => items.map p.within

/-- Reads a part of a value. -/
abbrev Decoder (j : Json) (α : Type) : Type :=
  j.Part → Option α

/-- Reads the parts of a part. -/
def Decoder.inside (decode : Decoder j α) (p : j.Part) : Decoder p.json α :=
  fun q => decode (p.within q)

/-- Reads every item of an array. -/
def Decoder.each (decode : Decoder j α) : Decoder j (List α) :=
  fun p => p.items?.bind fun items => items.mapM decode

/-! ## §2 Placement -/

/-- Where a value stands. -/
inductive Placement where
  /-- On its own. -/
  | outermost
  /-- Inside a statement or an expression. -/
  | inner
  deriving DecidableEq, Repr, Inhabited

/-- The tag that a value stands for: the name or, inside other values, the number of the tag among
the given ones, counted from zero. -/
def tag? (placement : Placement) (tags : List String) (j : Json) : Option String :=
  match placement, j with
  | _, string name => some name
  | .inner, number (.natural n) => tags[n]?
  | _, _ => none

/-- Whether a value says that nothing is held. -/
def isNothing (placement : Placement) : Json → Bool
  | null => true
  | object [] => placement == .inner
  | _ => false

/-! ## §3 Records -/

/-- The values of a record by the names of their fields. -/
abbrev Fields (j : Json) : Type :=
  List (String × j.Part)

/-- A record as it was written. -/
inductive Record (j : Json) where
  /-- As an object. -/
  | named (fields : Fields j)
  /-- As an array. -/
  | listed (items : List j.Part)

/-- The record that a value is. -/
def record? (j : Json) : Option (Record j) :=
  match j.fields? with
  | some fields => some (.named fields)
  | none => j.items?.map .listed

/-- The value of a field; the last one where an object has several. -/
def Fields.get? (fields : Fields j) (name : String) : Option j.Part :=
  fields.reverse.lookup name

/-- The values of a record that has fields of the given names, in this order. -/
def Record.fields? (names : List String) : Record j → Option (Fields j)
  | named fields => some fields
  | listed items => if items.length = names.length then some (names.zip items) else none

/-- The tag of a record, which a field of the given name holds, and the record apart from it. -/
def Record.tagged? (name : String) (tag : Decoder j String) :
    Record j → Option (String × Record j)
  | named fields => do return (← (fields.get? name).bind tag, named fields)
  | listed [] => none
  | listed (item :: items) => do return (← tag item, listed items)

/-- The values of a value that is a record with fields of the given names. -/
def fieldsOf? (j : Json) (names : List String) : Option (Fields j) :=
  j.record?.bind (·.fields? names)

namespace Fields

/-- Reads a field that the record must have. -/
def require (fields : Fields j) (name : String) (decode : Decoder j α) : Option α :=
  (fields.get? name).bind decode

/-- Reads a field whose value may be absent. -/
def optional (fields : Fields j) (name : String) (decode : Decoder j α) : Option (Option α) :=
  match fields.get? name with
  | none => some none
  | some p => if p.json.isNull then some none else some <$> decode p

/-- Reads a field that is a text. -/
def string (fields : Fields j) (name : String) : Option String :=
  fields.require name (·.json.string?)

/-- Reads a field that is a text or absent. -/
def string? (fields : Fields j) (name : String) : Option (Option String) :=
  fields.optional name (·.json.string?)

/-- Reads a field that is a natural number. -/
def natural (fields : Fields j) (name : String) : Option Nat :=
  fields.require name (·.json.natural?)

end Fields

/-! ## §4 Variants -/

/-- The name of a variant, and what it holds. -/
def variant? (j : Json) : Option (String × Option j.Part) :=
  match j.string? with
  | some name => some (name, none)
  | none =>
    match j.fields? with
    -- An object with a second field is no variant.
    | some [(name, p)] => some (name, some p)
    | _ => none

/-- The name of a variant that holds nothing. -/
def bareVariant? (j : Json) (placement : Placement) : Option String :=
  match j.variant? with
  | some (name, none) => some name
  | some (name, some p) => if p.json.isNothing placement then some name else none
  | none => none

/-- Reads a field of an inner record that is a variant holding nothing. -/
def Fields.bare (fields : Fields j) (name : String) (ofName? : String → Option α) : Option α :=
  fields.require name fun p => (p.json.bareVariant? .inner).bind ofName?

/-! ## §5 Numbers -/

/-- A number as a value; there is no text for one that is not finite. -/
def double (x : Float) : Json :=
  if x.isFinite then real x else null

end Scad.Json

namespace Scad

/-! ## §6 Positions and spans -/

def Position.toJson (p : Position) : Json :=
  .object
    [("line", .natural p.line), ("column", .natural p.column), ("offset", .natural p.offset)]

/-- The position that a value stands for. -/
def Position.ofJson? (j : Json) : Option Position := do
  let fields ← j.fieldsOf? ["line", "column", "offset"]
  return {
    line := ← fields.natural "line"
    column := ← fields.natural "column"
    offset := ← fields.natural "offset" }

def Span.toJson (s : Span) : Json :=
  .object [("start", s.start.toJson), ("end", s.stop.toJson)]

/-- The span that a value stands for. -/
def Span.ofJson? (j : Json) : Option Span := do
  let fields ← j.fieldsOf? ["start", "end"]
  return {
    start := ← fields.require "start" (Position.ofJson? ·.json)
    stop := ← fields.require "end" (Position.ofJson? ·.json) }

end Scad
