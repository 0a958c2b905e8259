import Scad.Json.Scanner

/-!
# Reading JSON

Reads a value of any type, in two ways: `keep` makes a `Json` of it, and `skip` only finds its end.
Both follow one grammar, `anyValue`, and differ in what they make of the parts.
-/

namespace Scad.Json

/-- What to make of the parts of a value. -/
structure Making (α : Type) where
  /-- Whether numbers and escapes are taken without a look at their meaning. -/
  lax : Bool
  null : α
  bool : Bool → α
  number : Lexeme → Except ReadError α
  string : String → α
  array : List α → α
  object : List (String × α) → α

/-- Makes the value itself. -/
def keep : Making Json where
  lax := false
  null := .null
  bool := .bool
  number l := l.numeral.map .number
  string := .string
  array := .array
  object := .object

/-- Makes nothing. -/
def skip : Making Unit where
  lax := true
  null := ()
  bool _ := ()
  number _ := .ok ()
  string _ := ()
  array _ := ()
  object _ := ()

namespace Making

/-- The problem of a number that the text cuts off: skipping does not tell it from a wrong one. -/
def atEnd {α : Type} (m : Making α) : ReadError :=
  if m.lax then .malformed else .truncated

end Making

/-- Whether a number can start with a character. -/
def startsNumber (c : Char) : Bool :=
  c == '-' || c.isDigit

/-- Takes a value of any type, nested at most as deep as the first argument says. -/
def anyValue {α : Type} (m : Making α) : Nat → Reader α
  | 0 => throw .malformed
  | depth + 1 => do
    match ← peek with
    | none => throw .truncated
    | some 'n' => word "null".toList; return m.null
    | some 't' => word "true".toList; return m.bool true
    | some 'f' => word "false".toList; return m.bool false
    | some '"' => return m.string (← stringToken m.lax)
    | some '[' => return m.array (← itemsToken (anyValue m depth))
    | some '\x7b' =>
      let fields ← fieldsToken m.lax
        (fun fields name => do
          colon
          -- The last field is the first of the list, until the object is complete.
          return (name, ← anyValue m depth) :: fields) []
      return m.object fields.reverse
    | some c =>
      if startsNumber c then m.number (← lexeme m.atEnd) else throw .malformed

/-- Passes over a value.  No value nests deeper than it has characters. -/
def skipValue : Reader Unit := do
  anyValue skip ((← get).length + 1)

/-- Makes sure that nothing but blanks is left. -/
def endOfText : Reader Unit := do
  if (← peek).isSome then throw .malformed

/-- Runs a reader on a whole text. -/
def readWith {α : Type} (reader : Reader α) (text : String) : Except ReadError α :=
  Prod.fst <$> (do let a ← reader; endOfText; return a : Reader α).run text.toList

/-- The value that a text denotes. -/
def read (text : String) : Except ReadError Json :=
  readWith (anyValue keep (text.length + 1)) text

end Scad.Json
