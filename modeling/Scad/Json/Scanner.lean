import Scad.Decimal.Literal
import Scad.Decimal.Scaled
import Scad.Json.Value
import Scad.Text.Source

/-!
# Scanning JSON

The tokens of a JSON text.  A reader takes characters from the front of a text and hands back the
rest; it stops at the first problem, so that of several problems the leftmost is told.

A text that ends inside a value is told apart from one that goes on in a wrong way.  What is only
skipped is looked at less closely: its escapes need not denote characters, and its numbers may be
too large.
-/

namespace Scad.Json

/-! ## §1 Readers -/

/-- Why a text could not be read. -/
inductive ReadError where
  /-- The text is no JSON. -/
  | malformed
  /-- The text ends early. -/
  | truncated
  /-- A value is of the wrong type, or out of range. -/
  | mismatch
  /-- An object lacks a field. -/
  | missing (field : String)
  /-- An object has a field twice. -/
  | duplicate (field : String)
  deriving DecidableEq, Repr, Inhabited

namespace ReadError

/-- The class of an error. -/
def category : ReadError → String
  | malformed => "syntax"
  | truncated => "eof"
  | mismatch | missing _ | duplicate _ => "data"

/-- The message of an error that names a field. -/
def message? : ReadError → Option String
  | missing field => some ("missing field `" ++ field ++ "`")
  | duplicate field => some ("duplicate field `" ++ field ++ "`")
  | _ => none

end ReadError

/-- A step that takes characters from the front of a text. -/
abbrev Reader (α : Type) : Type :=
  StateT (List Char) (Except ReadError) α

/-- The characters that may stand between tokens. -/
def isSpace (c : Char) : Bool :=
  c == ' ' || c == '\n' || c == '\t' || c == '\r'

/-- Passes over blanks and looks at the next character. -/
def peek : Reader (Option Char) := do
  modify (·.dropWhile isSpace)
  return (← get).head?

/-- Takes the next character. -/
def drop : Reader Unit :=
  modify List.tail

/-- Takes the characters of a word, one by one. -/
def word : List Char → Reader Unit
  | [] => pure ()
  | c :: rest => do
    match ← get with
    | [] => throw .truncated
    | d :: _ => if c == d then drop else throw .malformed
    word rest

/-! ## §2 Numbers -/

/-- A number as it is written. -/
structure Lexeme where
  negative : Bool
  whole : List Char
  /-- The digits after the point, where there is one. -/
  fraction : Option (List Char)
  exponent : Option Int
  deriving DecidableEq, Repr, Inhabited

/-- Takes digits, of which there must be one at least.  `atEnd` is the problem of a text that ends
before it. -/
def digits (atEnd : ReadError) : Reader (List Char) := do
  let cs ← get
  match cs with
  | [] => throw atEnd
  | c :: _ =>
    -- The digits are taken together, up to the first other character.
    if !c.isDigit then throw .malformed
    set (cs.dropWhile Char.isDigit)
    return cs.takeWhile Char.isDigit

/-- Takes the digits in front of a point.  A zero is not followed by another digit. -/
def wholePart (atEnd : ReadError) : Reader (List Char) := do
  let ds ← digits atEnd
  if ds.head? == some '0' && 1 < ds.length then throw .malformed
  return ds

/-- Takes the point and the digits after it, where there is a point. -/
def fractionPart (atEnd : ReadError) : Reader (Option (List Char)) := do
  match ← get with
  | '.' :: _ => drop; some <$> digits atEnd
  | _ => return none

/-- Takes the exponent, where there is one. -/
def exponentPart (atEnd : ReadError) : Reader (Option Int) := do
  match ← get with
  | mark :: _ =>
    if mark == 'e' || mark == 'E' then
      drop
      let negative ← match ← get with
        | '-' :: _ => drop; pure true
        | '+' :: _ => drop; pure false
        | _ => pure false
      let n : Int := Decimal.digitsToNat (← digits atEnd)
      return some (if negative then -n else n)
    else return none
  | [] => return none

/-- Takes a number, which starts at the next character. -/
def lexeme (atEnd : ReadError) : Reader Lexeme := do
  -- A plus sign is not allowed here.
  let negative := (← get).head? == some '-'
  if negative then drop
  let whole ← wholePart atEnd
  let fraction ← fractionPart atEnd
  let exponent ← exponentPart atEnd
  return { negative, whole, fraction, exponent }

namespace Lexeme

/-- The magnitude of a number, its digits cut to those that fit 64 bits. -/
def scaled (l : Lexeme) : Decimal.Scaled :=
  .ofDigits l.whole (l.fraction.getD []) (l.exponent.getD 0)

/-- The number as a double, unless it is too large for one. -/
def real (l : Lexeme) : Except ReadError Numeral :=
  match l.scaled.toFloat? with
  | some x => .ok (.real (if l.negative then -x else x))
  | none => .error .malformed

/-- What the number stands for.  Without a point and an exponent it is an integer, if it fits its
bits; the negative zero is a double. -/
def numeral (l : Lexeme) : Except ReadError Numeral :=
  if l.fraction.isNone && l.exponent.isNone then
    let n := Decimal.digitsToNat l.whole
    if !l.negative then
      -- An integer that does not fit its bits is read as a double.
      if n < Decimal.wordLimit then .ok (.natural n) else l.real
    else if 0 < n && n ≤ Decimal.wordLimit / 2 then .ok (.negative n)
    else l.real
  else l.real

end Lexeme

/-! ## §3 Strings -/

/-- Where the scan of a string stands. -/
inductive StringState where
  | plain
  /-- After a backslash. -/
  | escaped
  /-- After some of the four digits of a code unit, with the unit in front of it if that was the
  first half of a pair. -/
  | unit (lead : Option Nat) (count value : Nat)
  /-- After the first half of a pair. -/
  | paired (lead : Nat)
  /-- After the first half of a pair and a backslash. -/
  | pairedEscaped (lead : Nat)

/-- The value of a hexadecimal digit. -/
def hexValue? (c : Char) : Option Nat :=
  if c.isDigit then some (c.toNat - '0'.toNat)
  else if 'a' ≤ c && c ≤ 'f' then some (c.toNat - 'a'.toNat + 10)
  else if 'A' ≤ c && c ≤ 'F' then some (c.toNat - 'A'.toNat + 10)
  else none

/-- The character that follows a backslash in a string denotes this one. -/
def unescape? : Char → Option Char
  | '"' => some '"' | '\\' => some '\\' | '/' => some '/' | 'b' => some '\x08'
  | 'f' => some '\x0c' | 'n' => some '\n' | 'r' => some '\r' | 't' => some '\t'
  | _ => none

/-- What a complete code unit means: a character, or the first half of a pair. -/
def endUnit (lead : Option Nat) (value : Nat) : Except ReadError (Option Char × StringState) :=
  let isTrail := 0xDC00 ≤ value && value ≤ 0xDFFF
  match lead with
  | some lead =>
    if isTrail then
      .ok (some (Char.ofNat (0x10000 + (lead - 0xD800) * 0x400 + (value - 0xDC00))), .plain)
    else .error .malformed
  | none =>
    if isTrail then .error .malformed
    else if 0xD800 ≤ value && value ≤ 0xDBFF then .ok (none, .paired value)
    else .ok (some (Char.ofNat value), .plain)

/-- The problem of a character that is no hexadecimal digit where one was expected: the text ends
early if fewer than four bytes were left for the unit. -/
def unitProblem (count : Nat) (rest : List Char) : ReadError :=
  if count + Text.byteLength rest < 4 then .truncated else .malformed

/-- Scans a string up to its closing quote.  `lax` leaves the code units unchecked; `taken` holds
the characters so far, the last one first. -/
def scanString (lax : Bool) : StringState → List Char → List Char →
    Except ReadError (List Char × List Char)
  | _, _, [] => .error .truncated
  | .plain, taken, c :: rest =>
    -- The closing quote ends the scan.
    if c == '"' then .ok (taken.reverse, rest)
    else if c == '\\' then scanString lax .escaped taken rest
    -- Control characters have to be escaped.
    else if c.toNat < 0x20 then .error .malformed
    else scanString lax .plain (c :: taken) rest
  | .escaped, taken, c :: rest =>
    if c == 'u' then scanString lax (.unit none 0 0) taken rest
    else match unescape? c with
      | some d => scanString lax .plain (d :: taken) rest
      | none => .error .malformed
  | .unit lead count value, taken, c :: rest =>
    match hexValue? c with
    | none => .error (unitProblem count (c :: rest))
    | some digit =>
      let value := 16 * value + digit
      -- The fourth digit completes the unit.
      if count < 3 then scanString lax (.unit lead (count + 1) value) taken rest
      else if lax then scanString lax .plain taken rest
      else match endUnit lead value with
        | .error e => .error e
        | .ok (some d, state) => scanString lax state (d :: taken) rest
        | .ok (none, state) => scanString lax state taken rest
  | .paired lead, taken, c :: rest =>
    -- The first half of a pair is followed by the second, as another escape.
    if c == '\\' then scanString lax (.pairedEscaped lead) taken rest else .error .malformed
  | .pairedEscaped lead, taken, c :: rest =>
    if c == 'u' then scanString lax (.unit (some lead) 0 0) taken rest else .error .malformed

/-- Takes a string, which starts at the next character. -/
def stringToken (lax : Bool) : Reader String := do
  drop
  let (taken, rest) ← scanString lax .plain [] (← get)
  set rest
  return String.ofList taken

/-! ## §4 Lists and objects -/

/-- Takes items up to the closing bracket; there is one at least. -/
def itemsFrom {α : Type} (item : Reader α) : Nat → Reader (List α)
  | 0 => throw .malformed
  | fuel + 1 => do
    let a ← item
    match ← peek with
    -- After a comma there is an item.
    | some ',' => drop; return a :: (← itemsFrom item fuel)
    | some ']' => drop; return [a]
    | some _ => throw .malformed
    | none => throw .truncated

/-- Takes an array, which starts at the next character.  Every item takes a character at least, so
there are no more items than characters. -/
def itemsToken {α : Type} (item : Reader α) : Reader (List α) := do
  drop
  match ← peek with
  | some ']' => drop; return []
  | _ => itemsFrom item ((← get).length + 1)

/-- Takes the colon after the name of a field. -/
def colon : Reader Unit := do
  match ← peek with
  | some ':' => drop
  | some _ => throw .malformed
  | none => throw .truncated

/-- Takes fields up to the closing brace; there is one at least.  `field` takes what follows the
name of a field, the colon included. -/
def fieldsFrom {σ : Type} (lax : Bool) (field : σ → String → Reader σ) : Nat → σ → Reader σ
  | 0, _ => throw .malformed
  | fuel + 1, state => do
    match ← peek with
    | some '"' =>
      let name ← stringToken lax
      let state ← field state name
      match ← peek with
      | some ',' => drop; fieldsFrom lax field fuel state
      | some '\x7d' => drop; return state
      | some _ => throw .malformed
      | none => throw .truncated
    | some _ => throw .malformed
    | none => throw .truncated

/-- Takes an object, which starts at the next character. -/
def fieldsToken {σ : Type} (lax : Bool) (field : σ → String → Reader σ) (state : σ) :
    Reader σ := do
  drop
  match ← peek with
  | some '\x7d' => drop; return state
  | _ => fieldsFrom lax field ((← get).length + 1) state

end Scad.Json
