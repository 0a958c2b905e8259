import Scad.Span
import Scad.Text.Source

/-!
# Places of an Editor

An editor counts the columns of a place in the 16-bit units of UTF-16, where this library counts
bytes.

* `Text.placeAt` — the place of a byte offset, which is the place reached by reading the text up to
  there.
* `Place.sent` — the place as a message holds it, in numbers of 32 bits.
* `Text.rangeOfSpan` — the stretch that a span covers, as a message holds it.
* `Text.positionAt` — the position that a place means: behind the end of a line it means that end,
  and behind the last line the end of the text.
-/

namespace Scad

/-- A place in a text as an editor counts it. -/
structure Place where
  /-- The line, from zero. -/
  line : Nat := 0
  /-- The number of 16-bit units before the place on its line. -/
  character : Nat := 0
  deriving DecidableEq, Repr, Inhabited

/-- A place as a message holds it. -/
structure SentPlace where
  line : UInt32 := 0
  character : UInt32 := 0
  deriving DecidableEq, Repr, Inhabited

/-- The place as it is sent.  Counts that do not fit in 32 bits wrap around. -/
def Place.sent (p : Place) : SentPlace :=
  ⟨UInt32.ofNat p.line, UInt32.ofNat p.character⟩

/-- A stretch of a text as a message holds it. -/
structure PlaceRange where
  start : SentPlace
  stop : SentPlace
  deriving DecidableEq, Repr, Inhabited

namespace Text

/-! ## §1 From offsets to places -/

/-- The number of 16-bit units of a character in UTF-16. -/
def units (c : Char) : Nat :=
  if c.toNat < 0x10000 then 1 else 2

/-- The place behind a character. -/
def placeAfter (p : Place) (c : Char) : Place :=
  if c = '\n' then ⟨p.line + 1, 0⟩ else ⟨p.line, p.character + units c⟩

/-- The characters of a text that lie before an offset.  An offset inside a character counts as the
start of the character. -/
def charsBefore (offset : Nat) : List Char → List Char
  | [] => []
  | c :: cs => if c.utf8Size ≤ offset then c :: charsBefore (offset - c.utf8Size) cs else []

/-- The place of a byte offset. -/
def placeAt (text : List Char) (offset : Nat) : Place :=
  (charsBefore offset text).foldl placeAfter {}

/-- The stretch that a span covers, as it is sent. -/
def rangeOfSpan (text : List Char) (s : Span) : PlaceRange :=
  ⟨(placeAt text s.start.offset).sent, (placeAt text s.stop.offset).sent⟩

/-! ## §2 From places to positions -/

/-- The position of a place, looked for from a position, `passed` units behind the start of its
line, where the text goes on with the given characters.  A place inside a character means its
end. -/
def positionFrom (place : Place) (p : Position) (passed : Nat) : List Char → Position
  | [] => p
  | c :: cs =>
    if c = '\n' then
      -- The line ends before the place does.
      if p.line = place.line then p
      else positionFrom place ⟨p.line + 1, 0, p.offset + 1⟩ 0 cs
    -- The place is reached, or lies inside the character just passed.
    else if p.line = place.line ∧ place.character ≤ passed then p
    else
      positionFrom place ⟨p.line, p.column + c.utf8Size, p.offset + c.utf8Size⟩
        (passed + units c) cs

/-- The position that a place means. -/
def positionAt (text : List Char) (place : Place) : Position :=
  positionFrom place {} 0 text

end Text

end Scad
