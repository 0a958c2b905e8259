/-!
# Source Texts

Places in a text are byte offsets into its UTF-8 form.  This module cuts a text at such places,
finds the occurrences of a needle, and counts rows and columns.

* `dropBytes`, `takeBytes` — the two sides of a cut, where a cut inside a character has none.
* `occurrences` — the offsets at which a needle starts, read from the left without overlap.
* `Source` — a text with the offsets at which its lines start; `Source.rowColumn` counts a place.
-/

namespace Scad.Text

/-! ## §1 Cutting at a byte offset -/

/-- The number of bytes of a list of characters in UTF-8. -/
def byteLength : List Char → Nat
  | [] => 0
  | c :: cs => c.utf8Size + byteLength cs

/-- What follows the first `n` bytes; none where the cut would fall inside a character or past
the end. -/
def dropBytes : Nat → List Char → Option (List Char)
  | 0, cs => some cs
  | _ + 1, [] => none
  | n + 1, c :: cs => if c.utf8Size ≤ n + 1 then dropBytes (n + 1 - c.utf8Size) cs else none

/-- The first `n` bytes; none where the cut would fall inside a character or past the end. -/
def takeBytes : Nat → List Char → Option (List Char)
  | 0, _ => some []
  | _ + 1, [] => none
  | n + 1, c :: cs =>
    if c.utf8Size ≤ n + 1 then (takeBytes (n + 1 - c.utf8Size) cs).map (c :: ·) else none

/-- The bytes from `start` up to `stop`, where both are character boundaries of the text. -/
def sliceBytes (cs : List Char) (start stop : Nat) : Option (List Char) :=
  (dropBytes start cs).bind (takeBytes (stop - start))

/-! ## §2 Occurrences of a needle -/

/-- The offsets of the occurrences of `needle`, where the characters start at `offset` and the
next `skip` of them belong to an occurrence already counted. -/
def occurrencesFrom (needle : List Char) (offset skip : Nat) : List Char → List Nat
  | [] => if needle.isEmpty then [offset] else []
  | c :: cs =>
    match skip with
    -- Inside an occurrence that is counted already.
    | skip + 1 => occurrencesFrom needle (offset + c.utf8Size) skip cs
    | 0 =>
      -- An occurrence starts here, and the next one starts behind it.
      if needle.isPrefixOf (c :: cs) then
        offset :: occurrencesFrom needle (offset + c.utf8Size) (needle.length - 1) cs
      else
        occurrencesFrom needle (offset + c.utf8Size) 0 cs

/-- The offsets at which `needle` occurs in the text, from the left and without overlap.  The
empty needle occurs at every character boundary. -/
def occurrences (needle text : List Char) : List Nat :=
  occurrencesFrom needle 0 0 text

/-! ## §3 Rows and columns -/

/-- The offsets just after each line feed, where the characters start at `offset`. -/
def lineStartsFrom (offset : Nat) : List Char → List Nat
  | [] => []
  | c :: cs =>
    if c = '\n' then (offset + 1) :: lineStartsFrom (offset + 1) cs
    else lineStartsFrom (offset + c.utf8Size) cs

/-- The offsets at which the lines of a text start: its beginning, and after each line feed. -/
def lineStarts (cs : List Char) : List Nat :=
  0 :: lineStartsFrom 0 cs

/-- A text together with its characters and the offsets at which its lines start. -/
structure Source where
  /-- The text itself. -/
  text : String
  /-- Its characters. -/
  chars : List Char := text.toList
  /-- The offsets at which its lines start. -/
  lines : List Nat := lineStarts chars
  chars_eq : chars = text.toList := by rfl
  lines_eq : lines = lineStarts chars := by rfl

namespace Source

/-- The source of a text. -/
def ofText (text : String) : Source :=
  { text }

/-- The length in bytes. -/
def size (s : Source) : Nat :=
  byteLength s.chars

/-- The row of an offset is the number of lines that start at or before it, less one. -/
def row (s : Source) (offset : Nat) : Nat :=
  (s.lines.takeWhile (· ≤ offset)).length - 1

/-- The column of an offset is its distance in bytes from the start of its line. -/
def column (s : Source) (offset : Nat) : Nat :=
  offset - (s.lines[s.row offset]?).getD 0

theorem row_mono (s : Source) {a b : Nat} (h : a ≤ b) : s.row a ≤ s.row b := by
  unfold row
  have hlength : (s.lines.takeWhile (· ≤ a)).length ≤ (s.lines.takeWhile (· ≤ b)).length := by
    induction s.lines with
    | nil => exact Nat.le_refl 0
    | cons line lines ih =>
      simp only [List.takeWhile_cons]
      split
      · have hline : line ≤ b := by grind
        simpa [hline] using ih
      · exact Nat.zero_le _
  omega

/-- In one line the later offset has the larger column. -/
theorem column_mono (s : Source) {a b : Nat} (h : a ≤ b) (hrow : s.row a = s.row b) :
    s.column a ≤ s.column b := by
  unfold column
  rw [hrow]
  omega

/-- The bytes from `start` up to `stop`; the empty text where an end cuts a character. -/
def slice (s : Source) (start stop : Nat) : String :=
  String.ofList ((sliceBytes s.chars start stop).getD [])

/-- The byte range of the occurrence of `needle` with the given number, counted from zero.  Where
there is none, the empty range at the end of the text. -/
def rangeOf (s : Source) (needle : String) (number : Nat) : Nat × Nat :=
  match (occurrences needle.toList s.chars)[number]? with
  | some start => (start, start + byteLength needle.toList)
  | none => (s.size, s.size)

end Source

end Scad.Text
