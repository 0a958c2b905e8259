import Mathlib.Data.List.Induction
import Scad.Editor.Place
import Scad.Tree.Layout

/-!
# Places and Positions

The lines and columns of a text are counted three times over: by the table of line starts behind
`Source.position`, by the place of an offset, and by the search for the position of a place.  The
first counts in bytes, the second in 16-bit units, and the third in both.

Up to a character boundary each of them is the same reading of the text, one character after the
other.

* `Text.IsBoundary` — the offsets between two characters.
* `Source.position_byteLength` — the table of line starts is a reading.
* `positionFrom_reading` — the search stops where the reading of the place does.
* `Source.positionAt_placeAt` — there and back again.
-/

namespace Scad

/-! ## §1 The order of places -/

namespace Place

/-- A place is at or before another by its line, and on one line by its units. -/
instance : LE Place where
  le p q := p.line < q.line ∨ p.line = q.line ∧ p.character ≤ q.character

theorem le_iff {p q : Place} :
    p ≤ q ↔ p.line < q.line ∨ p.line = q.line ∧ p.character ≤ q.character :=
  Iff.rfl

theorem le_refl (p : Place) : p ≤ p := by
  simp [le_iff]

theorem le_trans {p q r : Place} (hpq : p ≤ q) (hqr : q ≤ r) : p ≤ r := by
  rw [le_iff] at *
  omega

/-- The counts of the place fit in 32 bits. -/
def Fits (p : Place) : Prop :=
  p.line < UInt32.size ∧ p.character < UInt32.size

end Place

namespace Text

variable {text before after cs : List Char} {offset : Nat}

/-! ## §2 Character boundaries -/

@[simp] theorem byteLength_append (cs ds : List Char) :
    byteLength (cs ++ ds) = byteLength cs + byteLength ds := by
  induction cs with
  | nil => simp [byteLength]
  | cons c cs ih => simp [byteLength, ih, Nat.add_assoc]

/-- An offset between two characters of a text, or at one of its ends: some first characters end
there. -/
def IsBoundary (text : List Char) (offset : Nat) : Prop :=
  ∃ before, before <+: text ∧ byteLength before = offset

theorem IsBoundary.le_byteLength (h : IsBoundary text offset) : offset ≤ byteLength text := by
  obtain ⟨before, ⟨after, rfl⟩, rfl⟩ := h
  simp

theorem charsBefore_prefix (offset : Nat) (text : List Char) :
    charsBefore offset text <+: text := by
  induction text generalizing offset with
  | nil => exact List.nil_prefix
  | cons c cs ih =>
    rw [charsBefore]
    split
    · exact (List.prefix_cons_inj c).mpr (ih _)
    · exact List.nil_prefix

/-- The characters before a boundary are those that end there. -/
theorem charsBefore_byteLength (before after : List Char) :
    charsBefore (byteLength before) (before ++ after) = before := by
  induction before with
  | nil =>
    cases after with
    | nil => rfl
    | cons c cs =>
      have := c.utf8Size_pos
      simp [byteLength, charsBefore]
      omega
  | cons c cs ih => simp [byteLength, charsBefore, ih]

theorem charsBefore_mono (text : List Char) {a b : Nat} (h : a ≤ b) :
    charsBefore a text <+: charsBefore b text := by
  induction text generalizing a b with
  | nil => exact List.nil_prefix
  | cons c cs ih =>
    by_cases hc : c.utf8Size ≤ a
    · have hb : c.utf8Size ≤ b := Nat.le_trans hc h
      rw [charsBefore, charsBefore, if_pos hc, if_pos hb]
      exact (List.prefix_cons_inj c).mpr (ih (by omega))
    · rw [charsBefore, if_neg hc]
      exact List.nil_prefix

theorem byteLength_charsBefore_le (offset : Nat) (text : List Char) :
    byteLength (charsBefore offset text) ≤ offset := by
  induction text generalizing offset with
  | nil => exact Nat.zero_le offset
  | cons c cs ih =>
    rw [charsBefore]
    split
    · have hrest := ih (offset - c.utf8Size)
      rw [byteLength]
      omega
    · exact Nat.zero_le offset

/-! ## §3 Reading a text -/

/-- The position behind a character. -/
def positionAfter (p : Position) (c : Char) : Position :=
  if c = '\n' then ⟨p.line + 1, 0, p.offset + 1⟩
  else ⟨p.line, p.column + c.utf8Size, p.offset + c.utf8Size⟩

/-- The position reached by reading some characters from the start of a text. -/
def positionBehind (cs : List Char) : Position :=
  cs.foldl positionAfter {}

/-- The place reached by reading some characters from the start of a text. -/
def placeBehind (cs : List Char) : Place :=
  cs.foldl placeAfter {}

theorem utf8Size_newline : '\n'.utf8Size = 1 := rfl

theorem units_pos (c : Char) : 0 < units c := by
  unfold units
  split <;> omega

/-- A character takes no more units than bytes. -/
theorem units_le_utf8Size (c : Char) : units c ≤ c.utf8Size := by
  have hpos := c.utf8Size_pos
  unfold units
  split
  · exact hpos
  · rename_i hlarge
    have hfour : c.utf8Size = 4 := by
      simp only [Char.toNat] at hlarge
      simp only [Char.utf8Size, UInt32.le_iff_toNat_le]
      grind
    omega

theorem le_placeAfter (p : Place) (c : Char) : p ≤ placeAfter p c := by
  rw [placeAfter, Place.le_iff]
  split <;> simp

/-- Reading on never goes back. -/
theorem le_foldl_placeAfter (p : Place) (cs : List Char) : p ≤ cs.foldl placeAfter p := by
  induction cs generalizing p with
  | nil => exact p.le_refl
  | cons c cs ih => exact Place.le_trans (le_placeAfter p c) (ih (placeAfter p c))

theorem placeBehind_mono (h : before <+: text) : placeBehind before ≤ placeBehind text := by
  obtain ⟨after, rfl⟩ := h
  rw [placeBehind, placeBehind, List.foldl_append]
  exact le_foldl_placeAfter _ after

/-- The line and the units of a place are together no more than the bytes read. -/
theorem foldl_placeAfter_le (p : Place) (cs : List Char) :
    (cs.foldl placeAfter p).line + (cs.foldl placeAfter p).character ≤
      p.line + p.character + byteLength cs := by
  induction cs generalizing p with
  | nil => simp [byteLength]
  | cons c cs ih =>
    have hrest := ih (placeAfter p c)
    have hsize := units_le_utf8Size c
    have hpos := c.utf8Size_pos
    have hstep : (placeAfter p c).line + (placeAfter p c).character ≤
        p.line + p.character + c.utf8Size := by
      rw [placeAfter]
      split <;> simp only <;> omega
    simp only [List.foldl_cons, byteLength]
    omega

@[simp] theorem offset_positionBehind (cs : List Char) :
    (positionBehind cs).offset = byteLength cs := by
  induction cs using List.reverseRecOn with
  | nil => rfl
  | append_singleton cs c ih =>
    rw [positionBehind] at ih
    simp only [positionBehind, List.foldl_append, List.foldl_cons, List.foldl_nil, positionAfter,
      byteLength_append, byteLength, Nat.add_zero]
    split
    · rename_i hc
      simp [ih, hc, utf8Size_newline]
    · simp [ih]

/-! ## §4 The table of line starts -/

theorem lineStartsFrom_append (cs ds : List Char) (offset : Nat) :
    lineStartsFrom offset (cs ++ ds) =
      lineStartsFrom offset cs ++ lineStartsFrom (offset + byteLength cs) ds := by
  induction cs generalizing offset with
  | nil => simp [lineStartsFrom, byteLength]
  | cons c cs ih =>
    simp only [List.cons_append, lineStartsFrom, byteLength]
    split
    · rename_i hc
      simp [ih, hc, utf8Size_newline, Nat.add_assoc]
    · simp [ih, Nat.add_assoc]

/-- Every line but the first starts behind a line feed. -/
theorem lt_of_mem_lineStartsFrom {start : Nat} (h : start ∈ lineStartsFrom offset cs) :
    offset < start := by
  induction cs generalizing offset with
  | nil => simp [lineStartsFrom] at h
  | cons c cs ih =>
    have hpos := c.utf8Size_pos
    rw [lineStartsFrom] at h
    split at h
    · rcases List.mem_cons.mp h with rfl | h
      · exact Nat.lt_succ_self offset
      · exact Nat.lt_of_succ_lt (ih h)
    · have := ih h
      omega

/-- A line that starts behind a character starts at its end or later. -/
theorem le_of_mem_lineStartsFrom_cons {c : Char} {start : Nat}
    (h : start ∈ lineStartsFrom offset (c :: cs)) : offset + c.utf8Size ≤ start := by
  rw [lineStartsFrom] at h
  split at h
  · rename_i hc
    rw [hc, utf8Size_newline]
    rcases List.mem_cons.mp h with rfl | h
    · exact Nat.le_refl _
    · exact Nat.le_of_lt (lt_of_mem_lineStartsFrom h)
  · exact Nat.le_of_lt (lt_of_mem_lineStartsFrom h)

/-- The lines that start at or before an offset are those of the characters before it. -/
theorem takeWhile_lineStartsFrom (text : List Char) (start offset : Nat) :
    (lineStartsFrom start text).takeWhile (· ≤ start + offset) =
      lineStartsFrom start (charsBefore offset text) := by
  induction text generalizing start offset with
  | nil => rfl
  | cons c cs ih =>
    by_cases hc : c.utf8Size ≤ offset
    · rw [charsBefore, if_pos hc, lineStartsFrom, lineStartsFrom]
      split
      · rename_i hnewline
        subst hnewline
        rw [utf8Size_newline] at hc ⊢
        have hrest := ih (start + 1) (offset - 1)
        rw [show start + 1 + (offset - 1) = start + offset by omega] at hrest
        simp [hc, hrest]
      · have hrest := ih (start + c.utf8Size) (offset - c.utf8Size)
        rwa [show start + c.utf8Size + (offset - c.utf8Size) = start + offset by omega] at hrest
    · -- The offset lies inside the character, and every later line starts behind it.
      rw [charsBefore, if_neg hc]
      cases hlines : lineStartsFrom start (c :: cs) with
      | nil => rfl
      | cons line lines =>
        have hline : start + c.utf8Size ≤ line :=
          le_of_mem_lineStartsFrom_cons (by rw [hlines]; exact List.mem_cons_self)
        rw [List.takeWhile_cons, if_neg (by simpa using by omega)]
        rfl

/-- Where the last of the lines of some characters starts. -/
def lastLineStart (cs : List Char) : Nat :=
  ((lineStartsFrom 0 cs).getLast?).getD 0

/-- A reading counts the lines, and measures the column from the start of the last. -/
theorem positionBehind_eq (cs : List Char) :
    (positionBehind cs).line = (lineStartsFrom 0 cs).length ∧
      lastLineStart cs + (positionBehind cs).column = byteLength cs := by
  induction cs using List.reverseRecOn with
  | nil => exact ⟨rfl, rfl⟩
  | append_singleton cs c ih =>
    obtain ⟨hline, hcolumn⟩ := ih
    have hread : positionBehind (cs ++ [c]) = positionAfter (positionBehind cs) c := by
      simp [positionBehind]
    rw [hread, positionAfter, lineStartsFrom_append]
    by_cases hc : c = '\n'
    · simp [hc, hline, lastLineStart, lineStartsFrom_append, lineStartsFrom, byteLength,
        utf8Size_newline]
    · simp only [lastLineStart] at hcolumn
      simp [hc, hline, lastLineStart, lineStartsFrom_append, lineStartsFrom, byteLength]
      omega

namespace Source

variable (s : Source)

theorem takeWhile_lines (offset : Nat) :
    s.lines.takeWhile (· ≤ offset) = lineStarts (charsBefore offset s.chars) := by
  have hrest := takeWhile_lineStartsFrom s.chars 0 offset
  rw [Nat.zero_add] at hrest
  simp [s.lines_eq, lineStarts, hrest]

/-- The row of an offset is the number of line feeds before it. -/
theorem row_eq (offset : Nat) :
    s.row offset = (lineStartsFrom 0 (charsBefore offset s.chars)).length := by
  simp [row, takeWhile_lines, lineStarts]

/-- The line of an offset starts behind the last line feed before it. -/
theorem getElem?_lines_row (offset : Nat) :
    s.lines[s.row offset]? = some (lastLineStart (charsBefore offset s.chars)) := by
  have hprefix : lineStarts (charsBefore offset s.chars) <+: s.lines := by
    rw [← s.takeWhile_lines offset]
    exact List.takeWhile_prefix _
  obtain ⟨later, hlines⟩ := hprefix
  have hrow : s.row offset = (lineStarts (charsBefore offset s.chars)).length - 1 := by
    simp [s.row_eq, lineStarts]
  rw [hrow, ← hlines, List.getElem?_append_left (by simp [lineStarts]),
    ← List.getLast?_eq_getElem?, lineStarts, List.getLast?_cons, lastLineStart]

/-- Of two offsets on one line the later one has the larger column. -/
theorem column_lt {a b : Nat} (h : a < b) (hrow : s.row a = s.row b) : s.column a < s.column b := by
  obtain ⟨-, hcolumn⟩ := positionBehind_eq (charsBefore a s.chars)
  have hbefore := byteLength_charsBefore_le a s.chars
  rw [column, column, ← hrow, getElem?_lines_row, Option.getD_some]
  omega

/-- Positions stand in the order of their offsets. -/
theorem position_before_iff {a b : Nat} : (s.position a).before (s.position b) = true ↔ a < b := by
  constructor
  · intro hbefore
    by_contra hle
    rw [s.position_mono (Nat.le_of_not_lt hle)] at hbefore
    cases hbefore
  · intro h
    rw [Position.before_iff]
    rcases Nat.lt_or_eq_of_le (s.row_mono (Nat.le_of_lt h)) with hrow | hrow
    · exact .inl hrow
    · exact .inr ⟨hrow, s.column_lt h hrow⟩

/-- The position of an offset between two characters is reached by reading up to there. -/
theorem position_byteLength (h : before <+: s.chars) :
    s.position (byteLength before) = positionBehind before := by
  obtain ⟨after, hchars⟩ := h
  have hbefore : charsBefore (byteLength before) s.chars = before := by
    rw [← hchars, charsBefore_byteLength]
  obtain ⟨hline, hcolumn⟩ := positionBehind_eq before
  have hcolumns : s.column (byteLength before) = (positionBehind before).column := by
    rw [column, getElem?_lines_row, hbefore, Option.getD_some]
    omega
  rw [position, row_eq, hbefore, ← hline, hcolumns, ← offset_positionBehind before]

end Source

/-! ## §5 Places -/

/-- The place of an offset is reached by reading the characters before it. -/
theorem placeAt_eq (text : List Char) (offset : Nat) :
    placeAt text offset = placeBehind (charsBefore offset text) :=
  rfl

theorem placeAt_byteLength (h : before <+: text) :
    placeAt text (byteLength before) = placeBehind before := by
  obtain ⟨after, rfl⟩ := h
  rw [placeAt_eq, charsBefore_byteLength]

theorem placeAt_mono (text : List Char) {a b : Nat} (h : a ≤ b) :
    placeAt text a ≤ placeAt text b :=
  placeBehind_mono (charsBefore_mono text h)

/-- The lines before a place and the units on its own take no more than the bytes of the text. -/
theorem placeAt_le_byteLength (text : List Char) (offset : Nat) :
    (placeAt text offset).line + (placeAt text offset).character ≤ byteLength text := by
  obtain ⟨after, htext⟩ := charsBefore_prefix offset text
  have hread := foldl_placeAfter_le {} (charsBefore offset text)
  have hlength := byteLength_append (charsBefore offset text) after
  rw [htext] at hlength
  rw [placeAt_eq, placeBehind]
  simp only at hread
  omega

/-- The places of a text of less than 2^32 bytes fit in 32 bits. -/
theorem placeAt_fits (hsize : byteLength text < UInt32.size) (offset : Nat) :
    (placeAt text offset).Fits := by
  have hplace := placeAt_le_byteLength text offset
  constructor <;> omega

/-! ## §6 The search for a position -/

/-- The search ends behind some of the characters, at the position reached by reading them. -/
theorem exists_positionFrom (place : Place) (p : Position) (passed : Nat) (cs : List Char) :
    ∃ before, before <+: cs ∧ positionFrom place p passed cs = before.foldl positionAfter p := by
  induction cs generalizing p passed with
  | nil => exact ⟨[], List.nil_prefix, rfl⟩
  | cons c cs ih =>
    -- Where the search goes on, it has read the character.
    have hgoesOn (passed' : Nat) : ∃ before, before <+: c :: cs ∧
        positionFrom place (positionAfter p c) passed' cs = before.foldl positionAfter p := by
      obtain ⟨before, hbefore, hread⟩ := ih (positionAfter p c) passed'
      exact ⟨c :: before, (List.prefix_cons_inj c).mpr hbefore, hread⟩
    have hstops : ∃ before, before <+: c :: cs ∧ p = before.foldl positionAfter p :=
      ⟨[], List.nil_prefix, rfl⟩
    rw [positionFrom]
    by_cases hc : c = '\n'
    · rw [if_pos hc]
      split
      · exact hstops
      · simpa [positionAfter, hc] using hgoesOn 0
    · rw [if_neg hc]
      split
      · exact hstops
      · simpa [positionAfter, hc] using hgoesOn (passed + units c)

/-- The search for the place of some characters stops behind them: it neither stops before, where
the place is still ahead, nor reads on. -/
theorem positionFrom_reading (p : Position) (passed : Nat) (cs after : List Char) :
    positionFrom (cs.foldl placeAfter ⟨p.line, passed⟩) p passed (cs ++ after) =
      cs.foldl positionAfter p := by
  induction cs generalizing p passed with
  | nil =>
    cases after with
    | nil => rfl
    | cons c cs => simp [positionFrom]
  | cons c cs ih =>
    have hahead := le_foldl_placeAfter (placeAfter ⟨p.line, passed⟩ c) cs
    rw [Place.le_iff] at hahead
    rw [List.cons_append, List.foldl_cons, List.foldl_cons, positionFrom]
    by_cases hc : c = '\n'
    · have hplace : placeAfter ⟨p.line, passed⟩ c = ⟨p.line + 1, 0⟩ := by simp [placeAfter, hc]
      rw [hplace] at hahead ⊢
      have hline : p.line ≠ (cs.foldl placeAfter ⟨p.line + 1, 0⟩).line := by
        simp only at hahead
        omega
      have hrest := ih ⟨p.line + 1, 0, p.offset + 1⟩ 0
      rw [if_pos hc, if_neg hline]
      simpa [positionAfter, hc] using hrest
    · have hplace : placeAfter ⟨p.line, passed⟩ c = ⟨p.line, passed + units c⟩ := by
        simp [placeAfter, hc]
      rw [hplace] at hahead ⊢
      have hreached : ¬(p.line = (cs.foldl placeAfter ⟨p.line, passed + units c⟩).line ∧
          (cs.foldl placeAfter ⟨p.line, passed + units c⟩).character ≤ passed) := by
        have hpos := units_pos c
        simp only at hahead
        omega
      have hrest := ih ⟨p.line, p.column + c.utf8Size, p.offset + c.utf8Size⟩ (passed + units c)
      rw [if_neg hc, if_neg hreached]
      simpa [positionAfter, hc] using hrest

/-- Looking for the place of some first characters finds the position behind them. -/
theorem positionAt_placeBehind (h : before <+: text) :
    positionAt text (placeBehind before) = positionBehind before := by
  obtain ⟨after, rfl⟩ := h
  exact positionFrom_reading {} 0 before after

theorem exists_positionAt (text : List Char) (place : Place) :
    ∃ before, before <+: text ∧ positionAt text place = positionBehind before :=
  exists_positionFrom place {} 0 text

/-! ## §7 There and back again -/

namespace Source

variable (s : Source)

/-- The place of a character boundary means the position of the boundary. -/
theorem positionAt_placeAt (h : IsBoundary s.chars offset) :
    positionAt s.chars (placeAt s.chars offset) = s.position offset := by
  obtain ⟨before, hbefore, rfl⟩ := h
  rw [placeAt_byteLength hbefore, positionAt_placeBehind hbefore, s.position_byteLength hbefore]

/-- Every place means the position of a character boundary. -/
theorem positionAt_eq_position (place : Place) :
    IsBoundary s.chars (positionAt s.chars place).offset ∧
      positionAt s.chars place = s.position (positionAt s.chars place).offset := by
  obtain ⟨before, hbefore, hposition⟩ := exists_positionAt s.chars place
  rw [hposition, offset_positionBehind]
  exact ⟨⟨before, hbefore, rfl⟩, (s.position_byteLength hbefore).symm⟩

/-- In a text of less than 2^32 bytes, places and positions convert back and forth.  The place of a
character boundary means the position that the table of line starts gives to the boundary; every
place means such a position, and the place of that position means it again; a later offset has no
earlier place; and the parts of the place of any offset fit in 32 bits. -/
theorem places_correspond (s : Source) (hsize : s.size < UInt32.size) :
    (∀ offset, IsBoundary s.chars offset →
      positionAt s.chars (placeAt s.chars offset) = s.position offset) ∧
    (∀ place, ∃ offset, IsBoundary s.chars offset ∧ offset ≤ s.size ∧
      positionAt s.chars place = s.position offset ∧
      positionAt s.chars (placeAt s.chars offset) = positionAt s.chars place) ∧
    (∀ a b, a ≤ b → placeAt s.chars a ≤ placeAt s.chars b) ∧
    (∀ offset, (placeAt s.chars offset).line < UInt32.size ∧
      (placeAt s.chars offset).character < UInt32.size) := by
  refine ⟨fun offset h => s.positionAt_placeAt h, fun place => ?_,
    fun a b h => placeAt_mono s.chars h, fun offset => placeAt_fits hsize offset⟩
  obtain ⟨hboundary, hposition⟩ := s.positionAt_eq_position place
  refine ⟨_, hboundary, hboundary.le_byteLength, hposition, ?_⟩
  rw [s.positionAt_placeAt hboundary]
  exact hposition.symm

/-- A clef, which takes four bytes and two units, on the first of two lines. -/
def clefAndRest : Source :=
  ofText "a𝄞\nb"

theorem places_correspond_clefAndRest :
    clefAndRest.size < UInt32.size ∧
    (∀ offset, IsBoundary clefAndRest.chars offset →
      positionAt clefAndRest.chars (placeAt clefAndRest.chars offset) =
        clefAndRest.position offset) ∧
    (∀ place, ∃ offset, IsBoundary clefAndRest.chars offset ∧ offset ≤ clefAndRest.size ∧
      positionAt clefAndRest.chars place = clefAndRest.position offset ∧
      positionAt clefAndRest.chars (placeAt clefAndRest.chars offset) =
        positionAt clefAndRest.chars place) ∧
    (∀ a b, a ≤ b → placeAt clefAndRest.chars a ≤ placeAt clefAndRest.chars b) ∧
    (∀ offset, (placeAt clefAndRest.chars offset).line < UInt32.size ∧
      (placeAt clefAndRest.chars offset).character < UInt32.size) :=
  ⟨by decide, places_correspond clefAndRest (by decide)⟩

/-- A place between the two units of the clef means the position behind it. -/
example : positionAt clefAndRest.chars ⟨0, 2⟩ = clefAndRest.position 5 := by decide

end Source

end Text

end Scad
