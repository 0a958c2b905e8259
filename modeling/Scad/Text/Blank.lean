/-!
# Blank Characters

The characters of Unicode's `White_Space` property, and the trimming of text by them.  Trimming is
defined on lists of characters and carried over to strings, so that a fact about a trimmed text is
a fact about `List.dropWhile`.
-/

namespace Scad.Text

/-! ## §1 The property -/

/-- The ranges of code points with the property `White_Space`, both ends included. -/
def blankRanges : List (Nat × Nat) :=
  [(0x09, 0x0D), (0x20, 0x20), (0x85, 0x85), (0xA0, 0xA0), (0x1680, 0x1680), (0x2000, 0x200A),
   (0x2028, 0x2029), (0x202F, 0x202F), (0x205F, 0x205F), (0x3000, 0x3000)]

/-- Whether a character has the property `White_Space`. -/
def isBlank (c : Char) : Bool :=
  blankRanges.any fun r => r.1 ≤ c.toNat && c.toNat ≤ r.2

/-! ## §2 Trimming -/

/-- The characters without the blanks in front. -/
def trimStartChars (cs : List Char) : List Char :=
  cs.dropWhile isBlank

/-- The characters without the blanks at either end. -/
def trimChars (cs : List Char) : List Char :=
  (trimStartChars (trimStartChars cs).reverse).reverse

/-- The text without the blanks at either end. -/
def trim (s : String) : String :=
  String.ofList (trimChars s.toList)

/-- A text of blanks alone, the empty text included. -/
def isBlankText (s : String) : Bool :=
  (trimChars s.toList).isEmpty

/-- A list that starts and ends with a character that is not blank is trimmed already. -/
theorem trimChars_eq_self {cs : List Char} (hfirst : ∀ c ∈ cs.head?, isBlank c = false)
    (hlast : ∀ c ∈ cs.getLast?, isBlank c = false) : trimChars cs = cs := by
  have hdrop : ∀ l : List Char, (∀ c ∈ l.head?, isBlank c = false) → trimStartChars l = l := by
    intro l hl
    cases l with
    | nil => rfl
    | cons c l => simp [trimStartChars, hl c (by simp)]
  have hreverse : ∀ c ∈ cs.reverse.head?, isBlank c = false := by
    simpa [List.head?_reverse] using hlast
  rw [trimChars, hdrop cs hfirst, hdrop cs.reverse hreverse, List.reverse_reverse]

end Scad.Text
