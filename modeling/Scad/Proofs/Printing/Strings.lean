import Scad.Ast.Printer
import Scad.Convert.Conversion
import Scad.Convert.Literal

/-!
# Strings Written and Read Back

The text of a string has a backslash before each of its backslashes and quotes.  A string node is
read by taking one layer of quotes away, and whatever stands between them is the string, backslashes
included.  So a string that is written and read back is the escaped string: nothing of it is lost,
but it is the string itself only where there was nothing to escape.

* `length_escapeString`, `unescapeString_escapeString` — what escaping does to a string.
* `Convert.literal_of_written` — what a written string is read as.
-/

namespace Scad

/-! ## §1 Escaping -/

/-- Whether a character is written behind a backslash. -/
def isEscaped (c : Char) : Prop :=
  c = '\\' ∨ c = '"'

instance : DecidablePred isEscaped :=
  fun c => inferInstanceAs (Decidable (c = '\\' ∨ c = '"'))

theorem escapeString_cons (c : Char) (cs : List Char) :
    escapeString (c :: cs) =
      if isEscaped c then '\\' :: c :: escapeString cs else c :: escapeString cs := by
  rw [escapeString, List.flatMap_cons, ← escapeString]
  by_cases h : c = '\\' ∨ c = '"' <;> simp [isEscaped, h]

/-- Escaping adds a backslash for each character that is escaped. -/
theorem length_escapeString (cs : List Char) :
    (escapeString cs).length = cs.length + cs.countP isEscaped := by
  induction cs with
  | nil => rfl
  | cons c cs ih =>
    rw [escapeString_cons]
    by_cases h : isEscaped c <;> simp [h, ih] <;> omega

/-- A string is its own escaped form only where there is nothing to escape. -/
theorem escapeString_eq_self_iff {cs : List Char} :
    escapeString cs = cs ↔ ∀ c ∈ cs, ¬isEscaped c := by
  constructor
  · intro h
    -- Every escaped character would have made the string longer.
    have hlength := length_escapeString cs
    rw [h] at hlength
    have hnone : cs.countP isEscaped = 0 := by omega
    simpa [List.countP_eq_zero] using hnone
  · intro h
    induction cs with
    | nil => rfl
    | cons c cs ih =>
      obtain ⟨hc, hcs⟩ := List.forall_mem_cons.mp h
      rw [escapeString_cons, if_neg hc, ih hcs]

/-- The characters that an escaped string stands for: each backslash stands for what follows it. -/
def unescapeString : List Char → List Char
  | '\\' :: c :: cs => c :: unescapeString cs
  | c :: cs => c :: unescapeString cs
  | [] => []

theorem unescapeString_cons {c : Char} (h : ¬isEscaped c) (cs : List Char) :
    unescapeString (c :: cs) = c :: unescapeString cs := by
  have hc : c ≠ '\\' := fun hc => h (.inl hc)
  cases cs <;> simp [unescapeString, hc]

/-- Escaping loses nothing. -/
theorem unescapeString_escapeString (cs : List Char) : unescapeString (escapeString cs) = cs := by
  induction cs with
  | nil => rfl
  | cons c cs ih =>
    rw [escapeString_cons]
    split
    · rw [unescapeString, ih]
    · next h => rw [unescapeString_cons h, ih]

namespace Convert

/-! ## §2 Reading -/

/-- Quotes around a text are taken away, and the text between them stays as it is. -/
theorem unquote_ofList (cs : List Char) :
    unquote (String.ofList ('"' :: cs ++ ['"'])) = String.ofList cs := by
  -- The quotes are no blanks, so nothing is trimmed.
  have htrimmed : Text.trimChars ('"' :: cs ++ ['"']) = '"' :: cs ++ ['"'] := by
    apply Text.trimChars_eq_self
    · rintro _ ⟨⟩
      rfl
    · rw [List.getLast?_concat]
      rintro _ ⟨⟩
      rfl
  have hquotes : dropQuotes '"' ('"' :: cs ++ ['"']) = some cs := by
    simp [dropQuotes]
  rw [unquote, String.toList_ofList, htrimmed, hquotes]
  rfl

/-- A written string is read back as the escaped string.  Nothing is lost, and it is the string that
was written if and only if that has neither a backslash nor a quote in it. -/
theorem literal_of_written {n : Node} (hkind : n.kind = .string) {s : String} {span : Span}
    (htext : n.text = (Expression.literal (.string s) span).text) (settings : Settings) :
    ∃ t, (literal n).result settings = .ok (.string t) ∧
      t.toList = escapeString s.toList ∧ unescapeString t.toList = s.toList ∧
      (t = s ↔ ∀ c ∈ s.toList, c ≠ '\\' ∧ c ≠ '"') := by
  have hread : unquote n.text = String.ofList (escapeString s.toList) := by
    rw [htext]
    exact unquote_ofList (escapeString s.toList)
  refine ⟨String.ofList (escapeString s.toList), ?_, ?_, ?_, ?_⟩
  · simp only [literal, hkind, hread]
    rfl
  · simp
  · simp [unescapeString_escapeString]
  · have hsame : String.ofList (escapeString s.toList) = s ↔ escapeString s.toList = s.toList := by
      constructor
      · intro h
        simpa using congrArg String.toList h
      · intro h
        simp [h]
    rw [hsame, escapeString_eq_self_iff]
    simp [isEscaped]

/-! The string of the characters `say "hi"`, as it is written. -/

/-- A string node with the text of a string literal. -/
def writtenString (s : String) : Node where
  tag := "string"
  text := (Expression.literal (.string s) {}).text
  span := {}

/-- The backslashes stay. -/
theorem literal_of_written_greeting :
    (writtenString "say \"hi\"").kind = .string ∧
      (writtenString "say \"hi\"").text = (Expression.literal (.string "say \"hi\"") {}).text ∧
      ∃ t, (literal (writtenString "say \"hi\"")).result {} = .ok (.string t) ∧
        t.toList = escapeString "say \"hi\"".toList ∧
        unescapeString t.toList = "say \"hi\"".toList ∧
        (t = "say \"hi\"" ↔ ∀ c ∈ "say \"hi\"".toList, c ≠ '\\' ∧ c ≠ '"') :=
  ⟨rfl, rfl, literal_of_written rfl rfl {}⟩

/-- A written quote is read back as a backslash and a quote. -/
theorem literal_writtenString_quote_ne :
    (writtenString "\"").kind = .string ∧
      (writtenString "\"").text = (Expression.literal (.string "\"") {}).text ∧
      (literal (writtenString "\"")).result {} = .ok (.string "\\\"") ∧
      (literal (writtenString "\"")).result {} ≠ .ok (.string "\"") := by
  have hread : (literal (writtenString "\"")).result {} = .ok (.string "\\\"") := rfl
  refine ⟨rfl, rfl, hread, ?_⟩
  rw [hread]
  simp

end Convert

end Scad
