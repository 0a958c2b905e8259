import Scad.Json.Tree
import Scad.Json.Writer

/-!
# Written Values Read Back

What the readers of JSON make of a text that was written: a string, a number or a word is taken
whole, and what stands behind it is left.

* `EndsValue` — what may stand behind a written value.
* `Answers` — a reader takes a text and ends with a result, whatever stands behind the text.

A result may be an error.  A text that is nested too deep is refused in the middle, and what is
refused inside a list or an object is refused as a whole.
-/

namespace Scad.Json

variable {α β σ : Type}

/-! ## §1 Readers step by step -/

theorem run_bind_ok {x : Reader α} {f : α → Reader β} {cs rest : List Char} {a : α}
    (h : x.run cs = .ok (a, rest)) : (x >>= f).run cs = (f a).run rest := by
  rw [StateT.run_bind, h]
  rfl

theorem run_bind_error {x : Reader α} {f : α → Reader β} {cs : List Char} {e : ReadError}
    (h : x.run cs = .error e) : (x >>= f).run cs = .error e := by
  rw [StateT.run_bind, h]
  rfl

/-- A character that is no blank is looked at and left where it is. -/
theorem run_peek {c : Char} (rest : List Char) (h : isSpace c = false) :
    peek.run (c :: rest) = .ok (some c, c :: rest) := by
  unfold peek
  simp only [StateT.run_bind, StateT.run_modify, pure_bind, List.dropWhile_cons, h]
  rfl

theorem run_lift {r : Except ReadError α} {a : α} (cs : List Char) (h : r = .ok a) :
    (liftM r : Reader α).run cs = .ok (a, cs) := by
  subst h
  rfl

theorem run_drop (c : Char) (rest : List Char) : drop.run (c :: rest) = .ok ((), rest) :=
  rfl

theorem run_colon (rest : List Char) : colon.run (':' :: rest) = .ok ((), rest) := by
  unfold colon
  rw [run_bind_ok (run_peek rest rfl)]
  rfl

/-- A word is taken character by character. -/
theorem run_word (cs rest : List Char) : (word cs).run (cs ++ rest) = .ok ((), rest) := by
  induction cs with
  | nil => rfl
  | cons c cs ih =>
    unfold word
    simp only [StateT.run_bind, StateT.run_get, pure_bind, List.cons_append, beq_self_eq_true,
      if_true]
    exact ih

/-! ## §2 Answers -/

/-- A value is followed by nothing, by a comma or by a closing bracket. -/
def EndsValue (rest : List Char) : Prop :=
  ∀ c, rest.head? = some c → c = ',' ∨ c = ']' ∨ c = '\x7d'

/-- The reader takes the text and ends with the result, whatever may stand behind a value. -/
def Answers (reader : Reader α) (text : List Char) (result : Except ReadError α) : Prop :=
  ∀ rest, EndsValue rest → reader.run (text ++ rest) = result.map fun a => (a, rest)

theorem endsValue_nil : EndsValue [] :=
  fun _ h => nomatch h

theorem endsValue_cons {c : Char} (rest : List Char) (h : c = ',' ∨ c = ']' ∨ c = '\x7d') :
    EndsValue (c :: rest) := by
  intro d hd
  obtain rfl : c = d := Option.some.inj hd
  exact h

namespace Answers

variable {x : Reader α} {text : List Char} {r : Except ReadError α}

theorem map {f : α → β} (h : Answers x text r) :
    Answers (do return f (← x)) text (r.map f) := by
  intro rest hrest
  have hx := h rest hrest
  cases r with
  | ok a => exact run_bind_ok hx
  | error e => exact run_bind_error hx

/-- A field that has not been met before is read behind its colon. -/
theorem fieldValue (name : String) (h : Answers x text r) :
    Answers (Json.fieldValue name none x) (':' :: text) r := by
  intro rest hrest
  have hcolon : (Json.fieldValue name none x).run (':' :: text ++ rest) =
      x.run (text ++ rest) := by
    unfold Json.fieldValue
    exact run_bind_ok (run_colon _)
  exact hcolon.trans (h rest hrest)

/-- The field of a record that takes the value. -/
theorem field {f : α → β} (name : String) (h : Answers x text r) :
    Answers (do return f (← Json.fieldValue name none x)) (':' :: text) (r.map f) :=
  (h.fieldValue name).map

end Answers

/-! ## §3 Strings -/

/-- Every control character is written by two hexadecimal digits that denote it. -/
theorem hexValue?_hexDigit : ∀ n < 16, hexValue? (hexDigit n) = some n := by
  decide

/-- A code unit below the halves of pairs is a character by itself. -/
theorem endUnit_of_lt {value : Nat} (h : value < 0xD800) :
    endUnit none value = .ok (some (Char.ofNat value), .plain) := by
  have htrail : ¬0xDC00 ≤ value := by omega
  have hlead : ¬0xD800 ≤ value := by omega
  simp [endUnit, htrail, hlead]

/-- What a character is written as is read as that character. -/
theorem scanString_escape (c : Char) (taken rest : List Char) :
    scanString false .plain taken (escape c ++ rest) =
      scanString false .plain (c :: taken) rest := by
  unfold escape
  -- The characters that have an escape of their own.
  iterate 7
    split
    · subst_vars; rfl
  split
  -- Every other control character is written by its number.
  · next hcontrol =>
    have hhigh := hexValue?_hexDigit (c.toNat / 16) (by omega)
    have hlow := hexValue?_hexDigit (c.toNat % 16) (by omega)
    have hvalue : 16 * (c.toNat / 16) + c.toNat % 16 = c.toNat := Nat.div_add_mod _ _
    have hunit : endUnit none c.toNat = .ok (some (Char.ofNat c.toNat), .plain) :=
      endUnit_of_lt (by omega)
    have hzero : hexValue? '0' = some 0 := rfl
    simp [scanString, hzero, hhigh, hlow, hvalue, hunit]
  · next hquote hbackslash _ _ _ _ _ hcontrol =>
    simp [scanString, hquote, hbackslash, hcontrol]

theorem scanString_flatMap_escape (cs taken rest : List Char) :
    scanString false .plain taken (cs.flatMap escape ++ '"' :: rest) =
      .ok (taken.reverse ++ cs, rest) := by
  induction cs generalizing taken with
  | nil => simp [scanString]
  | cons c cs ih =>
    rw [List.flatMap_cons, List.append_assoc, scanString_escape, ih]
    simp

/-- A string in quotes is read as the string, and nothing behind the closing quote is touched. -/
theorem run_stringToken (s : String) (rest : List Char) :
    (stringToken false).run (quote s ++ rest) = .ok (s, rest) := by
  have hscan := scanString_flatMap_escape s.toList [] rest
  have hquote : quote s ++ rest = '"' :: (s.toList.flatMap escape ++ '"' :: rest) := by
    simp [quote]
  unfold stringToken
  rw [hquote, run_bind_ok (run_drop _ _), run_bind_ok (StateT.run_get _),
    run_bind_ok (run_lift _ hscan), List.reverse_nil, List.nil_append]
  exact congrArg (fun t => Except.ok (t, rest)) (String.ofList_toList (s := s))

theorem quote_eq_cons (s : String) (rest : List Char) :
    ∃ tail, quote s ++ rest = '"' :: tail :=
  ⟨_, rfl⟩

theorem answers_readString (s : String) : Answers readString (write (string s)) (.ok s) := by
  intro rest _
  obtain ⟨tail, htail⟩ := quote_eq_cons s rest
  unfold readString write
  rw [htail, run_bind_ok (run_peek _ rfl), ← htail]
  exact run_stringToken s rest

/-! ## §4 Words -/

theorem answers_readBool (b : Bool) : Answers readBool (write (bool b)) (.ok b) := by
  intro rest _
  unfold readBool
  cases b with
  | true =>
    have hword : write (bool true) ++ rest = 't' :: ("rue".toList ++ rest) := rfl
    rw [hword, run_bind_ok (run_peek _ rfl), ← hword]
    exact run_bind_ok (run_word "true".toList rest)
  | false =>
    have hword : write (bool false) ++ rest = 'f' :: ("alse".toList ++ rest) := rfl
    rw [hword, run_bind_ok (run_peek _ rfl), ← hword]
    exact run_bind_ok (run_word "false".toList rest)

theorem answers_readString? (s : Option String) :
    Answers readString? (write (optional string s)) (.ok s) := by
  intro rest hrest
  unfold readString?
  cases s with
  | none =>
    have hword : write (optional string none) ++ rest = 'n' :: ("ull".toList ++ rest) := rfl
    rw [hword, run_bind_ok (run_peek _ rfl), ← hword]
    exact run_bind_ok (run_word "null".toList rest)
  | some s =>
    obtain ⟨tail, htail⟩ := quote_eq_cons s rest
    have hquote : write (optional string (some s)) ++ rest = '"' :: tail := by
      rw [← htail, optional, write]
    rw [hquote, run_bind_ok (run_peek _ rfl), ← hquote]
    exact (answers_readString s).map rest hrest

/-! ## §5 Numbers -/

/-- Only the number zero is written with a zero in front. -/
theorem length_toDigits_of_head? (n : Nat) (h : (Nat.toDigits 10 n).head? = some '0') :
    (Nat.toDigits 10 n).length = 1 := by
  induction n using Nat.strongRecOn with
  | ind n ih =>
    rw [Nat.toDigits_eq_if (by decide)] at h ⊢
    split at h
    · next hsmall => simp [hsmall]
    · next hlarge =>
      -- The first digits are those of the tenth, which is no zero.
      obtain ⟨d, ds, hcons⟩ := List.exists_cons_of_ne_nil
        (Nat.toDigits_ne_nil (n := n / 10) (b := 10))
      rw [hcons] at h
      obtain rfl : d = '0' := Option.some.inj h
      have hlength := ih (n / 10) (by omega) (by rw [hcons]; rfl)
      obtain rfl : ds = [] := by simpa [hcons] using hlength
      have hvalue := Nat.ofDigitChars_ten_toDigits (n := n / 10)
      rw [hcons] at hvalue
      simp [Nat.ofDigitChars] at hvalue
      omega

theorem digitsToNat_toDigits (n : Nat) : Decimal.digitsToNat (Nat.toDigits 10 n) = n := by
  rw [Decimal.digitsToNat, ← Nat.ofDigitChars_eq_foldl]
  exact Nat.ofDigitChars_ten_toDigits

/-- What may stand behind a value does not go on with a number. -/
theorem EndsValue.head?_ne {rest : List Char} (h : EndsValue rest) :
    (∀ c, rest.head? = some c → c.isDigit = false) ∧ rest.head? ≠ some '.' ∧
      rest.head? ≠ some 'e' ∧ rest.head? ≠ some 'E' := by
  cases rest with
  | nil => simp
  | cons c rest =>
    have hc : c.isDigit = false ∧ c ≠ '.' ∧ c ≠ 'e' ∧ c ≠ 'E' := by
      rcases h c rfl with rfl | rfl | rfl <;> decide
    simpa using hc

/-- All the digits are taken. -/
theorem run_digits {ds rest : List Char} (hds : ∀ c ∈ ds, c.isDigit = true) (hne : ds ≠ [])
    (h : EndsValue rest) (atEnd : ReadError) :
    (digits atEnd).run (ds ++ rest) = .ok (ds, rest) := by
  have hstop := h.head?_ne.1
  have htake : (ds ++ rest).takeWhile Char.isDigit = ds := by
    rw [List.takeWhile_append_of_pos hds]
    cases rest with
    | nil => simp
    | cons c rest => simp [hstop c rfl]
  have hdrop : (ds ++ rest).dropWhile Char.isDigit = rest := by
    rw [List.dropWhile_append_of_pos hds]
    cases rest with
    | nil => rfl
    | cons c rest => simp [hstop c rfl]
  obtain ⟨c, cs, hcons⟩ := List.exists_cons_of_ne_nil hne
  have hc : c.isDigit = true := hds c (by simp [hcons])
  rw [hcons, List.cons_append] at htake hdrop ⊢
  unfold digits
  rw [run_bind_ok (StateT.run_get _)]
  simp only [hc, htake, hdrop, Bool.not_true, Bool.false_eq_true, if_false]
  rfl

/-- No point and no exponent stands behind a value. -/
theorem run_fractionPart {rest : List Char} (h : EndsValue rest) (atEnd : ReadError) :
    (fractionPart atEnd).run rest = .ok (none, rest) := by
  have hpoint := h.head?_ne.2.1
  unfold fractionPart
  rw [run_bind_ok (StateT.run_get _)]
  split
  · simp at hpoint
  · rfl

theorem run_exponentPart {rest : List Char} (h : EndsValue rest) (atEnd : ReadError) :
    (exponentPart atEnd).run rest = .ok (none, rest) := by
  have hmark := h.head?_ne.2.2
  unfold exponentPart
  rw [run_bind_ok (StateT.run_get _)]
  cases rest with
  | nil => rfl
  | cons c rest =>
    have hno : (c == 'e' || c == 'E') = false := by simpa using hmark
    simp only [hno, Bool.false_eq_true, if_false]
    rfl

theorem run_wholePart (n : Nat) {rest : List Char} (h : EndsValue rest) (atEnd : ReadError) :
    (wholePart atEnd).run (Nat.toDigits 10 n ++ rest) = .ok (Nat.toDigits 10 n, rest) := by
  have hds : ∀ c ∈ Nat.toDigits 10 n, c.isDigit = true := fun c =>
    Nat.isDigit_of_mem_toDigits (by decide) (by decide)
  have hzero : ((Nat.toDigits 10 n).head? == some '0' && 1 < (Nat.toDigits 10 n).length) =
      false := by
    by_cases hhead : (Nat.toDigits 10 n).head? = some '0'
    · simp [length_toDigits_of_head? n hhead]
    · simp [hhead]
  unfold wholePart
  rw [run_bind_ok (run_digits hds Nat.toDigits_ne_nil h atEnd)]
  simp only [hzero, Bool.false_eq_true, if_false]
  rfl

/-- The digits of a natural number start with a digit, which is no sign and no blank. -/
theorem exists_cons_toDigits (n : Nat) (rest : List Char) :
    ∃ c tail, Nat.toDigits 10 n ++ rest = c :: tail ∧ c.isDigit = true := by
  obtain ⟨c, ds, h⟩ := List.exists_cons_of_ne_nil (Nat.toDigits_ne_nil (n := n) (b := 10))
  have hmem : c ∈ Nat.toDigits 10 n := by simp [h]
  exact ⟨c, ds ++ rest, by rw [h, List.cons_append],
    Nat.isDigit_of_mem_toDigits (by decide) (by decide) hmem⟩

theorem ne_of_isDigit {c d : Char} (hc : c.isDigit = true) (hd : d.isDigit = false) : c ≠ d := by
  rintro rfl
  simp [hc] at hd

theorem isSpace_of_isDigit {c : Char} (h : c.isDigit = true) : isSpace c = false := by
  simp [isSpace, ne_of_isDigit h]

theorem run_lexeme (n : Nat) {rest : List Char} (h : EndsValue rest) (atEnd : ReadError) :
    (lexeme atEnd).run (Nat.toDigits 10 n ++ rest) =
      .ok (⟨false, Nat.toDigits 10 n, none, none⟩, rest) := by
  obtain ⟨c, tail, hcons, hc⟩ := exists_cons_toDigits n rest
  have hsign : ((Nat.toDigits 10 n ++ rest).head? == some '-') = false := by
    simp [hcons, ne_of_isDigit hc]
  unfold lexeme
  rw [run_bind_ok (StateT.run_get _)]
  simp only [hsign, Bool.false_eq_true, if_false]
  rw [run_bind_ok (run_wholePart n h atEnd),
    run_bind_ok (run_fractionPart h atEnd), run_bind_ok (run_exponentPart h atEnd)]
  rfl

/-- A natural number that fits its bits is read as it is. -/
theorem answers_readNatural {n : Nat} (hn : n < Decimal.wordLimit) :
    Answers readNatural (write (natural n)) (.ok n) := by
  intro rest hrest
  have hwrite : write (natural n) = Nat.toDigits 10 n := by
    rw [natural, write]
    exact Nat.toList_repr
  obtain ⟨c, tail, hcons, hc⟩ := exists_cons_toDigits n rest
  have hstart : startsNumber c = true := by simp [startsNumber, hc]
  have hnumeral : (⟨false, Nat.toDigits 10 n, none, none⟩ : Lexeme).numeral =
      .ok (.natural n) := by
    simp [Lexeme.numeral, digitsToNat_toDigits, hn]
  unfold readNatural
  rw [hwrite, hcons, run_bind_ok (run_peek _ (isSpace_of_isDigit hc)), ← hcons]
  simp only [hstart, if_true]
  rw [run_bind_ok (run_lexeme n hrest _), run_bind_ok (run_lift _ hnumeral)]
  rfl

end Scad.Json
