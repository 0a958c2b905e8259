import Scad.Proofs.Places
import Scad.Proofs.Subtree

/-!
# Lines and Bytes

The table of line starts is filled by one scan over the characters of a text, and the row of an
offset is looked up in it.  What rows and columns mean is said by the bytes of the text alone: the
row counts the line feeds before an offset, and the column is the distance from the byte behind the
last of them.  The offset may lie anywhere, also inside a character.

The look-up is right because of two facts about the table: it is in increasing order, and it lists
exactly the bytes behind a line feed, next to the beginning of the text.

* `bytesOf`, `Source.bytes` — the bytes of a text; a line feed is a byte of no other character.
* `Source.pairwise_lines`, `Source.mem_lines_iff` — the order and the content of the table.
* `IsPartitionPoint` — where a list is cut in two by a predicate, however that place is searched.
* `IsLineStart` — the start of the line of an offset, in terms of the bytes.
* `Node.BuiltOver`, `Span.ComparesByBytes` — trees built over a text, and what it means that the
  bytes of two spans and their lines and columns compare alike.
* `Source.positions_exact` — all of it together.
-/

namespace Scad

/-! ## §1 The bytes of a text -/

namespace Text

/-- The byte of a line feed. -/
def lineFeed : UInt8 :=
  10

/-- The bytes of some characters in UTF-8. -/
def bytesOf (cs : List Char) : List UInt8 :=
  cs.flatMap String.utf8EncodeChar

theorem bytesOf_cons (c : Char) (cs : List Char) :
    bytesOf (c :: cs) = String.utf8EncodeChar c ++ bytesOf cs :=
  rfl

theorem bytesOf_newline_cons (cs : List Char) : bytesOf ('\n' :: cs) = lineFeed :: bytesOf cs :=
  rfl

@[simp] theorem length_bytesOf (cs : List Char) : (bytesOf cs).length = byteLength cs := by
  induction cs with
  | nil => rfl
  | cons c cs ih => simp [bytesOf_cons, byteLength, ih]

/-- A character beyond ASCII has no byte within it: the first byte tells how many follow, and each
of these is marked as a continuation. -/
theorem le_toNat_of_mem_utf8EncodeChar {c : Char} (hc : 127 < c.toNat) :
    ∀ b ∈ String.utf8EncodeChar c, 128 ≤ b.toNat := by
  have hbyte (n : Nat) (hlow : 128 ≤ n) (hhigh : n < 256) : 128 ≤ (UInt8.ofNat n).toNat := by
    rw [UInt8.toNat_ofNat', Nat.mod_eq_of_lt hhigh]
    exact hlow
  have hmore : ¬c.val.toNat ≤ 127 := Nat.not_le_of_lt hc
  simp only [String.utf8EncodeChar, if_neg hmore]
  split
  · simp only [List.forall_mem_cons]
    exact ⟨hbyte _ (by omega) (by omega), hbyte _ (by omega) (by omega), by simp⟩
  · split
    · simp only [List.forall_mem_cons]
      exact ⟨hbyte _ (by omega) (by omega), hbyte _ (by omega) (by omega),
        hbyte _ (by omega) (by omega), by simp⟩
    · simp only [List.forall_mem_cons]
      exact ⟨hbyte _ (by omega) (by omega), hbyte _ (by omega) (by omega),
        hbyte _ (by omega) (by omega), hbyte _ (by omega) (by omega), by simp⟩

/-- The byte of a line feed stands for nothing but a line feed. -/
theorem lineFeed_notMem_utf8EncodeChar {c : Char} (hc : c ≠ '\n') :
    lineFeed ∉ String.utf8EncodeChar c := by
  intro hmem
  by_cases hascii : c.val.toNat ≤ 127
  · rw [String.utf8EncodeChar, if_pos hascii, List.mem_singleton, ← UInt8.toNat_inj,
      UInt8.toNat_ofNat', Nat.mod_eq_of_lt (by omega)] at hmem
    exact hc (Char.ext (UInt32.toNat_inj.mp hmem.symm))
  · have hbeyond := le_toNat_of_mem_utf8EncodeChar (Nat.lt_of_not_le hascii) _ hmem
    simp [lineFeed] at hbeyond

/-- Among the bytes of a text, the line feeds before an offset are the line feeds among the
characters before it. -/
theorem count_lineFeed_take (text : List Char) (offset : Nat) :
    ((bytesOf text).take offset).count lineFeed = (charsBefore offset text).count '\n' := by
  induction text generalizing offset with
  | nil => simp [bytesOf, charsBefore]
  | cons c cs ih =>
    have hsize := String.length_utf8EncodeChar c
    rw [bytesOf_cons, charsBefore, List.take_append, List.count_append, hsize]
    by_cases hfits : c.utf8Size ≤ offset
    · rw [if_pos hfits, ih, List.take_of_length_le (by omega), List.count_cons, Nat.add_comm]
      by_cases hc : c = '\n'
      · subst hc
        rfl
      · simp [hc, List.count_eq_zero.mpr (lineFeed_notMem_utf8EncodeChar hc)]
    · -- The offset cuts the character, which is then no line feed, or stands in front of it.
      have hnone : lineFeed ∉ (String.utf8EncodeChar c).take offset := by
        by_cases hc : c = '\n'
        · rw [hc, utf8Size_newline] at hfits
          simp [show offset = 0 by omega]
        · exact fun hmem => lineFeed_notMem_utf8EncodeChar hc (List.mem_of_mem_take hmem)
      rw [if_neg hfits, List.count_eq_zero.mpr hnone, Nat.sub_eq_zero_of_le (by omega)]
      rfl

namespace Source

/-- The bytes of the text. -/
def bytes (s : Source) : List UInt8 :=
  s.text.toByteArray.data.toList

theorem bytes_eq (s : Source) : s.bytes = bytesOf s.chars := by
  have htext : s.text.toByteArray = s.chars.utf8Encode := by
    rw [s.chars_eq, ← String.toByteArray_ofList, String.ofList_toList]
  rw [bytes, htext, List.utf8Encode, bytesOf]
  simp

@[simp] theorem length_bytes (s : Source) : s.bytes.length = s.size := by
  rw [bytes_eq, length_bytesOf, size]

end Source

/-! ## §2 The table of line starts -/

/-- The scan adds an entry behind every line feed, and no other. -/
theorem mem_lineStartsFrom_iff (cs : List Char) (offset start : Nat) :
    start ∈ lineStartsFrom offset cs ↔
      ∃ i, (bytesOf cs)[i]? = some lineFeed ∧ start = offset + i + 1 := by
  induction cs generalizing offset with
  | nil => simp [lineStartsFrom, bytesOf]
  | cons c cs ih =>
    rw [lineStartsFrom]
    by_cases hc : c = '\n'
    · subst hc
      rw [if_pos rfl, List.mem_cons, ih, bytesOf_newline_cons]
      constructor
      · rintro (rfl | ⟨i, hi, rfl⟩)
        · exact ⟨0, rfl, rfl⟩
        · exact ⟨i + 1, hi, by omega⟩
      · rintro ⟨i, hi, rfl⟩
        cases i with
        | zero => exact .inl rfl
        | succ i => exact .inr ⟨i, hi, by omega⟩
    · have hsize := String.length_utf8EncodeChar c
      rw [if_neg hc, ih, bytesOf_cons]
      constructor
      · rintro ⟨i, hi, rfl⟩
        refine ⟨c.utf8Size + i, ?_, by omega⟩
        rwa [List.getElem?_append_right (by omega), hsize, Nat.add_sub_cancel_left]
      · rintro ⟨i, hi, rfl⟩
        -- The line feed is none of the bytes of the first character.
        have hbehind : c.utf8Size ≤ i := by
          by_contra hinside
          rw [List.getElem?_append_left (by omega)] at hi
          exact lineFeed_notMem_utf8EncodeChar hc (List.mem_of_getElem? hi)
        rw [List.getElem?_append_right (by omega), hsize] at hi
        exact ⟨i - c.utf8Size, hi, by omega⟩

theorem pairwise_lineStartsFrom (offset : Nat) (cs : List Char) :
    (lineStartsFrom offset cs).Pairwise (· < ·) := by
  induction cs generalizing offset with
  | nil => exact .nil
  | cons c cs ih =>
    rw [lineStartsFrom]
    split
    · exact .cons (fun start hstart => lt_of_mem_lineStartsFrom hstart) (ih (offset + 1))
    · exact ih (offset + c.utf8Size)

theorem length_lineStartsFrom (offset : Nat) (cs : List Char) :
    (lineStartsFrom offset cs).length = cs.count '\n' := by
  induction cs generalizing offset with
  | nil => rfl
  | cons c cs ih =>
    rw [lineStartsFrom]
    split
    · next hc => simp [hc, ih]
    · next hc => simp [hc, ih]

namespace Source

variable (s : Source)

/-- The table is in increasing order. -/
theorem pairwise_lines : s.lines.Pairwise (· < ·) := by
  rw [s.lines_eq, lineStarts]
  exact .cons (fun start hstart => lt_of_mem_lineStartsFrom hstart)
    (pairwise_lineStartsFrom 0 s.chars)

/-- The table lists the beginning of the text and what lies behind each line feed. -/
theorem mem_lines_iff (start : Nat) :
    start ∈ s.lines ↔ start = 0 ∨ ∃ i, s.bytes[i]? = some lineFeed ∧ start = i + 1 := by
  rw [s.lines_eq, lineStarts, List.mem_cons, mem_lineStartsFrom_iff, s.bytes_eq]
  simp only [Nat.zero_add]

end Source

/-! ## §3 The cut of a table -/

/-- Place `k` cuts a list in two: its elements are accepted before the place, and not from there
on. -/
structure IsPartitionPoint {α : Type} (accepts : α → Bool) (xs : List α) (k : Nat) : Prop where
  le_length : k ≤ xs.length
  accepts_iff : ∀ i x, xs[i]? = some x → (accepts x = true ↔ i < k)

namespace IsPartitionPoint

variable {α : Type} {accepts : α → Bool} {x : α} {xs : List α} {k : Nat}

theorem cons (hx : accepts x = true) (h : IsPartitionPoint accepts xs k) :
    IsPartitionPoint accepts (x :: xs) (k + 1) := by
  refine ⟨Nat.succ_le_succ h.le_length, fun i y hy => ?_⟩
  cases i with
  | zero =>
    obtain rfl : x = y := Option.some.inj hy
    simp [hx]
  | succ i => simpa using h.accepts_iff i y hy

theorem tail (h : IsPartitionPoint accepts (x :: xs) (k + 1)) : IsPartitionPoint accepts xs k :=
  ⟨Nat.le_of_succ_le_succ h.le_length, fun i y hy => by simpa using h.accepts_iff (i + 1) y hy⟩

/-- A list is cut in one place at most. -/
theorem eq_length_takeWhile (h : IsPartitionPoint accepts xs k) :
    k = (xs.takeWhile accepts).length := by
  induction xs generalizing k with
  | nil => exact Nat.le_zero.mp h.le_length
  | cons x xs ih =>
    have hx := h.accepts_iff 0 x rfl
    cases k with
    | zero => simp [hx]
    | succ k => simp [hx, ← ih h.tail]

end IsPartitionPoint

/-- A list in increasing order is cut behind its elements up to a bound. -/
theorem isPartitionPoint_takeWhile {xs : List Nat} (h : xs.Pairwise (· < ·)) (bound : Nat) :
    IsPartitionPoint (· ≤ bound) xs (xs.takeWhile (· ≤ bound)).length := by
  induction xs with
  | nil => exact ⟨Nat.le_refl _, by simp⟩
  | cons x xs ih =>
    obtain ⟨hfirst, hrest⟩ := List.pairwise_cons.mp h
    by_cases hx : x ≤ bound
    · rw [List.takeWhile_cons, if_pos (by simpa using hx), List.length_cons]
      exact (ih hrest).cons (by simpa using hx)
    · rw [List.takeWhile_cons, if_neg (by simpa using hx)]
      refine ⟨Nat.zero_le _, fun i y hy => ?_⟩
      -- The later elements are larger still.
      have hlarger : x ≤ y := by
        rcases List.mem_cons.mp (List.mem_of_getElem? hy) with rfl | hy
        · exact Nat.le_refl _
        · exact Nat.le_of_lt (hfirst y hy)
      simp only [decide_eq_true_eq, List.length_nil, Nat.not_lt_zero, iff_false]
      omega

/-! ## §4 Rows and columns -/

/-- The line of an offset starts at `start`: at the beginning of the text or behind a line feed,
with no line feed from there up to the offset. -/
structure IsLineStart (bytes : List UInt8) (offset start : Nat) : Prop where
  le_offset : start ≤ offset
  behind : start = 0 ∨ ∃ i, bytes[i]? = some lineFeed ∧ start = i + 1
  clear : ∀ i, start ≤ i → i < offset → bytes[i]? ≠ some lineFeed

namespace Source

variable (s : Source)

/-- The row of an offset is the number of line feeds before it. -/
theorem row_eq_count (offset : Nat) : s.row offset = (s.bytes.take offset).count lineFeed := by
  rw [row_eq, length_lineStartsFrom, s.bytes_eq, count_lineFeed_take]

/-- The row is the place before the only cut of the table.  The cut is never in front of the table,
because the first line starts at or before every offset. -/
theorem isPartitionPoint_lines_iff (offset k : Nat) :
    IsPartitionPoint (· ≤ offset) s.lines k ↔ k = s.row offset + 1 := by
  have hlength : (s.lines.takeWhile (· ≤ offset)).length = s.row offset + 1 := by
    rw [takeWhile_lines, lineStarts, List.length_cons, row_eq]
  rw [← hlength]
  constructor
  · exact IsPartitionPoint.eq_length_takeWhile
  · rintro rfl
    exact isPartitionPoint_takeWhile s.pairwise_lines offset

/-- The entry of its row is where the line of an offset starts. -/
theorem isLineStart_of_getElem? {offset start : Nat} (h : s.lines[s.row offset]? = some start) :
    IsLineStart s.bytes offset start := by
  have hcut := ((s.isPartitionPoint_lines_iff offset _).mpr rfl).accepts_iff
  have hle : start ≤ offset := by simpa using hcut _ start h
  refine ⟨hle, (s.mem_lines_iff start).mp (List.mem_of_getElem? h), ?_⟩
  intro i hstart hoffset hfeed
  -- The line behind such a line feed starts before the cut, and yet behind the last that does.
  obtain ⟨j, hj⟩ := List.getElem?_of_mem ((s.mem_lines_iff (i + 1)).mpr (.inr ⟨i, hfeed, rfl⟩))
  have hrow : j < s.row offset + 1 := (hcut j (i + 1) hj).mp (decide_eq_true hoffset)
  have hsorted : i + 1 ≤ start := by
    rcases Nat.lt_or_eq_of_le (Nat.le_of_lt_succ hrow) with hlt | rfl
    · obtain ⟨hjlength, hjentry⟩ := List.getElem?_eq_some_iff.mp hj
      obtain ⟨hlength, hentry⟩ := List.getElem?_eq_some_iff.mp h
      have hentries := List.pairwise_iff_getElem.mp s.pairwise_lines j _ hjlength hlength hlt
      omega
    · exact Nat.le_of_eq (Option.some.inj (hj.symm.trans h))
  omega

/-- The column of an offset is its distance from the start of its line. -/
theorem add_column {offset start : Nat} (h : s.lines[s.row offset]? = some start) :
    start + s.column offset = offset := by
  have hle := (s.isLineStart_of_getElem? h).le_offset
  rw [column, h, Option.getD_some]
  omega

end Source

end Text

/-! ## §5 Comparing bytes, and lines and columns -/

open Text (Source)

namespace Position

variable {s : Source} {p q : Position}

theorem before_iff_offset (hp : p = s.position p.offset) (hq : q = s.position q.offset) :
    p.before q = true ↔ p.offset < q.offset := by
  rw [hp, hq]
  exact s.position_before_iff

theorem before_eq_false_iff_offset (hp : p = s.position p.offset) (hq : q = s.position q.offset) :
    p.before q = false ↔ q.offset ≤ p.offset := by
  rw [← Bool.not_eq_true, before_iff_offset hp hq, Nat.not_lt]

/-- Two positions of one text stand in the order of their offsets. -/
theorem order_eq_compare (hp : p = s.position p.offset) (hq : q = s.position q.offset) :
    p.order q = compare p.offset q.offset := by
  rw [order]
  rcases Nat.lt_trichotomy p.offset q.offset with h | h | h
  · rw [if_pos ((before_iff_offset hp hq).mpr h), Nat.compare_eq_lt.mpr h]
  · have hpq := (before_eq_false_iff_offset hp hq).mpr (Nat.le_of_eq h.symm)
    have hqp := (before_eq_false_iff_offset hq hp).mpr (Nat.le_of_eq h)
    rw [hpq, hqp, Nat.compare_eq_eq.mpr h]
    rfl
  · have hpq := (before_eq_false_iff_offset hp hq).mpr (Nat.le_of_lt h)
    rw [hpq, if_neg Bool.false_ne_true, if_pos ((before_iff_offset hq hp).mpr h),
      Nat.compare_eq_gt.mpr h]

end Position

/-- A span whose ends are positions of the text, in their order. -/
structure Span.LiesIn (s : Source) (a : Span) : Prop where
  start_eq : a.start = s.position a.start.offset
  stop_eq : a.stop = s.position a.stop.offset
  start_le_stop : a.start.offset ≤ a.stop.offset
  stop_le_length : a.stop.offset ≤ s.bytes.length

/-- Whatever is asked of two spans by lines and columns has the answer that their bytes give. -/
structure Span.ComparesByBytes (a b : Span) : Prop where
  order : ∀ p ∈ [a.start, a.stop], ∀ q ∈ [b.start, b.stop], p.order q = compare p.offset q.offset
  contains_iff : ∀ q ∈ [b.start, b.stop],
    (a.contains q = true ↔ a.start.offset ≤ q.offset ∧ q.offset < a.stop.offset)
  encloses_iff : a.encloses b = true ↔
    a.start.offset ≤ b.start.offset ∧ b.stop.offset ≤ a.stop.offset
  merge_start : (a.merge b).start.offset = min a.start.offset b.start.offset
  merge_stop : (a.merge b).stop.offset = max a.stop.offset b.stop.offset

namespace Span.LiesIn

variable {s : Source} {a b : Span} {p : Position}

theorem eq_position (h : a.LiesIn s) (hp : p ∈ [a.start, a.stop]) : p = s.position p.offset := by
  simp only [List.mem_cons, List.not_mem_nil, or_false] at hp
  rcases hp with rfl | rfl
  · exact h.start_eq
  · exact h.stop_eq

/-- Two spans that lie in one text compare by their bytes. -/
theorem comparesByBytes (ha : a.LiesIn s) (hb : b.LiesIn s) : a.ComparesByBytes b where
  order p hp q hq := Position.order_eq_compare (ha.eq_position hp) (hb.eq_position hq)
  contains_iff q hq := by
    have hq := hb.eq_position hq
    rw [contains, Bool.and_eq_true, Bool.not_eq_true',
      Position.before_eq_false_iff_offset hq ha.start_eq, Position.before_iff_offset hq ha.stop_eq]
  encloses_iff := by
    rw [Span.encloses_iff, Position.before_eq_false_iff_offset hb.start_eq ha.start_eq,
      Position.before_eq_false_iff_offset ha.stop_eq hb.stop_eq]
  merge_start := by
    simp only [merge, Position.before_iff_offset hb.start_eq ha.start_eq]
    split <;> omega
  merge_stop := by
    simp only [merge, Position.before_iff_offset ha.stop_eq hb.stop_eq]
    split <;> omega

end Span.LiesIn

/-! ## §6 Nodes built over a text -/

/-- Every node of the tree has the span of some bytes of the text, whatever its tag, text and label
are and however its parent holds it. -/
def Node.BuiltOver (s : Source) (root : Node) : Prop :=
  ∀ n : Node, n.Within root →
    ∃ start stop, n.span = (s.node n.tag start stop n.isNamed).span

namespace Node.BuiltOver

variable {s : Source} {n c root : Node}

/-- Building over a text, one level at a time. -/
theorem of_holds {start stop : Nat} (hspan : n.span = (s.node n.tag start stop n.isNamed).span)
    (hheld : ∀ c, n.Holds c → c.BuiltOver s) : n.BuiltOver s :=
  forall_within ⟨start, stop, hspan⟩ hheld

theorem mono (h : root.BuiltOver s) (hn : n.Within root) : n.BuiltOver s :=
  fun m hm => h m (hm.trans hn)

theorem node (s : Source) (tag : String) (start stop : Nat) (isNamed : Bool) :
    (s.node tag start stop isNamed).BuiltOver s := by
  refine of_holds (rfl : _ = (s.node tag start stop isNamed).span) ?_
  rintro c (hc | hc) <;> cases hc

theorem labelled (h : n.BuiltOver s) (label : String) : (n.labelled label).BuiltOver s := by
  obtain ⟨start, stop, hspan⟩ := h n (.refl n)
  exact of_holds hspan fun c (hc : n.Holds c) => h.mono hc.within

theorem push (h : n.BuiltOver s) (hc : c.BuiltOver s) : (n.push c).BuiltOver s := by
  obtain ⟨start, stop, hspan⟩ := h n (.refl n)
  refine of_holds hspan fun d hd => ?_
  rcases hd.of_push with hd | rfl
  · exact h.mono hd.within
  · exact hc

/-- Every node of such a tree lies in the text: bounds beyond it were moved to its end. -/
theorem liesIn (h : root.BuiltOver s) (hn : n.Within root) : n.span.LiesIn s := by
  obtain ⟨start, stop, hspan⟩ := h n hn
  rw [hspan]
  refine ⟨rfl, rfl, Nat.min_le_right _ _, ?_⟩
  rw [s.length_bytes]
  exact Nat.min_le_right _ _

end Node.BuiltOver

/-! ## §7 Exact positions -/

namespace Text.Source

/-- The positions of a text are exact, and they stand in the order of its bytes.

The table of line starts is in increasing order and complete.  Wherever the table is cut by an
offset, the cut is one behind the row of the offset; the row is the number of line feeds before the
offset, and the column is the distance from the start of its line, which is never behind it.  Of two
offsets the smaller one has the earlier position, and of the nodes of a tree built over the text,
lines and columns say what the bytes say. -/
theorem positions_exact (s : Source) :
    (s.lines.Pairwise (· < ·) ∧
      ∀ start, start ∈ s.lines ↔ start = 0 ∨ ∃ i, s.bytes[i]? = some lineFeed ∧ start = i + 1) ∧
    (∀ offset,
      (∀ k, IsPartitionPoint (· ≤ offset) s.lines k ↔ k = (s.position offset).line + 1) ∧
      (s.position offset).line = (s.bytes.take offset).count lineFeed ∧
      ∃ start, s.lines[(s.position offset).line]? = some start ∧
        IsLineStart s.bytes offset start ∧ start + (s.position offset).column = offset) ∧
    (∀ a b, (s.position a).before (s.position b) = true ↔ a < b) ∧
    (∀ root : Node, root.BuiltOver s → ∀ m n : Node, m.Within root → n.Within root →
      m.span.LiesIn s ∧ m.span.ComparesByBytes n.span) := by
  refine ⟨⟨s.pairwise_lines, s.mem_lines_iff⟩, fun offset => ?_,
    fun a b => s.position_before_iff, fun root hroot m n hm hn => ?_⟩
  · have hentry := s.getElem?_lines_row offset
    exact ⟨s.isPartitionPoint_lines_iff offset, s.row_eq_count offset, _, hentry,
      s.isLineStart_of_getElem? hentry, s.add_column hentry⟩
  · have hmlies := hroot.liesIn hm
    exact ⟨hmlies, hmlies.comparesByBytes (hroot.liesIn hn)⟩

/-- Line feeds at both ends and in a row, and a character of four bytes on the second line. -/
def linesApart : Source :=
  ofText "\n𝄞 = 1;\n\nbb = 22;\n"

/-- The number on the second line. -/
def upperNumber : Node :=
  linesApart.nodeAt "number" "1" 0 true

/-- The number on the fourth line. -/
def lowerNumber : Node :=
  linesApart.nodeAt "number" "22" 0 true

/-- Both numbers, the second one under a label. -/
def linesApartTree : Node :=
  (linesApart.root.push upperNumber).push (lowerNumber.labelled "value")

theorem positions_exact_linesApart :
    linesApartTree.BuiltOver linesApart ∧ upperNumber.Within linesApartTree ∧
    (lowerNumber.labelled "value").Within linesApartTree ∧
    upperNumber.span.LiesIn linesApart ∧
    upperNumber.span.ComparesByBytes (lowerNumber.labelled "value").span := by
  have hbuilt : linesApartTree.BuiltOver linesApart :=
    .push (.push (.node _ _ _ _ _) (.node _ _ _ _ _)) (.labelled (.node _ _ _ _ _) _)
  have hupper : upperNumber.Within linesApartTree := Node.Holds.within (.inl (.head _))
  have hlower : (lowerNumber.labelled "value").Within linesApartTree :=
    Node.Holds.within (.inl (.tail _ (.head _)))
  exact ⟨hbuilt, hupper, hlower, (positions_exact linesApart).2.2.2 _ hbuilt _ _ hupper hlower⟩

/-- The lower number stands behind the five bytes of its line, and behind three line feeds. -/
example : lowerNumber.span = ⟨⟨3, 5, 17⟩, ⟨3, 7, 19⟩⟩ := by decide

end Text.Source

end Scad
