/-!
# Positions and Spans

A position is a line, a byte column within it, and a byte offset from the start of the text; lines
and columns count from zero.  A span runs from its start up to, and not including, its stop.

Positions are compared by line and column alone, because the cursor of an editor knows no offset.
-/

namespace Scad

/-! ## §1 Positions -/

/-- A place in a text. -/
structure Position where
  /-- The line, from zero. -/
  line : Nat := 0
  /-- The byte column within the line, from zero. -/
  column : Nat := 0
  /-- The byte offset from the start of the text. -/
  offset : Nat := 0
  deriving DecidableEq, Repr, Inhabited

namespace Position

/-- Whether `p` stands before `q`, by line and then by column. -/
def before (p q : Position) : Bool :=
  p.line < q.line || (p.line == q.line && p.column < q.column)

/-- The order of two positions by line and then by column. -/
def order (p q : Position) : Ordering :=
  if p.before q then .lt else if q.before p then .gt else .eq

theorem before_iff {p q : Position} :
    p.before q = true ↔ p.line < q.line ∨ p.line = q.line ∧ p.column < q.column := by
  simp [before]

theorem before_irrefl (p : Position) : p.before p = false := by
  simp [before]

theorem before_eq_false_iff {p q : Position} :
    p.before q = false ↔ q.line < p.line ∨ q.line = p.line ∧ q.column ≤ p.column := by
  rw [← Bool.not_eq_true, before_iff]
  omega

/-- Not standing before is a preorder. -/
theorem not_before_trans {p q r : Position} (hqp : q.before p = false) (hrq : r.before q = false) :
    r.before p = false := by
  rw [before_eq_false_iff] at *
  omega

end Position

/-! ## §2 Spans -/

/-- A half-open stretch of a text. -/
structure Span where
  /-- The first position inside. -/
  start : Position := {}
  /-- The first position after it. -/
  stop : Position := {}
  deriving DecidableEq, Repr, Inhabited

namespace Span

/-- The length in bytes; a span whose stop comes before its start has none. -/
def length (s : Span) : Nat :=
  s.stop.offset - s.start.offset

/-- Whether the span covers no byte. -/
def isEmpty (s : Span) : Bool :=
  s.stop.offset ≤ s.start.offset

/-- Whether the position lies in the span: its start does, its stop does not. -/
def contains (s : Span) (p : Position) : Bool :=
  !p.before s.start && p.before s.stop

/-- Whether `inner` starts no earlier and stops no later than `outer`. -/
def encloses (outer inner : Span) : Bool :=
  !inner.start.before outer.start && !outer.stop.before inner.stop

/-- The span from the earlier start to the later stop.  Of two starts, or two stops, at the same
line and column the first span's is kept. -/
def merge (s t : Span) : Span where
  start := if t.start.before s.start then t.start else s.start
  stop := if s.stop.before t.stop then t.stop else s.stop

theorem encloses_iff {outer inner : Span} :
    outer.encloses inner = true ↔
      inner.start.before outer.start = false ∧ outer.stop.before inner.stop = false := by
  simp [encloses]

theorem encloses_refl (s : Span) : s.encloses s = true := by
  simp [encloses, Position.before_irrefl]

theorem encloses_trans {s t u : Span} (hst : s.encloses t = true) (htu : t.encloses u = true) :
    s.encloses u = true := by
  rw [encloses_iff] at *
  exact ⟨Position.not_before_trans hst.1 htu.1, Position.not_before_trans htu.2 hst.2⟩

theorem merge_encloses_left (s t : Span) : (s.merge t).encloses s = true := by
  rw [encloses_iff]
  unfold merge
  constructor
  · dsimp only
    split <;> grind [Position.before_iff, Position.before_eq_false_iff]
  · dsimp only
    split <;> grind [Position.before_iff, Position.before_eq_false_iff]

theorem merge_encloses_right (s t : Span) : (s.merge t).encloses t = true := by
  rw [encloses_iff]
  unfold merge
  constructor
  · dsimp only
    split <;> grind [Position.before_iff, Position.before_eq_false_iff]
  · dsimp only
    split <;> grind [Position.before_iff, Position.before_eq_false_iff]

/-- What encloses two spans encloses everything between them. -/
theorem encloses_merge {outer s t : Span} (hs : outer.encloses s = true)
    (ht : outer.encloses t = true) : outer.encloses (s.merge t) = true := by
  rw [encloses_iff] at *
  unfold merge
  constructor
  · dsimp only
    split
    · exact ht.1
    · exact hs.1
  · dsimp only
    split
    · exact ht.2
    · exact hs.2

end Span

end Scad
