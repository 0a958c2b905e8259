import Scad.Text.Source
import Scad.Tree.Node

/-!
# Trees over a Source

Builds nodes over a fixed text, counting rows and columns and cutting the texts from it.
-/

namespace Scad

namespace Text.Source

/-- The position of a byte offset. -/
def position (s : Source) (offset : Nat) : Position where
  line := s.row offset
  column := s.column offset
  offset := offset

/-- A later offset does not stand before an earlier one. -/
theorem position_mono (s : Source) {a b : Nat} (h : a ≤ b) :
    (s.position b).before (s.position a) = false := by
  rw [Position.before_eq_false_iff]
  rcases Nat.lt_or_eq_of_le (s.row_mono h) with hrow | hrow
  · exact .inl hrow
  · exact .inr ⟨hrow, s.column_mono h hrow⟩

/-- A childless node over the bytes from `start` to `stop`.  A stop beyond the text is moved to its
end, and a start beyond the stop to the stop. -/
def node (s : Source) (tag : String) (start stop : Nat) (isNamed : Bool) : Node :=
  let stop := min stop s.size
  let start := min start stop
  { tag
    text := s.slice start stop
    span := ⟨s.position start, s.position stop⟩
    isNamed }

/-- A childless node over the occurrence of `needle` with the given number, counted from zero. -/
def nodeAt (s : Source) (tag needle : String) (number : Nat) (isNamed : Bool) : Node :=
  let range := s.rangeOf needle number
  s.node tag range.1 range.2 isNamed

/-- The root of a tree over the whole text. -/
def root (s : Source) : Node :=
  s.node "source_file" 0 s.size true

end Text.Source

end Scad
