/-!
# Settings

What a conversion can be told: how much of an offending text a message quotes, and how much stack
a host sets aside for deep trees.  `Settings.check` admits exactly the useful values.
-/

namespace Scad

/-- The settings of a conversion. -/
structure Settings where
  /-- How many characters of an offending text a message quotes. -/
  previewWidth : Nat := 20
  /-- How many bytes of stack a host sets aside at a time when a tree nests deeply. -/
  stackBytes : Nat := 8 * 1024 * 1024
  deriving DecidableEq, Repr, Inhabited

namespace Settings

/-- The bytes of stack left at which a host sets aside more. -/
def redZone : Nat :=
  64 * 1024

/-- Why a pair of values makes no settings. -/
inductive Problem where
  /-- Messages would quote nothing. -/
  | noPreview (width : Nat)
  /-- A new stretch of stack would be used up at once. -/
  | stackWithinRedZone (bytes : Nat)
  deriving DecidableEq, Repr

/-- The wording of a problem. -/
def Problem.message : Problem → String
  | .noPreview width => s!"diagnostic_preview_chars must be positive: {width}"
  | .stackWithinRedZone bytes => s!"stack_size_bytes must exceed the red zone: {bytes}"

/-- Settings from a preview width and a stack size; the width is looked at first. -/
def check (previewWidth stackBytes : Nat) : Except Problem Settings :=
  if previewWidth = 0 then .error (.noPreview previewWidth)
  else if stackBytes ≤ redZone then .error (.stackWithinRedZone stackBytes)
  else .ok { previewWidth, stackBytes }

end Settings

end Scad
