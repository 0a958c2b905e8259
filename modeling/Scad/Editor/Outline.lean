import Scad.Editor.Symbol

/-!
# Outlines

The symbols of a program as a forest: every symbol stands below the definition that holds it.

The definition that holds a symbol is found by the symbol's scope and span: it has the name of the
scope, and its span encloses the symbol's.  Of several such definitions the last is the innermost.
-/

namespace Scad

/-- A symbol with those that it holds. -/
structure OutlineItem where
  symbol : Symbol
  children : List OutlineItem
  deriving Inhabited

namespace Outline

/-! ## §1 Who holds whom -/

/-- A list with the number of each element. -/
abbrev Numbered (α : Type) : Type :=
  List (α × Nat)

/-- Whether a definition holds a symbol in the scope of the given name. -/
def holds (scope : String) (definition s : Symbol) : Bool :=
  definition.kind.isDefinition && definition.name == scope && definition.span.encloses s.span

/-- The number of the definition that holds the symbol of the given number; none at the level of
the file. -/
def owner? (symbols : Numbered Symbol) (s : Symbol) (number : Nat) : Option Nat :=
  s.scope.bind fun scope =>
    ((symbols.filter fun d => d.2 != number && holds scope d.1 s).getLast?).map (·.2)

/-- A symbol, its number, and the number of its owner. -/
structure Entry where
  symbol : Symbol
  number : Nat
  owner : Option Nat
  deriving DecidableEq, Repr, Inhabited

/-- The entries of a list of symbols. -/
def entries (symbols : List Symbol) : List Entry :=
  symbols.zipIdx.map fun (symbol, number) =>
    ⟨symbol, number, owner? symbols.zipIdx symbol number⟩

/-! ## §2 The forest -/

/-- The items below an owner, nested at most as deep as the first argument says. -/
def itemsBelow (entries : List Entry) : Nat → Option Nat → List OutlineItem
  | 0, _ => []
  | depth + 1, owner =>
    (entries.filter (·.owner == owner)).map fun e =>
      ⟨e.symbol, itemsBelow entries depth (some e.number)⟩

end Outline

/-- The forest of a list of symbols.  No path in it is longer than the list. -/
def outlineOf (symbols : List Symbol) : List OutlineItem :=
  Outline.itemsBelow (Outline.entries symbols) symbols.length none

/-- The outline of a program. -/
def Program.outline (program : Program) : List OutlineItem :=
  outlineOf program.symbols

end Scad
