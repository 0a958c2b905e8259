import Scad.Editor.Completion
import Scad.Editor.Hover
import Scad.Event

/-!
# Traces of the Editor

What the services for an editor leave in the trace: a record each time the symbols of a program are
collected, and one for each completion.
-/

namespace Scad

namespace PlaceKind

/-- The name of a kind in a trace. -/
def traceName : PlaceKind → String
  | topLevel => "TopLevel" | moduleBody => "ModuleBody" | argumentList => "ArgumentList"
  | expression => "Expression" | assignmentValue => "AssignmentValue"

end PlaceKind

namespace Program

/-- What collecting the symbols leaves. -/
def symbolsTrace (program : Program) : List TraceRecord :=
  [⟨.trace, "collected symbols", [("count", .number program.symbols.length)]⟩]

/-- What a hover text leaves.  The symbols are collected only where the cursor stands on a name. -/
def hoverTrace (program : Program) (p : Position) : List TraceRecord :=
  if ((program.viewAt? p).bind View.reference?).isSome then program.symbolsTrace else []

/-- What a completion leaves. -/
def completionTrace (program : Program) (p : Position) : List TraceRecord :=
  let path := program.pathTo p
  program.symbolsTrace ++
    [⟨.trace, "completion context",
      [("kind", .text (placeKind path p).traceName), ("depth", .number path.length)]⟩]

end Program

end Scad
