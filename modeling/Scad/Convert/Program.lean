import Scad.Ast.View
import Scad.Convert.Statement
import Scad.Json.Tree

/-!
# Programs from Syntax Trees

Converting a tree never stops half-way.  What the grammar engine could not read becomes a syntax
error; a statement that cannot be converted stays in the program as a fault, and is reported.

A handler of the caller's own receives the reports itself, so the diagnostics of a conversion hold
what it was not told: the syntax errors, and the faults once more.
-/

namespace Scad.Convert

open Conversion

/-! ## §1 Syntax errors -/

/-- The nodes that error recovery put into a tree, a parent before its children and from the left.
What stands inside such a node is not looked at. -/
def recovered (n : Node) : List Node :=
  if n.isPlaceholder then [n] else n.parts.flatMap fun c => recovered c.node
termination_by sizeOf n
decreasing_by exact c.inside

theorem recovered_eq (n : Node) :
    recovered n = if n.isPlaceholder then [n] else n.children.flatMap recovered := by
  rw [recovered, n.flatMap_parts recovered]

/-- The code of a text that could not be read. -/
def syntaxErrorCode : String := "SYNTAX_ERROR"

/-- The code of a token that was inserted. -/
def missingTokenCode : String := "MISSING_TOKEN"

/-- The diagnostic of a node that error recovery put in. -/
def syntaxError (width : Nat) (n : Node) : Diagnostic :=
  if n.isMissing then
    let token := Kind.missingToken n.tag
    let message := if token.isEmpty then "Missing token" else "Missing '" ++ token ++ "'"
    { severity := .error, message, span := n.span, code := some missingTokenCode }
  else
    let message := "Syntax error near '" ++ Problem.excerpt n.text width ++ "'"
    { severity := .error, message, span := n.span, code := some syntaxErrorCode }

/-- The syntax errors of a tree, in order. -/
def syntaxErrors (width : Nat) (root : Node) : List Diagnostic :=
  (recovered root).map (syntaxError width)

/-! ## §2 Conversion of a tree -/

/-- The statements of a tree: those of a source file, or the root itself. -/
def rootStatements (root : Node) : Conversion Program := do
  if root.kind == .sourceFile then
    significantStatements root (inner .complete root)
  else
    return (← orFault (statement .complete root)).toList

/-- A converted tree. -/
structure Converted where
  program : Program
  /-- What the grammar engine could not read. -/
  syntaxErrors : List Diagnostic
  /-- What the conversion did on its way, the reports of its faults included. -/
  events : List Event

/-- Converts a tree.  The faults of the program are reported in the end. -/
def convert (settings : Settings) (root : Node) : Converted :=
  let (result, events) := (rootStatements root).run settings
  -- Every statement settles its own fault, so the run itself does not fail.
  let program := result.toOption.getD []
  let errors := syntaxErrors settings.previewWidth root
  -- The faults are reported once the whole program is known.
  { program
    syntaxErrors := errors
    events := events ++ program.faults.map (fun f => .handled (Report.ofFault f))
      ++ [.finished program.length errors.length] }

namespace Converted

/-- The diagnostics for a caller that has no handler: the syntax errors, then everything that was
reported. -/
def diagnostics (c : Converted) : List Diagnostic :=
  c.syntaxErrors ++ (Handler.collector.reports c.events).map Report.toDiagnostic

/-- The diagnostics for a caller with a handler of its own: the syntax errors, then the faults. -/
def diagnosticsBesideHandler (c : Converted) : List Diagnostic :=
  c.syntaxErrors ++ c.program.faults.map fun f => (Report.ofFault f).toDiagnostic

end Converted

/-- Converts the tree that a text denotes, under the usual settings.  A text that denotes no tree
is refused with the problem of its reading. -/
def convertText (text : String) : Except Json.ReadError Converted :=
  (Node.read text).map (convert {})

end Scad.Convert
