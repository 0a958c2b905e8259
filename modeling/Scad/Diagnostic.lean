import Scad.Ast.Fault

/-!
# Reports and Diagnostics

A report is what a conversion tells its handler; a diagnostic is what a user is shown.  Every
report becomes a diagnostic, at the start of the text where it has no span.
-/

namespace Scad

/-- How bad it is. -/
inductive Severity where
  | error | warning | info
  deriving DecidableEq, Repr, Inhabited

namespace Severity

def name : Severity → String
  | error => "error" | warning => "warning" | info => "info"

/-- The severity stored under a name. -/
def ofName? (name : String) : Option Severity :=
  [error, warning, info].find? (·.name == name)

end Severity

/-! ## §1 Diagnostics -/

/-- A message for the user. -/
structure Diagnostic where
  severity : Severity
  message : String
  span : Span
  /-- What the user might do about it. -/
  hint : Option String := none
  /-- A code for machines. -/
  code : Option String := none
  deriving DecidableEq, Repr, Inhabited

/-- Whether the diagnostic is an error; warnings are not. -/
def Diagnostic.isError (d : Diagnostic) : Bool :=
  d.severity == .error

/-! ## §2 Reports -/

/-- A message for the handler of a conversion. -/
structure Report where
  message : String
  line : Nat := 0
  column : Nat := 0
  /-- The tag of the node that the message is about. -/
  tag : String := ""
  severity : Severity := .error
  code : Option FaultCode := none
  span : Option Span := none
  deriving DecidableEq, Repr, Inhabited

namespace Report

/-- A report about a node. -/
def on (message : String) (n : Node) : Report :=
  { message, line := n.span.start.line, column := n.span.start.column, tag := n.tag }

/-- The report of a fault that stands in a program as a statement. -/
def ofFault (f : Fault) : Report :=
  { message := f.message, line := f.span.start.line, column := f.span.start.column
    tag := f.tag, code := some f.code, span := some f.span }

/-- The diagnostic of a report. -/
def toDiagnostic (r : Report) : Diagnostic :=
  { severity := r.severity, message := r.message, span := r.span.getD {}
    code := r.code.map FaultCode.name }

/-- How a report is shown. -/
def display (r : Report) : String :=
  s!"{r.message} at {r.line}:{r.column} ({r.tag})"

end Report

end Scad
