import Scad.Diagnostic

/-!
# Events and Handlers

A conversion does not act on the world; it answers with the list of its events, in order.  What
they amount to depends on the handler: which reports it keeps, and which records it writes to the
trace.
-/

namespace Scad

/-! ## §1 Traces -/

/-- How much a record of the trace matters. -/
inductive Level where
  | trace | debug | info | warn | error
  deriving DecidableEq, Repr, Inhabited

def Level.name : Level → String
  | trace => "TRACE" | debug => "DEBUG" | info => "INFO" | warn => "WARN" | error => "ERROR"

/-- The value of a field of a record. -/
inductive FieldValue where
  | text (s : String)
  | number (n : Nat)
  deriving DecidableEq, Repr, Inhabited

/-- One record of a trace. -/
structure TraceRecord where
  level : Level
  message : String
  fields : List (String × FieldValue)
  deriving DecidableEq, Repr, Inhabited

/-! ## §2 Events -/

/-- Something that a conversion does on its way. -/
inductive Event where
  /-- A message for the log, from a named context and about a node, where it has either. -/
  | logged (level : Level) (message : String) (context : Option String) (about : Option Node)
  /-- A hard error, which is logged and reported. -/
  | handled (report : Report)
  /-- A report by itself. -/
  | reported (report : Report)
  /-- A call, with the number of its arguments. -/
  | called (name : String) (argumentCount : Nat)
  /-- The end of a conversion, with the number of statements and of syntax errors. -/
  | finished (statements syntaxErrors : Nat)
  deriving Inhabited

/-- A call with the number of its arguments, where the event is one. -/
def Event.call? : Event → Option (String × Nat)
  | called name count => some (name, count)
  | _ => none

/-! ## §3 Handlers -/

/-- Who listens to a conversion. -/
inductive Handler where
  /-- Keeps the reports, and turns warnings of the log into reports. -/
  | collector
  /-- Keeps the reports alone. -/
  | reporter
  deriving DecidableEq, Repr, Inhabited

namespace Handler

/-- The report that a warning of the log becomes. -/
def warning (message : String) : Option Node → Report
  | some n => { Report.on message n with severity := .warning, span := some n.span }
  | none => { message, severity := .warning }

/-- The reports that a handler keeps of an event. -/
def keeps : Handler → Event → List Report
  | _, .handled report | _, .reported report => [report]
  -- Only warnings are worth a report; the other levels are for the log alone.
  | collector, .logged .warn message _ about => [warning message about]
  | _, _ => []

/-- The fields that say where a node starts. -/
def placeFields (n : Node) : List (String × FieldValue) :=
  [("line", .number n.span.start.line), ("column", .number n.span.start.column)]

/-- The fields of a message for the log.  A warning that the collector turns into a report is
logged without its place, which the report has. -/
def logFields (handler : Handler) (level : Level) (context : Option String) (about : Option Node) :
    List (String × FieldValue) :=
  let place : List (String × FieldValue) := match about with
    | none => []
    | some n =>
      ("node_type", .text n.tag) ::
        if handler == collector && level == .warn then [] else placeFields n
  ("context", .text (context.getD "")) :: place

/-- The records that an event leaves in the trace. -/
def traces (handler : Handler) : Event → List TraceRecord
  | .logged level message context about =>
    [⟨level, message, handler.logFields level context about⟩]
  | .handled report =>
    let code : List (String × FieldValue) := match report.code with
      | some code => [("code", .text code.name)]
      | none => []
    [⟨.error, report.message,
      [("node_type", .text report.tag), ("line", .number report.line),
       ("column", .number report.column)] ++ code⟩]
  | .finished statements syntaxErrors =>
    [⟨.debug, "converted CST",
      [("statements", .number statements), ("syntax_errors", .number syntaxErrors)]⟩]
  -- A report is kept, and a call is listed; neither is logged.
  | .reported _ | .called .. => []

/-- Everything a handler keeps of a list of events. -/
def reports (handler : Handler) (events : List Event) : List Report :=
  events.flatMap handler.keeps

/-- The trace of a list of events. -/
def trace (handler : Handler) (events : List Event) : List TraceRecord :=
  events.flatMap handler.traces

theorem reports_append (handler : Handler) (es fs : List Event) :
    handler.reports (es ++ fs) = handler.reports es ++ handler.reports fs := by
  simp [reports]

end Handler

end Scad
