import Scad.Convert.Program
import Scad.Proofs.Statements

/-!
# Reports of a Conversion

Nothing that goes wrong in a conversion is lost, and nothing is told twice.

* `Node.lineages`, `Program.storedFaults` — what there is to be told: the nodes of a tree with their
  ancestors, and the faults stored in the statements of a program at any depth.
* `recovered_eq_unreadable` — the syntax errors are the topmost nodes that error recovery put in.
* `faults_eq_storedFaults` — the faults of a program are those stored in its statements, one for
  each.
* `convert_reports` — what the diagnostics of a conversion consist of.
-/

namespace Scad

/-! ## §1 Syntax errors -/

namespace Node

/-- The node and everything that is reached through its children, a parent before its children, each
with its proper ancestors from the outermost inwards. -/
def lineages (n : Node) : List (List Node × Node) :=
  ([], n) :: n.parts.flatMap fun c => (lineages c.node).map fun e => (n :: e.1, e.2)
termination_by sizeOf n
decreasing_by exact c.inside

theorem lineages_eq (n : Node) :
    n.lineages = ([], n) :: n.children.flatMap fun c =>
      c.lineages.map fun e => (n :: e.1, e.2) := by
  rw [lineages, n.flatMap_parts fun c => c.lineages.map fun e => (n :: e.1, e.2)]

/-- Whether a node was put in by error recovery and none of its ancestors was. -/
def isTopmostPlaceholder (lineage : List Node × Node) : Bool :=
  lineage.2.isPlaceholder && lineage.1.all fun ancestor => !ancestor.isPlaceholder

/-- The nodes that error recovery put in, without those inside another, in pre-order. -/
def unreadable (n : Node) : List Node :=
  (n.lineages.filter isTopmostPlaceholder).map Prod.snd

end Node

namespace Convert

/-- The search that stops at the first placeholder on every branch finds the topmost ones. -/
theorem recovered_eq_unreadable (n : Node) : recovered n = n.unreadable := by
  rw [recovered_eq, Node.unreadable, n.lineages_eq, List.filter_cons, List.filter_flatMap]
  simp only [List.filter_map]
  cases hself : n.isPlaceholder with
  | true =>
    -- Every other node has this one for an ancestor.
    have hnone (c : Node) : c.lineages.filter
        (Node.isTopmostPlaceholder ∘ fun e => (n :: e.1, e.2)) = [] := by
      simp [Node.isTopmostPlaceholder, hself]
    simp [Node.isTopmostPlaceholder, hself, hnone]
  | false =>
    have hsame (c : Node) : c.lineages.filter
        (Node.isTopmostPlaceholder ∘ fun e => (n :: e.1, e.2)) =
          c.lineages.filter Node.isTopmostPlaceholder := by
      apply List.filter_congr
      intro e _
      simp [Node.isTopmostPlaceholder, hself]
    have hskip : Node.isTopmostPlaceholder ([], n) = false := by
      simp [Node.isTopmostPlaceholder, hself]
    simp only [hskip, Bool.false_eq_true, if_false, hsame, List.map_flatMap, List.map_map]
    apply List.flatMap_congr
    intro c hc
    rw [recovered_eq_unreadable c]
    rfl
termination_by sizeOf n
decreasing_by exact Node.sizeOf_lt_of_mem_children hc

end Convert

/-! ## §2 Faults of a program -/

/-- The faults stored in the statements of a program at any depth, in pre-order. -/
def Program.storedFaults (program : Program) : List Fault :=
  (program.flatMap Statement.preorder).filterMap Statement.fault?

theorem View.fault?_ofStatement (s : Statement) : (ofStatement s).fault? = s.fault? := by
  cases s <;> rfl

/-- The walk over a program meets each stored fault exactly once. -/
theorem Program.faults_eq_storedFaults (program : Program) :
    program.faults = program.storedFaults := by
  have hother (v : View) (hv : v.isStatement = false) : v.fault? = none := by
    cases v <;> simp_all [View.isStatement, View.fault?]
  exact filterMap_preorder View.fault?_ofStatement hother program

/-! ## §3 Conversions that never fail -/

namespace Conversion

variable {α β : Type}

/-- The conversion ends with a result under all settings. -/
def Succeeds (x : Conversion α) : Prop :=
  ∀ settings, ∃ a, x.result settings = .ok a

namespace Succeeds

theorem pure (a : α) : (Pure.pure a : Conversion α).Succeeds :=
  fun _ => ⟨a, rfl⟩

theorem bind {x : Conversion α} {f : α → Conversion β} (hx : x.Succeeds)
    (hf : ∀ a, (f a).Succeeds) : (x >>= f).Succeeds := by
  intro settings
  obtain ⟨a, ha⟩ := hx settings
  obtain ⟨b, hb⟩ := hf a settings
  exact ⟨b, by simp [ha, hb]⟩

theorem settle (x : Conversion α) : x.settle.Succeeds :=
  fun settings => ⟨x.result settings, rfl⟩

theorem mapM {γ : Type} {f : γ → Conversion β} (hf : ∀ c, (f c).Succeeds) (l : List γ) :
    (l.mapM f).Succeeds := by
  induction l with
  | nil => exact pure []
  | cons c l ih =>
    rw [List.mapM_cons]
    exact (hf c).bind fun b => ih.bind fun bs => pure (b :: bs)

end Succeeds

end Conversion

namespace Convert

open Conversion

theorem orFault_succeeds (x : Conversion (Option Statement)) : (orFault x).Succeeds := by
  unfold orFault
  apply (Succeeds.settle x).bind
  intro r
  cases r with
  | ok converted => exact .pure converted
  | error f => exact .pure (some (Statement.fault f))

/-- A program is converted whatever is wrong with its statements. -/
theorem rootStatements_succeeds (root : Node) : (rootStatements root).Succeeds := by
  unfold rootStatements
  split
  · unfold significantStatements statements
    exact (Succeeds.mapM (fun p => orFault_succeeds _) _).bind fun _ => .pure _
  · exact (orFault_succeeds _).bind fun _ => .pure _

/-! ## §4 What is reported -/

/-- The program of a conversion is the result of its run. -/
theorem result_rootStatements (settings : Settings) (root : Node) :
    (rootStatements root).result settings = .ok (convert settings root).program := by
  obtain ⟨program, hprogram⟩ := rootStatements_succeeds root settings
  have hconvert : (convert settings root).program =
    ((rootStatements root).result settings).toOption.getD [] := rfl
  rw [hconvert, hprogram]
  rfl

/-- A handler is told what the run reports, and then the faults of the program. -/
theorem reports_convert (settings : Settings) (root : Node) (handler : Handler) :
    handler.reports (convert settings root).events =
      handler.reports ((rootStatements root).events settings) ++
        (convert settings root).program.faults.map Report.ofFault := by
  have hfaults (fs : List Fault) :
      handler.reports (fs.map fun f => .handled (Report.ofFault f)) = fs.map Report.ofFault := by
    induction fs with
    | nil => rfl
    | cons f fs ih =>
      rw [Handler.reports, List.map_cons, List.flatMap_cons, List.map_cons, ← ih]
      cases handler <;> rfl
  have hfinished (a b : Nat) : handler.reports [.finished a b] = [] := by
    cases handler <;> rfl
  have hevents : (convert settings root).events =
      (rootStatements root).events settings ++
        (convert settings root).program.faults.map (fun f => .handled (Report.ofFault f)) ++
          [.finished (convert settings root).program.length
            (syntaxErrors settings.previewWidth root).length] := rfl
  rw [hevents, Handler.reports_append, Handler.reports_append, hfaults, hfinished,
    List.append_nil]

/-- A caller without a handler is shown the syntax errors, what the run reports, and the faults. -/
theorem diagnostics_convert (settings : Settings) (root : Node) :
    (convert settings root).diagnostics =
      syntaxErrors settings.previewWidth root ++
        (Handler.collector.reports ((rootStatements root).events settings)).map
          Report.toDiagnostic ++
        (convert settings root).program.faults.map fun f => (Report.ofFault f).toDiagnostic := by
  rw [Converted.diagnostics, reports_convert, List.map_append, List.map_map, List.append_assoc]
  rfl

/-- The error that a fault is shown as. -/
def faultDiagnostic (f : Fault) : Diagnostic where
  severity := .error
  message := f.message
  span := f.span
  code := some f.code.name

/-- What the diagnostics of a conversion consist of, for a caller with a handler of its own and for
one without: an error for each topmost node that error recovery put in; for a caller without a
handler, what the run reported; and an error for each fault stored in the program, wherever it is
stored.  The program is what the run ends with, whoever listens, and every handler is told of its
faults. -/
theorem convert_reports (settings : Settings) (root : Node) :
    (rootStatements root).result settings = .ok (convert settings root).program ∧
      (convert settings root).diagnosticsBesideHandler =
        root.unreadable.map (syntaxError settings.previewWidth) ++
          (convert settings root).program.storedFaults.map faultDiagnostic ∧
      (convert settings root).diagnostics =
        root.unreadable.map (syntaxError settings.previewWidth) ++
          (Handler.collector.reports ((rootStatements root).events settings)).map
            Report.toDiagnostic ++
          (convert settings root).program.storedFaults.map faultDiagnostic ∧
      ∀ handler : Handler, handler.reports (convert settings root).events =
        handler.reports ((rootStatements root).events settings) ++
          (convert settings root).program.storedFaults.map Report.ofFault := by
  have hsyntax : (convert settings root).syntaxErrors =
      root.unreadable.map (syntaxError settings.previewWidth) := by
    rw [← recovered_eq_unreadable]
    rfl
  have hfaults := (convert settings root).program.faults_eq_storedFaults
  refine ⟨result_rootStatements settings root, ?_, ?_, ?_⟩
  · rw [Converted.diagnosticsBesideHandler, hsyntax, hfaults]
    rfl
  · rw [Converted.diagnostics, hsyntax, reports_convert, hfaults, List.map_append, List.map_map,
      List.append_assoc]
    rfl
  · intro handler
    rw [reports_convert, hfaults]

end Convert

end Scad
