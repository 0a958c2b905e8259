import Scad.Proofs.Moved

/-!
# Settings and Wording

The settings of a conversion decide in what words it speaks, and nothing else.  Two conversions of
one tree under different settings give the same program and the same diagnostics, but for messages.

* `Statement.wordless`, `Diagnostic.wordless` — what is left of them without messages.
* `Correspondence.settings` — a tree and itself, under two settings.
* `convert_wordless` — nothing but a message depends on the settings.
-/

namespace Scad

/-! ## §1 Without words -/

/-- The statement without the messages of its faults, nor those of their causes. -/
def Statement.wordless (s : Statement) : Statement :=
  s.retell {} fun _ => ""

/-- The fault without its message, nor those of its causes. -/
def Fault.wordless (f : Fault) : Fault :=
  f.retell {} fun _ => ""

/-- The diagnostic without its message. -/
def Diagnostic.wordless (g : Diagnostic) : Diagnostic :=
  { g with message := "" }

/-- Faults that differ in words only are shown as diagnostics that differ in words only. -/
theorem Report.toDiagnostic_wordless (r : Report) :
    (r.retell {} fun _ => "").toDiagnostic = r.toDiagnostic.wordless := by
  obtain ⟨message, line, column, tag, severity, code, _ | span⟩ := r <;> rfl

theorem Report.toDiagnostic_ofFault_wordless (f : Fault) :
    (Report.ofFault f.wordless).toDiagnostic = (Report.ofFault f).toDiagnostic.wordless := by
  rw [Fault.wordless, Report.retell_ofFault, Report.toDiagnostic_wordless]

/-- A node says what it says itself. -/
theorem Node.alike_of_eq {n n' : Node} (h : n = n') : n.Alike Eq {} n' := by
  subst h
  exact ⟨rfl, rfl, n.span.shift_zero.symm, rfl, rfl, .refl _, .refl _⟩

/-- A tree and itself, converted under two settings.  Programs and reports are compared without
their messages. -/
def Correspondence.settings (s t : Settings) : Correspondence where
  Related := Eq
  shift := {}
  left := s
  right := t
  reword _ := ""
  Listens := True
  alike := @Node.alike_of_eq
  lead := by
    rintro n _ rfl -
    exact .inl (Option.Rel.refl _)
  quoting _ _ := rfl
  invalid _ := fun _ => rfl

namespace Convert

variable (s t : Settings) (root : Node)

/-! ## §2 Two settings -/

theorem program_wordless :
    (convert s root).program.map Statement.wordless =
      (convert t root).program.map Statement.wordless :=
  program_corresponds (C := .settings s t) (rfl : root = root)

/-- The faults of both programs are shown alike. -/
theorem faultDiagnostics_wordless :
    ((convert s root).program.faults.map fun f =>
        (Report.ofFault f).toDiagnostic).map Diagnostic.wordless =
      ((convert t root).program.faults.map fun f =>
        (Report.ofFault f).toDiagnostic).map Diagnostic.wordless := by
  have hshown (program : Program) :
      (program.faults.map fun f => (Report.ofFault f).toDiagnostic).map Diagnostic.wordless =
        (Program.faults (program.map Statement.wordless)).map fun f =>
          (Report.ofFault f).toDiagnostic := by
    rw [show Statement.wordless = Statement.retell {} (fun _ => "") from rfl,
      Program.faults_retell, List.map_map, List.map_map]
    apply List.map_congr_left
    intro f _
    exact (Report.toDiagnostic_ofFault_wordless f).symm
  rw [hshown, hshown, program_wordless s t]

/-- Both runs report the same on their way. -/
theorem runDiagnostics_wordless :
    ((Handler.collector.reports ((rootStatements root).events s)).map
        Report.toDiagnostic).map Diagnostic.wordless =
      ((Handler.collector.reports ((rootStatements root).events t)).map
        Report.toDiagnostic).map Diagnostic.wordless := by
  have hagree := rootStatements_corresponds (C := .settings s t) (rfl : root = root)
  have hreports := hagree.events trivial
  rw [List.map_map, List.map_map]
  apply Correspondence.map_eq_of_forall₂
  apply hreports.imp
  intro r r' h
  have htold : (r.retell {} fun _ => "") = r'.retell {} fun _ => "" := h.told
  show r.toDiagnostic.wordless = r'.toDiagnostic.wordless
  rw [← r.toDiagnostic_wordless, htold, r'.toDiagnostic_wordless]

/-- The syntax errors are about the same nodes: settings tell how much of a text is quoted. -/
theorem syntaxErrors_wordless :
    (syntaxErrors s.previewWidth root).map Diagnostic.wordless =
      (syntaxErrors t.previewWidth root).map Diagnostic.wordless := by
  rw [syntaxErrors, syntaxErrors, List.map_map, List.map_map]
  apply List.map_congr_left
  intro n _
  cases hmissing : n.isMissing <;> simp [syntaxError, hmissing, Diagnostic.wordless]

/-- Settings only affect wording.  Under any two settings, those that `Settings.check` admits and
all others, a tree has the same program but for the messages of faults and of their causes: the same
statements, and faults with the same codes, tags, texts and spans.  It has the same diagnostics but
for their messages, in the same order, with the same severities, codes, spans and hints, for a
caller without a handler and for one with a handler of its own. -/
theorem convert_wordless :
    (convert s root).program.map Statement.wordless =
        (convert t root).program.map Statement.wordless ∧
      (convert s root).diagnostics.map Diagnostic.wordless =
        (convert t root).diagnostics.map Diagnostic.wordless ∧
      (convert s root).diagnosticsBesideHandler.map Diagnostic.wordless =
        (convert t root).diagnosticsBesideHandler.map Diagnostic.wordless := by
  have hsyntax := syntaxErrors_wordless s t root
  have hfaults := faultDiagnostics_wordless s t root
  refine ⟨program_wordless s t root, ?_, ?_⟩
  · have hrun := runDiagnostics_wordless s t root
    rw [diagnostics_convert, diagnostics_convert, List.map_append, List.map_append,
      List.map_append, List.map_append, hsyntax, hrun, hfaults]
  · have hbeside (settings : Settings) : (convert settings root).diagnosticsBesideHandler =
        syntaxErrors settings.previewWidth root ++
          (convert settings root).program.faults.map fun f =>
            (Report.ofFault f).toDiagnostic := rfl
    rw [hbeside, hbeside, List.map_append, List.map_append, hsyntax, hfaults]

end Convert

end Scad
