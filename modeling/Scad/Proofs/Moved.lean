import Scad.Proofs.Agreement.Statement
import Scad.Proofs.Reporting

/-!
# Moved Trees

A conversion compares where the parts of a tree stand, but only with one another.  A tree that
stands some rows further down, behind some more bytes, is converted as it would be at its old place:
its program and its diagnostics are moved as far, and are otherwise what they were.

* `Node.shift` — a tree with every span moved.
* `Correspondence.moved` — a tree and the moved tree, as the two sides of a comparison.
* `convert_shift` — conversion commutes with moving.
-/

namespace Scad

/-! ## §1 What is moved -/

namespace Node

/-- The tree with every span moved. -/
def shift (d : Shift) (n : Node) : Node :=
  { n with
    span := n.span.shift d
    children := n.parts.map fun c => shift d c.node
    named := n.namedParts.map fun c => shift d c.node }
termination_by sizeOf n
decreasing_by all_goals exact c.inside

variable {d : Shift}

theorem shift_eq (n : Node) :
    n.shift d =
      { n with
        span := n.span.shift d
        children := n.children.map (shift d)
        named := n.named.map (shift d) } := by
  rw [shift, ← n.map_node_parts, ← n.map_node_namedParts, List.map_map, List.map_map]
  rfl

@[simp] theorem tag_shift (n : Node) : (n.shift d).tag = n.tag := by
  rw [shift_eq]

@[simp] theorem text_shift (n : Node) : (n.shift d).text = n.text := by
  rw [shift_eq]

@[simp] theorem span_shift (n : Node) : (n.shift d).span = n.span.shift d := by
  rw [shift_eq]

@[simp] theorem children_shift (n : Node) : (n.shift d).children = n.children.map (shift d) := by
  rw [shift_eq]

@[simp] theorem named_shift (n : Node) : (n.shift d).named = n.named.map (shift d) := by
  rw [shift_eq]

@[simp] theorem isMissing_shift (n : Node) : (n.shift d).isMissing = n.isMissing := by
  simp [isMissing, kind]

@[simp] theorem isPlaceholder_shift (n : Node) :
    (n.shift d).isPlaceholder = n.isPlaceholder := by
  simp [isPlaceholder, kind]

/-- The moved node says the same of its new place. -/
theorem alike_shift (n : Node) : n.Alike (fun m m' => m' = m.shift d) d (n.shift d) := by
  have hlist (l : List Node) :
      Interspersed IsPlainComment (fun m m' => m' = m.shift d) l (l.map (shift d)) := by
    induction l with
    | nil => exact .nil
    | cons m l ih => exact .kept rfl ih
  constructor
  · exact n.tag_shift
  · exact n.text_shift
  · exact n.span_shift
  · rw [shift_eq]
  · rw [shift_eq]
  · rw [children_shift]
    exact hlist n.children
  · rw [named_shift]
    exact hlist n.named

end Node

/-- The diagnostic at its new place. -/
def Diagnostic.shift (d : Shift) (g : Diagnostic) : Diagnostic :=
  { g with span := g.span.shift d }

/-- A tree and the same tree moved, converted under the same settings.  Programs and reports are
compared word by word. -/
def Correspondence.moved (d : Shift) (settings : Settings) : Correspondence where
  Related n n' := n' = n.shift d
  shift := d
  left := settings
  right := settings
  reword := id
  Listens := True
  alike := by
    rintro n n' rfl
    exact n.alike_shift
  lead := by
    rintro n n' rfl -
    left
    rw [Node.SameLead, Node.children_shift, List.head?_map]
    cases n.children.head? with
    | none => exact .none
    | some first => exact .some rfl
  quoting := @quoting_of_id settings
  invalid := @invalid_of_id

theorem Correspondence.related_shift (d : Shift) (settings : Settings) (n : Node) :
    (moved d settings).Related n (n.shift d) :=
  rfl

/-! ## §2 Faults and syntax errors -/

section Faults

variable {d : Shift} {reword : String → String}

theorem Statement.parts_retell (s : Statement) :
    (s.retell d reword).parts = s.parts.map (Statement.retell d reword) := by
  cases s with
  | assertion _ _ body _ | assign _ body _ | echo _ body _ =>
    cases body <;> simp [Statement.retell, parts]
  | branch _ _ alternative _ => cases alternative <;> simp [Statement.retell, parts]
  | _ => simp [Statement.retell, parts]

theorem Statement.preorder_retell (s : Statement) :
    (s.retell d reword).preorder = s.preorder.map (Statement.retell d reword) := by
  rw [preorder_eq, s.preorder_eq, parts_retell, List.map_cons, List.map_flatMap, List.flatMap_map]
  congr 1
  apply List.flatMap_congr
  intro t ht
  exact preorder_retell t
termination_by sizeOf s
decreasing_by exact Statement.sizeOf_lt_of_mem_parts ht

theorem Statement.fault?_retell (s : Statement) :
    (s.retell d reword).fault? = s.fault?.map (Fault.retell d reword) := by
  cases s <;> rfl

/-- The faults of a program told again are its faults, told again. -/
theorem Program.faults_retell (program : Program) :
    Program.faults (program.map (Statement.retell d reword)) =
      program.faults.map (Fault.retell d reword) := by
  simp only [faults_eq_storedFaults, storedFaults, List.flatMap_map, List.filterMap_flatMap,
    List.map_flatMap]
  apply List.flatMap_congr
  intro s _
  rw [s.preorder_retell, List.filterMap_map, List.map_filterMap]
  apply List.filterMap_congr
  intro t _
  exact t.fault?_retell

theorem Report.retell_ofFault (f : Fault) :
    Report.ofFault (f.retell d reword) = (Report.ofFault f).retell d reword := by
  obtain ⟨code, message, tag, text, span, _ | inner⟩ := f <;> rfl

/-- A report that has a place is shown there. -/
theorem Report.toDiagnostic_retell {r : Report} (h : r.span.isSome) :
    (r.retell d id).toDiagnostic = r.toDiagnostic.shift d := by
  obtain ⟨span, hspan⟩ := Option.isSome_iff_exists.mp h
  simp [toDiagnostic, retell, Diagnostic.shift, hspan]

end Faults

namespace Convert

variable {d : Shift}

theorem recovered_shift (n : Node) : recovered (n.shift d) = (recovered n).map (Node.shift d) := by
  rw [recovered_eq, recovered_eq n, Node.isPlaceholder_shift, Node.children_shift]
  split
  · rfl
  · rw [List.flatMap_map, List.map_flatMap]
    apply List.flatMap_congr
    intro c hc
    exact recovered_shift c
termination_by sizeOf n
decreasing_by exact Node.sizeOf_lt_of_mem_children hc

theorem syntaxError_shift (width : Nat) (n : Node) :
    syntaxError width (n.shift d) = (syntaxError width n).shift d := by
  cases hmissing : n.isMissing <;> simp [syntaxError, hmissing, Diagnostic.shift]

theorem syntaxErrors_shift (width : Nat) (root : Node) :
    syntaxErrors width (root.shift d) = (syntaxErrors width root).map (Diagnostic.shift d) := by
  rw [syntaxErrors, syntaxErrors, recovered_shift, List.map_map, List.map_map]
  apply List.map_congr_left
  intro n _
  exact syntaxError_shift width n

/-! ## §3 Conversion of a moved tree -/

theorem program_shift (settings : Settings) (root : Node) :
    (convert settings (root.shift d)).program =
      (convert settings root).program.map (Statement.retell d id) := by
  have hprogram := program_corresponds (Correspondence.related_shift d settings root)
  have hzero : Statement.retell {} id = id := funext Statement.retell_zero
  simp only [Correspondence.moved, hzero, List.map_id] at hprogram
  exact hprogram.symm

/-- What the faults of a program are shown as moves with the program. -/
theorem faultDiagnostics_shift (settings : Settings) (root : Node) :
    ((convert settings (root.shift d)).program.faults.map fun f =>
        (Report.ofFault f).toDiagnostic) =
      ((convert settings root).program.faults.map fun f =>
        (Report.ofFault f).toDiagnostic).map (Diagnostic.shift d) := by
  rw [program_shift, Program.faults_retell, List.map_map, List.map_map]
  apply List.map_congr_left
  intro f _
  show (Report.ofFault (f.retell d id)).toDiagnostic = (Report.ofFault f).toDiagnostic.shift d
  rw [Report.retell_ofFault, Report.toDiagnostic_retell rfl]

/-- What the run reports on its way moves with the tree, as every report has a place. -/
theorem runDiagnostics_shift (settings : Settings) (root : Node) :
    (Handler.collector.reports ((rootStatements (root.shift d)).events settings)).map
        Report.toDiagnostic =
      ((Handler.collector.reports ((rootStatements root).events settings)).map
        Report.toDiagnostic).map (Diagnostic.shift d) := by
  have hagree := rootStatements_corresponds (Correspondence.related_shift d settings root)
  have hreports := hagree.events trivial
  rw [List.map_map]
  symm
  apply Correspondence.map_eq_of_forall₂
  apply hreports.imp
  intro r r' h
  have htold : r.retell d id = r'.retell {} id := h.told
  show r.toDiagnostic.shift d = r'.toDiagnostic
  rw [← r'.retell_zero, ← htold, Report.toDiagnostic_retell h.placed]

/-- Conversion depends on relative positions only.  A tree that is moved by some rows and some bytes
has the program that it had and the diagnostics that it had, for a caller with a handler of its own
as for one without.  Every span in them is moved as far, those of names, of faults and of their
causes included, and nothing else is changed. -/
theorem convert_shift (settings : Settings) (root : Node) (d : Shift) :
    (convert settings (root.shift d)).program =
        (convert settings root).program.map (Statement.retell d id) ∧
      (convert settings (root.shift d)).diagnostics =
        (convert settings root).diagnostics.map (Diagnostic.shift d) ∧
      (convert settings (root.shift d)).diagnosticsBesideHandler =
        (convert settings root).diagnosticsBesideHandler.map (Diagnostic.shift d) := by
  have hsyntax : (convert settings (root.shift d)).syntaxErrors =
      (convert settings root).syntaxErrors.map (Diagnostic.shift d) :=
    syntaxErrors_shift settings.previewWidth root
  have hfaults := faultDiagnostics_shift (d := d) settings root
  refine ⟨program_shift settings root, ?_, ?_⟩
  · have hrun := runDiagnostics_shift (d := d) settings root
    simp only [Converted.diagnostics, reports_convert, List.map_append, hsyntax, hrun]
    congr 2
    simpa only [List.map_map, Function.comp_def] using hfaults
  · simp only [Converted.diagnosticsBesideHandler, hsyntax, List.map_append, hfaults]

end Convert

end Scad
