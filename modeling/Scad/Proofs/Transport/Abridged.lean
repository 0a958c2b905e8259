import Scad.Proofs.Agreement.Statement
import Scad.Proofs.Nesting
import Scad.Proofs.Reporting
import Scad.Proofs.Transport.Tree

/-!
# Lists of Named Children Left Out

A grammar engine hands over the named children of a node twice, among its children and in a list of
their own.  The list may be left out of the text of a tree.  It is then taken for empty, although
the children tell what it would hold.

The syntax errors of a tree do not depend on it, and nothing does where the list would hold nothing
but comments.  Everywhere else the statements, parts and arguments in it may be lost: of a source
file without its list no statement is left, and nothing is reported.

* `Node.Mirrors` — every list of named children holds the named ones of the children.
* `Correspondence.abridged` — the tree of a shortened text and the whole tree.
* `convertText_abridged` — what is left of the answer.
-/

namespace Scad

/-! ## §1 Trees that list their named children -/

namespace Node

/-- In the node and everywhere inside it, the named children are those of the children that are
named, in order. -/
def Mirrors (n : Node) : Prop :=
  ∀ m : Node, m.Within n → m.named = m.children.filter (·.isNamed)

variable {n c : Node}

namespace Mirrors

theorem of_holds (h : n.Mirrors) (hc : n.Holds c) : c.Mirrors :=
  fun m hm => h m (hm.trans hc.within)

theorem named_eq (h : n.Mirrors) : n.named = n.children.filter (·.isNamed) :=
  h n (.refl n)

theorem intro (h : n.named = n.children.filter (·.isNamed)) (hc : ∀ c, n.Holds c → c.Mirrors) :
    n.Mirrors :=
  forall_within h hc

theorem leaf (hchildren : n.children = []) (hnamed : n.named = []) : n.Mirrors := by
  refine intro (by rw [hchildren, hnamed, List.filter_nil]) fun c hc => ?_
  simp [Holds, hchildren, hnamed] at hc

theorem push (h : n.Mirrors) (hc : c.Mirrors) : (n.push c).Mirrors := by
  apply intro
  · have hnamed := h.named_eq
    cases hisNamed : c.isNamed <;> simp [Node.push, hisNamed, hnamed]
  · intro d hd
    rcases hd.of_push with hd | rfl
    · exact h.of_holds hd
    · exact hc

theorem labelled (h : n.Mirrors) (label : String) : (n.labelled label).Mirrors :=
  intro h.named_eq fun _ hc => h.of_holds hc

end Mirrors

theorem FitsWords.intro (hstart : n.span.start.FitsWords) (hstop : n.span.stop.FitsWords)
    (hc : ∀ c, n.Holds c → c.FitsWords) : n.FitsWords :=
  forall_within ⟨hstart, hstop⟩ hc

theorem FitsWords.labelled (h : n.FitsWords) (label : String) : (n.labelled label).FitsWords :=
  .intro (h n (.refl n)).1 (h n (.refl n)).2 fun _ hc => h.of_holds hc

theorem FitsWords.push (h : n.FitsWords) (hc : c.FitsWords) : (n.push c).FitsWords := by
  obtain ⟨hstart, hstop⟩ := h n (.refl n)
  refine .intro hstart hstop fun d hd => ?_
  rcases hd.of_push with hd | rfl
  · exact h.of_holds hd
  · exact hc

/-! ## §2 What a shortened text still tells -/

theorem listDepth_le_of_sublist {l l' : List Node} (h : l.Sublist l') :
    listDepth l ≤ listDepth l' := by
  induction h with
  | slnil => exact Nat.le_refl _
  | cons c _ ih =>
    rw [listDepth]
    omega
  | cons_cons c _ ih =>
    rw [listDepth, listDepth]
    omega

theorem listDepth_map_fst {l : List Node} {cs : List (Node × Json)}
    (h : List.Forall₂ (fun c (p : Node × Json) => p.1.depth = c.depth) l cs) :
    listDepth (cs.map Prod.fst) = listDepth l := by
  induction h with
  | nil => rfl
  | cons hc _ ih => rw [List.map_cons, listDepth, listDepth, hc, ih]

namespace Abridged

variable {drops : List Node → Prop} {p : Node × Json}

/-- The children are still there. -/
theorem exists_children (h : n.Abridged drops p) :
    ∃ cs, List.Forall₂ (Abridged drops) n.children cs ∧ p.1.children = cs.map Prod.fst := by
  cases h with
  | whole hchildren _ => exact ⟨_, hchildren, rfl⟩
  | cut hchildren _ => exact ⟨_, hchildren, rfl⟩

theorem kind_eq (h : n.Abridged drops p) : p.1.kind = n.kind := by
  cases h <;> rfl

/-- The tree is as deep as before, since the children are as deep as the named ones of them. -/
theorem depth_eq {n : Node} {p : Node × Json} (h : n.Abridged drops p) (hn : n.Mirrors) :
    p.1.depth = n.depth := by
  have hlist {l : List Node} {cs : List (Node × Json)} (hl : ∀ c ∈ l, n.Holds c)
      (hcs : List.Forall₂ (Abridged drops) l cs) :
      listDepth (cs.map Prod.fst) = listDepth l := by
    apply listDepth_map_fst
    refine ((List.forall₂_and_left _ _).mpr ⟨hl, hcs⟩).imp ?_
    rintro c q ⟨hc, hq⟩
    have hsize : sizeOf c < sizeOf n := hc.elim sizeOf_lt_of_mem_children sizeOf_lt_of_mem_named
    exact depth_eq hq (hn.of_holds hc)
  have hnamed : listDepth n.named ≤ listDepth n.children := by
    rw [hn.named_eq]
    exact listDepth_le_of_sublist List.filter_sublist
  cases h with
  | @whole _ cs ns hchildren hnamed' =>
    have hcs := hlist (fun c => .inl) hchildren
    have hns := hlist (fun c => .inr) hnamed'
    rw [Node.depth_eq, Node.depth_eq n, hcs, hns]
  | @cut _ cs hchildren _ =>
    have hcs := hlist (fun c => .inl) hchildren
    have hnil : listDepth [] = 0 := rfl
    rw [Node.depth_eq, Node.depth_eq n, hcs, hnil]
    omega
termination_by sizeOf n

end Abridged

/-- The tree with every list of named children made anew, of the children. -/
def refilled (n : Node) : Node :=
  let children := n.parts.map fun c => refilled c.node
  { n with children, named := children.filter (·.isNamed) }
termination_by sizeOf n
decreasing_by exact c.inside

theorem refilled_eq (n : Node) :
    n.refilled =
      { n with
        children := n.children.map refilled
        named := (n.children.map refilled).filter (·.isNamed) } := by
  rw [refilled, ← n.map_node_parts, List.map_map]
  rfl

/-- The children tell everything: with its lists made anew, the shortened tree is the whole tree. -/
theorem Abridged.refilled_eq {n : Node} {p : Node × Json} (h : n.Abridged drops p)
    (hn : n.Mirrors) : p.1.refilled = n := by
  obtain ⟨cs, hcs, hchildren⟩ := h.exists_children
  have hlist : p.1.children.map refilled = n.children := by
    rw [hchildren, List.map_map, ← List.map_id n.children]
    symm
    apply Correspondence.map_eq_of_forall₂
    refine ((List.forall₂_and_left _ _).mpr ⟨fun c hc => hc, hcs⟩).imp ?_
    rintro c q ⟨hc, hq⟩
    have hsize := sizeOf_lt_of_mem_children hc
    exact (refilled_eq hq (hn.of_holds (.inl hc))).symm
  rw [Node.refilled_eq, hlist, ← hn.named_eq]
  cases n
  cases h <;> rfl
termination_by sizeOf n

end Node

namespace Convert

open Conversion Node

variable {n : Node} {drops : List Node → Prop} {p : Node × Json}

theorem syntaxErrors_eq (width : Nat) (n : Node) :
    syntaxErrors width n =
      if n.isPlaceholder then [syntaxError width n] else n.children.flatMap (syntaxErrors width) := by
  rw [syntaxErrors, recovered_eq]
  split
  · rfl
  · rw [List.map_flatMap]
    rfl

/-- Syntax errors are looked for among the children alone. -/
theorem syntaxErrors_abridged {n : Node} {p : Node × Json} (h : n.Abridged drops p) (width : Nat) :
    syntaxErrors width p.1 = syntaxErrors width n := by
  obtain ⟨cs, hcs, hchildren⟩ := h.exists_children
  have hlist : (cs.map Prod.fst).map (syntaxErrors width) =
      n.children.map (syntaxErrors width) := by
    rw [List.map_map]
    symm
    apply Correspondence.map_eq_of_forall₂
    refine ((List.forall₂_and_left _ _).mpr ⟨fun c hc => hc, hcs⟩).imp ?_
    rintro c q ⟨hc, hq⟩
    have hsize := sizeOf_lt_of_mem_children hc
    exact (syntaxErrors_abridged hq width).symm
  have hself : syntaxError width p.1 = syntaxError width n := by
    cases h <;> rfl
  have hplaceholder : p.1.isPlaceholder = n.isPlaceholder := by
    rw [isPlaceholder, isPlaceholder, h.kind_eq]
  rw [syntaxErrors_eq, syntaxErrors_eq width n, hplaceholder, hself, hchildren,
    List.flatMap_def, hlist, List.flatMap_def]
termination_by sizeOf n

/-- A source file without its list of statements has none, and the run has nothing to report. -/
theorem rootStatements_of_named_eq_nil {root : Node} (hkind : root.kind = .sourceFile)
    (hnamed : root.named = []) : rootStatements root = pure [] := by
  have hsignificant : root.significant = [] := by
    apply List.map_eq_nil_iff.mp
    rw [root.map_node_significant, hnamed, List.filter_nil]
  rw [rootStatements, if_pos (by simp [hkind]), significantStatements, hsignificant]
  rfl

theorem convert_of_named_eq_nil {root : Node} (hkind : root.kind = .sourceFile)
    (hnamed : root.named = []) (settings : Settings) :
    (convert settings root).program = [] ∧
      (convert settings root).diagnostics = syntaxErrors settings.previewWidth root := by
  have hroot := rootStatements_of_named_eq_nil hkind hnamed
  have hprogram : (convert settings root).program = [] := by
    have hresult := result_rootStatements settings root
    rw [hroot] at hresult
    exact (Except.ok.inj hresult).symm
  have hfaults : Program.faults [] = [] := Program.faults_eq_storedFaults []
  refine ⟨hprogram, ?_⟩
  rw [diagnostics_convert, hprogram, hroot, hfaults, List.map_nil, List.append_nil]
  exact List.append_nil _

end Convert

/-! ## §3 Lists that nothing is lost with -/

/-- There is nothing but comments in the list. -/
def Node.OnlyComments (l : List Node) : Prop :=
  ∀ c ∈ l, c.IsPlainComment

/-- The tree of a shortened text and the whole tree, where only comments are left out.  Programs and
reports are compared word by word. -/
def Correspondence.abridged (settings : Settings) : Correspondence where
  Related m n := ∃ j, n.Abridged Node.OnlyComments (m, j)
  shift := {}
  left := settings
  right := settings
  reword := id
  Listens := True
  alike := by
    rintro m n ⟨j, h⟩
    have hlist {l : List Node} {cs : List (Node × Json)}
        (hcs : List.Forall₂ (Node.Abridged Node.OnlyComments) l cs) :
        Interspersed Node.IsPlainComment (fun m n => ∃ j, n.Abridged Node.OnlyComments (m, j))
          (cs.map Prod.fst) l := by
      induction hcs with
      | nil => exact .nil
      | @cons c q _ _ hq _ ih => exact .kept ⟨q.2, hq⟩ ih
    have hcomments {l : List Node} (hl : Node.OnlyComments l) :
        Interspersed Node.IsPlainComment (fun m n => ∃ j, n.Abridged Node.OnlyComments (m, j))
          [] l := by
      induction l with
      | nil => exact .nil
      | cons c l ih =>
        obtain ⟨hc, hl⟩ := List.forall_mem_cons.mp hl
        exact .added hc (ih hl)
    cases h with
    | whole hchildren hnamed => exact ⟨rfl, rfl, rfl, rfl, rfl, hlist hchildren, hlist hnamed⟩
    | cut hchildren hdrops => exact ⟨rfl, rfl, rfl, rfl, rfl, hlist hchildren, hcomments hdrops⟩
  lead := by
    rintro m n ⟨j, h⟩ -
    obtain ⟨cs, hcs, hchildren⟩ := h.exists_children
    left
    rw [Node.SameLead, show m.children = cs.map Prod.fst from hchildren]
    generalize n.children = l at hcs
    cases hcs with
    | nil => exact .none
    | @cons c q _ _ hq _ => exact .some ⟨q.2, hq⟩
  quoting := @quoting_of_id settings
  invalid := @invalid_of_id

namespace Convert

open Conversion Node

variable {n : Node} {p : Node × Json}

theorem program_of_comments (h : n.Abridged OnlyComments p) (settings : Settings) :
    (convert settings p.1).program = (convert settings n).program := by
  have hprogram := program_corresponds (C := .abridged settings) ⟨p.2, h⟩
  have hzero : Statement.retell {} id = id := funext Statement.retell_zero
  simpa only [Correspondence.abridged, hzero, List.map_id] using hprogram

/-- The run over the shortened tree reports the same. -/
theorem reports_of_comments (h : n.Abridged OnlyComments p) (settings : Settings) :
    Handler.collector.reports ((rootStatements p.1).events settings) =
      Handler.collector.reports ((rootStatements n).events settings) := by
  have hagree := rootStatements_corresponds (C := .abridged settings) ⟨p.2, h⟩
  have hreports := hagree.events trivial
  have hsame : ∀ r r', (Correspondence.abridged settings).SameReport r r' → r = r' := by
    intro r r' hr
    have htold : r.retell {} id = r'.retell {} id := hr.told
    rwa [r.retell_zero, r'.retell_zero] at htold
  exact List.forall₂_eq_eq_eq ▸ hreports.imp hsame

/-- Where only comments are left out, the conversion has the same answer. -/
theorem convert_of_comments (h : n.Abridged OnlyComments p) (settings : Settings) :
    (convert settings p.1).program = (convert settings n).program ∧
      (convert settings p.1).diagnostics = (convert settings n).diagnostics := by
  have hprogram := program_of_comments h settings
  refine ⟨hprogram, ?_⟩
  rw [diagnostics_convert, diagnostics_convert, hprogram, reports_of_comments h settings,
    syntaxErrors_abridged h]

/-! ## §4 Shortened texts -/

theorem convertText_of_abridged {drops : List Node → Prop} (hfits : n.FitsWords)
    (hp : n.Abridged drops p) :
    convertText p.2.text =
      if p.1.depth ≤ 63 then .ok (convert {} p.1) else .error .malformed := by
  rw [convertText, hp.read_text hfits, Json.readBack, Json.depthLimit]
  by_cases hdepth : p.1.depth ≤ 63
  · rw [if_pos hdepth, if_pos (by omega)]
    rfl
  · rw [if_neg hdepth, if_neg (by omega)]
    rfl

/-- What is left of the answer to a text of a tree when keys `namedChildren` are left out of it,
anywhere in the text.  The text is refused where the whole text is.  It is otherwise answered as the
tree with empty lists, although the children would tell what the lists hold.  The syntax errors are
those of the tree.  A source file without its list has no statements, and nothing is reported but
syntax errors.  If only lists of comments are left out, and lists without anything, then the answer
is the answer to the whole text. -/
theorem convertText_abridged {drops : List Node → Prop} (hfits : n.FitsWords)
    (hmirrors : n.Mirrors) (hp : n.Abridged drops p) :
    (64 ≤ n.depth → convertText p.2.text = .error .malformed ∧
        convertText n.toJson.text = .error .malformed) ∧
      (n.depth ≤ 63 → convertText p.2.text = .ok (convert {} p.1) ∧
        convertText n.toJson.text = .ok (convert {} n)) ∧
      p.1.refilled = n ∧
      (convert {} p.1).syntaxErrors = (convert {} n).syntaxErrors ∧
      (n.kind = .sourceFile → p.1.named = [] → (convert {} p.1).program = [] ∧
        (convert {} p.1).diagnostics = (convert {} n).syntaxErrors) ∧
      (n.Abridged OnlyComments p → (convert {} p.1).program = (convert {} n).program ∧
        (convert {} p.1).diagnostics = (convert {} n).diagnostics) := by
  have hshort := convertText_of_abridged hfits hp
  have hfull : n.Abridged drops (n, n.toJson) := .refl n
  have hwhole := convertText_of_abridged hfits hfull
  rw [hp.depth_eq hmirrors] at hshort
  have hsyntax := syntaxErrors_abridged hp ({} : Settings).previewWidth
  refine ⟨fun hdepth => ?_, fun hdepth => ?_, hp.refilled_eq hmirrors, hsyntax,
    fun hkind hnamed => ?_, fun hcomments => convert_of_comments hcomments {}⟩
  · have hdeep : ¬n.depth ≤ 63 := by omega
    rw [if_neg hdeep] at hshort hwhole
    exact ⟨hshort, hwhole⟩
  · rw [if_pos hdepth] at hshort hwhole
    exact ⟨hshort, hwhole⟩
  · obtain ⟨hprogram, hdiagnostics⟩ :=
      convert_of_named_eq_nil (hp.kind_eq.trans hkind) hnamed {}
    exact ⟨hprogram, hdiagnostics.trans hsyntax⟩

/-! The two assignments of `twoLines`, written without some of the lists. -/

/-- A node without children, and its text without the empty list. -/
def shortLeaf (n : Node) : Node × Json :=
  (n, .object (Json.leadFields n ++ ("children", .array []) :: Json.lastFields n))

/-- A node whose children are all named, with the texts of the children. -/
def writtenAround (n : Node) (cs : List (Node × Json)) : Node × Json :=
  (n, .object (Json.leadFields n ++
    ("children", .array (cs.map Prod.snd)) ::
      ("namedChildren", .array (cs.map Prod.snd)) :: Json.lastFields n))

/-- The assignments written without the empty lists of their names and values. -/
def shortTwoLines : Node × Json :=
  writtenAround twoLinesTree <| [assignmentAt 0, assignmentAt 5].map fun n =>
    writtenAround n (n.children.map shortLeaf)

/-- The two lines written without the list of statements. -/
def headlessTwoLines : Node × Json :=
  ({ twoLinesTree with named := [] },
    .object (Json.leadFields twoLinesTree ++
      ("children", .array (twoLinesTree.children.map Json.ofNode)) :: Json.lastFields twoLinesTree))

theorem twoLinesTree_mirrors : twoLinesTree.Mirrors := by
  have hassignment (start : Nat) : (assignmentAt start).Mirrors :=
    .push (.push (.leaf rfl rfl) ((Mirrors.leaf rfl rfl).labelled _))
      ((Mirrors.leaf rfl rfl).labelled _)
  exact .push (.push (.leaf rfl rfl) (hassignment 0)) (hassignment 5)

theorem twoLinesTree_fitsWords : twoLinesTree.FitsWords := by
  have hplaces : ∀ offset < 10, (twoLines.position offset).line < Decimal.wordLimit ∧
      (twoLines.position offset).column < Decimal.wordLimit ∧
      (twoLines.position offset).offset < Decimal.wordLimit := by decide +kernel
  have hplace (offset : Nat) (h : offset ≤ twoLines.size) :
      (twoLines.position offset).FitsWords := by
    have hsize : twoLines.size = 9 := by decide
    obtain ⟨hline, hcolumn, hoffset⟩ := hplaces offset (by omega)
    exact ⟨hline, hcolumn, hoffset⟩
  have hnode (tag : String) (start stop : Nat) : (twoLines.node tag start stop true).FitsWords := by
    refine .intro (hplace _ ?_) (hplace _ (Nat.min_le_right _ _)) fun c hc => ?_
    · exact Nat.le_trans (Nat.min_le_right _ _) (Nat.min_le_right _ _)
    · simp [Holds, Text.Source.node] at hc
  have hassignment (start : Nat) : (assignmentAt start).FitsWords :=
    .push (.push (hnode _ _ _) ((hnode _ _ _).labelled _)) ((hnode _ _ _).labelled _)
  exact .push (.push (hnode _ _ _) (hassignment 0)) (hassignment 5)

theorem shortTwoLines_abridged : twoLinesTree.Abridged OnlyComments shortTwoLines := by
  have hempty : OnlyComments [] := fun c hc => nomatch hc
  have hleaf (n : Node) (hchildren : n.children = []) (hnamed : n.named = []) :
      n.Abridged OnlyComments (shortLeaf n) := by
    obtain ⟨tag, text, span, children, named, isNamed, label⟩ := n
    subst hchildren hnamed
    have hlist : List.Forall₂ (Abridged OnlyComments) [] [] := .nil
    exact @Abridged.cut OnlyComments ⟨tag, text, span, [], [], isNamed, label⟩ [] hlist hempty
  have hassignment (start : Nat) : (assignmentAt start).Abridged OnlyComments
      (writtenAround (assignmentAt start) ((assignmentAt start).children.map shortLeaf)) := by
    have hlist : List.Forall₂ (Abridged OnlyComments) (assignmentAt start).children
        ((assignmentAt start).children.map shortLeaf) :=
      .cons (hleaf _ rfl rfl) (.cons (hleaf _ rfl rfl) .nil)
    exact .whole hlist hlist
  have hlist : List.Forall₂ (Abridged OnlyComments) twoLinesTree.children
      ([assignmentAt 0, assignmentAt 5].map fun n =>
        writtenAround n (n.children.map shortLeaf)) :=
    .cons (hassignment 0) (.cons (hassignment 5) .nil)
  exact .whole hlist hlist

theorem headlessTwoLines_abridged : twoLinesTree.Abridged (fun _ => True) headlessTwoLines := by
  have hlist : List.Forall₂ (Abridged fun _ => True) twoLinesTree.children
      (twoLinesTree.children.map fun c => (c, Json.ofNode c)) := by
    rw [List.forall₂_map_right_iff, List.forall₂_same]
    exact fun c _ => .refl c
  exact .cut hlist trivial

theorem convertText_abridged_twoLines :
    twoLinesTree.FitsWords ∧ twoLinesTree.Mirrors ∧
      twoLinesTree.Abridged OnlyComments shortTwoLines ∧ twoLinesTree.depth = 3 ∧
      convertText shortTwoLines.2.text = .ok (convert {} shortTwoLines.1) ∧
      (convert {} shortTwoLines.1).program = (convert {} twoLinesTree).program := by
  have h := convertText_abridged twoLinesTree_fitsWords twoLinesTree_mirrors shortTwoLines_abridged
  have hdepth : twoLinesTree.depth = 3 := rfl
  exact ⟨twoLinesTree_fitsWords, twoLinesTree_mirrors, shortTwoLines_abridged, hdepth,
    (h.2.1 (by omega)).1, (h.2.2.2.2.2 shortTwoLines_abridged).1⟩

/-- Without the list of statements, both assignments are lost, and nothing is said about it. -/
theorem statements_lost_twoLines :
    twoLinesTree.FitsWords ∧ twoLinesTree.Mirrors ∧
      twoLinesTree.Abridged (fun _ => True) headlessTwoLines ∧
      (convertText headlessTwoLines.2.text).map (fun c => (c.program.length, c.diagnostics)) =
        .ok (0, []) ∧
      (convertText twoLinesTree.toJson.text).map (fun c => (c.program.length, c.diagnostics)) =
        .ok (2, []) := by
  have hshort := convertText_of_abridged twoLinesTree_fitsWords headlessTwoLines_abridged
  have hfull : twoLinesTree.Abridged (fun _ => True) (twoLinesTree, twoLinesTree.toJson) := .refl _
  have hwhole := convertText_of_abridged twoLinesTree_fitsWords hfull
  refine ⟨twoLinesTree_fitsWords, twoLinesTree_mirrors, headlessTwoLines_abridged, ?_, ?_⟩
  · rw [hshort]
    decide +kernel
  · rw [hwhole]
    decide +kernel

end Convert

end Scad
