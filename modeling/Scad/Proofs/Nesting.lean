import Mathlib.Data.List.Chain
import Scad.Proofs.Provenance.Statement
import Scad.Tree.Layout

/-!
# Nesting of Programs

In a tree that is laid out over one source, a node encloses what it holds, and the nodes of a list
follow one another.  A program keeps that order: every view encloses what stands inside it, and the
statements of the program follow one another as their nodes do.

* `Node.LaidOut` — the layout that is asked of a tree.
* `View.NestedIn` — the nesting of a view, which the rules of `Node.Yields` preserve.
* `convert_nested` — the nesting of whole programs.
-/

namespace Scad

open Text (Source)

/-! ## §1 The layout of a tree -/

/-- Where a relation can be followed through every element of a list, each element of a chain is
related to all behind it. -/
theorem pairwise_of_isChain {α : Type} {R : α → α → Prop} {l : List α}
    (htrans : ∀ b ∈ l, ∀ a c, R a b → R b c → R a c) (hchain : l.IsChain R) : l.Pairwise R := by
  induction l with
  | nil => exact .nil
  | cons a l ih =>
    obtain ⟨-, hrest⟩ := List.forall_mem_cons.mp htrans
    have hpairwise := ih hrest (List.isChain_of_isChain_cons hchain)
    refine .cons (fun b hb => ?_) hpairwise
    cases l with
    | nil => cases hb
    | cons c l =>
      have hac := (List.isChain_cons_cons.mp hchain).1
      rcases List.mem_cons.mp hb with rfl | hb
      · exact hac
      · exact hrest c List.mem_cons_self a b hac ((List.pairwise_cons.mp hpairwise).1 b hb)

/-- The node covers bytes of the source, and so does what it holds, inside of it and one after the
other. -/
structure Node.StandsOver (s : Source) (n : Node) : Prop where
  start_eq : n.span.start = s.position n.startByte
  stop_eq : n.span.stop = s.position n.stopByte
  start_le_stop : n.startByte ≤ n.stopByte
  inside : ∀ c, n.Holds c → n.startByte ≤ c.startByte ∧ c.stopByte ≤ n.stopByte
  children_apart : n.children.IsChain fun a b => a.stopByte ≤ b.startByte
  named_apart : n.named.IsChain fun a b => a.stopByte ≤ b.startByte

/-- Every node of the tree stands over the same source. -/
def Node.LaidOut (s : Source) (root : Node) : Prop :=
  ∀ n : Node, n.Within root → n.StandsOver s

namespace Node.LaidOut

variable {s : Source} {m n root : Node}

/-- The layout of a tree, one level at a time. -/
theorem of_holds (hroot : root.StandsOver s) (hheld : ∀ c, root.Holds c → c.LaidOut s) :
    root.LaidOut s :=
  forall_within hroot hheld

theorem mono (h : root.LaidOut s) (hn : n.Within root) : n.LaidOut s :=
  fun m hm => h m (hm.trans hn)

theorem bytes_of_within (h : n.LaidOut s) (hm : m.Within n) :
    n.startByte ≤ m.startByte ∧ m.stopByte ≤ n.stopByte := by
  induction hm with
  | refl => exact ⟨Nat.le_refl _, Nat.le_refl _⟩
  | step hc _ ih =>
    have hinner := ih (h.mono hc.within)
    have houter := (h _ (.refl _)).inside _ hc
    omega

/-- A span that reaches over all bytes of a node encloses the node. -/
theorem encloses_of_bytes (hn : n.StandsOver s) (hm : m.StandsOver s)
    (hstart : n.startByte ≤ m.startByte) (hstop : m.stopByte ≤ n.stopByte) :
    n.span.encloses m.span = true := by
  rw [Span.encloses_iff, hn.start_eq, hn.stop_eq, hm.start_eq, hm.stop_eq]
  exact ⟨s.position_mono hstart, s.position_mono hstop⟩

/-- A node encloses everything in its subtree. -/
theorem encloses (h : n.LaidOut s) (hm : m.Within n) : n.span.encloses m.span = true := by
  obtain ⟨hstart, hstop⟩ := h.bytes_of_within hm
  exact encloses_of_bytes (h n (.refl n)) (h m hm) hstart hstop

/-- Of the named children, any two stand one after the other. -/
theorem named_pairwise (h : n.LaidOut s) :
    n.named.Pairwise fun a b => a.stopByte ≤ b.startByte := by
  refine pairwise_of_isChain (fun c hc a b hac hcb => ?_) (h n (.refl n)).named_apart
  have hordered := (h c (Holds.within (.inr hc))).start_le_stop
  omega

end Node.LaidOut

/-! Trees that are built over a source are laid out, as long as every child is put inside its parent
and behind its siblings. -/

theorem Node.laidOut_node (s : Source) (tag : String) (start stop : Nat) (isNamed : Bool) :
    (s.node tag start stop isNamed).LaidOut s := by
  refine .of_holds ⟨rfl, rfl, ?_, ?_, .nil, .nil⟩ ?_
  · exact Nat.min_le_right _ _
  · rintro c (hc | hc) <;> cases hc
  · rintro c (hc | hc) <;> cases hc

namespace Node.LaidOut

variable {s : Source} {n c : Node}

theorem labelled (h : n.LaidOut s) (label : String) : (n.labelled label).LaidOut s := by
  have hself := h n (.refl n)
  exact .of_holds ⟨hself.start_eq, hself.stop_eq, hself.start_le_stop, hself.inside,
    hself.children_apart, hself.named_apart⟩ fun c (hc : n.Holds c) => h.mono hc.within

theorem push (h : n.LaidOut s) (hc : c.LaidOut s) (hstart : n.startByte ≤ c.startByte)
    (hstop : c.stopByte ≤ n.stopByte)
    (hchildren : ∀ a ∈ n.children.getLast?, a.stopByte ≤ c.startByte)
    (hnamed : ∀ a ∈ n.named.getLast?, a.stopByte ≤ c.startByte) : (n.push c).LaidOut s := by
  have hself := h n (.refl n)
  refine .of_holds ⟨hself.start_eq, hself.stop_eq, hself.start_le_stop, fun d hd => ?_, ?_, ?_⟩
    fun d hd => ?_
  · rcases hd.of_push with hd | rfl
    · exact hself.inside d hd
    · exact ⟨hstart, hstop⟩
  · refine List.isChain_append.mpr ⟨hself.children_apart, .singleton c, fun a ha b hb => ?_⟩
    obtain rfl : c = b := Option.some.inj hb
    exact hchildren a ha
  · unfold Node.push
    dsimp only
    split
    · refine List.isChain_append.mpr ⟨hself.named_apart, .singleton c, fun a ha b hb => ?_⟩
      obtain rfl : c = b := Option.some.inj hb
      exact hnamed a ha
    · exact hself.named_apart
  · rcases hd.of_push with hd | rfl
    · exact h.mono hd.within
    · exact hc

end Node.LaidOut

/-! ## §2 Nested views -/

/-- Whether a span starts no later than it stops. -/
def Span.Ordered (s : Span) : Prop :=
  s.stop.before s.start = false

theorem Span.Ordered.of_encloses {s t : Span} (ht : t.Ordered) (h : s.encloses t = true) :
    s.Ordered := by
  rw [encloses_iff] at h
  exact Position.not_before_trans (Position.not_before_trans h.1 ht) h.2

/-- The view stands inside the span, and so it goes on inside the view: with its name, and with
everything that stands in it. -/
inductive View.NestedIn : Span → View → Prop where
  | intro {outer : Span} {v : View} (hspan : outer.encloses v.span = true)
      (hordered : v.span.Ordered)
      (hname : ∀ s, v.nameSpan? = some s → v.span.encloses s = true)
      (hchildren : ∀ c ∈ v.children, View.NestedIn v.span c) : View.NestedIn outer v

namespace View.NestedIn

variable {s t : Span} {v w : View}

theorem encloses (h : v.NestedIn s) : s.encloses v.span = true := by
  cases h with
  | intro hspan _ _ _ => exact hspan

theorem ordered (h : v.NestedIn s) : v.span.Ordered := by
  cases h with
  | intro _ hordered _ _ => exact hordered

theorem children (h : v.NestedIn s) : ∀ c ∈ v.children, c.NestedIn v.span := by
  cases h with
  | intro _ _ _ hchildren => exact hchildren

theorem mono (hts : s.encloses t = true) (h : v.NestedIn t) : v.NestedIn s := by
  cases h with
  | intro hspan hordered hname hchildren =>
    exact .intro (Span.encloses_trans hts hspan) hordered hname hchildren

/-- Everything inside a nested view is nested. -/
theorem of_mem_preorder (h : v.NestedIn s) (hw : w ∈ v.preorder) : ∃ t, w.NestedIn t := by
  induction h with
  | intro hspan hordered hname hchildren ih =>
    rw [preorder_eq] at hw
    rcases List.mem_cons.mp hw with rfl | hw
    · exact ⟨_, .intro hspan hordered hname hchildren⟩
    · obtain ⟨c, hc, hw⟩ := List.mem_flatMap.mp hw
      exact ih c hc hw

end View.NestedIn

/-! ## §3 The rules preserve nesting -/

theorem Node.LaidOut.ordered {s : Source} {n : Node} (h : n.LaidOut s) : n.span.Ordered := by
  have hself := h n (.refl n)
  rw [Span.Ordered, hself.start_eq, hself.stop_eq]
  exact s.position_mono hself.start_le_stop

/-- Whatever is made of the syntax of a node is nested in the node. -/
theorem Node.Yields.nestedIn {s : Source} {n : Node} {v : View} (h : n.Yields v)
    (hn : n.LaidOut s) : v.NestedIn n.span := by
  induction h with
  | made hspan hname _ ih =>
    refine .intro (hspan ▸ Span.encloses_refl _) (hspan ▸ hn.ordered) (fun t ht => ?_)
      fun c hc => hspan ▸ ih c hc hn
    obtain ⟨m, hm, rfl⟩ := hname t ht
    exact hspan ▸ hn.encloses hm
  | within hm _ ih => exact (ih (hn.mono hm)).mono (hn.encloses hm)
  | @loop iterator range n name value hiterator hrange _ ih =>
    have hleft := Span.merge_encloses_left iterator.span range.span
    refine .intro (Span.encloses_merge (hn.encloses hiterator) (hn.encloses hrange))
      ((hn.mono hiterator).ordered.of_encloses hleft) (fun t ht => ?_) ?_
    · obtain rfl : iterator.span = t := Option.some.inj ht
      exact hleft
    · refine List.forall_mem_singleton.mpr ?_
      exact (ih (hn.mono hrange)).mono (Span.merge_encloses_right iterator.span range.span)
  | @modified modifier target n kind child hmodifier htarget _ ih =>
    have hleft := Span.merge_encloses_left modifier.span target.span
    refine .intro (Span.encloses_merge (hn.encloses hmodifier) (hn.encloses htarget))
      ((hn.mono hmodifier).ordered.of_encloses hleft) (fun _ h => nomatch h) ?_
    refine List.forall_mem_singleton.mpr ?_
    exact (ih (hn.mono htarget)).mono (Span.merge_encloses_right modifier.span target.span)
  | @beside modifier target n kind child hlist hstop _ ih =>
    have hmodifier : modifier.Within n := Node.Holds.within (.inr (hlist.subset (by simp)))
    have htarget : target.Within n := Node.Holds.within (.inr (hlist.subset (by simp)))
    -- The statement behind the modifier starts where the modifier stops, and is empty.
    have hafter : modifier.stopByte ≤ target.startByte := by
      have hpair := hn.named_pairwise.sublist hlist
      exact (List.pairwise_cons.mp hpair).1 target List.mem_cons_self
    have hordered := (hn modifier hmodifier).start_le_stop
    refine .intro (hn.encloses hmodifier) (hn.mono hmodifier).ordered (fun _ h => nomatch h) ?_
    refine List.forall_mem_singleton.mpr ((ih (hn.mono htarget)).mono ?_)
    exact Node.LaidOut.encloses_of_bytes (hn modifier hmodifier) (hn target htarget)
      (by omega) hstop

/-! ## §4 Programs -/

/-- The views of a program are made of nodes of the tree, one node for each, which follow one
another. -/
theorem Convert.exists_nodes_of_views {s : Source} {root : Node} (h : root.LaidOut s)
    (settings : Settings) :
    ∃ ms : List Node, (∀ m ∈ ms, m.Within root) ∧
      (ms.Pairwise fun a b => a.stopByte ≤ b.startByte) ∧
      List.Forall₂ Node.Yields ms (Convert.convert settings root).program.views := by
  have hmeets := Convert.rootStatements_meets root settings
  have hprogram : (Convert.convert settings root).program =
    ((Convert.rootStatements root).result settings).toOption.getD [] := rfl
  rw [hprogram]
  cases hresult : (Convert.rootStatements root).result settings with
  | error f => exact ⟨[], List.forall_mem_nil _, .nil, .nil⟩
  | ok ss =>
    rw [hresult] at hmeets
    obtain ⟨ms, hms, hyields⟩ := hmeets
    refine ⟨ms, fun m hm => ?_, ?_, List.forall₂_map_right_iff.mpr hyields⟩
    · rcases hms with hms | hms
      · obtain rfl := List.mem_singleton.mp (hms.subset hm)
        exact .refl m
      · exact Node.Holds.within (.inr (hms.subset hm))
    · rcases hms with hms | hms
      · exact (List.pairwise_singleton _ root).sublist hms
      · exact h.named_pairwise.sublist hms

/-- Views that are made of nodes which follow one another start in the order of the nodes. -/
theorem View.pairwise_of_nodes {s : Source} {root : Node} (h : root.LaidOut s) {ms : List Node}
    {vs : List View} (hms : ∀ m ∈ ms, m.Within root)
    (hpairwise : ms.Pairwise fun a b => a.stopByte ≤ b.startByte)
    (hyields : List.Forall₂ Node.Yields ms vs) :
    vs.Pairwise fun v w => w.span.start.before v.span.start = false := by
  induction hyields with
  | nil => exact .nil
  | @cons m v ms vs hv hvs ih =>
    obtain ⟨hm, hms⟩ := List.forall_mem_cons.mp hms
    obtain ⟨hfirst, hrest⟩ := List.pairwise_cons.mp hpairwise
    refine .cons (fun w hw => ?_) (ih hms hrest)
    obtain ⟨m', hm', hw⟩ := Conversion.Meets.exists_of_forall₂ hvs w hw
    have hnested := hv.nestedIn (h.mono hm)
    have hnested' := hw.nestedIn (h.mono (hms m' hm'))
    -- start of `v`, stop of `v`, stop of its node, start of the other node, start of `w`
    have hstops := (Span.encloses_iff.mp hnested.encloses).2
    have hstarts := (Span.encloses_iff.mp hnested'.encloses).1
    have hnodes : m'.span.start.before m.span.stop = false := by
      rw [(h m hm).stop_eq, (h m' (hms m' hm')).start_eq]
      exact s.position_mono (hfirst m' hm')
    exact Position.not_before_trans hnested.ordered <| Position.not_before_trans hstops <|
      Position.not_before_trans hnodes hstarts

/-- The program of a tree that is laid out over a source is nested as the tree is: every view
encloses what stands directly inside it, the root encloses every statement, and the statements
start in the order of the source. -/
theorem Convert.convert_nested (s : Source) (root : Node) (h : root.LaidOut s)
    (settings : Settings) :
    (∀ v ∈ (convert settings root).program.preorder, ∀ c ∈ v.children,
        v.span.encloses c.span = true) ∧
      (∀ v ∈ (convert settings root).program.views, root.span.encloses v.span = true) ∧
      (convert settings root).program.views.Pairwise
        fun v w => w.span.start.before v.span.start = false := by
  obtain ⟨ms, hms, hpairwise, hyields⟩ := exists_nodes_of_views h settings
  have hnested : ∀ v ∈ (convert settings root).program.views, v.NestedIn root.span := by
    intro v hv
    obtain ⟨m, hm, hv⟩ := Conversion.Meets.exists_of_forall₂ hyields v hv
    exact (hv.nestedIn (h.mono (hms m hm))).mono (h.encloses (hms m hm))
  refine ⟨fun v hv c hc => ?_, fun v hv => (hnested v hv).encloses, ?_⟩
  · obtain ⟨w, hw, hv⟩ := List.mem_flatMap.mp hv
    obtain ⟨outer, hv⟩ := (hnested w hw).of_mem_preorder hv
    exact (hv.children c hc).encloses
  · exact View.pairwise_of_nodes h hms hpairwise hyields

/-! A source of two lines with an assignment on each. -/

/-- Two assignments on two lines. -/
def Convert.twoLines : Source :=
  .ofText "a=1;\nb=2;"

/-- An assignment statement of four bytes. -/
def Convert.assignmentAt (start : Nat) : Node :=
  ((twoLines.node "assignment_statement" start (start + 4) true).push
      ((twoLines.node "identifier" start (start + 1) true).labelled "name")).push
    ((twoLines.node "number" (start + 2) (start + 3) true).labelled "value")

/-- The tree over the two lines. -/
def Convert.twoLinesTree : Node :=
  (twoLines.root.push (assignmentAt 0)).push (assignmentAt 5)

theorem Convert.twoLinesTree_laidOut : twoLinesTree.LaidOut twoLines := by
  have hline (start : Nat) (hstart : start = 0 ∨ start = 5) :
      (assignmentAt start).LaidOut twoLines := by
    refine .push (.push (Node.laidOut_node _ _ _ _ _) ((Node.laidOut_node _ _ _ _ _).labelled _)
      ?_ ?_ ?_ ?_) ((Node.laidOut_node _ _ _ _ _).labelled _) ?_ ?_ ?_ ?_
    all_goals rcases hstart with rfl | rfl <;> decide
  refine .push (.push (Node.laidOut_node _ _ _ _ _) (hline 0 (.inl rfl)) ?_ ?_ ?_ ?_)
    (hline 5 (.inr rfl)) ?_ ?_ ?_ ?_
  all_goals decide

theorem Convert.convert_nested_twoLines :
    twoLinesTree.LaidOut twoLines ∧
      (∀ v ∈ (convert {} twoLinesTree).program.preorder, ∀ c ∈ v.children,
        v.span.encloses c.span = true) ∧
      (∀ v ∈ (convert {} twoLinesTree).program.views,
        twoLinesTree.span.encloses v.span = true) ∧
      (convert {} twoLinesTree).program.views.Pairwise
        fun v w => w.span.start.before v.span.start = false :=
  ⟨twoLinesTree_laidOut, convert_nested twoLines twoLinesTree twoLinesTree_laidOut {}⟩

end Scad
