import Mathlib.Data.List.Chain
import Scad.Editor.Cursor

/-!
# The Path to a Position

The search for a position commits itself to the first view that holds it, at every level.  Where
views enclose what stands inside them and no position stands in two neighbours, nothing is missed:
the path is the list of all views that hold the position.

* `Program.WellNested` — the nesting that is asked of a program.
* `View.filter_preorderAt` — the views inside a view that hold a position, with their depths.
* `Program.pathTo_exact` — the path of a whole program.
-/

namespace Scad

variable {p : Position} {v w : View}

/-! ## §1 Nesting -/

/-- No position stands in both views. -/
def View.Apart (v w : View) : Prop :=
  ∀ p, v.holds p = true → w.holds p = false

/-- The view encloses what stands directly inside it, and no position stands in two of those. -/
structure View.Frames (v : View) : Prop where
  encloses : ∀ c ∈ v.children, v.span.encloses c.span = true
  apart : v.children.Pairwise View.Apart

/-- Every view of the program frames what it holds, and no position stands in two statements. -/
structure Program.WellNested (program : Program) : Prop where
  frames : ∀ v ∈ program.preorder, v.Frames
  apart : program.views.Pairwise View.Apart

theorem Span.contains_of_encloses {outer inner : Span} (h : outer.encloses inner = true)
    (hp : inner.contains p = true) : outer.contains p = true := by
  rw [encloses_iff] at h
  simp only [contains, Bool.and_eq_true, Bool.not_eq_true'] at hp ⊢
  obtain ⟨hstart, hstop⟩ := hp
  constructor
  · exact Position.not_before_trans h.1 hstart
  · -- The position stands before the inner stop, and the outer stop does not.
    have hinner := Position.before_iff.mp hstop
    have houter := Position.before_eq_false_iff.mp h.2
    rw [Position.before_iff]
    omega

/-- No position stands in both spans. -/
def Span.Apart (s t : Span) : Prop :=
  ∀ p, s.contains p = true → t.contains p = false

theorem Span.Apart.symm {s t : Span} (h : s.Apart t) : t.Apart s := by
  intro p hp
  apply Bool.eq_false_iff.mpr
  intro hp'
  rw [h p hp'] at hp
  cases hp

/-- What stands inside spans that are apart is apart. -/
theorem Span.Apart.mono {s t s' t' : Span} (h : s.Apart t) (hs : s.encloses s' = true)
    (ht : t.encloses t' = true) : s'.Apart t' := by
  intro p hp
  apply Bool.eq_false_iff.mpr
  intro hp'
  have hnot := h p (contains_of_encloses hs hp)
  rw [contains_of_encloses ht hp'] at hnot
  cases hnot

/-- A span that starts where another stops, or later, is apart from it. -/
theorem Span.apart_of_stop {s t : Span} (h : t.start.before s.stop = false) : s.Apart t := by
  intro p hp
  simp only [contains, Bool.and_eq_true] at hp
  have hstop := Position.before_iff.mp hp.2
  have hstart := Position.before_eq_false_iff.mp h
  have hbefore : p.before t.start = true := by
    rw [Position.before_iff]
    omega
  simp [contains, hbefore]

/-- A view that starts where another stops, or later, stands apart from it. -/
theorem View.apart_of_stop (h : w.span.start.before v.span.stop = false) : v.Apart w :=
  Span.apart_of_stop h

/-- Views of which each starts where the one before stops, or later, stand apart. -/
theorem View.Frames.of_ordered (hinside : ∀ c ∈ v.children, v.span.encloses c.span = true)
    (hordered : v.children.Pairwise fun c d => d.span.start.before c.span.stop = false) :
    v.Frames :=
  ⟨hinside, hordered.imp View.apart_of_stop⟩

/-! ## §2 Searching among neighbours -/

/-- Among neighbours that stand apart the first that holds the position is the only one. -/
theorem View.filter_flatMap_of_apart {α : Type} {vs : List View} (inside : View → List α)
    (accepts : α → Bool) (hapart : vs.Pairwise View.Apart)
    (houtside : ∀ v ∈ vs, v.holds p = false → (inside v).filter accepts = []) :
    (vs.flatMap inside).filter accepts =
      ((vs.find? (View.holds p)).map fun v => (inside v).filter accepts).getD [] := by
  induction vs with
  | nil => rfl
  | cons v vs ih =>
    obtain ⟨hfirst, hrest⟩ := List.pairwise_cons.mp hapart
    obtain ⟨hv, hvs⟩ := List.forall_mem_cons.mp houtside
    rw [List.flatMap_cons, List.filter_append]
    cases hholds : v.holds p with
    | true =>
      -- Nothing behind the first view holds the position.
      have hnone : (vs.flatMap inside).filter accepts = [] := by
        rw [List.filter_flatMap]
        apply List.flatMap_eq_nil_iff.mpr
        intro w hw
        exact hvs w hw (hfirst w hw p hholds)
      simp [hholds, hnone]
    | false =>
      simp [hholds, hv hholds, ih hrest hvs]

/-! ## §3 The path inside a view -/

namespace View

/-- Everything inside a view frames what it holds. -/
def WellNested (v : View) : Prop :=
  ∀ w ∈ v.preorder, w.Frames

theorem self_mem_preorder (v : View) : v ∈ v.preorder := by
  rw [preorder_eq]
  exact List.mem_cons_self

theorem mem_preorder_of_child {c : View} (hc : c ∈ v.children) (hw : w ∈ c.preorder) :
    w ∈ v.preorder := by
  rw [preorder_eq]
  exact List.mem_cons_of_mem _ (List.mem_flatMap.mpr ⟨c, hc, hw⟩)

/-- What holds everywhere inside a view holds of the view and everywhere inside its children. -/
theorem forall_mem_preorder {P : View → Prop} :
    (∀ w ∈ v.preorder, P w) ↔ P v ∧ ∀ c ∈ v.children, ∀ w ∈ c.preorder, P w := by
  rw [preorder_eq, List.forall_mem_cons, List.forall_mem_flatMap]

theorem WellNested.of_frames (h : v.Frames) (hchildren : ∀ c ∈ v.children, c.WellNested) :
    v.WellNested :=
  forall_mem_preorder.mpr ⟨h, hchildren⟩

theorem WellNested.of_leaf (h : v.children = []) : v.WellNested :=
  .of_frames ⟨by simp [h], by simp [h]⟩ (by simp [h])

/-- A view whose children hold nothing is well nested where they are in order inside it. -/
theorem WellNested.of_leaves (hinside : ∀ c ∈ v.children, v.span.encloses c.span = true)
    (hordered : v.children.Pairwise fun c d => d.span.start.before c.span.stop = false)
    (hleaves : ∀ c ∈ v.children, c.children = []) : v.WellNested := by
  apply WellNested.of_frames (.of_ordered hinside hordered)
  intro c hc
  exact .of_leaf (hleaves c hc)

/-- An assignment is well nested where its value is, and stands inside it. -/
theorem WellNested.of_assignment {b : Binding} (hspan : b.span.encloses b.value.span = true)
    (hvalue : (expression b.value).WellNested) : (statement (.assignment b)).WellNested := by
  have hbinding : (binding b).WellNested :=
    .of_frames ⟨List.forall_mem_singleton.mpr hspan, List.pairwise_singleton _ _⟩
      (List.forall_mem_singleton.mpr hvalue)
  exact .of_frames
    ⟨List.forall_mem_singleton.mpr (Span.encloses_refl b.span), List.pairwise_singleton _ _⟩
    (List.forall_mem_singleton.mpr hbinding)

theorem WellNested.frames (h : v.WellNested) : v.Frames :=
  h v v.self_mem_preorder

theorem WellNested.child (h : v.WellNested) {c : View} (hc : c ∈ v.children) : c.WellNested := by
  intro w hw
  exact h w (mem_preorder_of_child hc hw)

theorem map_snd_preorderAt (v : View) (depth : Nat) :
    (v.preorderAt depth).map Prod.snd = v.preorder := by
  induction v using View.induct generalizing depth with
  | step v ih =>
    rw [preorderAt_eq, preorder_eq, List.map_cons, List.map_flatMap]
    congr 1
    apply List.flatMap_congr
    intro c hc
    exact ih c hc (depth + 1)

/-- A view encloses everything inside it. -/
theorem WellNested.encloses (h : v.WellNested) (hw : w ∈ v.preorder) :
    v.span.encloses w.span = true := by
  induction v using View.induct with
  | step v ih =>
    rw [preorder_eq] at hw
    rcases List.mem_cons.mp hw with rfl | hw
    · exact Span.encloses_refl _
    · obtain ⟨c, hc, hw⟩ := List.mem_flatMap.mp hw
      exact Span.encloses_trans (h.frames.encloses c hc) (ih c hc (h.child hc) hw)

/-- Nothing inside a view holds a position that the view does not hold. -/
theorem holds_eq_false_of_mem_preorder (h : v.WellNested) (hv : v.holds p = false)
    (hw : w ∈ v.preorder) : w.holds p = false := by
  rw [Bool.eq_false_iff] at hv ⊢
  intro hholds
  exact hv (Span.contains_of_encloses (h.encloses hw) hholds)

theorem filter_preorderAt_eq_nil (h : v.WellNested) (hv : v.holds p = false) (depth : Nat) :
    (v.preorderAt depth).filter (fun e => e.2.holds p) = [] := by
  apply List.filter_eq_nil_iff.mpr
  intro e he
  have hmem : e.2 ∈ v.preorder := by
    rw [← v.map_snd_preorderAt depth]
    exact List.mem_map_of_mem he
  simp [holds_eq_false_of_mem_preorder h hv hmem]

/-- The views inside a view that hold a position are those on the path, each one level deeper than
the one before. -/
theorem filter_preorderAt (h : v.WellNested) (hv : v.holds p = true) (depth : Nat) :
    (v.preorderAt depth).filter (fun e => e.2.holds p) =
      ((v.pathTo p).zipIdx depth).map Prod.swap := by
  induction v using View.induct generalizing depth with
  | step v ih =>
    rw [preorderAt_eq, pathTo_eq, List.filter_cons, if_pos hv,
      filter_flatMap_of_apart (p := p) _ _ h.frames.apart]
    · -- The search goes on in the first child that holds the position.
      cases hfind : v.children.find? (holds p) with
      | none => rfl
      | some c =>
        have hc := List.mem_of_find?_eq_some hfind
        simp [ih c hc (h.child hc) (List.find?_some hfind)]
    · intro c hc hholds
      exact filter_preorderAt_eq_nil (h.child hc) hholds (depth + 1)

/-- Each view on a path stands directly inside the one before. -/
theorem isChain_pathTo (p : Position) (v : View) :
    (v.pathTo p).IsChain fun outer inner => inner ∈ outer.children := by
  induction v using View.induct with
  | step v ih =>
    rw [pathTo_eq]
    cases hfind : v.children.find? (holds p) with
    | none => exact .singleton v
    | some c =>
      have hc := List.mem_of_find?_eq_some hfind
      have hrest := ih c hc
      rw [pathTo_eq] at hrest
      simp only [Option.map_some, Option.getD_some]
      rw [pathTo_eq]
      exact .cons_cons hc hrest

theorem mem_preorder_of_mem_pathTo (hw : w ∈ v.pathTo p) : w ∈ v.preorder := by
  induction v using View.induct with
  | step v ih =>
    rw [pathTo_eq] at hw
    rcases List.mem_cons.mp hw with rfl | hw
    · exact w.self_mem_preorder
    · cases hfind : v.children.find? (holds p) with
      | none => simp [hfind] at hw
      | some c =>
        have hc := List.mem_of_find?_eq_some hfind
        apply mem_preorder_of_child hc
        apply ih c hc
        simpa [hfind] using hw

end View

/-! ## §4 The path of a program -/

namespace Program

variable {program : Program}

theorem WellNested.view (h : program.WellNested) (hv : v ∈ program.views) : v.WellNested := by
  intro w hw
  exact h.frames w (List.mem_flatMap.mpr ⟨v, hv, hw⟩)

/-- A program is well nested where each of its statements is, and none starts before the one in
front of it stops. -/
theorem WellNested.of_ordered (hviews : ∀ v ∈ program.views, v.WellNested)
    (hordered : program.views.Pairwise fun v w => w.span.start.before v.span.stop = false) :
    program.WellNested := by
  constructor
  · intro w hw
    obtain ⟨v, hv, hw⟩ := List.mem_flatMap.mp hw
    exact hviews v hv w hw
  · exact hordered.imp View.apart_of_stop

theorem map_snd_preorderAt (program : Program) :
    program.preorderAt.map Prod.snd = program.preorder := by
  rw [preorderAt, preorder, List.map_flatMap]
  apply List.flatMap_congr
  intro v _
  exact v.map_snd_preorderAt 0

/-- The views of a program that hold a position, with their depths. -/
theorem filter_preorderAt (h : program.WellNested) (p : Position) :
    program.preorderAt.filter (fun e => e.2.holds p) =
      (program.pathTo p).zipIdx.map Prod.swap := by
  rw [preorderAt, pathTo, View.filter_flatMap_of_apart (p := p) _ _ h.apart]
  · cases hfind : program.views.find? (View.holds p) with
    | none => rfl
    | some v =>
      have hv := List.mem_of_find?_eq_some hfind
      exact View.filter_preorderAt (h.view hv) (List.find?_some hfind) 0
  · intro v hv hholds
    exact View.filter_preorderAt_eq_nil (h.view hv) hholds 0

theorem filter_preorder (h : program.WellNested) (p : Position) :
    program.preorder.filter (View.holds p) = program.pathTo p := by
  calc program.preorder.filter (View.holds p)
      = (program.preorderAt.filter fun e => e.2.holds p).map Prod.snd := by
        rw [← program.map_snd_preorderAt, List.filter_map]
        rfl
    _ = ((program.pathTo p).zipIdx.map Prod.swap).map Prod.snd := by rw [filter_preorderAt h]
    _ = program.pathTo p := by simp [Function.comp_def]

/-- The path that ends right below a statement. -/
theorem pathTo_of_leaf (hv : program.views.find? (View.holds p) = some v)
    (hw : v.children.find? (View.holds p) = some w) (hleaf : w.children = []) :
    program.pathTo p = [v, w] := by
  rw [pathTo, hv, Option.map_some, View.pathTo_eq, hw, Option.map_some, View.pathTo_eq, hleaf]
  rfl

theorem isChain_pathTo (program : Program) (p : Position) :
    (program.pathTo p).IsChain fun outer inner => inner ∈ outer.children := by
  rw [pathTo]
  cases program.views.find? (View.holds p) with
  | none => exact .nil
  | some v => exact v.isChain_pathTo p

theorem mem_preorder_of_mem_pathTo (hv : v ∈ program.pathTo p) : v ∈ program.preorder := by
  rw [pathTo] at hv
  cases hfind : program.views.find? (View.holds p) with
  | none => simp [hfind] at hv
  | some outer =>
    have houter := List.mem_of_find?_eq_some hfind
    apply List.mem_flatMap.mpr
    refine ⟨outer, houter, View.mem_preorder_of_mem_pathTo (p := p) ?_⟩
    simpa [hfind] using hv

/-- Of the elements of a list, numbered in order, the one with the greatest number is the last. -/
theorem getLast?_of_numbered {α : Type} {l : List α} {before after : List (Nat × α)} {i : Nat}
    {a : α} (h : l.zipIdx.map Prod.swap = before ++ (i, a) :: after)
    (hothers : ∀ e ∈ before ++ after, e.1 < i) : l.getLast? = some a := by
  have hnumbers : List.range' 0 l.length = before.map Prod.fst ++ i :: after.map Prod.fst := by
    have := congrArg (List.map Prod.fst) h
    simpa [Function.comp_def] using this
  have hafter : after = [] := by
    apply List.eq_nil_iff_forall_not_mem.mpr
    intro e he
    have hless := hothers e (List.mem_append_right before he)
    have hpairwise := List.pairwise_lt_range' (s := 0) (n := l.length)
    rw [hnumbers] at hpairwise
    have hgreater := (List.pairwise_cons.mp (List.pairwise_append.mp hpairwise).2.1).1 e.1
      (List.mem_map_of_mem he)
    omega
  have hl : l = before.map Prod.snd ++ [a] := by
    have := congrArg (List.map Prod.snd) h
    simpa [Function.comp_def, hafter] using this
  simp [hl]

/-- The view stands at a place of the program and holds the position there, and at every other place
where a view holds the position it stands less deep. -/
def IsDeepest (program : Program) (p : Position) (v : View) : Prop :=
  ∃ depth before after, program.preorderAt = before ++ (depth, v) :: after ∧ v.holds p = true ∧
    ∀ e ∈ before ++ after, e.2.holds p = true → e.1 < depth

theorem viewAt?_eq_some_iff (h : program.WellNested) (p : Position) (v : View) :
    program.viewAt? p = some v ↔ program.IsDeepest p v := by
  have hfilter := filter_preorderAt h p
  rw [viewAt?]
  constructor
  · intro hlast
    obtain ⟨outer, hpath⟩ := List.getLast?_eq_some_iff.mp hlast
    rw [hpath, List.zipIdx_append, List.map_append] at hfilter
    obtain ⟨before, rest, hsplit, hbefore, hrest⟩ := List.filter_eq_append_iff.mp hfilter
    obtain ⟨skipped, after, rfl, hskipped, hv, hafter⟩ := List.filter_eq_cons_iff.mp hrest
    refine ⟨_, before ++ skipped, after, by simpa using hsplit, hv, ?_⟩
    intro e he hholds
    -- Whatever else holds the position is among the outer views, which are counted from zero.
    have hmem : e ∈ before.filter fun e => e.2.holds p := by
      simp only [List.mem_append] at he
      rcases he with (he | he) | he
      · exact List.mem_filter.mpr ⟨he, hholds⟩
      · exact absurd hholds (hskipped e he)
      · have := List.filter_eq_nil_iff.mp hafter e he
        exact absurd hholds this
    rw [hbefore] at hmem
    obtain ⟨⟨w, i⟩, hi, rfl⟩ := List.mem_map.mp hmem
    have := List.snd_lt_of_mem_zipIdx hi
    simpa using this
  · rintro ⟨depth, before, after, hsplit, hv, hothers⟩
    rw [hsplit, List.filter_append, List.filter_cons, if_pos hv] at hfilter
    apply getLast?_of_numbered hfilter.symm
    intro e he
    rw [← List.filter_append] at he
    obtain ⟨he, hholds⟩ := List.mem_filter.mp he
    exact hothers e he hholds

theorem viewAt?_eq_none_iff (h : program.WellNested) (p : Position) :
    program.viewAt? p = none ↔ ∀ v ∈ program.preorder, v.holds p = false := by
  rw [viewAt?, List.getLast?_eq_none_iff, ← filter_preorder h, List.filter_eq_nil_iff]
  simp

/-- The search for a position is exact where a program is well nested: the path is the pre-order
list of the views that hold the position, each view on it stands directly inside the one before, and
the view that is found is the only one that holds the position as deep as that; none is found
exactly where no view holds the position. -/
theorem pathTo_exact (program : Program) (h : program.WellNested) (p : Position) :
    program.pathTo p = program.preorder.filter (View.holds p) ∧
      ((program.pathTo p).IsChain fun outer inner => inner ∈ outer.children) ∧
      (∀ v, program.viewAt? p = some v ↔ program.IsDeepest p v) ∧
      (program.viewAt? p = none ↔ ∀ v ∈ program.preorder, v.holds p = false) :=
  ⟨(filter_preorder h p).symm, program.isChain_pathTo p, viewAt?_eq_some_iff h p,
    viewAt?_eq_none_iff h p⟩

/-! A sum of two names on one line, and a number on the next. -/

/-- The sum `a+b`, whose operands touch the operator. -/
def sumOfNames : Expression :=
  .binary .add (.identifier "a" ⟨⟨0, 2, 2⟩, ⟨0, 3, 3⟩⟩) (.identifier "b" ⟨⟨0, 4, 4⟩, ⟨0, 5, 5⟩⟩)
    ⟨⟨0, 2, 2⟩, ⟨0, 5, 5⟩⟩

/-- `x=a+b;` and below it `y=1`. -/
def sumAndNumber : Program :=
  [.assignment ⟨"x", ⟨⟨0, 0, 0⟩, ⟨0, 1, 1⟩⟩, sumOfNames, ⟨⟨0, 0, 0⟩, ⟨0, 6, 6⟩⟩⟩,
   .assignment ⟨"y", ⟨⟨1, 0, 7⟩, ⟨1, 1, 8⟩⟩, .literal (.number 1) ⟨⟨1, 2, 9⟩, ⟨1, 3, 10⟩⟩,
     ⟨⟨1, 0, 7⟩, ⟨1, 3, 10⟩⟩⟩]

theorem sumAndNumber_wellNested : sumAndNumber.WellNested := by
  have hsum : (View.expression sumOfNames).WellNested := by
    apply View.WellNested.of_leaves
    · decide
    · decide
    · exact List.forall_mem_cons.mpr ⟨rfl, List.forall_mem_singleton.mpr rfl⟩
  apply WellNested.of_ordered
  · exact List.forall_mem_cons.mpr ⟨.of_assignment (by decide) hsum,
      List.forall_mem_singleton.mpr (.of_assignment (by decide) (.of_leaf rfl))⟩
  · decide

/-- The position just behind the operator stands in the second operand. -/
theorem pathTo_exact_sumAndNumber :
    sumAndNumber.WellNested ∧
      sumAndNumber.pathTo ⟨0, 4, 4⟩ = sumAndNumber.preorder.filter (View.holds ⟨0, 4, 4⟩) ∧
      ((sumAndNumber.pathTo ⟨0, 4, 4⟩).IsChain fun outer inner => inner ∈ outer.children) ∧
      (∀ v, sumAndNumber.viewAt? ⟨0, 4, 4⟩ = some v ↔ sumAndNumber.IsDeepest ⟨0, 4, 4⟩ v) ∧
      (sumAndNumber.viewAt? ⟨0, 4, 4⟩ = none ↔
        ∀ v ∈ sumAndNumber.preorder, v.holds ⟨0, 4, 4⟩ = false) :=
  ⟨sumAndNumber_wellNested, pathTo_exact sumAndNumber sumAndNumber_wellNested ⟨0, 4, 4⟩⟩

end Program

end Scad
