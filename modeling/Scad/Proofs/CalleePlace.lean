import Scad.Editor.Completion
import Scad.Proofs.Bodies.Place
import Scad.Proofs.CallSpelling
import Scad.Proofs.Cursor
import Scad.Proofs.Nesting

/-!
# The Place of a Callee

What may be offered while the name of a call is written.  Another module may be meant there, so the
place is one where a statement starts.

A call is found by the position alone, from the statements of the program inwards, and then judged
by what its statement has kept.  The call of a module of the program has kept where its name stands.
The call of a shape, a transform or an operation has not: all of it that stands before its children
counts as its arguments, the name included.

* `Program.Unforked` — the search for a position has no choice.
* `Program.getLast?_pathTo` — the search ends at the view whose parts do not hold the position.
* `Node.CallsBy` — a call that is written with its name first.
* `completionAt_onCallee` — the place of every position in the name of such a call.
-/

namespace Scad

open Text (Source)

variable {p : Position} {u v w : View}

/-! ## §1 A search without a choice -/

/-- Views that hold the position are the same view.  A view may be listed twice: the ends of a
cylinder share one radius. -/
def View.Unforked (p : Position) (vs : List View) : Prop :=
  ∀ v ∈ vs, ∀ w ∈ vs, v.holds p = true → w.holds p = true → v = w

/-- No two different views of one level hold the position. -/
structure Program.Unforked (program : Program) (p : Position) : Prop where
  views : View.Unforked p program.views
  inside : ∀ v ∈ program.preorder, View.Unforked p v.children

namespace View

/-- Views that stand apart leave no choice. -/
theorem Unforked.of_apart {vs : List View} (h : vs.Pairwise Apart) (p : Position) :
    Unforked p vs := by
  induction vs with
  | nil => exact fun v hv => nomatch hv
  | cons u vs ih =>
    obtain ⟨hfirst, hrest⟩ := List.pairwise_cons.mp h
    have hnone : ∀ w ∈ vs, u.holds p = true → w.holds p = true → False := by
      intro w hw hu hholds
      simp [hfirst w hw p hu] at hholds
    intro v hv w hw hvp hwp
    rcases List.mem_cons.mp hv with rfl | hvs <;> rcases List.mem_cons.mp hw with rfl | hws
    · rfl
    · exact (hnone w hws hvp hwp).elim
    · exact (hnone v hvs hwp hvp).elim
    · exact ih hrest v hvs w hws hvp hwp

theorem Unforked.find? {vs : List View} (h : Unforked p vs) (hv : v ∈ vs)
    (hholds : v.holds p = true) : vs.find? (holds p) = some v := by
  cases hfind : vs.find? (holds p) with
  | none =>
    rw [List.find?_eq_none] at hfind
    exact absurd hholds (hfind v hv)
  | some w =>
    have hw := List.mem_of_find?_eq_some hfind
    rw [h w hw v hv (List.find?_some hfind) hholds]

/-- A nested view encloses everything inside it. -/
theorem NestedIn.encloses_of_mem_preorder {s : Span} (h : v.NestedIn s) (hw : w ∈ v.preorder) :
    v.span.encloses w.span = true := by
  induction h with
  | intro _ _ _ hchildren ih =>
    rw [preorder_eq] at hw
    rcases List.mem_cons.mp hw with rfl | hw
    · exact Span.encloses_refl _
    · obtain ⟨c, hc, hw⟩ := List.mem_flatMap.mp hw
      exact Span.encloses_trans (hchildren c hc).encloses (ih c hc hw)

theorem NestedIn.holds_of_mem_preorder {s : Span} (h : v.NestedIn s) (hw : w ∈ v.preorder)
    (hholds : w.holds p = true) : v.holds p = true :=
  Span.contains_of_encloses (h.encloses_of_mem_preorder hw) hholds

/-- Where the search has no choice, it comes past every view that holds the position. -/
theorem mem_pathTo {s : Span} (h : v.NestedIn s)
    (hunforked : ∀ u ∈ v.preorder, Unforked p u.children) (hw : w ∈ v.preorder)
    (hholds : w.holds p = true) : w ∈ v.pathTo p := by
  induction v using View.induct generalizing s with
  | step v ih =>
    rw [pathTo_eq]
    rw [preorder_eq] at hw
    rcases List.mem_cons.mp hw with rfl | hw
    · exact List.mem_cons_self
    · obtain ⟨c, hc, hw⟩ := List.mem_flatMap.mp hw
      -- The child around what is looked for holds the position, so the search enters that child.
      have hchild : c.holds p = true := (h.children c hc).holds_of_mem_preorder hw hholds
      rw [(hunforked v v.self_mem_preorder).find? hc hchild]
      apply List.mem_cons_of_mem
      apply ih c hc (h.children c hc) _ hw
      intro u hu
      exact hunforked u (mem_preorder_of_child hc hu)

theorem holds_of_mem_pathTo (hv : v.holds p = true) (hw : w ∈ v.pathTo p) : w.holds p = true := by
  induction v using View.induct with
  | step v ih =>
    rw [pathTo_eq] at hw
    rcases List.mem_cons.mp hw with rfl | hw
    · exact hv
    · cases hfind : v.children.find? (View.holds p) with
      | none => simp [hfind] at hw
      | some c =>
        apply ih c (List.mem_of_find?_eq_some hfind) (List.find?_some hfind)
        simpa [hfind] using hw

end View

namespace Program

variable {program : Program}

theorem holds_of_mem_pathTo (hv : v ∈ program.pathTo p) : v.holds p = true := by
  rw [pathTo] at hv
  cases hfind : program.views.find? (View.holds p) with
  | none => simp [hfind] at hv
  | some outer =>
    apply View.holds_of_mem_pathTo (List.find?_some hfind)
    simpa [hfind] using hv

theorem WellNested.unforked (h : program.WellNested) (p : Position) : program.Unforked p :=
  ⟨.of_apart h.apart p, fun v hv => .of_apart (h.frames v hv).apart p⟩

/-- The views on the path are those that hold the position. -/
theorem mem_pathTo_iff_holds (hnested : ∀ v ∈ program.views, ∃ s, v.NestedIn s)
    (h : program.Unforked p) : v ∈ program.pathTo p ↔ v ∈ program.preorder ∧ v.holds p = true := by
  constructor
  · intro hv
    exact ⟨mem_preorder_of_mem_pathTo hv, holds_of_mem_pathTo hv⟩
  · rintro ⟨hv, hholds⟩
    obtain ⟨outer, houter, hv⟩ := List.mem_flatMap.mp hv
    obtain ⟨s, hs⟩ := hnested outer houter
    rw [pathTo, h.views.find? houter (hs.holds_of_mem_preorder hv hholds)]
    apply View.mem_pathTo hs _ hv hholds
    intro u hu
    exact h.inside u (List.mem_flatMap.mpr ⟨outer, houter, hu⟩)

/-- The search ends at a view that holds the position where nothing inside the view does. -/
theorem getLast?_pathTo (hnested : ∀ v ∈ program.views, ∃ s, v.NestedIn s)
    (h : program.Unforked p) (hv : v ∈ program.preorder) (hholds : v.holds p = true)
    (hinside : ∀ c ∈ v.children, c.holds p = false) : (program.pathTo p).getLast? = some v := by
  have hmem : v ∈ program.pathTo p := (mem_pathTo_iff_holds hnested h).mpr ⟨hv, hholds⟩
  obtain ⟨before, after, hpath⟩ := List.mem_iff_append.mp hmem
  cases after with
  | nil => simp [hpath]
  | cons c rest =>
    -- What comes behind the view on the path stands inside the view, and holds the position.
    have hchain := program.isChain_pathTo p
    rw [hpath] at hchain
    have hchild : c ∈ v.children :=
      (List.isChain_cons_cons.mp (List.isChain_append.mp hchain).2.1).1
    have hc : c ∈ program.pathTo p := by simp [hpath]
    have hnot := hinside c hchild
    rw [holds_of_mem_pathTo hc] at hnot
    cases hnot

end Program

/-! ## §2 Places where a statement starts -/

/-- The place between the statements around a position: inside the definition of a module, or in
the file. -/
def Program.statementPlace (program : Program) (p : Position) : PlaceKind :=
  if program.preorder.any fun v => v.isModuleDefinition && v.holds p then .moduleBody else .topLevel

theorem Program.isStatement_statementPlace (program : Program) (p : Position) :
    (program.statementPlace p).isStatement = true := by
  unfold statementPlace
  split <;> rfl

/-- The definitions of modules around the position are those on its path. -/
theorem Program.any_isModuleDefinition_pathTo {program : Program}
    (hnested : ∀ v ∈ program.views, ∃ s, v.NestedIn s) (h : program.Unforked p) :
    ((program.pathTo p).any View.isModuleDefinition = true) ↔
      (program.preorder.any fun v => v.isModuleDefinition && v.holds p) = true := by
  simp only [List.any_eq_true, Bool.and_eq_true]
  constructor
  · rintro ⟨v, hv, hdefinition⟩
    obtain ⟨hv, hholds⟩ := (mem_pathTo_iff_holds hnested h).mp hv
    exact ⟨v, hv, hdefinition, hholds⟩
  · rintro ⟨v, hv, hdefinition, hholds⟩
    exact ⟨v, (mem_pathTo_iff_holds hnested h).mpr ⟨hv, hholds⟩, hdefinition⟩

/-- Where a path ends at a statement, the place is the argument list of a call or one where a
statement starts. -/
theorem placeKind_of_getLast? {path : List View} {s : Statement}
    (h : path.getLast? = some (.statement s)) (p : Position) :
    placeKind path p =
      if callRegion? s p = some .arguments then .argumentList
      else if path.any View.isModuleDefinition then .moduleBody else .topLevel := by
  obtain ⟨outer, hpath⟩ := List.getLast?_eq_some_iff.mp h
  unfold placeKind
  rw [hpath, List.reverse_append]
  simp only [List.reverse_cons, List.reverse_nil, List.nil_append, List.singleton_append, placeFrom]
  cases callRegion? s p with
  | none => rfl
  | some region => cases region <;> rfl

theorem Program.place_of_leaf {program : Program} {s : Statement}
    (hnested : ∀ v ∈ program.views, ∃ t, v.NestedIn t) (h : program.Unforked p)
    (hs : View.statement s ∈ program.preorder) (hholds : (View.statement s).holds p = true)
    (hinside : ∀ c ∈ View.ofStatementParts s, c.holds p = false) :
    (program.completionAt p).place =
      if callRegion? s p = some .arguments then .argumentList else program.statementPlace p := by
  have hlast := getLast?_pathTo hnested h hs hholds hinside
  show placeKind (program.pathTo p) p = _
  rw [placeKind_of_getLast? hlast, statementPlace]
  simp only [any_isModuleDefinition_pathTo hnested h]

/-! ## §3 Behind the name -/

theorem Span.before_stop {s : Span} (h : s.contains p = true) : p.before s.stop = true := by
  simp only [contains, Bool.and_eq_true] at h
  exact h.2

namespace Node

variable {s : Source} {c m n : Node}

/-- The view is made of syntax in the subtree that starts at the offset or later. -/
def YieldsBehind (n : Node) (offset : Nat) (v : View) : Prop :=
  ∃ m : Node, m.Within n ∧ offset ≤ m.startByte ∧ m.Yields v

/-- A position in a node stands before everything that is made of the syntax behind the node. -/
theorem YieldsBehind.before_start (h : n.YieldsBehind c.stopByte v) (hn : n.LaidOut s)
    (hc : c.Within n) (hp : c.span.contains p = true) : p.before v.span.start = true := by
  obtain ⟨m, hm, hoffset, hyields⟩ := h
  have hview := (Span.encloses_iff.mp (hyields.nestedIn (hn.mono hm)).encloses).1
  have hnode : m.span.start.before c.span.stop = false := by
    rw [(hn c hc).stop_eq, (hn m hm).start_eq]
    exact s.position_mono hoffset
  have hstop := Span.before_stop hp
  -- position, stop of the node, start of what is behind it, start of the view
  rw [Position.before_iff] at hstop ⊢
  rw [Position.before_eq_false_iff] at hview hnode
  omega

theorem YieldsBehind.holds_eq_false (h : n.YieldsBehind c.stopByte v) (hn : n.LaidOut s)
    (hc : c.Within n) (hp : c.span.contains p = true) : v.holds p = false := by
  simp [View.holds, Span.contains, h.before_start hn hc hp]

/-- A call that is written with its name first: a module call, whose callee is a labelled
identifier, with an argument list, and with nothing in front of the name. -/
structure CallsBy (n : Node) (callee list : n.Part) : Prop where
  kind : n.kind = .moduleInstantiation
  called : Convert.callee? n = some callee
  identifier : callee.node.kind = .identifier
  label : callee.node.label = some "name"
  listed : Convert.argumentList? n = some list
  behind : ∀ c, n.Holds c → c ≠ callee.node → callee.node.stopByte ≤ c.startByte

namespace CallsBy

variable {callee list : n.Part}

/-- A call that holds nothing but its name and its arguments is written with its name first. -/
theorem of_children (kind : n.kind = .moduleInstantiation)
    (called : Convert.callee? n = some callee) (identifier : callee.node.kind = .identifier)
    (label : callee.node.label = some "name") (listed : Convert.argumentList? n = some list)
    (hchildren : n.children = [callee.node, list.node])
    (hnamed : n.named = [callee.node, list.node])
    (hbehind : callee.node.stopByte ≤ list.node.startByte) : n.CallsBy callee list := by
  refine ⟨kind, called, identifier, label, listed, fun c hc hne => ?_⟩
  unfold Holds at hc
  rw [hchildren, hnamed, or_self] at hc
  simp only [List.mem_cons, List.not_mem_nil, or_false] at hc
  rcases hc with rfl | rfl
  · exact absurd rfl hne
  · exact hbehind

theorem isCall (h : n.CallsBy callee list) : n.kind.isCall = true := by
  rw [h.kind]
  rfl

/-- Another label tells a child from the name. -/
theorem behind_of_label (h : n.CallsBy callee list) {label : String} (hname : label ≠ "name")
    {q : n.Part} (hq : n.field? label = some q) : callee.node.stopByte ≤ q.node.startByte := by
  obtain ⟨hheld, hlabel⟩ := holds_of_field? hq
  apply h.behind q.node hheld
  intro heq
  rw [heq, h.label] at hlabel
  exact hname (Option.some.inj hlabel).symm

theorem behind_list (h : n.CallsBy callee list) : callee.node.stopByte ≤ list.node.startByte := by
  rcases Option.or_eq_some_iff.mp h.listed with hfield | ⟨-, hkind⟩
  · exact h.behind_of_label (by decide) hfield
  · -- An argument list without a label is no identifier.
    have hfound := List.find?_some hkind
    have hmem := (List.mem_filter.mp (List.mem_of_find?_eq_some hkind)).1
    apply h.behind list.node (.inr (mem_named_of_mem_namedParts hmem))
    intro heq
    simp [heq, h.identifier] at hfound

/-- The children of a call stand behind its name, under their label or behind the arguments. -/
theorem behind_trailing (h : n.CallsBy callee list) (hn : n.LaidOut s) {q : n.Part}
    (hq : Convert.trailing? n ["body"] = some q) : callee.node.stopByte ≤ q.node.startByte := by
  unfold Convert.trailing? at hq
  split at hq
  · next hlabelled =>
    obtain ⟨label, hlabel, hfield⟩ := List.exists_of_findSome?_eq_some hlabelled
    obtain rfl := List.mem_singleton.mp hlabel
    cases hq
    exact h.behind_of_label (by decide) hfield
  · have hafter := List.find?_some hq
    simp only [h.listed, Option.some_or, Option.map_some, Option.getD_some, Bool.and_eq_true,
      decide_eq_true_eq] at hafter
    have hlist := h.behind_list
    have hordered := (hn list.node (Convert.finds_argumentList? list h.listed)).start_le_stop
    omega

theorem yieldsBehind_of_list (h : n.CallsBy callee list) (hv : list.node.Yields v) :
    n.YieldsBehind callee.node.stopByte v :=
  ⟨list.node, Convert.finds_argumentList? list h.listed, h.behind_list, hv⟩

theorem yieldsBehind_of_trailing (h : n.CallsBy callee list) (hn : n.LaidOut s) {q : n.Part}
    (hq : Convert.trailing? n ["body"] = some q) (hv : q.node.Yields v) :
    n.YieldsBehind callee.node.stopByte v :=
  ⟨q.node, Convert.finds_trailing? _ q hq, h.behind_trailing hn hq, hv⟩

end CallsBy

end Node

/-! ## §4 What a call keeps -/

namespace Convert

open Conversion Node

variable {s : Source} {n : Node} {callee list : n.Part}

/-- What a call is converted to: it stands where the call stands, its name stands where the callee
stands, if it is kept, and everything inside it is made of the syntax behind the callee. -/
structure KeepsCall (n callee : Node) (st : Statement) : Prop where
  span : st.span = n.span
  name : ∀ t, (View.statement st).nameSpan? = some t → t = callee.span
  parts : ∀ v ∈ View.ofStatementParts st, n.YieldsBehind callee.stopByte v

/-- What keeps no name has none that could stand elsewhere. -/
theorem KeepsCall.of_unnamed {callee : Node} {st : Statement} (hspan : st.span = n.span)
    (hname : (View.statement st).nameSpan? = none)
    (hparts : ∀ v ∈ View.ofStatementParts st, n.YieldsBehind callee.stopByte v) :
    KeepsCall n callee st :=
  ⟨hspan, by simp [hname], hparts⟩

theorem callChildren_behind (h : n.CallsBy callee list) (hn : n.LaidOut s) :
    (callChildren n (inner .complete n)).Ensures fun ss =>
      ∀ v ∈ ss.map View.ofStatement, n.YieldsBehind callee.node.stopByte v := by
  intro settings ss hss
  unfold callChildren at hss
  cases htrailing : trailing? n ["body"] with
  | none =>
    rw [htrailing] at hss
    obtain rfl : [] = ss := Except.ok.inj hss
    exact List.forall_mem_nil _
  | some q =>
    rw [htrailing] at hss
    have hq : q.node.Within n := finds_trailing? _ q htrailing
    have hmeets := body_meets ((inner_traces .complete n).inside hq) (inner_traces .complete n q hq)
    intro v hv
    obtain ⟨st, hst, rfl⟩ := List.mem_map.mp hv
    exact h.yieldsBehind_of_trailing hn htrailing (hmeets.ok hss st hst)

theorem singleBody_behind (h : n.CallsBy callee list) (hn : n.LaidOut s) :
    (singleBody (inner .complete n) (trailing? n ["body"])).Ensures fun r =>
      ∀ v ∈ View.ofStatement? r, n.YieldsBehind callee.node.stopByte v := by
  intro settings r hr v hv
  obtain ⟨st, rfl, rfl⟩ := Option.map_eq_some_iff.mp (Option.mem_toList.mp hv)
  cases htrailing : trailing? n ["body"] with
  | none =>
    rw [htrailing] at hr
    cases hr
  | some q =>
    rw [htrailing] at hr
    have hq : q.node.Within n := finds_trailing? _ q htrailing
    have hmeets := orFault_meets (n := n) (inner_traces .complete n q hq)
    exact h.yieldsBehind_of_trailing hn htrailing (hmeets.ok hr st rfl)

theorem predefinedCall_keepsCall (h : n.CallsBy callee list) (hn : n.LaidOut s)
    {name : String} {args : List Argument} (hargs : ∀ a ∈ args, list.node.Yields (.argument a)) :
    (predefinedCall n (inner .complete n) name args).Ensures (KeepsCall n callee.node) := by
  have harguments : ∀ v ∈ args.map View.argument, n.YieldsBehind callee.node.stopByte v :=
    List.forall_mem_map.mpr fun a ha => h.yieldsBehind_of_list (hargs a ha)
  have hchildren := callChildren_behind h hn
  unfold predefinedCall
  cases hshape : primitive? name args with
  | some shape =>
    -- A shape has its parameters and the special variables, both of them from the argument list.
    have hmade : KeepsCall n callee.node (.primitive shape (args.filter isSpecial) n.span) := by
      apply KeepsCall.of_unnamed rfl rfl
      intro v hv
      rcases List.mem_append.mp hv with hv | hv
      · exact h.yieldsBehind_of_list (yields_primitive hargs hshape v hv)
      · obtain ⟨a, ha, rfl⟩ := List.mem_map.mp hv
        exact h.yieldsBehind_of_list (hargs a (List.mem_filter.mp ha).1)
    dsimp only
    split
    · exact .bind_any fun _ => .bind_any fun _ => .pure hmade
    · exact .bind_any fun _ => .pure hmade
  | none =>
    cases htransform : transform? name args with
    | some transform =>
      have hparts : ∀ v ∈ View.ofTransform transform, n.YieldsBehind callee.node.stopByte v :=
        fun v hv => h.yieldsBehind_of_list (yields_transform hargs htransform v hv)
      refine .bind_any fun _ => hchildren.bind fun ss hss => .pure (.of_unnamed rfl rfl ?_)
      exact List.forall_mem_append.mpr ⟨hparts, hss⟩
    | none =>
      cases hcsg : CsgOperation.ofName? name with
      | some operation =>
        -- An operation has its children only.
        exact hchildren.bind fun ss hss => .pure (.of_unnamed rfl rfl hss)
      | none =>
        dsimp only
        split
        · refine (singleBody_behind h hn).bind fun r hr => .pure (.of_unnamed rfl rfl ?_)
          exact List.forall_mem_append.mpr ⟨harguments, hr⟩
        · -- A module of the program is the one case with a name.
          refine hchildren.bind fun ss hss => .pure ⟨rfl, fun t ht => ?_, ?_⟩
          · obtain rfl := Option.some.inj ht
            simp [h.called]
          · exact List.forall_mem_append.mpr ⟨harguments, hss⟩

theorem callStatement_keepsCall (h : n.CallsBy callee list) (hn : n.LaidOut s) :
    (callStatement .complete n (inner .complete n)).Ensures fun r =>
      ∀ st, r = some st → KeepsCall n callee.node st := by
  have hlist : list.node.Within n := finds_argumentList? list h.listed
  have hargs := arguments_meets list.node _ ((expressions_traces n).inside hlist)
  unfold callStatement
  rw [h.called, h.listed]
  refine .bind (fun _ _ hok => hargs.ok hok) fun args hargs => ?_
  refine .map ((predefinedCall_keepsCall h hn hargs).imp fun st hkeeps _ heq => ?_)
  exact Option.some.inj heq ▸ hkeeps

/-- A call that is no assertion and no scoped assignment keeps its place and what is behind its
name. -/
theorem statement_keepsCall (h : n.CallsBy callee list) (hn : n.LaidOut s) {settings : Settings}
    {st : Statement} (hst : (statement .complete n).result settings = .ok (some st))
    (hplain : st.isAssertOrAssign = false) : KeepsCall n callee.node st := by
  have hreads : ¬n.ReadsAsStatement := by
    rw [← isAssertOrAssign_iff h.isCall hst, hplain]
    decide
  rw [statement_of_not_readsAsStatement h.isCall hreads] at hst
  exact callStatement_keepsCall h hn settings _ hst st rfl

/-- Without arguments only the name of a call matters. -/
theorem statement_of_no_arguments (h : n.CallsBy callee list) (hlist : list.node.significant = [])
    {name : String} (hcalled : n.calledAs? = some name)
    (hplain : name ≠ "assign" ∧ name ≠ "assert") :
    statement .complete n =
      some <$> predefinedCall n (inner .complete n) callee.node.trimmed [] := by
  have hreads : ¬n.ReadsAsStatement := by
    rintro ⟨-, hread⟩
    simp [hcalled, hplain] at hread
  have harguments : argumentsOf (expressions n) (some list) = pure [] := by
    show arguments list.node _ = _
    rw [arguments, hlist]
    rfl
  rw [statement_of_not_readsAsStatement h.isCall hreads]
  unfold callStatement
  rw [h.called, h.listed]
  dsimp only
  rw [harguments, pure_bind]

end Convert

/-! ## §5 The place of the name -/

/-- Whether a statement keeps nothing of the name that was called. -/
def Statement.dropsCallee : Statement → Bool
  | primitive .. | transform .. | csg .. => true
  | _ => false

theorem View.span_ofStatement (s : Statement) : (ofStatement s).span = s.span := by
  cases s <;> rfl

namespace Convert

open Conversion Node

variable {s : Source} {n : Node} {callee list : n.Part}

namespace KeepsCall

variable {c : Node} {st : Statement}

/-- Where nothing inside a statement starts before the position, its children do not. -/
theorem before_children (hparts : ∀ v ∈ View.ofStatementParts st, p.before v.span.start = true)
    (children : List Statement)
    (hchildren : ∀ child ∈ children, View.ofStatement child ∈ View.ofStatementParts st) :
    callRegion?.before p children = some .arguments := by
  unfold callRegion?.before
  rw [if_pos]
  cases children with
  | nil => rfl
  | cons child rest =>
    have hchild := hparts _ (hchildren child List.mem_cons_self)
    rw [View.span_ofStatement] at hchild
    simpa using hchild

/-- In the name of a call, what is left of the call decides: its arguments where the name is not
kept, and else its name, if anything. -/
theorem callRegion?_iff (h : KeepsCall n c st) (hn : n.LaidOut s) (hc : c.Within n)
    (hp : c.span.contains p = true) : callRegion? st p = some .arguments ↔ st.dropsCallee = true := by
  have hparts : ∀ v ∈ View.ofStatementParts st, p.before v.span.start = true :=
    fun v hv => (h.parts v hv).before_start hn hc hp
  have hstop := Span.before_stop hp
  cases st with
  | call name nameSpan args children span =>
    -- The name that is kept stops where the callee stops, which is behind the position.
    obtain rfl : nameSpan = c.span := h.name nameSpan rfl
    simp [callRegion?, hstop, Statement.dropsCallee]
  | primitive shape specials span => simp [callRegion?, Statement.dropsCallee]
  | transform transform children span =>
    have hbefore := before_children hparts children fun child hchild =>
      List.mem_append_right _ (List.mem_map_of_mem hchild)
    simp [callRegion?, hbefore, Statement.dropsCallee]
  | csg operation children span =>
    have hbefore := before_children hparts children fun child hchild =>
      List.mem_map_of_mem hchild
    simp [callRegion?, hbefore, Statement.dropsCallee]
  | _ => simp [callRegion?, Statement.dropsCallee]

end KeepsCall

/-- The statements of a program are nested in the tree they are converted from. -/
theorem nestedIn_of_mem_views {root : Node} (h : root.LaidOut s) (settings : Settings) :
    ∀ v ∈ (convert settings root).program.views, ∃ t, v.NestedIn t := by
  intro v hv
  obtain ⟨ms, hms, -, hyields⟩ := exists_nodes_of_views h settings
  obtain ⟨m, hm, hv⟩ := Conversion.Meets.exists_of_forall₂ hyields v hv
  exact ⟨m.span, hv.nestedIn (h.mono (hms m hm))⟩

/-- On the name of a call, the place depends on what the call was converted to.  Where the statement
keeps the name, as that of a module of the program does, a statement may start there: the place is
the body of a module or the file, and the names of modules are offered.  A shape, a transform and an
operation do not keep it, and the place is their argument list. -/
theorem completionAt_onCallee (s : Source) (root : Node) (settings : Settings)
    (hroot : root.LaidOut s) (n : Node) (callee list : n.Part) (hn : n.Within root)
    (hcalls : n.CallsBy callee list) (st : Statement)
    (hst : (statement .complete n).result settings = .ok (some st))
    (hplain : st.isAssertOrAssign = false)
    (hmem : .statement st ∈ (convert settings root).program.preorder) (p : Position)
    (hp : callee.node.span.contains p = true)
    (hunforked : (convert settings root).program.Unforked p) :
    (st.dropsCallee = false →
        let program := (convert settings root).program
        (program.completionAt p).place = program.statementPlace p ∧
          (program.completionAt p).builtins = Vocabulary.modules ++ Vocabulary.keywords ∧
          ∀ symbol ∈ program.symbols, symbol.kind = .module →
            symbol.visibleFrom (enclosingDefinitions (program.pathTo p)) = true →
            symbol ∈ (program.completionAt p).symbols) ∧
      (st.dropsCallee = true →
        ((convert settings root).program.completionAt p).place = .argumentList) := by
  have hlaid : n.LaidOut s := hroot.mono hn
  have hcallee : callee.node.Within n := finds_callee? callee hcalls.called
  have hkeeps : KeepsCall n callee.node st := statement_keepsCall hcalls hlaid hst hplain
  have hholds : (View.statement st).holds p = true := by
    have hinside := Span.contains_of_encloses (hlaid.encloses hcallee) hp
    rwa [← hkeeps.span] at hinside
  have hinside : ∀ c ∈ View.ofStatementParts st, c.holds p = false :=
    fun c hc => (hkeeps.parts c hc).holds_eq_false hlaid hcallee hp
  -- The call holds the position and nothing inside it does, so the search ends at the call.
  have hplace := Program.place_of_leaf (nestedIn_of_mem_views hroot settings) hunforked hmem hholds
    hinside
  have hregion := hkeeps.callRegion?_iff hlaid hcallee hp
  constructor
  · intro hdrops program
    have hnot : ¬callRegion? st p = some .arguments := by simp [hregion, hdrops]
    rw [if_neg hnot] at hplace
    have hstatement : (program.completionAt p).place.isStatement = true := by
      rw [hplace]
      exact Program.isStatement_statementPlace _ p
    refine ⟨hplace, ?_, fun symbol hsymbol hkind hvisible => ?_⟩
    · show (program.completionAt p).place.builtins = _
      simp [PlaceKind.builtins, hstatement]
    · apply List.mem_filter.mpr
      have hadmits : (program.completionAt p).place.admits symbol.kind = true := by
        simp [PlaceKind.admits, hkind, hstatement]
      rw [Bool.and_eq_true]
      exact ⟨hsymbol, hvisible, hadmits⟩
  · intro hdrops
    rwa [if_pos (hregion.mpr hdrops)] at hplace

/-! The call of a module as the body of another one. -/

/-- A call without arguments whose name reaches from `start` to `stop`. -/
def plainCallAt (s : Source) (start stop : Nat) : Node :=
  ((s.node "module_instantiation" start (stop + 2) true).push
      ((s.node "identifier" start stop true).labelled "name")).push
    ((s.node "arguments" stop (stop + 2) true).labelled "arguments")

/-- A module that calls another one. -/
def moduleAround : Source :=
  .ofText "module m() f();"

/-- The call in the module. -/
def innerCall : Node :=
  (plainCallAt moduleAround 11 12).labelled "body"

/-- The definition of the module. -/
def outerModule : Node :=
  ((moduleAround.node "module_definition" 0 15 true).push
    ((moduleAround.node "identifier" 7 8 true).labelled "name")).push innerCall

/-- The tree over the module. -/
def moduleAroundTree : Node :=
  moduleAround.root.push outerModule

theorem plainCallAt_laidOut {s : Source} {start stop : Nat} (h : start ≤ stop) :
    (plainCallAt s start stop).LaidOut s := by
  have hnode (tag : String) (start stop : Nat) : (s.node tag start stop true).LaidOut s :=
    Node.laidOut_node s tag start stop true
  refine .push (.push (hnode _ _ _) ((hnode _ _ _).labelled _) ?_ ?_ ?_ ?_)
    ((hnode _ _ _).labelled _) ?_ ?_ ?_ ?_
  all_goals simp [Node.push, Node.labelled, Source.node, startByte, stopByte, Source.position]
  all_goals omega

theorem moduleAroundTree_laidOut : moduleAroundTree.LaidOut moduleAround := by
  have hcall : innerCall.LaidOut moduleAround :=
    (plainCallAt_laidOut (by decide)).labelled "body"
  refine .push (Node.laidOut_node _ _ _ _ _) (.push (.push (Node.laidOut_node _ _ _ _ _)
    ((Node.laidOut_node _ _ _ _ _).labelled _) ?_ ?_ ?_ ?_) hcall ?_ ?_ ?_ ?_) ?_ ?_ ?_ ?_
  all_goals decide

/-- The name in the call. -/
def innerCallee : innerCall.Part :=
  ⟨(moduleAround.node "identifier" 11 12 true).labelled "name",
    sizeOf_lt_of_mem_children (.head _)⟩

/-- The arguments of the call. -/
def innerArguments : innerCall.Part :=
  ⟨(moduleAround.node "arguments" 12 14 true).labelled "arguments",
    sizeOf_lt_of_mem_children (.tail _ (.head _))⟩

theorem innerCall_callsBy : innerCall.CallsBy innerCallee innerArguments :=
  Node.CallsBy.of_children rfl rfl rfl rfl rfl rfl rfl (by decide)

/-- What the call is converted to. -/
def innerStatement : Statement :=
  .call "f" innerCallee.node.span [] [] innerCall.span

theorem statement_innerCall : statement .complete innerCall = pure (some innerStatement) := by
  have hcalled : innerCall.calledAs? = some "f" := rfl
  rw [statement_of_no_arguments innerCall_callsBy rfl hcalled (by simp)]
  rfl

/-- What the definition is converted to. -/
def outerStatement : Statement :=
  .moduleDefinition "m" (moduleAround.node "identifier" 7 8 true).span [] [innerStatement]
    outerModule.span

theorem result_outerModule :
    (statement .complete outerModule).result {} = .ok (some outerStatement) := by
  have hheld : held {} innerCall = [innerStatement] := by
    rw [held, outcome, statement_innerCall]
    rfl
  have hbody : (bodyOf (inner .complete outerModule) (outerModule.field? "body")).result {} =
      .ok [innerStatement] := by
    rw [← hheld]
    exact result_bodyOf ⟨innerCall, sizeOf_lt_of_mem_children (.tail _ (.head _))⟩
  rw [statement_eq]
  show (moduleDefinition outerModule (inner .complete outerModule)).result {} = _
  unfold moduleDefinition
  show (bodyOf (inner .complete outerModule) (outerModule.field? "body") >>= _).result {} = _
  rw [result_bind, hbody]
  rfl

theorem program_moduleAroundTree : (convert {} moduleAroundTree).program = [outerStatement] := by
  have hnodes : moduleAroundTree.significant.map Part.node = [outerModule] := rfl
  have hleft : outcome {} outerModule = some outerStatement := by
    rw [outcome, result_outerModule]
  rw [program_eq_filterMap rfl, hnodes, List.filterMap_cons_some hleft]
  rfl

theorem wellNested_outerStatement : Program.WellNested [outerStatement] := by
  have hinner : (View.statement innerStatement).WellNested := .of_leaf rfl
  have houter : (View.statement outerStatement).WellNested :=
    .of_frames ⟨List.forall_mem_singleton.mpr (by decide), List.pairwise_singleton _ _⟩
      (List.forall_mem_singleton.mpr hinner)
  exact .of_ordered (List.forall_mem_singleton.mpr houter) (List.pairwise_singleton _ _)

/-- The first position of the name in the call. -/
def onInnerCallee : Position :=
  ⟨0, 11, 11⟩

/-- On the name of the call in the module, a statement of the module may start. -/
theorem completionAt_onCallee_moduleAround :
    moduleAroundTree.LaidOut moduleAround ∧ innerCall.CallsBy innerCallee innerArguments ∧
      (statement .complete innerCall).result {} = .ok (some innerStatement) ∧
      innerStatement.isAssertOrAssign = false ∧ innerStatement.dropsCallee = false ∧
      View.statement innerStatement ∈ (convert {} moduleAroundTree).program.preorder ∧
      innerCallee.node.span.contains onInnerCallee = true ∧
      (convert {} moduleAroundTree).program.Unforked onInnerCallee ∧
      ((convert {} moduleAroundTree).program.completionAt onInnerCallee).place = .moduleBody := by
  have hwithin : innerCall.Within moduleAroundTree :=
    .step (c := outerModule) (.inl (.head _)) (Holds.within (.inl (.tail _ (.head _))))
  have hresult : (statement .complete innerCall).result {} = .ok (some innerStatement) := by
    rw [statement_innerCall]
    rfl
  have hmem : View.statement innerStatement ∈ (convert {} moduleAroundTree).program.preorder := by
    rw [program_moduleAroundTree]
    apply List.mem_flatMap.mpr
    refine ⟨.statement outerStatement, .head _, View.mem_preorder_of_child (.head _) ?_⟩
    exact View.self_mem_preorder _
  have hunforked : (convert {} moduleAroundTree).program.Unforked onInnerCallee := by
    rw [program_moduleAroundTree]
    exact wellNested_outerStatement.unforked onInnerCallee
  have hplace := (completionAt_onCallee moduleAround moduleAroundTree {} moduleAroundTree_laidOut
    innerCall innerCallee innerArguments hwithin innerCall_callsBy innerStatement hresult rfl hmem
    onInnerCallee (by decide) hunforked).1 rfl
  have hbody : Program.statementPlace [outerStatement] onInnerCallee = .moduleBody := by
    unfold Program.statementPlace
    rw [if_pos]
    apply List.any_eq_true.mpr
    refine ⟨.statement outerStatement, List.mem_flatMap.mpr ?_, rfl⟩
    exact ⟨.statement outerStatement, .head _, View.self_mem_preorder _⟩
  rw [← program_moduleAroundTree] at hbody
  exact ⟨moduleAroundTree_laidOut, innerCall_callsBy, hresult, rfl, rfl, hmem, by decide, hunforked,
    hplace.1.trans hbody⟩

/-! The call of a shape. -/

/-- A cube. -/
def cubeSource : Source :=
  .ofText "cube();"

/-- The call of the shape. -/
def cubeCall : Node :=
  plainCallAt cubeSource 0 4

/-- The tree over the shape. -/
def cubeTree : Node :=
  cubeSource.root.push cubeCall

theorem cubeTree_laidOut : cubeTree.LaidOut cubeSource := by
  have hcall : cubeCall.LaidOut cubeSource := plainCallAt_laidOut (by decide)
  refine .push (Node.laidOut_node _ _ _ _ _) hcall ?_ ?_ ?_ ?_
  all_goals decide

/-- The name of the shape. -/
def cubeCallee : cubeCall.Part :=
  ⟨(cubeSource.node "identifier" 0 4 true).labelled "name", sizeOf_lt_of_mem_children (.head _)⟩

/-- The arguments of the shape. -/
def cubeArguments : cubeCall.Part :=
  ⟨(cubeSource.node "arguments" 4 6 true).labelled "arguments",
    sizeOf_lt_of_mem_children (.tail _ (.head _))⟩

theorem cubeCall_callsBy : cubeCall.CallsBy cubeCallee cubeArguments :=
  Node.CallsBy.of_children rfl rfl rfl rfl rfl rfl rfl (by decide)

/-- What the call of the shape is converted to. -/
def cubeStatement : Statement :=
  .primitive (.cube (.number 1) (.boolean false)) [] cubeCall.span

theorem result_cubeCall : (statement .complete cubeCall).result {} = .ok (some cubeStatement) := by
  have hcalled : cubeCall.calledAs? = some "cube" := rfl
  rw [statement_of_no_arguments cubeCall_callsBy rfl hcalled (by simp)]
  rfl

/-- On the name of a shape, the place is the argument list, though the position stands in front of
the arguments and no definition is around it. -/
theorem completionAt_onCube :
    cubeTree.LaidOut cubeSource ∧ cubeCall.CallsBy cubeCallee cubeArguments ∧
      (statement .complete cubeCall).result {} = .ok (some cubeStatement) ∧
      cubeCallee.node.span.contains ⟨0, 1, 1⟩ = true ∧
      (convert {} cubeTree).program.statementPlace ⟨0, 1, 1⟩ = .topLevel ∧
      ((convert {} cubeTree).program.completionAt ⟨0, 1, 1⟩).place = .argumentList := by
  have hprogram : (convert {} cubeTree).program = [cubeStatement] := by
    have hnodes : cubeTree.significant.map Part.node = [cubeCall] := rfl
    have hleft : outcome {} cubeCall = some cubeStatement := by rw [outcome, result_cubeCall]
    rw [program_eq_filterMap rfl, hnodes, List.filterMap_cons_some hleft]
    rfl
  have hpreorder : Program.preorder [cubeStatement] = [.statement cubeStatement] := by
    rw [Program.preorder]
    show (View.statement cubeStatement).preorder ++ [] = _
    rw [View.preorder_eq]
    rfl
  have hpath : Program.pathTo [cubeStatement] ⟨0, 1, 1⟩ = [.statement cubeStatement] := by
    rw [Program.pathTo]
    show (View.statement cubeStatement).pathTo ⟨0, 1, 1⟩ = _
    rw [View.pathTo_eq]
    rfl
  refine ⟨cubeTree_laidOut, cubeCall_callsBy, result_cubeCall, by decide, ?_, ?_⟩
  · rw [hprogram, Program.statementPlace, hpreorder]
    rfl
  · rw [hprogram]
    show placeKind (Program.pathTo [cubeStatement] ⟨0, 1, 1⟩) _ = _
    rw [hpath]
    rfl

end Convert

end Scad
