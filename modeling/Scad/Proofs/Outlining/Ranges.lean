import Scad.Json.Editor
import Scad.Proofs.Bodies.Place
import Scad.Proofs.Nesting
import Scad.Proofs.Outlining.Outline
import Scad.Proofs.Places

/-!
# The Ranges of an Outline

An editor takes an outline only if its ranges fit: none stops before it starts, the name of an item
stands inside the item, and so does everything below it.  The ranges are counted in lines and 16-bit
units, and the spans that they come from are compared in lines and bytes; over one source both are
in the order of the byte offsets.

A range is sent in numbers of 32 bits, which keeps the order of places only as long as they fit.
A text of less than 2^32 bytes has no others.

* `Place.sent_le_sent` — places that fit are sent in their order.
* `Source.HasSpan` — a span over a source, which a range can be counted from.
* `Node.Yields.standsOver` — every span of a program is one, those of names included.
* `outline_ranges` — the ranges of the outline of a converted tree.
-/

namespace Scad

open Text (Source placeAt rangeOfSpan)

/-! ## §1 Ranges -/

/-- Places are sent by line and unit, and compared the same way. -/
instance : LE SentPlace where
  le p q := p.line < q.line ∨ p.line = q.line ∧ p.character ≤ q.character

theorem SentPlace.le_iff {p q : SentPlace} :
    p ≤ q ↔ p.line < q.line ∨ p.line = q.line ∧ p.character ≤ q.character :=
  Iff.rfl

/-- Places that fit in 32 bits are sent in their order. -/
theorem Place.sent_le_sent {p q : Place} (hp : p.Fits) (hq : q.Fits) (h : p ≤ q) :
    p.sent ≤ q.sent := by
  have hcount {n : Nat} (hn : n < UInt32.size) : (UInt32.ofNat n).toNat = n :=
    UInt32.toNat_ofNat_of_lt hn
  rw [SentPlace.le_iff, UInt32.lt_iff_toNat_lt, UInt32.le_iff_toNat_le, ← UInt32.toNat_inj]
  simp only [sent, hcount hp.1, hcount hp.2, hcount hq.1, hcount hq.2]
  exact h

namespace PlaceRange

/-- The range starts no later than it stops. -/
def Ordered (r : PlaceRange) : Prop :=
  r.start ≤ r.stop

/-- `inner` starts no earlier than `outer`, and stops no later. -/
def Encloses (outer inner : PlaceRange) : Prop :=
  outer.start ≤ inner.start ∧ inner.stop ≤ outer.stop

end PlaceRange

/-! ## §2 Spans over a source -/

namespace Text.Source

/-- The span reaches from an offset of the source to the same or a later one. -/
def HasSpan (s : Source) (t : Span) : Prop :=
  ∃ start stop, start ≤ stop ∧ t = ⟨s.position start, s.position stop⟩

namespace HasSpan

variable {s : Source} {t u : Span}

/-- The earlier of the starts and the later of the stops are in order. -/
theorem merge (ht : s.HasSpan t) (hu : s.HasSpan u) : s.HasSpan (t.merge u) := by
  obtain ⟨start, stop, hle, rfl⟩ := ht
  obtain ⟨start', stop', hle', rfl⟩ := hu
  refine ⟨if start' < start then start' else start, if stop < stop' then stop' else stop, ?_, ?_⟩
  · split <;> split <;> omega
  · simp only [Span.merge, s.position_before_iff, apply_ite s.position]

/-- In a text whose places fit, a later offset is sent as no earlier place. -/
theorem sent_placeAt_mono (hsize : s.size < UInt32.size) {a b : Nat} (h : a ≤ b) :
    (placeAt s.chars a).sent ≤ (placeAt s.chars b).sent :=
  Place.sent_le_sent (placeAt_fits hsize a) (placeAt_fits hsize b) (placeAt_mono s.chars h)

theorem ordered (ht : s.HasSpan t) (hsize : s.size < UInt32.size) :
    (rangeOfSpan s.chars t).Ordered := by
  obtain ⟨start, stop, hle, rfl⟩ := ht
  exact sent_placeAt_mono hsize hle

/-- What is enclosed by line and column is enclosed by line and 16-bit unit. -/
theorem encloses (ht : s.HasSpan t) (hu : s.HasSpan u) (hsize : s.size < UInt32.size)
    (h : t.encloses u = true) : (rangeOfSpan s.chars t).Encloses (rangeOfSpan s.chars u) := by
  obtain ⟨start, stop, -, rfl⟩ := ht
  obtain ⟨start', stop', -, rfl⟩ := hu
  obtain ⟨hstart, hstop⟩ := Span.encloses_iff.mp h
  rw [← Bool.not_eq_true, s.position_before_iff, Nat.not_lt] at hstart hstop
  exact ⟨sent_placeAt_mono hsize hstart, sent_placeAt_mono hsize hstop⟩

end HasSpan

end Text.Source

theorem Node.StandsOver.hasSpan {s : Source} {n : Node} (h : n.StandsOver s) :
    s.HasSpan n.span := by
  refine ⟨n.startByte, n.stopByte, h.start_le_stop, ?_⟩
  rw [← h.start_eq, ← h.stop_eq]

/-! ## §3 The spans of a program -/

/-- The view and its name stand over the source. -/
structure View.StandsOver (s : Source) (v : View) : Prop where
  span : s.HasSpan v.span
  name : ∀ t, v.nameSpan? = some t → s.HasSpan t

/-- Over a source, everything that is made of the syntax of a node stands over that source. -/
theorem Node.Yields.standsOver {s : Source} {n : Node} {v : View} (h : n.Yields v)
    (hn : n.LaidOut s) : ∀ w ∈ v.preorder, w.StandsOver s := by
  have hnode {m n : Node} (hn : n.LaidOut s) (hm : m.Within n) : s.HasSpan m.span :=
    (hn m hm).hasSpan
  -- By how the view is made: it stands where a node does, or from one node to another.
  induction h with
  | made hspan hname _ ih =>
    rw [View.forall_mem_preorder]
    refine ⟨⟨?_, ?_⟩, fun c hc => ih c hc hn⟩
    · rw [hspan]
      exact hnode hn (.refl _)
    · intro t ht
      obtain ⟨m, hm, rfl⟩ := hname t ht
      exact hnode hn hm
  | within hm _ ih => exact ih (hn.mono hm)
  | loop hiterator hrange _ ih =>
    rw [View.forall_mem_preorder]
    refine ⟨⟨?_, ?_⟩, ?_⟩
    · exact (hnode hn hiterator).merge (hnode hn hrange)
    · rintro t ⟨⟩
      exact hnode hn hiterator
    · intro c hc
      cases List.mem_singleton.mp hc
      exact ih (hn.mono hrange)
  | modified hmodifier htarget _ ih =>
    rw [View.forall_mem_preorder]
    refine ⟨⟨?_, nofun⟩, ?_⟩
    · exact (hnode hn hmodifier).merge (hnode hn htarget)
    · intro c hc
      cases List.mem_singleton.mp hc
      exact ih (hn.mono htarget)
  | @beside modifier target n kind child hlist hstop _ ih =>
    have hmodifier : modifier.Within n := Node.Holds.within (.inr (hlist.subset (by simp)))
    have htarget : target.Within n := Node.Holds.within (.inr (hlist.subset (by simp)))
    rw [View.forall_mem_preorder]
    refine ⟨⟨?_, nofun⟩, ?_⟩
    · exact hnode hn hmodifier
    · intro c hc
      cases List.mem_singleton.mp hc
      exact ih (hn.mono htarget)

theorem View.NestedIn.name {s t : Span} {v : View} (h : v.NestedIn s)
    (ht : v.nameSpan? = some t) : v.span.encloses t = true := by
  cases h with
  | intro _ _ hname _ => exact hname t ht

namespace Convert

variable {s : Source} {root : Node} {settings : Settings}

/-- A symbol of a converted tree and what an editor selects of it stand over the source, the one
inside the other. -/
theorem symbol_standsOver (h : root.LaidOut s) {x : Symbol}
    (hx : x ∈ (convert settings root).program.symbols) :
    s.HasSpan x.span ∧ s.HasSpan x.selection ∧ x.span.encloses x.selection = true := by
  obtain ⟨ms, hms, -, hyields⟩ := exists_nodes_of_views h settings
  obtain ⟨v, hv, hx⟩ := List.mem_flatMap.mp hx
  obtain ⟨m, hm, hv⟩ := Conversion.Meets.exists_of_forall₂ hyields v hv
  obtain ⟨w, hw, hspan, hname, -⟩ := View.exists_of_mem_symbols hx
  have hm := h.mono (hms m hm)
  have hstands := hv.standsOver hm w hw
  obtain ⟨outer, hnested⟩ := (hv.nestedIn hm).of_mem_preorder hw
  rw [Symbol.selection, hspan, hname]
  -- What is selected is the name, or the whole symbol where it has none.
  cases hselected : w.nameSpan? with
  | none => exact ⟨hstands.span, hstands.span, Span.encloses_refl _⟩
  | some t => exact ⟨hstands.span, hstands.name t hselected, hnested.name hselected⟩

/-! ## §4 The outline -/

/-- The outline of a tree that is laid out over a source of less than 2^32 bytes fits together in
the lines and 16-bit units of an editor, as they are sent.  No range stops before it starts; what an
editor selects of an item stands inside the item, and so does every item directly below it. -/
theorem outline_ranges (h : root.LaidOut s) (hsize : s.size < UInt32.size) (settings : Settings) :
    ∀ i ∈ Outline.items (convert settings root).program.outline,
      (rangeOfSpan s.chars i.symbol.span).Ordered ∧
        (rangeOfSpan s.chars i.symbol.selection).Ordered ∧
        (rangeOfSpan s.chars i.symbol.span).Encloses
          (rangeOfSpan s.chars i.symbol.selection) ∧
        ∀ c ∈ i.children, (rangeOfSpan s.chars i.symbol.span).Encloses
          (rangeOfSpan s.chars c.symbol.span) := by
  intro i hi
  obtain ⟨e, he, hsymbol, hchildren⟩ := Outline.exists_entries_of_mem_items hi
  have hmem {e : Outline.Entry}
      (he : e ∈ Outline.entries (convert settings root).program.symbols) :
      e.symbol ∈ (convert settings root).program.symbols := by
    obtain ⟨⟨x, number⟩, hx, rfl⟩ := List.mem_map.mp he
    exact List.fst_mem_of_mem_zipIdx hx
  obtain ⟨hspan, hselection, hinside⟩ := symbol_standsOver h (hmem he)
  rw [← hsymbol]
  refine ⟨hspan.ordered hsize, hselection.ordered hsize, hspan.encloses hselection hsize hinside,
    fun c hc => ?_⟩
  -- An item below another one is owned by it, and an owner encloses what it owns.
  obtain ⟨e', he', hsymbol', howner⟩ := hchildren c hc
  obtain ⟨hspan', -, -⟩ := symbol_standsOver h (hmem he')
  rw [← hsymbol']
  exact hspan.encloses hspan' hsize (Outline.encloses_of_owner he he' howner)

/-! A module with a parameter, behind a character of four bytes and two 16-bit units. -/

/-- A comment and a module. -/
def behindComment : Source :=
  .ofText "/*😀*/module m(a){}"

/-- The tree over the comment and the module. -/
def behindCommentTree : Node :=
  (behindComment.root.push (behindComment.node "comment" 0 8 true)).push <|
    (((behindComment.node "module_definition" 8 21 true).push
      ((behindComment.node "identifier" 15 16 true).labelled "name")).push
      (((behindComment.node "parameter_list" 16 19 true).push
        (behindComment.node "identifier" 17 18 true)).labelled "parameters")).push
      ((behindComment.node "block" 19 21 true).labelled "body")

theorem behindCommentTree_laidOut : behindCommentTree.LaidOut behindComment := by
  have hnode (tag : String) (start stop : Nat) :
      (behindComment.node tag start stop true).LaidOut behindComment :=
    Node.laidOut_node behindComment tag start stop true
  have hparameters : ((behindComment.node "parameter_list" 16 19 true).push
      (behindComment.node "identifier" 17 18 true)).LaidOut behindComment := by
    refine .push (hnode _ _ _) (hnode _ _ _) ?_ ?_ ?_ ?_
    all_goals decide
  refine .push (.push (Node.laidOut_node _ _ _ _ _) (hnode _ _ _) ?_ ?_ ?_ ?_)
    (.push (.push (.push (hnode _ _ _) ((hnode _ _ _).labelled _) ?_ ?_ ?_ ?_)
      (hparameters.labelled _) ?_ ?_ ?_ ?_) ((hnode _ _ _).labelled _) ?_ ?_ ?_ ?_) ?_ ?_ ?_ ?_
  all_goals decide

theorem outline_ranges_behindComment :
    behindCommentTree.LaidOut behindComment ∧ behindComment.size < UInt32.size ∧
      ∀ i ∈ Outline.items (convert {} behindCommentTree).program.outline,
        (rangeOfSpan behindComment.chars i.symbol.span).Ordered ∧
          (rangeOfSpan behindComment.chars i.symbol.selection).Ordered ∧
          (rangeOfSpan behindComment.chars i.symbol.span).Encloses
            (rangeOfSpan behindComment.chars i.symbol.selection) ∧
          ∀ c ∈ i.children, (rangeOfSpan behindComment.chars i.symbol.span).Encloses
            (rangeOfSpan behindComment.chars c.symbol.span) :=
  ⟨behindCommentTree_laidOut, by decide, outline_ranges behindCommentTree_laidOut (by decide) {}⟩

/-! ## §5 Ranges that do not fit

Both conditions are needed: with 2^32 line feeds in an item its last line is sent as its first, and
a node that stops before it starts is shown as it stands. -/

open Conversion Node

/-- The span between two offsets. -/
def spanBetween (s : Source) (start stop : Nat) : Span :=
  ⟨s.position start, s.position stop⟩

/-- The name of an assignment of `y` to `x`. -/
def xTarget (span : Span) : Node where
  tag := "identifier"
  text := "x"
  span
  label := some "name"

/-- The value of that assignment. -/
def ySource (span : Span) : Node where
  tag := "identifier"
  text := "y"
  span
  label := some "value"

/-- The assignment, with the text that it covers. -/
def xAssignment (text : String) (name value span : Span) : Node :=
  (({ tag := "assignment_statement", text, span } : Node).push (xTarget name)).push (ySource value)

/-- A file of that assignment. -/
def xFile (s : Source) (name value span : Span) : Node :=
  s.root.push (xAssignment s.text name value span)

theorem program_xFile (s : Source) (name value span : Span) :
    (convert {} (xFile s name value span)).program =
      [.assignment ⟨"x", name, .identifier "y" value, span⟩] := by
  have htrimmed : (xTarget name).trimmed = "x" ∧ (ySource value).trimmed = "y" := by
    show Text.trim "x" = "x" ∧ Text.trim "y" = "y"
    decide
  have hshown : (xTarget name).hasText = true := by
    show (!Text.isBlankText "x") = true
    decide
  have hvalue : expression (ySource value) = pure (some (.identifier "y" value)) := by
    rw [expression_eq, ← htrimmed.2]
    rfl
  have hname : ((xAssignment s.text name value span).field? "name").or
      (nameChild? (xAssignment s.text name value span)) =
      some ⟨xTarget name, sizeOf_lt_of_mem_children (.head _)⟩ := rfl
  have hassignment : (statement .complete (xAssignment s.text name value span)).result {} =
      .ok (some (.assignment ⟨"x", name, .identifier "y" value, span⟩)) := by
    rw [statement_eq]
    show (binding (xAssignment s.text name value span) (expressions _) >>= _).result {} = _
    unfold binding
    rw [hname]
    simp only [Option.filter, hshown]
    show ((expression (ySource value) >>= _) >>= _).result {} = _
    rw [hvalue]
    show Except.ok (some (Statement.assignment ⟨(xTarget name).trimmed, _, _, _⟩)) = _
    rw [htrimmed.1]
    rfl
  have hnodes : (xFile s name value span).significant.map Part.node =
      [xAssignment s.text name value span] := rfl
  rw [program_eq_filterMap rfl, hnodes, List.filterMap_cons_some (by rw [outcome, hassignment])]
  rfl

/-- The outline of the file has an item over the whole assignment. -/
theorem exists_item_xFile (s : Source) (name value span : Span) :
    ∃ i ∈ Outline.items (convert {} (xFile s name value span)).program.outline,
      i.symbol.span = span := by
  have hsymbols : (convert {} (xFile s name value span)).program.symbols =
      [Symbol.ofBinding none ⟨"x", name, .identifier "y" value, span⟩] := by
    rw [program_xFile]
    simp [Program.symbols, Program.views, View.symbols, View.children, View.ofStatementParts,
      Symbol.ofStatement?, Statement.innerScope, View.ofStatement]
  have houtline (x : Symbol) (h : x.scope = none) : outlineOf [x] = [⟨x, []⟩] := by
    simp [outlineOf, Outline.itemsBelow, Outline.entries, Outline.owner?, h]
  rw [Program.outline, hsymbols, houtline _ rfl, Outline.items_cons]
  exact ⟨_, List.mem_cons_self, rfl⟩

theorem laidOut_of_leaf {n : Node} {start stop : Nat} (hle : start ≤ stop)
    (hspan : n.span = spanBetween s start stop) (hchildren : n.children = [])
    (hnamed : n.named = []) : n.LaidOut s := by
  have hheld (c : Node) : ¬n.Holds c := by simp [Holds, hchildren, hnamed]
  refine .of_holds ⟨?_, ?_, ?_, fun c hc => absurd hc (hheld c), ?_, ?_⟩
    fun c hc => absurd hc (hheld c)
  all_goals simp [startByte, stopByte, hspan, spanBetween, Source.position, hchildren, hnamed, hle]

theorem xFile_laidOut {start stop : Nat} (h : start + 3 ≤ stop) (hsize : stop ≤ s.size) :
    (xFile s (spanBetween s start (start + 1)) (spanBetween s (start + 2) (start + 3))
      (spanBetween s start stop)).LaidOut s := by
  have hname : (xTarget (spanBetween s start (start + 1))).LaidOut s :=
    laidOut_of_leaf (Nat.le_succ _) rfl rfl rfl
  have hvalue : (ySource (spanBetween s (start + 2) (start + 3))).LaidOut s :=
    laidOut_of_leaf (Nat.le_succ _) rfl rfl rfl
  have hbare : ({ tag := "assignment_statement"
                  text := s.text
                  span := spanBetween s start stop } : Node).LaidOut s :=
    laidOut_of_leaf (by omega) rfl rfl rfl
  refine .push (laidOut_node _ _ _ _ _) (.push (.push hbare hname ?_ ?_ ?_ ?_) hvalue ?_ ?_ ?_ ?_)
    ?_ ?_ ?_ ?_
  all_goals simp [Node.push, xTarget, ySource, xAssignment, startByte, stopByte, spanBetween,
    Source.position, Source.root, Source.node]
  all_goals omega

/-- The text `   x=y`, some line feeds, and a semicolon. -/
def tallText (count : Nat) : List Char :=
  "   x=y".toList ++ List.replicate count '\n' ++ ";".toList

/-- The source of that text. -/
def tall (count : Nat) : Source where
  text := String.ofList (tallText count)
  chars := tallText count
  chars_eq := String.toList_ofList.symm

/-- The tree over it. -/
def tallTree (count : Nat) : Node :=
  xFile (tall count) (spanBetween (tall count) 3 4) (spanBetween (tall count) 5 6)
    (spanBetween (tall count) 3 (count + 7))

theorem size_tall (count : Nat) : (tall count).size = count + 7 := by
  have hlines : Text.byteLength (List.replicate count '\n') = count := by
    induction count with
    | zero => rfl
    | succ count ih =>
      rw [List.replicate_succ, Text.byteLength, ih, Text.utf8Size_newline, Nat.add_comm]
  show Text.byteLength ("   x=y".toList ++ List.replicate count '\n' ++ ";".toList) = _
  rw [Text.byteLength_append, Text.byteLength_append, hlines]
  show 6 + count + 1 = _
  omega

/-- The assignment starts on the first line, and stops as many lines below as there are line
feeds. -/
theorem placeAt_tall {count : Nat} (hpos : 0 < count) :
    placeAt (tall count).chars 3 = ⟨0, 3⟩ ∧
      placeAt (tall count).chars (count + 7) = ⟨count, 1⟩ := by
  have hlines (p : Place) (k : Nat) :
      (List.replicate (k + 1) '\n').foldl Text.placeAfter p = ⟨p.line + (k + 1), 0⟩ := by
    induction k generalizing p with
    | zero => rfl
    | succ k ih =>
      rw [List.replicate_succ, List.foldl_cons, ih]
      simp [Text.placeAfter]
      omega
  obtain ⟨k, rfl⟩ : ∃ k, count = k + 1 := Nat.exists_eq_add_one.mpr hpos
  constructor
  · have hprefix : "   ".toList <+: tallText (k + 1) := ⟨_, rfl⟩
    exact Text.placeAt_byteLength hprefix
  · rw [← size_tall]
    refine (Text.placeAt_byteLength (List.prefix_refl _)).trans ?_
    show ("   x=y".toList ++ List.replicate (k + 1) '\n' ++ ";".toList).foldl Text.placeAfter {} = _
    rw [List.foldl_append, List.foldl_append, hlines]
    have hfirst : ("   x=y".toList.foldl Text.placeAfter {}).line = 0 := by decide
    rw [hfirst, Nat.zero_add]
    rfl

/-- With as many line feeds as 32 bits count, the last line is sent as the first. -/
theorem not_ordered_tall {count : Nat} (hpos : 0 < count) (hwrap : UInt32.ofNat count = 0) :
    (tallTree count).LaidOut (tall count) ∧
      ∃ i ∈ Outline.items (convert {} (tallTree count)).program.outline,
        ¬(rangeOfSpan (tall count).chars i.symbol.span).Ordered := by
  obtain ⟨hstart, hstop⟩ := placeAt_tall hpos
  obtain ⟨i, hi, hspan⟩ := exists_item_xFile (tall count) (spanBetween (tall count) 3 4)
    (spanBetween (tall count) 5 6) (spanBetween (tall count) 3 (count + 7))
  refine ⟨xFile_laidOut (by omega) (by rw [size_tall]), i, hi, fun hordered => ?_⟩
  have hrange : rangeOfSpan (tall count).chars i.symbol.span = ⟨⟨0, 3⟩, ⟨0, 1⟩⟩ := by
    rw [hspan]
    show PlaceRange.mk (placeAt _ 3).sent (placeAt _ (count + 7)).sent = _
    rw [hstart, hstop, Place.sent, Place.sent, hwrap]
    rfl
  rw [hrange, PlaceRange.Ordered, SentPlace.le_iff] at hordered
  exact absurd hordered (by decide)

/-- What `StandsOver` asks of a node, but that it starts no later than it stops. -/
structure CoversBytes (s : Source) (n : Node) : Prop where
  start_eq : n.span.start = s.position n.startByte
  stop_eq : n.span.stop = s.position n.stopByte
  inside : ∀ c, n.Holds c → n.startByte ≤ c.startByte ∧ c.stopByte ≤ n.stopByte
  children_apart : n.children.IsChain fun a b => a.stopByte ≤ b.startByte
  named_apart : n.named.IsChain fun a b => a.stopByte ≤ b.startByte

/-- The source `x=y;`. -/
def shortSource : Source :=
  .ofText "x=y;"

/-- The span from its last byte back to its second. -/
def backward : Span :=
  spanBetween shortSource 3 1

/-- A tree over it, of which every node below the root stops before it starts. -/
def backwardTree : Node :=
  xFile shortSource backward backward backward

theorem coversBytes_backwardTree :
    ∀ n : Node, n.Within backwardTree → CoversBytes shortSource n := by
  have hleaf {c : Node} (hspan : c.span = backward) (hchildren : c.children = [])
      (hnamed : c.named = []) : ∀ m : Node, m.Within c → CoversBytes shortSource m := by
    have hheld (d : Node) : ¬c.Holds d := by simp [Holds, hchildren, hnamed]
    refine forall_within ⟨?_, ?_, fun d hd => absurd hd (hheld d), ?_, ?_⟩
      fun d hd => absurd hd (hheld d)
    all_goals simp [startByte, stopByte, hspan, backward, spanBetween, Source.position, hchildren,
      hnamed]
  have hstatement {c : Node}
      (hc : (xAssignment shortSource.text backward backward backward).Holds c) :
      c = xTarget backward ∨ c = ySource backward := by
    simpa [Holds, xAssignment, Node.push, xTarget, ySource] using hc
  have hroot {c : Node} (hc : backwardTree.Holds c) :
      c = xAssignment shortSource.text backward backward backward := by
    simpa [Holds, backwardTree, xFile, Node.push, Source.root, Source.node, xAssignment] using hc
  refine forall_within ⟨rfl, rfl, fun c hc => ?_, by decide, by decide⟩ fun c hc => ?_
  · obtain rfl := hroot hc
    decide
  obtain rfl := hroot hc
  refine forall_within ⟨rfl, rfl, fun d hd => ?_, by decide, by decide⟩ fun d hd => ?_
  · rcases hstatement hd with rfl | rfl <;> decide
  · rcases hstatement hd with rfl | rfl
    · exact hleaf rfl rfl rfl
    · exact hleaf rfl rfl rfl

/-- A range that stops before it starts: of an item that reaches over 2^32 line feeds, and of a
node that does. -/
theorem exists_not_ordered :
    ((tallTree UInt32.size).LaidOut (tall UInt32.size) ∧
      ∃ i ∈ Outline.items (convert {} (tallTree UInt32.size)).program.outline,
        ¬(rangeOfSpan (tall UInt32.size).chars i.symbol.span).Ordered) ∧
    ((∀ n : Node, n.Within backwardTree → CoversBytes shortSource n) ∧
      ∃ i ∈ Outline.items (convert {} backwardTree).program.outline,
        ¬(rangeOfSpan shortSource.chars i.symbol.span).Ordered) := by
  refine ⟨not_ordered_tall (by decide) (by decide), coversBytes_backwardTree, ?_⟩
  obtain ⟨i, hi, hspan⟩ := exists_item_xFile shortSource backward backward backward
  refine ⟨i, hi, fun hordered => ?_⟩
  rw [hspan, PlaceRange.Ordered, SentPlace.le_iff] at hordered
  exact absurd hordered (by decide)

end Convert

end Scad
