import Mathlib.Data.List.Flatten
import Scad.Proofs.Outlining.Outline
import Scad.Proofs.Scoping.Completion

/-!
# The Innermost Symbol

The search for the symbol at a position compares the symbols that hold it by their spans, two at a
time and in the order of the source.  Of two spans neither need enclose the other, so the answer
could depend on that order.  In a well nested program it does not: whatever holds a position lies on
the path to it, where each span encloses the next.

* `View.map_span_symbols_sublist` — the spans of the symbols, among those of the views.
* `Program.pairwise_encloses_holders` — the symbols that hold a position enclose one another.
* `Program.symbolAt?_innermost` — the search finds the innermost of them.
-/

namespace Scad

variable {p : Position}

/-! ## §1 Symbols among views -/

namespace View

/-- Each symbol stands where a view stands, another one for each symbol and in the same order. -/
theorem map_span_symbols_sublist (scope : Option String) (v : View) :
    ((v.symbols scope).map Symbol.span).Sublist (v.preorder.map span) := by
  induction v using View.induct generalizing scope with
  | step v ih =>
    rw [preorder_eq, List.map_cons]
    cases v with
    | statement s =>
      rw [symbols_statement, List.map_append, ← List.singleton_append]
      apply List.Sublist.append
      · -- The statement itself gives a symbol where it is a definition.
        cases hsymbol : Symbol.ofStatement? scope s with
        | none => exact List.nil_sublist _
        | some d =>
          rw [Option.toList_some, List.map_singleton, Symbol.span_of_ofStatement? hsymbol]
          exact List.Sublist.refl _
      · rw [List.map_flatMap, List.map_flatMap]
        exact List.Sublist.flatMap_right _ fun c hc => ih c hc _
    | declaration d =>
      rw [symbols]
      exact (List.nil_sublist _).cons_cons _
    | binding b =>
      rw [symbols]
      exact (List.nil_sublist _).cons_cons _
    | expression e | argument a | fault f =>
      rw [symbols]
      exact List.nil_sublist _

/-- Each view on a path encloses all behind it. -/
theorem WellNested.pairwise_pathTo {v : View} (h : v.WellNested) (p : Position) :
    (v.pathTo p).Pairwise fun outer inner => outer.span.encloses inner.span = true := by
  induction v using View.induct with
  | step v ih =>
    rw [pathTo_eq]
    cases hfind : v.children.find? (holds p) with
    | none => exact List.pairwise_singleton _ v
    | some c =>
      have hc := List.mem_of_find?_eq_some hfind
      refine .cons (fun w hw => ?_) (ih c hc (h.child hc))
      exact h.encloses (mem_preorder_of_child hc (mem_preorder_of_mem_pathTo hw))

end View

namespace Program

variable {program : Program}

theorem map_span_symbols_sublist (program : Program) :
    (program.symbols.map Symbol.span).Sublist (program.preorder.map View.span) := by
  rw [symbols, preorder, List.map_flatMap, List.map_flatMap]
  exact List.Sublist.flatMap_right _ fun v _ => v.map_span_symbols_sublist none

/-! ## §2 The symbols that hold a position -/

theorem WellNested.pairwise_pathTo (h : program.WellNested) (p : Position) :
    (program.pathTo p).Pairwise fun outer inner => outer.span.encloses inner.span = true := by
  rw [pathTo]
  cases hfind : program.views.find? (View.holds p) with
  | none => exact .nil
  | some v => exact (h.view (List.mem_of_find?_eq_some hfind)).pairwise_pathTo p

/-- Of the symbols that hold a position, each encloses all behind it. -/
theorem pairwise_encloses_holders (h : program.WellNested) (p : Position) :
    (program.symbols.filter (·.span.contains p)).Pairwise
      fun outer inner => outer.span.encloses inner.span = true := by
  -- Their spans are among those of the path.
  have hspans : ((program.symbols.filter (·.span.contains p)).map Symbol.span).Sublist
      ((program.pathTo p).map View.span) := by
    have hfilter := program.map_span_symbols_sublist.filter (·.contains p)
    rw [List.filter_map, List.filter_map] at hfilter
    rw [← filter_preorder h p]
    exact hfilter
  have hpath : ((program.pathTo p).map View.span).Pairwise
      fun outer inner => outer.encloses inner = true :=
    List.pairwise_map.mpr (h.pairwise_pathTo p)
  exact List.pairwise_map.mp (hpath.sublist hspans)

/-! ## §3 The search -/

/-- Where each candidate encloses all behind it, the last of them is taken. -/
theorem foldl_innerSymbol {first : Symbol} {rest : List Symbol}
    (h : (first :: rest).Pairwise fun outer inner => outer.span.encloses inner.span = true) :
    rest.foldl innerSymbol first = (first :: rest).getLast (List.cons_ne_nil _ _) := by
  induction rest generalizing first with
  | nil => rfl
  | cons next rest ih =>
    obtain ⟨hfirst, hrest⟩ := List.pairwise_cons.mp h
    have hstep : innerSymbol first next = next := if_pos (hfirst next List.mem_cons_self)
    rw [List.foldl_cons, hstep, ih hrest, List.getLast_cons (List.cons_ne_nil _ _)]

theorem symbolAt?_eq_getLast? (h : program.WellNested) (p : Position) :
    program.symbolAt? p = (program.symbols.filter (·.span.contains p)).getLast? := by
  have hholders := pairwise_encloses_holders h p
  rw [symbolAt?]
  cases hlist : program.symbols.filter (·.span.contains p) with
  | nil => rfl
  | cons first rest =>
    rw [hlist] at hholders
    rw [List.getLast?_eq_some_getLast (List.cons_ne_nil _ _), ← foldl_innerSymbol hholders]

/-- In a well nested program no symbol is found exactly where none holds the position; a symbol that
is found holds the position, and every symbol that holds it encloses the one that is found. -/
theorem symbolAt?_innermost (program : Program) (h : program.WellNested) (p : Position) :
    (program.symbolAt? p = none ↔ ∀ x ∈ program.symbols, x.span.contains p = false) ∧
      ∀ x, program.symbolAt? p = some x →
        x ∈ program.symbols ∧ x.span.contains p = true ∧
          ∀ y ∈ program.symbols, y.span.contains p = true → y.span.encloses x.span = true := by
  rw [symbolAt?_eq_getLast? h]
  constructor
  · rw [List.getLast?_eq_none_iff, List.filter_eq_nil_iff]
    simp only [Bool.not_eq_true]
  · intro x hx
    obtain ⟨hmem, hholds⟩ := List.mem_filter.mp (List.mem_of_getLast? hx)
    refine ⟨hmem, hholds, fun y hy hyholds => ?_⟩
    have hholders := pairwise_encloses_holders h p
    obtain ⟨outer, hlist⟩ := List.getLast?_eq_some_iff.mp hx
    have hymem : y ∈ program.symbols.filter (·.span.contains p) :=
      List.mem_filter.mpr ⟨hy, hyholds⟩
    rw [hlist] at hholders hymem
    -- The other symbol stands in front of the last, or is the last itself.
    rcases List.mem_append.mp hymem with hy | hy
    · exact (List.pairwise_append.mp hholders).2.2 y hy x (List.mem_singleton_self x)
    · rw [List.mem_singleton.mp hy]
      exact Span.encloses_refl _

/-- The symbols of `module m(a) {}` and of the function below it. -/
theorem moduleAndFunction_symbols :
    (moduleAndFunction "f").symbols.map (fun x => (x.name, x.span)) =
      [("m", ⟨⟨0, 0, 0⟩, ⟨0, 14, 14⟩⟩), ("a", ⟨⟨0, 9, 9⟩, ⟨0, 10, 10⟩⟩),
       ("f", ⟨⟨1, 0, 15⟩, ⟨1, 18, 33⟩⟩), ("b", ⟨⟨1, 11, 26⟩, ⟨1, 12, 27⟩⟩)] := by
  simp [symbols, views, moduleAndFunction, moduleOfA, functionOfB, View.ofStatement,
    View.symbols_statement, View.symbols, View.children, View.ofStatementParts,
    Symbol.ofStatement?, Symbol.ofDeclaration]

/-- Of the symbols at the parameter of `module m(a) {}`, the parameter is the innermost. -/
theorem symbolAt?_innermost_parameter :
    (moduleAndFunction "f").WellNested ∧
      ∃ x, (moduleAndFunction "f").symbolAt? ⟨0, 9, 9⟩ = some x ∧
        x ∈ (moduleAndFunction "f").symbols ∧ x.span.contains ⟨0, 9, 9⟩ = true ∧
        ∀ y ∈ (moduleAndFunction "f").symbols, y.span.contains ⟨0, 9, 9⟩ = true →
          y.span.encloses x.span = true := by
  have hnested := moduleAndFunction_wellNested "f"
  obtain ⟨hnone, hsome⟩ := symbolAt?_innermost (moduleAndFunction "f") hnested ⟨0, 9, 9⟩
  refine ⟨hnested, ?_⟩
  cases hx : (moduleAndFunction "f").symbolAt? ⟨0, 9, 9⟩ with
  | some x => exact ⟨x, rfl, hsome x hx⟩
  | none =>
    -- The parameter is listed, and it holds the position.
    have hlisted : ("a", (⟨⟨0, 9, 9⟩, ⟨0, 10, 10⟩⟩ : Span)) ∈
        (moduleAndFunction "f").symbols.map fun x => (x.name, x.span) := by
      simp [moduleAndFunction_symbols]
    obtain ⟨a, ha, hplace⟩ := List.mem_map.mp hlisted
    have hfree := hnone.mp hx a ha
    rw [(Prod.mk.inj hplace).2] at hfree
    exact absurd hfree (by decide)

end Program

end Scad
