import Mathlib.Data.List.Forall2
import Scad.Proofs.Outlining.Owners
import Scad.Proofs.Provenance.Origin
import Scad.Proofs.Scoping.Symbols

/-!
# The Outline of a Program

The outline is put together from a flat list of symbols, of which each knows the name of its scope
and its span, but not the definition that it was found in.  Where the spans of a program are those
of a nested text, nothing gets lost on that detour: the outline is the forest of the symbols as the
definitions of the program hold them.

* `View.outlined` — that forest, in one walk over a view.
* `Program.WellLocated` — what is asked of the spans of a program.
* `outline_exact` — the outline is that forest, and its links lead to the nearest definition.
-/

namespace Scad

/-! ## §1 What a symbol is made of -/

namespace Symbol

variable {scope : Option String} {s : Statement} {d : Symbol}

theorem span_of_ofStatement? (h : ofStatement? scope s = some d) : d.span = s.span := by
  cases s <;> simp [ofStatement?] at h <;> rw [← h] <;> rfl

theorem nameSpan_of_ofStatement? (h : ofStatement? scope s = some d) :
    d.nameSpan = (View.statement s).nameSpan? := by
  cases s <;> simp [ofStatement?] at h <;> rw [← h] <;> rfl

theorem isDefinition_of_ofStatement? (h : ofStatement? scope s = some d) :
    d.kind.isDefinition = true := by
  cases s <;> simp [ofStatement?] at h <;> rw [← h] <;> rfl

theorem isDefinition_ofBinding (b : Binding) : (ofBinding scope b).kind.isDefinition = false := by
  rw [ofBinding]
  dsimp only
  split <;> rfl

end Symbol

theorem Statement.isDefinition_eq (s : Statement) (scope : Option String) :
    s.isDefinition = (Symbol.ofStatement? scope s).isSome := by
  rw [isDefinition, ← Symbol.map_name_ofStatement? scope, Option.isSome_map]

namespace View

/-- Whether a view shows the definition of a module or of a function. -/
def isDefinition : View → Bool
  | statement s => s.isDefinition
  | _ => false

/-- Every symbol stands where a view stands and is named where that is, and it is that of a
definition where the view is. -/
theorem exists_of_mem_symbols {scope : Option String} {v : View} {x : Symbol}
    (h : x ∈ v.symbols scope) :
    ∃ w ∈ v.preorder, x.span = w.span ∧ x.nameSpan = w.nameSpan? ∧
      x.kind.isDefinition = w.isDefinition := by
  induction v using View.induct generalizing scope with
  | step v ih =>
    cases v with
    | statement s =>
      rw [symbols_statement, List.mem_append] at h
      rcases h with h | h
      · have hsymbol := Option.mem_toList.mp h
        refine ⟨_, self_mem_preorder _, Symbol.span_of_ofStatement? hsymbol,
          Symbol.nameSpan_of_ofStatement? hsymbol, ?_⟩
        rw [Symbol.isDefinition_of_ofStatement? hsymbol, isDefinition,
          s.isDefinition_eq scope, hsymbol, Option.isSome_some]
      · obtain ⟨c, hc, hx⟩ := List.mem_flatMap.mp h
        obtain ⟨w, hw, hfound⟩ := ih c hc hx
        exact ⟨w, mem_preorder_of_child hc hw, hfound⟩
    | declaration d =>
      rw [symbols, List.mem_singleton] at h
      subst h
      exact ⟨_, self_mem_preorder _, rfl, rfl, rfl⟩
    | binding b =>
      rw [symbols, List.mem_singleton] at h
      subst h
      exact ⟨_, self_mem_preorder _, rfl, rfl, Symbol.isDefinition_ofBinding b⟩
    | expression | argument | fault => simp [symbols] at h

end View

/-! ## §2 The forest of a program -/

namespace Outline

/-- The forest below a definition, where there is one. -/
def under (definition : Option Symbol) (inside : List OutlineItem) : List OutlineItem :=
  match definition with
  | some d => [⟨d, inside⟩]
  | none => inside

/-- The item of a symbol that holds nothing. -/
def leaf (s : Symbol) : OutlineItem :=
  ⟨s, []⟩

@[simp] theorem symbols_under (definition : Option Symbol) (inside : List OutlineItem) :
    symbols (under definition inside) = definition.toList ++ symbols inside := by
  cases definition <;> simp [under]

@[simp] theorem symbols_flatMap {α : Type} (l : List α) (f : α → List OutlineItem) :
    symbols (l.flatMap f) = l.flatMap fun a => symbols (f a) := by
  induction l with
  | nil => simp
  | cons a l ih => simp [ih]

@[simp] theorem links_under (parent definition : Option Symbol) (inside : List OutlineItem) :
    links parent (under definition inside) =
      (definition.toList.map fun d => (parent, d)) ++ links (definition.or parent) inside := by
  cases definition <;> simp [under]

@[simp] theorem links_map_leaf {α : Type} (parent : Option Symbol) (l : List α)
    (f : α → Symbol) : links parent (l.map fun a => leaf (f a)) = l.map fun a => (parent, f a) := by
  induction l with
  | nil => simp
  | cons a l ih =>
    rw [List.map_cons, List.map_cons, links_cons, ih]
    simp [leaf]

@[simp] theorem links_flatMap {α : Type} (parent : Option Symbol) (l : List α)
    (f : α → List OutlineItem) :
    links parent (l.flatMap f) = l.flatMap fun a => links parent (f a) := by
  induction l with
  | nil => simp
  | cons a l ih => simp [ih]

end Outline

open Outline (under leaf)

namespace View

/-- The symbols of a view that stands in a scope, as a forest. -/
def outlined (scope : Option String) (v : View) : List OutlineItem :=
  match v with
  | .statement s =>
    under (Symbol.ofStatement? scope s) <|
      (View.statement s).children.attach.flatMap fun c => outlined (s.innerScope scope) c.1
  | .declaration d => [leaf (Symbol.ofDeclaration scope d)]
  | .binding b => [leaf (Symbol.ofBinding scope b)]
  | .expression _ | .argument _ | .fault _ => []
termination_by v.weight
decreasing_by exact View.weight_lt_of_mem_children c.2

variable {scope : Option String} {v : View}

theorem outlined_statement (scope : Option String) (s : Statement) :
    (statement s).outlined scope =
      under (Symbol.ofStatement? scope s)
        ((statement s).children.flatMap (outlined (s.innerScope scope))) := by
  rw [outlined]
  congr 1
  simp [List.flatMap_subtype]

/-- The forest holds the symbols that the walk lists, in the same order. -/
theorem symbols_outlined (scope : Option String) (v : View) :
    Outline.symbols (v.outlined scope) = v.symbols scope := by
  induction v using View.induct generalizing scope with
  | step v ih =>
    cases v with
    | statement s =>
      rw [outlined_statement, symbols_statement, Outline.symbols_under, Outline.symbols_flatMap]
      congr 1
      apply List.flatMap_congr
      intro c hc
      exact ih c hc (s.innerScope scope)
    | declaration | binding => simp [outlined, symbols, leaf]
    | expression | argument | fault => simp [outlined, symbols]

theorem outlined_ofStatement (scope : Option String) (s : Statement) :
    (ofStatement s).outlined scope =
      under (Symbol.ofStatement? scope s)
        ((s.parameters.map fun d => leaf (Symbol.ofDeclaration (s.innerScope scope) d)) ++
          ((s.bindings ++ s.strayBindings).map fun b =>
            leaf (Symbol.ofBinding (s.innerScope scope) b)) ++
          s.parts.flatMap fun t => (ofStatement t).outlined (s.innerScope scope)) := by
  -- A fault that stands as a statement is a view of its own, without symbols.
  have hopen : (ofStatement s).outlined scope = under (Symbol.ofStatement? scope s)
      ((ofStatementParts s).flatMap (outlined (s.innerScope scope))) := by
    cases s with
    | fault f =>
      simp [ofStatement, outlined, Symbol.ofStatement?, ofStatementParts, under]
    | _ => exact outlined_statement scope _
  rw [hopen, flatMap_ofStatementParts (fun e => by rw [outlined]) (fun a => by rw [outlined])]
  simp [outlined, List.map_eq_flatMap]

/-! ## §3 Well located programs -/

/-- What is asked of the spans around a view: it covers a part of the text, and frames what it
holds; and a definition is not enclosed by one that stands inside it.  Spans are compared by line
and column, here as anywhere. -/
structure Located (v : View) : Prop where
  proper : v.span.IsProper
  frames : v.Frames
  larger : v.isDefinition = true → ∀ c ∈ v.children, ∀ w ∈ c.preorder, w.isDefinition = true →
    w.span.encloses v.span = false

/-- Everything inside a view is located. -/
def WellLocated (v : View) : Prop :=
  ∀ w ∈ v.preorder, w.Located

namespace WellLocated

theorem of_located (h : v.Located) (hchildren : ∀ c ∈ v.children, c.WellLocated) :
    v.WellLocated :=
  forall_mem_preorder.mpr ⟨h, hchildren⟩

theorem located (h : v.WellLocated) : v.Located :=
  h v v.self_mem_preorder

theorem child {c : View} (h : v.WellLocated) (hc : c ∈ v.children) : c.WellLocated :=
  (forall_mem_preorder.mp h).2 c hc

theorem wellNested (h : v.WellLocated) : v.WellNested :=
  fun w hw => (h w hw).frames

theorem encloses_symbol {x : Symbol} (h : v.WellLocated) (hx : x ∈ v.symbols scope) :
    v.span.encloses x.span = true := by
  obtain ⟨w, hw, hspan, -, -⟩ := exists_of_mem_symbols hx
  rw [hspan]
  exact h.wellNested.encloses hw

/-- A view that is larger than each of its children is larger than everything inside them. -/
theorem of_smaller (hproper : v.span.IsProper) (hframes : v.Frames)
    (hsmaller : ∀ c ∈ v.children, c.span.encloses v.span = false)
    (hchildren : ∀ c ∈ v.children, c.WellLocated) : v.WellLocated := by
  apply of_located _ hchildren
  apply Located.mk hproper hframes
  intro _ c hc w hw _
  have hinside : c.span.encloses w.span = true := (hchildren c hc).wellNested.encloses hw
  have hchild := hsmaller c hc
  rw [Bool.eq_false_iff] at hchild ⊢
  intro hencloses
  exact hchild (Span.encloses_trans hinside hencloses)

theorem of_leaf (hproper : v.span.IsProper) (h : v.children = []) : v.WellLocated := by
  apply of_smaller hproper (WellNested.of_leaf h).frames
  · simp [h]
  · simp [h]

end WellLocated

theorem mem_symbols_flatMap_outlined {vs : List View} {x : Symbol} :
    x ∈ Outline.symbols (vs.flatMap (outlined scope)) ↔ ∃ v ∈ vs, x ∈ v.symbols scope := by
  simp [symbols_outlined]

/-- A view encloses the symbols of its children. -/
theorem WellLocated.encloses_inside {x : Symbol} (h : v.WellLocated)
    (hx : x ∈ Outline.symbols (v.children.flatMap (outlined scope))) :
    v.span.encloses x.span = true := by
  obtain ⟨c, hc, hx⟩ := mem_symbols_flatMap_outlined.mp hx
  exact Span.encloses_trans (h.located.frames.encloses c hc) ((h.child hc).encloses_symbol hx)

/-- No definition inside a definition encloses it. -/
theorem WellLocated.larger_inside {x : Symbol} (h : v.WellLocated)
    (hdefinition : v.isDefinition = true)
    (hx : x ∈ Outline.symbols (v.children.flatMap (outlined scope)))
    (hkind : x.kind.isDefinition = true) : x.span.encloses v.span = false := by
  obtain ⟨c, hc, hx⟩ := mem_symbols_flatMap_outlined.mp hx
  obtain ⟨w, hw, hspan, -, hsame⟩ := exists_of_mem_symbols hx
  rw [hspan]
  exact h.located.larger hdefinition c hc w hw (hsame ▸ hkind)

end View

/-! ## §4 The forest is nested -/

namespace Outline

variable {scope : Option String} {f g : List OutlineItem}

/-- Of two nested forests that stand apart, one behind the other is nested. -/
theorem Nested.append (hf : Nested scope f) (hg : Nested scope g)
    (hapart : ∀ x ∈ symbols f, ∀ y ∈ symbols g, x.span.Apart y.span) : Nested scope (f ++ g) := by
  induction hf with
  | nil => exact hg
  | @cons scope i rest hscope hproper hdefinition hinside hsmaller hrestApart hchildren _ _ ih =>
    simp only [symbols_cons, List.forall_mem_cons, List.forall_mem_append] at hapart
    obtain ⟨hfirst, -, hrest⟩ := hapart
    apply Nested.cons hscope hproper hdefinition hinside hsmaller _ hchildren (ih hg hrest)
    rw [symbols_append]
    exact List.forall_mem_append.mpr ⟨hrestApart, hfirst⟩

/-- A definition with a nested forest below it is nested. -/
theorem Nested.definition {d : Symbol} (hscope : d.scope = scope) (hproper : d.span.IsProper)
    (hdefinition : d.kind.isDefinition = true)
    (hinside : ∀ t ∈ symbols f, d.span.encloses t.span = true)
    (hsmaller : ∀ t ∈ symbols f, t.kind.isDefinition = true → t.span.encloses d.span = false)
    (h : Nested (some d.name) f) : Nested scope (under (some d) f) := by
  apply Nested.cons hscope hproper (fun _ => hdefinition) hinside hsmaller _ h .nil
  simp

/-- A symbol that holds nothing is nested. -/
theorem Nested.leaf {x : Symbol} (hscope : x.scope = scope) (hproper : x.span.IsProper) :
    Nested scope [leaf x] := by
  apply Nested.cons hscope hproper _ _ _ _ .nil .nil
  all_goals simp [Outline.leaf]

/-- The forests of views that stand apart make a nested forest. -/
theorem nested_flatMap {vs : List View} (hapart : vs.Pairwise View.Apart)
    (hlocated : ∀ v ∈ vs, v.WellLocated)
    (hnested : ∀ v ∈ vs, Nested scope (v.outlined scope)) :
    Nested scope (vs.flatMap (View.outlined scope)) := by
  induction vs with
  | nil => exact .nil
  | cons v vs ih =>
    obtain ⟨hfirst, hrest⟩ := List.pairwise_cons.mp hapart
    obtain ⟨hv, hvs⟩ := List.forall_mem_cons.mp hlocated
    obtain ⟨hnestedFirst, hnestedRest⟩ := List.forall_mem_cons.mp hnested
    rw [List.flatMap_cons]
    apply hnestedFirst.append (ih hrest hvs hnestedRest)
    intro x hx y hy
    rw [View.symbols_outlined] at hx
    obtain ⟨w, hw, hy⟩ := View.mem_symbols_flatMap_outlined.mp hy
    have hviews : v.span.Apart w.span := hfirst w hw
    exact hviews.mono (hv.encloses_symbol hx) ((hvs w hw).encloses_symbol hy)

/-- The forest of a well located view is nested. -/
theorem nested_outlined {v : View} (h : v.WellLocated) (scope : Option String) :
    Nested scope (v.outlined scope) := by
  induction v using View.induct generalizing scope with
  | step v ih =>
    have hproper := h.located.proper
    cases v with
    | statement s =>
      have hinside : Nested (s.innerScope scope)
          ((View.statement s).children.flatMap (View.outlined (s.innerScope scope))) := by
        apply nested_flatMap h.located.frames.apart
        · intro c hc
          exact h.child hc
        · intro c hc
          exact ih c hc (h.child hc) _
      rw [View.outlined_statement]
      cases hsymbol : Symbol.ofStatement? scope s with
      | none =>
        have hscope : s.innerScope scope = scope := by simp [Statement.innerScope, hsymbol]
        rw [hscope] at hinside ⊢
        exact hinside
      | some d =>
        have hscope : s.innerScope scope = some d.name := by
          simp [Statement.innerScope, hsymbol]
        have hspan : d.span = (View.statement s).span := Symbol.span_of_ofStatement? hsymbol
        have hdefinition : (View.statement s).isDefinition = true := by
          rw [View.isDefinition, s.isDefinition_eq scope, hsymbol, Option.isSome_some]
        rw [hscope] at hinside ⊢
        apply Nested.definition (Symbol.scope_of_ofStatement? hsymbol) _
          (Symbol.isDefinition_of_ofStatement? hsymbol) _ _ hinside
        · rw [hspan]
          exact hproper
        · rw [hspan]
          intro t ht
          exact h.encloses_inside ht
        · rw [hspan]
          intro t ht hkind
          exact h.larger_inside hdefinition ht hkind
    | declaration d =>
      rw [View.outlined]
      exact .leaf rfl hproper
    | binding b =>
      rw [View.outlined]
      exact .leaf rfl hproper
    | expression | argument | fault =>
      rw [View.outlined]
      exact .nil

/-! ## §5 The links of the forest -/

/-- The symbol is made of the definition. -/
def Shows (d : Symbol) (s : Statement) : Prop :=
  ∃ scope, Symbol.ofStatement? scope s = some d

/-- The link leads from the symbol to the symbol of the definition that it belongs to. -/
structure LeadsToOwner (link : Option Symbol × Symbol) (o : OwnedSymbol) : Prop where
  symbol : link.2 = o.symbol
  parent : Option.Rel Shows link.1 o.owner

/-- Around what stands directly inside a statement, the nearest definition is the statement itself,
if it is one. -/
theorem rel_innerOwner? {parent : Option Symbol} {around : List Statement}
    (h : Option.Rel Shows parent (around.find? Statement.isDefinition)) (s : Statement)
    (scope : Option String) :
    Option.Rel Shows ((Symbol.ofStatement? scope s).or parent)
      (PlacedStatement.innerOwner? ⟨s, around⟩) := by
  have hdefinition := s.isDefinition_eq scope
  rw [PlacedStatement.innerOwner?, List.find?_cons, hdefinition]
  cases hsymbol : Symbol.ofStatement? scope s with
  | none => exact h
  | some d => exact .some ⟨scope, hsymbol⟩

theorem forall₂_map {α β γ : Type} {R : β → γ → Prop} {a : α → β} {b : α → γ} {l : List α}
    (h : ∀ x ∈ l, R (a x) (b x)) : List.Forall₂ R (l.map a) (l.map b) := by
  rw [List.forall₂_map_left_iff, List.forall₂_map_right_iff]
  exact List.forall₂_same.mpr h

theorem forall₂_flatMap {α β γ : Type} {R : β → γ → Prop} {a : α → List β} {b : α → List γ}
    {l : List α} (h : ∀ x ∈ l, List.Forall₂ R (a x) (b x)) :
    List.Forall₂ R (l.flatMap a) (l.flatMap b) := by
  induction l with
  | nil => exact .nil
  | cons x l ih =>
    obtain ⟨hx, hl⟩ := List.forall_mem_cons.mp h
    exact List.rel_append hx (ih hl)

section

variable {parent : Option Symbol} {around : List Statement} {s : Statement} {scope : Option String}

/-- The link of a definition leads to the one around it. -/
theorem links_defined (h : Option.Rel Shows parent (around.find? Statement.isDefinition))
    (hscope : (around.find? Statement.isDefinition).bind Statement.definitionName? = scope) :
    List.Forall₂ LeadsToOwner ((Symbol.ofStatement? scope s).toList.map fun d => (parent, d))
      (PlacedStatement.defined ⟨s, around⟩) := by
  subst hscope
  apply forall₂_map
  intro d _
  exact ⟨rfl, h⟩

/-- The links of parameters lead to the definition that they belong to. -/
theorem links_parameters (h : Option.Rel Shows parent (around.find? Statement.isDefinition))
    (hscope : s.innerScope scope =
      ((s :: around).find? Statement.isDefinition).bind Statement.definitionName?) :
    List.Forall₂ LeadsToOwner
      (s.parameters.map fun d =>
        ((Symbol.ofStatement? scope s).or parent, Symbol.ofDeclaration (s.innerScope scope) d))
      (s.parameters.map fun d =>
        .under (PlacedStatement.innerOwner? ⟨s, around⟩) (Symbol.ofDeclaration · d)) := by
  apply forall₂_map
  intro d _
  exact ⟨by rw [hscope]; rfl, rel_innerOwner? h s scope⟩

/-- The links of variables lead to the nearest definition, the statement included. -/
theorem links_bound (h : Option.Rel Shows parent (around.find? Statement.isDefinition))
    (hscope : s.innerScope scope =
      ((s :: around).find? Statement.isDefinition).bind Statement.definitionName?)
    (bindings : List Binding) :
    List.Forall₂ LeadsToOwner
      (bindings.map fun b =>
        ((Symbol.ofStatement? scope s).or parent, Symbol.ofBinding (s.innerScope scope) b))
      (PlacedStatement.bound ⟨s, around⟩ bindings) := by
  apply forall₂_map
  intro b _
  exact ⟨by rw [hscope]; rfl, rel_innerOwner? h s scope⟩

end

/-- The links of a statement's forest lead to the nearest definitions. -/
theorem links_outlined {parent : Option Symbol} {around : List Statement} (s : Statement)
    (h : Option.Rel Shows parent (around.find? Statement.isDefinition)) :
    List.Forall₂ LeadsToOwner
      (links parent ((View.ofStatement s).outlined
        ((around.find? Statement.isDefinition).bind Statement.definitionName?)))
      ((s.placed around).flatMap fun p => p.declared ++ p.stray) := by
  have hscope := s.innerScope_eq around
  generalize hnear : (around.find? Statement.isDefinition).bind Statement.definitionName? = scope
    at hscope ⊢
  -- Inside the statement, the nearest definition is the statement itself, if it is one.
  have hparts : List.Forall₂ LeadsToOwner
      (s.parts.flatMap fun t => links ((Symbol.ofStatement? scope s).or parent)
        ((View.ofStatement t).outlined (s.innerScope scope)))
      (s.parts.flatMap fun t =>
        (t.placed (s :: around)).flatMap fun p => p.declared ++ p.stray) := by
    apply forall₂_flatMap
    intro t ht
    rw [hscope]
    exact links_outlined t (rel_innerOwner? h s scope)
  -- Both lists name the definition, the parameters, the bindings and the parts, in this order.
  rw [View.outlined_ofStatement, s.placed_eq, List.flatMap_cons, List.flatMap_assoc, links_under,
    links_append, links_append, links_flatMap, links_map_leaf, links_map_leaf, List.map_append,
    ← List.append_assoc]
  apply List.rel_append _ hparts
  rw [PlacedStatement.declared, PlacedStatement.stray]
  simp only [List.append_assoc]
  apply List.rel_append (links_defined h hnear)
  apply List.rel_append (links_parameters h hscope)
  exact List.rel_append (links_bound h hscope s.bindings) (links_bound h hscope s.strayBindings)
termination_by sizeOf s
decreasing_by exact Statement.sizeOf_lt_of_mem_parts ht

end Outline

/-! ## §6 The outline -/

namespace Program

variable {program : Program}

/-- What is asked of the spans of a program: every view is located, and the statements of the
program stand apart. -/
structure WellLocated (program : Program) : Prop where
  located : ∀ v ∈ program.preorder, v.Located
  apart : program.views.Pairwise View.Apart

theorem WellLocated.view {v : View} (h : program.WellLocated) (hv : v ∈ program.views) :
    v.WellLocated := by
  intro w hw
  exact h.located w (List.mem_flatMap.mpr ⟨v, hv, hw⟩)

/-- The symbols of a program as a forest. -/
def outlined (program : Program) : List OutlineItem :=
  program.views.flatMap (View.outlined none)

theorem symbols_outlined (program : Program) :
    Outline.symbols program.outlined = program.symbols := by
  rw [outlined, Outline.symbols_flatMap, symbols]
  apply List.flatMap_congr
  intro v _
  exact v.symbols_outlined none

theorem entries_symbols_eq_listing (h : program.WellLocated) :
    Outline.entries program.symbols = Outline.listing none 0 program.outlined := by
  have hnested : Outline.Nested none program.outlined := by
    apply Outline.nested_flatMap h.apart
    · intro v hv
      exact h.view hv
    · intro v hv
      exact Outline.nested_outlined (h.view hv) none
  rw [← symbols_outlined, Outline.entries_symbols hnested]

theorem outline_eq_outlined (h : program.WellLocated) : program.outline = program.outlined := by
  have hbuilds := Outline.builds_listing program.outlined
  rw [outline, outlineOf, entries_symbols_eq_listing h]
  apply Outline.itemsBelow_of_builds hbuilds
  rw [symbols_outlined]

theorem links_outlined (program : Program) :
    List.Forall₂ Outline.LeadsToOwner (Outline.links none program.outlined)
      program.ownedSymbols := by
  rw [outlined, views, ownedSymbols, placed, List.flatMap_map, List.flatMap_assoc,
    Outline.links_flatMap]
  have hfile : Option.Rel Outline.Shows none (([] : List Statement).find? Statement.isDefinition) :=
    .none
  apply Outline.forall₂_flatMap
  intro s _
  exact Outline.links_outlined s hfile

/-- The outline of a well located program loses nothing and repeats nothing.  Building it comes to
an end without a bound on its depth; its items are the symbols of the program, each of them once and
in the same order; and each stands below the symbol of the nearest definition of a module or a
function around it, or at the top where there is none. -/
theorem outline_exact (h : program.WellLocated) :
    Outline.Builds (Outline.entries program.symbols)
        ((Outline.entries program.symbols).filter (·.owner == none)) program.outline ∧
      (Outline.items program.outline).map OutlineItem.symbol = program.symbols ∧
      List.Forall₂ Outline.LeadsToOwner (Outline.links none program.outline)
        program.ownedSymbols := by
  rw [outline_eq_outlined h]
  refine ⟨?_, program.symbols_outlined, program.links_outlined⟩
  rw [entries_symbols_eq_listing h]
  exact Outline.builds_listing program.outlined

/-- `module m(b){}`, twelve bytes from the start of the text. -/
def innerModule : Statement :=
  .moduleDefinition "m" ⟨⟨0, 19, 19⟩, ⟨0, 20, 20⟩⟩ [⟨"b", none, ⟨⟨0, 21, 21⟩, ⟨0, 22, 22⟩⟩⟩] []
    ⟨⟨0, 12, 12⟩, ⟨0, 25, 25⟩⟩

/-- `module m(a){module m(b){}}`, in which both modules have one name. -/
def moduleInModule : Program :=
  [.moduleDefinition "m" ⟨⟨0, 7, 7⟩, ⟨0, 8, 8⟩⟩ [⟨"a", none, ⟨⟨0, 9, 9⟩, ⟨0, 10, 10⟩⟩⟩]
    [innerModule] ⟨⟨0, 0, 0⟩, ⟨0, 26, 26⟩⟩]

theorem moduleInModule_wellLocated : moduleInModule.WellLocated := by
  have hparameter (d : Declaration) (hproper : d.span.IsProper) (hdefault : d.default? = none) :
      (View.declaration d).WellLocated :=
    .of_leaf hproper (by simp [View.children, View.ofExpression?, hdefault])
  have hinner : (View.statement innerModule).WellLocated := by
    apply View.WellLocated.of_smaller (by rfl) (.of_ordered (by decide) (by decide)) (by decide)
    intro c hc
    cases List.mem_singleton.mp hc
    exact hparameter _ rfl rfl
  have houter : ∀ v ∈ moduleInModule.views, v.WellLocated := by
    intro v hv
    cases List.mem_singleton.mp hv
    apply View.WellLocated.of_smaller (by rfl) (.of_ordered (by decide) (by decide)) (by decide)
    intro c hc
    rcases List.mem_pair.mp hc with rfl | rfl
    · exact hparameter _ rfl rfl
    · exact hinner
  constructor
  · intro v hv
    obtain ⟨w, hw, hv⟩ := List.mem_flatMap.mp hv
    exact houter w hw v hv
  · exact List.pairwise_singleton _ _

/-- The parameter of the inner module stands below that, and not below the outer one. -/
theorem outline_exact_moduleInModule :
    moduleInModule.WellLocated ∧
      Outline.Builds (Outline.entries moduleInModule.symbols)
        ((Outline.entries moduleInModule.symbols).filter (·.owner == none))
        moduleInModule.outline ∧
      (Outline.items moduleInModule.outline).map OutlineItem.symbol = moduleInModule.symbols ∧
      List.Forall₂ Outline.LeadsToOwner (Outline.links none moduleInModule.outline)
        moduleInModule.ownedSymbols :=
  ⟨moduleInModule_wellLocated, outline_exact moduleInModule_wellLocated⟩

end Program

end Scad
