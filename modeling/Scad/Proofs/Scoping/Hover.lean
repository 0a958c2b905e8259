import Mathlib.Data.List.Nodup
import Scad.Editor.Hover
import Scad.Proofs.Scoping.Visibility

/-!
# What a Hover Describes

The hover on a name describes a symbol of that name.  It is meant to be the one that the innermost
definition around the place declares, and one of the file only where none of them declares any.
What is taken is the last one in the source that can be seen, so this holds where no declaration
from further out stands behind those of the innermost definition.

* `OwnedSymbol.Declares`, `OwnedSymbol.SeenFrom` — what declares a name, and where it can be seen.
* `Program.IsLastSeen` — the declaration that is taken.
* `Program.Shadows` — the order in which the last one is the innermost one too.
* `Program.hoverAt?_identifier` — what a hover on a name describes.
-/

namespace Scad

/-! ## §1 Declarations of a name -/

namespace OwnedSymbol

/-- What declares a name as a variable or a parameter, in a definition or at the level of the
file. -/
structure Declares (o : OwnedSymbol) (owner : Option Statement) (x : String) : Prop where
  owner : o.owner = owner
  name : o.symbol.name = x
  kind : o.symbol.kind.isDefinition = false

/-- What declares a name at the level of the file or in a definition on a path. -/
def SeenFrom (o : OwnedSymbol) (path : List View) (x : String) : Prop :=
  o.Declares none x ∨ ∃ d, View.statement d ∈ path ∧ o.Declares (some d) x

theorem SeenFrom.owner {o : OwnedSymbol} {path : List View} {x : String} {d : Statement}
    (h : o.SeenFrom path x) (hd : o.owner = some d) : View.statement d ∈ path := by
  rcases h with h | ⟨e, he, h⟩
  · rw [h.owner] at hd
    cases hd
  · rw [h.owner] at hd
    obtain rfl : e = d := Option.some.inj hd
    exact he

theorem SeenFrom.declares_of_owner {o : OwnedSymbol} {path : List View} {x : String}
    (h : o.SeenFrom path x) (howner : o.owner = none) : o.Declares none x := by
  rcases h with h | ⟨d, _, h⟩
  · exact h
  · rw [h.owner] at howner
    cases howner

end OwnedSymbol

namespace Program

variable {program : Program} {path : List View} {x : String} {d : Statement} {o : OwnedSymbol}

/-- The declaration of a name that stands last among those that can be seen from a path. -/
def IsLastSeen (program : Program) (path : List View) (x : String) (o : OwnedSymbol) : Prop :=
  ∃ before after, program.ownedSymbols = before ++ o :: after ∧ o.SeenFrom path x ∧
    ∀ b ∈ after, ¬ b.SeenFrom path x

theorem IsLastSeen.mem (h : program.IsLastSeen path x o) : o ∈ program.ownedSymbols := by
  obtain ⟨before, after, hsplit, -⟩ := h
  simp [hsplit]

theorem IsLastSeen.seenFrom (h : program.IsLastSeen path x o) : o.SeenFrom path x := by
  obtain ⟨_, _, -, hseen, -⟩ := h
  exact hseen

/-- A definition declares a name behind every declaration of it that can be seen from further
out. -/
def Shadows (program : Program) (outer : List View) (d : Statement) (x : String) : Prop :=
  ∀ before o after, program.ownedSymbols = before ++ o :: after → o.SeenFrom outer x →
    ∃ b ∈ after, b.Declares (some d) x

/-- A definition shadows what is further out where the last symbol of the program is one of its
own. -/
theorem Shadows.of_last {outer : List View} (hlast : program.ownedSymbols.getLast? = some o)
    (ho : o.Declares (some d) x) (houter : View.statement d ∉ outer) :
    program.Shadows outer d x := by
  intro before b after hsplit hb
  rw [hsplit, List.getLast?_append, List.getLast?_cons, Option.some_or] at hlast
  cases hafter : after.getLast? with
  | none =>
    obtain rfl : b = o := by simpa [hafter] using hlast
    exact absurd (hb.owner ho.owner) houter
  | some last =>
    obtain rfl : last = o := by simpa [hafter] using hlast
    exact ⟨last, List.mem_of_getLast? hafter, ho⟩

/-! ## §2 The last one is taken -/

/-- The last accepted element of a list is the one behind which none is accepted. -/
theorem getLast?_filter_eq_some_iff {α : Type} {l : List α} {accepts : α → Bool} {a : α} :
    (l.filter accepts).getLast? = some a ↔
      ∃ before after, l = before ++ a :: after ∧ accepts a = true ∧
        ∀ b ∈ after, accepts b = false := by
  rw [List.getLast?_filter, List.find?_eq_some_iff_append]
  constructor
  · rintro ⟨ha, after, before, hl, hafter⟩
    refine ⟨before.reverse, after.reverse, ?_, ha, ?_⟩
    · simpa using congrArg List.reverse hl
    · simpa using hafter
  · rintro ⟨before, after, rfl, ha, hafter⟩
    refine ⟨ha, after.reverse, before.reverse, ?_, ?_⟩
    · simp
    · simpa using hafter

/-- Whether a name may refer to a symbol from a path, as far as names tell. -/
def mayReferTo (path : List View) (x : String) (s : Symbol) : Bool :=
  [SymbolKind.variable, .parameter, .constant].contains s.kind && s.name == x &&
    s.visibleFrom (enclosingDefinitions path)

/-- Where all definitions of a program have different names, names tell all. -/
theorem mayReferTo_iff {p : Position}
    (hnames : (program.definitions.map Statement.definitionName?).Nodup)
    (ho : o ∈ program.ownedSymbols) :
    mayReferTo (program.pathTo p) x o.symbol = true ↔ o.SeenFrom (program.pathTo p) x := by
  -- The three kinds are all that are no definitions.
  have hkind : [SymbolKind.variable, .parameter, .constant].contains o.symbol.kind =
      !o.symbol.kind.isDefinition := by
    cases o.symbol.kind <;> rfl
  rw [mayReferTo, hkind]
  simp only [Bool.and_eq_true, Bool.not_eq_true', beq_iff_eq, visibleFrom_iff ho]
  constructor
  · rintro ⟨⟨hkind, hname⟩, hvisible⟩
    cases howner : o.owner with
    | none => exact .inl ⟨howner, hname, hkind⟩
    | some d =>
      -- A definition on the path has the name of the owner, so it is the owner.
      obtain ⟨e, he, hsame⟩ := hvisible d howner
      have hd := owner_mem_definitions ho howner
      obtain ⟨name, hdname⟩ := exists_definitionName hd
      have hmem := mem_definitions_of_mem_pathTo he (hsame.trans hdname)
      obtain rfl : e = d := List.inj_on_of_nodup_map hnames hmem hd hsame
      exact .inr ⟨e, he, howner, hname, hkind⟩
  · intro hseen
    refine ⟨?_, fun d hd => ⟨d, hseen.owner hd, rfl⟩⟩
    rcases hseen with h | ⟨d, _, h⟩
    · exact ⟨h.kind, h.name⟩
    · exact ⟨h.kind, h.name⟩

/-- The declaration that stands last among those that can be seen is the last symbol that the name
may refer to. -/
theorem isLastSeen_iff {p : Position}
    (hnames : (program.definitions.map Statement.definitionName?).Nodup) :
    program.IsLastSeen (program.pathTo p) x o ↔
      (program.ownedSymbols.filter fun b =>
        mayReferTo (program.pathTo p) x b.symbol).getLast? = some o := by
  rw [getLast?_filter_eq_some_iff, IsLastSeen]
  -- The two sides speak of the same splits of the list; only the tests differ.
  apply exists_congr
  intro before
  apply exists_congr
  intro after
  apply and_congr_right
  intro hsplit
  have hiff {b : OwnedSymbol} (hb : b ∈ o :: after) :
      b.SeenFrom (program.pathTo p) x ↔ mayReferTo (program.pathTo p) x b.symbol = true := by
    apply (mayReferTo_iff hnames _).symm
    rw [hsplit]
    exact List.mem_append_right before hb
  rw [hiff List.mem_cons_self]
  apply and_congr_right
  intro _
  apply forall₂_congr
  intro b hb
  rw [hiff (List.mem_cons_of_mem o hb), Bool.not_eq_true]

/-- Where any declaration can be seen, one of them stands last. -/
theorem exists_isLastSeen {p : Position}
    (hnames : (program.definitions.map Statement.definitionName?).Nodup)
    (ho : o ∈ program.ownedSymbols) (hseen : o.SeenFrom (program.pathTo p) x) :
    ∃ b, program.IsLastSeen (program.pathTo p) x b := by
  have hmem : o ∈ program.ownedSymbols.filter fun b => mayReferTo (program.pathTo p) x b.symbol :=
    List.mem_filter.mpr ⟨ho, (mayReferTo_iff hnames ho).mpr hseen⟩
  have hne := List.ne_nil_of_mem hmem
  exact ⟨_, (isLastSeen_iff hnames).mpr (List.getLast?_eq_some_getLast hne)⟩

/-! ## §3 The hover on a name -/

section Name

variable {p : Position} {span : Span}

/-- A name refers to the last of the declarations that can be seen. -/
theorem referredSymbol?_eq_some_iff {s : Symbol}
    (hnames : (program.definitions.map Statement.definitionName?).Nodup)
    (hview : program.viewAt? p = some (.expression (.identifier x span))) :
    program.referredSymbol? (program.pathTo p) = some s ↔
      ∃ o, program.IsLastSeen (program.pathTo p) x o ∧ o.symbol = s := by
  have hreferred : program.referredSymbol? (program.pathTo p) =
      (program.ownedSymbols.filter fun o =>
        mayReferTo (program.pathTo p) x o.symbol).getLast?.map OwnedSymbol.symbol := by
    rw [viewAt?] at hview
    simp [referredSymbol?, hview, View.reference?, symbols_eq, List.filter_map,
      Function.comp_def, mayReferTo]
  rw [hreferred, Option.map_eq_some_iff]
  apply exists_congr
  intro o
  rw [isLastSeen_iff hnames]

/-- The hover on a name describes what the name refers to, or says that it is a variable. -/
theorem hoverAt?_eq (hview : program.viewAt? p = some (.expression (.identifier x span))) :
    program.hoverAt? p = some ⟨((program.referredSymbol? (program.pathTo p)).map
      Symbol.description).getD ("Variable " ++ codeSpan x), span⟩ := by
  rw [viewAt?] at hview
  have hown : (program.pathTo p).reverse.findSome? View.hover? =
      some ⟨"Variable " ++ codeSpan x, span⟩ := by
    obtain ⟨outer, hpath⟩ := List.getLast?_eq_some_iff.mp hview
    rw [hpath, List.reverse_append]
    rfl
  rw [hoverAt?]
  cases program.referredSymbol? (program.pathTo p) with
  | some s => simp [hview, View.span, Expression.span]
  | none => simp [hview, hown]

/-- What is not seen behind the last of the declarations stands in front of it. -/
theorem IsLastSeen.mem_after {before after : List OwnedSymbol} {b : OwnedSymbol}
    (h : program.IsLastSeen path x b) (hsplit : program.ownedSymbols = before ++ o :: after)
    (hseen : o.SeenFrom path x) : o = b ∨ b ∈ after := by
  obtain ⟨front, behind, hlast, -, hbehind⟩ := h
  -- Of two places in one list, one is in front of the other, or they are the same.
  rw [hsplit, List.append_eq_append_iff] at hlast
  rcases hlast with ⟨between, -, hafter⟩ | ⟨between, -, hafter⟩
  · cases between with
    | nil => exact .inl (List.cons.inj hafter).1
    | cons _ between =>
      right
      simp [(List.cons.inj hafter).2]
  · cases between with
    | nil => exact .inl (List.cons.inj hafter).1.symm
    | cons _ between =>
      apply absurd hseen (hbehind o _)
      simp [(List.cons.inj hafter).2]

theorem owner_eq_none_of_scope (ho : o ∈ program.ownedSymbols) (hscope : o.symbol.scope = none) :
    o.owner = none := by
  rw [scope_of_mem_ownedSymbols ho] at hscope
  cases howner : o.owner with
  | none => rfl
  | some d =>
    obtain ⟨name, hname⟩ := exists_definitionName (owner_mem_definitions ho howner)
    simp [howner, hname] at hscope

/-- The innermost definition that declares a name has the last declaration of it, where it shadows
those from further out. -/
theorem IsLastSeen.innermost {outer inner : List View} (h : program.IsLastSeen path x o)
    (hpath : path = outer ++ .statement d :: inner)
    (hinner : ∀ e, View.statement e ∈ inner → ∀ b ∈ program.ownedSymbols, ¬ b.Declares (some e) x)
    (hshadows : program.Shadows outer d x) : o.Declares (some d) x := by
  have ho := h.mem
  obtain ⟨before, after, hsplit, hseen, hafter⟩ := h
  -- Behind a declaration from further out there would be one that can be seen.
  have houter : ¬ o.SeenFrom outer x := by
    intro hfurther
    obtain ⟨b, hb, hdeclares⟩ := hshadows before o after hsplit hfurther
    apply hafter b hb
    exact .inr ⟨d, by simp [hpath], hdeclares⟩
  rcases hseen with hfile | ⟨e, he, hdeclares⟩
  · exact absurd (.inl hfile) houter
  · rw [hpath, List.mem_append, List.mem_cons] at he
    rcases he with he | he | he
    · exact absurd (.inr ⟨e, he, hdeclares⟩) houter
    · obtain rfl : e = d := View.statement.inj he
      exact hdeclares
    · exact absurd hdeclares (hinner e he o ho)

/-- Where the definitions of a program have different names, the hover on a name describes the last
declaration of it that can be seen, and says that it is a variable where there is none.  So it
describes a declaration by the innermost definition that has one, where no declaration from further
out stands behind those; and it describes one of the file only where every declaration by a
definition around the place stands in front of that one. -/
theorem hoverAt?_identifier (program : Program) (p : Position) {x : String} {span : Span}
    (hnames : (program.definitions.map Statement.definitionName?).Nodup)
    (hview : program.viewAt? p = some (.expression (.identifier x span))) :
    (∀ s, program.referredSymbol? (program.pathTo p) = some s ↔
        ∃ o, program.IsLastSeen (program.pathTo p) x o ∧ o.symbol = s) ∧
      program.hoverAt? p = some ⟨((program.referredSymbol? (program.pathTo p)).map
        Symbol.description).getD ("Variable " ++ codeSpan x), span⟩ ∧
      (∀ outer d inner, program.pathTo p = outer ++ .statement d :: inner →
        (∃ o ∈ program.ownedSymbols, o.Declares (some d) x) →
        (∀ e, View.statement e ∈ inner → ∀ o ∈ program.ownedSymbols, ¬ o.Declares (some e) x) →
        program.Shadows outer d x →
        ∃ o ∈ program.ownedSymbols, o.Declares (some d) x ∧
          program.hoverAt? p = some ⟨o.symbol.description, span⟩) ∧
      (∀ s, program.referredSymbol? (program.pathTo p) = some s → s.scope = none →
        ∀ d, View.statement d ∈ program.pathTo p → ∀ before o after,
          program.ownedSymbols = before ++ o :: after → o.Declares (some d) x →
          ∃ b ∈ after, b.Declares none x ∧ b.symbol = s) := by
  have hreferred {s : Symbol} := referredSymbol?_eq_some_iff (s := s) hnames hview
  refine ⟨fun _ => hreferred, hoverAt?_eq hview, ?_, ?_⟩
  · rintro outer d inner hpath ⟨o, ho, hdeclares⟩ hinner hshadows
    have hseen : o.SeenFrom (program.pathTo p) x := .inr ⟨d, by simp [hpath], hdeclares⟩
    obtain ⟨b, hlast⟩ := exists_isLastSeen hnames ho hseen
    refine ⟨b, hlast.mem, hlast.innermost hpath hinner hshadows, ?_⟩
    rw [hoverAt?_eq hview, hreferred.mpr ⟨b, hlast, rfl⟩]
    rfl
  · intro s hs hscope d hd before o after hsplit hdeclares
    obtain ⟨b, hlast, rfl⟩ := hreferred.mp hs
    have hb : b ∈ program.ownedSymbols := hlast.mem
    have howner := owner_eq_none_of_scope hb hscope
    rcases hlast.mem_after hsplit (.inr ⟨d, hd, hdeclares⟩) with rfl | hbehind
    · rw [hdeclares.owner] at howner
      cases howner
    · exact ⟨b, hbehind, hlast.seenFrom.declares_of_owner howner, rfl⟩

end Name

/-! ## §4 A variable of the file between two functions -/

/-- Some columns of a line that starts at an offset. -/
def columns (line offset start stop : Nat) : Span :=
  ⟨⟨line, start, offset + start⟩, ⟨line, stop, offset + stop⟩⟩

/-- A function of the form `function f(x) = x;`. -/
def functionOfX (name : String) (line offset : Nat) : Statement :=
  .functionDefinition name (columns line offset 9 10) [⟨"x", none, columns line offset 11 12⟩]
    (.identifier "x" (columns line offset 16 17)) (columns line offset 0 18)

/-- `x = true;` -/
def variableX (line offset : Nat) : Statement :=
  .assignment ⟨"x", columns line offset 0 1, .literal (.boolean true) (columns line offset 4 8),
    columns line offset 0 9⟩

/-- The function `f`, a variable of the file, and the function `g`. -/
def variableBetween : Program :=
  [functionOfX "f" 0 0, variableX 1 19, functionOfX "g" 2 29]

theorem variableBetween_placed :
    variableBetween.placed =
      [⟨functionOfX "f" 0 0, []⟩, ⟨variableX 1 19, []⟩, ⟨functionOfX "g" 2 29, []⟩] := by
  simp [placed, variableBetween, variableX, functionOfX, Statement.placed_eq, Statement.parts]

theorem variableBetween_names :
    (variableBetween.definitions.map Statement.definitionName?).Nodup := by
  rw [definitions, ← map_statement_placed, variableBetween_placed]
  decide

/-- In the function below the variable, the hover describes the parameter. -/
theorem hoverAt?_identifier_variableBetween :
    (variableBetween.definitions.map Statement.definitionName?).Nodup ∧
      variableBetween.viewAt? ⟨2, 16, 45⟩ =
        some (.expression (.identifier "x" (columns 2 29 16 17))) ∧
      ∃ o ∈ variableBetween.ownedSymbols, o.Declares (some (functionOfX "g" 2 29)) "x" ∧
        variableBetween.hoverAt? ⟨2, 16, 45⟩ = some ⟨o.symbol.description, columns 2 29 16 17⟩ := by
  have hpath : variableBetween.pathTo ⟨2, 16, 45⟩ = [.statement (functionOfX "g" 2 29),
      .expression (.identifier "x" (columns 2 29 16 17))] := pathTo_of_leaf rfl rfl rfl
  have hview : variableBetween.viewAt? ⟨2, 16, 45⟩ =
      some (.expression (.identifier "x" (columns 2 29 16 17))) := by
    rw [viewAt?, hpath]
    rfl
  refine ⟨variableBetween_names, hview, ?_⟩
  have hlast : variableBetween.ownedSymbols.getLast? = some ⟨some (functionOfX "g" 2 29),
      Symbol.ofDeclaration (some "g") ⟨"x", none, columns 2 29 11 12⟩⟩ := by
    rw [ownedSymbols, variableBetween_placed]
    rfl
  have hdeclares : OwnedSymbol.Declares ⟨some (functionOfX "g" 2 29),
      Symbol.ofDeclaration (some "g") ⟨"x", none, columns 2 29 11 12⟩⟩
      (some (functionOfX "g" 2 29)) "x" := ⟨rfl, rfl, rfl⟩
  apply (hoverAt?_identifier variableBetween ⟨2, 16, 45⟩ variableBetween_names hview).2.2.1 []
    (functionOfX "g" 2 29) _ hpath
  · exact ⟨_, List.mem_of_getLast? hlast, hdeclares⟩
  · intro e he
    cases List.mem_singleton.mp he
  · exact .of_last hlast hdeclares List.not_mem_nil

theorem functionOfX_wellNested (name : String) (line offset : Nat)
    (hinside : ∀ c ∈ (View.statement (functionOfX name line offset)).children,
      (columns line offset 0 18).encloses c.span = true)
    (hordered : (columns line offset 16 17).start.before (columns line offset 11 12).stop = false) :
    (View.statement (functionOfX name line offset)).WellNested := by
  apply View.WellNested.of_leaves hinside
  · exact List.pairwise_pair.mpr hordered
  · exact List.forall_mem_cons.mpr ⟨rfl, List.forall_mem_singleton.mpr rfl⟩

theorem variableBetween_wellNested : variableBetween.WellNested := by
  apply WellNested.of_ordered
  · have hvariable : (View.statement (variableX 1 19)).WellNested :=
      .of_assignment (by decide) (.of_leaf rfl)
    have hf := functionOfX_wellNested "f" 0 0 (by decide) rfl
    have hg := functionOfX_wellNested "g" 2 29 (by decide) rfl
    exact List.forall_mem_cons.mpr ⟨hf, List.forall_mem_cons.mpr
      ⟨hvariable, List.forall_mem_singleton.mpr hg⟩⟩
  · decide

/-- In the function above the variable, the hover describes the variable. -/
theorem hoverAt?_ne_variableBetween :
    variableBetween.WellNested ∧
      (variableBetween.definitions.map Statement.definitionName?).Nodup ∧
      variableBetween.pathTo ⟨0, 16, 16⟩ = [.statement (functionOfX "f" 0 0),
        .expression (.identifier "x" (columns 0 0 16 17))] ∧
      (∃ o ∈ variableBetween.ownedSymbols, o.Declares (some (functionOfX "f" 0 0)) "x") ∧
      ∀ o ∈ variableBetween.ownedSymbols, o.Declares (some (functionOfX "f" 0 0)) "x" →
        variableBetween.hoverAt? ⟨0, 16, 16⟩ ≠ some ⟨o.symbol.description, columns 0 0 16 17⟩ := by
  have hpath : variableBetween.pathTo ⟨0, 16, 16⟩ = [.statement (functionOfX "f" 0 0),
      .expression (.identifier "x" (columns 0 0 16 17))] := pathTo_of_leaf rfl rfl rfl
  have hview : variableBetween.viewAt? ⟨0, 16, 16⟩ =
      some (.expression (.identifier "x" (columns 0 0 16 17))) := by
    rw [viewAt?, hpath]
    rfl
  have hhover : variableBetween.hoverAt? ⟨0, 16, 16⟩ =
      some ⟨"```openscad\nx = true\n```\n\nvariable", columns 0 0 16 17⟩ := by
    rw [hoverAt?_eq hview, referredSymbol?, hpath, symbols_eq, ownedSymbols, variableBetween_placed]
    decide
  -- Told by the scope, which can be decided where the owner cannot.
  have hother : ∀ s ∈ variableBetween.symbols, s.scope = some "f" →
      s.description ≠ "```openscad\nx = true\n```\n\nvariable" := by
    rw [symbols_eq, ownedSymbols, variableBetween_placed]
    decide
  refine ⟨variableBetween_wellNested, variableBetween_names, hpath, ?_, ?_⟩
  · rw [ownedSymbols, variableBetween_placed]
    exact ⟨_, List.mem_cons_of_mem _ List.mem_cons_self, rfl, rfl, rfl⟩
  · intro o ho hdeclares
    rw [hhover]
    intro hsame
    have hmem : o.symbol ∈ variableBetween.symbols := by
      rw [symbols_eq]
      exact List.mem_map_of_mem ho
    apply hother o.symbol hmem
    · rw [scope_of_mem_ownedSymbols ho, hdeclares.owner]
      rfl
    · exact (Hover.mk.inj (Option.some.inj hsame)).1.symm

end Program

end Scad
