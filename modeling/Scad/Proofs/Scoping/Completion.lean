import Scad.Editor.Completion
import Scad.Proofs.Scoping.Visibility

/-!
# What Completion Offers

A completion offers the symbols in scope: those of the file, and those whose own definition holds
the cursor.  Scopes are compared by name, so this fails where a definition that holds the cursor has
the name of one that does not: then the symbols of the other are offered too.

* `OwnedSymbol.isInScope` — the scope as it is meant.
* `Program.sharesScope` — the scope as it is compared.
* `Program.completionAt_symbols` — what is offered, and where the two scopes are the same.
-/

namespace Scad

/-- Whether the definition that a symbol belongs to holds a position. -/
def OwnedSymbol.isInScope (p : Position) (o : OwnedSymbol) : Bool :=
  o.owner.all fun d => d.span.contains p

namespace Program

variable {program : Program}

/-- Whether some definition that holds a position has the name of the one that a symbol belongs
to. -/
def sharesScope (program : Program) (p : Position) (o : OwnedSymbol) : Bool :=
  o.owner.all fun d => program.definitions.any fun e =>
    e.span.contains p && e.definitionName? == d.definitionName?

/-- Those of some symbols that make sense at a position. -/
def admittedAt (program : Program) (p : Position) (os : List OwnedSymbol) : List Symbol :=
  (os.map OwnedSymbol.symbol).filter fun s => (program.completionAt p).place.admits s.kind

/-- Seen from a position is what belongs to a namesake of a definition there. -/
theorem visibleFrom_pathTo (h : program.WellNested) {o : OwnedSymbol}
    (ho : o ∈ program.ownedSymbols) (p : Position) :
    o.symbol.visibleFrom (enclosingDefinitions (program.pathTo p)) = program.sharesScope p o := by
  rw [Bool.eq_iff_iff, visibleFrom_iff ho, sharesScope, Option.all_eq_true]
  simp only [List.any_eq_true, Bool.and_eq_true, beq_iff_eq]
  constructor
  · intro hvisible d hd
    -- The namesake on the path is a definition, since the owner has a name.
    obtain ⟨e, he, hname⟩ := hvisible d hd
    obtain ⟨name, hd⟩ := exists_definitionName (owner_mem_definitions ho hd)
    have hmem := mem_definitions_of_mem_pathTo he (hname.trans hd)
    exact ⟨e, hmem, (mem_pathTo_iff h hmem p).mp he, hname⟩
  · intro hshares d hd
    obtain ⟨e, he, hholds, hname⟩ := hshares d hd
    exact ⟨e, (mem_pathTo_iff h he p).mpr hholds, hname⟩

theorem completionAt_symbols_eq (h : program.WellNested) (p : Position) :
    (program.completionAt p).symbols =
      program.admittedAt p (program.ownedSymbols.filter (program.sharesScope p)) := by
  have hvisible : program.ownedSymbols.filter (program.sharesScope p) =
      program.ownedSymbols.filter fun o =>
        o.symbol.visibleFrom (enclosingDefinitions (program.pathTo p)) := by
    apply List.filter_congr
    intro o ho
    exact (visibleFrom_pathTo h ho p).symm
  rw [admittedAt, hvisible, completionAt, symbols_eq]
  simp [List.filter_map, List.filter_filter, Function.comp_def, Bool.and_comm]

/-- Where a program is well nested, a completion offers, in the order of the source, what makes
sense at the position and belongs to the file or to a definition that shares its name with one that
holds the position.  These are the symbols in scope, unless a definition that holds the position has
the name of one that does not. -/
theorem completionAt_symbols (program : Program) (h : program.WellNested) (p : Position) :
    (program.completionAt p).symbols =
        program.admittedAt p (program.ownedSymbols.filter (program.sharesScope p)) ∧
      ((∀ d ∈ program.definitions, ∀ e ∈ program.definitions,
          e.definitionName? = d.definitionName? →
          e.span.contains p = true → d.span.contains p = true) →
        (program.completionAt p).symbols =
          program.admittedAt p (program.ownedSymbols.filter (OwnedSymbol.isInScope p))) := by
  refine ⟨completionAt_symbols_eq h p, fun hnames => ?_⟩
  have hscopes : ∀ o ∈ program.ownedSymbols, program.sharesScope p o = o.isInScope p := by
    intro o ho
    rw [Bool.eq_iff_iff, sharesScope, OwnedSymbol.isInScope, Option.all_eq_true,
      Option.all_eq_true]
    simp only [List.any_eq_true, Bool.and_eq_true, beq_iff_eq]
    constructor
    · intro hshares d hd
      obtain ⟨e, he, hholds, hname⟩ := hshares d hd
      exact hnames d (owner_mem_definitions ho hd) e he hname hholds
    · intro hin d hd
      exact ⟨d, owner_mem_definitions ho hd, hin d hd, rfl⟩
  rw [completionAt_symbols_eq h p, List.filter_congr hscopes]

/-- `module m(a) {}` -/
def moduleOfA : Statement :=
  .moduleDefinition "m" ⟨⟨0, 7, 7⟩, ⟨0, 8, 8⟩⟩ [⟨"a", none, ⟨⟨0, 9, 9⟩, ⟨0, 10, 10⟩⟩⟩] []
    ⟨⟨0, 0, 0⟩, ⟨0, 14, 14⟩⟩

/-- A function on the line below it, such as `function m(b) = b;`. -/
def functionOfB (name : String) : Statement :=
  .functionDefinition name ⟨⟨1, 9, 24⟩, ⟨1, 10, 25⟩⟩ [⟨"b", none, ⟨⟨1, 11, 26⟩, ⟨1, 12, 27⟩⟩⟩]
    (.identifier "b" ⟨⟨1, 16, 31⟩, ⟨1, 17, 32⟩⟩) ⟨⟨1, 0, 15⟩, ⟨1, 18, 33⟩⟩

/-- The module and the function. -/
def moduleAndFunction (name : String) : Program :=
  [moduleOfA, functionOfB name]

theorem moduleAndFunction_wellNested (name : String) : (moduleAndFunction name).WellNested := by
  have hmodule : (View.statement moduleOfA).WellNested := by
    apply View.WellNested.of_leaves
    · decide
    · decide
    · exact List.forall_mem_singleton.mpr rfl
  have hfunction : (View.statement (functionOfB name)).WellNested := by
    apply View.WellNested.of_leaves
    · exact List.forall_mem_cons.mpr ⟨rfl, List.forall_mem_singleton.mpr rfl⟩
    · exact List.pairwise_pair.mpr rfl
    · exact List.forall_mem_cons.mpr ⟨rfl, List.forall_mem_singleton.mpr rfl⟩
  apply WellNested.of_ordered
  · exact List.forall_mem_cons.mpr ⟨hmodule, List.forall_mem_singleton.mpr hfunction⟩
  · exact List.pairwise_pair.mpr rfl

theorem moduleAndFunction_placed (name : String) :
    (moduleAndFunction name).placed = [⟨moduleOfA, []⟩, ⟨functionOfB name, []⟩] := by
  simp [placed, moduleAndFunction, moduleOfA, functionOfB, Statement.placed_eq, Statement.parts]

theorem moduleAndFunction_definitions (name : String) :
    (moduleAndFunction name).definitions = moduleAndFunction name := by
  rw [definitions, ← map_statement_placed, moduleAndFunction_placed]
  rfl

/-- Inside the function `g` the parameter of the module `m` is not offered. -/
theorem completionAt_symbols_moduleAndFunction :
    (moduleAndFunction "g").WellNested ∧
      ((moduleAndFunction "g").completionAt ⟨1, 16, 31⟩).symbols =
        (moduleAndFunction "g").admittedAt ⟨1, 16, 31⟩
          ((moduleAndFunction "g").ownedSymbols.filter (OwnedSymbol.isInScope ⟨1, 16, 31⟩)) := by
  have hwell := moduleAndFunction_wellNested "g"
  have hnames : ∀ d ∈ (moduleAndFunction "g").definitions,
      ∀ e ∈ (moduleAndFunction "g").definitions, e.definitionName? = d.definitionName? →
        e.span.contains ⟨1, 16, 31⟩ = true → d.span.contains ⟨1, 16, 31⟩ = true := by
    rw [moduleAndFunction_definitions]
    decide
  exact ⟨hwell, (completionAt_symbols _ hwell ⟨1, 16, 31⟩).2 hnames⟩

/-- The cursor stands on the body of the function. -/
theorem moduleAndFunction_place (name : String) :
    ((moduleAndFunction name).completionAt ⟨1, 16, 31⟩).place = .expression := by
  have hfunction : (moduleAndFunction name).views.find? (View.holds ⟨1, 16, 31⟩) =
      some (.statement (functionOfB name)) := rfl
  have hbody : (View.statement (functionOfB name)).children.find? (View.holds ⟨1, 16, 31⟩) =
      some (.expression (.identifier "b" ⟨⟨1, 16, 31⟩, ⟨1, 17, 32⟩⟩)) := rfl
  rw [completionAt, pathTo_of_leaf hfunction hbody rfl]
  rfl

/-- Inside the function `m` the parameter of the module `m` is offered, which is not in scope. -/
theorem completionAt_symbols_ne_homonyms :
    (moduleAndFunction "m").WellNested ∧
      ((moduleAndFunction "m").completionAt ⟨1, 16, 31⟩).symbols.map Symbol.name =
        ["a", "m", "b"] ∧
      ((moduleAndFunction "m").admittedAt ⟨1, 16, 31⟩ ((moduleAndFunction "m").ownedSymbols.filter
        (OwnedSymbol.isInScope ⟨1, 16, 31⟩))).map Symbol.name = ["m", "b"] := by
  have hwell := moduleAndFunction_wellNested "m"
  have hshares : (moduleAndFunction "m").sharesScope ⟨1, 16, 31⟩ = fun o => o.owner.all fun d =>
      (moduleAndFunction "m").any fun e =>
        e.span.contains ⟨1, 16, 31⟩ && e.definitionName? == d.definitionName? := by
    funext o
    rw [sharesScope, moduleAndFunction_definitions]
  rw [completionAt_symbols_eq hwell, admittedAt, admittedAt, moduleAndFunction_place, hshares,
    ownedSymbols, moduleAndFunction_placed]
  exact ⟨hwell, rfl, rfl⟩

end Program

end Scad
