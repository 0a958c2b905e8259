import Scad.Proofs.Cursor
import Scad.Proofs.Scoping.Symbols

/-!
# What Can Be Seen

A symbol can be seen from a path where a definition on the path has the name of its scope.  Only
names are compared, so this says less than that the symbol's own definition is on the path.

* `Program.definitions` — the definitions of a program.
* `mem_enclosingDefinitions_iff` — the names on a path are those of the definitions on it.
* `Program.visibleFrom_iff` — what it means that a symbol can be seen.
-/

namespace Scad

/-! ## §1 Definitions on a path -/

namespace View

/-- The statement that a view shows. -/
def statement? : View → Option Statement
  | statement s => some s
  | fault f => some (.fault f)
  | _ => none

theorem definitionName?_statement (s : Statement) :
    (statement s).definitionName? = s.definitionName? := by
  cases s <;> rfl

/-- Only the view of a statement gives a name. -/
theorem exists_statement_of_definitionName? {v : View} {name : String}
    (h : v.definitionName? = some name) : ∃ d, v = statement d ∧ d.definitionName? = some name := by
  cases v with
  | statement s =>
    rw [definitionName?_statement] at h
    exact ⟨s, rfl, h⟩
  | _ => cases h

end View

theorem mem_enclosingDefinitions_iff {path : List View} {name : String} :
    name ∈ enclosingDefinitions path ↔
      ∃ d, View.statement d ∈ path ∧ d.definitionName? = some name := by
  rw [enclosingDefinitions, List.mem_filterMap]
  constructor
  · rintro ⟨v, hv, hname⟩
    obtain ⟨d, rfl, hd⟩ := View.exists_statement_of_definitionName? hname
    exact ⟨d, hv, hd⟩
  · rintro ⟨d, hd, hname⟩
    rw [← View.definitionName?_statement] at hname
    exact ⟨_, hd, hname⟩

/-! ## §2 Definitions of a program -/

namespace Program

variable {program : Program} {d : Statement} {o : OwnedSymbol}

/-- The definitions of modules and functions in a program, at any depth. -/
def definitions (program : Program) : List Statement :=
  program.statements.filter Statement.isDefinition

theorem filterMap_statement?_preorder (program : Program) :
    program.preorder.filterMap View.statement? = program.statements := by
  have hstored (s : Statement) : (View.ofStatement s).statement? = some s := by
    cases s <;> rfl
  have hother (v : View) (hv : v.isStatement = false) : v.statement? = none := by
    cases v <;> simp_all [View.isStatement, View.statement?]
  rw [filterMap_preorder hstored hother, List.filterMap_some]

theorem mem_statements_of_mem_preorder (h : View.statement d ∈ program.preorder) :
    d ∈ program.statements := by
  rw [← filterMap_statement?_preorder]
  exact List.mem_filterMap.mpr ⟨_, h, rfl⟩

/-- A definition of a program is one of its views. -/
theorem mem_preorder_of_mem_definitions (h : d ∈ program.definitions) :
    View.statement d ∈ program.preorder := by
  obtain ⟨hmem, hdefinition⟩ := List.mem_filter.mp h
  rw [← filterMap_statement?_preorder] at hmem
  obtain ⟨v, hv, hshows⟩ := List.mem_filterMap.mp hmem
  cases v with
  | statement s =>
    obtain rfl : s = d := by simpa [View.statement?] using hshows
    exact hv
  | fault f =>
    obtain rfl : Statement.fault f = d := by simpa [View.statement?] using hshows
    cases hdefinition
  | _ => cases hshows

theorem mem_definitions_of_mem_pathTo {p : Position} {name : String}
    (h : View.statement d ∈ program.pathTo p) (hname : d.definitionName? = some name) :
    d ∈ program.definitions := by
  apply List.mem_filter.mpr
  refine ⟨mem_statements_of_mem_preorder (mem_preorder_of_mem_pathTo h), ?_⟩
  simp [Statement.isDefinition, hname]

/-- Where a program is well nested, the definitions on the path to a position are those that hold
it. -/
theorem mem_pathTo_iff (h : program.WellNested) (hd : d ∈ program.definitions) (p : Position) :
    View.statement d ∈ program.pathTo p ↔ d.span.contains p = true := by
  rw [← filter_preorder h, List.mem_filter]
  constructor
  · exact fun hmem => hmem.2
  · exact fun hholds => ⟨mem_preorder_of_mem_definitions hd, hholds⟩

/-! ## §3 Owners -/

theorem mem_statements_of_mem_placed {p : PlacedStatement} (hp : p ∈ program.placed)
    (hd : d ∈ p.statement :: p.around) : d ∈ program.statements := by
  obtain ⟨s, hs, hp⟩ := List.mem_flatMap.mp hp
  apply List.mem_flatMap.mpr
  refine ⟨s, hs, ?_⟩
  rcases List.mem_cons.mp hd with rfl | haround
  · rw [← s.map_statement_placed []]
    exact List.mem_map_of_mem hp
  · rcases Statement.mem_of_mem_around hp haround with h | h
    · cases h
    · exact h

/-- What a symbol belongs to is the nearest definition around the statement that introduces it, or
that statement itself. -/
theorem exists_placed_of_mem_ownedSymbols (h : o ∈ program.ownedSymbols) :
    ∃ p ∈ program.placed, o.owner = p.owner? ∨ o.owner = p.innerOwner? := by
  obtain ⟨p, hp, h⟩ := List.mem_flatMap.mp h
  refine ⟨p, hp, ?_⟩
  have hbound {bindings : List Binding} (h : o ∈ p.bound bindings) : o.owner = p.innerOwner? := by
    obtain ⟨b, _, rfl⟩ := List.mem_map.mp h
    rfl
  -- Only a definition belongs to what is around it; the rest stands inside the statement.
  simp only [PlacedStatement.declared, PlacedStatement.stray, List.mem_append] at h
  rcases h with ((h | h) | h) | h
  · obtain ⟨symbol, _, rfl⟩ := List.mem_map.mp h
    exact .inl rfl
  · obtain ⟨declaration, _, rfl⟩ := List.mem_map.mp h
    exact .inr rfl
  · exact .inr (hbound h)
  · exact .inr (hbound h)

theorem owner_mem_definitions (h : o ∈ program.ownedSymbols) (hd : o.owner = some d) :
    d ∈ program.definitions := by
  obtain ⟨p, hp, howner⟩ := exists_placed_of_mem_ownedSymbols h
  rw [hd] at howner
  apply List.mem_filter.mpr
  rcases howner with howner | howner
  · have haround := List.mem_of_find?_eq_some howner.symm
    exact ⟨mem_statements_of_mem_placed hp (List.mem_cons_of_mem _ haround),
      List.find?_some howner.symm⟩
  · exact ⟨mem_statements_of_mem_placed hp (List.mem_of_find?_eq_some howner.symm),
      List.find?_some howner.symm⟩

theorem exists_definitionName (hd : d ∈ program.definitions) :
    ∃ name, d.definitionName? = some name :=
  Option.isSome_iff_exists.mp (List.mem_filter.mp hd).2

/-- A symbol can be seen from a path where it stands at the level of the file, or where a definition
on the path has the name of the definition that it belongs to. -/
theorem visibleFrom_iff (h : o ∈ program.ownedSymbols) (path : List View) :
    o.symbol.visibleFrom (enclosingDefinitions path) = true ↔
      ∀ d, o.owner = some d →
        ∃ e, View.statement e ∈ path ∧ e.definitionName? = d.definitionName? := by
  rw [Symbol.visibleFrom, scope_of_mem_ownedSymbols h]
  cases howner : o.owner with
  | none => simp
  | some d =>
    obtain ⟨name, hname⟩ := exists_definitionName (owner_mem_definitions h howner)
    simp [hname, mem_enclosingDefinitions_iff]

end Program

end Scad
