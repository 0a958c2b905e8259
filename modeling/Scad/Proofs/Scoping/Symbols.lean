import Scad.Editor.Symbol
import Scad.Proofs.Statements

/-!
# What the Symbols of a Program Are

The symbols of a program are collected in one walk that carries the name of the scope along.  Here
they are listed a second time, from the statements of the program and what stands around each of
them, and every symbol keeps the definition that it belongs to, of which its scope is only the name.

* `Statement.placed` — the statements stored in a statement, each with those around it.
* `Program.declaredSymbols` — the definitions, their parameters, and the bindings of statements.
* `Program.ownedSymbols` — those and the bindings of an expression that stands as a statement.
* `Program.symbols_exact` — the walk lists the latter, and so the former where no such binding is.
-/

namespace Scad

/-! ## §1 Surroundings -/

namespace Statement

/-- The name that a definition of a module or of a function gives. -/
def definitionName? : Statement → Option String
  | moduleDefinition name .. | functionDefinition name .. => some name
  | _ => none

/-- Whether a statement is the definition of a module or of a function. -/
def isDefinition (s : Statement) : Bool :=
  s.definitionName?.isSome

end Statement

/-- A statement of a program with the statements around it, the innermost first. -/
structure PlacedStatement where
  statement : Statement
  around : List Statement

namespace Statement

/-- The statement and every statement stored in it at any depth, where the statement itself stands
in the given ones. -/
def placed (around : List Statement) (s : Statement) : List PlacedStatement :=
  ⟨s, around⟩ :: s.parts.attach.flatMap fun t => placed (s :: around) t.1
termination_by sizeOf s
decreasing_by exact sizeOf_lt_of_mem_parts t.2

theorem placed_eq (around : List Statement) (s : Statement) :
    s.placed around = ⟨s, around⟩ :: s.parts.flatMap (placed (s :: around)) := by
  rw [placed]
  congr 1
  simp [List.flatMap_subtype]

theorem map_statement_placed (around : List Statement) (s : Statement) :
    (s.placed around).map PlacedStatement.statement = s.preorder := by
  rw [placed_eq, preorder_eq, List.map_cons, List.map_flatMap]
  congr 1
  apply List.flatMap_congr
  intro t ht
  exact map_statement_placed (s :: around) t
termination_by sizeOf s
decreasing_by exact sizeOf_lt_of_mem_parts ht

/-- Whatever stands around a statement stored in another one stands around that one, or is stored
in it too. -/
theorem mem_of_mem_around {around : List Statement} {s t : Statement} {p : PlacedStatement}
    (hp : p ∈ s.placed around) (ht : t ∈ p.around) : t ∈ around ∨ t ∈ s.preorder := by
  rw [placed_eq] at hp
  rw [preorder_eq]
  rcases List.mem_cons.mp hp with rfl | hp
  · exact .inl ht
  · obtain ⟨part, hpart, hp⟩ := List.mem_flatMap.mp hp
    rcases mem_of_mem_around hp ht with h | h
    · rcases List.mem_cons.mp h with rfl | h
      · exact .inr List.mem_cons_self
      · exact .inl h
    · exact .inr (List.mem_cons_of_mem s (List.mem_flatMap.mpr ⟨part, hpart, h⟩))
termination_by sizeOf s
decreasing_by exact sizeOf_lt_of_mem_parts hpart

end Statement

namespace Program

/-- The statements of a program at any depth, each with those around it. -/
def placed (program : Program) : List PlacedStatement :=
  program.flatMap (Statement.placed [])

theorem map_statement_placed (program : Program) :
    program.placed.map PlacedStatement.statement = program.statements := by
  rw [placed, statements, List.map_flatMap]
  apply List.flatMap_congr
  intro s _
  exact s.map_statement_placed []

end Program

/-! ## §2 Symbols and their owners -/

/-- A symbol with the definition that it belongs to; none at the level of the file. -/
structure OwnedSymbol where
  owner : Option Statement
  symbol : Symbol

namespace PlacedStatement

/-- The nearest definition around a statement. -/
def owner? (p : PlacedStatement) : Option Statement :=
  p.around.find? Statement.isDefinition

/-- The nearest definition around what stands directly inside a statement, which may be the
statement itself. -/
def innerOwner? (p : PlacedStatement) : Option Statement :=
  (p.statement :: p.around).find? Statement.isDefinition

end PlacedStatement

/-- The symbol that is made for the name of the definition that it belongs to. -/
def OwnedSymbol.under (owner : Option Statement) (symbol : Option String → Symbol) : OwnedSymbol :=
  ⟨owner, symbol (owner.bind Statement.definitionName?)⟩

namespace PlacedStatement

/-- The symbol of the statement itself, where it is a definition. -/
def defined (p : PlacedStatement) : List OwnedSymbol :=
  (Symbol.ofStatement? (p.owner?.bind Statement.definitionName?) p.statement).toList.map
    fun symbol => ⟨p.owner?, symbol⟩

/-- The symbols of bindings that stand directly inside the statement. -/
def bound (p : PlacedStatement) (bindings : List Binding) : List OwnedSymbol :=
  bindings.map fun b => .under p.innerOwner? (Symbol.ofBinding · b)

/-- What a statement declares: itself, its parameters and its bindings. -/
def declared (p : PlacedStatement) : List OwnedSymbol :=
  p.defined ++
    (p.statement.parameters.map fun d => .under p.innerOwner? (Symbol.ofDeclaration · d)) ++
    p.bound p.statement.bindings

/-- The bindings of the expression that a statement consists of. -/
def stray (p : PlacedStatement) : List OwnedSymbol :=
  p.bound p.statement.strayBindings

end PlacedStatement

namespace Program

/-- What the statements of a program declare. -/
def declaredSymbols (program : Program) : List OwnedSymbol :=
  program.placed.flatMap PlacedStatement.declared

/-- What the statements of a program declare, and the bindings of an expression that stands as a
statement. -/
def ownedSymbols (program : Program) : List OwnedSymbol :=
  program.placed.flatMap fun p => p.declared ++ p.stray

end Program

/-! ## §3 The walk -/

theorem Symbol.map_name_ofStatement? (scope : Option String) (s : Statement) :
    (ofStatement? scope s).map Symbol.name = s.definitionName? := by
  cases s <;> rfl

/-- The scope inside a statement is the name of the nearest definition, itself included. -/
theorem Statement.innerScope_eq (around : List Statement) (s : Statement) :
    s.innerScope ((around.find? isDefinition).bind definitionName?) =
      ((s :: around).find? isDefinition).bind definitionName? := by
  rw [innerScope, Symbol.map_name_ofStatement?, List.find?_cons, isDefinition]
  cases h : s.definitionName? <;> simp [h]

namespace View

theorem symbols_ofStatement (scope : Option String) (s : Statement) :
    (ofStatement s).symbols scope =
      (Symbol.ofStatement? scope s).toList ++
        (s.parameters.map (Symbol.ofDeclaration (s.innerScope scope))) ++
        ((s.bindings ++ s.strayBindings).map (Symbol.ofBinding (s.innerScope scope))) ++
        s.parts.flatMap fun t => (ofStatement t).symbols (s.innerScope scope) := by
  -- A fault that stands as a statement is a view of its own, without symbols.
  have hopen : (ofStatement s).symbols scope = (Symbol.ofStatement? scope s).toList ++
      (ofStatementParts s).flatMap (symbols (s.innerScope scope)) := by
    cases s with
    | fault f =>
      simp [ofStatement, symbols, Symbol.ofStatement?, ofStatementParts]
    | _ => exact symbols_statement scope _
  rw [hopen, flatMap_ofStatementParts (fun e => by rw [symbols]) (fun a => by rw [symbols])]
  simp [symbols, List.map_eq_flatMap]

/-- The walk through a statement lists the symbols of the statements stored in it. -/
theorem symbols_ofStatement_placed (around : List Statement) (s : Statement) :
    (ofStatement s).symbols ((around.find? Statement.isDefinition).bind
        Statement.definitionName?) =
      ((s.placed around).flatMap fun p => p.declared ++ p.stray).map OwnedSymbol.symbol := by
  have hparts : (s.parts.flatMap fun t => (ofStatement t).symbols
      (((s :: around).find? Statement.isDefinition).bind Statement.definitionName?)) =
      (s.parts.flatMap fun t => ((t.placed (s :: around)).flatMap fun p =>
        p.declared ++ p.stray).map OwnedSymbol.symbol) := by
    apply List.flatMap_congr
    intro t ht
    exact symbols_ofStatement_placed (s :: around) t
  rw [symbols_ofStatement, s.innerScope_eq, hparts, s.placed_eq]
  simp [PlacedStatement.declared, PlacedStatement.defined, PlacedStatement.stray,
    PlacedStatement.owner?, PlacedStatement.innerOwner?, PlacedStatement.bound, OwnedSymbol.under,
    Function.comp_def, List.flatMap_assoc, List.map_flatMap]
termination_by sizeOf s
decreasing_by exact Statement.sizeOf_lt_of_mem_parts ht

end View

/-! ## §4 The symbols of a program -/

theorem Symbol.scope_of_ofStatement? {scope : Option String} {s : Statement} {symbol : Symbol}
    (h : ofStatement? scope s = some symbol) : symbol.scope = scope := by
  cases s <;> simp [ofStatement?] at h <;> rw [← h]

namespace PlacedStatement

theorem scope_of_mem_bound {p : PlacedStatement} {bindings : List Binding} {o : OwnedSymbol}
    (h : o ∈ p.bound bindings) : o.symbol.scope = o.owner.bind Statement.definitionName? := by
  obtain ⟨b, _, rfl⟩ := List.mem_map.mp h
  rfl

theorem scope_of_mem_declared {p : PlacedStatement} {o : OwnedSymbol} (h : o ∈ p.declared) :
    o.symbol.scope = o.owner.bind Statement.definitionName? := by
  rw [declared, List.mem_append, List.mem_append] at h
  rcases h with (h | h) | h
  · obtain ⟨symbol, hsymbol, rfl⟩ := List.mem_map.mp h
    exact Symbol.scope_of_ofStatement? (Option.mem_toList.mp hsymbol)
  · obtain ⟨d, _, rfl⟩ := List.mem_map.mp h
    rfl
  · exact scope_of_mem_bound h

end PlacedStatement

namespace Program

/-- The scope of a symbol is the name of the definition that it belongs to. -/
theorem scope_of_mem_ownedSymbols {program : Program} {o : OwnedSymbol}
    (h : o ∈ program.ownedSymbols) : o.symbol.scope = o.owner.bind Statement.definitionName? := by
  obtain ⟨p, _, h⟩ := List.mem_flatMap.mp h
  rcases List.mem_append.mp h with h | h
  · exact PlacedStatement.scope_of_mem_declared h
  · exact PlacedStatement.scope_of_mem_bound h

theorem symbols_eq (program : Program) :
    program.symbols = program.ownedSymbols.map OwnedSymbol.symbol := by
  rw [symbols, views, ownedSymbols, placed, List.flatMap_map, List.flatMap_assoc,
    List.map_flatMap]
  apply List.flatMap_congr
  intro s _
  exact View.symbols_ofStatement_placed [] s

/-- As many symbols are listed beside the declared ones as there are stray bindings. -/
theorem length_ownedSymbols (program : Program) :
    program.ownedSymbols.length = program.declaredSymbols.length +
      (program.placed.flatMap PlacedStatement.stray).length := by
  rw [ownedSymbols, declaredSymbols]
  induction program.placed with
  | nil => rfl
  | cons p ps ih =>
    simp only [List.flatMap_cons, List.length_append] at ih ⊢
    omega

theorem flatMap_stray_eq_nil_iff (program : Program) :
    program.placed.flatMap PlacedStatement.stray = [] ↔
      ∀ s ∈ program.statements, s.strayBindings = [] := by
  rw [← program.map_statement_placed, List.flatMap_eq_nil_iff, List.forall_mem_map]
  simp [PlacedStatement.stray, PlacedStatement.bound]

/-- The symbols of a program are, in pre-order, its definitions, the parameters of each, the
bindings of its assignments, loops and `let` statements, and the bindings of the expressions that
stand as statements.  The scope of each is the name of the nearest definition around it.  So what a
`let` or a comprehension binds is no symbol exactly where none of them stands as a statement. -/
theorem symbols_exact (program : Program) :
    program.symbols = program.ownedSymbols.map OwnedSymbol.symbol ∧
      (∀ o ∈ program.ownedSymbols, o.symbol.scope = o.owner.bind Statement.definitionName?) ∧
      (program.symbols = program.declaredSymbols.map OwnedSymbol.symbol ↔
        ∀ s ∈ program.statements, s.strayBindings = []) := by
  refine ⟨program.symbols_eq, fun o => scope_of_mem_ownedSymbols, ?_⟩
  rw [← flatMap_stray_eq_nil_iff, symbols_eq]
  constructor
  · intro h
    -- The one list is part of the other, so they are equal only if nothing is left over.
    have hlength := congrArg List.length h
    rw [List.length_map, List.length_map, length_ownedSymbols] at hlength
    apply List.eq_nil_of_length_eq_zero
    omega
  · intro h
    have hnone : ∀ p ∈ program.placed, p.declared ++ p.stray = p.declared := by
      intro p hp
      rw [List.flatMap_eq_nil_iff.mp h p hp, List.append_nil]
    rw [ownedSymbols, declaredSymbols, List.flatMap_congr hnone]

/-- `let (a = b) a;`, an expression that stands as a statement. -/
def bareLet : Program :=
  [.expression (.letIn
    [⟨"a", ⟨⟨0, 5, 5⟩, ⟨0, 6, 6⟩⟩, .identifier "b" ⟨⟨0, 9, 9⟩, ⟨0, 10, 10⟩⟩,
      ⟨⟨0, 5, 5⟩, ⟨0, 10, 10⟩⟩⟩]
    (.identifier "a" ⟨⟨0, 12, 12⟩, ⟨0, 13, 13⟩⟩) ⟨⟨0, 0, 0⟩, ⟨0, 13, 13⟩⟩)]

/-- What the expression binds is no declaration of the program, but it is a symbol. -/
theorem bareLet_symbols_ne :
    bareLet.declaredSymbols = [] ∧ bareLet.symbols.map Symbol.name = ["a"] ∧
      bareLet.symbols ≠ bareLet.declaredSymbols.map OwnedSymbol.symbol := by
  have hdeclared : bareLet.declaredSymbols = [] := by
    simp [declaredSymbols, placed, bareLet, Statement.placed_eq, Statement.parts,
      PlacedStatement.declared, PlacedStatement.defined, PlacedStatement.bound,
      Symbol.ofStatement?, Statement.parameters, Statement.bindings]
  have hnames : bareLet.symbols.map Symbol.name = ["a"] := by
    simp [symbols_eq, ownedSymbols, placed, bareLet, Statement.placed_eq, Statement.parts,
      PlacedStatement.declared, PlacedStatement.defined, PlacedStatement.stray,
      PlacedStatement.bound, OwnedSymbol.under, Symbol.ofStatement?, Symbol.ofBinding,
      Statement.parameters, Statement.bindings, Statement.strayBindings]
  refine ⟨hdeclared, hnames, ?_⟩
  intro h
  rw [h, hdeclared] at hnames
  cases hnames

end Program

end Scad
