import Scad.Ast.Printer
import Scad.Editor.Cursor
import Scad.Vocabulary

/-!
# Symbols

The named things that a program defines: its modules and functions, the parameters of each, and its
variables.  `Program.symbols` lists them in the order of the source, a definition before what it
holds.

The scope of a symbol is the name of the nearest definition around it.  The search for symbols does
not enter expressions, so what a `let` binds inside an expression is none; where the expression is a
statement by itself, its own bindings count as those of the statement.
-/

namespace Scad

/-! ## §1 A single symbol -/

/-- What a symbol names. -/
inductive SymbolKind where
  | module | function | variable | parameter
  /-- A special variable. -/
  | constant
  deriving DecidableEq, Repr, Inhabited

namespace SymbolKind

def name : SymbolKind → String
  | .module => "module" | .function => "function" | .variable => "variable"
  | .parameter => "parameter" | .constant => "constant"

/-- Whether symbols of the kind hold others. -/
def isDefinition : SymbolKind → Bool
  | .module | .function => true
  | _ => false

end SymbolKind

/-- A named definition. -/
structure Symbol where
  name : String
  kind : SymbolKind
  /-- Where the whole definition stands. -/
  span : Span
  /-- Where the name stands; a parameter has no place of its own for it. -/
  nameSpan : Option Span := none
  /-- The nearest definition around it, where there is one. -/
  scope : Option String := none
  /-- The parameters of a module or of a function, as they are printed. -/
  parameters : Option (List String) := none
  /-- The value of a variable, the default of a parameter, or the body of a function. -/
  value : Option String := none
  deriving DecidableEq, Repr, Inhabited

namespace Symbol

/-- The symbol as a definition: `module name(a, b = 2)`, `function f(x) = x * 2`, `x = 10`. -/
def signature (s : Symbol) : String :=
  let head := s.name ++ "(" ++ ", ".intercalate (s.parameters.getD []) ++ ")"
  match s.kind, s.value with
  | .module, _ => "module " ++ head
  | .function, some value => "function " ++ head ++ " = " ++ value
  | .function, none => "function " ++ head
  | _, some value => s.name ++ " = " ++ value
  | _, none => s.name

/-- Whether the symbol can be seen inside the definitions of the given names. -/
def visibleFrom (s : Symbol) (definitions : List String) : Bool :=
  s.scope.all definitions.contains

/-- The symbol of a parameter. -/
def ofDeclaration (scope : Option String) (d : Declaration) : Symbol where
  name := d.name
  kind := .parameter
  span := d.span
  scope := scope
  value := d.default?.map Expression.text

/-- The symbol of a binding. -/
def ofBinding (scope : Option String) (b : Binding) : Symbol where
  name := b.name
  kind := if Vocabulary.isSpecialName b.name then .constant else .variable
  span := b.span
  nameSpan := some b.nameSpan
  scope := scope
  value := some b.value.text

/-- The symbol of a statement, where it is a definition. -/
def ofStatement? (scope : Option String) : Statement → Option Symbol
  | .moduleDefinition name nameSpan parameters _ span =>
    some {
      name, span, scope
      kind := .module
      nameSpan := some nameSpan
      parameters := some (parameters.map Declaration.text) }
  | .functionDefinition name nameSpan parameters body span =>
    some {
      name, span, scope
      kind := .function
      nameSpan := some nameSpan
      parameters := some (parameters.map Declaration.text)
      value := some body.text }
  | _ => none

end Symbol

/-! ## §2 The symbols of a program -/

/-- The scope inside a statement that stands in a scope. -/
def Statement.innerScope (scope : Option String) (s : Statement) : Option String :=
  ((Symbol.ofStatement? scope s).map Symbol.name).or scope

/-- The symbols of a view that stands in a scope. -/
def View.symbols (scope : Option String) (v : View) : List Symbol :=
  match v with
  | .statement s =>
    (Symbol.ofStatement? scope s).toList
      ++ (View.statement s).children.attach.flatMap fun c => symbols (s.innerScope scope) c.1
  | .declaration d => [Symbol.ofDeclaration scope d]
  | .binding b => [Symbol.ofBinding scope b]
  -- What a `let` binds inside an expression is seen by that expression alone.
  | .expression _ | .argument _ | .fault _ => []
termination_by v.weight
decreasing_by exact View.weight_lt_of_mem_children c.2

theorem View.symbols_statement (scope : Option String) (s : Statement) :
    (View.statement s).symbols scope =
      (Symbol.ofStatement? scope s).toList
        ++ (View.statement s).children.flatMap (View.symbols (s.innerScope scope)) := by
  rw [View.symbols]
  congr 1
  simp [List.flatMap_subtype]

namespace Program

/-- The symbols of a program. -/
def symbols (program : Program) : List Symbol :=
  program.views.flatMap (View.symbols none)

/-- Of two symbols that hold a position, the one further inside: the later one, unless it reaches
beyond the earlier one. -/
def innerSymbol (best candidate : Symbol) : Symbol :=
  if best.span.encloses candidate.span then candidate else best

/-- The innermost symbol whose definition holds a position. -/
def symbolAt? (program : Program) (p : Position) : Option Symbol :=
  match program.symbols.filter (·.span.contains p) with
  | [] => none
  | first :: rest => some (rest.foldl innerSymbol first)

end Program

end Scad
