import Scad.Editor.Symbol

/-!
# Completion

What an editor may offer at the cursor: the symbols that can be seen from there, and the names that
the language predefines.

Which of them make sense depends on the kind of the place, for which the path to the cursor is
looked at from its inner end:

* inside the value of a binding, or behind its name, a value is wanted;
* inside an argument, and anywhere behind the name of a call but before its children, an argument;
* inside any other expression, an expression;
* everywhere else, a statement.
-/

namespace Scad

/-! ## §1 Kinds of places -/

/-- The kind of a place. -/
inductive PlaceKind where
  /-- Between the statements of the file. -/
  | topLevel
  /-- Between the statements inside the definition of a module. -/
  | moduleBody
  /-- Between the parentheses of a call. -/
  | argumentList
  /-- In an expression. -/
  | expression
  /-- In the value of a binding. -/
  | assignmentValue
  deriving DecidableEq, Repr, Inhabited

namespace PlaceKind

def name : PlaceKind → String
  | topLevel => "top_level" | moduleBody => "module_body" | argumentList => "argument_list"
  | expression => "expression" | assignmentValue => "assignment_value"

/-- Whether a statement starts at such a place. -/
def isStatement : PlaceKind → Bool
  | topLevel | moduleBody => true
  | argumentList | expression | assignmentValue => false

/-- Whether symbols of a kind make sense at such a place: modules where a statement starts,
functions where none does. -/
def admits (place : PlaceKind) : SymbolKind → Bool
  | .module => place.isStatement
  | .function => !place.isStatement
  | .variable | .parameter | .constant => true

/-- The predefined names that make sense at such a place. -/
def builtins (place : PlaceKind) : List String :=
  if place.isStatement then Vocabulary.modules ++ Vocabulary.keywords
  else Vocabulary.functions ++ Vocabulary.specialVariables

end PlaceKind

/-! ## §2 Calls -/

/-- A part of a call, its children apart. -/
inductive CallRegion where
  | name | arguments
  deriving DecidableEq, Repr, Inhabited

/-- The part of a call that a position stands in; none for what is no call, and behind the start of
the first child.  A call that keeps no name has arguments only. -/
def callRegion? (s : Statement) (p : Position) : Option CallRegion :=
  match s with
  | .call _ nameSpan _ children _ =>
    if p.before nameSpan.stop then some .name else before children
  | .primitive .. => some .arguments
  | .transform _ children _ | .csg _ children _ => before children
  | _ => none
where
  /-- The arguments, where the position stands before the children. -/
  before (children : List Statement) : Option CallRegion :=
    if children.head?.all fun child => p.before child.span.start then some .arguments else none

/-! ## §3 The kind of the place under the cursor -/

/-- The kind of a place, given what it is at the level of statements, whether an expression has
been passed, and the views around it, the innermost first. -/
def placeFrom (level : PlaceKind) (p : Position) : Bool → List View → PlaceKind
  | _, [] => level
  -- An expression does not settle the kind; what is around it does.
  | _, .expression _ :: outer => placeFrom level p true outer
  | _, .argument _ :: _ => .argumentList
  | inExpression, .binding b :: _ =>
    -- Before the end of its name, a binding is only about to be written.
    if inExpression || !p.before b.nameSpan.stop then .assignmentValue else level
  | inExpression, .declaration _ :: _ | inExpression, .fault _ :: _ =>
    if inExpression then .expression else level
  | inExpression, .statement s :: _ =>
    match callRegion? s p with
    | some .arguments => .argumentList
    -- On the name of a call, another module may be meant.
    | some .name => level
    | none => if inExpression then .expression else level

/-- The kind of the place at the end of a path. -/
def placeKind (path : List View) (p : Position) : PlaceKind :=
  -- Between two statements, only the definitions around them matter.
  let level := if path.any View.isModuleDefinition then .moduleBody else .topLevel
  placeFrom level p false path.reverse

/-! ## §4 What is offered -/

/-- What may be offered at a place. -/
structure Completion where
  place : PlaceKind
  /-- The innermost definition around the place. -/
  scope : Option String
  /-- The symbols of the program that can be seen and make sense. -/
  symbols : List Symbol
  /-- The predefined names that make sense. -/
  builtins : List String
  deriving DecidableEq, Repr, Inhabited

/-- What may be offered at a position. -/
def Program.completionAt (program : Program) (p : Position) : Completion :=
  let path := program.pathTo p
  let place := placeKind path p
  let scopes := enclosingDefinitions path
  { place
    scope := scopes.getLast?
    symbols := program.symbols.filter fun s => s.visibleFrom scopes && place.admits s.kind
    builtins := place.builtins }

/-! ## §5 Items of a menu -/

/-- What an item of the menu stands for. -/
inductive ItemKind where
  | function | variable | module | keyword | constant
  deriving DecidableEq, Repr, Inhabited

/-- The item that stands for a symbol of a kind. -/
def ItemKind.ofSymbol : SymbolKind → ItemKind
  | .module => .module
  | .function => .function
  | .variable | .parameter => .variable
  | .constant => .constant

/-- An item of the menu. -/
structure CompletionItem where
  label : String
  kind : ItemKind
  detail : String
  /-- The text by which the menu is sorted. -/
  sortText : String
  deriving DecidableEq, Repr, Inhabited

namespace CompletionItem

/-- The item of a symbol.  Symbols come first. -/
def ofSymbol (s : Symbol) : CompletionItem where
  label := s.name
  kind := .ofSymbol s.kind
  detail := s.signature
  sortText := "0_" ++ s.name

/-- The item of a predefined name.  Modules and functions come before special variables, and
keywords last. -/
def ofBuiltin (place : PlaceKind) (name : String) : CompletionItem :=
  let (kind, tier) : ItemKind × String :=
    if Vocabulary.keywords.contains name then (.keyword, "3_")
    else if Vocabulary.isSpecialName name then (.constant, "2_")
    else if place.isStatement then (.module, "1_")
    else (.function, "1_")
  { label := name, kind, detail := "builtin", sortText := tier ++ name }

end CompletionItem

/-- The items of the menu: the symbols, then the predefined names. -/
def Completion.items (c : Completion) : List CompletionItem :=
  c.symbols.map .ofSymbol ++ c.builtins.map (.ofBuiltin c.place)

end Scad
