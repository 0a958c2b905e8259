import Scad.Editor.Symbol

/-!
# Hover Texts

What an editor shows about the place under the cursor, as Markdown.

A name that the program defines is described by its definition.  Everything else is described by the
innermost view around the cursor that has a description of its own; blocks, literals and plain
arguments have none.
-/

namespace Scad

/-- A text about a stretch of the program. -/
structure Hover where
  contents : String
  span : Span
  deriving DecidableEq, Repr, Inhabited

/-! ## §1 Markdown -/

/-- Program text in a block of its own. -/
def codeBlock (text : String) : String :=
  "```openscad\n" ++ text ++ "\n```"

/-- Program text within a line. -/
def codeSpan (text : String) : String :=
  "`" ++ text ++ "`"

/-- A text with a remark in a paragraph of its own. -/
def withRemark (text remark : String) : String :=
  text ++ "\n\n" ++ remark

/-! ## §2 Single views -/

/-- The text about a symbol: its signature, and what it is. -/
def Symbol.description (s : Symbol) : String :=
  let kind := match s.kind with
    | .module => "module"
    | .function => "function"
    | .variable => "variable"
    | .parameter => "parameter"
    | .constant => "special variable"
  let place := match s.scope with
    | some scope => kind ++ " in " ++ codeSpan scope
    | none => kind
  withRemark (codeBlock s.signature) place

/-- The text about a call. -/
def callText (name : String) (arguments : List Argument) : String :=
  codeBlock (name ++ "(" ++ Argument.textOfList arguments ++ ")")

/-- The text about a fault. -/
def Fault.description (f : Fault) : String :=
  "**" ++ f.code.name ++ "**: " ++ f.message

/-- The text about a statement. -/
def Statement.description? : Statement → Option String
  | .moduleDefinition name _ parameters _ _ =>
    some (codeBlock ("module " ++ name ++ head parameters))
  | .functionDefinition name _ parameters body _ =>
    some (codeBlock ("function " ++ name ++ head parameters ++ " = " ++ body.text))
  | .call name _ arguments _ _ => some (withRemark (callText name arguments) "Module call")
  | .primitive shape _ _ => some (withRemark (codeSpan shape.name) "Builtin primitive")
  | .transform operation _ _ =>
    some (withRemark (codeSpan operation.name) "Builtin transformation")
  | .csg operation _ _ => some (withRemark (codeSpan operation.name) "Builtin CSG operation")
  | .assignment b => some (codeBlock b.text)
  | .inclusion _ path _ => some (codeSpan path)
  | .fault f => some f.description
  | _ => none
where
  /-- The parameters of a definition in parentheses. -/
  head (parameters : List Declaration) : String :=
    "(" ++ ", ".intercalate (parameters.map Declaration.text) ++ ")"

/-- The text about an expression. -/
def Expression.description? : Expression → Option String
  | .call name arguments _ =>
    let text := callText name arguments
    some (if Vocabulary.isFunction name then withRemark text "Builtin function" else text)
  | .identifier name _ => some ("Variable " ++ codeSpan name)
  | .special name _ => some ("Special variable " ++ codeSpan name)
  | _ => none

namespace View

/-- The text about a view. -/
def description? : View → Option String
  | statement s => s.description?
  | expression e => e.description?
  | fault f => some f.description
  | argument _ => none
  | declaration d => some (withRemark "Parameter" (codeBlock d.text))
  | binding b => some (codeBlock b.text)

/-- The hover text of a view by itself. -/
def hover? (v : View) : Option Hover :=
  v.description?.map fun contents => ⟨contents, v.span⟩

/-! ## §3 Names under the cursor -/

/-- The name that a view refers to, and what kinds of symbols it may mean. -/
def reference? : View → Option (String × List SymbolKind)
  | expression (.identifier name _) | expression (.special name _) =>
    some (name, [.variable, .parameter, .constant])
  | expression (.call name _ _) => some (name, [.function])
  | statement (.call name _ _ _ _) => some (name, [.module])
  | _ => none

end View

namespace Program

/-- The symbol that the end of a path refers to: of those that can be seen from there, the last. -/
def referredSymbol? (program : Program) (path : List View) : Option Symbol := do
  let (name, kinds) ← (← path.getLast?).reference?
  (program.symbols.filter fun s =>
    kinds.contains s.kind && s.name == name && s.visibleFrom (enclosingDefinitions path)).getLast?

/-- The hover text at a position. -/
def hoverAt? (program : Program) (p : Position) : Option Hover :=
  let path := program.pathTo p
  match path.getLast?, program.referredSymbol? path with
  | some view, some symbol => some ⟨symbol.description, view.span⟩
  -- From the inside out, the first view that says anything.
  | _, _ => path.reverse.findSome? View.hover?

end Program

end Scad
