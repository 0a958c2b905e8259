import Scad.Ast.Expression
import Scad.Ast.Fault

/-!
# Statements

The typed tree of a program.  A statement that could not be converted stays in the tree as a fault,
so that its neighbours keep their places.
-/

namespace Scad

/-! ## §1 Predefined shapes and transforms -/

/-- A predefined shape, with every parameter settled. -/
inductive Primitive where
  | cube (size center : Value)
  | sphere (radius : Value)
  | cylinder (height radiusBottom radiusTop center : Value)
  | polyhedron (points faces : Value) (convexity : Nat)
  | circle (radius : Value)
  | square (size center : Value)
  | polygon (points : Value) (paths : Option Value)
  | text (text size : Value)
  deriving Inhabited

def Primitive.name : Primitive → String
  | cube .. => "cube" | sphere .. => "sphere" | cylinder .. => "cylinder"
  | polyhedron .. => "polyhedron" | circle .. => "circle" | square .. => "square"
  | polygon .. => "polygon" | text .. => "text"

/-- How far an outline is moved. -/
inductive OffsetAmount where
  /-- With rounded corners. -/
  | radius (value : Value)
  /-- With sharp corners. -/
  | delta (value : Value)
  deriving Inhabited

/-- The amount itself. -/
def OffsetAmount.value : OffsetAmount → Value
  | radius value | delta value => value

/-- A predefined transform, with every parameter settled. -/
inductive Transform where
  | translate (vector : Value)
  | rotate (angle : Value) (axis : Option Value)
  | scale (factors : Value)
  | mirror (normal : Value)
  | resize (size auto : Value)
  | multmatrix (matrix : Value)
  | color (color : Value) (alpha : Option Value)
  | offset (amount : OffsetAmount) (chamfer : Value)
  | linearExtrude (height center twist : Value) (slices : Option Value) (scale : Value)
  | rotateExtrude (angle : Value) (convexity : Nat)
  deriving Inhabited

def Transform.name : Transform → String
  | translate .. => "translate" | rotate .. => "rotate" | scale .. => "scale"
  | mirror .. => "mirror" | resize .. => "resize" | multmatrix .. => "multmatrix"
  | color .. => "color" | offset .. => "offset" | linearExtrude .. => "linear_extrude"
  | rotateExtrude .. => "rotate_extrude"

/-! ## §2 The tree -/

/-- A statement. -/
inductive Statement where
  /-- An expression that stands by itself. -/
  | expression (value : Expression)
  /-- A statement that could not be converted. -/
  | fault (fault : Fault)
  /-- `assert(condition, message) body` -/
  | assertion (condition : Expression) (message : Option Expression) (body : Option Statement)
      (span : Span)
  /-- `assign(a = 1, b = 2) body`, which is deprecated. -/
  | assign (bindings : List Binding) (body : Option Statement) (span : Span)
  /-- `name = value;` -/
  | assignment (binding : Binding)
  /-- `module name(parameters) body` -/
  | moduleDefinition (name : String) (nameSpan : Span) (parameters : List Declaration)
      (body : List Statement) (span : Span)
  /-- `function name(parameters) = body;` -/
  | functionDefinition (name : String) (nameSpan : Span) (parameters : List Declaration)
      (body : Expression) (span : Span)
  /-- A call of a module that has no constructor of its own. -/
  | call (name : String) (nameSpan : Span) (arguments : List Argument)
      (children : List Statement) (span : Span)
  /-- A predefined shape, with the special variables it was given. -/
  | primitive (shape : Primitive) (specials : List Argument) (span : Span)
  /-- A predefined transform of its children. -/
  | transform (transform : Transform) (children : List Statement) (span : Span)
  /-- A combination of its children. -/
  | csg (operation : CsgOperation) (children : List Statement) (span : Span)
  /-- A statement behind a modifier character. -/
  | modified (modifier : Modifier) (child : Statement) (span : Span)
  /-- `if (condition) consequence else alternative` -/
  | branch (condition : Expression) (consequence : List Statement)
      (alternative : Option (List Statement)) (span : Span)
  /-- `for (a = v, b = w) body` -/
  | loop (bindings : List Binding) (body : List Statement) (span : Span)
  /-- `let (a = 1, b = 2) body` -/
  | letIn (bindings : List Binding) (body : List Statement) (span : Span)
  /-- `echo(arguments) body` -/
  | echo (arguments : List Argument) (body : Option Statement) (span : Span)
  /-- `include <path>` or `use <path>` -/
  | inclusion (kind : InclusionKind) (path : String) (span : Span)
  /-- Statements in braces. -/
  | block (statements : List Statement) (span : Span)
  deriving Inhabited

namespace Statement

/-- Where a statement stands. -/
def span : Statement → Span
  | expression e => e.span
  | fault f => f.span
  | assignment b => b.span
  | assertion _ _ _ s | assign _ _ s | moduleDefinition _ _ _ _ s | functionDefinition _ _ _ _ s
  | call _ _ _ _ s | primitive _ _ s | transform _ _ s | csg _ _ s | modified _ _ s
  | branch _ _ _ s | loop _ _ s | letIn _ _ s | echo _ _ s | inclusion _ _ s | block _ s => s

/-- The name of a statement's constructor, as it is stored. -/
def typeName : Statement → String
  | expression _ => "expression"
  | fault _ => "error"
  | assertion .. => "assert"
  | assign .. => "assign"
  | assignment _ => "assignment"
  | moduleDefinition .. => "module_definition"
  | functionDefinition .. => "function_definition"
  | call .. => "module_instantiation"
  | primitive .. => "primitive"
  | transform .. => "transform"
  | csg .. => "csg"
  | modified .. => "modified"
  | branch .. => "if"
  | loop .. => "for"
  | letIn .. => "let"
  | echo .. => "echo"
  | inclusion .. => "include"
  | block .. => "block"

/-- The fault, where the statement is one. -/
def fault? : Statement → Option Fault
  | fault f => some f
  | _ => none

/-- The expression, where the statement is one. -/
def expression? : Statement → Option Expression
  | expression e => some e
  | _ => none

end Statement

end Scad
