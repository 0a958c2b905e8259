import Scad.Ast.View

/-!
# Under the Cursor

What a position of the cursor stands in: the path of views from a statement of the program down to
the smallest view that holds the position.

* A view holds its start and not its stop, so the place between two neighbours belongs to the
  second.
* Where two views at one level both hold the position, the first of them is followed.
-/

namespace Scad

/-! ## §1 The path to a position -/

namespace View

/-- Whether a position stands in a view. -/
def holds (p : Position) (v : View) : Bool :=
  v.span.contains p

/-- The path from a view to a position inside it, the view itself first. -/
def pathTo (p : Position) (v : View) : List View :=
  v :: match v.children.attach.find? fun c => c.1.holds p with
    | some c => pathTo p c.1
    | none => []
termination_by v.weight
decreasing_by exact weight_lt_of_mem_children c.2

/-- The search through the parts of a list does not look at the proofs that they are its parts. -/
theorem map_find?_attach (vs : List View) (accepts : View → Bool) :
    (vs.attach.find? fun c => accepts c.1).map (·.1) = vs.find? accepts := by
  calc (vs.attach.find? (accepts ∘ Subtype.val)).map Subtype.val
      = (vs.attach.map Subtype.val).find? accepts := List.find?_map.symm
    _ = vs.find? accepts := by rw [List.attach_map_subtype_val]

theorem pathTo_eq (p : Position) (v : View) :
    v.pathTo p = v :: ((v.children.find? (holds p)).map (pathTo p)).getD [] := by
  rw [pathTo, ← map_find?_attach v.children (holds p), Option.map_map]
  cases v.children.attach.find? fun c => c.1.holds p <;> rfl

end View

namespace Program

/-- The path of views that hold a position, the outermost first; it is empty where no statement
does. -/
def pathTo (program : Program) (p : Position) : List View :=
  ((program.views.find? (View.holds p)).map (View.pathTo p)).getD []

/-- The innermost view that holds a position. -/
def viewAt? (program : Program) (p : Position) : Option View :=
  (program.pathTo p).getLast?

end Program

/-! ## §2 Definitions on the path -/

namespace View

/-- The name that a view defines, where it is the definition of a module or of a function. -/
def definitionName? : View → Option String
  | statement (.moduleDefinition name ..) | statement (.functionDefinition name ..) => some name
  | _ => none

/-- Whether a view is the definition of a module. -/
def isModuleDefinition : View → Bool
  | statement (.moduleDefinition ..) => true
  | _ => false

end View

/-- The names of the definitions on a path, the outermost first. -/
def enclosingDefinitions (path : List View) : List String :=
  path.filterMap View.definitionName?

end Scad
