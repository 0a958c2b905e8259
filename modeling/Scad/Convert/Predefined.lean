import Scad.Ast.Statement
import Scad.Vocabulary

/-!
# Predefined Modules

What a call of a predefined module means, from its arguments alone.  A parameter is given by its
name, or else by the position that the language documents for it; positions count the arguments
without a name.  What is not given has a default.

`documented` lists the named parameters of each module; `ignored` are the named arguments outside
that list, which no lookup reads.
-/

namespace Scad.Convert

/-! ## §1 Looking up arguments -/

/-- The value of the first argument of a name. -/
def named (args : List Argument) (name : String) : Option Value :=
  (args.find? (·.name == some name)).map Argument.value

/-- The value of a positional argument; positions count from zero. -/
def positional (args : List Argument) (position : Nat) : Option Value :=
  (args.filter Argument.isPositional)[position]?.map Argument.value

/-- The value of an argument by its name, or else by its position. -/
def given (args : List Argument) (name : String) (position : Nat) : Option Value :=
  (named args name).or (positional args position)

/-- Whether an argument sets a special variable. -/
def isSpecial (a : Argument) : Bool :=
  a.name.any Vocabulary.isSpecialName

/-- Half of a value.  Half of an expression is the expression divided by two. -/
def halve : Value → Value
  | .number x => .number (x / 2)
  | .vector2 x y => .vector2 (x / 2) (y / 2)
  | .vector3 x y z => .vector3 (x / 2) (y / 2) (z / 2)
  | .expression e =>
    .expression (.binary .divide e (.literal (.number 2) e.span) e.span)
  | v => v

/-- The convexity where none is given. -/
def defaultConvexity : Nat := 1

/-- The angle of a full turn in degrees. -/
def fullTurn : Float := 360

/-- The number of faces that a ray can meet at most: a number of at least one, cut down to 32 bits
and to a whole number; anything else counts as not given. -/
def convexity (args : List Argument) (position : Nat) : Nat :=
  match ((given args "convexity" position).bind Value.number?).filter
      fun x => x.isFinite && 1 ≤ x with
  | some x => x.toUInt32.toNat
  | none => defaultConvexity

/-- The radius of a round shape: the radius by name or as the first positional argument, or else
half the diameter, or else one. -/
def roundRadius (args : List Argument) : Value :=
  ((given args "r" 0).or ((named args "d").map halve)).getD (.number 1)

/-! ## §2 Shapes -/

/-- The vector of three numbers that are all the same. -/
def uniform (x : Float) : Value := .vector3 x x x

/-- The shape that a call of a module makes, where the module makes one. -/
def primitive? (name : String) (args : List Argument) : Option Primitive :=
  match name with
  | "cube" => some <|
    .cube ((given args "size" 0).getD (.number 1)) ((given args "center" 1).getD (.boolean false))
  | "sphere" => some <| .sphere (roundRadius args)
  | "cylinder" => some <|
    -- The radius that both ends share has no position.
    let shared := (named args "r").or ((named args "d").map halve)
    -- The radii of the ends are the second and the third position.
    let bottom := (given args "r1" 1).or (((named args "d1").map halve).or shared)
    let top := (given args "r2" 2).or (((named args "d2").map halve).or shared)
    .cylinder (((given args "h" 0).or (named args "height")).getD (.number 1))
      (bottom.getD (.number 1)) (top.getD (.number 1))
      ((given args "center" 3).getD (.boolean false))
  | "polyhedron" => some <|
    .polyhedron ((given args "points" 0).getD .undefined)
      (((given args "faces" 1).or (named args "triangles")).getD .undefined) (convexity args 2)
  | "circle" => some <| .circle (roundRadius args)
  | "square" => some <|
    .square ((given args "size" 0).getD (.number 1)) ((given args "center" 1).getD (.boolean false))
  | "polygon" => some <|
    .polygon ((given args "points" 0).getD .undefined) (given args "paths" 1)
  | "text" => some <|
    .text ((given args "text" 0).getD (.string "")) ((given args "size" 1).getD (.number 10))
  | _ => none

/-! ## §3 Transforms -/

/-- How far `offset` moves an outline: the radius, or else the delta, or else one. -/
def offsetAmount (args : List Argument) : OffsetAmount :=
  -- Rounded corners win where both amounts are given.
  match given args "r" 0, named args "delta" with
  | some r, _ => .radius r
  | none, some delta => .delta delta
  | none, none => .delta (.number 1)

/-- The transform that a call of a module makes, where the module makes one. -/
def transform? (name : String) (args : List Argument) : Option Transform :=
  match name with
  | "translate" => some <| .translate ((given args "v" 0).getD (uniform 0))
  | "rotate" => some <| .rotate ((given args "a" 0).getD (.number 0)) (given args "v" 1)
  | "scale" => some <| .scale ((given args "v" 0).getD (uniform 1))
  | "mirror" => some <| .mirror ((given args "v" 0).getD (.vector3 1 0 0))
  | "resize" => some <|
    .resize ((given args "newsize" 0).getD (uniform 0))
      ((given args "auto" 1).getD (.boolean false))
  | "multmatrix" => some <| .multmatrix ((given args "m" 0).getD .undefined)
  | "color" => some <| .color ((given args "c" 0).getD .undefined) (given args "alpha" 1)
  | "offset" => some <|
    -- The second position is the delta, which is taken by its name only.
    .offset (offsetAmount args) ((given args "chamfer" 2).getD (.boolean false))
  | "linear_extrude" => some <|
    -- The third position is the convexity, which changes no shape.
    .linearExtrude ((given args "height" 0).getD (.number 100))
      ((given args "center" 1).getD (.boolean false)) ((given args "twist" 3).getD (.number 0))
      (given args "slices" 4) ((named args "scale").getD (.number 1))
  | "rotate_extrude" => some <|
    .rotateExtrude ((named args "angle").getD (.number fullTurn)) (convexity args 1)
  | _ => none

/-! ## §4 Arguments without an effect -/

/-- The named parameters that the language documents for a module. -/
def documented : String → List String
  | "cube" | "square" => ["size", "center"]
  | "sphere" | "circle" => ["r", "d"]
  | "cylinder" => ["h", "height", "r", "d", "r1", "r2", "d1", "d2", "center"]
  | "polyhedron" => ["points", "faces", "triangles", "convexity"]
  | "polygon" => ["points", "paths", "convexity"]
  | "text" =>
    ["text", "size", "font", "halign", "valign", "spacing", "direction", "language", "script"]
  | "translate" | "scale" | "mirror" => ["v"]
  | "rotate" => ["a", "v"]
  | "resize" => ["newsize", "auto", "convexity"]
  | "multmatrix" => ["m"]
  | "color" => ["c", "alpha"]
  | "offset" => ["r", "delta", "chamfer"]
  | "linear_extrude" => ["height", "center", "convexity", "twist", "slices", "scale"]
  | "rotate_extrude" => ["angle", "convexity"]
  | _ => []

/-- Whether a module has no parameter of this name.  Special variables may be set everywhere. -/
def isIgnoredName (module : String) (name : String) : Bool :=
  !Vocabulary.isSpecialName name && !(documented module).contains name

/-- The names of the arguments that a module has no parameter for. -/
def ignored (module : String) (args : List Argument) : List String :=
  (args.filterMap Argument.name).filter (isIgnoredName module)

end Scad.Convert
