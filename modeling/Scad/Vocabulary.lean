/-!
# Vocabulary

The names that the language reserves or predefines.  Their order is the order in which an editor
offers them.
-/

namespace Scad.Vocabulary

/-- The predefined modules. -/
def modules : List String :=
  ["cube", "sphere", "cylinder", "polyhedron", "circle", "square", "polygon", "text",
   "translate", "rotate", "scale", "mirror", "resize", "multmatrix", "color", "offset",
   "linear_extrude", "rotate_extrude", "union", "difference", "intersection", "hull", "minkowski",
   "children", "echo", "assert", "render", "projection", "surface", "import"]

/-- The predefined functions. -/
def functions : List String :=
  ["abs", "sign", "sin", "cos", "tan", "asin", "acos", "atan", "atan2", "floor", "round", "ceil",
   "ln", "log", "pow", "sqrt", "exp", "min", "max", "norm", "cross", "len", "concat", "lookup",
   "str", "chr", "ord", "search", "version", "version_num", "rands", "is_undef", "is_bool",
   "is_num", "is_string", "is_list", "is_function"]

/-- The reserved words. -/
def keywords : List String :=
  ["module", "function", "if", "else", "for", "intersection_for", "let", "each", "assign",
   "assert", "echo", "include", "use", "true", "false", "undef"]

/-- The special variables that the language sets or reads. -/
def specialVariables : List String :=
  ["$fn", "$fa", "$fs", "$t", "$preview", "$children", "$vpr", "$vpt", "$vpd", "$vpf"]

/-- A special variable is a name that starts with a dollar sign. -/
def isSpecialName (name : String) : Bool :=
  name.toList.head? == some '$'

/-- Whether the name is a predefined module. -/
def isModule (name : String) : Bool :=
  modules.contains name

/-- Whether the name is a predefined function. -/
def isFunction (name : String) : Bool :=
  functions.contains name

end Scad.Vocabulary
