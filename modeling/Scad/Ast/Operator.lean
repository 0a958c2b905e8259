import Scad.Text.Blank

/-!
# Operators and Fixed Words

The closed sets of the language: binary and unary operators, modifier characters, the operations of
constructive geometry.  Each comes with its token, the reading of a token, and the name under which
a tree that is written out stores it.
-/

namespace Scad

/-! ## §1 Binary operators -/

/-- A binary operator, in order of precedence from the loosest. -/
inductive BinaryOperator where
  | or | and | equal | notEqual | less | lessEqual | greater | greaterEqual
  | add | subtract | multiply | divide | modulo | power
  deriving DecidableEq, Repr, Inhabited

namespace BinaryOperator

/-- Every binary operator. -/
def all : List BinaryOperator :=
  [.or, .and, .equal, .notEqual, .less, .lessEqual, .greater, .greaterEqual,
   .add, .subtract, .multiply, .divide, .modulo, .power]

/-- The token of an operator. -/
def symbol : BinaryOperator → String
  | or => "||" | and => "&&" | equal => "==" | notEqual => "!=" | less => "<" | lessEqual => "<="
  | greater => ">" | greaterEqual => ">=" | add => "+" | subtract => "-" | multiply => "*"
  | divide => "/" | modulo => "%" | power => "^"

/-- The name under which an operator is stored. -/
def name : BinaryOperator → String
  | or => "or" | and => "and" | equal => "equal" | notEqual => "not_equal" | less => "less"
  | lessEqual => "less_equal" | greater => "greater" | greaterEqual => "greater_equal"
  | add => "add" | subtract => "subtract" | multiply => "multiply" | divide => "divide"
  | modulo => "modulo" | power => "power"

/-- The operator that a token spells, blanks around it apart. -/
def ofSymbol? (token : String) : Option BinaryOperator :=
  let token := Text.trim token
  all.find? (·.symbol == token)

/-- The operator stored under a name. -/
def ofName? (name : String) : Option BinaryOperator :=
  all.find? (·.name == name)

theorem mem_all (op : BinaryOperator) : op ∈ all := by
  cases op <;> decide

end BinaryOperator

/-! ## §2 Unary operators -/

/-- A unary operator; all of them stand in front of their operand. -/
inductive UnaryOperator where
  | negate | plus | not
  deriving DecidableEq, Repr, Inhabited

namespace UnaryOperator

def all : List UnaryOperator :=
  [.negate, .plus, .not]

def symbol : UnaryOperator → String
  | negate => "-" | plus => "+" | not => "!"

def name : UnaryOperator → String
  | negate => "negate" | plus => "plus" | not => "not"

/-- The operator that a token spells, blanks around it apart. -/
def ofSymbol? (token : String) : Option UnaryOperator :=
  let token := Text.trim token
  all.find? (·.symbol == token)

/-- The operator stored under a name. -/
def ofName? (name : String) : Option UnaryOperator :=
  all.find? (·.name == name)

end UnaryOperator

/-! ## §3 Modifiers -/

/-- A character in front of a statement that changes how its object is shown. -/
inductive Modifier where
  /-- The object is not rendered. -/
  | disable
  /-- Nothing but the object is rendered. -/
  | showOnly
  /-- The object is rendered highlighted. -/
  | highlight
  /-- The object is rendered transparent. -/
  | transparent
  deriving DecidableEq, Repr, Inhabited

namespace Modifier

def all : List Modifier :=
  [.disable, .showOnly, .highlight, .transparent]

/-- The character of a modifier. -/
def char : Modifier → Char
  | disable => '*' | showOnly => '!' | highlight => '#' | transparent => '%'

def name : Modifier → String
  | disable => "disable" | showOnly => "show_only" | highlight => "highlight"
  | transparent => "transparent"

/-- The modifier that a character spells. -/
def ofChar? (c : Char) : Option Modifier :=
  all.find? (·.char == c)

/-- The modifier stored under a name. -/
def ofName? (name : String) : Option Modifier :=
  all.find? (·.name == name)

end Modifier

/-! ## §4 Constructive geometry -/

/-- An operation that combines solids. -/
inductive CsgOperation where
  | union | difference | intersection | hull | minkowski
  deriving DecidableEq, Repr, Inhabited

namespace CsgOperation

def all : List CsgOperation :=
  [.union, .difference, .intersection, .hull, .minkowski]

/-- The name of an operation, which is also the module that performs it. -/
def name : CsgOperation → String
  | union => "union" | difference => "difference" | intersection => "intersection"
  | hull => "hull" | minkowski => "minkowski"

/-- The operation of a name. -/
def ofName? (name : String) : Option CsgOperation :=
  all.find? (·.name == name)

end CsgOperation

/-! ## §5 Comprehensions and references to files -/

/-- The order in which the clauses of a list comprehension were written. -/
inductive ComprehensionStyle where
  /-- The body first: `[x * 2 for (x = v)]`. -/
  | bodyFirst
  /-- The body last: `[for (x = v) x * 2]`. -/
  | bodyLast
  deriving DecidableEq, Repr, Inhabited

namespace ComprehensionStyle

def name : ComprehensionStyle → String
  | bodyFirst => "traditional" | bodyLast => "open_scad"

/-- The style stored under a name. -/
def ofName? (name : String) : Option ComprehensionStyle :=
  [bodyFirst, bodyLast].find? (·.name == name)

end ComprehensionStyle

/-- How one file refers to another. -/
inductive InclusionKind where
  /-- Everything in the file takes effect. -/
  | whole
  /-- Only its definitions do. -/
  | definitions
  deriving DecidableEq, Repr, Inhabited

namespace InclusionKind

/-- The keyword, which is also the name under which the kind is stored. -/
def name : InclusionKind → String
  | whole => "include" | definitions => "use"

/-- The kind stored under a name. -/
def ofName? (name : String) : Option InclusionKind :=
  [whole, definitions].find? (·.name == name)

end InclusionKind

end Scad
