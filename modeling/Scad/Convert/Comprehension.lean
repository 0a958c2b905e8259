import Scad.Convert.Argument

/-!
# List Comprehensions

A comprehension is written in one of two styles:

    [x * 2 for (x = v) if (x > 1)]                   body first
    [let (k = 2) for (x = v) if (x > 1) x * k]       body last

The style with the body last is recognised by the order of the significant children: a `let` clause
that may be absent, a `for` clause, a child labelled as the condition that may be absent, the body.
A node that starts with neither clause is read in the other style.
-/

namespace Scad.Convert

open Conversion

variable {n : Node}

/-! ## §1 The `for` clause -/

/-- The loop variable of a `for` clause and what it runs through, from the clause's own labels or
from a binding inside it. -/
def forClause (n : Node) (convert : Converter n Expression) : Conversion (String × Expression) := do
  let inner := n.find? fun c => c.kind == .assignment || c.kind == .forBinding
  let ofInner (label : String) : Option n.Part :=
    inner.bind fun b => (b.node.field? label).map b.within
  -- The clause's own labels come before those of the binding.
  let iterator := (n.field? "iterator").or (ofInner "name")
  let iterator ← require (iterator.filter fun p => !p.node.isMissing && p.node.hasText)
    .noIterator n
  let range := (n.field? "range").or (ofInner "value")
  let range ← require (range.filter (!·.node.isMissing)) .noIterable n
  let iterable ← resolve convert .iterable range
  return (iterator.node.trimmed, iterable)

/-! ## §2 The two styles -/

/-- The bindings of the `let` clause that starts a comprehension, where there is one. -/
def leadingBindings (convert : Converter n Expression) :
    Option n.Part → Conversion (List Binding)
  | some clause => do
    remark .letInComprehension clause.node
    (bindings clause.node (convert.inside clause)).blame (fun _ => .invalidLetClause) clause.node
  | none => pure []

/-- The condition in front, and the parts behind it.  Without its label, a condition could not be
told from a body. -/
def splitCondition : List n.Part → Option n.Part × List n.Part
  | c :: rest => if c.node.label == some "condition" then (some c, rest) else (none, c :: rest)
  | [] => (none, [])

/-- The condition and the body, and nothing after them, behind the `for` clause. -/
def conditionAndBody (convert : Converter n Expression) (rest : List n.Part) :
    Conversion (Option Expression × Expression) := do
  let (condition, rest) := splitCondition rest
  let condition ← resolve? convert .comprehensionCondition condition
  match rest with
  | [] => fail .noComprehensionBody n
  | body :: extra =>
    -- A second clause is told as such, and not as a body that cannot be converted.
    if body.node.kind == .forClause || body.node.kind == .letClause then
      fail (.clauseAsBody body.node.tag) body.node
    match extra with
    | extra :: _ => fail (.afterBody extra.node.tag) extra.node
    | [] => return (condition, ← resolve convert .comprehensionBody body)

/-- A comprehension with the body last; none where the node starts with neither clause. -/
def bodyLast (n : Node) (convert : Converter n Expression) : Conversion (Option Expression) := do
  let clause := n.significant.head?.filter (·.node.kind == .letClause)
  -- What follows the `let` clause, where there is one.
  let rest := if clause.isSome then n.significant.tail else n.significant
  let lets ← leadingBindings convert clause
  match rest.head?.filter (·.node.kind == .forClause) with
  -- Neither clause in front: the other style may fit.
  | none => if clause.isSome then fail .letWithoutFor n else pure none
  | some loop =>
    let (name, iterable) ← forClause loop.node (convert.inside loop)
    let (condition, body) ← conditionAndBody convert rest.tail
    return some (.comprehension .bodyLast lets name iterable condition body n.span)

/-- A comprehension with the body first: the parts are found by their labels, or by their kinds. -/
def bodyFirst (n : Node) (convert : Converter n Expression) : Conversion Expression := do
  let loop ← require ((n.field? "for_clause").or (n.ofKind? .forClause)) .noForClause n
  let element ← require
    ((n.field? "element").or
      (n.find? fun c => c.kind.isExpression && c.label != some "condition"))
    .noComprehensionElement n
  -- The clause comes first, although the body stands in front of it.
  let (name, iterable) ← forClause loop.node (convert.inside loop)
  let condition ← resolve? convert .comprehensionCondition (n.field? "condition")
  let body ← resolve convert .comprehensionBody element
  return .comprehension .bodyFirst [] name iterable condition body n.span

/-- A comprehension in the style that fits. -/
def comprehension (n : Node) (convert : Converter n Expression) :
    Conversion (Option Expression) := do
  match ← bodyLast n convert with
  | some e => return some e
  | none => some <$> bodyFirst n convert

end Scad.Convert
