import Scad.Span
import Scad.Tree.Kind

/-!
# Syntax Trees

The trees that a grammar engine hands over.  A node has a tag, the text it covers, its span, its
children, and the label under which its parent holds it.  Anonymous children are punctuation and
keywords; the named children are listed once more by themselves, because a scan by position looks
at those alone.

A *part* of a node is a node strictly inside it.  Lookups answer with parts, so that a function
that recurses on what a lookup found comes to an end.
-/

namespace Scad

/-! ## §1 Nodes -/

/-- A node of a syntax tree. -/
structure Node where
  /-- The name of the grammar rule. -/
  tag : String
  /-- The text covered. -/
  text : String
  /-- Where that text stands. -/
  span : Span
  /-- All children, punctuation included. -/
  children : List Node := []
  /-- The named children alone. -/
  named : List Node := []
  /-- Whether the node is named in the grammar. -/
  isNamed : Bool := true
  /-- The label under which the parent holds the node. -/
  label : Option String := none
  deriving Repr, Inhabited

namespace Node

/-- The kind of the node's tag. -/
def kind (n : Node) : Kind :=
  Kind.ofTag n.tag

/-- The node's text without the blanks at its ends. -/
def trimmed (n : Node) : String :=
  Text.trim n.text

/-- Whether the node's text holds more than blanks. -/
def hasText (n : Node) : Bool :=
  !Text.isBlankText n.text

/-- The byte offset at which the node starts. -/
def startByte (n : Node) : Nat :=
  n.span.start.offset

/-- The byte offset just after the node. -/
def stopByte (n : Node) : Nat :=
  n.span.stop.offset

/-- Whether error recovery marked the node's text as unreadable. -/
def isError (n : Node) : Bool :=
  n.kind == .error

/-- Whether error recovery inserted the node. -/
def isMissing (n : Node) : Bool :=
  n.kind == .missing

/-- Whether error recovery put the node in the place of something unreadable or absent. -/
def isPlaceholder (n : Node) : Bool :=
  n.kind.isPlaceholder

/-- Adds a child at the end, and to the named children where it is named. -/
def push (n child : Node) : Node :=
  { n with
    children := n.children ++ [child]
    named := if child.isNamed then n.named ++ [child] else n.named }

/-- The node under a label. -/
def labelled (n : Node) (label : String) : Node :=
  { n with label := some label }

theorem sizeOf_lt_of_mem_children {n c : Node} (h : c ∈ n.children) : sizeOf c < sizeOf n := by
  have hlist := List.sizeOf_lt_of_mem h
  cases n
  simp_all
  omega

theorem sizeOf_lt_of_mem_named {n c : Node} (h : c ∈ n.named) : sizeOf c < sizeOf n := by
  have hlist := List.sizeOf_lt_of_mem h
  cases n
  simp_all
  omega

/-! ## §2 Parts -/

/-- A node strictly inside `n`. -/
structure Part (n : Node) where
  /-- The node itself. -/
  node : Node
  inside : sizeOf node < sizeOf n

instance (n : Node) : CoeOut (Part n) Node :=
  ⟨Part.node⟩

/-- A part of a part is a part of the whole. -/
def Part.within {n : Node} (p : Part n) (q : Part p.node) : Part n :=
  ⟨q.node, Nat.lt_trans q.inside p.inside⟩

/-- The children as parts. -/
def parts (n : Node) : List (Part n) :=
  n.children.attach.map fun c => ⟨c.1, sizeOf_lt_of_mem_children c.2⟩

/-- The named children as parts. -/
def namedParts (n : Node) : List (Part n) :=
  n.named.attach.map fun c => ⟨c.1, sizeOf_lt_of_mem_named c.2⟩

/-- The named children that are no comments.  A comment may stand between any two tokens, so a scan
by position passes over it. -/
def significant (n : Node) : List (Part n) :=
  n.namedParts.filter fun c => c.node.kind != .comment

/-- The first child under a label; the named children are searched where no child has it. -/
def field? (n : Node) (label : String) : Option (Part n) :=
  (n.parts.find? fun c => c.node.label == some label).or
    (n.namedParts.find? fun c => c.node.label == some label)

/-- The child under the first of the labels that one has. -/
def anyField? (n : Node) (labels : List String) : Option (Part n) :=
  labels.findSome? n.field?

/-- Whether a child has one of the labels. -/
def hasAnyField (n : Node) (labels : List String) : Bool :=
  labels.any fun label => (n.field? label).isSome

/-- The first anonymous child that is accepted. -/
def token? (n : Node) (accepts : Node → Bool) : Option (Part n) :=
  n.parts.find? fun c => !c.node.isNamed && accepts c.node

/-- The first significant child that is accepted. -/
def find? (n : Node) (accepts : Node → Bool) : Option (Part n) :=
  n.significant.find? fun c => accepts c.node

/-- The last significant child that is accepted. -/
def findLast? (n : Node) (accepts : Node → Bool) : Option (Part n) :=
  (n.significant.filter fun c => accepts c.node).getLast?

/-- The first significant child of a kind. -/
def ofKind? (n : Node) (kind : Kind) : Option (Part n) :=
  n.find? (·.kind == kind)

theorem map_node_parts (n : Node) : n.parts.map Part.node = n.children := by
  rw [parts, List.map_map]
  exact List.attach_map_subtype_val n.children

theorem flatMap_parts {α : Type} (n : Node) (f : Node → List α) :
    (n.parts.flatMap fun c => f c.node) = n.children.flatMap f := by
  rw [← map_node_parts n, List.flatMap_map]

theorem map_node_namedParts (n : Node) : n.namedParts.map Part.node = n.named := by
  rw [namedParts, List.map_map]
  exact List.attach_map_subtype_val n.named

theorem map_node_significant (n : Node) :
    n.significant.map Part.node = n.named.filter (·.kind != .comment) := by
  rw [significant, ← map_node_namedParts n, List.filter_map]
  rfl

/-! ## §3 Descendants -/

/-- The first descendant of a kind, from the left and a parent before its children.  The node
itself is no descendant. -/
def descendant? (n : Node) (kind : Kind) : Option (Part n) :=
  n.parts.findSome? fun c =>
    -- A child comes before what stands inside it, and before its later siblings.
    if c.node.kind == kind then some c else (descendant? c.node kind).map c.within
termination_by sizeOf n
decreasing_by exact c.inside

/-- The descendant that a path of child numbers leads to; the empty path leads to the node. -/
def follow? : List Nat → Node → Option Node
  | [], n => some n
  | i :: path, n => (n.children[i]?).bind (follow? path)

/-- The span from one node to another. -/
def spanTo (first last : Node) : Span :=
  first.span.merge last.span

/-! ## §4 Rungs without an operator

A grammar writes precedence as a ladder of rules, and emits a rung even where it adds nothing to
the rung below. -/

/-- The only significant child of a node that holds none of a construct's labels and no token; such
a node stands for that child. -/
def onlyChild? (n : Node) (labels : List String) : Option (Part n) :=
  -- A label or a token shows that the construct was meant.
  if n.hasAnyField labels || n.children.any (!·.isNamed) then none
  else match n.significant with
    | [only] => some only
    | _ => none

end Node

end Scad
