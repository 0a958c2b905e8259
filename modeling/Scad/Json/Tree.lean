import Scad.Json.Reader
import Scad.Tree.Node

/-!
# Syntax Trees as JSON

How a grammar engine hands over a tree: `Node.toJson` writes one, `Node.read` reads one.

A node is an object with the fields `type`, `text`, `startIndex`, `endIndex`, `startPosition`,
`endPosition`, `children`, `namedChildren`, `isNamed` and `fieldName`; a position in a text is an
object with the fields `row` and `column`.  Either may also be written as the array of its fields
in this order.  The last four fields of a node may be left out, and fields of other names are
skipped.

The text is read from left to right in one pass, so the first problem is the one that is told; that
a field is missing shows at the end of its object.
-/

namespace Scad

namespace Json

/-! ## §1 Writing -/

/-- A row and a column as a value. -/
def ofRowColumn (p : Position) : Json :=
  object [("row", natural p.line), ("column", natural p.column)]

mutual

/-- A tree as a value. -/
def ofNode : Node → Json
  | ⟨tag, text, span, children, named, isNamed, label⟩ =>
    object
      [("type", string tag), ("text", string text),
       ("startIndex", natural span.start.offset), ("endIndex", natural span.stop.offset),
       ("startPosition", ofRowColumn span.start), ("endPosition", ofRowColumn span.stop),
       ("children", array (ofNodes children)), ("namedChildren", array (ofNodes named)),
       ("isNamed", bool isNamed), ("fieldName", optional string label)]

/-- Trees as values. -/
def ofNodes : List Node → List Json
  | [] => []
  | n :: rest => ofNode n :: ofNodes rest

end

/-! ## §2 Reading single values -/

/-- The problem of a value of the wrong type: the value itself may be broken, which counts first. -/
def wrongType {α : Type} : Reader α := do
  match ← peek with
  | none => throw .truncated
  -- A misspelt word is no JSON at all, which is the earlier problem.
  | some 'n' => word "null".toList; throw .mismatch
  | some 't' => word "true".toList; throw .mismatch
  | some 'f' => word "false".toList; throw .mismatch
  | some '"' => let _ ← stringToken false; throw .mismatch
  | some '[' | some '\x7b' => throw .mismatch
  | some c =>
    if startsNumber c then
      let l ← lexeme .truncated
      let _ ← l.numeral
      throw .mismatch
    else throw .malformed

/-- Takes a text. -/
def readString : Reader String := do
  match ← peek with
  | some '"' => stringToken false
  | _ => wrongType

/-- Takes a natural number. -/
def readNatural : Reader Nat := do
  match ← peek with
  | some c =>
    if startsNumber c then
      let l ← lexeme .truncated
      match ← l.numeral with
      | .natural n => return n
      | _ => throw .mismatch
    else wrongType
  | none => wrongType

/-- Takes a truth value. -/
def readBool : Reader Bool := do
  match ← peek with
  | some 't' => word "true".toList; return true
  | some 'f' => word "false".toList; return false
  | _ => wrongType

/-- Takes a text or `null`. -/
def readString? : Reader (Option String) := do
  match ← peek with
  | some 'n' => word "null".toList; return none
  | _ => some <$> readString

/-! ## §3 Reading records -/

/-- The levels of arrays and objects that a text may nest, and one more. -/
def depthLimit : Nat := 128

/-- Enters an array or an object, which uses up one of the levels that are left.  The last level is
never used. -/
def enter {α : Type} (levels : Nat) (inside : Reader α) : Reader α :=
  if 2 ≤ levels then inside else throw .malformed

/-- Takes the next item of an array that stands for a record, where there is one. -/
def nextItem {α : Type} (isFirst : Bool) (item : Reader α) : Reader (Option α) := do
  match ← peek with
  | none => throw .truncated
  | some ']' => return none
  | some c =>
    if isFirst then some <$> item
    else if c == ',' then
      drop
      -- A comma is followed by an item.
      if (← peek) == some ']' then throw .malformed
      some <$> item
    else throw .malformed

/-- Takes an item that the record must have. -/
def requiredItem {α : Type} (isFirst : Bool) (item : Reader α) : Reader α := do
  match ← nextItem isFirst item with
  | some a => return a
  | none => throw .mismatch

/-- Takes the closing bracket of an array that stands for a record. -/
def endOfItems : Reader Unit := do
  match ← peek with
  | some ']' => drop
  | some _ => throw .malformed
  | none => throw .truncated

/-- Takes the value of a field that has not been met before. -/
def fieldValue {α : Type} (name : String) (before : Option α) (reader : Reader α) : Reader α := do
  -- That the field is there twice shows before its value is looked at.
  if before.isSome then throw (.duplicate name)
  colon
  reader

/-- The value of a field at the end of its object. -/
def requiredField {α : Type} (name : String) : Option α → Reader α
  | some a => pure a
  | none => throw (.missing name)

/-- Passes over a field that the record does not have. -/
def skipField : Reader Unit := do
  colon
  skipValue

/-! ## §4 Reading nodes -/

/-- Takes a row and a column. -/
def readRowColumn (levels : Nat) : Reader (Nat × Nat) := do
  match ← peek with
  | some '\x7b' => enter levels do
    let field := fun ((row, column) : Option Nat × Option Nat) (name : String) =>
      match name with
      | "row" => do return (some (← fieldValue name row readNatural), column)
      | "column" => do return (row, some (← fieldValue name column readNatural))
      | _ => do skipField; return (row, column)
    let (row, column) ← fieldsToken false field (none, none)
    return (← requiredField "row" row, ← requiredField "column" column)
  | some '[' => enter levels do
    drop
    let row ← requiredItem true readNatural
    let column ← requiredItem false readNatural
    endOfItems
    return (row, column)
  | _ => wrongType

/-- The fields of a node that have been met so far. -/
structure NodeFields where
  tag : Option String := none
  text : Option String := none
  startByte : Option Nat := none
  stopByte : Option Nat := none
  startPlace : Option (Nat × Nat) := none
  stopPlace : Option (Nat × Nat) := none
  children : Option (List Node) := none
  named : Option (List Node) := none
  isNamed : Option Bool := none
  label : Option (Option String) := none

namespace NodeFields

/-- Takes the value of a field. -/
def readField (levels : Nat) (nodes : Reader (List Node)) (d : NodeFields) (name : String) :
    Reader NodeFields :=
  match name with
  | "type" => do return { d with tag := some (← fieldValue name d.tag readString) }
  | "text" => do return { d with text := some (← fieldValue name d.text readString) }
  | "startIndex" => do
    return { d with startByte := some (← fieldValue name d.startByte readNatural) }
  | "endIndex" => do
    return { d with stopByte := some (← fieldValue name d.stopByte readNatural) }
  | "startPosition" => do
    return { d with startPlace := some (← fieldValue name d.startPlace (readRowColumn levels)) }
  | "endPosition" => do
    return { d with stopPlace := some (← fieldValue name d.stopPlace (readRowColumn levels)) }
  | "children" => do return { d with children := some (← fieldValue name d.children nodes) }
  | "namedChildren" => do return { d with named := some (← fieldValue name d.named nodes) }
  | "isNamed" => do return { d with isNamed := some (← fieldValue name d.isNamed readBool) }
  | "fieldName" => do return { d with label := some (← fieldValue name d.label readString?) }
  | _ => do skipField; return d

/-- The node of the fields of an object; the first that is missing is told. -/
def finish (d : NodeFields) : Reader Node := do
  let tag ← requiredField "type" d.tag
  let text ← requiredField "text" d.text
  let startByte ← requiredField "startIndex" d.startByte
  let stopByte ← requiredField "endIndex" d.stopByte
  let startPlace ← requiredField "startPosition" d.startPlace
  let stopPlace ← requiredField "endPosition" d.stopPlace
  return {
    tag, text
    span := ⟨⟨startPlace.1, startPlace.2, startByte⟩, ⟨stopPlace.1, stopPlace.2, stopByte⟩⟩
    children := d.children.getD []
    named := d.named.getD []
    isNamed := d.isNamed.getD true
    label := d.label.getD none }

/-- Takes the fields of a node that is written as an array. -/
def readItems (levels : Nat) (nodes : Reader (List Node)) : Reader NodeFields := do
  drop
  let tag ← requiredItem true readString
  let text ← requiredItem false readString
  let startByte ← requiredItem false readNatural
  let stopByte ← requiredItem false readNatural
  let startPlace ← requiredItem false (readRowColumn levels)
  let stopPlace ← requiredItem false (readRowColumn levels)
  -- The rest may be left out, but only from the end.
  let children ← nextItem false nodes
  let named ← nextItem false nodes
  let isNamed ← nextItem false readBool
  let label ← nextItem false readString?
  endOfItems
  return {
    tag := some tag, text := some text, startByte := some startByte, stopByte := some stopByte
    startPlace := some startPlace, stopPlace := some stopPlace, children, named, isNamed, label }

end NodeFields

/-- Takes a list of nodes. -/
def readNodes (levels : Nat) (node : Reader Node) : Reader (List Node) := do
  match ← peek with
  | some '[' => enter levels (itemsToken node)
  | _ => wrongType

/-- Takes a node.  It uses up one level, and its children another. -/
def readNode : Nat → Reader Node
  | levels + 2 => do
    -- One level for the node, and one for the list of its children.
    let nodes := readNodes (levels + 1) (readNode levels)
    match ← peek with
    | some '\x7b' => (← fieldsToken false (NodeFields.readField (levels + 1) nodes) {}).finish
    | some '[' => (← NodeFields.readItems (levels + 1) nodes).finish
    | _ => wrongType
  | _ => do
    match ← peek with
    | some '\x7b' | some '[' => throw .malformed
    | _ => wrongType

end Json

namespace Node

def toJson (n : Node) : Json :=
  Json.ofNode n

/-- The tree that a text denotes. -/
def read (text : String) : Except Json.ReadError Node :=
  Json.readWith (Json.readNode Json.depthLimit) text

end Node

end Scad
