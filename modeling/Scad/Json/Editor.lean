import Scad.Diagnostic
import Scad.Editor.Completion
import Scad.Editor.Hover
import Scad.Editor.Outline
import Scad.Editor.Place
import Scad.Json.Record

/-!
# Editor Messages as JSON

Two forms of the same things: the records of this library, with its own positions, and the messages
of the protocol that editors speak, with their places and their numbers for kinds.
-/

namespace Scad

/-! ## §1 Records -/

def Symbol.toJson (s : Symbol) : Json :=
  .object <|
    [("name", .string s.name), ("kind", .string s.kind.name), ("location", s.span.toJson)]
      ++ Json.optionalField "nameLocation" Span.toJson s.nameSpan
      ++ Json.optionalField "scope" .string s.scope
      ++ Json.optionalField "parameters" (.list .string) s.parameters
      ++ Json.optionalField "value" .string s.value

def Hover.toJson (h : Hover) : Json :=
  .object [("contents", .string h.contents), ("range", h.span.toJson)]

def Completion.toJson (c : Completion) : Json :=
  .object
    [("kind", .string c.place.name), ("scope", .optional .string c.scope),
     ("symbols", .list Symbol.toJson c.symbols), ("builtins", .list .string c.builtins)]

/-! ## §2 Messages -/

def SentPlace.toJson (p : SentPlace) : Json :=
  .object [("line", .natural p.line.toNat), ("character", .natural p.character.toNat)]

/-- The message of a place. -/
def Place.toJson (p : Place) : Json :=
  p.sent.toJson

def PlaceRange.toJson (r : PlaceRange) : Json :=
  .object [("start", r.start.toJson), ("end", r.stop.toJson)]

/-- The number of a kind of symbols. -/
def SymbolKind.number : SymbolKind → Nat
  | .module => 2
  | .function => 12
  | .variable => 13
  | .constant => 14
  | .parameter => 26

/-- The number of a kind of items. -/
def ItemKind.number : ItemKind → Nat
  | .function => 3
  | .variable => 6
  | .module => 9
  | .keyword => 14
  | .constant => 21

/-- The number of a severity. -/
def Severity.number : Severity → Nat
  | .error => 1
  | .warning => 2
  | .info => 3

/-- The message of a hover text. -/
def Hover.toMessage (text : List Char) (h : Hover) : Json :=
  .object
    [("contents", .object [("kind", .string "markdown"), ("value", .string h.contents)]),
     ("range", (Text.rangeOfSpan text h.span).toJson)]

/-- The message of an item of the menu. -/
def CompletionItem.toMessage (i : CompletionItem) : Json :=
  .object
    [("label", .string i.label), ("kind", .natural i.kind.number), ("detail", .string i.detail),
     ("sortText", .string i.sortText)]

/-- The program that diagnostics are sent by. -/
def Diagnostic.sender : String := "openscad"

/-- The text of a message, with the hint on a line of its own. -/
def Diagnostic.messageText (d : Diagnostic) : String :=
  match d.hint with
  | some hint => d.message ++ "\n" ++ hint
  | none => d.message

/-- The message of a diagnostic. -/
def Diagnostic.toMessage (text : List Char) (d : Diagnostic) : Json :=
  .object <|
    [("range", (Text.rangeOfSpan text d.span).toJson), ("severity", .natural d.severity.number)]
      ++ Json.optionalField "code" .string d.code
      ++ [("source", .string Diagnostic.sender), ("message", .string d.messageText)]

/-- The stretch of a symbol that an editor selects: its name, or else all of it. -/
def Symbol.selection (s : Symbol) : Span :=
  s.nameSpan.getD s.span

mutual

/-- The message of an item of the outline; one that holds nothing has no children. -/
def OutlineItem.toMessage (text : List Char) : OutlineItem → Json
  | ⟨symbol, children⟩ =>
    .object <|
      [("name", .string symbol.name), ("detail", .string symbol.signature),
       ("kind", .natural symbol.kind.number),
       ("range", (Text.rangeOfSpan text symbol.span).toJson),
       ("selectionRange", (Text.rangeOfSpan text symbol.selection).toJson)] ++
      -- An item that holds nothing leaves the field out.
      match children with
      | [] => []
      | first :: rest =>
        [("children", .array (first.toMessage text :: OutlineItem.listToMessage text rest))]

/-- The messages of items of the outline. -/
def OutlineItem.listToMessage (text : List Char) : List OutlineItem → List Json
  | [] => []
  | item :: rest => item.toMessage text :: OutlineItem.listToMessage text rest

end

end Scad
