import Scad.Decimal.Shortest

/-!
# JSON Values

A JSON value, with its numbers sorted by what they can stand for: a natural number of at most 64
bits, a negative integer of at most 63, or a double.  The fields of an object keep their order.

A *part* of a value is a value strictly inside it, so that a function that recurses on the fields
of an object comes to an end.
-/

namespace Scad

/-! ## §1 Values -/

/-- A number. -/
inductive Numeral where
  | natural (n : Nat)
  /-- The number `-n`. -/
  | negative (n : Nat)
  | real (x : Float)
  deriving Inhabited

namespace Numeral

/-- The number as a double. -/
def toFloat : Numeral → Float
  | natural n => Decimal.ofNat n
  | negative n => -Decimal.ofNat n
  | real x => x

/-- The number as it is written. -/
def text : Numeral → String
  | natural n => toString n
  | negative n => "-" ++ toString n
  | real x => Decimal.text x

end Numeral

/-- A JSON value. -/
inductive Json where
  | null
  | bool (b : Bool)
  | number (n : Numeral)
  | string (s : String)
  | array (items : List Json)
  | object (fields : List (String × Json))
  deriving Inhabited

namespace Json

/-! ## §2 Building values -/

/-- A natural number as a value. -/
def natural (n : Nat) : Json :=
  number (.natural n)

/-- A double as a value. -/
def real (x : Float) : Json :=
  number (.real x)

/-- A value that may be absent; `null` stands for none. -/
def optional {α : Type} (encode : α → Json) : Option α → Json
  | some a => encode a
  | none => null

/-- A list of values. -/
def list {α : Type} (encode : α → Json) (items : List α) : Json :=
  array (items.map encode)

/-- A field that is left out where its value is absent. -/
def optionalField {α : Type} (name : String) (encode : α → Json) (a : Option α) :
    List (String × Json) :=
  (a.map fun a => (name, encode a)).toList

/-! ## §3 Parts -/

/-- A value strictly inside another. -/
structure Part (j : Json) where
  /-- The value itself. -/
  json : Json
  inside : sizeOf json < sizeOf j

theorem sizeOf_lt_array {items : List Json} {j : Json} (h : j ∈ items) :
    sizeOf j < sizeOf (array items) := by
  have := List.sizeOf_lt_of_mem h
  simp
  omega

theorem sizeOf_lt_object {fields : List (String × Json)} {f : String × Json} (h : f ∈ fields) :
    sizeOf f.2 < sizeOf (object fields) := by
  have := List.sizeOf_lt_of_mem h
  obtain ⟨name, j⟩ := f
  simp_all
  omega

/-- The items of an array. -/
def items? : (j : Json) → Option (List j.Part)
  | array items => some (items.attach.map fun i => ⟨i.1, sizeOf_lt_array i.2⟩)
  | _ => none

/-- The fields of an object. -/
def fields? : (j : Json) → Option (List (String × j.Part))
  | object fields => some (fields.attach.map fun f => (f.1.1, ⟨f.1.2, sizeOf_lt_object f.2⟩))
  | _ => none

/-- The field of a name; the last one where an object has several. -/
def field? (j : Json) (name : String) : Option j.Part :=
  (j.fields?.getD []).reverse.lookup name

/-! ## §4 Looking at values -/

/-- The text, where the value is one. -/
def string? : Json → Option String
  | string s => some s
  | _ => none

/-- The truth value, where the value is one. -/
def bool? : Json → Option Bool
  | bool b => some b
  | _ => none

/-- The natural number, where the value is one. -/
def natural? : Json → Option Nat
  | number (.natural n) => some n
  | _ => none

/-- The double, where the value is a number. -/
def float? : Json → Option Float
  | number n => some n.toFloat
  | _ => none

/-- Whether the value is `null`. -/
def isNull : Json → Bool
  | null => true
  | _ => false

end Json

end Scad
