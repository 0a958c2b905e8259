import Scad.Ast.View
import Scad.Convert.Predefined

/-!
# The Order of Parameters

A shape or a transform lists its values parameter by parameter, in an order that the module fixes,
while the call writes its arguments in any order.

* `Parameter` — where the value of a parameter is looked for among the arguments.
* `drawn` — the arguments that the parameters of a module draw their values from, parameter by
  parameter.
* `ofPrimitive_eq`, `ofTransform_eq` — the views of a shape or of a transform are those of the
  values that its parameters draw.
-/

namespace Scad.Convert

/-! ## §1 Parameters and their keys -/

/-- One way of looking for the value of a parameter. -/
inductive Key where
  /-- The first argument of a name. -/
  | name (s : String)
  /-- Half of the first argument of a name. -/
  | half (s : String)
  /-- The argument without a name at a position. -/
  | position (i : Nat)

/-- A parameter is looked for under its keys, one after another. -/
abbrev Parameter : Type := List Key

/-- The argument that a key finds, with the value that is drawn from it. -/
def Key.find? (args : List Argument) : Key → Option (Argument × Value)
  | name s => (args.find? (·.name == some s)).map fun a => (a, a.value)
  | half s => (args.find? (·.name == some s)).map fun a => (a, halve a.value)
  | position i => (args.filter Argument.isPositional)[i]?.map fun a => (a, a.value)

/-- The argument that the first key of a parameter finds, with the value drawn from it. -/
def Parameter.find? (args : List Argument) (p : Parameter) : Option (Argument × Value) :=
  p.findSome? (·.find? args)

/-- The parameters whose values a predefined module keeps, in the order in which the values are
listed. -/
def parametersOf : String → List Parameter
  | "cube" | "square" => [[.name "size", .position 0], [.name "center", .position 1]]
  | "sphere" | "circle" => [[.name "r", .position 0, .half "d"]]
  | "cylinder" =>
    [[.name "h", .position 0, .name "height"],
     [.name "r1", .position 1, .half "d1", .name "r", .half "d"],
     [.name "r2", .position 2, .half "d2", .name "r", .half "d"],
     [.name "center", .position 3]]
  | "polyhedron" => [[.name "points", .position 0], [.name "faces", .position 1, .name "triangles"]]
  | "polygon" => [[.name "points", .position 0], [.name "paths", .position 1]]
  | "text" => [[.name "text", .position 0], [.name "size", .position 1]]
  | "translate" | "scale" | "mirror" => [[.name "v", .position 0]]
  | "rotate" => [[.name "a", .position 0], [.name "v", .position 1]]
  | "resize" => [[.name "newsize", .position 0], [.name "auto", .position 1]]
  | "multmatrix" => [[.name "m", .position 0]]
  | "color" => [[.name "c", .position 0], [.name "alpha", .position 1]]
  | "offset" => [[.name "r", .position 0, .name "delta"], [.name "chamfer", .position 2]]
  | "linear_extrude" =>
    [[.name "height", .position 0], [.name "center", .position 1], [.name "twist", .position 3],
     [.name "slices", .position 4], [.name "scale"]]
  | "rotate_extrude" => [[.name "angle"]]
  | _ => []

/-- The arguments that the parameters of a module draw their values from, with those values. -/
def drawn (module : String) (args : List Argument) : List (Argument × Value) :=
  (parametersOf module).filterMap (Parameter.find? args)

variable {args : List Argument}

theorem Key.mem_of_find? {k : Key} {a : Argument} {v : Value} (h : k.find? args = some (a, v)) :
    a ∈ args ∧ (v = a.value ∨ v = halve a.value) := by
  cases k with
  | name s =>
    obtain ⟨b, hb, heq⟩ := Option.map_eq_some_iff.mp h
    cases heq
    exact ⟨List.mem_of_find?_eq_some hb, .inl rfl⟩
  | half s =>
    obtain ⟨b, hb, heq⟩ := Option.map_eq_some_iff.mp h
    cases heq
    exact ⟨List.mem_of_find?_eq_some hb, .inr rfl⟩
  | position i =>
    obtain ⟨b, hb, heq⟩ := Option.map_eq_some_iff.mp h
    cases heq
    exact ⟨(List.mem_filter.mp (List.mem_of_getElem? hb)).1, .inl rfl⟩

/-- A value is drawn from an argument of the call, as a whole or by half. -/
theorem mem_of_mem_drawn {module : String} {a : Argument} {v : Value}
    (h : (a, v) ∈ drawn module args) : a ∈ args ∧ (v = a.value ∨ v = halve a.value) := by
  obtain ⟨p, -, hp⟩ := List.mem_filterMap.mp h
  obtain ⟨k, -, hk⟩ := List.exists_of_findSome?_eq_some hp
  exact Key.mem_of_find? hk

/-! ## §2 The values of the parameters -/

/-- The value that a parameter draws. -/
def Parameter.value? (args : List Argument) (p : Parameter) : Option Value :=
  (p.find? args).map Prod.snd

namespace Parameter

theorem value?_nil : value? args [] = none :=
  rfl

theorem value?_cons (k : Key) (p : Parameter) :
    value? args (k :: p) = ((k.find? args).map Prod.snd).or (value? args p) := by
  rw [value?, find?, List.findSome?_cons]
  cases k.find? args <;> rfl

theorem value?_name (s : String) (p : Parameter) :
    value? args (.name s :: p) = (named args s).or (value? args p) := by
  rw [value?_cons, Key.find?, Option.map_map]
  rfl

theorem value?_half (s : String) (p : Parameter) :
    value? args (.half s :: p) = ((named args s).map halve).or (value? args p) := by
  rw [value?_cons, Key.find?, named, Option.map_map, Option.map_map]
  rfl

theorem value?_position (i : Nat) (p : Parameter) :
    value? args (.position i :: p) = (positional args i).or (value? args p) := by
  rw [value?_cons, Key.find?, Option.map_map]
  rfl

end Parameter

/-- A default that was settled has no view. -/
theorem ofValue_getD {default : Value} (h : default.expression? = none) (x : Option Value) :
    View.ofValue (x.getD default) = View.ofValue? x := by
  cases x with
  | none => simp [View.ofValue, View.ofValue?, h]
  | some v => simp [View.ofValue?]

/-- The views of what the parameters draw are those of the values that they draw. -/
theorem flatMap_drawn (module : String) :
    ((drawn module args).flatMap fun d => View.ofValue d.2) =
      (parametersOf module).flatMap fun p => View.ofValue? (p.value? args) := by
  unfold drawn
  induction parametersOf module with
  | nil => rfl
  | cons p ps ih =>
    rw [List.flatMap_cons, ← ih, Parameter.value?]
    cases hp : p.find? args with
    | none => simp [hp, View.ofValue?]
    | some d => simp [hp, View.ofValue?]

/-! ## §3 Shapes and transforms -/

theorem ofValue_offsetAmount :
    View.ofValue (offsetAmount args).value =
      View.ofValue? ((given args "r" 0).or (named args "delta")) := by
  unfold offsetAmount
  cases given args "r" 0 <;> cases named args "delta" <;>
    simp [View.ofValue?, OffsetAmount.value, View.ofValue, Value.expression?]

open Parameter in
/-- A shape shows what its parameters draw. -/
theorem ofPrimitive_eq {name : String} {shape : Primitive}
    (h : primitive? name args = some shape) :
    View.ofPrimitive shape = (drawn name args).flatMap fun d => View.ofValue d.2 := by
  unfold primitive? at h
  split at h
  all_goals cases h
  all_goals
    simp only [flatMap_drawn, parametersOf, List.flatMap_cons, List.flatMap_nil, List.append_nil,
      View.ofPrimitive, roundRadius, given, value?_name, value?_half, value?_position, value?_nil,
      Option.or_none, Option.or_assoc, List.append_assoc]
  -- What is left are the defaults.
  all_goals repeat rw [ofValue_getD rfl]

open Parameter in
/-- A transform shows what its parameters draw. -/
theorem ofTransform_eq {name : String} {transform : Transform}
    (h : transform? name args = some transform) :
    View.ofTransform transform = (drawn name args).flatMap fun d => View.ofValue d.2 := by
  unfold transform? at h
  split at h
  all_goals cases h
  all_goals
    simp only [flatMap_drawn, parametersOf, List.flatMap_cons, List.flatMap_nil, List.append_nil,
      View.ofTransform, ofValue_offsetAmount, given, value?_name, value?_position, value?_nil,
      Option.or_none, Option.or_assoc, List.append_assoc]
  all_goals repeat rw [ofValue_getD rfl]

end Scad.Convert
