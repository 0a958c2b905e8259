import Scad.Convert.Predefined
import Scad.Proofs.Agreement.Retelling

/-!
# Predefined Modules, Moved

What a call of a predefined module means does not depend on where its arguments stand: reading moved
arguments comes to moving what was read.
-/

namespace Scad.Convert

variable {d : Shift} {args : List Argument}

/-! ## §1 Looking up arguments -/

/-- An argument is found under its name, wherever it stands. -/
@[simp] theorem named_shift (name : String) :
    named (args.map (Argument.shift d)) name = (named args name).map (Value.shift d) := by
  simp [named, List.find?_map, Function.comp_def]

/-- Arguments without a name are counted, and moving them leaves their number and order. -/
@[simp] theorem positional_shift (position : Nat) :
    positional (args.map (Argument.shift d)) position =
      (positional args position).map (Value.shift d) := by
  simp [positional, List.filter_map, Function.comp_def]

@[simp] theorem given_shift (name : String) (position : Nat) :
    given (args.map (Argument.shift d)) name position =
      (given args name position).map (Value.shift d) := by
  simp [given, Option.map_or]

/-- Half of an expression moves with it: the quotient and the two in it stand where it stands. -/
@[simp] theorem halve_shift (v : Value) : halve (v.shift d) = (halve v).shift d := by
  cases v with
  | expression e => simp [halve, Value.shift, Expression.shift]
  | _ => rfl

@[simp] theorem map_halve_shift (v : Option Value) :
    (v.map (Value.shift d)).map halve = (v.map halve).map (Value.shift d) := by
  cases v <;> simp

/-- A value moves together with the one that stands in for it. -/
theorem shift_getD (v : Option Value) (default : Value) :
    (v.getD default).shift d = (v.map (Value.shift d)).getD (default.shift d) := by
  cases v <;> rfl

/-- The convexity is a number, and a number has no place. -/
@[simp] theorem convexity_shift (position : Nat) :
    convexity (args.map (Argument.shift d)) position = convexity args position := by
  have hnumber : Value.number? ∘ Value.shift d = Value.number? := funext Value.number?_shift
  rw [convexity, convexity, given_shift, Option.bind_map, hnumber]

@[simp] theorem roundRadius_shift :
    roundRadius (args.map (Argument.shift d)) = (roundRadius args).shift d := by
  simp only [roundRadius, given_shift, named_shift, map_halve_shift, shift_getD, Option.map_or,
    Value.shift]

/-! ## §2 Shapes and transforms -/

/-- A call makes the same shape of moved arguments, with the parameters moved. -/
theorem primitive?_shift (name : String) :
    primitive? name (args.map (Argument.shift d)) =
      (primitive? name args).map (Primitive.shift d) := by
  unfold primitive?
  split
  -- The defaults have no spans, so they are the same in both.
  all_goals simp only [Option.map_some, Option.map_none, Primitive.shift, given_shift, named_shift,
    map_halve_shift, roundRadius_shift, convexity_shift, shift_getD, Option.map_or, Value.shift]

@[simp] theorem offsetAmount_shift :
    offsetAmount (args.map (Argument.shift d)) = (offsetAmount args).shift d := by
  simp only [offsetAmount, given_shift, named_shift]
  cases given args "r" 0 <;> cases named args "delta" <;> rfl

/-- A call makes the same transform of moved arguments, with the parameters moved. -/
theorem transform?_shift (name : String) :
    transform? name (args.map (Argument.shift d)) =
      (transform? name args).map (Transform.shift d) := by
  unfold transform?
  split
  -- As with the shapes, what is looked up is moved, and what is put in has no span.
  all_goals simp only [Option.map_some, Option.map_none, Transform.shift, given_shift, named_shift,
    offsetAmount_shift, convexity_shift, shift_getD, uniform, Value.shift]

/-! ## §3 Other arguments -/

/-- Whether an argument is special is told by its name. -/
@[simp] theorem isSpecial_shift (a : Argument) : isSpecial (a.shift d) = isSpecial a := by
  cases a
  rfl

theorem filter_isSpecial_shift :
    (args.map (Argument.shift d)).filter isSpecial =
      (args.filter isSpecial).map (Argument.shift d) := by
  simp [List.filter_map, Function.comp_def]

/-- Which arguments a module ignores is told by their names, so the same ones are remarked on. -/
theorem ignored_shift (module : String) :
    ignored module (args.map (Argument.shift d)) = ignored module args := by
  have hname : Argument.name ∘ Argument.shift d = Argument.name := funext Argument.name_shift
  rw [ignored, ignored, List.filterMap_map, hname]

end Scad.Convert
