import Scad.Convert.Predefined
import Scad.Proofs.Provenance.Origin

/-!
# Where the Parameters of Predefined Modules Come From

A shape or a transform takes its parameters from the arguments of its call, so what is kept in them
is made of the same syntax.  The one parameter that is computed is half of an argument, and half of
an expression stands where the expression stands.
-/

namespace Scad.Convert

open Node

variable {n : Node} {args : List Argument}

/-! ## §1 Looking up arguments -/

/-- What is found under a name is the value of an argument. -/
theorem yields_named (h : ∀ a ∈ args, n.Yields (.argument a)) (name : String) :
    n.YieldsValue? (named args name) := by
  intro v hv
  obtain ⟨a, ha, rfl⟩ := Option.map_eq_some_iff.mp hv
  exact (h a (List.mem_of_find?_eq_some ha)).argument_value

/-- What is found at a position is the value of an argument. -/
theorem yields_positional (h : ∀ a ∈ args, n.Yields (.argument a)) (position : Nat) :
    n.YieldsValue? (positional args position) := by
  intro v hv
  obtain ⟨a, ha, rfl⟩ := Option.map_eq_some_iff.mp hv
  exact (h a (List.mem_filter.mp (List.mem_of_getElem? ha)).1).argument_value

theorem yields_given (h : ∀ a ∈ args, n.Yields (.argument a)) (name : String) (position : Nat) :
    n.YieldsValue? (given args name position) :=
  (yields_named h name).or (yields_positional h position)

/-- The quotient and the two in it stand where the dividend stands. -/
theorem yields_halve {v : Value} (h : n.YieldsValue v) : n.YieldsValue (halve v) := by
  cases v with
  | expression e =>
    obtain ⟨m, hm, hspan, he⟩ := (yieldsValue_expression.mp h).exists_made
    refine yieldsValue_expression.mpr (.within hm (.of_parts hspan ?_))
    simp only [View.ofParts, List.forall_mem_cons]
    exact ⟨he, .of_parts hspan (List.forall_mem_nil _), List.forall_mem_nil _⟩
  -- Half of a number is a number, which comes from nowhere.
  | _ => exact .of_settled rfl

theorem yields_named_halve (h : ∀ a ∈ args, n.Yields (.argument a)) (name : String) :
    n.YieldsValue? ((named args name).map halve) := by
  intro v hv
  obtain ⟨whole, hwhole, rfl⟩ := Option.map_eq_some_iff.mp hv
  exact yields_halve (yields_named h name whole hwhole)

/-- A radius is given, or is half of a diameter that is given, or is left open. -/
theorem yields_roundRadius (h : ∀ a ∈ args, n.Yields (.argument a)) :
    n.YieldsValue (roundRadius args) :=
  ((yields_given h _ _).or (yields_named_halve h _)).getD rfl

/-! ## §2 Shapes and transforms -/

/-- The parameters of a shape are values of arguments, or are put in. -/
theorem yields_primitive (h : ∀ a ∈ args, n.Yields (.argument a)) {name : String}
    {shape : Primitive} (hshape : primitive? name args = some shape) :
    ∀ c ∈ View.ofPrimitive shape, n.Yields c := by
  have hgiven (name : String) (position : Nat) {default : Value}
      (hdefault : default.expression? = none) :
      n.YieldsValue ((given args name position).getD default) :=
    (yields_given h name position).getD hdefault
  -- The radii of the ends of a cylinder share what is left open.
  have hend (radius diameter : String) (position : Nat) :
      n.YieldsValue (((given args radius position).or (((named args diameter).map halve).or
        ((named args "r").or ((named args "d").map halve)))).getD (.number 1)) :=
    ((yields_given h _ _).or ((yields_named_halve h _).or
      ((yields_named h _).or (yields_named_halve h _)))).getD rfl
  unfold primitive? at hshape
  split at hshape
  all_goals cases hshape
  -- One case for each shape, with its parameters in their order.
  all_goals simp only [View.ofPrimitive, List.forall_mem_append]
  case h_1 => exact ⟨hgiven _ _ rfl, hgiven _ _ rfl⟩
  case h_2 => exact yields_roundRadius h
  case h_3 =>
    refine ⟨⟨⟨?_, hend _ _ _⟩, hend _ _ _⟩, hgiven _ _ rfl⟩
    exact ((yields_given h "h" 0).or (yields_named h "height")).getD rfl
  case h_4 =>
    exact ⟨hgiven _ _ rfl, ((yields_given h "faces" 1).or (yields_named h "triangles")).getD rfl⟩
  case h_5 => exact yields_roundRadius h
  case h_6 => exact ⟨hgiven _ _ rfl, hgiven _ _ rfl⟩
  case h_7 => exact ⟨hgiven _ _ rfl, (yields_given h "paths" 1).views⟩
  case h_8 => exact ⟨hgiven _ _ rfl, hgiven _ _ rfl⟩

/-- An offset is by a radius or by a distance that is given, or by a plain number. -/
theorem yields_offsetAmount (h : ∀ a ∈ args, n.Yields (.argument a)) :
    n.YieldsValue (offsetAmount args).value := by
  unfold offsetAmount
  split
  · next hr => exact yields_given h "r" 0 _ hr
  · next hdelta => exact yields_named h "delta" _ hdelta
  · exact .of_settled rfl

/-- The parameters of a transform are values of arguments, or are put in. -/
theorem yields_transform (h : ∀ a ∈ args, n.Yields (.argument a)) {name : String}
    {transform : Transform} (htransform : transform? name args = some transform) :
    ∀ c ∈ View.ofTransform transform, n.Yields c := by
  have hgiven (name : String) (position : Nat) {default : Value}
      (hdefault : default.expression? = none) :
      n.YieldsValue ((given args name position).getD default) :=
    (yields_given h name position).getD hdefault
  unfold transform? at htransform
  split at htransform
  all_goals cases htransform
  -- Parameters without a default are left out where they are not given.
  all_goals simp only [View.ofTransform, List.forall_mem_append]
  case h_1 | h_3 | h_4 | h_6 => exact hgiven _ _ rfl
  case h_2 => exact ⟨hgiven _ _ rfl, (yields_given h "v" 1).views⟩
  case h_5 => exact ⟨hgiven _ _ rfl, hgiven _ _ rfl⟩
  case h_7 => exact ⟨hgiven _ _ rfl, (yields_given h "alpha" 1).views⟩
  case h_8 => exact ⟨yields_offsetAmount h, hgiven _ _ rfl⟩
  case h_9 =>
    exact ⟨⟨⟨⟨hgiven _ _ rfl, hgiven _ _ rfl⟩, hgiven _ _ rfl⟩, (yields_given h "slices" 4).views⟩,
      (yields_named h "scale").getD rfl⟩
  case h_10 => exact (yields_named h "angle").getD rfl

end Scad.Convert
