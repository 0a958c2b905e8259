import Scad.Proofs.Bodies.Header
import Scad.Proofs.Success

/-!
# Special Variables among Arguments

A call may set special variables such as `$fn` for what it makes, whatever module it calls.  No
module documents them as parameters, and none counts them among the arguments that it ignores.

* `Statement.arguments` — the arguments that a statement keeps, as its view hands them out.
* `specials_of_predefinedCall` — which of the special variables of a call its statement keeps.

A shape keeps the special variables alone, and `echo` and the modules of the program keep all of
their arguments.  A transform keeps its parameters and an operation keeps none, so what such a call
sets for its children is lost.
-/

namespace Scad

/-! ## §1 The arguments of a statement -/

namespace View

/-- The argument, where the view is one. -/
def argument? : View → Option Argument
  | argument a => some a
  | _ => none

@[simp] theorem argument?_argument (a : Argument) : (argument a).argument? = some a := rfl

@[simp] theorem argument?_comp_argument : argument? ∘ argument = some := rfl

@[simp] theorem argument?_ofStatement (s : Statement) : (ofStatement s).argument? = none := by
  cases s <;> rfl

/-- A parameter shows as the expression it is, or not at all. -/
@[simp] theorem filterMap_argument?_ofValue (v : Value) :
    (ofValue v).filterMap argument? = [] := by
  cases v <;> rfl

@[simp] theorem filterMap_argument?_ofValue? (v : Option Value) :
    (ofValue? v).filterMap argument? = [] := by
  cases v <;> simp [ofValue?]

@[simp] theorem filterMap_argument?_ofStatement? (s : Option Statement) :
    (ofStatement? s).filterMap argument? = [] := by
  cases s <;> simp [ofStatement?]

@[simp] theorem filterMap_argument?_ofPrimitive (shape : Primitive) :
    (ofPrimitive shape).filterMap argument? = [] := by
  cases shape <;> simp [ofPrimitive]

@[simp] theorem filterMap_argument?_ofTransform (transform : Transform) :
    (ofTransform transform).filterMap argument? = [] := by
  cases transform <;> simp [ofTransform]

end View

namespace Statement

/-- The arguments that a statement keeps, as its view hands them out. -/
def arguments (s : Statement) : List Argument :=
  (View.statement s).children.filterMap View.argument?

theorem mem_arguments {s : Statement} {a : Argument} :
    a ∈ s.arguments ↔ View.argument a ∈ (View.statement s).children := by
  rw [arguments, List.mem_filterMap]
  constructor
  · rintro ⟨v, hv, ha⟩
    cases v <;> cases ha
    exact hv
  · exact fun h => ⟨.argument a, h, rfl⟩

@[simp] theorem arguments_primitive (shape : Primitive) (specials : List Argument) (span : Span) :
    (primitive shape specials span).arguments = specials := by
  simp [arguments, View.children, View.ofStatementParts]

@[simp] theorem arguments_transform (transform : Transform) (children : List Statement)
    (span : Span) : (Statement.transform transform children span).arguments = [] := by
  simp [arguments, View.children, View.ofStatementParts]

@[simp] theorem arguments_csg (operation : CsgOperation) (children : List Statement) (span : Span) :
    (csg operation children span).arguments = [] := by
  simp [arguments, View.children, View.ofStatementParts]

@[simp] theorem arguments_echo (args : List Argument) (body : Option Statement) (span : Span) :
    (echo args body span).arguments = args := by
  simp [arguments, View.children, View.ofStatementParts]

@[simp] theorem arguments_call (name : String) (nameSpan : Span) (args : List Argument)
    (children : List Statement) (span : Span) :
    (call name nameSpan args children span).arguments = args := by
  simp [arguments, View.children, View.ofStatementParts]

end Statement

namespace Convert

open Conversion

variable {n : Node} {convert : Converter n Statement} {name : String} {args : List Argument}
  {settings : Settings} {s : Statement}

/-! ## §2 What each module makes -/

/-- Whether the name is a transform or an operation. -/
def isTransformation (name : String) : Bool :=
  (transform? name []).isSome || (CsgOperation.ofName? name).isSome

/-- Which module makes a transform does not depend on the arguments. -/
theorem isSome_transform? (name : String) (args : List Argument) :
    (transform? name args).isSome = (transform? name []).isSome := by
  unfold transform?
  split <;> rfl

/-- No shape has the name of a transform or of an operation. -/
theorem isTransformation_of_primitive? {shape : Primitive}
    (h : primitive? name args = some shape) : isTransformation name = false := by
  unfold primitive? at h
  split at h
  all_goals first | rfl | cases h

/-- What a call can be converted to, with everything that decides which of the five it is. -/
inductive Makes (n : Node) (name : String) (args : List Argument) : Statement → Prop where
  | primitive {shape : Primitive} (hshape : primitive? name args = some shape) :
    Makes n name args (.primitive shape (args.filter isSpecial) n.span)
  | transform {transform : Transform} (hshape : primitive? name args = none)
    (htransform : transform? name args = some transform) (children : List Statement) :
    Makes n name args (.transform transform children n.span)
  | csg {operation : CsgOperation} (hshape : primitive? name args = none)
    (htransform : transform? name args = none) (hcsg : CsgOperation.ofName? name = some operation)
    (children : List Statement) : Makes n name args (.csg operation children n.span)
  | echo (hshape : primitive? name args = none) (htransform : transform? name args = none)
    (hcsg : CsgOperation.ofName? name = none) (hname : name = "echo") (body : Option Statement) :
    Makes n name args (.echo args body n.span)
  | call (hshape : primitive? name args = none) (htransform : transform? name args = none)
    (hcsg : CsgOperation.ofName? name = none) (hname : name ≠ "echo") (nameSpan : Span)
    (children : List Statement) : Makes n name args (.call name nameSpan args children n.span)

theorem predefinedCall_makes (n : Node) (convert : Converter n Statement) (name : String)
    (args : List Argument) : (predefinedCall n convert name args).Ensures (Makes n name args) := by
  unfold predefinedCall
  cases hshape : primitive? name args with
  | some shape =>
    dsimp only
    split
    · exact .bind_any fun _ => .bind_any fun _ => .pure (.primitive hshape)
    · exact .bind_any fun _ => .pure (.primitive hshape)
  | none =>
    cases htransform : transform? name args with
    | some transform =>
      exact .bind_any fun _ => .bind_any fun _ => .pure (.transform hshape htransform _)
    | none =>
      cases hcsg : CsgOperation.ofName? name with
      | some operation => exact .bind_any fun _ => .pure (.csg hshape htransform hcsg _)
      | none =>
        dsimp only
        split
        · next hname =>
          exact .bind_any fun _ => .pure (.echo hshape htransform hcsg (by simpa using hname) _)
        · next hname =>
          exact .bind_any fun _ => .pure (.call hshape htransform hcsg (by simpa using hname) _ _)

/-- The arguments that a call leaves in its statement: those that set special variables in a shape,
none in a transform or an operation, and all of them elsewhere. -/
def keptArguments (name : String) (args : List Argument) : List Argument :=
  if (primitive? name args).isSome then args.filter isSpecial
  else if isTransformation name then []
  else args

theorem Makes.arguments_eq (h : Makes n name args s) : s.arguments = keptArguments name args := by
  have htransform := isSome_transform? name args
  cases h <;> simp_all [keptArguments, isTransformation]

/-- A shape, `echo` and a module of the program keep the special variables of their call, each of
them and in order; a transform and an operation keep none. -/
theorem filter_isSpecial_keptArguments (name : String) (args : List Argument) :
    (keptArguments name args).filter isSpecial =
      if isTransformation name then [] else args.filter isSpecial := by
  unfold keptArguments
  cases hshape : primitive? name args with
  | some shape => simp [isTransformation_of_primitive? hshape]
  | none => cases isTransformation name <;> simp

/-! ## §3 What becomes of the special variables -/

/-- A call whose arguments are read makes a statement, whatever it calls.  Unless it calls a
transform or an operation, the statement keeps every argument that sets a special variable, in
order.  A transform and an operation keep none of them; so none is lost if and only if the call has
none, or makes neither. -/
theorem specials_of_predefinedCall (n : Node) (convert : Converter n Statement) (name : String)
    (args : List Argument) (settings : Settings) :
    ∃ s, (predefinedCall n convert name args).result settings = .ok s ∧
      s.arguments.filter isSpecial =
        (if isTransformation name then [] else args.filter isSpecial) ∧
      ((∀ a ∈ args, isSpecial a = true → .argument a ∈ (View.statement s).children) ↔
        isTransformation name = false ∨ ∀ a ∈ args, isSpecial a = false) := by
  obtain ⟨s, hs⟩ := predefinedCall_succeeds n convert name args settings
  have hkept : s.arguments.filter isSpecial =
      if isTransformation name then [] else args.filter isSpecial := by
    rw [(predefinedCall_makes n convert name args settings s hs).arguments_eq,
      filter_isSpecial_keptArguments]
  refine ⟨s, hs, hkept, ?_⟩
  have hmem (a : Argument) (ha : isSpecial a = true) :
      .argument a ∈ (View.statement s).children ↔
        a ∈ if isTransformation name then [] else args.filter isSpecial := by
    rw [← hkept, List.mem_filter, ← Statement.mem_arguments]
    simp [ha]
  cases htransformation : isTransformation name with
  | false =>
    rw [htransformation, if_neg Bool.false_ne_true] at hmem
    refine ⟨fun _ => .inl rfl, fun _ a ha hspecial => (hmem a hspecial).mpr ?_⟩
    exact List.mem_filter.mpr ⟨ha, hspecial⟩
  | true =>
    rw [htransformation, if_pos rfl] at hmem
    -- Nothing is kept, so every special variable that is there is lost.
    refine ⟨fun hall => .inr fun a ha => ?_, fun hnone a ha hspecial => ?_⟩
    · by_contra hspecial
      rw [Bool.not_eq_false] at hspecial
      exact List.not_mem_nil ((hmem a hspecial).mp (hall a ha hspecial))
    · rcases hnone with hfalse | hnone
      · cases hfalse
      · simp [hnone a ha] at hspecial

/-- The arguments `$fn = 8`. -/
def eightSides : List Argument :=
  [⟨some "$fn", .number 8, ⟨⟨0, 15, 15⟩, ⟨0, 22, 22⟩⟩⟩]

/-- The name of a transform. -/
def turnName : Node where
  tag := "identifier"
  text := "rotate_extrude"
  span := ⟨⟨0, 0, 0⟩, ⟨0, 14, 14⟩⟩
  label := some "name"

/-- A call of the transform. -/
def turn : Node where
  tag := "module_instantiation"
  text := "rotate_extrude($fn = 8)"
  span := ⟨⟨0, 0, 0⟩, ⟨0, 23, 23⟩⟩
  children := [turnName]
  named := [turnName]

/-- A solid of revolution loses the number of its sides. -/
theorem turn_loses_eightSides :
    ∃ a ∈ eightSides, isSpecial a = true ∧
      ∃ s, (predefinedCall turn (inner .complete turn) "rotate_extrude" eightSides).result {} =
          .ok s ∧
        .argument a ∉ (View.statement s).children := by
  refine ⟨_, List.mem_cons_self, by decide, ?_⟩
  obtain ⟨s, hs⟩ := predefinedCall_succeeds turn (inner .complete turn) "rotate_extrude"
    eightSides {}
  refine ⟨s, hs, ?_⟩
  rw [← Statement.mem_arguments, (predefinedCall_makes _ _ _ _ {} s hs).arguments_eq]
  exact List.not_mem_nil

end Convert

end Scad
