import Scad.Convert.Predefined

/-!
# What Predefined Modules Read of Their Arguments

A shape or a transform looks at its arguments in two ways only: it takes the first argument of a
name that the module documents, and it counts the arguments without a name.  Two lists of arguments
mean the same to a module as soon as they agree in these.

* `AgreeOn` — agreement of two lists in some names and in the positional arguments.
* `primitive?_congr`, `transform?_congr` — nothing else is read.
* `lookups_interleaved` — named arguments may stand anywhere.
* `lookups_heeded` — arguments that are told to be ignored are ignored.
-/

namespace Scad.Convert

variable {names : List String} {args args' args'' : List Argument} {name : String}

/-! ## §1 Agreement -/

/-- The two lists give the same value under each of the names, and at each position. -/
structure AgreeOn (names : List String) (args args' : List Argument) : Prop where
  named : ∀ name ∈ names, named args name = named args' name
  positional : ∀ position, positional args position = positional args' position

/-- Whether the argument has the name. -/
def isNamed (name : String) (a : Argument) : Bool :=
  a.name == some name

namespace AgreeOn

/-- The lookups see the arguments of a name, and the positional ones, apart from the others. -/
theorem of_filter
    (hnamed : ∀ name ∈ names, args.filter (isNamed name) = args'.filter (isNamed name))
    (hpositional : args.filter Argument.isPositional = args'.filter Argument.isPositional) :
    AgreeOn names args args' := by
  constructor
  · intro name hname
    have hfirst := congrArg List.head? (hnamed name hname)
    rw [List.head?_filter, List.head?_filter] at hfirst
    exact congrArg (Option.map Argument.value) hfirst
  · intro position
    rw [Convert.positional, Convert.positional, hpositional]

theorem given (h : AgreeOn names args args') (hname : name ∈ names) (position : Nat) :
    given args name position = given args' name position := by
  rw [Convert.given, Convert.given, h.named name hname, h.positional position]

theorem roundRadius (h : AgreeOn names args args') (hradius : "r" ∈ names)
    (hdiameter : "d" ∈ names) : roundRadius args = roundRadius args' := by
  rw [Convert.roundRadius, Convert.roundRadius, h.given hradius, h.named "d" hdiameter]

theorem convexity (h : AgreeOn names args args') (hname : "convexity" ∈ names) (position : Nat) :
    convexity args position = convexity args' position := by
  rw [Convert.convexity, Convert.convexity, h.given hname]

theorem offsetAmount (h : AgreeOn names args args') (hradius : "r" ∈ names)
    (hdelta : "delta" ∈ names) : offsetAmount args = offsetAmount args' := by
  rw [Convert.offsetAmount, Convert.offsetAmount, h.given hradius, h.named "delta" hdelta]

end AgreeOn

/-! ## §2 The lookups of a module -/

/-- A shape reads nothing but the documented parameters and the positional arguments. -/
theorem primitive?_congr (h : AgreeOn (documented name) args args') :
    primitive? name args = primitive? name args' := by
  -- Each shape asks for names of its own, and all of them are in its row of the table.
  unfold primitive?
  split
  all_goals
    simp only [documented] at h
    simp [h.given, h.named, h.roundRadius, h.convexity]

/-- A transform reads nothing but the documented parameters and the positional arguments. -/
theorem transform?_congr (h : AgreeOn (documented name) args args') :
    transform? name args = transform? name args' := by
  unfold transform?
  split
  all_goals
    simp only [documented] at h
    simp [h.given, h.named, h.offsetAmount, h.convexity]

/-! ## §3 Where arguments stand -/

/-- The two lists have the same positional arguments in the same order, and the same arguments of
each name in the same order.  They may differ in how the names are interleaved with one another and
with the positional arguments. -/
structure Interleaved (args args' : List Argument) : Prop where
  positional : args.filter Argument.isPositional = args'.filter Argument.isPositional
  named : ∀ name, args.filter (isNamed name) = args'.filter (isNamed name)

namespace Interleaved

theorem trans (h : Interleaved args args') (h' : Interleaved args' args'') :
    Interleaved args args'' :=
  ⟨h.positional.trans h'.positional, fun name => (h.named name).trans (h'.named name)⟩

theorem cons (h : Interleaved args args') (a : Argument) :
    Interleaved (a :: args) (a :: args') := by
  constructor
  · simp [List.filter_cons, h.positional]
  · intro name
    simp [List.filter_cons, h.named name]

/-- Two neighbours of different names change places; one of them may be positional. -/
theorem swap {a b : Argument} (h : a.name ≠ b.name) (args : List Argument) :
    Interleaved (a :: b :: args) (b :: a :: args) := by
  constructor
  · -- Not both of them are positional.
    have hone : a.isPositional = false ∨ b.isPositional = false := by
      cases ha : a.name <;> cases hb : b.name <;> simp_all [Argument.isPositional]
    rcases hone with hone | hone <;> simp [List.filter_cons, hone]
  · intro name
    -- Not both of them have the name.
    have hone : isNamed name a = false ∨ isNamed name b = false := by
      by_cases ha : a.name = some name
      · right
        simp [isNamed, ← ha, h.symm]
      · left
        simp [isNamed, ha]
    rcases hone with hone | hone <;> simp [List.filter_cons, hone]

/-- Lists that differ in the interleaving give the same value under every name, and at every
position. -/
theorem agreeOn (h : Interleaved args args') (names : List String) : AgreeOn names args args' :=
  .of_filter (fun name _ => h.named name) h.positional

end Interleaved

/-- Named arguments may stand anywhere: what a module makes of its arguments does not depend on how
those of different names are interleaved, with one another and with the positional ones. -/
theorem lookups_interleaved (h : Interleaved args args') (module : String) :
    primitive? module args = primitive? module args' ∧
      transform? module args = transform? module args' := by
  have hagree := h.agreeOn (documented module)
  exact ⟨primitive?_congr hagree, transform?_congr hagree⟩

/-! A cylinder with two radii, one of them as half a diameter, before and behind its height. -/

/-- The height, which has no name. -/
def heightArgument : Argument := ⟨none, .number 10, {}⟩

/-- The bottom radius. -/
def bottomArgument : Argument := ⟨some "r1", .number 3, {}⟩

/-- The diameter that both ends share. -/
def diameterArgument : Argument := ⟨some "d", .number 8, {}⟩

theorem lookups_interleaved_cylinder :
    Interleaved [heightArgument, bottomArgument, diameterArgument]
        [diameterArgument, bottomArgument, heightArgument] ∧
      primitive? "cylinder" [heightArgument, bottomArgument, diameterArgument] =
        primitive? "cylinder" [diameterArgument, bottomArgument, heightArgument] ∧
      transform? "cylinder" [heightArgument, bottomArgument, diameterArgument] =
        transform? "cylinder" [diameterArgument, bottomArgument, heightArgument] := by
  have hfront : Interleaved [heightArgument, bottomArgument, diameterArgument]
      [bottomArgument, heightArgument, diameterArgument] :=
    .swap (by simp [heightArgument, bottomArgument]) _
  have hmiddle : Interleaved [bottomArgument, heightArgument, diameterArgument]
      [bottomArgument, diameterArgument, heightArgument] :=
    .cons (.swap (by simp [heightArgument, diameterArgument]) _) _
  have hback : Interleaved [bottomArgument, diameterArgument, heightArgument]
      [diameterArgument, bottomArgument, heightArgument] :=
    .swap (by simp [bottomArgument, diameterArgument]) _
  have hinterleaved := (hfront.trans hmiddle).trans hback
  exact ⟨hinterleaved, lookups_interleaved hinterleaved "cylinder"⟩

/-! ## §4 Arguments without an effect -/

/-- The arguments that a module is not told to ignore: the positional ones, those it documents, and
the special variables. -/
def heeded (module : String) (args : List Argument) : List Argument :=
  args.filter fun a => !a.name.any (ignored module args).contains

theorem mem_ignored {module : String} :
    name ∈ ignored module args ↔
      (∃ a ∈ args, a.name = some name) ∧ isIgnoredName module name = true := by
  simp [ignored]

/-- A name that the module documents is not ignored, wherever it comes from. -/
theorem isIgnoredName_of_mem_documented {module : String} (h : name ∈ documented module) :
    isIgnoredName module name = false := by
  simp [isIgnoredName, h]

/-- What is left out has a name, and the module does not document it. -/
theorem heeded_agreeOn (module : String) (args : List Argument) :
    AgreeOn (documented module) (heeded module args) args := by
  apply AgreeOn.of_filter
  · intro name hname
    rw [heeded, List.filter_filter]
    apply List.filter_congr
    intro a _
    cases hnamed : isNamed name a with
    | false => rfl
    | true =>
      have hname : ¬ name ∈ ignored module args := by
        simp [mem_ignored, isIgnoredName_of_mem_documented hname]
      have ha : a.name = some name := by simpa [isNamed] using hnamed
      simp [ha, hname]
  · rw [heeded, List.filter_filter]
    apply List.filter_congr
    intro a _
    cases ha : a.name <;> simp [Argument.isPositional, ha]

theorem ignored_heeded (module : String) (args : List Argument) :
    ignored module (heeded module args) = [] := by
  apply List.eq_nil_iff_forall_not_mem.mpr
  intro name hname
  obtain ⟨⟨a, ha, hnamed⟩, hignored⟩ := mem_ignored.mp hname
  obtain ⟨ha, hheeded⟩ := List.mem_filter.mp ha
  have hmem : name ∈ ignored module args := mem_ignored.mpr ⟨⟨a, ha, hnamed⟩, hignored⟩
  simp [hnamed, hmem] at hheeded

/-- An argument that is told to be ignored is ignored: without all of those, the module makes the
same of the rest, and nothing is left to be ignored. -/
theorem lookups_heeded (module : String) (args : List Argument) :
    primitive? module (heeded module args) = primitive? module args ∧
      transform? module (heeded module args) = transform? module args ∧
      ignored module (heeded module args) = [] := by
  have hagree := heeded_agreeOn module args
  exact ⟨primitive?_congr hagree, transform?_congr hagree, ignored_heeded module args⟩

end Scad.Convert
