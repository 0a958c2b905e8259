import Scad.Convert.Problem

/-!
# Conversions

A conversion reads the settings, and ends with a result or a fault, together with the events on
the way there.  Events are never lost: those before a fault are part of the answer.

Every conversion of a syntax node may also answer `none`, which says that the node stands for
nothing, or for nothing that the conversion is about.
-/

namespace Scad

/-! ## §1 The monad -/

/-- A computation that reads settings, may fail with a fault, and lists its events. -/
def Conversion (α : Type) : Type :=
  Settings → Except Fault α × List Event

namespace Conversion

variable {α β : Type}

/-- The result and the events under some settings. -/
def run (x : Conversion α) (settings : Settings) : Except Fault α × List Event :=
  x settings

/-- The result alone. -/
def result (x : Conversion α) (settings : Settings) : Except Fault α :=
  (x settings).1

/-- The events alone. -/
def events (x : Conversion α) (settings : Settings) : List Event :=
  (x settings).2

instance : Monad Conversion where
  pure a := fun _ => (.ok a, [])
  bind x f := fun settings =>
    match x settings with
    -- A fault ends the computation, and the events before it stay.
    | (.error e, events) => (.error e, events)
    | (.ok a, events) =>
      let next := f a settings
      (next.1, events ++ next.2)

instance : LawfulMonad Conversion := LawfulMonad.mk' Conversion
  (fun x => by
    funext settings
    show (match x settings with
      | (.error e, events) => (.error e, events)
      | (.ok a, events) => (.ok a, events ++ [])) = x settings
    rcases x settings with ⟨_ | _, _⟩ <;> simp)
  (fun _ _ => rfl)
  (fun x f g => by
    funext settings
    simp only [bind]
    rcases x settings with ⟨_ | a, _⟩
    · rfl
    · rcases h : f a settings with ⟨_ | _, _⟩ <;> simp [h])

instance : Inhabited (Conversion α) :=
  ⟨fun _ => (.error default, [])⟩

/-! ## §2 Operations -/

/-- The result of a computation without events. -/
def ofExcept (result : Except Fault α) : Conversion α :=
  fun _ => (result, [])

/-- Fails at a node, quoting the start of its text. -/
def fail (problem : Problem) (n : Node) : Conversion α :=
  fun settings => (.error (problem.fault n settings), [])

/-- Fails at a node, without a quotation. -/
def failBare (problem : Problem) (n : Node) : Conversion α :=
  fun _ => (.error (problem.bareFault n), [])

/-- The value, or a failure where there is none. -/
def require (value : Option α) (problem : Problem) (n : Node) : Conversion α :=
  match value with
  | some a => pure a
  | none => fail problem n

/-- Lists an event. -/
def tell (event : Event) : Conversion Unit :=
  fun _ => (.ok (), [event])

/-- Remarks on a node. -/
def remark (r : Remark) (n : Node) : Conversion Unit :=
  tell (r.event n)

/-- Adds a fault at a node to every fault of a conversion, which becomes its cause. -/
def blame (x : Conversion α) (problem : Fault → Problem) (n : Node) : Conversion α :=
  fun settings =>
    match x settings with
    | (.error inner, events) => (.error (((problem inner).fault n settings).causedBy inner), events)
    | (.ok a, events) => (.ok a, events)

/-- The fault of a conversion as a value. -/
def settle (x : Conversion α) : Conversion (Except Fault α) :=
  fun settings => (.ok (x settings).1, (x settings).2)

/-! ## §3 What a run of the operations is -/

@[simp] theorem run_pure (a : α) (settings : Settings) :
    (pure a : Conversion α).run settings = (.ok a, []) := rfl

theorem run_bind (x : Conversion α) (f : α → Conversion β) (settings : Settings) :
    (x >>= f).run settings =
      match x.run settings with
      | (.error e, events) => (.error e, events)
      | (.ok a, events) => (((f a).run settings).1, events ++ ((f a).run settings).2) := rfl

@[simp] theorem run_fail (problem : Problem) (n : Node) (settings : Settings) :
    (fail problem n : Conversion α).run settings = (.error (problem.fault n settings), []) := rfl

@[simp] theorem run_failBare (problem : Problem) (n : Node) (settings : Settings) :
    (failBare problem n : Conversion α).run settings = (.error (problem.bareFault n), []) := rfl

@[simp] theorem run_ofExcept (result : Except Fault α) (settings : Settings) :
    (ofExcept result).run settings = (result, []) := rfl

@[simp] theorem run_tell (event : Event) (settings : Settings) :
    (tell event).run settings = (.ok (), [event]) := rfl

@[simp] theorem run_settle (x : Conversion α) (settings : Settings) :
    x.settle.run settings = (.ok (x.run settings).1, (x.run settings).2) := rfl

/-! The result alone passes through every operation that only lists events. -/

theorem result_eq (x : Conversion α) (settings : Settings) :
    x.result settings = (x.run settings).1 := rfl

@[simp] theorem result_pure (a : α) (settings : Settings) :
    (pure a : Conversion α).result settings = .ok a := rfl

@[simp] theorem result_bind (x : Conversion α) (f : α → Conversion β) (settings : Settings) :
    (x >>= f).result settings =
      match x.result settings with
      | .error e => .error e
      | .ok a => (f a).result settings := by
  rw [result_eq, run_bind, result_eq]
  rcases x.run settings with ⟨_ | _, _⟩ <;> rfl

@[simp] theorem result_map (f : α → β) (x : Conversion α) (settings : Settings) :
    (f <$> x).result settings =
      match x.result settings with
      | .error e => .error e
      | .ok a => .ok (f a) := by
  rw [← bind_pure_comp, result_bind]
  rfl

@[simp] theorem result_fail (problem : Problem) (n : Node) (settings : Settings) :
    (fail problem n : Conversion α).result settings = .error (problem.fault n settings) := rfl

@[simp] theorem result_failBare (problem : Problem) (n : Node) (settings : Settings) :
    (failBare problem n : Conversion α).result settings = .error (problem.bareFault n) := rfl

@[simp] theorem result_ofExcept (r : Except Fault α) (settings : Settings) :
    (ofExcept r).result settings = r := rfl

@[simp] theorem result_tell (event : Event) (settings : Settings) :
    (tell event).result settings = .ok () := rfl

@[simp] theorem result_remark (r : Remark) (n : Node) (settings : Settings) :
    (remark r n).result settings = .ok () := rfl

@[simp] theorem result_settle (x : Conversion α) (settings : Settings) :
    x.settle.result settings = .ok (x.result settings) := rfl

@[simp] theorem result_require_some (a : α) (problem : Problem) (n : Node) (settings : Settings) :
    (require (some a) problem n).result settings = .ok a := rfl

@[simp] theorem result_require_none (problem : Problem) (n : Node) (settings : Settings) :
    (require (none : Option α) problem n).result settings =
      .error (problem.fault n settings) := rfl

theorem result_blame (x : Conversion α) (problem : Fault → Problem) (n : Node)
    (settings : Settings) :
    (x.blame problem n).result settings =
      match x.result settings with
      | .error inner => .error (((problem inner).fault n settings).causedBy inner)
      | .ok a => .ok a := by
  simp only [blame, result]
  rcases x settings with ⟨_ | _, _⟩ <;> rfl

/-! The events alone. -/

/-- Without a result there is no second step, and no event of it. -/
theorem events_bind (x : Conversion α) (f : α → Conversion β) (settings : Settings) :
    (x >>= f).events settings =
      x.events settings ++ match x.result settings with
        | .error _ => []
        | .ok a => (f a).events settings := by
  show ((x >>= f).run settings).2 = (x.run settings).2 ++ _
  rw [run_bind, result_eq]
  rcases x.run settings with ⟨_ | _, _⟩
  · exact (List.append_nil _).symm
  · rfl

theorem events_blame (x : Conversion α) (problem : Fault → Problem) (n : Node)
    (settings : Settings) : (x.blame problem n).events settings = x.events settings := by
  simp only [blame, events]
  rcases x settings with ⟨_ | _, _⟩ <;> rfl

end Conversion

/-! ## §4 Conversions of parts -/

/-- A conversion of whatever stands inside a node. -/
abbrev Converter (n : Node) (α : Type) : Type :=
  n.Part → Conversion (Option α)

/-- The conversion of what stands inside a part. -/
def Converter.inside {n : Node} {α : Type} (convert : Converter n α) (p : n.Part) :
    Converter p.node α :=
  fun q => convert (p.within q)

end Scad
