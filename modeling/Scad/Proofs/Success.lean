import Mathlib.Data.List.Forall2
import Scad.Convert.Conversion

/-!
# Conversions that Succeed

What is known of the steps of a conversion once it has ended with a result.

* `exists_of_bind_ok`, `mapM_ok_iff` — a conversion in steps succeeds where each of its steps does.
* `Conversion.Ensures` — every result satisfies a predicate; nothing is said about faults.

Each operation has one lemma of either kind.
-/

namespace Scad.Conversion

variable {α β : Type} {settings : Settings}

/-! ## §1 The steps of a success -/

/-- A conversion in two steps ends with a result where both steps do. -/
theorem exists_of_bind_ok {x : Conversion α} {f : α → Conversion β} {b : β}
    (h : (x >>= f).result settings = .ok b) :
    ∃ a, x.result settings = .ok a ∧ (f a).result settings = .ok b := by
  rw [result_bind] at h
  cases hx : x.result settings with
  | error e => simp [hx] at h
  | ok a => exact ⟨a, rfl, by simpa [hx] using h⟩

theorem exists_of_map_ok {x : Conversion α} {f : α → β} {b : β}
    (h : (f <$> x).result settings = .ok b) : ∃ a, x.result settings = .ok a ∧ f a = b := by
  rw [← bind_pure_comp] at h
  obtain ⟨a, ha, h⟩ := exists_of_bind_ok h
  exact ⟨a, ha, Except.ok.inj h⟩

/-- What has to be there was there. -/
theorem eq_some_of_require_ok {value : Option α} {problem : Problem} {n : Node} {a : α}
    (h : (require value problem n).result settings = .ok a) : value = some a := by
  cases value with
  | none => simp at h
  | some b => simpa using h

theorem result_mapM {f : α → Conversion β} {g : α → β} (l : List α)
    (h : ∀ a ∈ l, (f a).result settings = .ok (g a)) :
    (l.mapM f).result settings = .ok (l.map g) := by
  induction l with
  | nil => rfl
  | cons a l ih =>
    rw [List.mapM_cons, result_bind, h a List.mem_cons_self]
    simp [ih fun a ha => h a (List.mem_cons_of_mem _ ha)]

/-- Conversions in a row succeed where each of them does, with its result at its place. -/
theorem mapM_ok_iff {f : α → Conversion β} {l : List α} {bs : List β} :
    (l.mapM f).result settings = .ok bs ↔
      List.Forall₂ (fun a b => (f a).result settings = .ok b) l bs := by
  induction l generalizing bs with
  | nil =>
    rw [List.mapM_nil, result_pure, List.forall₂_nil_left_iff]
    simp [eq_comm]
  | cons a l ih =>
    rw [List.mapM_cons]
    constructor
    · intro h
      obtain ⟨b, hb, h⟩ := exists_of_bind_ok h
      obtain ⟨rest, hrest, h⟩ := exists_of_bind_ok h
      obtain rfl : b :: rest = bs := Except.ok.inj h
      exact .cons hb (ih.mp hrest)
    · rintro (_ | ⟨hb, hrest⟩)
      simp [hb, ih.mpr hrest]

/-- None of them fails. -/
theorem exists_of_mapM_ok {f : α → Conversion β} {l : List α} {bs : List β}
    (h : (l.mapM f).result settings = .ok bs) : ∀ a ∈ l, ∃ b, (f a).result settings = .ok b := by
  have hresults := mapM_ok_iff.mp h
  clear h
  induction hresults with
  | nil => exact List.forall_mem_nil _
  | cons hb _ ih => exact List.forall_mem_cons.mpr ⟨⟨_, hb⟩, ih⟩

/-! ## §2 What every success ensures -/

/-- Every result of the conversion satisfies `Q`. -/
def Ensures (Q : α → Prop) (x : Conversion α) : Prop :=
  ∀ settings a, x.result settings = .ok a → Q a

namespace Ensures

variable {Q : α → Prop} {R : β → Prop} {x : Conversion α}

theorem imp {Q' : α → Prop} (h : x.Ensures Q) (hQ : ∀ a, Q a → Q' a) : x.Ensures Q' :=
  fun settings a ha => hQ a (h settings a ha)

theorem pure {a : α} (h : Q a) : (Pure.pure a : Conversion α).Ensures Q := by
  intro settings b hb
  obtain rfl : a = b := Except.ok.inj hb
  exact h

theorem bind {f : α → Conversion β} (hx : x.Ensures Q) (hf : ∀ a, Q a → (f a).Ensures R) :
    (x >>= f).Ensures R := by
  intro settings b h
  obtain ⟨a, ha, h⟩ := exists_of_bind_ok h
  exact hf a (hx settings a ha) settings b h

/-- A result is a result under some settings. -/
theorem of_result : x.Ensures fun a => ∃ settings, x.result settings = .ok a :=
  fun settings _ ha => ⟨settings, ha⟩

/-- A step of which nothing has to be known. -/
theorem bind_any {f : α → Conversion β} (hf : ∀ a, (f a).Ensures R) : (x >>= f).Ensures R :=
  bind (Q := fun _ => True) (fun _ _ _ => trivial) fun a _ => hf a

theorem map {f : α → β} (hx : x.Ensures fun a => R (f a)) : (f <$> x).Ensures R := by
  intro settings b h
  obtain ⟨a, ha, rfl⟩ := exists_of_map_ok h
  exact hx settings a ha

theorem fail {problem : Problem} {n : Node} :
    (Conversion.fail problem n : Conversion α).Ensures Q :=
  fun _ _ h => nomatch h

theorem failBare {problem : Problem} {n : Node} :
    (Conversion.failBare problem n : Conversion α).Ensures Q :=
  fun _ _ h => nomatch h

/-- Nothing comes behind a failure. -/
theorem fail_bind {problem : Problem} {n : Node} {f : α → Conversion β} :
    (Conversion.fail problem n >>= f).Ensures R :=
  bind (Q := fun _ => False) fail fun _ h => h.elim

theorem require {value : Option α} {problem : Problem} {n : Node} :
    (Conversion.require value problem n).Ensures fun a => value = some a :=
  fun _ _ h => eq_some_of_require_ok h

/-- A blamed conversion has the results that it had. -/
theorem blame {problem : Fault → Problem} {n : Node} (h : x.Ensures Q) :
    (x.blame problem n).Ensures Q := by
  intro settings a ha
  rw [result_blame] at ha
  split at ha
  · cases ha
  · next b hb =>
    obtain rfl : b = a := Except.ok.inj ha
    exact h settings b hb

/-- Conversions in a row: the results correspond to what was converted. -/
theorem mapM {f : α → Conversion β} {S : α → β → Prop} {l : List α}
    (h : ∀ a ∈ l, (f a).Ensures (S a)) : (l.mapM f).Ensures (List.Forall₂ S l) := by
  intro settings bs hbs
  have hresults := mapM_ok_iff.mp hbs
  induction hresults with
  | nil => exact .nil
  | cons hb hrest ih =>
    obtain ⟨ha, hl⟩ := List.forall_mem_cons.mp h
    exact .cons (ha settings _ hb) (ih hl (mapM_ok_iff.mpr hrest))

end Ensures

end Scad.Conversion
