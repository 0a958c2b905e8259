import Mathlib.Data.List.Forall2
import Scad.Convert.Conversion
import Scad.Proofs.Subtree

/-!
# Outcomes of Conversions

What can be said about the outcome of a conversion without knowing which outcome it is.

* `Fault.PointsInto` — a fault shows a node of a subtree, and its cause a node inside that one.
* `Conversion.Meets` — every result satisfies a predicate, and every fault points into a subtree.

Each operation of `Conversion` has one lemma here, so a construct is judged by judging what it is
composed of.
-/

namespace Scad

/-! ## §1 Faults -/

/-- A fault shows a node `m` in the subtree of `n`, and its cause a node in the subtree of `m`. -/
inductive Fault.PointsInto : Node → Fault → Prop where
  | shows {m n : Node} {f : Fault} (hm : m.Within n) (htag : f.tag = m.tag)
      (htext : f.text = m.text) (hspan : f.span = m.span)
      (hcause : ∀ inner, f.cause = some inner → Fault.PointsInto m inner) :
      Fault.PointsInto n f

namespace Fault.PointsInto

variable {m n : Node} {f : Fault}

/-- A larger tree holds everything a smaller one does. -/
theorem mono (h : PointsInto m f) (hmn : m.Within n) : PointsInto n f := by
  cases h with
  | shows hm htag htext hspan hcause => exact .shows (hm.trans hmn) htag htext hspan hcause

theorem of_fault (problem : Problem) (n : Node) (settings : Settings) :
    PointsInto n (problem.fault n settings) :=
  .shows (.refl n) rfl rfl rfl fun _ h => nomatch h

theorem of_bareFault (problem : Problem) (n : Node) : PointsInto n (problem.bareFault n) :=
  .shows (.refl n) rfl rfl rfl fun _ h => nomatch h

/-- A fault of the same tree may be the cause of another fault at its root. -/
theorem of_causedBy (problem : Problem) (settings : Settings) {inner : Fault}
    (h : PointsInto n inner) : PointsInto n ((problem.fault n settings).causedBy inner) := by
  refine .shows (.refl n) rfl rfl rfl fun f hf => ?_
  obtain rfl : inner = f := Option.some.inj hf
  exact h

/-- A fault stands where some node of the tree stands. -/
theorem exists_span (h : PointsInto n f) : ∃ m : Node, m.Within n ∧ f.span = m.span := by
  cases h with
  | shows hm _ _ hspan _ => exact ⟨_, hm, hspan⟩

end Fault.PointsInto

/-! ## §2 Results and faults together -/

/-- Every result of `x` satisfies `Q`, and every fault of `x` points into the subtree of `n`. -/
def Conversion.Meets {α : Type} (n : Node) (Q : α → Prop) (x : Conversion α) : Prop :=
  ∀ settings, match x.result settings with
    | .ok a => Q a
    | .error f => f.PointsInto n

namespace Conversion.Meets

variable {α β : Type} {m n : Node} {Q : α → Prop} {R : β → Prop} {x : Conversion α}

theorem ok (h : x.Meets n Q) {settings : Settings} {a : α} (ha : x.result settings = .ok a) :
    Q a := by
  simpa [ha] using h settings

theorem error (h : x.Meets n Q) {settings : Settings} {f : Fault}
    (hf : x.result settings = .error f) : f.PointsInto n := by
  simpa [hf] using h settings

theorem imp {Q' : α → Prop} (h : x.Meets n Q) (hQ : ∀ a, Q a → Q' a) : x.Meets n Q' := by
  intro settings
  have := h settings
  split <;> simp_all

theorem mono (h : x.Meets m Q) (hmn : m.Within n) : x.Meets n Q := by
  intro settings
  have := h settings
  split at this
  · exact this
  · exact this.mono hmn

/-! One lemma for each operation. -/

theorem pure {a : α} (h : Q a) : (Pure.pure a : Conversion α).Meets n Q :=
  fun _ => h

theorem bind {f : α → Conversion β} (hx : x.Meets n Q) (hf : ∀ a, Q a → (f a).Meets n R) :
    (x >>= f).Meets n R := by
  intro settings
  have hx := hx settings
  rw [result_bind]
  cases h : x.result settings with
  | error f => simpa [h] using hx
  | ok a => exact hf a (by simpa [h] using hx) settings

theorem map {f : α → β} (hx : x.Meets n fun a => R (f a)) : (f <$> x).Meets n R := by
  rw [← bind_pure_comp]
  exact hx.bind fun _ h => pure h

theorem fail {problem : Problem} (h : m.Within n) :
    (Conversion.fail problem m : Conversion α).Meets n Q :=
  fun settings => (Fault.PointsInto.of_fault problem m settings).mono h

/-- Nothing comes behind a failure. -/
theorem fail_bind {problem : Problem} {f : α → Conversion β} (h : m.Within n) :
    (Conversion.fail problem m >>= f).Meets n R :=
  (fail (Q := fun _ => False) h).bind fun _ hfalse => hfalse.elim

theorem failBare {problem : Problem} (h : m.Within n) :
    (Conversion.failBare problem m : Conversion α).Meets n Q :=
  fun _ => (Fault.PointsInto.of_bareFault problem m).mono h

theorem require {value : Option α} {problem : Problem} (hm : m.Within n)
    (h : ∀ a, value = some a → Q a) : (Conversion.require value problem m).Meets n Q := by
  cases value with
  | some a => exact pure (h a rfl)
  | none => exact fail hm

/-- A part that has to be there is where the lookup finds it. -/
theorem requirePart {x : Option n.Part} {problem : Problem} (hx : n.Finds x) :
    (Conversion.require x problem n).Meets n fun p => p.node.Within n :=
  require (.refl n) hx

/-- What has to be there and is no part leaves nothing to say. -/
theorem requireAny {value : Option α} {problem : Problem} (hm : m.Within n) :
    (Conversion.require value problem m).Meets n fun _ => True :=
  require hm fun _ _ => trivial

theorem ofExcept {r : Except Fault α} (hok : ∀ a, r = .ok a → Q a)
    (herror : ∀ f, r = .error f → f.PointsInto n) : (Conversion.ofExcept r).Meets n Q := by
  intro settings
  rw [result_ofExcept]
  cases r with
  | ok a => exact hok a rfl
  | error f => exact herror f rfl

theorem remark {r : Remark} : (Conversion.remark r m).Meets n fun _ => True :=
  fun _ => trivial

theorem tell {event : Event} : (Conversion.tell event).Meets n fun _ => True :=
  fun _ => trivial

/-- A fault that is blamed on the root of the subtree it points into points there still. -/
theorem blame {problem : Fault → Problem} (h : x.Meets n Q) : (x.blame problem n).Meets n Q := by
  intro settings
  have h := h settings
  rw [result_blame]
  split at h
  · next hx => simpa [hx] using h
  · next hx => simpa [hx] using Fault.PointsInto.of_causedBy _ settings h

/-- A settled conversion does not fail any more. -/
theorem settle (h : x.Meets m Q) :
    x.settle.Meets n fun r => (∀ a, r = .ok a → Q a) ∧ ∀ f, r = .error f → f.PointsInto m :=
  fun _ => ⟨fun _ ha => h.ok ha, fun _ hf => h.error hf⟩

/-! A conversion that may answer `none` says something about what it answers otherwise. -/

theorem pure_some {a : α} (h : Q a) :
    (Pure.pure (some a) : Conversion (Option α)).Meets n fun r => ∀ a, r = some a → Q a :=
  pure fun _ ha => Option.some.inj ha ▸ h

theorem pure_none :
    (Pure.pure none : Conversion (Option α)).Meets n fun r => ∀ a, r = some a → Q a :=
  pure fun _ ha => nomatch ha

theorem map_some (h : x.Meets n Q) :
    (some <$> x).Meets n fun r => ∀ a, r = some a → Q a :=
  map (h.imp fun _ ha _ ha' => Option.some.inj ha' ▸ ha)

/-- Conversions in a row: the results correspond to what was converted. -/
theorem mapM {γ : Type} {f : γ → Conversion β} {S : γ → β → Prop} {l : List γ}
    (h : ∀ c ∈ l, (f c).Meets n (S c)) : (l.mapM f).Meets n (List.Forall₂ S l) := by
  induction l with
  | nil => exact pure .nil
  | cons c l ih =>
    rw [List.mapM_cons]
    refine (h c List.mem_cons_self).bind fun b hb => ?_
    refine (ih fun c hc => h c (List.mem_cons_of_mem _ hc)).bind fun bs hbs => ?_
    exact pure (.cons hb hbs)

/-- Every result in a row is the result of something. -/
theorem exists_of_forall₂ {γ : Type} {S : γ → β → Prop} {l : List γ} {bs : List β}
    (h : List.Forall₂ S l bs) : ∀ b ∈ bs, ∃ c ∈ l, S c b := by
  induction h with
  | nil => exact fun _ h => nomatch h
  | cons hb _ ih =>
    refine List.forall_mem_cons.mpr ⟨⟨_, List.mem_cons_self, hb⟩, fun b hb => ?_⟩
    obtain ⟨c, hc, h⟩ := ih b hb
    exact ⟨c, List.mem_cons_of_mem _ hc, h⟩

/-- Conversions in a row that all establish the same. -/
theorem mapM_mem {γ : Type} {f : γ → Conversion β} {l : List γ}
    (h : ∀ c ∈ l, (f c).Meets n R) : (l.mapM f).Meets n fun bs => ∀ b ∈ bs, R b := by
  refine (mapM (S := fun _ => R) h).imp fun bs hbs b hb => ?_
  obtain ⟨_, -, h⟩ := exists_of_forall₂ hbs b hb
  exact h

/-- Conversions in a row that each add to a list. -/
theorem mapM_flatten {γ : Type} {f : γ → Conversion (List β)} {l : List γ}
    (h : ∀ c ∈ l, (f c).Meets n fun bs => ∀ b ∈ bs, R b) :
    (l.mapM f >>= fun groups => Pure.pure groups.flatten).Meets n fun bs => ∀ b ∈ bs, R b := by
  refine (mapM_mem h).bind fun groups hgroups => pure fun b hb => ?_
  obtain ⟨group, hgroup, hb⟩ := List.mem_flatten.mp hb
  exact hgroups group hgroup b hb

end Conversion.Meets

/-! ## §3 Computations that may give up -/

/-- Every value of `x` satisfies `Q`, and every fault of `x` points into the subtree of `n`;
nothing is said where `x` gives up. -/
def OptionMeets {α : Type} (n : Node) (Q : α → Prop) (x : OptionT (Except Fault) α) : Prop :=
  match x.run with
  | .ok (some a) => Q a
  | .ok none => True
  | .error f => f.PointsInto n

namespace OptionMeets

variable {α β : Type} {m n : Node} {Q : α → Prop} {R : β → Prop} {x : OptionT (Except Fault) α}

theorem pure {a : α} (h : Q a) : OptionMeets n Q (Pure.pure a) :=
  h

theorem failure : OptionMeets n Q failure :=
  trivial

theorem ofOption {value : Option α} (h : ∀ a, value = some a → Q a) :
    OptionMeets n Q (OptionT.mk (Pure.pure value)) := by
  cases value with
  | none => trivial
  | some a => exact h a rfl

theorem lift {r : Except Fault α} (hok : ∀ a, r = .ok a → Q a)
    (herror : ∀ f, r = .error f → f.PointsInto n) : OptionMeets n Q (liftM r) := by
  cases r with
  | ok a => exact hok a rfl
  | error f => exact herror f rfl

theorem mono (h : OptionMeets m Q x) (hmn : m.Within n) : OptionMeets n Q x := by
  unfold OptionMeets at h ⊢
  split at h
  · exact h
  · trivial
  · exact h.mono hmn

theorem bind {f : α → OptionT (Except Fault) β} (hx : OptionMeets n Q x)
    (hf : ∀ a, Q a → OptionMeets n R (f a)) : OptionMeets n R (x >>= f) := by
  unfold OptionMeets at hx ⊢
  rw [OptionT.run_bind]
  rcases hrun : x.run with e | _ | a <;> rw [hrun] at hx
  · exact hx
  · trivial
  · exact hf a hx

theorem mapM {γ : Type} {f : γ → OptionT (Except Fault) β} {l : List γ}
    (h : ∀ c ∈ l, OptionMeets n R (f c)) :
    OptionMeets n (fun bs => ∀ b ∈ bs, R b) (l.mapM f) := by
  induction l with
  | nil => exact pure (List.forall_mem_nil R)
  | cons c l ih =>
    rw [List.mapM_cons]
    refine (h c List.mem_cons_self).bind fun b hb => ?_
    refine (ih fun c hc => h c (List.mem_cons_of_mem _ hc)).bind fun bs hbs => ?_
    exact pure (List.forall_mem_cons.mpr ⟨hb, hbs⟩)

/-- What was computed without a conversion, inside one. -/
theorem meets (h : OptionMeets n Q x) :
    (Conversion.ofExcept x.run).Meets n fun r => ∀ a, r = some a → Q a := by
  unfold OptionMeets at h
  refine .ofExcept (fun r hr a ha => ?_) fun f hf => ?_
  · subst ha
    simpa [hr] using h
  · simpa [hf] using h

end OptionMeets

end Scad
