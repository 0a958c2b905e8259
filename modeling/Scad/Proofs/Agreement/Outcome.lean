import Scad.Proofs.Agreement.Correspondence

/-!
# Conversions that Agree

Two conversions, each under its own settings, agree where their results correspond, or their faults
do, and where their reports do, if those are compared at all.

Each operation of `Conversion` has one lemma here, so two conversions are compared by comparing what
they are composed of.
-/

namespace Scad.Correspondence

variable {C : Correspondence} {α β γ δ : Type} {S : α → β → Prop} {T : γ → δ → Prop} {n n' : Node}

/-! ## §1 Faults and reports -/

/-- The faults say the same of corresponding nodes. -/
def SameFault (C : Correspondence) (f f' : Fault) : Prop :=
  f.retell C.shift C.reword = f'.retell {} C.reword

/-- The problems have one code, and messages that are compared as one. -/
structure SameProblem (C : Correspondence) (p p' : Problem) : Prop where
  code : p'.code = p.code
  wording : C.reword p.wording = C.reword p'.wording

/-- The reports say the same of corresponding places, and a report does have a place. -/
structure SameReport (C : Correspondence) (r r' : Report) : Prop where
  told : r.retell C.shift C.reword = r'.retell {} C.reword
  placed : r.span.isSome

/-- The events amount to the same reports, where reports are compared. -/
def Echoes (C : Correspondence) (es es' : List Event) : Prop :=
  C.Listens → List.Forall₂ C.SameReport (Handler.collector.reports es)
    (Handler.collector.reports es')

theorem SameProblem.refl (p : Problem) : C.SameProblem p p :=
  ⟨rfl, rfl⟩

theorem SameFault.message {f f' : Fault} (h : C.SameFault f f') :
    C.reword f.message = C.reword f'.message := by
  have hmessage := congrArg Fault.message h
  rw [Fault.message_retell, Fault.message_retell] at hmessage
  exact hmessage

/-- The fault of a role has the message of the fault inside it. -/
theorem SameFault.invalid {f f' : Fault} (h : C.SameFault f f') (role : Role) :
    C.SameProblem (.invalid role f.message) (.invalid role f'.message) :=
  ⟨rfl, C.invalid role h.message⟩

theorem sameFault_fault {p p' : Problem} (h : C.Related n n') (hp : C.SameProblem p p') :
    C.SameFault (p.fault n C.left) (p'.fault n' C.right) := by
  have hn := C.alike h
  have hwords := C.quoting n.text hp.wording
  simp only [SameFault, Problem.fault, Fault.retell_on, hp.code, hn.tag, hn.text, hn.span, hwords,
    Span.shift_zero]

theorem sameFault_bareFault (p : Problem) (h : C.Related n n') :
    C.SameFault (p.bareFault n) (p.bareFault n') := by
  have hn := C.alike h
  simp only [SameFault, Problem.bareFault, Fault.retell_on, hn.tag, hn.text, hn.span,
    Span.shift_zero]

theorem SameFault.causedBy {p p' : Problem} {f f' : Fault} (h : C.Related n n')
    (hp : C.SameProblem p p') (hf : C.SameFault f f') :
    C.SameFault ((p.fault n C.left).causedBy f) ((p'.fault n' C.right).causedBy f') := by
  have houter := sameFault_fault h hp
  simp only [SameFault, Problem.fault, Fault.retell_on, Fault.mk.injEq] at houter
  simp only [SameFault] at hf
  simp only [SameFault, Fault.retell_causedBy, Problem.fault, Fault.on, hf, Fault.mk.injEq]
  exact ⟨houter.1, houter.2.1, houter.2.2.1, houter.2.2.2.1, houter.2.2.2.2.1, trivial⟩

theorem Echoes.append {es es' fs fs' : List Event} (h : C.Echoes es es') (hf : C.Echoes fs fs') :
    C.Echoes (es ++ fs) (es' ++ fs') := by
  intro hlistens
  rw [Handler.reports_append, Handler.reports_append]
  exact List.rel_append (h hlistens) (hf hlistens)

theorem echoes_nil : C.Echoes [] [] :=
  fun _ => .nil

/-- What nobody listens to makes no difference. -/
theorem echoes_of_not_listens (h : ¬C.Listens) (es es' : List Event) : C.Echoes es es' :=
  fun hlistens => absurd hlistens h

/-- The report about a node that no expression can be made of. -/
theorem echoes_unsupported (h : C.Related n n') :
    C.Echoes [.handled (Convert.unsupported n)] [.handled (Convert.unsupported n')] := by
  have hn := C.alike h
  intro _
  simp only [Handler.reports, Handler.keeps, List.flatMap_singleton]
  apply List.Forall₂.cons _ .nil
  constructor
  · simp [Convert.unsupported, Report.on, Report.retell, hn.tag, hn.span, Span.shift,
      Position.shift]
  · rfl

/-! ## §2 Results and reports together -/

/-- The results correspond, or the faults do. -/
inductive Outcome (C : Correspondence) {α β : Type} (S : α → β → Prop) :
    Except Fault α → Except Fault β → Prop where
  | ok {a : α} {b : β} (h : S a b) : Outcome C S (.ok a) (.ok b)
  | error {f f' : Fault} (h : C.SameFault f f') : Outcome C S (.error f) (.error f')

/-- The conversions have corresponding outcomes, and amount to the same reports. -/
structure Agree (C : Correspondence) {α β : Type} (S : α → β → Prop) (x : Conversion α)
    (y : Conversion β) : Prop where
  result : C.Outcome S (x.result C.left) (y.result C.right)
  events : C.Echoes (x.events C.left) (y.events C.right)

namespace Agree

variable {x : Conversion α} {y : Conversion β} {S' : α → β → Prop}

theorem imp (h : C.Agree S x y) (hS : ∀ a b, S a b → S' a b) : C.Agree S' x y := by
  obtain ⟨hresult, hevents⟩ := h
  refine ⟨?_, hevents⟩
  generalize x.result C.left = r, y.result C.right = r' at hresult
  cases hresult with
  | ok hab => exact .ok (hS _ _ hab)
  | error hfault => exact .error hfault

/-! One lemma for each operation. -/

theorem pure {a : α} {b : β} (h : S a b) :
    C.Agree S (Pure.pure a : Conversion α) (Pure.pure b : Conversion β) :=
  ⟨.ok h, echoes_nil⟩

/-- What comes second may rely on what the first conversion answered. -/
theorem bind_of_result {f : α → Conversion γ} {g : β → Conversion δ} (h : C.Agree S x y)
    (hfg : ∀ a b, x.result C.left = .ok a → S a b → C.Agree T (f a) (g b)) :
    C.Agree T (x >>= f) (y >>= g) := by
  obtain ⟨hresult, hevents⟩ := h
  have hresults := Conversion.result_bind x f C.left
  have hresults' := Conversion.result_bind y g C.right
  have hlists := Conversion.events_bind x f C.left
  have hlists' := Conversion.events_bind y g C.right
  -- Both go on, or both end here.
  generalize x.result C.left = r, y.result C.right = r' at *
  cases hresult with
  | ok hab =>
    have hnext := hfg _ _ rfl hab
    exact ⟨hresults ▸ hresults' ▸ hnext.result, hlists ▸ hlists' ▸ hevents.append hnext.events⟩
  | error hfault =>
    exact ⟨hresults ▸ hresults' ▸ .error hfault, hlists ▸ hlists' ▸ hevents.append echoes_nil⟩

theorem bind {f : α → Conversion γ} {g : β → Conversion δ} (h : C.Agree S x y)
    (hfg : ∀ a b, S a b → C.Agree T (f a) (g b)) : C.Agree T (x >>= f) (y >>= g) :=
  h.bind_of_result fun a b _ => hfg a b

theorem map {f : α → γ} {g : β → δ} (h : C.Agree (fun a b => T (f a) (g b)) x y) :
    C.Agree T (f <$> x) (g <$> y) := by
  rw [← bind_pure_comp, ← bind_pure_comp]
  exact h.bind fun _ _ => pure

theorem fail {p p' : Problem} (h : C.Related n n') (hp : C.SameProblem p p') :
    C.Agree S (Conversion.fail p n) (Conversion.fail p' n') :=
  ⟨.error (sameFault_fault h hp), echoes_nil⟩

/-- Nothing comes behind a failure. -/
theorem fail_bind {p p' : Problem} {f : α → Conversion γ} {g : β → Conversion δ}
    (h : C.Related n n') (hp : C.SameProblem p p') :
    C.Agree T (Conversion.fail p n >>= f) (Conversion.fail p' n' >>= g) :=
  (fail (S := fun _ _ => False) h hp).bind fun _ _ hfalse => hfalse.elim

theorem failBare (p : Problem) (h : C.Related n n') :
    C.Agree S (Conversion.failBare p n) (Conversion.failBare p n') :=
  ⟨.error (sameFault_bareFault p h), echoes_nil⟩

theorem require {a : Option α} {b : Option β} {p p' : Problem} (hab : Option.Rel S a b)
    (h : C.Related n n') (hp : p' = p) :
    C.Agree S (Conversion.require a p n) (Conversion.require b p' n') := by
  subst hp
  cases hab with
  | some hab => exact pure hab
  | none => exact fail h (.refl _)

/-- Where nobody listens, two conversions agree that answer nothing. -/
theorem of_none {x : Conversion (Option α)} {y : Conversion (Option β)} (h : ¬C.Listens)
    (hx : x.result C.left = .ok none) (hy : y.result C.right = .ok none) :
    C.Agree (Option.Rel S) x y := by
  refine ⟨?_, echoes_of_not_listens h _ _⟩
  rw [hx, hy]
  exact .ok .none

theorem ofExcept {r : Except Fault α} {r' : Except Fault β} (h : C.Outcome S r r') :
    C.Agree S (Conversion.ofExcept r) (Conversion.ofExcept r') :=
  ⟨h, echoes_nil⟩

theorem tell {e e' : Event} (h : C.Echoes [e] [e']) :
    C.Agree Eq (Conversion.tell e) (Conversion.tell e') :=
  ⟨.ok rfl, h⟩

theorem remark (r : Remark) (h : C.Related n n') :
    C.Agree Eq (Conversion.remark r n) (Conversion.remark r n') := by
  refine tell fun _ => ?_
  have hn := C.alike h
  simp only [Handler.reports, Remark.event, List.flatMap_singleton]
  cases r.level with
  | warn =>
    apply List.Forall₂.cons _ .nil
    constructor
    · simp [Handler.warning, Report.on, Report.retell, hn.tag, hn.span, Span.shift,
        Position.shift]
    · rfl
  | _ => exact .nil

theorem blame {problem problem' : Fault → Problem} (h : C.Agree S x y) (hn : C.Related n n')
    (hproblem : ∀ f f', C.SameFault f f' → C.SameProblem (problem f) (problem' f')) :
    C.Agree S (x.blame problem n) (y.blame problem' n') := by
  obtain ⟨hresult, hevents⟩ := h
  constructor
  · rw [Conversion.result_blame, Conversion.result_blame]
    generalize x.result C.left = r, y.result C.right = r' at hresult
    cases hresult with
    | ok hab => exact .ok hab
    | error hfault => exact .error (.causedBy hn (hproblem _ _ hfault) hfault)
  · rw [Conversion.events_blame, Conversion.events_blame]
    exact hevents

/-- A settled conversion does not fail any more. -/
theorem settle (h : C.Agree S x y) : C.Agree (C.Outcome S) x.settle y.settle :=
  ⟨.ok h.result, h.events⟩

/-- Conversions in a row. -/
theorem mapM {f : α → Conversion γ} {g : β → Conversion δ} {l : List α} {l' : List β}
    (h : List.Forall₂ S l l') (hfg : ∀ a b, S a b → C.Agree T (f a) (g b)) :
    C.Agree (List.Forall₂ T) (l.mapM f) (l'.mapM g) := by
  induction h with
  | nil => exact pure .nil
  | cons hab _ ih =>
    rw [List.mapM_cons, List.mapM_cons]
    refine (hfg _ _ hab).bind fun c d hcd => ?_
    refine ih.bind fun cs ds hrest => ?_
    exact pure (.cons hcd hrest)

end Agree

/-! ## §3 Computations that may give up -/

/-- Both computations give up, or neither does, and their outcomes correspond. -/
def Tries (C : Correspondence) (S : α → β → Prop) (x : OptionT (Except Fault) α)
    (y : OptionT (Except Fault) β) : Prop :=
  C.Outcome (Option.Rel S) x.run y.run

namespace Tries

variable {x : OptionT (Except Fault) α} {y : OptionT (Except Fault) β}

theorem pure {a : α} {b : β} (h : S a b) : C.Tries S (Pure.pure a) (Pure.pure b) :=
  .ok (.some h)

theorem failure : C.Tries S failure failure :=
  .ok .none

theorem ofOption {a : Option α} {b : Option β} (h : Option.Rel S a b) :
    C.Tries S (OptionT.mk (Pure.pure a)) (OptionT.mk (Pure.pure b)) :=
  .ok h

theorem lift {r : Except Fault α} {r' : Except Fault β} (h : C.Outcome S r r') :
    C.Tries S (liftM r) (liftM r') := by
  cases h with
  | ok hab => exact .ok (.some hab)
  | error hfault => exact .error hfault

theorem bind {f : α → OptionT (Except Fault) γ} {g : β → OptionT (Except Fault) δ}
    (h : C.Tries S x y) (hfg : ∀ a b, S a b → C.Tries T (f a) (g b)) :
    C.Tries T (x >>= f) (y >>= g) := by
  unfold Tries at h ⊢
  rw [OptionT.run_bind, OptionT.run_bind]
  generalize x.run = r, y.run = r' at h
  cases h with
  | error hfault => exact .error hfault
  | ok h =>
    cases h with
    | none => exact .ok .none
    | some hab => exact hfg _ _ hab

theorem mapM {f : α → OptionT (Except Fault) γ} {g : β → OptionT (Except Fault) δ} {l : List α}
    {l' : List β} (h : List.Forall₂ S l l') (hfg : ∀ a b, S a b → C.Tries T (f a) (g b)) :
    C.Tries (List.Forall₂ T) (l.mapM f) (l'.mapM g) := by
  induction h with
  | nil => exact pure .nil
  | cons hab _ ih =>
    rw [List.mapM_cons, List.mapM_cons]
    refine (hfg _ _ hab).bind fun c d hcd => ?_
    refine ih.bind fun cs ds hrest => ?_
    exact pure (.cons hcd hrest)

end Tries

end Scad.Correspondence
