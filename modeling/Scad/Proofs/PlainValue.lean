import Mathlib.Data.List.Forall2
import Scad.Proofs.Wrapper

/-!
# Plain Values Agree with Expressions

An argument that is a literal, a signed number or a vector of two or three numbers is settled by
`plainValue`, which walks over the syntax by itself and never calls the conversion of expressions.
The two walks agree: an argument fails where its expression fails or stands for nothing, and its
value represents the expression otherwise.

* `Represents` — which value stands for which expression.
* `Foretells` — the relation between the two walks, with one lemma for each operation.
* `plainValue_foretells` — the agreement of the walks, by induction on the syntax.
* `value_agrees` — the agreement of whole arguments.
-/

namespace Scad

/-! ## §1 Values of expressions -/

/-- The expression is a number, perhaps behind a sign. -/
inductive Expression.Numeral : Expression → Float → Prop where
  | number (x : Float) (s : Span) : Numeral (.literal (.number x) s) x
  | negated (x : Float) (s t : Span) : Numeral (.unary .negate (.literal (.number x) s) t) (-x)
  | plus (x : Float) (s t : Span) : Numeral (.unary .plus (.literal (.number x) s) t) x

/-- The value stands for the expression. -/
inductive Value.Represents : Value → Expression → Prop where
  | kept (e : Expression) : Represents (.expression e) e
  | literal (l : Literal) (s : Span) : Represents l.toValue (.literal l s)
  | numeral {e : Expression} {x : Float} (h : e.Numeral x) : Represents (.number x) e
  | vector2 {e f : Expression} {x y : Float} (hx : e.Numeral x) (hy : f.Numeral y) (s : Span) :
      Represents (.vector2 x y) (.vector [e, f] s)
  | vector3 {e f g : Expression} {x y z : Float} (hx : e.Numeral x) (hy : f.Numeral y)
      (hz : g.Numeral z) (s : Span) : Represents (.vector3 x y z) (.vector [e, f, g] s)

namespace Value.Represents

theorem toValue (e : Expression) : e.toValue.Represents e := by
  cases e with
  | literal l s => exact .literal l s
  | _ => exact .kept _

/-- Of the expressions that were settled, only numbers have a number as their value. -/
theorem numeral_of_number {x : Float} {e : Expression} (h : (Value.number x).Represents e) :
    e.Numeral x := by
  generalize hv : Value.number x = v at h
  cases h with
  | literal l s =>
    cases l <;> cases hv
    exact .number x s
  | numeral h =>
    cases hv
    exact h
  | kept | vector2 | vector3 => cases hv

end Value.Represents

/-! ## §2 One computation foretells another -/

namespace Conversion

variable {α β : Type} {settings : Settings} {x : Conversion α} {f : α → Conversion β}

/-- The conversion ends with a fault. -/
def Fails (settings : Settings) (x : Conversion α) : Prop :=
  ∃ f, x.result settings = .error f

theorem Fails.bind (h : x.Fails settings) : (x >>= f).Fails settings := by
  obtain ⟨e, he⟩ := h
  exact ⟨e, by rw [result_bind, he]⟩

/-- It does not matter whether the first step fails where the second one does. -/
theorem Fails.bind_right (h : ∀ a, x.result settings = .ok a → (f a).Fails settings) :
    (x >>= f).Fails settings := by
  cases hx : x.result settings with
  | error e => exact .bind ⟨e, hx⟩
  | ok a =>
    obtain ⟨e, he⟩ := h a hx
    exact ⟨e, by rw [result_bind, hx]; exact he⟩

end Conversion

namespace Convert

open Conversion Node

/-- Where `x` fails, the conversion `y` fails; where `x` has a value, `y` has a corresponding
result.  Where `x` gives up, `y` may do anything. -/
def Foretells {α β : Type} (settings : Settings) (R : α → β → Prop)
    (x : OptionT (Except Fault) α) (y : Conversion β) : Prop :=
  match x.run with
  | .ok (some a) => ∃ b, y.result settings = .ok b ∧ R a b
  | .ok none => True
  | .error _ => y.Fails settings

namespace Foretells

variable {α β γ δ : Type} {settings : Settings} {R : α → β → Prop} {S : γ → δ → Prop}
  {x : OptionT (Except Fault) α} {y : Conversion β}

theorem pure {a : α} {b : β} (h : R a b) : Foretells settings R (Pure.pure a) (Pure.pure b) :=
  ⟨b, rfl, h⟩

theorem failure : Foretells settings R failure y :=
  trivial

/-- A value of its own corresponds to a result that is known. -/
theorem of_ok {a : α} {b : β} (hy : y.result settings = .ok b) (h : R a b) :
    Foretells settings R (Pure.pure a) y :=
  ⟨b, hy, h⟩

/-! Steps that only the walk over plain values takes. -/

theorem ofOption_bind {value : Option γ} {f : γ → OptionT (Except Fault) α}
    (h : ∀ c, value = some c → Foretells settings R (f c) y) :
    Foretells settings R (OptionT.mk (Pure.pure value) >>= f) y := by
  cases value with
  | none => trivial
  | some c => exact h c rfl

theorem ofOption {value : Option α}
    (h : ∀ a, value = some a → Foretells settings R (Pure.pure a) y) :
    Foretells settings R (OptionT.mk (Pure.pure value)) y := by
  cases value with
  | none => trivial
  | some a => exact h a rfl

theorem lift_bind {r : Except Fault γ} {f : γ → OptionT (Except Fault) α}
    (hok : ∀ c, r = .ok c → Foretells settings R (f c) y)
    (herror : ∀ e, r = .error e → y.Fails settings) :
    Foretells settings R (liftM r >>= f) y := by
  cases r with
  | ok c => exact hok c rfl
  | error e => exact herror e rfl

/-- Only the result of the conversion counts. -/
theorem congr {y' : Conversion β} (h : Foretells settings R x y)
    (hy : y'.result settings = y.result settings) : Foretells settings R x y' := by
  unfold Foretells Fails at *
  rwa [hy]

theorem bind {f : α → OptionT (Except Fault) γ} {g : β → Conversion δ}
    (h : Foretells settings R x y) (hfg : ∀ a b, R a b → Foretells settings S (f a) (g b)) :
    Foretells settings S (x >>= f) (y >>= g) := by
  unfold Foretells at h ⊢
  rw [OptionT.run_bind]
  rcases hrun : x.run with e | _ | a <;> rw [hrun] at h
  · exact h.bind
  · trivial
  · obtain ⟨b, hb, hab⟩ := h
    exact (hfg a b hab).congr (by rw [result_bind, hb])

theorem mapM {ι : Type} {f : ι → OptionT (Except Fault) α} {g : ι → Conversion β} {l : List ι}
    (h : ∀ c ∈ l, Foretells settings R (f c) (g c)) :
    Foretells settings (List.Forall₂ R) (l.mapM f) (l.mapM g) := by
  induction l with
  | nil => exact pure .nil
  | cons c l ih =>
    rw [List.mapM_cons, List.mapM_cons]
    refine (h c List.mem_cons_self).bind fun a b hab => ?_
    refine (ih fun c hc => h c (List.mem_cons_of_mem _ hc)).bind fun as bs has => ?_
    exact pure (.cons hab has)

end Foretells

/-! ## §3 Wrappers -/

/-- What the walk over plain values looks through, the conversion of expressions looks through. -/
theorem result_wrapped? {n : Node} {p : n.Part} (h : wrapped? n = some p) (settings : Settings) :
    (expression n).result settings = (expression p.node).result settings := by
  unfold wrapped? at h
  split at h
  · next hkind => rw [expression_plain (.inl hkind) (significant_of_onlyChild? h)]
  · next hkind => rw [expression_plain (.inr hkind) (significant_of_onlyChild? h)]
  · next hkind => exact result_rung (by rw [rungChild?, hkind]; exact h) settings
  · cases h

theorem result_unwrapped (n : Node) (settings : Settings) :
    (expression (unwrapped n)).result settings = (expression n).result settings := by
  rw [unwrapped]
  cases hinner : wrapped? n with
  | none => rfl
  | some inner =>
    exact (result_unwrapped inner.node settings).trans (result_wrapped? hinner settings).symm
termination_by sizeOf n
decreasing_by exact Part.inside _

/-! ## §4 Numbers -/

theorem expression_literal {n : Node}
    (hkind : n.kind = .number ∨ n.kind = .string ∨ n.kind = .boolean ∨ n.kind = .undefined) :
    expression n = do return some (.literal (← literal n) n.span) := by
  rw [expression_eq]
  unfold expressionStep
  rcases hkind with hkind | hkind | hkind | hkind
  all_goals simp [rungChild?, constructLabels?, hkind]

/-- A node of a number converts as its text reads. -/
theorem result_number {n : Node} (hkind : n.kind = .number) (settings : Settings) :
    (expression n).result settings =
      (numberOf n).map fun x => some (.literal (.number x) n.span) := by
  rw [expression_literal (.inl hkind)]
  unfold literal
  rw [hkind]
  simp only [result_bind, result_map, result_ofExcept]
  cases numberOf n <;> rfl

/-! ## §5 Signed numbers -/

theorem result_resolve {n : Node} {convert : Converter n Expression} {role : Role} {p : n.Part}
    {settings : Settings} {e : Expression} (h : (convert p).result settings = .ok (some e)) :
    (resolve convert role p).result settings = .ok e := by
  unfold resolve
  dsimp only
  split
  · rw [result_bind, result_blame, h]
    rfl
  · rw [result_bind, h]
    rfl

theorem resolve_fails {n : Node} {convert : Converter n Expression} {role : Role} {p : n.Part}
    {settings : Settings} (h : (convert p).Fails settings) :
    (resolve convert role p).Fails settings := by
  obtain ⟨f, hf⟩ := h
  unfold resolve
  dsimp only
  split
  · exact Fails.bind ⟨_, by rw [result_blame, hf]⟩
  · exact Fails.bind ⟨f, hf⟩

/-- The operand of a unary operation. -/
def operand? (n : Node) : Option n.Part :=
  (n.field? "operand").or n.significant.getLast?

theorem expression_unary {n : Node} (hkind : n.kind = .unaryExpression)
    (hrung : n.onlyChild? unaryLabels = none) : expression n = unary n (expressions n) := by
  rw [expression_eq]
  unfold expressionStep
  simp [rungChild?, constructLabels?, hkind, hrung]

/-- An operation whose operand fails does so too, whatever its operator. -/
theorem unary_fails {n : Node} {p : n.Part} {settings : Settings}
    (hrung : n.onlyChild? unaryLabels = none) (hoperand : operand? n = some p)
    (h : (expression p.node).Fails settings) : (unary n (expressions n)).Fails settings := by
  unfold operand? at hoperand
  unfold unary
  rw [hrung, hoperand]
  refine .bind_right fun token _ => .bind_right fun operator _ => .bind_right fun operand ho => ?_
  obtain rfl : p = operand := Except.ok.inj ho
  exact Fails.bind (resolve_fails h)

/-- An operation with an operator and an operand. -/
theorem result_unary {n : Node} {token p : n.Part} {operator : UnaryOperator} {e : Expression}
    {settings : Settings} (hrung : n.onlyChild? unaryLabels = none)
    (htoken : (n.field? "operator").or
      (n.token? fun c => (UnaryOperator.ofSymbol? c.text).isSome) = some token)
    (hoperator : UnaryOperator.ofSymbol? token.node.text = some operator)
    (hoperand : operand? n = some p)
    (h : (expression p.node).result settings = .ok (some e)) :
    (unary n (expressions n)).result settings = .ok (some (.unary operator e n.span)) := by
  unfold operand? at hoperand
  unfold unary
  rw [hrung, htoken, hoperand]
  simp only [require, hoperator, pure_bind, result_bind, result_pure]
  rw [result_resolve h]

/-- The operator is looked for in two ways, as the first token at all and as the first token that
spells an operator; where the first token spells one, both find it. -/
theorem operator_token {n : Node} {token : n.Part} {operator : UnaryOperator}
    (h : (n.field? "operator").or (n.token? fun _ => true) = some token)
    (hoperator : UnaryOperator.ofSymbol? token.node.text = some operator) :
    (n.field? "operator").or
      (n.token? fun c => (UnaryOperator.ofSymbol? c.text).isSome) = some token := by
  cases hfield : n.field? "operator" with
  | some labelled => rwa [hfield] at h
  | none =>
    rw [hfield, Option.none_or] at h
    rw [Option.none_or]
    obtain ⟨hnamed, before, after, hparts, hbefore⟩ := List.find?_eq_some_iff_append.mp h
    refine List.find?_eq_some_iff_append.mpr ⟨?_, before, after, hparts, fun c hc => ?_⟩
    · simpa [hoperator] using hnamed
    · have := hbefore c hc
      simp_all

/-- A sign in front of a number is what the conversion of the whole operation finds. -/
theorem signedNumber_foretells {n : Node} (hkind : n.kind = .unaryExpression)
    (settings : Settings) :
    Foretells settings (fun x r => ∃ e, r = some e ∧ e.Numeral x) (signedNumber n)
      (expression n) := by
  unfold signedNumber
  refine .ofOption_bind fun token htoken => .ofOption_bind fun p hp => ?_
  have hrung : n.onlyChild? unaryLabels = none := by
    -- An empty rung has no operator under a label, and no token.
    by_contra hrung
    obtain ⟨q, hq⟩ := Option.ne_none_iff_exists'.mp hrung
    obtain ⟨hfields, htokens⟩ := lookups_of_onlyChild? hq
    rw [hfields "operator" (by decide), htokens] at htoken
    cases htoken
  rw [expression_unary hkind hrung]
  dsimp only
  split
  · exact .failure
  · next hnumber =>
    have hnumber : (unwrapped p.node).kind = .number := by simpa using hnumber
    have hresult := result_number hnumber settings
    rw [result_unwrapped] at hresult
    refine .lift_bind (fun x hx => ?_) fun f hf => ?_
    · rw [hx] at hresult
      split
      · next hsign =>
        exact .of_ok (result_unary hrung (operator_token htoken hsign) hsign hp hresult)
          ⟨_, rfl, .negated x _ _⟩
      · next hsign =>
        exact .of_ok (result_unary hrung (operator_token htoken hsign) hsign hp hresult)
          ⟨_, rfl, .plus x _ _⟩
      · exact .failure
    · rw [hf] at hresult
      exact unary_fails hrung hp ⟨f, hresult⟩

/-! ## §6 Plain values -/

/-- The element of a vector has to be a number. -/
theorem element_foretells {n : Node} {p : n.Part} {settings : Settings}
    (h : Foretells settings (fun v r => ∃ e, r = some e ∧ v.Represents e) (plainValue p.node)
      (expression p.node)) :
    Foretells settings (fun x e => e.Numeral x)
      (do
        match (← plainValue p.node).number? with
        | some x => pure x
        | none => failure)
      (resolve (expressions n) .vectorElement p) := by
  refine Foretells.bind (g := fun r => require r (.unresolved .vectorElement) p.node) h ?_
  rintro v _ ⟨e, rfl, hv⟩
  cases v with
  | number x => exact .of_ok rfl hv.numeral_of_number
  | _ => exact .failure

theorem expression_vector {n : Node} (hkind : n.kind = .vector) :
    expression n = vector n (expressions n) := by
  rw [expression_eq]
  unfold expressionStep
  simp [rungChild?, constructLabels?, hkind]

/-- A vector of two or three numbers represents the vector of their expressions. -/
theorem represents_shortVector {es : List Expression} {xs : List Float} {v : Value} (s : Span)
    (h : List.Forall₂ (fun x e => Expression.Numeral e x) xs es) (hv : shortVector xs = some v) :
    v.Represents (.vector es s) := by
  unfold shortVector at hv
  split at hv
  · cases hv
    obtain _ | ⟨hx, _ | ⟨hy, _ | _⟩⟩ := h
    exact .vector2 hx hy s
  · cases hv
    obtain _ | ⟨hx, _ | ⟨hy, _ | ⟨hz, _ | _⟩⟩⟩ := h
    exact .vector3 hx hy hz s
  · cases hv

/-- What the walk over plain values settles, the conversion of expressions confirms. -/
theorem plainValue_foretells (n : Node) (settings : Settings) :
    Foretells settings (fun v r => ∃ e, r = some e ∧ v.Represents e) (plainValue n)
      (expression n) := by
  rw [plainValue]
  cases hinner : wrapped? n with
  | some inner =>
    exact (plainValue_foretells inner.node settings).congr (result_wrapped? hinner settings)
  | none =>
    dsimp only
    split
    · next hkind =>
      have hresult := result_number hkind settings
      refine .lift_bind (fun x hx => ?_) fun f hf => ⟨f, by rw [hresult, hf]; rfl⟩
      rw [hx] at hresult
      exact .of_ok hresult ⟨_, rfl, .numeral (.number x _)⟩
    -- The other literals cannot be wrong.
    · next hkind =>
      refine .of_ok ?_ ⟨_, rfl, .literal (.string (unquote n.text)) n.span⟩
      simp [expression_literal (.inr (.inl hkind)), literal, hkind]
    · next hkind =>
      refine .of_ok ?_ ⟨_, rfl, .literal (.boolean (truth n.text)) n.span⟩
      simp [expression_literal (.inr (.inr (.inl hkind))), literal, hkind]
    · next hkind =>
      refine .of_ok ?_ ⟨_, rfl, .literal .undefined n.span⟩
      simp [expression_literal (.inr (.inr (.inr hkind))), literal, hkind]
    · next hkind =>
      rw [← bind_pure (expression n)]
      refine (signedNumber_foretells hkind settings).bind fun x r hx => .pure ?_
      obtain ⟨e, he, hx⟩ := hx
      exact ⟨e, he, .numeral hx⟩
    · next hkind =>
      rw [expression_vector hkind]
      refine (Foretells.mapM fun element _ => element_foretells
        (plainValue_foretells element.node settings)).bind fun xs es h => ?_
      exact .ofOption fun v hv => .pure ⟨_, rfl, represents_shortVector n.span h hv⟩
    · exact .failure
termination_by sizeOf n
decreasing_by all_goals exact Part.inside _

/-! ## §7 Whole arguments -/

/-- An argument is settled in accordance with its expression: it fails exactly where the expression
fails or stands for nothing, and otherwise its value represents the expression. -/
theorem value_agrees (n : Node) (settings : Settings) :
    ((value n (expression n)).Fails settings ↔
        ¬ ∃ e, (expression n).result settings = .ok (some e)) ∧
      ∀ v, (value n (expression n)).result settings = .ok v →
        ∃ e, (expression n).result settings = .ok (some e) ∧ v.Represents e := by
  have hplain := plainValue_foretells n settings
  unfold Foretells at hplain
  unfold value Fails
  rw [result_bind, result_ofExcept]
  rcases hrun : (plainValue n).run with f | _ | v <;> rw [hrun] at hplain
  -- Both walks fail.
  · obtain ⟨g, hg⟩ := hplain
    simp [hg]
  -- The walk over plain values gives up, and the expression decides.
  · rcases hwhole : (expression n).result settings with g | _ | e
    · simp [hwhole]
    · simp [hwhole]
    · simp [hwhole, Value.Represents.toValue]
  -- The value is settled.
  · obtain ⟨_, hr, e, rfl, hv⟩ := hplain
    simp [hr, hv]

end Convert

end Scad
