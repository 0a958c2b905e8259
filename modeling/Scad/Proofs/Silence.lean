import Scad.Proofs.Provenance.Expression
import Scad.Proofs.Wrapper

/-!
# No Expression Disappears in Silence

A node that no expression can be made of converts to `none`, and whoever asked for an expression
passes on without one.  What the user is told then comes from the report about that node.

* `Conversion.Answers` — a conversion that never ends with `none`.
* `Conversion.Accounts` — a conversion that ends with `none` only after the report about a node in
  the subtree it was asked about.

Every construct answers, given that it is no empty rung; wrappers, rungs and parentheses account for
their silence as what they hold does.  The filter of `throughRung` would drop an expression without
a report, but the dispatch passes through an empty rung before it gets there.
-/

namespace Scad

/-! ## §1 Conversions that account for `none` -/

namespace Conversion

variable {α β : Type} {m n : Node}

/-- The conversion never ends with `none`: it converts to something, or it fails. -/
def Answers (x : Conversion (Option α)) : Prop :=
  ∀ settings, x.result settings ≠ .ok none

/-- Where the conversion ends with `none`, every handler keeps the report that some node in the
subtree of `n` is unsupported. -/
def Accounts (n : Node) (x : Conversion (Option α)) : Prop :=
  ∀ settings, x.result settings = .ok none → ∀ handler : Handler,
    ∃ m : Node, m.Within n ∧ Convert.unsupported m ∈ handler.reports (x.events settings)

namespace Answers

theorem pure_some (a : α) : (Pure.pure (some a) : Conversion (Option α)).Answers :=
  fun _ h => nomatch h

theorem fail (problem : Problem) (m : Node) :
    (Conversion.fail problem m : Conversion (Option α)).Answers :=
  fun _ h => nomatch h

theorem failBare (problem : Problem) (m : Node) :
    (Conversion.failBare problem m : Conversion (Option α)).Answers :=
  fun _ h => nomatch h

/-- What comes last decides whether there is an answer. -/
theorem bind {x : Conversion β} {f : β → Conversion (Option α)} (hf : ∀ b, (f b).Answers) :
    (x >>= f).Answers := by
  intro settings
  rw [result_bind]
  cases x.result settings with
  | error e => exact fun h => nomatch h
  | ok b => exact hf b settings

theorem map_some (x : Conversion α) : (some <$> x).Answers := by
  rw [← bind_pure_comp]
  exact bind pure_some

theorem accounts {x : Conversion (Option α)} (h : x.Answers) : x.Accounts n :=
  fun settings hnone => absurd hnone (h settings)

end Answers

namespace Accounts

/-- A larger tree holds everything a smaller one does. -/
theorem mono {x : Conversion (Option α)} (h : x.Accounts m) (hmn : m.Within n) :
    x.Accounts n := by
  intro settings hnone handler
  obtain ⟨m', hm', hreport⟩ := h settings hnone handler
  exact ⟨m', hm'.trans hmn, hreport⟩

/-- What comes last accounts for the whole, since no event is lost. -/
theorem bind {x : Conversion β} {f : β → Conversion (Option α)} (hf : ∀ b, (f b).Accounts n) :
    (x >>= f).Accounts n := by
  intro settings hnone handler
  rw [result_bind] at hnone
  rw [events_bind, Handler.reports_append]
  cases hx : x.result settings with
  | error e => simp [hx] at hnone
  | ok b =>
    rw [hx] at hnone
    obtain ⟨m, hm, hreport⟩ := hf b settings hnone handler
    exact ⟨m, hm, List.mem_append_right _ hreport⟩

/-- Without a part that has to be there, the conversion fails. -/
theorem bind_require {x : Option m.Part} {problem : Problem} {f : m.Part → Conversion (Option α)}
    (hx : m.Finds x) (hf : ∀ p : m.Part, p.node.Within m → (f p).Accounts n) :
    (Conversion.require x problem n >>= f).Accounts n := by
  cases x with
  | none => exact fun _ h => nomatch h
  | some p => simpa only [Conversion.require, pure_bind] using hf p (hx p rfl)

end Accounts

end Conversion

/-- The conversion of every part in the subtree accounts for its silence. -/
def Converter.Accounts {n : Node} {α : Type} (convert : Converter n α) : Prop :=
  ∀ p : n.Part, p.node.Within n → (convert p).Accounts p.node

namespace Convert

open Conversion Node

variable {n : Node} {convert : Converter n Expression}

/-! ## §2 Constructs that answer -/

/-- An operation whose rung was not passed through is no empty rung. -/
theorem onlyChild?_eq_none {labels : List String} (hlabels : constructLabels? n.kind = some labels)
    (hrung : rungChild? n = none) : n.onlyChild? labels = none := by
  simpa [rungChild?, hlabels] using hrung

theorem binary_answers (h : n.onlyChild? binaryLabels = none) : (binary n convert).Answers := by
  unfold binary
  rw [h]
  iterate 6 refine .bind fun _ => ?_
  exact .pure_some _

theorem unary_answers (h : n.onlyChild? unaryLabels = none) : (unary n convert).Answers := by
  unfold unary
  rw [h]
  iterate 4 refine .bind fun _ => ?_
  exact .pure_some _

theorem conditional_answers (h : n.onlyChild? conditionalLabels = none) :
    (conditional n convert).Answers := by
  unfold conditional
  rw [h]
  iterate 6 refine .bind fun _ => ?_
  exact .pure_some _

theorem call_answers : (call n convert).Answers := by
  unfold call
  iterate 2 refine .bind fun _ => ?_
  exact .pure_some _

theorem index_answers : (index n convert).Answers := by
  unfold index
  iterate 4 refine .bind fun _ => ?_
  exact .pure_some _

theorem member_answers : (member n convert).Answers := by
  unfold member
  iterate 3 refine .bind fun _ => ?_
  exact .pure_some _

theorem vector_answers : (vector n convert).Answers := by
  unfold vector
  exact .bind fun _ => .pure_some _

theorem letIn_answers : (letIn n convert).Answers := by
  unfold letIn
  iterate 3 refine .bind fun _ => ?_
  exact .pure_some _

/-- The style with the body last may find that it does not fit; the other style never does. -/
theorem comprehension_answers : (comprehension n convert).Answers := by
  unfold comprehension
  refine .bind fun r => ?_
  cases r with
  | some e => exact .pure_some e
  | none => exact .map_some _

/-! ## §3 What passes a silence on -/

theorem parenthesized_accounts (h : convert.Accounts) : (parenthesized n convert).Accounts n := by
  have hfirst : n.Finds ((n.field? "expression").or n.significant.head?) :=
    (finds_field? _).or finds_head?_significant
  unfold parenthesized
  refine .bind_require hfirst fun inner hinner => ?_
  split
  · exact (h inner hinner).mono hinner
  · refine .bind fun r => ?_
    cases r with
    | some e => exact (Answers.pure_some e).accounts
    | none =>
      -- None of the candidates converted, and the first child has the last word.
      refine .bind_require (fun p hp => ?_) fun p hp => ?_
      · exact (Finds.head? (fun _ => within_of_mem_parts) p hp)
      · exact (h _ (hp.trans hinner)).mono (hp.trans hinner)

/-- A node that no expression can be made of is reported. -/
theorem unsupported_accounts (n : Node) :
    (do tell (.handled (unsupported n)); return none : Conversion (Option Expression)).Accounts n :=
  fun _ _ handler => ⟨n, .refl n, by cases handler <;> exact List.mem_singleton_self _⟩

theorem expressionStep_accounts (h : convert.Accounts) : (expressionStep n convert).Accounts n := by
  have hpart {p : n.Part} (hp : p.node.Within n) : (convert p).Accounts n := (h p hp).mono hp
  unfold expressionStep
  split
  · next p hp => exact .bind fun _ => hpart (finds_rungChild? p hp)
  next hrung =>
  have hrung : rungChild? n = none := Option.eq_none_iff_forall_ne_some.mpr hrung
  split
  -- A wrapper.
  iterate 2
    · split
      · next p hp => exact hpart (finds_wrappedChild? p hp)
      · exact (Answers.failBare _ _).accounts
  -- A literal.
  iterate 4
    · exact (Answers.bind fun _ => .pure_some _).accounts
  -- A name.
  iterate 2
    · exact (Answers.pure_some _).accounts
  · exact call_answers.accounts
  · exact call_answers.accounts
  · exact vector_answers.accounts
  · exact index_answers.accounts
  · exact member_answers.accounts
  · exact (Answers.map_some _).accounts
  · exact letIn_answers.accounts
  · exact comprehension_answers.accounts
  -- An operation is no empty rung here, so nothing is filtered out of it.
  · next hkind => exact (binary_answers (onlyChild?_eq_none (by rw [hkind]; rfl) hrung)).accounts
  · next hkind => exact (unary_answers (onlyChild?_eq_none (by rw [hkind]; rfl) hrung)).accounts
  · next hkind =>
    exact (conditional_answers (onlyChild?_eq_none (by rw [hkind]; rfl) hrung)).accounts
  · exact parenthesized_accounts h
  · exact (Answers.fail _ _).accounts
  · exact (Answers.fail _ _).accounts
  · exact unsupported_accounts n

theorem expression_accounts (n : Node) : (expression n).Accounts n := by
  -- The parts are smaller than the node, and account for their own silence.
  rw [expression_eq]
  exact expressionStep_accounts fun p _ => expression_accounts p.node
termination_by sizeOf n
decreasing_by exact p.inside

/-- No expression disappears in silence.  Where a node converts to no expression and does not fail
either, every handler was told of an error at a node in its subtree. -/
theorem exists_report_of_expression_none {n : Node} {settings : Settings}
    (h : (expression n).result settings = .ok none) (handler : Handler) :
    ∃ r ∈ handler.reports ((expression n).events settings),
      r.severity = .error ∧ ∃ m : Node, m.Within n ∧ r.span = some m.span := by
  obtain ⟨m, hm, hreport⟩ := expression_accounts n settings h handler
  exact ⟨unsupported m, hreport, rfl, m, hm, rfl⟩

/-- An argument list, which is no expression. -/
def emptyArguments : Node where
  tag := "arguments"
  text := "()"
  span := ⟨⟨0, 2, 2⟩, ⟨0, 4, 4⟩⟩

/-- A wrapper around the argument list. -/
def wrappedArguments : Node :=
  { emptyArguments with
    tag := "expression", children := [emptyArguments], named := [emptyArguments] }

/-- Parentheses around the wrapper. -/
def argumentsInParentheses : Node where
  tag := "parenthesized_expression"
  text := "(())"
  span := ⟨⟨0, 1, 1⟩, ⟨0, 5, 5⟩⟩
  children := [wrappedArguments]
  named := [wrappedArguments]

/-- The list is asked twice, as a candidate and as the first child, and answers neither time. -/
theorem result_argumentsInParentheses :
    (expression argumentsInParentheses).result {} = .ok none := by
  have hwrapper : wrappedArguments.Wraps emptyArguments := .plain (.inl (by decide)) rfl rfl
  have hparentheses : argumentsInParentheses.Wraps wrappedArguments :=
    @Wraps.parentheses _ _ [] [] (by decide) rfl rfl (by decide)
  rw [result_of_wraps hparentheses (by decide) fun _ => ⟨_, hwrapper, by decide⟩,
    result_of_wraps hwrapper (by decide) fun h => absurd h (by decide), expression_eq]
  rfl

theorem exists_report_of_argumentsInParentheses :
    (expression argumentsInParentheses).result {} = .ok none ∧
      ∃ r ∈ Handler.collector.reports ((expression argumentsInParentheses).events {}),
        r.severity = .error ∧
          ∃ m : Node, m.Within argumentsInParentheses ∧ r.span = some m.span :=
  ⟨result_argumentsInParentheses,
    exists_report_of_expression_none result_argumentsInParentheses .collector⟩

end Convert

end Scad
