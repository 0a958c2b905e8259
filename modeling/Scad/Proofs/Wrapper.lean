import Scad.Convert.Expression
import Scad.Proofs.Subtree

/-!
# Wrappers

A grammar wraps an expression in nodes that add nothing: general expression and literal nodes, rungs
of the precedence ladder without an operator, and parentheses.  Three different rules of the
conversion look through them.  Whatever the wrappers and however many, the outcome is that of the
node inside, be it an expression, a fault or nothing.

* `Node.Wraps` — a single wrapper around a node.
* `Node.Wrapped` — a finite stack of wrappers.
* `result_of_wrapped` — the outcome of a stack.
-/

namespace Scad

/-! ## §1 Stacks of wrappers -/

/-- The node `w` adds nothing to the node `x` inside it. -/
inductive Node.Wraps (w x : Node) : Prop where
  /-- A general node around its only child. -/
  | plain (hkind : w.kind = .expression ∨ w.kind = .literal) (hchildren : w.children = [x])
      (hnamed : w.named = [x])
  /-- An operation or a conditional that lost everything but one child: that child is no token of
  the construct, and has none of its labels. -/
  | rung {labels : List String} (hlabels : Convert.constructLabels? w.kind = some labels)
      (hchildren : w.children = [x]) (hnamed : w.named = [x]) (htoken : x.isNamed = true)
      (hlabel : ∀ label ∈ labels, x.label ≠ some label)
  /-- Parentheses, which may be missing on either side. -/
  | parentheses {opening closing : List Node} (hkind : w.kind = .parenthesizedExpression)
      (hchildren : w.children = opening ++ [x] ++ closing) (hnamed : w.named = [x])
      (htokens : ∀ t ∈ opening ++ closing, t.isNamed = false ∧ t.label ≠ some "expression")

/-- The node is `n` with a finite stack of wrappers around it. -/
inductive Node.Wrapped (n : Node) : Node → Prop where
  | bare : Node.Wrapped n n
  | wrap {w x : Node} (hx : Node.Wrapped n x) (hw : w.Wraps x) : Node.Wrapped n w

namespace Node.Wraps

variable {w x : Node}

theorem named_eq (h : w.Wraps x) : w.named = [x] := by
  cases h with
  | plain _ _ hnamed | rung _ _ hnamed _ _ | parentheses _ _ hnamed _ => exact hnamed

/-- No wrapper is a comment. -/
theorem kind_ne_comment (h : w.Wraps x) : w.kind ≠ .comment := by
  intro hcomment
  cases h with
  | plain hkind _ _ => simp [hcomment] at hkind
  | rung hlabels _ _ _ _ => simp [hcomment, Convert.constructLabels?] at hlabels
  | parentheses hkind _ _ _ => simp [hcomment] at hkind

/-- What a wrapper holds is the only part that counts. -/
theorem exists_significant (h : w.Wraps x) (hcomment : x.kind ≠ .comment) :
    ∃ p : w.Part, p.node = x ∧ w.significant = [p] := by
  have hmap : w.significant.map Part.node = [x] := by
    rw [w.map_node_significant, h.named_eq]
    simp [hcomment]
  obtain ⟨p, hsignificant, hp⟩ := List.map_eq_singleton_iff.mp hmap
  exact ⟨p, hp, hsignificant⟩

/-- A general wrapper has no other child. -/
theorem exists_first (h : w.Wraps x) (hkind : w.kind = .expression) :
    ∃ p : w.Part, w.parts.head? = some p ∧ p.node = x := by
  cases h with
  | plain _ hchildren _ =>
    rw [← w.map_node_parts] at hchildren
    obtain ⟨p, hparts, hp⟩ := List.map_eq_singleton_iff.mp hchildren
    exact ⟨p, by simp [hparts], hp⟩
  | rung hlabels _ _ _ _ => simp [hkind, Convert.constructLabels?] at hlabels
  | parentheses hparentheses _ _ _ => simp [hkind] at hparentheses

end Node.Wraps

/-- Around a node that is no general node itself, every general node of a stack is a wrapper. -/
theorem Node.Wrapped.inner {n w : Node} (h : n.Wrapped w) (hcomment : n.kind ≠ .comment)
    (hgeneral : n.kind ≠ .expression) :
    w.kind ≠ .comment ∧ (w.kind = .expression → ∃ x, w.Wraps x ∧ x.kind ≠ .comment) := by
  induction h with
  | bare => exact ⟨hcomment, fun h => absurd h hgeneral⟩
  | wrap _ hw ih => exact ⟨hw.kind_ne_comment, fun _ => ⟨_, hw, ih.1⟩⟩

/-! ## §2 A single wrapper -/

namespace Convert

open Conversion Node

variable {w x : Node}

/-- An empty rung holds its only child. -/
theorem onlyChild?_of_wraps {labels : List String} {p : w.Part} (hchildren : w.children = [x])
    (hnamed : w.named = [x]) (htoken : x.isNamed = true)
    (hlabel : ∀ label ∈ labels, x.label ≠ some label) (hsignificant : w.significant = [p]) :
    w.onlyChild? labels = some p := by
  have hfields : w.hasAnyField labels = false := by
    apply List.any_eq_false.mpr
    intro label hmem hfound
    obtain ⟨q, hq⟩ := Option.isSome_iff_exists.mp hfound
    obtain ⟨hholds, hq⟩ := holds_of_field? hq
    have hqx : q.node = x := by simpa [Holds, hchildren, hnamed] using hholds
    exact hlabel label hmem (hqx ▸ hq)
  unfold onlyChild?
  simp [hfields, hchildren, htoken, hsignificant]

/-- Parentheses hold what is wrapped, under a label or not. -/
theorem parenthesized_inner {opening closing : List Node} {p : w.Part} (hp : p.node = x)
    (hchildren : w.children = opening ++ [x] ++ closing) (hnamed : w.named = [x])
    (htokens : ∀ t ∈ opening ++ closing, t.isNamed = false ∧ t.label ≠ some "expression")
    (hsignificant : w.significant = [p]) :
    ∃ q : w.Part, q.node = x ∧ (w.field? "expression").or w.significant.head? = some q := by
  cases hfield : w.field? "expression" with
  | none => exact ⟨p, hp, by simp [hsignificant]⟩
  | some q =>
    refine ⟨q, ?_, rfl⟩
    obtain ⟨hholds, hlabel⟩ := holds_of_field? hfield
    -- No parenthesis has the label.
    have hnot : q.node ∉ opening ++ closing := fun h => (htokens _ h).2 hlabel
    rcases hholds with h | h
    · rw [hchildren] at h
      grind
    · simpa [hnamed] using h

theorem expression_plain {p : w.Part} (hkind : w.kind = .expression ∨ w.kind = .literal)
    (hsignificant : w.significant = [p]) : expression w = expression p.node := by
  rw [expression_eq]
  unfold expressionStep
  rcases hkind with hkind | hkind
  · simp [rungChild?, constructLabels?, hkind, wrappedChild?, hsignificant, expressions]
  · simp [rungChild?, constructLabels?, hkind, wrappedChild?, hsignificant, expressions]

theorem result_rung {p : w.Part} (hrung : rungChild? w = some p) (settings : Settings) :
    (expression w).result settings = (expression p.node).result settings := by
  rw [expression_eq]
  unfold expressionStep
  simp [hrung, expressions]

theorem expression_parenthesized (hkind : w.kind = .parenthesizedExpression) :
    expression w = parenthesized w (expressions w) := by
  rw [expression_eq]
  unfold expressionStep
  simp [rungChild?, constructLabels?, hkind]

theorem result_firstConverted_singleton {n : Node} (convert : Converter n Expression) (p : n.Part)
    (settings : Settings) :
    (firstConverted convert [p]).result settings = (convert p).result settings := by
  rw [firstConverted, result_bind]
  rcases (convert p).result settings with f | _ | e <;> rfl

/-- A general node in parentheses that holds a single node stands for that node.  Where the search
for a first expression finds none, the node itself is left to say why. -/
theorem result_parenthesized_general {settings : Settings} {q : w.Part} {r r' : q.node.Part}
    (hinner : (w.field? "expression").or w.significant.head? = some q)
    (hkind : q.node.kind = .expression) (hsignificant : q.node.significant = [r])
    (hfirst : q.node.parts.head? = some r') (hr : r'.node = r.node) :
    (parenthesized w (expressions w)).result settings = (expression r.node).result settings := by
  have hlast : (expressions w (q.within r')).result settings =
      (expression r.node).result settings := by
    rw [← hr]
    rfl
  have hsearch : (firstConverted (expressions w) [q.within r]).result settings =
      (expression r.node).result settings := result_firstConverted_singleton _ _ settings
  unfold parenthesized
  rw [hinner]
  simp only [require, pure_bind, hkind, hsignificant, hfirst, bne_self_eq_false,
    Bool.false_eq_true, if_false]
  rw [result_bind]
  -- A placeholder is left out of the search.
  cases hplaceholder : r.node.isPlaceholder with
  | true =>
    have hcandidates : [r].filter (!·.node.isPlaceholder) = [] := by simp [hplaceholder]
    rw [hcandidates]
    exact hlast
  | false =>
    have hcandidates : [r].filter (!·.node.isPlaceholder) = [r] := by simp [hplaceholder]
    rw [hcandidates, List.map_singleton, hsearch]
    rcases hresult : (expression r.node).result settings with f | _ | e
    · rfl
    · exact hlast.trans hresult
    · rfl

/-- The outcome of a wrapper is that of what it holds.  A general node in parentheses is looked
into, so it has to be a wrapper itself. -/
theorem result_of_wraps (h : w.Wraps x) (hcomment : x.kind ≠ .comment)
    (hinner : x.kind = .expression → ∃ y, x.Wraps y ∧ y.kind ≠ .comment) (settings : Settings) :
    (expression w).result settings = (expression x).result settings := by
  obtain ⟨p, rfl, hsignificant⟩ := h.exists_significant hcomment
  cases h with
  | plain hkind _ _ => rw [expression_plain hkind hsignificant]
  | rung hlabels hchildren hnamed htoken hlabel =>
    refine result_rung ?_ settings
    rw [rungChild?, hlabels]
    exact onlyChild?_of_wraps hchildren hnamed htoken hlabel hsignificant
  | parentheses hkind hchildren hnamed htokens =>
    rw [expression_parenthesized hkind]
    obtain ⟨q, hq, hfound⟩ := parenthesized_inner rfl hchildren hnamed htokens hsignificant
    rw [← hq] at hinner ⊢
    by_cases hgeneral : q.node.kind = .expression
    · obtain ⟨y, hwraps, hy⟩ := hinner hgeneral
      obtain ⟨r, rfl, hr⟩ := hwraps.exists_significant hy
      obtain ⟨r', hfirst, hr'⟩ := hwraps.exists_first hgeneral
      rw [result_parenthesized_general hfound hgeneral hr hfirst hr',
        expression_plain (.inl hgeneral) hr]
    · unfold parenthesized
      simp [hfound, hgeneral, expressions]

/-! ## §3 Whole stacks -/

/-- Wrappers are transparent: a stack of them around a node converts to the same expression with the
same span, fails with the same fault, or stands for nothing, as the node by itself does. -/
theorem result_of_wrapped {n w : Node} (hcomment : n.kind ≠ .comment)
    (hgeneral : n.kind ≠ .expression) (h : n.Wrapped w) (settings : Settings) :
    (expression w).result settings = (expression n).result settings := by
  induction h with
  | bare => rfl
  | wrap hx hw ih =>
    obtain ⟨hcomment, hinner⟩ := hx.inner hcomment hgeneral
    rw [result_of_wraps hw hcomment hinner, ih]

/-- A node of one digit. -/
def digit : Node where
  tag := "number"
  text := "1"
  span := ⟨⟨0, 1, 1⟩, ⟨0, 2, 2⟩⟩

/-- An opening parenthesis. -/
def openingParenthesis : Node where
  tag := "("
  text := "("
  span := ⟨⟨0, 0, 0⟩, ⟨0, 1, 1⟩⟩
  isNamed := false

/-- The digit in an operation without an operator. -/
def digitRung : Node :=
  { digit with tag := "binary_expression", children := [digit], named := [digit] }

/-- The operation in a general node. -/
def digitGeneral : Node :=
  { digit with tag := "expression", children := [digitRung], named := [digitRung] }

/-- The general node behind a parenthesis that is not closed. -/
def digitParenthesized : Node where
  tag := "parenthesized_expression"
  text := "(1"
  span := ⟨⟨0, 0, 0⟩, ⟨0, 2, 2⟩⟩
  children := [openingParenthesis, digitGeneral]
  named := [digitGeneral]

theorem result_of_wrapped_digit :
    digit.Wrapped digitParenthesized ∧
      (expression digitParenthesized).result {} = (expression digit).result {} := by
  have hrung : digitRung.Wraps digit :=
    @Wraps.rung _ _ binaryLabels (by decide) rfl rfl rfl (by decide)
  have hgeneral : digitGeneral.Wraps digitRung := .plain (.inl (by decide)) rfl rfl
  have hparentheses : digitParenthesized.Wraps digitGeneral :=
    @Wraps.parentheses _ _ [openingParenthesis] [] (by decide) rfl rfl (by decide)
  have hwrapped : digit.Wrapped digitParenthesized :=
    .wrap (.wrap (.wrap .bare hrung) hgeneral) hparentheses
  exact ⟨hwrapped, result_of_wrapped (by decide) (by decide) hwrapped {}⟩

end Convert

end Scad
