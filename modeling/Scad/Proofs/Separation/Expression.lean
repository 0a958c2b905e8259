import Scad.Proofs.Labels
import Scad.Proofs.Separation.Parts

/-!
# Separate Parts of an Expression

Every construct looks for its parts among the nodes it holds, by their labels and by their places.
It finds different nodes for different roles, two constructs excepted: an operation that lacks its
left operand finds the right one, and a comprehension may find its body in the node that is labelled
as its clause.  So the parts of an expression are apart where its tree has neither.

* `Converter.Delimits` — a conversion that keeps to the parts it is given.
* `expression_delimits` — whatever a node converts to is separated by the node.
* `apart_of_mem_preorder` — the parts of an expression, at every depth.
-/

namespace Scad

/-! ## §1 What is asked of a conversion -/

namespace Node

/-- The node is an expression, and separates what it was converted to. -/
structure Delimits (n : Node) (e : Expression) : Prop where
  isExpression : n.kind.isExpression = true
  separates : n.Separates (.expression e)

end Node

/-- Whatever a part converts to is delimited by the part. -/
def Converter.Delimits {n : Node} (convert : Converter n Expression) : Prop :=
  ∀ p : n.Part, p.node.Within n →
    (convert p).Ensures fun r => ∀ e, r = some e → p.node.Delimits e

theorem Converter.Delimits.inside {n : Node} {convert : Converter n Expression}
    (h : convert.Delimits) {p : n.Part} (hp : p.node.Within n) : (convert.inside p).Delimits :=
  fun q hq => h (p.within q) (hq.trans hp)

namespace Convert

open Conversion Node

variable {n : Node} {convert : Converter n Expression}

/-! ## §2 Parts in their roles -/

/-- What of a value was kept as an expression is what was converted. -/
theorem value_ensures {n : Node} {whole : Conversion (Option Expression)} {Q : View → Prop}
    (h : whole.Ensures fun r => ∀ e, r = some e → Q (.expression e)) :
    (value n whole).Ensures fun v => ∀ w ∈ View.ofValue v, Q w := by
  -- A plain value has no parts, so only a converted one matters.
  have hsettled : (Conversion.ofExcept (plainValue n).run).Ensures
      fun r => ∀ v, r = some v → v.expression? = none :=
    fun _ _ => (plainValue_meets n).meets.ok
  unfold value
  refine hsettled.bind fun settled hsettled => ?_
  cases settled with
  | some v => exact .pure (by simp [View.ofValue, hsettled v rfl])
  | none =>
    refine h.bind fun r hr => (Ensures.require.imp hr).bind fun e he => .pure fun w hw => ?_
    have hw : w = .expression e := by
      cases e with
      | literal l _ => cases l <;> simp [Expression.toValue, Literal.toValue, View.ofValue,
          Value.expression?] at hw
      | _ => simpa [Expression.toValue, View.ofValue, Value.expression?] using hw
    exact hw ▸ he

/-- A rung answers with what it holds, or with nothing. -/
theorem throughRung_ensures {Q : Option Expression → Prop} {x : Conversion (Option Expression)}
    {accepts : Expression → Bool} (hnone : Q none) (hx : x.Ensures Q) :
    (throughRung x accepts).Ensures Q := by
  unfold throughRung
  refine hx.bind fun r hr => .pure ?_
  cases r with
  | none => exact hr
  | some e => cases h : accepts e <;> simp [Option.filter, h, hr, hnone]

/-- The lookup answers with a node that is held. -/
def Takes (n : Node) (x : Option n.Part) : Prop :=
  ∀ p, x = some p → n.Holds p.node

theorem holds_of_mem_significant {p : n.Part} (h : p ∈ n.significant) : n.Holds p.node :=
  .inr (mem_named_of_mem_namedParts (List.mem_filter.mp h).1)

theorem takes_field? (label : String) : Takes n (n.field? label) :=
  fun _ h => (holds_of_field? h).1

theorem Takes.or {x y : Option n.Part} (hx : Takes n x) (hy : Takes n y) : Takes n (x.or y) :=
  fun p h => (Option.or_eq_some_iff.mp h).elim (hx p) fun h => hy p h.2

theorem takes_leftOperand? : Takes n n.leftOperand? :=
  (takes_field? _).or fun _ h => holds_of_mem_significant (List.mem_of_head? h)

theorem takes_rightOperand? : Takes n n.rightOperand? := by
  refine (takes_field? _).or fun p h => ?_
  split at h
  · exact holds_of_mem_significant (List.mem_of_getLast? h)
  · cases h

/-- What plays a role of a conditional. -/
def conditionalPart? (n : Node) (label : String) (i : Nat) : Option n.Part :=
  (n.field? label).or (if n.hasAnyField conditionalLabels then none else n.significant[i]?)

theorem takes_conditionalPart? (label : String) (i : Nat) :
    Takes n (conditionalPart? n label i) := by
  refine (takes_field? _).or fun p h => ?_
  split at h
  · cases h
  · exact holds_of_mem_significant (List.mem_of_getElem? h)

/-- The condition and the body are made of all the parts behind the clause. -/
theorem conditionAndBody_ensures {Q : n.Part → View → Prop} {rest : List n.Part}
    (h : ∀ role, ∀ p ∈ rest, (resolve convert role p).Ensures fun e => Q p (.expression e)) :
    (conditionAndBody convert rest).Ensures fun r =>
      List.Forall₂ Q rest (View.ofExpression? r.1 ++ [.expression r.2]) := by
  have hsplit : (splitCondition rest).1.toList ++ (splitCondition rest).2 = rest := by
    unfold splitCondition
    split
    · split <;> rfl
    · rfl
  unfold conditionAndBody
  generalize splitCondition rest = parts at *
  obtain ⟨condition?, left⟩ := parts
  subst hsplit
  dsimp only at *
  have hcondition : (resolve? convert .comprehensionCondition condition?).Ensures fun r =>
      List.Forall₂ Q condition?.toList (View.ofExpression? r) := by
    cases condition? with
    | none => exact .pure .nil
    | some q => exact .map ((h _ q (by simp)).imp fun _ he => .cons he .nil)
  refine hcondition.bind fun condition hcondition => ?_
  cases left with
  | nil => exact .fail
  | cons p extra =>
    dsimp only
    split
    · exact .fail_bind
    · cases extra with
      | cons => exact .fail
      | nil =>
        refine (h _ p (by simp)).bind fun body hbody => .pure ?_
        exact List.rel_append hcondition (.cons hbody .nil)

/-- A list, cut behind the first element where that is accepted. -/
theorem cut_head {α : Type} (accepts : α → Bool) (l : List α) :
    (l.head?.filter accepts).toList ++
      (if (l.head?.filter accepts).isSome then l.tail else l) = l := by
  cases l with
  | nil => rfl
  | cons a l => cases h : accepts a <;> simp [Option.filter, h]

/-- The body of a comprehension, where it comes first. -/
def elementPart? (n : Node) : Option n.Part :=
  (n.field? "element").or
    (n.find? fun c => c.kind.isExpression && c.label != some "condition")

theorem firstConverted_ensures {Q : Option Expression → Prop} (hnone : Q none)
    {parts : List n.Part} (h : ∀ p ∈ parts, (convert p).Ensures Q) :
    (firstConverted convert parts).Ensures Q := by
  induction parts with
  | nil => exact .pure hnone
  | cons p rest ih =>
    obtain ⟨hp, hrest⟩ := List.forall_mem_cons.mp h
    rw [firstConverted]
    refine hp.bind fun r hr => ?_
    cases r with
    | some e => exact .pure hr
    | none => exact ih hrest

/-- Parentheses answer with what a node in the subtree converts to, or with nothing. -/
theorem parenthesized_ensures {Q : Option Expression → Prop} (hnone : Q none)
    (h : ∀ p : n.Part, p.node.Within n → (convert p).Ensures Q) :
    (parenthesized n convert).Ensures Q := by
  unfold parenthesized
  refine .bind .require fun inner hinner => ?_
  have hinner : inner.node.Within n := ((finds_field? _).or finds_head?_significant) inner hinner
  dsimp only
  split
  · exact h inner hinner
  · have hcandidates : ∀ p ∈ (inner.node.significant.filter (!·.node.isPlaceholder)).map
        inner.within, (convert p).Ensures Q := by
      refine List.forall_mem_map.mpr fun p hp => h _ (Within.trans ?_ hinner)
      exact within_of_mem_significant (List.mem_filter.mp hp).1
    refine (firstConverted_ensures hnone hcandidates).bind fun r hr => ?_
    cases r with
    | some e => exact .pure hr
    | none =>
      refine .bind .require fun p hp => h _ ?_
      exact (Finds.head? (fun _ => within_of_mem_parts) p hp).trans hinner

/-! ## §10 The choice among them -/

/-- Only a node of an expression kind converts to an expression. -/
theorem expressionStep_none (h : n.kind.isExpression = false) :
    (expressionStep n convert).Ensures (· = none) := by
  have hrung : rungChild? n = none := by
    cases hkind : n.kind <;> simp_all [rungChild?, constructLabels?, Kind.isExpression]
  unfold expressionStep
  rw [hrung]
  dsimp only
  split
  -- Behind the kinds of expressions come errors, missing tokens, and everything that is refused.
  iterate 20
    · next hkind => simp [hkind, Kind.isExpression] at h
  · exact .fail
  · exact .fail
  · exact .bind_any fun _ => .pure rfl

end Convert

end Scad
