import Mathlib.Data.List.Forall2
import Scad.Proofs.Printing.Levels

/-!
# Printed Expressions Read Back

The text of a plain expression reads as the expression, up to spans.  By induction over the
expression, its text is to the reader what its strength says (`Expression.Reads`); each way to build
an expression has one lemma here.
-/

namespace Scad

open Token (lex EndsWord)

/-! ## §1 Operators -/

namespace BinaryOperator

theorem operandStrengths_snd (op : BinaryOperator) : op.operandStrengths.2 = op.rightLeast := by
  cases op <;> rfl

theorem strength_le_operandStrengths_fst (op : BinaryOperator) :
    op.strength ≤ op.operandStrengths.1 := by
  cases op <;> decide

theorem operandStrengths_fst_pos (op : BinaryOperator) : 0 < op.operandStrengths.1 := by
  cases op <;> decide

/-- No operator in a left operand takes the operator behind it. -/
theorem strength_lt_rightLeast {op inner : BinaryOperator}
    (h : op.operandStrengths.1 ≤ inner.strength) : op.strength + 1 ≤ inner.rightLeast := by
  revert h
  cases op <;> cases inner <;> decide

theorem strength_le_rightLeast (op : BinaryOperator) : op.strength ≤ op.rightLeast := by
  cases op <;> decide

theorem rightLeast_pos (op : BinaryOperator) : 0 < op.rightLeast := by
  cases op <;> decide

theorem rightLeast_le_power (op : BinaryOperator) :
    op.rightLeast ≤ power.strength + 1 := by
  cases op <;> decide

theorem strength_lt_unary (op : BinaryOperator) : op.strength < UnaryOperator.strength := by
  cases op <;> decide

end BinaryOperator

section Operators

variable {left right condition consequence alternative operand : Expression} {s : Span}

/-- The left operand leaves the operator to the operation, and the right operand takes everything up
to the first operator that is too weak for it. -/
theorem readsOperation_binary (op : BinaryOperator) (hleft : left.Reads) (hright : right.Reads) :
    ReadsOperation op.strength op.rightLeast (Expression.binary op left right s).write
      (Expression.binary op left right s).bare := by
  intro least hleast cs hword hends hfollow
  rw [Expression.write_binary, Expression.bare_binary, op.operandStrengths_snd]
  generalize hl : left.inPlace op.operandStrengths.1 left.write = l
  generalize hr : right.inPlace op.rightLeast right.write = r
  have hreadsLeft : ReadsOperation op.operandStrengths.1 (op.strength + 1) l left.bare :=
    hl ▸ hleft.inOperationPlace op.operandStrengths_fst_pos
      (Nat.succ_le_succ op.strength_le_power) fun _ => BinaryOperator.strength_lt_rightLeast
  have hreadsRight : ReadsOperation op.rightLeast op.rightLeast r right.bare :=
    hr ▸ hright.inOperationPlace op.rightLeast_pos op.rightLeast_le_power
      fun inner h => Nat.le_trans h inner.strength_le_rightLeast
  -- Behind the left operand there is the sign of the operator.
  have hsign : lex (' ' :: (op.symbol.toList ++ ' ' :: (r ++ cs))) =
      .operator op :: lex (r ++ cs) := by
    rw [Token.lex_blank, Token.lex_operator]
  have hleast' := Nat.le_trans hleast op.strength_le_operandStrengths_fst
  obtain ⟨hstarts, hread⟩ := hreadsLeft least hleast'
    (' ' :: (op.symbol.toList ++ ' ' :: (r ++ cs))) (endsWord_cons (by decide) _)
    (by simp [hsign, EndsOperand]) (by rw [hsign]; rintro _ ⟨⟩; exact Nat.lt_succ_self _)
  obtain ⟨-, hright⟩ := hreadsRight op.rightLeast (Nat.le_refl _) cs hword hends hfollow
  rw [continueOperation_stop hfollow] at hright
  rw [hsign, continueOperation_operator hleast hright] at hread
  have htext : l ++ ' ' :: op.symbol.toList ++ ' ' :: r ++ cs =
      l ++ ' ' :: (op.symbol.toList ++ ' ' :: (r ++ cs)) := by
    simp
  rw [htext]
  exact ⟨hstarts, hread⟩

theorem reads_binary {op : BinaryOperator} (hleft : left.Reads) (hright : right.Reads) :
    (Expression.binary op left right s).Reads := by
  have hoperation := readsOperation_binary (s := s) op hleft hright
  have hunary := op.strength_lt_unary
  refine ⟨fun h => ?_, fun h => ?_, fun _ => hoperation, hoperation.expression⟩
  · simp only [Expression.strength, Expression.fullStrength, UnaryOperator.strength] at h hunary
    omega
  · exact absurd h (Nat.not_le.mpr hunary)

theorem reads_unary {op : UnaryOperator} (hoperand : operand.Reads) :
    (Expression.unary op operand s).Reads := by
  have hreads : ReadsOperand (Expression.unary op operand s).write
      (Expression.unary op operand s).bare := by
    intro cs hword hends
    obtain ⟨hstarts, hread⟩ := hoperand.inUnaryPlace cs hword hends
    rw [Expression.write_unary, Expression.bare_unary, List.append_assoc,
      Token.lex_unary op hstarts.head?_ne_equals]
    exact ⟨⟨_, rfl, by simp [Token.opensOperand]⟩,
      readOperand_unary (Token.unary?_ofUnary op) hread⟩
  refine ⟨fun h => ?_, fun _ => hreads, fun _ => hreads.operation,
    (hreads.operation : ReadsOperation 0 0 _ _).expression⟩
  simp [Expression.strength, Expression.fullStrength, UnaryOperator.strength] at h

/-- An expression that may not stand as an operand. -/
theorem reads_of_expression {e : Expression} (hstrength : e.strength = 0)
    (h : ReadsExpression e.write e.bare) : e.Reads :=
  ⟨fun hfull => by simp [hstrength, Expression.fullStrength] at hfull,
    fun hunary => by simp [hstrength, UnaryOperator.strength] at hunary,
    fun hpos => by simp [hstrength] at hpos, h⟩

/-- Only the condition may be no conditional and no `let` without parentheses; it ends at the first
sign that is no operator. -/
theorem reads_conditional (hcondition : condition.Reads) (hconsequence : consequence.Reads)
    (halternative : alternative.Reads) :
    (Expression.conditional condition consequence alternative s).Reads := by
  apply reads_of_expression rfl
  intro cs hword hends
  rw [Expression.write_conditional, Expression.bare_conditional]
  generalize hc : condition.inPlace 1 condition.write = c
  have hreads : ReadsOperation 1 1 c condition.bare :=
    hc ▸ hcondition.inOperationPlace (Nat.le_refl _) (by decide) fun op _ => op.rightLeast_pos
  have hcolon : lex (' ' :: ':' :: ' ' :: (alternative.write ++ cs)) =
      .colon :: lex (alternative.write ++ cs) := by
    rw [Token.lex_blank, Token.lex_colon, Token.lex_blank]
  have hquestion (cs : List Char) : lex (' ' :: '?' :: ' ' :: cs) = .question :: lex cs := by
    rw [Token.lex_blank, Token.lex_question, Token.lex_blank]
  have htext : c ++ " ? ".toList ++ consequence.write ++ " : ".toList ++ alternative.write ++ cs =
      c ++ ' ' :: '?' :: ' ' :: (consequence.write ++ ' ' :: ':' :: ' ' ::
        (alternative.write ++ cs)) := by
    simp
  obtain ⟨-, halternative⟩ := halternative.expression cs hword hends
  obtain ⟨-, hconsequence⟩ :=
    hconsequence.expression.upTo (endsWord_cons (by decide) _) hcolon (by simp)
  rw [htext]
  generalize consequence.write ++ ' ' :: ':' :: ' ' :: (alternative.write ++ cs) = rest at *
  obtain ⟨hstarts, hcondition⟩ := hreads.whole (' ' :: '?' :: ' ' :: rest)
    (endsWord_cons (by decide) _) (by simp [hquestion, EndsOperand]) (by simp [hquestion])
  rw [hquestion] at hcondition
  exact ⟨hstarts.imp fun t ht => by simp [Token.opensExpression, ht],
    readExpression_conditional (hstarts.head?_ne (by decide)) hcondition hconsequence halternative⟩

end Operators

/-! ## §2 Brackets -/

section Brackets

variable {array index object start stop step : Expression} {name : String} {s : Span}

theorem reads_identifier (hname : isName name = true) : (Expression.identifier name s).Reads := by
  apply Expression.Reads.of_full
  intro cs hword hparen
  rw [Expression.write_identifier, Expression.bare_identifier, Token.lex_name hname hword]
  exact ⟨⟨_, rfl, rfl⟩, readPostfix_of_primary (readPrimary_name hname hparen)⟩

theorem reads_index (harray : array.Reads) (hindex : index.Reads) :
    (Expression.index array index s).Reads := by
  apply Expression.Reads.of_full
  intro cs _ _
  rw [Expression.write_index, Expression.bare_index]
  generalize ha : array.inPlace Expression.fullStrength array.write = a
  have hreads : ReadsPostfix a array.bare := ha ▸ harray.inFullPlace
  have htext : a ++ '[' :: index.write ++ [']'] ++ cs = a ++ '[' :: (index.write ++ ']' :: cs) := by
    simp
  obtain ⟨-, hindex⟩ :=
    hindex.expression.upTo (endsWord_cons (by decide) cs) (Token.lex_rightBracket cs) (by simp)
  obtain ⟨hstarts, hread⟩ := hreads ('[' :: (index.write ++ ']' :: cs))
    (endsWord_cons (by decide) _) (by simp [Token.lex_leftBracket])
  rw [Token.lex_leftBracket, continuePostfix_index hindex] at hread
  rw [htext]
  exact ⟨hstarts, hread⟩

theorem reads_member (hobject : object.Reads) (hname : isName name = true) :
    (Expression.member object name s).Reads := by
  apply Expression.Reads.of_full
  intro cs hword _
  rw [Expression.write_member, Expression.bare_member, List.append_assoc, List.cons_append]
  have hdot : lex ('.' :: (name.toList ++ cs)) = .dot :: .word name :: lex cs := by
    rw [Token.lex_dot, Token.lex_name hname hword]
  obtain ⟨hstarts, hread⟩ := hobject.inFullPlace ('.' :: (name.toList ++ cs))
    (endsWord_cons (by decide) _) (by simp [hdot])
  rw [hdot, continuePostfix_member hname] at hread
  exact ⟨hstarts, hread⟩

/-- What stands between brackets is left to `readBrackets`. -/
theorem readsPostfix_brackets {w : List Char} {v : Expression}
    (h : ∀ cs, outcome (readBrackets (lex (w ++ ']' :: cs))) = some (v, lex cs)) :
    ReadsPostfix ('[' :: w ++ [']']) v := by
  intro cs _ _
  have htext : '[' :: w ++ [']'] ++ cs = '[' :: (w ++ ']' :: cs) := by simp
  rw [htext, Token.lex_leftBracket]
  exact ⟨⟨.leftBracket, rfl, rfl⟩, readPostfix_of_primary (readPrimary_brackets (h cs))⟩

theorem reads_range (hstart : start.Reads) (hstop : stop.Reads) :
    (Expression.range start none stop s).Reads := by
  apply Expression.Reads.of_full
  have hwrite : (Expression.range start none stop s).write =
      '[' :: (start.write ++ ':' :: stop.write) ++ [']'] := by
    simp [Expression.write_range]
  rw [hwrite, Expression.bare_range]
  apply readsPostfix_brackets
  intro cs
  obtain ⟨-, hstop⟩ :=
    hstop.expression.upTo (endsWord_cons (by decide) cs) (Token.lex_rightBracket cs) (by simp)
  obtain ⟨hstarts, hstart⟩ := hstart.expression.upTo (endsWord_cons (by decide) _)
    (Token.lex_colon (stop.write ++ ']' :: cs)) (by simp)
  rw [List.append_assoc, List.cons_append]
  exact readBrackets_range (hstarts.head?_ne (by decide)) hstart hstop

theorem reads_steppedRange (hstart : start.Reads) (hstep : step.Reads) (hstop : stop.Reads) :
    (Expression.range start (some step) stop s).Reads := by
  apply Expression.Reads.of_full
  have hwrite : (Expression.range start (some step) stop s).write =
      '[' :: (start.write ++ ':' :: (step.write ++ ':' :: stop.write)) ++ [']'] := by
    simp [Expression.write_steppedRange]
  rw [hwrite, Expression.bare_steppedRange]
  apply readsPostfix_brackets
  intro cs
  obtain ⟨-, hstop⟩ :=
    hstop.expression.upTo (endsWord_cons (by decide) cs) (Token.lex_rightBracket cs) (by simp)
  obtain ⟨-, hstep⟩ := hstep.expression.upTo (endsWord_cons (by decide) _)
    (Token.lex_colon (stop.write ++ ']' :: cs)) (by simp)
  obtain ⟨hstarts, hstart⟩ := hstart.expression.upTo (endsWord_cons (by decide) _)
    (Token.lex_colon (step.write ++ ':' :: (stop.write ++ ']' :: cs))) (by simp)
  have htext : start.write ++ ':' :: (step.write ++ ':' :: stop.write) ++ ']' :: cs =
      start.write ++ ':' :: (step.write ++ ':' :: (stop.write ++ ']' :: cs)) := by
    simp
  rw [htext]
  exact readBrackets_steppedRange (hstarts.head?_ne (by decide)) hstart hstep hstop

end Brackets

/-! ## §3 Lists -/

/-- The text is read as an item of a list. -/
def ReadsItem (w : List Char) (i : Item) : Prop :=
  ∀ cs, EndsWord cs → EndsExpression (lex cs) →
    Starts Token.opensExpression (lex (w ++ cs)) ∧
      outcome (readItem (lex (w ++ cs))) = some (i, lex cs)

section Lists

variable {w : List Char} {v : Expression} {ws : List (List Char)} {items : List Item}
  {elements : List Expression} {name : String} {s : Span}

theorem lex_separator (cs : List Char) : lex (',' :: ' ' :: cs) = .comma :: lex cs := by
  rw [Token.lex_comma, Token.lex_blank]

theorem ReadsExpression.item (h : ReadsExpression w v) : ReadsItem w ⟨none, v⟩ := by
  intro cs hword hends
  obtain ⟨hstarts, hread⟩ := h cs hword hends
  exact ⟨hstarts, readItem_value hread fun hequals => by simpa using hends _ hequals⟩

theorem ReadsExpression.namedItem (hname : isName name = true) (h : ReadsExpression w v) :
    ReadsItem (name.toList ++ equalsSign ++ w) ⟨some name, v⟩ := by
  intro cs hword hends
  obtain ⟨-, hread⟩ := h cs hword hends
  have hequals : lex (' ' :: '=' :: ' ' :: (w ++ cs)) = .equals :: lex (w ++ cs) := by
    rw [Token.lex_blank, Token.lex_ofChar (by decide) (by decide), Token.lex_blank]
    · rfl
    · rintro _ ⟨⟩
      exact Token.ofPair?_blank _
  have htext : name.toList ++ equalsSign ++ w ++ cs =
      name.toList ++ ' ' :: '=' :: ' ' :: (w ++ cs) := by
    simp [equalsSign]
  rw [htext, Token.lex_name hname (endsWord_cons (by decide) _), hequals]
  exact ⟨⟨_, rfl, rfl⟩, readItem_named hname hread⟩

/-- Items with commas between them are read one after the other, up to the closing sign. -/
theorem readItemsFrom_intercalate {c : Char} {close : Token}
    (hc : isWordChar c = false) (hclose : close ∈ [Token.rightParen, .rightBracket])
    (hlex : ∀ cs, lex (c :: cs) = close :: lex cs) (cs : List Char)
    (h : List.Forall₂ ReadsItem ws items) (hne : ws ≠ []) :
    Starts Token.opensExpression (lex (itemSeparator.intercalate ws ++ c :: cs)) ∧
      outcome (readItemsFrom close (lex (itemSeparator.intercalate ws ++ c :: cs))) =
        some (items, lex cs) := by
  have hends : close ∈ [Token.rightParen, .rightBracket, .comma, .colon] := by
    simp only [List.mem_cons, List.not_mem_nil, or_false] at hclose
    rcases hclose with rfl | rfl <;> simp
  induction h with
  | nil => exact absurd rfl hne
  | @cons w i ws items hitem hrest ih =>
    cases hrest with
    | nil =>
      obtain ⟨hstarts, hread⟩ := hitem (c :: cs) (endsWord_cons hc cs) (by
        rw [hlex]
        rintro _ ⟨⟩
        exact hends)
      rw [hlex] at hread
      have htext : itemSeparator.intercalate [w] ++ c :: cs = w ++ c :: cs := by simp
      rw [htext]
      exact ⟨hstarts, readItemsFrom_last (by rintro rfl; simp at hclose) hread⟩
    | @cons w' _ ws _ _ _ =>
      obtain ⟨-, ih⟩ := ih (List.cons_ne_nil _ _)
      have htext : itemSeparator.intercalate (w :: w' :: ws) ++ c :: cs =
          w ++ ',' :: ' ' :: (itemSeparator.intercalate (w' :: ws) ++ c :: cs) := by
        simp [itemSeparator]
      rw [htext]
      generalize itemSeparator.intercalate (w' :: ws) ++ c :: cs = rest at ih ⊢
      obtain ⟨hstarts, hread⟩ := hitem (',' :: ' ' :: rest) (endsWord_cons (by decide) _)
        (by simp [lex_separator, EndsExpression])
      rw [lex_separator] at hread
      exact ⟨hstarts, readItemsFrom_cons hread ih⟩

/-- A list in parentheses may be empty. -/
theorem readItems_intercalate (h : List.Forall₂ ReadsItem ws items) (cs : List Char) :
    outcome (readItems .rightParen (lex (itemSeparator.intercalate ws ++ ')' :: cs))) =
      some (items, lex cs) := by
  by_cases hne : ws = []
  · subst hne
    obtain rfl : items = [] := List.forall₂_nil_left_iff.mp h
    have htext : itemSeparator.intercalate [] ++ ')' :: cs = ')' :: cs := by simp
    rw [htext, Token.lex_rightParen]
    exact readItems_nil
  · obtain ⟨⟨t, hhead, hopens⟩, hread⟩ :=
      readItemsFrom_intercalate (by decide) (by simp) Token.lex_rightParen cs h hne
    obtain ⟨ts, hts⟩ := List.head?_eq_some_iff.mp hhead
    rw [hts] at hread ⊢
    rw [readItems_of_ne, hread]
    rintro rfl
    simp [Token.opensExpression, Token.opensOperand, Token.opensPostfix, Token.unary?] at hopens

/-! ### Arguments, elements and bindings -/

/-- The arguments of a call as items. -/
theorem exists_items_of_arguments {arguments : List Argument}
    (hnames : ∀ a ∈ arguments, ∀ n, a.name = some n → isName n = true)
    (hvalues : ∀ a ∈ arguments, ∃ e, a.value = .expression e ∧ e.Reads) :
    ∃ items, List.Forall₂ ReadsItem (arguments.map Argument.write) items ∧
      items.map Item.argument = arguments.map Argument.bare := by
  induction arguments with
  | nil => exact ⟨[], .nil, rfl⟩
  | cons a arguments ih =>
    obtain ⟨items, hitems, hbare⟩ := ih
      (fun b hb => hnames b (List.mem_cons_of_mem a hb))
      (fun b hb => hvalues b (List.mem_cons_of_mem a hb))
    obtain ⟨e, hvalue, hreads⟩ := hvalues a List.mem_cons_self
    obtain ⟨name, value, span⟩ := a
    obtain rfl : value = .expression e := hvalue
    refine ⟨⟨name, e.bare⟩ :: items, .cons ?_ hitems, ?_⟩
    · cases name with
      | none => simpa [Argument.write, Value.write] using hreads.expression.item
      | some n =>
        simpa [Argument.write, Value.write] using
          hreads.expression.namedItem (hnames _ List.mem_cons_self n rfl)
    · rw [List.map_cons, List.map_cons, hbare]
      rfl

theorem reads_call {arguments : List Argument} (hname : isName name = true)
    (hnames : ∀ a ∈ arguments, ∀ n, a.name = some n → isName n = true)
    (hvalues : ∀ a ∈ arguments, ∃ e, a.value = .expression e ∧ e.Reads) :
    (Expression.call name arguments s).Reads := by
  apply Expression.Reads.of_full
  intro cs _ _
  obtain ⟨items, hitems, hbare⟩ := exists_items_of_arguments hnames hvalues
  rw [Expression.write_call, Expression.bare_call, Argument.writeList_eq,
    Argument.bareList_eq_map, ← hbare]
  generalize arguments.map Argument.write = ws at hitems ⊢
  have htext : name.toList ++ '(' :: itemSeparator.intercalate ws ++ [')'] ++ cs =
      name.toList ++ '(' :: (itemSeparator.intercalate ws ++ ')' :: cs) := by
    simp
  rw [htext, Token.lex_name hname (endsWord_cons (by decide) _), Token.lex_leftParen]
  exact ⟨⟨_, rfl, rfl⟩,
    readPostfix_of_primary (readPrimary_call hname (readItems_intercalate hitems cs))⟩

/-- The elements of a vector as items. -/
theorem items_of_elements (helements : ∀ e ∈ elements, e.Reads) :
    List.Forall₂ ReadsItem (elements.map Expression.write) (elements.map fun e => ⟨none, e.bare⟩) ∧
      (elements.map fun e => (⟨none, e.bare⟩ : Item)).mapM Item.element? =
        some (elements.map Expression.bare) := by
  induction elements with
  | nil => exact ⟨.nil, rfl⟩
  | cons e es ih =>
    obtain ⟨hitems, hbare⟩ := ih fun x hx => helements x (List.mem_cons_of_mem e hx)
    refine ⟨.cons (helements e List.mem_cons_self).expression.item hitems, ?_⟩
    rw [List.map_cons, List.mapM_cons, hbare]
    rfl

theorem reads_vector (helements : ∀ e ∈ elements, e.Reads) :
    (Expression.vector elements s).Reads := by
  apply Expression.Reads.of_full
  rw [Expression.write_vector, Expression.bare_vector, Expression.writeList_eq,
    Expression.bareList_eq_map]
  apply readsPostfix_brackets
  intro cs
  match elements with
  | [] =>
    have htext : itemSeparator.intercalate (([] : List Expression).map Expression.write) ++
        ']' :: cs = ']' :: cs := by
      simp
    rw [htext, Token.lex_rightBracket]
    exact readBrackets_nil
  | [e] =>
    have htext : itemSeparator.intercalate ([e].map Expression.write) ++ ']' :: cs =
        e.write ++ ']' :: cs := by
      simp
    obtain ⟨hstarts, hread⟩ := (helements e (by simp)).expression.upTo
      (endsWord_cons (by decide) cs) (Token.lex_rightBracket cs) (by simp)
    rw [htext]
    exact readBrackets_single (hstarts.head?_ne (by decide)) hread
  | e :: e' :: es =>
    obtain ⟨hitems, helements'⟩ :=
      items_of_elements fun x hx => helements x (List.mem_cons_of_mem e hx)
    obtain ⟨-, hrest⟩ :=
      readItemsFrom_intercalate (by decide) (by simp) Token.lex_rightBracket cs hitems (by simp)
    have htext : itemSeparator.intercalate ((e :: e' :: es).map Expression.write) ++ ']' :: cs =
        e.write ++ ',' :: ' ' :: (itemSeparator.intercalate ((e' :: es).map Expression.write) ++
          ']' :: cs) := by
      simp [itemSeparator]
    rw [htext]
    generalize itemSeparator.intercalate ((e' :: es).map Expression.write) ++ ']' :: cs = rest
      at hrest ⊢
    obtain ⟨hstarts, hread⟩ := (helements e List.mem_cons_self).expression.upTo
      (endsWord_cons (by decide) _) (lex_separator rest) (by simp)
    exact readBrackets_elements (hstarts.head?_ne (by decide)) hread hrest helements'

/-- The bindings of a `let` as items. -/
theorem items_of_bindings {bindings : List Binding} (hnames : ∀ b ∈ bindings, isName b.name = true)
    (hvalues : ∀ b ∈ bindings, b.value.Reads) :
    List.Forall₂ ReadsItem (bindings.map Binding.write)
        (bindings.map fun b => ⟨some b.name, b.value.bare⟩) ∧
      (bindings.map fun b => (⟨some b.name, b.value.bare⟩ : Item)).mapM Item.binding? =
        some (bindings.map Binding.bare) := by
  induction bindings with
  | nil => exact ⟨.nil, rfl⟩
  | cons b bindings ih =>
    obtain ⟨hitems, hbare⟩ := ih (fun x hx => hnames x (List.mem_cons_of_mem b hx))
      (fun x hx => hvalues x (List.mem_cons_of_mem b hx))
    have hitem := (hvalues b List.mem_cons_self).expression.namedItem (hnames b List.mem_cons_self)
    obtain ⟨name, nameSpan, value, span⟩ := b
    refine ⟨.cons ?_ hitems, ?_⟩
    · rw [Binding.write]
      exact hitem
    · rw [List.map_cons, List.mapM_cons, hbare]
      rfl

theorem reads_letIn {bindings : List Binding} {body : Expression}
    (hnames : ∀ b ∈ bindings, isName b.name = true) (hvalues : ∀ b ∈ bindings, b.value.Reads)
    (hbody : body.Reads) : (Expression.letIn bindings body s).Reads := by
  apply reads_of_expression rfl
  intro cs hword hends
  obtain ⟨hitems, hbindings⟩ := items_of_bindings hnames hvalues
  rw [Expression.write_letIn, Expression.bare_letIn, Binding.writeList_eq, Binding.bareList_eq_map]
  generalize bindings.map Binding.write = ws at hitems ⊢
  have htext : "let (".toList ++ itemSeparator.intercalate ws ++ ") ".toList ++ body.write ++ cs =
      "let (".toList ++ (itemSeparator.intercalate ws ++ ')' :: ' ' :: (body.write ++ cs)) := by
    simp
  have hread := readItems_intercalate hitems (' ' :: (body.write ++ cs))
  rw [Token.lex_blank] at hread
  rw [htext, Token.lex_let]
  obtain ⟨-, hbody⟩ := hbody.expression cs hword hends
  exact ⟨⟨_, rfl, rfl⟩, readExpression_let hread hbindings hbody⟩

end Lists

/-! ## §4 Whole expressions -/

/-- The text of a plain expression is to the reader what its strength says. -/
theorem Expression.Plain.reads {e : Expression} (h : e.Plain) : e.Reads := by
  induction h with
  | identifier hname => exact reads_identifier hname
  | call hname hnames hkept _ ih =>
    refine reads_call hname hnames fun a ha => ?_
    obtain ⟨e, he⟩ := hkept a ha
    exact ⟨e, he, ih a ha e he⟩
  | vector _ ih => exact reads_vector ih
  | index _ _ harray hindex => exact reads_index harray hindex
  | member _ hname hobject => exact reads_member hobject hname
  | @range _ _ step _ _ _ _ hstart hstep hstop =>
    cases step with
    | none => exact reads_range hstart hstop
    | some step => exact reads_steppedRange hstart (hstep step rfl) hstop
  | letIn hnames _ _ hvalues hbody => exact reads_letIn hnames hvalues hbody
  | binary _ _ hleft hright => exact reads_binary hleft hright
  | unary _ hoperand => exact reads_unary hoperand
  | conditional _ _ _ hcondition hconsequence halternative =>
    exact reads_conditional hcondition hconsequence halternative

/-- Printing keeps the tree: the text of an expression of names reads as that expression, without
its spans. -/
theorem Expression.read?_text {e : Expression} (h : e.Plain) :
    Expression.read? e.text = some e.bare := by
  obtain ⟨-, hread⟩ := h.reads.expression [] (by simp [EndsWord]) (by simp [EndsExpression])
  have htext : e.write ++ [] = e.text.toList := by simp [text]
  rw [htext] at hread
  exact read?_of_outcome hread

/-- The expression `(a - (b - c)) ^ f(x, n = v[i])`. -/
def groupedPower : Expression :=
  .binary .power
    (.binary .subtract (.identifier "a" {})
      (.binary .subtract (.identifier "b" {}) (.identifier "c" {}) {}) {})
    (.call "f" [⟨none, .expression (.identifier "x" {}), {}⟩,
      ⟨some "n", .expression (.index (.identifier "v" {}) (.identifier "i" {}) {}), {}⟩] {}) {}

theorem groupedPower_plain : groupedPower.Plain := by
  have hname (name : String) (h : isName name = true) : (Expression.identifier name {}).Plain :=
    .identifier h
  have hindex : (Expression.index (.identifier "v" {}) (.identifier "i" {}) {}).Plain :=
    .index (hname _ (by decide)) (hname _ (by decide))
  refine .binary (.binary (hname _ (by decide))
    (.binary (hname _ (by decide)) (hname _ (by decide)))) (.call (by decide) ?_ (by simp) ?_)
  · rintro a ha n hn
    obtain rfl | rfl := List.mem_pair.mp ha
    · cases hn
    · cases hn
      decide
  · rintro a ha e he
    obtain rfl | rfl := List.mem_pair.mp ha
    · cases he
      exact hname _ (by decide)
    · cases he
      exact hindex

theorem Expression.read?_text_groupedPower :
    groupedPower.Plain ∧ Expression.read? "(a - (b - c)) ^ f(x, n = v[i])" = some groupedPower :=
  ⟨groupedPower_plain, read?_text groupedPower_plain⟩

end Scad
