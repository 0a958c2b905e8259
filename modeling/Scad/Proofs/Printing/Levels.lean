import Scad.Proofs.Printing.Grammar
import Scad.Proofs.Printing.Plain

/-!
# What a Printed Text Is to the Reader

The printer decides about parentheses from the strength of an operand alone.  So there is to say for
each strength what the text of an expression is to the reader, whatever follows it:

* of full strength, it is read by `readPostfix`, and brackets may follow;
* with an operator in front, it is read by `readOperand`;
* with operators of its own, it is read by `readOperation` as a left operand, up to an operator that
  its last operand does not take;
* any expression is read by `readExpression` up to a closing sign.

Parentheses make a text of full strength of any text, so the text of an operand fits its place
whether it has parentheses or not (`Expression.Reads.inFullPlace`, `inUnaryPlace`,
`inOperationPlace`).
-/

namespace Scad

open Token (lex EndsWord)

/-! ## §1 What follows a text, and what it starts with -/

/-- Nothing follows that could belong to a postfix expression. -/
def EndsOperand (ts : List Token) : Prop :=
  ∀ t ∈ ts.head?, t ∉ [Token.leftParen, .leftBracket, .dot]

/-- Nothing follows but a sign that closes an expression. -/
def EndsExpression (ts : List Token) : Prop :=
  ∀ t ∈ ts.head?, t ∈ [Token.rightParen, .rightBracket, .comma, .colon]

theorem EndsExpression.endsOperand {ts : List Token} (h : EndsExpression ts) : EndsOperand ts := by
  intro t ht hmem
  have := h t ht
  simp only [List.mem_cons, List.not_mem_nil, or_false] at this hmem
  rcases hmem with rfl | rfl | rfl <;> simp at this

theorem EndsOperand.head?_ne {ts : List Token} (h : EndsOperand ts) {t : Token}
    (ht : t ∈ [Token.leftParen, .leftBracket, .dot]) : ts.head? ≠ some t :=
  fun hhead => h t hhead ht

/-- The tokens that a postfix expression starts with. -/
def Token.opensPostfix : Token → Bool
  | word _ | leftParen | leftBracket => true
  | _ => false

/-- The tokens that an operand starts with. -/
def Token.opensOperand (t : Token) : Bool :=
  t.opensPostfix || t.unary?.isSome

/-- The tokens that an expression starts with. -/
def Token.opensExpression (t : Token) : Bool :=
  t.opensOperand || t == letWord

/-- The tokens start with one that is accepted. -/
def Starts (accepts : Token → Bool) (ts : List Token) : Prop :=
  ∃ t, ts.head? = some t ∧ accepts t = true

theorem Starts.imp {p q : Token → Bool} {ts : List Token} (h : Starts p ts)
    (hpq : ∀ t, p t = true → q t = true) : Starts q ts := by
  obtain ⟨t, ht, hp⟩ := h
  exact ⟨t, ht, hpq t hp⟩

/-- Tokens do not start with one that is not accepted. -/
theorem Starts.head?_ne {p : Token → Bool} {ts : List Token} (h : Starts p ts) {t : Token}
    (ht : p t = false) : ts.head? ≠ some t := by
  obtain ⟨u, hu, hp⟩ := h
  intro hhead
  obtain rfl : u = t := Option.some.inj (hu.symm.trans hhead)
  simp [ht] at hp

/-- No operand starts with an equals sign. -/
theorem Starts.head?_ne_equals {cs : List Char} (h : Starts Token.opensOperand (lex cs)) :
    ∀ c ∈ cs.head?, c ≠ '=' := by
  rintro c hc rfl
  obtain ⟨cs, rfl⟩ := List.head?_eq_some_iff.mp hc
  have hhead := Token.head?_lex_equals cs
  simp only [List.mem_cons, List.not_mem_nil, or_false] at hhead
  obtain hhead | hhead := hhead
  · exact h.head?_ne (by decide) hhead
  · exact h.head?_ne (by decide) hhead

theorem endsWord_cons {c : Char} (h : isWordChar c = false) (cs : List Char) :
    EndsWord (c :: cs) := by
  intro d hd
  obtain rfl : c = d := Option.some.inj hd
  exact h

/-! ## §2 What a text is to the reader -/

/-- The text is read as a postfix expression, and more brackets may follow. -/
def ReadsPostfix (w : List Char) (v : Expression) : Prop :=
  ∀ cs, EndsWord cs → (lex cs).head? ≠ some .leftParen →
    Starts Token.opensPostfix (lex (w ++ cs)) ∧
      outcome (readPostfix (lex (w ++ cs))) = outcome (continuePostfix v (lex cs))

/-- The text is read as an operand. -/
def ReadsOperand (w : List Char) (v : Expression) : Prop :=
  ∀ cs, EndsWord cs → EndsOperand (lex cs) →
    Starts Token.opensOperand (lex (w ++ cs)) ∧
      outcome (readOperand (lex (w ++ cs))) = some (v, lex cs)

/-- The text is read as the start of an operation whose operators have at most the strength `least`,
and operators may follow that are weaker than `limit`. -/
def ReadsOperation (strength limit : Nat) (w : List Char) (v : Expression) : Prop :=
  ∀ least ≤ strength, ∀ cs, EndsWord cs → EndsOperand (lex cs) →
    (∀ op, (lex cs).head? = some (.operator op) → op.strength < limit) →
      Starts Token.opensOperand (lex (w ++ cs)) ∧
        outcome (readOperation least (lex (w ++ cs))) = outcome (continueOperation least v (lex cs))

/-- The text is read as an expression. -/
def ReadsExpression (w : List Char) (v : Expression) : Prop :=
  ∀ cs, EndsWord cs → EndsExpression (lex cs) →
    Starts Token.opensExpression (lex (w ++ cs)) ∧
      outcome (readExpression (lex (w ++ cs))) = some (v, lex cs)

section Levels

variable {w : List Char} {v : Expression} {strength limit : Nat}

theorem ReadsPostfix.operand (h : ReadsPostfix w v) : ReadsOperand w v := by
  intro cs hword hends
  obtain ⟨hstarts, hread⟩ := h cs hword (hends.head?_ne (by simp))
  refine ⟨hstarts.imp fun t ht => by simp [Token.opensOperand, ht], ?_⟩
  have hunary : ∀ t, (lex (w ++ cs)).head? = some t → t.unary? = none := by
    obtain ⟨t, ht, hopens⟩ := hstarts
    intro u hu
    obtain rfl : t = u := Option.some.inj (ht.symm.trans hu)
    cases t <;> simp_all [Token.opensPostfix, Token.unary?]
  rw [readOperand_eq_readPostfix hunary, hread]
  exact continuePostfix_stop (hends.head?_ne (by simp)) (hends.head?_ne (by simp))

theorem ReadsOperand.operation (h : ReadsOperand w v) : ReadsOperation strength limit w v := by
  intro least _ cs hword hends _
  obtain ⟨hstarts, hread⟩ := h cs hword hends
  exact ⟨hstarts, readOperation_of_operand hread⟩

/-- An operation is read as a whole where no operator follows. -/
theorem ReadsOperation.whole (h : ReadsOperation strength limit w v) (cs : List Char)
    (hword : EndsWord cs) (hends : EndsOperand (lex cs))
    (hoperator : ∀ op, (lex cs).head? ≠ some (.operator op)) :
    Starts Token.opensOperand (lex (w ++ cs)) ∧
      outcome (readOperation 0 (lex (w ++ cs))) = some (v, lex cs) := by
  obtain ⟨hstarts, hread⟩ := h 0 (Nat.zero_le _) cs hword hends
    fun op hop => absurd hop (hoperator op)
  rw [continueOperation_stop fun op hop => absurd hop (hoperator op)] at hread
  exact ⟨hstarts, hread⟩

theorem ReadsOperation.expression (h : ReadsOperation strength limit w v) :
    ReadsExpression w v := by
  intro cs hword hends
  obtain ⟨hstarts, hread⟩ := h.whole cs hword hends.endsOperand fun op hop => by
    simpa using hends _ hop
  refine ⟨hstarts.imp fun t ht => by simp [Token.opensExpression, ht], ?_⟩
  exact readExpression_operation (hstarts.head?_ne (by decide)) hread
    fun hquestion => by simpa using hends _ hquestion

/-- An expression is read up to a closing sign. -/
theorem ReadsExpression.upTo (h : ReadsExpression w v) {cs : List Char} {t : Token}
    {ts : List Token} (hword : EndsWord cs) (hcs : lex cs = t :: ts)
    (ht : t ∈ [Token.rightParen, .rightBracket, .comma, .colon]) :
    Starts Token.opensExpression (lex (w ++ cs)) ∧
      outcome (readExpression (lex (w ++ cs))) = some (v, t :: ts) := by
  have hends : EndsExpression (lex cs) := by
    rw [hcs]
    rintro _ ⟨⟩
    exact ht
  obtain ⟨hstarts, hread⟩ := h cs hword hends
  exact ⟨hstarts, hcs ▸ hread⟩

/-- In parentheses, every text is of full strength. -/
theorem ReadsExpression.parentheses (h : ReadsExpression w v) :
    ReadsPostfix ('(' :: w ++ [')']) v := by
  intro cs _ _
  have htext : '(' :: w ++ [')'] ++ cs = '(' :: (w ++ ')' :: cs) := by simp
  obtain ⟨-, hread⟩ := h.upTo (endsWord_cons (by decide) cs) (Token.lex_rightParen cs) (by simp)
  rw [htext, Token.lex_leftParen]
  exact ⟨⟨.leftParen, rfl, rfl⟩, readPostfix_of_primary (readPrimary_parentheses hread)⟩

end Levels

/-! ## §3 Expressions in their places -/

theorem BinaryOperator.strength_le_power (op : BinaryOperator) :
    op.strength ≤ BinaryOperator.power.strength := by
  cases op <;> decide

/-- The least strength of an operator that the last operand of an expression takes. -/
def Expression.limit : Expression → Nat
  | .binary op .. => op.rightLeast
  | _ => BinaryOperator.power.strength + 1

/-- The text of an expression is to the reader what its strength says. -/
structure Expression.Reads (e : Expression) : Prop where
  full : e.strength = Expression.fullStrength → ReadsPostfix e.write e.bare
  operand : UnaryOperator.strength ≤ e.strength → ReadsOperand e.write e.bare
  operation : 0 < e.strength → ReadsOperation e.strength e.limit e.write e.bare
  expression : ReadsExpression e.write e.bare

namespace Expression.Reads

variable {e : Expression}

theorem of_full (h : ReadsPostfix e.write e.bare) : e.Reads :=
  ⟨fun _ => h, fun _ => h.operand, fun _ => h.operand.operation,
    (h.operand.operation : ReadsOperation 0 0 _ _).expression⟩

theorem strength_le (e : Expression) : e.strength ≤ fullStrength := by
  cases e with
  | binary op => exact Nat.le_trans op.strength_le_power (by decide)
  | _ => simp [strength, fullStrength, UnaryOperator.strength]

/-- In a place of full strength. -/
theorem inFullPlace (h : e.Reads) : ReadsPostfix (e.inPlace fullStrength e.write) e.bare := by
  unfold inPlace
  split
  · exact h.expression.parentheses
  · have := strength_le e
    exact h.full (by omega)

/-- In the place of an operand of a unary operator. -/
theorem inUnaryPlace (h : e.Reads) :
    ReadsOperand (e.inPlace UnaryOperator.strength e.write) e.bare := by
  unfold inPlace
  split
  · exact h.expression.parentheses.operand
  · exact h.operand (by omega)

/-- In a place of an operation, before operators that no expression in this place takes. -/
theorem inOperationPlace {least limit : Nat} (hleast : 0 < least)
    (hlimit : limit ≤ BinaryOperator.power.strength + 1)
    (hop : ∀ op : BinaryOperator, least ≤ op.strength → limit ≤ op.rightLeast) (h : e.Reads) :
    ReadsOperation least limit (e.inPlace least e.write) e.bare := by
  unfold inPlace
  split
  · exact h.expression.parentheses.operand.operation
  · next hstrength =>
    have hlimit' : limit ≤ e.limit := by
      cases e with
      | binary op => exact hop op (by simpa [strength] using hstrength)
      | _ => exact hlimit
    intro least' hleast' cs hword hends hfollow
    exact h.operation (by omega) least' (by omega) cs hword hends
      fun op hhead => Nat.lt_of_lt_of_le (hfollow op hhead) hlimit'

end Expression.Reads

end Scad
