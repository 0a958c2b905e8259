import Scad.Ast.Printer
import Scad.Proofs.Printing.Token

/-!
# Reading Expressions

A reader for the texts of expressions, by recursive descent with one function for each level of the
grammar.  The strengths of the binary operators are those of the printer; everything else about the
grammar is said here.

    expression  `let (name = expression, ...) expression`, or `c ? expression : expression`
                for an operation `c`, or an operation
    operation   operands with binary operators between them: the stronger operator takes its
                operands first, the power groups to the right, all others to the left
    operand     `-`, `+` or `!` in front of an operand, or a postfix expression
    postfix     a primary expression, then any number of `[expression]` and `.name`
    primary     a name, `name(arguments)`, `(expression)`, `[elements]` or `[start:step:stop]`

A `let` and a conditional reach as far to the right as they can.  What is read has empty spans.
-/

namespace Scad

/-! ## §1 Results of reading -/

/-- What was read from a list of tokens, and the tokens behind it, which are less than `bound`. -/
structure Reading (α : Type) (bound : Nat) where
  value : α
  rest : List Token
  short : rest.length < bound

/-- An item of a list in parentheses, `name = value` or a value by itself. -/
structure Item where
  name : Option String
  value : Expression

namespace Item

/-- The item as an argument of a call. -/
def argument (i : Item) : Argument :=
  ⟨i.name, .expression i.value, {}⟩

/-- The item as a binding, which must have a name. -/
def binding? (i : Item) : Option Binding :=
  i.name.map fun name => ⟨name, {}, i.value, {}⟩

/-- The item as an element of a vector, which has no name. -/
def element? (i : Item) : Option Expression :=
  if i.name.isSome then none else some i.value

end Item

/-- The power is the only binary operator that groups to the right. -/
def BinaryOperator.groupsRight (op : BinaryOperator) : Bool :=
  op == .power

/-- The least strength of an operator in the right operand of another one. -/
def BinaryOperator.rightLeast (op : BinaryOperator) : Nat :=
  if op.groupsRight then op.strength else op.strength + 1

/-! ## §2 The levels of the grammar -/

mutual

/-- Reads an expression. -/
def readExpression (ts : List Token) : Option (Reading Expression ts.length) :=
  match ts with
  | .letWord :: .leftParen :: ts => do
    let ⟨items, ts₁, h₁⟩ ← readItems .rightParen ts
    let bindings ← items.mapM Item.binding?
    let ⟨body, ts₂, h₂⟩ ← readExpression ts₁
    return ⟨.letIn bindings body {}, ts₂, by simp only [List.length_cons]; omega⟩
  | ts => do
    let ⟨condition, ts₁, h₁⟩ ← readOperation 0 ts
    match ts₁, h₁ with
    | .question :: ts₂, h₂ => do
      let ⟨consequence, ts₃, h₃⟩ ← readExpression ts₂
      match ts₃, h₃ with
      | .colon :: ts₄, h₄ => do
        let ⟨alternative, ts₅, h₅⟩ ← readExpression ts₄
        return ⟨.conditional condition consequence alternative {}, ts₅, by
          simp only [List.length_cons] at *; omega⟩
      | _, _ => none
    | ts₁, h₁ => return ⟨condition, ts₁, h₁⟩
termination_by 8 * ts.length + 4
decreasing_by all_goals grind

/-- Reads an operation whose operators have at least a strength. -/
def readOperation (least : Nat) (ts : List Token) : Option (Reading Expression ts.length) := do
  let ⟨left, ts₁, h₁⟩ ← readOperand ts
  let ⟨e, ts₂, h₂⟩ ← continueOperation least left ts₁
  return ⟨e, ts₂, by omega⟩
termination_by 8 * ts.length + 3
decreasing_by all_goals grind

/-- Goes on behind a left operand, as long as the operators have at least a strength. -/
def continueOperation (least : Nat) (left : Expression) (ts : List Token) :
    Option (Reading Expression (ts.length + 1)) :=
  match ts with
  | .operator op :: ts =>
    if least ≤ op.strength then do
      let ⟨right, ts₁, h₁⟩ ← readOperation op.rightLeast ts
      let ⟨e, ts₂, h₂⟩ ← continueOperation least (.binary op left right {}) ts₁
      return ⟨e, ts₂, by simp only [List.length_cons]; omega⟩
    else some ⟨left, .operator op :: ts, by simp⟩
  | ts => some ⟨left, ts, by simp⟩
termination_by 8 * ts.length
decreasing_by all_goals grind

/-- Reads an operand with the operators in front of it. -/
def readOperand (ts : List Token) : Option (Reading Expression ts.length) :=
  match ts with
  | [] => none
  | t :: ts =>
    match t.unary? with
    | some op => do
      let ⟨operand, ts₁, h₁⟩ ← readOperand ts
      return ⟨.unary op operand {}, ts₁, by simp only [List.length_cons]; omega⟩
    | none => readPostfix (t :: ts)
termination_by 8 * ts.length + 2
decreasing_by all_goals grind

/-- Reads a primary expression with the brackets and members behind it. -/
def readPostfix (ts : List Token) : Option (Reading Expression ts.length) := do
  let ⟨e, ts₁, h₁⟩ ← readPrimary ts
  let ⟨e, ts₂, h₂⟩ ← continuePostfix e ts₁
  return ⟨e, ts₂, by omega⟩
termination_by 8 * ts.length + 1
decreasing_by all_goals grind

/-- Goes on behind an expression, as long as brackets or members follow. -/
def continuePostfix (e : Expression) (ts : List Token) :
    Option (Reading Expression (ts.length + 1)) :=
  match ts with
  | .leftBracket :: ts => do
    let ⟨index, ts₁, h₁⟩ ← readExpression ts
    match ts₁, h₁ with
    | .rightBracket :: ts₂, h₂ => do
      let ⟨e, ts₃, h₃⟩ ← continuePostfix (.index e index {}) ts₂
      return ⟨e, ts₃, by simp only [List.length_cons] at *; omega⟩
    | _, _ => none
  | .dot :: .word name :: ts => do
    if !isName name then failure
    let ⟨e, ts₁, h₁⟩ ← continuePostfix (.member e name {}) ts
    return ⟨e, ts₁, by simp only [List.length_cons]; omega⟩
  | ts => some ⟨e, ts, by simp⟩
termination_by 8 * ts.length
decreasing_by all_goals grind

/-- Reads a primary expression. -/
def readPrimary (ts : List Token) : Option (Reading Expression ts.length) :=
  match ts with
  | .leftParen :: ts => do
    let ⟨e, ts₁, h₁⟩ ← readExpression ts
    match ts₁, h₁ with
    | .rightParen :: ts₂, h₂ => return ⟨e, ts₂, by simp only [List.length_cons] at *; omega⟩
    | _, _ => none
  | .leftBracket :: ts => do
    let ⟨e, ts₁, h₁⟩ ← readBrackets ts
    return ⟨e, ts₁, by simp only [List.length_cons]; omega⟩
  | .word name :: .leftParen :: ts => do
    if !isName name then failure
    let ⟨items, ts₁, h₁⟩ ← readItems .rightParen ts
    return ⟨.call name (items.map Item.argument) {}, ts₁, by simp only [List.length_cons]; omega⟩
  | .word name :: ts =>
    if isName name then some ⟨.identifier name {}, ts, by simp⟩ else none
  | _ => none
termination_by 8 * ts.length
decreasing_by all_goals grind

/-- Reads a vector or a range behind its opening bracket. -/
def readBrackets (ts : List Token) : Option (Reading Expression ts.length) :=
  match ts with
  | .rightBracket :: ts => some ⟨.vector [] {}, ts, by simp⟩
  | ts => do
    let ⟨first, ts₁, h₁⟩ ← readExpression ts
    match ts₁, h₁ with
    | .rightBracket :: ts₂, h₂ => return ⟨.vector [first] {}, ts₂, by
        simp only [List.length_cons] at *; omega⟩
    | .comma :: ts₂, h₂ => do
      let ⟨items, ts₃, h₃⟩ ← readItemsFrom .rightBracket ts₂
      let elements ← items.mapM Item.element?
      return ⟨.vector (first :: elements) {}, ts₃, by simp only [List.length_cons] at *; omega⟩
    | .colon :: ts₂, h₂ => do
      let ⟨second, ts₃, h₃⟩ ← readExpression ts₂
      match ts₃, h₃ with
      | .rightBracket :: ts₄, h₄ => return ⟨.range first none second {}, ts₄, by
          simp only [List.length_cons] at *; omega⟩
      | .colon :: ts₄, h₄ => do
        let ⟨third, ts₅, h₅⟩ ← readExpression ts₄
        match ts₅, h₅ with
        | .rightBracket :: ts₆, h₆ => return ⟨.range first (some second) third {}, ts₆, by
            simp only [List.length_cons] at *; omega⟩
        | _, _ => none
      | _, _ => none
    | _, _ => none
termination_by 8 * ts.length + 5
decreasing_by all_goals grind

/-- Reads the items of a list up to its closing sign. -/
def readItems (close : Token) (ts : List Token) : Option (Reading (List Item) ts.length) :=
  match ts with
  | [] => none
  | t :: ts =>
    if t = close then some ⟨[], ts, by simp⟩ else readItemsFrom close (t :: ts)
termination_by 8 * ts.length + 7
decreasing_by all_goals grind

/-- Reads at least one item, and the rest of a list up to its closing sign. -/
def readItemsFrom (close : Token) (ts : List Token) : Option (Reading (List Item) ts.length) := do
  let ⟨item, ts₁, h₁⟩ ← readItem ts
  match ts₁, h₁ with
  | .comma :: ts₂, h₂ => do
    let ⟨items, ts₃, h₃⟩ ← readItemsFrom close ts₂
    return ⟨item :: items, ts₃, by simp only [List.length_cons] at *; omega⟩
  | t :: ts₂, h₂ =>
    if t = close then some ⟨[item], ts₂, by simp only [List.length_cons] at *; omega⟩ else none
  | [], _ => none
termination_by 8 * ts.length + 6
decreasing_by all_goals grind

/-- Reads an item of a list. -/
def readItem (ts : List Token) : Option (Reading Item ts.length) :=
  match ts with
  | .word name :: .equals :: ts => do
    if !isName name then failure
    let ⟨value, ts₁, h₁⟩ ← readExpression ts
    return ⟨⟨some name, value⟩, ts₁, by simp only [List.length_cons]; omega⟩
  | ts => do
    let ⟨value, ts₁, h₁⟩ ← readExpression ts
    return ⟨⟨none, value⟩, ts₁, h₁⟩
termination_by 8 * ts.length + 5
decreasing_by all_goals grind

end

/-- Reads a whole text as one expression. -/
def Expression.read? (text : String) : Option Expression :=
  match readExpression (Token.lex text.toList) with
  | some ⟨e, [], _⟩ => some e
  | _ => none

/-! ## §3 What a reading comes to

A reading carries the proof that it came forward; its outcome is what is left without that proof.
Each way through a level of the grammar has one lemma here. -/

/-- The value that was read, and the tokens behind it. -/
def outcome {α : Type} {bound : Nat} (x : Option (Reading α bound)) : Option (α × List Token) :=
  x.map fun z => (z.value, z.rest)

theorem exists_of_outcome {α : Type} {bound : Nat} {x : Option (Reading α bound)} {a : α}
    {r : List Token} (h : outcome x = some (a, r)) : ∃ h, x = some ⟨a, r, h⟩ := by
  obtain ⟨⟨_, _, hz⟩, rfl, hvalue⟩ := Option.map_eq_some_iff.mp h
  cases hvalue
  exact ⟨hz, rfl⟩

theorem Expression.read?_of_outcome {text : String} {e : Expression}
    (h : outcome (readExpression (Token.lex text.toList)) = some (e, [])) :
    Expression.read? text = some e := by
  obtain ⟨_, h⟩ := exists_of_outcome h
  rw [read?, h]

section Outcomes

variable {ts ts₁ ts₂ ts₃ : List Token} {e c a b : Expression} {least : Nat}

theorem readExpression_let {items : List Item} {bindings : List Binding}
    (hitems : outcome (readItems .rightParen ts) = some (items, ts₁))
    (hbindings : items.mapM Item.binding? = some bindings)
    (hbody : outcome (readExpression ts₁) = some (e, ts₂)) :
    outcome (readExpression (.letWord :: .leftParen :: ts)) =
      some (.letIn bindings e {}, ts₂) := by
  obtain ⟨_, hitems⟩ := exists_of_outcome hitems
  obtain ⟨_, hbody⟩ := exists_of_outcome hbody
  rw [readExpression]
  simp [outcome, hitems, hbindings, hbody]

theorem readExpression_operation (hlet : ts.head? ≠ some .letWord)
    (h : outcome (readOperation 0 ts) = some (e, ts₁)) (hquestion : ts₁.head? ≠ some .question) :
    outcome (readExpression ts) = some (e, ts₁) := by
  obtain ⟨_, h⟩ := exists_of_outcome h
  rw [readExpression]
  · rw [h]
    simp only [Option.bind_eq_bind, Option.bind_some]
    split
    · simp at hquestion
    · rfl
  · rintro ts' rfl
    simp at hlet

theorem readExpression_conditional (hlet : ts.head? ≠ some .letWord)
    (hcondition : outcome (readOperation 0 ts) = some (c, .question :: ts₁))
    (hconsequence : outcome (readExpression ts₁) = some (a, .colon :: ts₂))
    (halternative : outcome (readExpression ts₂) = some (b, ts₃)) :
    outcome (readExpression ts) = some (.conditional c a b {}, ts₃) := by
  obtain ⟨_, hcondition⟩ := exists_of_outcome hcondition
  obtain ⟨_, hconsequence⟩ := exists_of_outcome hconsequence
  obtain ⟨_, halternative⟩ := exists_of_outcome halternative
  rw [readExpression]
  · simp [outcome, hcondition, hconsequence, halternative]
  · rintro ts' rfl
    simp at hlet

theorem readOperation_of_operand (h : outcome (readOperand ts) = some (e, ts₁)) :
    outcome (readOperation least ts) = outcome (continueOperation least e ts₁) := by
  obtain ⟨_, h⟩ := exists_of_outcome h
  rw [readOperation, h]
  cases hnext : continueOperation least e ts₁ <;> simp [outcome, hnext]

/-- An operation ends where no operator follows that is strong enough. -/
theorem continueOperation_stop
    (h : ∀ op, ts.head? = some (.operator op) → op.strength < least) :
    outcome (continueOperation least e ts) = some (e, ts) := by
  rw [continueOperation.eq_def]
  split
  · next op _ =>
    have hop := h op rfl
    rw [if_neg (by omega)]
    rfl
  · rfl

theorem continueOperation_operator {op : BinaryOperator} (hop : least ≤ op.strength)
    (h : outcome (readOperation op.rightLeast ts) = some (b, ts₁)) :
    outcome (continueOperation least a (.operator op :: ts)) =
      outcome (continueOperation least (.binary op a b {}) ts₁) := by
  obtain ⟨_, h⟩ := exists_of_outcome h
  rw [continueOperation, if_pos hop, h]
  cases hnext : continueOperation least (.binary op a b {}) ts₁ <;> simp [outcome, hnext]

theorem readOperand_unary {t : Token} {op : UnaryOperator} (ht : t.unary? = some op)
    (h : outcome (readOperand ts) = some (e, ts₁)) :
    outcome (readOperand (t :: ts)) = some (.unary op e {}, ts₁) := by
  obtain ⟨_, h⟩ := exists_of_outcome h
  rw [readOperand]
  simp [outcome, ht, h]

theorem readOperand_eq_readPostfix (h : ∀ t, ts.head? = some t → t.unary? = none) :
    outcome (readOperand ts) = outcome (readPostfix ts) := by
  cases ts with
  | nil =>
    rw [readOperand, readPostfix, readPrimary] <;> simp [outcome]
  | cons t ts =>
    rw [readOperand]
    simp [h t rfl]

theorem readPostfix_of_primary (h : outcome (readPrimary ts) = some (e, ts₁)) :
    outcome (readPostfix ts) = outcome (continuePostfix e ts₁) := by
  obtain ⟨_, h⟩ := exists_of_outcome h
  rw [readPostfix, h]
  cases hnext : continuePostfix e ts₁ <;> simp [outcome, hnext]

/-- A postfix expression ends where neither a bracket nor a dot follows. -/
theorem continuePostfix_stop (hbracket : ts.head? ≠ some .leftBracket)
    (hdot : ts.head? ≠ some .dot) : outcome (continuePostfix e ts) = some (e, ts) := by
  rw [continuePostfix.eq_def]
  split
  · simp at hbracket
  · simp at hdot
  · rfl

theorem continuePostfix_index
    (h : outcome (readExpression ts) = some (a, .rightBracket :: ts₁)) :
    outcome (continuePostfix e (.leftBracket :: ts)) =
      outcome (continuePostfix (.index e a {}) ts₁) := by
  obtain ⟨_, h⟩ := exists_of_outcome h
  rw [continuePostfix, h]
  cases hnext : continuePostfix (.index e a {}) ts₁ <;> simp [outcome, hnext]

theorem continuePostfix_member {name : String} (hname : isName name = true) :
    outcome (continuePostfix e (.dot :: .word name :: ts)) =
      outcome (continuePostfix (.member e name {}) ts) := by
  rw [continuePostfix]
  cases continuePostfix (.member e name {}) ts <;> simp [outcome, hname]

theorem readPrimary_parentheses
    (h : outcome (readExpression ts) = some (e, .rightParen :: ts₁)) :
    outcome (readPrimary (.leftParen :: ts)) = some (e, ts₁) := by
  obtain ⟨_, h⟩ := exists_of_outcome h
  rw [readPrimary, h]
  rfl

theorem readPrimary_brackets (h : outcome (readBrackets ts) = some (e, ts₁)) :
    outcome (readPrimary (.leftBracket :: ts)) = some (e, ts₁) := by
  obtain ⟨_, h⟩ := exists_of_outcome h
  rw [readPrimary, h]
  rfl

theorem readPrimary_call {name : String} {items : List Item} (hname : isName name = true)
    (h : outcome (readItems .rightParen ts) = some (items, ts₁)) :
    outcome (readPrimary (.word name :: .leftParen :: ts)) =
      some (.call name (items.map Item.argument) {}, ts₁) := by
  obtain ⟨_, h⟩ := exists_of_outcome h
  rw [readPrimary]
  simp [outcome, hname, h]

theorem readPrimary_name {name : String} (hname : isName name = true)
    (hparen : ts.head? ≠ some .leftParen) :
    outcome (readPrimary (.word name :: ts)) = some (.identifier name {}, ts) := by
  rw [readPrimary]
  · simp [outcome, hname]
  · rintro ts' rfl
    simp at hparen

theorem readBrackets_nil :
    outcome (readBrackets (.rightBracket :: ts)) = some (.vector [] {}, ts) := by
  rw [readBrackets]
  rfl

theorem readBrackets_single (hclose : ts.head? ≠ some .rightBracket)
    (h : outcome (readExpression ts) = some (e, .rightBracket :: ts₁)) :
    outcome (readBrackets ts) = some (.vector [e] {}, ts₁) := by
  obtain ⟨_, h⟩ := exists_of_outcome h
  rw [readBrackets, h]
  · rfl
  · rintro ts' rfl
    simp at hclose

theorem readBrackets_elements {items : List Item} {es : List Expression}
    (hclose : ts.head? ≠ some .rightBracket)
    (h : outcome (readExpression ts) = some (e, .comma :: ts₁))
    (hitems : outcome (readItemsFrom .rightBracket ts₁) = some (items, ts₂))
    (helements : items.mapM Item.element? = some es) :
    outcome (readBrackets ts) = some (.vector (e :: es) {}, ts₂) := by
  obtain ⟨_, h⟩ := exists_of_outcome h
  obtain ⟨_, hitems⟩ := exists_of_outcome hitems
  rw [readBrackets, h]
  · simp [outcome, hitems, helements]
  · rintro ts' rfl
    simp at hclose

theorem readBrackets_range (hclose : ts.head? ≠ some .rightBracket)
    (hstart : outcome (readExpression ts) = some (a, .colon :: ts₁))
    (hstop : outcome (readExpression ts₁) = some (b, .rightBracket :: ts₂)) :
    outcome (readBrackets ts) = some (.range a none b {}, ts₂) := by
  obtain ⟨_, hstart⟩ := exists_of_outcome hstart
  obtain ⟨_, hstop⟩ := exists_of_outcome hstop
  rw [readBrackets, hstart]
  · simp [outcome, hstop]
  · rintro ts' rfl
    simp at hclose

theorem readBrackets_steppedRange (hclose : ts.head? ≠ some .rightBracket)
    (hstart : outcome (readExpression ts) = some (a, .colon :: ts₁))
    (hstep : outcome (readExpression ts₁) = some (c, .colon :: ts₂))
    (hstop : outcome (readExpression ts₂) = some (b, .rightBracket :: ts₃)) :
    outcome (readBrackets ts) = some (.range a (some c) b {}, ts₃) := by
  obtain ⟨_, hstart⟩ := exists_of_outcome hstart
  obtain ⟨_, hstep⟩ := exists_of_outcome hstep
  obtain ⟨_, hstop⟩ := exists_of_outcome hstop
  rw [readBrackets, hstart]
  · simp [outcome, hstep, hstop]
  · rintro ts' rfl
    simp at hclose

theorem readItems_nil {close : Token} :
    outcome (readItems close (close :: ts)) = some ([], ts) := by
  rw [readItems, if_pos rfl]
  rfl

theorem readItems_of_ne {t close : Token} (h : t ≠ close) :
    outcome (readItems close (t :: ts)) = outcome (readItemsFrom close (t :: ts)) := by
  rw [readItems, if_neg h]

theorem readItemsFrom_last {close : Token} {item : Item} (hclose : close ≠ .comma)
    (h : outcome (readItem ts) = some (item, close :: ts₁)) :
    outcome (readItemsFrom close ts) = some ([item], ts₁) := by
  obtain ⟨_, h⟩ := exists_of_outcome h
  rw [readItemsFrom, h]
  simp [outcome]

theorem readItemsFrom_cons {close : Token} {item : Item} {items : List Item}
    (h : outcome (readItem ts) = some (item, .comma :: ts₁))
    (hitems : outcome (readItemsFrom close ts₁) = some (items, ts₂)) :
    outcome (readItemsFrom close ts) = some (item :: items, ts₂) := by
  obtain ⟨_, h⟩ := exists_of_outcome h
  obtain ⟨_, hitems⟩ := exists_of_outcome hitems
  rw [readItemsFrom, h]
  simp [outcome, hitems]

theorem readItem_named {name : String} (hname : isName name = true)
    (h : outcome (readExpression ts) = some (e, ts₁)) :
    outcome (readItem (.word name :: .equals :: ts)) = some (⟨some name, e⟩, ts₁) := by
  obtain ⟨_, h⟩ := exists_of_outcome h
  rw [readItem]
  simp [outcome, hname, h]

/-- A name by itself, where nothing follows that an expression could go on with. -/
theorem readExpression_name {name : String} (hname : isName name = true)
    (hoperator : ∀ op, ts.head? ≠ some (.operator op))
    (hsign : ∀ t ∈ ts.head?, t ∉ [.leftParen, .leftBracket, .dot, .question]) :
    outcome (readExpression (.word name :: ts)) = some (.identifier name {}, ts) := by
  have hne {t : Token} (ht : t ∈ [.leftParen, .leftBracket, .dot, .question]) :
      ts.head? ≠ some t := fun h => hsign t h ht
  refine readExpression_operation (by simp) ?_ (hne (by simp))
  have hpost : outcome (readPostfix (.word name :: ts)) = some (.identifier name {}, ts) := by
    rw [readPostfix_of_primary (readPrimary_name hname (hne (by simp)))]
    exact continuePostfix_stop (hne (by simp)) (hne (by simp))
  have hoperand : outcome (readOperand (.word name :: ts)) = some (.identifier name {}, ts) := by
    rw [readOperand_eq_readPostfix (fun t ht => by obtain rfl := Option.some.inj ht; rfl), hpost]
  rw [readOperation_of_operand hoperand]
  exact continueOperation_stop fun op h => absurd h (hoperator op)

theorem readExpression_reserved {name : String} (hname : isName name = false) :
    readExpression (.word name :: .equals :: ts) = none := by
  have hprimary : readPrimary (.word name :: .equals :: ts) = none := by
    rw [readPrimary, hname]
    · rfl
    · simp
  have hpostfix : readPostfix (.word name :: .equals :: ts) = none := by
    rw [readPostfix, hprimary]
    rfl
  have hoperand : readOperand (.word name :: .equals :: ts) = none := by
    rw [readOperand]
    exact hpostfix
  have hoperation : readOperation 0 (.word name :: .equals :: ts) = none := by
    rw [readOperation, hoperand]
    rfl
  rw [readExpression, hoperation]
  · rfl
  · simp

/-- A name in front of an equals sign is an expression that ends there, so what is an expression up
to anything else is no named item. -/
theorem readItem_value (h : outcome (readExpression ts) = some (e, ts₁))
    (hequals : ts₁.head? ≠ some .equals) :
    outcome (readItem ts) = some (⟨none, e⟩, ts₁) := by
  rw [readItem]
  · obtain ⟨_, h⟩ := exists_of_outcome h
    simp [outcome, h]
  · rintro name ts' rfl
    cases hname : isName name with
    | true =>
      rw [readExpression_name hname (by simp) (by simp)] at h
      cases h
      simp at hequals
    | false =>
      rw [readExpression_reserved hname] at h
      cases h

end Outcomes

end Scad
