import Scad.Ast.Operator
import Scad.Vocabulary

/-!
# Tokens of Expressions

Divides the text of an expression into words and signs.  A word is as long as it can be, and of two
signs that start alike the longer one is taken; blanks only divide.

* `Token.lex` — the tokens of a text.
* `isName` — the words that can name something.
-/

namespace Scad

/-! ## §1 Tokens -/

/-- A token of an expression. -/
inductive Token where
  | word (text : String)
  /-- The reserved word `let`. -/
  | letWord
  /-- The sign of a binary operator; `-` and `+` also stand in front of an operand. -/
  | operator (op : BinaryOperator)
  | not | equals | question | colon | comma | dot
  | leftParen | rightParen | leftBracket | rightBracket
  /-- A character that starts no token of an expression. -/
  | unknown (c : Char)
  deriving DecidableEq, Repr

/-- Whether a character belongs to a word.  Outside ASCII, every character but a blank does. -/
def isWordChar (c : Char) : Bool :=
  c.isAlphanum || c == '_' || (128 ≤ c.toNat && !Text.isBlank c)

/-- Whether a word can name something: it does not start with a digit, and is not reserved. -/
def isName (s : String) : Bool :=
  match s.toList with
  | [] => false
  | c :: cs => !c.isDigit && (c :: cs).all isWordChar && !Vocabulary.keywords.contains s

namespace Token

/-- The operator that stands in front of an operand. -/
def unary? : Token → Option UnaryOperator
  | operator .subtract => some .negate
  | operator .add => some .plus
  | not => some .not
  | _ => none

/-! ## §2 The tokens of a text -/

/-- The sign of two characters. -/
def ofPair? : Char → Char → Option Token
  | '|', '|' => some (operator .or)
  | '&', '&' => some (operator .and)
  | '=', '=' => some (operator .equal)
  | '!', '=' => some (operator .notEqual)
  | '<', '=' => some (operator .lessEqual)
  | '>', '=' => some (operator .greaterEqual)
  | _, _ => none

/-- The sign of one character. -/
def ofChar : Char → Token
  | '<' => operator .less
  | '>' => operator .greater
  | '+' => operator .add
  | '-' => operator .subtract
  | '*' => operator .multiply
  | '/' => operator .divide
  | '%' => operator .modulo
  | '^' => operator .power
  | '!' => not
  | '=' => equals
  | '?' => question
  | ':' => colon
  | ',' => comma
  | '.' => dot
  | '(' => leftParen
  | ')' => rightParen
  | '[' => leftBracket
  | ']' => rightBracket
  | c => unknown c

/-- The token of a finished word; no word at all has none. -/
def ofWord (cs : List Char) : List Token :=
  if cs = [] then [] else if cs = "let".toList then [letWord] else [word (String.ofList cs)]

/-- The tokens of a text behind the start of a word. -/
def lexFrom : List Char → List Char → List Token
  | start, [] => ofWord start
  | start, c :: cs =>
    if isWordChar c then lexFrom (start ++ [c]) cs
    else if Text.isBlank c then ofWord start ++ lexFrom [] cs
    else
      match cs with
      | [] => ofWord start ++ [ofChar c]
      | d :: rest =>
        -- The longer sign wins.
        match ofPair? c d with
        | some sign => ofWord start ++ sign :: lexFrom [] rest
        | none => ofWord start ++ ofChar c :: lexFrom [] (d :: rest)

/-- The tokens of a text. -/
def lex (cs : List Char) : List Token :=
  lexFrom [] cs

/-! ## §3 The tokens of words and signs -/

/-- Whether a word ends where the text starts. -/
def EndsWord (cs : List Char) : Prop :=
  ∀ c ∈ cs.head?, isWordChar c = false

@[simp] theorem lex_nil : lex [] = [] := rfl

theorem lexFrom_cons (start : List Char) (c : Char) (cs : List Char) :
    lexFrom start (c :: cs) =
      if isWordChar c then lexFrom (start ++ [c]) cs
      else if Text.isBlank c then ofWord start ++ lexFrom [] cs
      else
        match cs with
        | [] => ofWord start ++ [ofChar c]
        | d :: rest =>
          match ofPair? c d with
          | some sign => ofWord start ++ sign :: lexFrom [] rest
          | none => ofWord start ++ ofChar c :: lexFrom [] (d :: rest) := by
  cases cs <;> rfl

@[simp] theorem lex_blank (cs : List Char) : lex (' ' :: cs) = lex cs := by
  have hword : isWordChar ' ' = false := by decide
  have hblank : Text.isBlank ' ' = true := by decide
  rw [lex, lexFrom_cons, hword, hblank]
  rfl

theorem lexFrom_append {w : List Char} (hw : w.all isWordChar = true) (start cs : List Char) :
    lexFrom start (w ++ cs) = lexFrom (start ++ w) cs := by
  induction w generalizing start with
  | nil => simp
  | cons c w ih =>
    obtain ⟨hc, hw⟩ : isWordChar c = true ∧ w.all isWordChar = true := by simpa using hw
    rw [List.cons_append, lexFrom_cons, if_pos hc, ih hw, List.append_assoc, List.singleton_append]

theorem lexFrom_endsWord {cs : List Char} (h : EndsWord cs) (start : List Char) :
    lexFrom start cs = ofWord start ++ lex cs := by
  cases cs with
  | nil => exact (List.append_nil _).symm
  | cons c cs =>
    have hc : isWordChar c = false := h c (by simp)
    rw [lex, lexFrom_cons start, lexFrom_cons []]
    simp only [hc, Bool.false_eq_true, if_false]
    split
    · rfl
    · split
      · rfl
      · split <;> rfl

/-- A word stands by itself up to the first character that is of no word. -/
theorem lex_word {w : List Char} (hw : w.all isWordChar = true) {cs : List Char}
    (hcs : EndsWord cs) : lex (w ++ cs) = ofWord w ++ lex cs := by
  rw [lex, lexFrom_append hw, List.nil_append, lexFrom_endsWord hcs]

theorem lex_name {name : String} (h : isName name = true) {cs : List Char} (hcs : EndsWord cs) :
    lex (name.toList ++ cs) = word name :: lex cs := by
  unfold isName at h
  cases hname : name.toList with
  | nil => simp [hname] at h
  | cons c w =>
    simp only [hname, Bool.and_eq_true] at h
    rw [lex_word h.1.2 hcs, ofWord, if_neg (List.cons_ne_nil c w), ← hname]
    have hlet : name.toList ≠ "let".toList := by
      intro hlet
      obtain rfl := String.toList_inj.mp hlet
      simp [Vocabulary.keywords] at h
    rw [if_neg hlet, String.ofList_toList, List.singleton_append]

/-- A character is a sign of its own unless it starts a longer sign. -/
theorem lex_ofChar {c : Char} (hword : isWordChar c = false) (hblank : Text.isBlank c = false)
    {cs : List Char} (hpair : ∀ d ∈ cs.head?, ofPair? c d = none) :
    lex (c :: cs) = ofChar c :: lex cs := by
  rw [lex, lexFrom_cons, hword, hblank]
  cases cs with
  | nil => rfl
  | cons d rest =>
    simp only [hpair d (by simp)]
    rfl

/-- A sign of two characters. -/
theorem lex_ofPair {c d : Char} {sign : Token} (hword : isWordChar c = false)
    (hblank : Text.isBlank c = false) (hpair : ofPair? c d = some sign) (cs : List Char) :
    lex (c :: d :: cs) = sign :: lex cs := by
  rw [lex, lexFrom_cons, hword, hblank]
  simp only [hpair]
  rfl

/-- What makes no sign of two characters. -/
theorem ofPair?_eq_none {c d : Char}
    (h : (c, d) ∉ [('|', '|'), ('&', '&'), ('=', '='), ('!', '='), ('<', '='), ('>', '=')]) :
    ofPair? c d = none := by
  unfold ofPair?
  split
  case h_7 => rfl
  all_goals simp at h

/-- The signs of one character that start no sign of two. -/
def singles : List Char :=
  ['?', ':', ',', '.', '(', ')', '[', ']', '+', '-', '*', '/', '%', '^']

theorem lex_single {c : Char} (h : c ∈ singles) (cs : List Char) :
    lex (c :: cs) = ofChar c :: lex cs := by
  have hclass : singles.all (fun c => !isWordChar c && !Text.isBlank c &&
      !(['|', '&', '=', '!', '<', '>'].contains c)) = true := by
    decide
  obtain ⟨⟨hword, hblank⟩, hfirst⟩ : (isWordChar c = false ∧ Text.isBlank c = false) ∧
      c ∉ ['|', '&', '=', '!', '<', '>'] := by
    simpa using List.all_eq_true.mp hclass c h
  refine lex_ofChar hword hblank fun d _ => ofPair?_eq_none fun hpair => hfirst ?_
  simpa using List.mem_map_of_mem (f := Prod.fst) hpair

section Singles

variable (cs : List Char)

theorem lex_leftParen : lex ('(' :: cs) = leftParen :: lex cs := lex_single (by decide) cs

theorem lex_rightParen : lex (')' :: cs) = rightParen :: lex cs := lex_single (by decide) cs

theorem lex_leftBracket : lex ('[' :: cs) = leftBracket :: lex cs := lex_single (by decide) cs

theorem lex_rightBracket : lex (']' :: cs) = rightBracket :: lex cs := lex_single (by decide) cs

theorem lex_comma : lex (',' :: cs) = comma :: lex cs := lex_single (by decide) cs

theorem lex_colon : lex (':' :: cs) = colon :: lex cs := lex_single (by decide) cs

theorem lex_question : lex ('?' :: cs) = question :: lex cs := lex_single (by decide) cs

theorem lex_dot : lex ('.' :: cs) = dot :: lex cs := lex_single (by decide) cs

end Singles

/-- A blank makes no longer sign. -/
theorem ofPair?_blank (c : Char) : ofPair? c ' ' = none :=
  ofPair?_eq_none (by simp)

/-- The sign of a binary operator ends at the blank behind it. -/
theorem lex_operator (op : BinaryOperator) (cs : List Char) :
    lex (op.symbol.toList ++ ' ' :: cs) = operator op :: lex cs := by
  have hblank (c : Char) : ∀ d ∈ (' ' :: cs).head?, ofPair? c d = none := by
    intro d hd
    obtain rfl : ' ' = d := Option.some.inj hd
    exact ofPair?_blank c
  rw [← lex_blank cs]
  cases op with
  | or | and | equal | notEqual | lessEqual | greaterEqual =>
    exact lex_ofPair (by decide) (by decide) rfl _
  | less | greater => exact lex_ofChar (by decide) (by decide) (hblank _)
  | add | subtract | multiply | divide | modulo | power => exact lex_single (by decide) _

/-- The token of a unary operator. -/
def ofUnary : UnaryOperator → Token
  | .negate => operator .subtract
  | .plus => operator .add
  | .not => not

@[simp] theorem unary?_ofUnary (op : UnaryOperator) : (ofUnary op).unary? = some op := by
  cases op <;> rfl

/-- Most signs become longer by an equals sign alone. -/
theorem ofPair?_of_ne {c d : Char} (hc : c ∉ ['|', '&']) (hd : d ≠ '=') : ofPair? c d = none :=
  ofPair?_eq_none (by simp_all)

/-- The sign of a unary operator ends where no equals sign follows. -/
theorem lex_unary (op : UnaryOperator) {cs : List Char} (h : ∀ d ∈ cs.head?, d ≠ '=') :
    lex (op.symbol.toList ++ cs) = ofUnary op :: lex cs := by
  cases op with
  | negate | plus => exact lex_single (by decide) cs
  | not => exact lex_ofChar (by decide) (by decide) fun d hd =>
      ofPair?_of_ne (by decide) (h d hd)

/-- What starts with an equals sign starts with one of the two signs that do. -/
theorem head?_lex_equals (cs : List Char) :
    (lex ('=' :: cs)).head? ∈ [some equals, some (operator .equal)] := by
  have hword : isWordChar '=' = false := by decide
  have hblank : Text.isBlank '=' = false := by decide
  by_cases hpair : ∃ rest, cs = '=' :: rest
  · obtain ⟨rest, rfl⟩ := hpair
    rw [lex_ofPair hword hblank rfl]
    simp
  · have hne : ∀ d ∈ cs.head?, d ≠ '=' := by
      rintro d hd rfl
      exact hpair (List.head?_eq_some_iff.mp hd)
    rw [lex_ofChar hword hblank fun d hd => ofPair?_of_ne (by decide) (hne d hd)]
    simp [ofChar]

theorem lex_let (cs : List Char) : lex ("let (".toList ++ cs) = letWord :: leftParen :: lex cs := by
  have hend : EndsWord (' ' :: '(' :: cs) := by
    intro c hc
    obtain rfl : ' ' = c := Option.some.inj hc
    decide
  have hword : lex ("let".toList ++ ' ' :: '(' :: cs) =
      ofWord "let".toList ++ lex (' ' :: '(' :: cs) := lex_word (by decide) hend
  rw [lex_blank, lex_leftParen] at hword
  exact hword

end Token

end Scad
