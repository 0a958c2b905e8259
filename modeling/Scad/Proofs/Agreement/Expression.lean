import Scad.Proofs.Agreement.Outcome

/-!
# Expressions of Corresponding Nodes

Corresponding nodes are converted to the same expression, up to where it stands.  There is one lemma
for each construct; all of them assume the same of the conversions of the parts, and
`expression_corresponds` ties the knot as `expression` does.
-/

namespace Scad

namespace Correspondence

variable (C : Correspondence)

/-- The second expression is the first one moved. -/
def SameExpression (e e' : Expression) : Prop :=
  e' = e.shift C.shift

/-- The second value is the first one moved. -/
def SameValue (v v' : Value) : Prop :=
  v' = v.shift C.shift

/-- The second argument is the first one moved. -/
def SameArgument (a a' : Argument) : Prop :=
  a' = a.shift C.shift

/-- The second binding is the first one moved. -/
def SameBinding (b b' : Binding) : Prop :=
  b' = b.shift C.shift

/-- The conversions of the parts of two nodes agree on corresponding parts. -/
def Converters {α β : Type} {n n' : Node} (S : α → β → Prop) (convert : Converter n α)
    (convert' : Converter n' β) : Prop :=
  ∀ p p', C.Parts p p' → C.Agree (Option.Rel S) (convert p) (convert' p')

variable {C} {α β : Type} {S : α → β → Prop} {n n' : Node} {convert : Converter n α}
  {convert' : Converter n' β}

theorem Converters.inside (h : C.Converters S convert convert') {p : n.Part} {p' : n'.Part} :
    C.Converters S (convert.inside p) (convert'.inside p') :=
  fun q q' hq => h (p.within q) (p'.within q') hq

/-- What corresponds one to one to the images under a function is the list of the images. -/
theorem eq_map_of_forall₂ {f : α → β} {l : List α} {l' : List β}
    (h : List.Forall₂ (fun a b => b = f a) l l') : l' = l.map f := by
  rw [← List.forall₂_eq_eq_eq, List.forall₂_map_right_iff]
  exact h.flip

theorem eq_map_of_rel {f : α → β} {x : Option α} {y : Option β}
    (h : Option.Rel (fun a b => b = f a) x y) : y = x.map f := by
  cases h with
  | none => rfl
  | some h => rw [h, Option.map_some]

end Correspondence

namespace Convert

open Conversion Correspondence

variable {C : Correspondence} {n n' : Node} {convert : Converter n Expression}
  {convert' : Converter n' Expression}

/-! ## §1 Plain values -/

theorem numberOf_outcome (h : C.Related n n') : C.Outcome Eq (numberOf n) (numberOf n') := by
  rw [numberOf, numberOf, (C.alike h).text, trimmed_eq h]
  split
  · exact .ok rfl
  · exact .error (sameFault_bareFault _ h)

theorem rel_wrapped? (h : C.Related n n') : Option.Rel C.Parts (wrapped? n) (wrapped? n') := by
  rw [wrapped?, wrapped?, kind_eq h]
  split
  · exact onlyChild? h _
  · exact onlyChild? h _
  · exact onlyChild? h _
  · exact .none

theorem related_unwrapped {n n' : Node} (h : C.Related n n') :
    C.Related (unwrapped n) (unwrapped n') := by
  rw [unwrapped, unwrapped]
  have hwrapped := rel_wrapped? h
  generalize wrapped? n = x, wrapped? n' = x' at hwrapped
  cases hwrapped with
  | none => exact h
  | @some p p' hp => exact related_unwrapped hp
termination_by sizeOf n
decreasing_by exact p.inside

theorem signedNumber_tries (h : C.Related n n') :
    C.Tries Eq (signedNumber n) (signedNumber n') := by
  unfold signedNumber
  refine (Tries.ofOption ((field? h "operator").or (token? h fun _ => rfl))).bind
    fun operator operator' hoperator => ?_
  refine (Tries.ofOption ((field? h "operand").or (rel_getLast? (significant h)))).bind
    fun operand operand' hoperand => ?_
  have hoperand := related_unwrapped hoperand
  dsimp only
  rw [kind_eq hoperand, (C.alike hoperator).text]
  split
  · exact Tries.bind (S := fun _ _ => False) .failure fun _ _ hfalse => hfalse.elim
  refine (Tries.lift (numberOf_outcome hoperand)).bind fun x x' hx => ?_
  subst hx
  split
  · exact .pure rfl
  · exact .pure rfl
  · exact .failure

theorem rel_shortVector (xs : List Float) :
    Option.Rel C.SameValue (shortVector xs) (shortVector xs) := by
  unfold shortVector
  split
  · exact .some rfl
  · exact .some rfl
  · exact .none

/-- Plain values have no spans, but they are compared as all values are. -/
theorem plainValue_tries {n n' : Node} (h : C.Related n n') :
    C.Tries C.SameValue (plainValue n) (plainValue n') := by
  rw [plainValue, plainValue]
  have hwrapped := rel_wrapped? h
  generalize wrapped? n = x, wrapped? n' = x' at hwrapped
  cases hwrapped with
  | @some p p' hp => exact plainValue_tries hp
  | none =>
    dsimp only
    rw [kind_eq h, (C.alike h).text]
    split
    · exact (Tries.lift (numberOf_outcome h)).bind fun x x' hx => .pure (by rw [hx]; rfl)
    · exact .pure rfl
    · exact .pure rfl
    · exact .pure rfl
    · exact (signedNumber_tries h).bind fun x x' hx => .pure (by rw [hx]; rfl)
    · refine (Tries.mapM (T := Eq) (significant h) fun p p' hp => ?_).bind fun xs xs' hxs => ?_
      · refine (plainValue_tries hp).bind fun v v' hv => ?_
        rw [hv, Value.number?_shift]
        split
        · exact .pure rfl
        · exact .failure
      · rw [List.forall₂_eq_eq_eq] at hxs
        subst hxs
        exact .ofOption (rel_shortVector xs)
    · exact .failure
termination_by sizeOf n
decreasing_by all_goals exact p.inside

/-! ## §2 Parts in their roles -/

theorem resolve_corresponds (h : C.Converters C.SameExpression convert convert') (role : Role)
    {p : n.Part} {p' : n'.Part} (hp : C.Parts p p') :
    C.Agree C.SameExpression (resolve convert role p) (resolve convert' role p') := by
  unfold resolve
  refine Agree.bind (S := Option.Rel C.SameExpression) ?_ fun r r' hr => .require hr hp rfl
  split
  · exact (h p p' hp).blame hp fun _ _ hfault => hfault.invalid role
  · exact h p p' hp

theorem resolve?_corresponds (h : C.Converters C.SameExpression convert convert') (role : Role)
    {x : Option n.Part} {x' : Option n'.Part} (hx : Option.Rel C.Parts x x') :
    C.Agree (Option.Rel C.SameExpression) (resolve? convert role x)
      (resolve? convert' role x') := by
  cases hx with
  | none => exact .pure .none
  | some hp => exact .map ((resolve_corresponds h role hp).imp fun _ _ => .some)

/-! ## §3 Arguments -/

theorem value_corresponds {whole whole' : Conversion (Option Expression)} (h : C.Related n n')
    (hwhole : C.Agree (Option.Rel C.SameExpression) whole whole') :
    C.Agree C.SameValue (value n whole) (value n' whole') := by
  unfold value
  refine (Agree.ofExcept (plainValue_tries h)).bind fun settled settled' hsettled => ?_
  cases hsettled with
  | some hv => exact .pure hv
  | none =>
    refine hwhole.bind fun r r' hr => ?_
    refine (Agree.require hr h rfl).bind fun e e' he => .pure ?_
    rw [he]
    exact e.toValue_shift

/-- Whether a child starts behind a node does not change when both are moved. -/
theorem startsBehind_eq {m m' : Node} (hm : C.Related m m') (h : C.Related n n') :
    decide (m'.stopByte ≤ n'.startByte) = decide (m.stopByte ≤ n.startByte) := by
  simp only [stopByte_eq hm, startByte_eq h, Nat.add_le_add_iff_right]

theorem argument_corresponds (h : C.Related n n')
    (hconvert : C.Converters C.SameExpression convert convert') :
    C.Agree C.SameArgument (argument n convert) (argument n' convert') := by
  have hname : Option.Rel C.Parts ((n.field? "name").filter (·.node.hasText))
      ((n'.field? "name").filter (·.node.hasText)) :=
    (field? h "name").filter fun _ _ hp => hasText_eq hp
  unfold argument
  dsimp only
  generalize (n.field? "name").filter (·.node.hasText) = name,
    (n'.field? "name").filter (·.node.hasText) = name' at hname
  have hbehind {c c' : Node} (hc : C.Related c c') :
      (name'.all fun name => decide (name.node.stopByte ≤ c'.startByte)) =
        name.all fun name => decide (name.node.stopByte ≤ c.startByte) := by
    cases hname with
    | none => rfl
    | some hp => exact startsBehind_eq hp hc
  have hnames : name'.map (·.node.trimmed) = name.map (·.node.trimmed) :=
    (hname.map_eq fun _ _ hp => (trimmed_eq hp).symm).symm
  refine (Agree.require (S := C.Parts) ?_ h rfl).bind fun p p' hp => ?_
  · exact ((field? h "value").or (findLast? h hbehind)).filter fun _ _ hp => by rw [isMissing_eq hp]
  refine (value_corresponds hp (hconvert p p' hp)).bind fun v v' hv => .pure ?_
  rw [SameArgument, Argument.shift, hnames, hv, (C.alike h).span]

/-- A single argument of a list, as the list it adds. -/
theorem argument_corresponds_singleton {p : n.Part} {p' : n'.Part} (hp : C.Parts p p')
    (hconvert : C.Converters C.SameExpression convert convert') :
    C.Agree (List.Forall₂ C.SameArgument)
      (do return [← argument p.node (convert.inside p)])
      (do return [← argument p'.node (convert'.inside p')]) :=
  (argument_corresponds hp hconvert.inside).bind fun _ _ ha => .pure (.cons ha .nil)

theorem arguments_corresponds {n n' : Node} {convert : Converter n Expression}
    {convert' : Converter n' Expression} (h : C.Related n n')
    (hconvert : C.Converters C.SameExpression convert convert') :
    C.Agree (List.Forall₂ C.SameArgument) (arguments n convert) (arguments n' convert') := by
  rw [arguments, arguments]
  refine (Agree.mapM (T := List.Forall₂ C.SameArgument) (significant h)
    fun p p' hp => ?_).bind fun groups groups' hgroups => .pure (List.rel_flatten hgroups)
  rw [kind_eq hp]
  split
  · exact arguments_corresponds hp hconvert.inside
  · exact argument_corresponds_singleton hp hconvert
  · exact argument_corresponds_singleton hp hconvert
  · exact argument_corresponds_singleton hp hconvert
  · split
    · refine (value_corresponds hp (hconvert p p' hp)).bind fun v v' hv => .pure (.cons ?_ .nil)
      rw [SameArgument, Argument.shift, hv, (C.alike hp).span]
    · exact .pure .nil
termination_by sizeOf n
decreasing_by exact p.inside

theorem argumentsOf_corresponds (hconvert : C.Converters C.SameExpression convert convert')
    {x : Option n.Part} {x' : Option n'.Part} (hx : Option.Rel C.Parts x x') :
    C.Agree (List.Forall₂ C.SameArgument) (argumentsOf convert x) (argumentsOf convert' x') := by
  cases hx with
  | none => exact .pure .nil
  | some hp => exact arguments_corresponds hp hconvert.inside

/-! ## §4 Bindings -/

theorem rel_nameChild? (h : C.Related n n') :
    Option.Rel C.Parts (nameChild? n) (nameChild? n') :=
  find? h fun hc => by rw [kind_eq hc]

theorem binding_corresponds (h : C.Related n n')
    (hconvert : C.Converters C.SameExpression convert convert') :
    C.Agree C.SameBinding (binding n convert) (binding n' convert') := by
  unfold binding
  dsimp only
  refine (Agree.require (S := C.Parts) ?_ h rfl).bind fun name name' hname => ?_
  · refine ((field? h "name").or (rel_nameChild? h)).filter fun _ _ hp => ?_
    rw [hasText_eq hp, isMissing_eq hp]
  rw [trimmed_eq hname]
  refine (Agree.require (S := C.Parts) ?_ h rfl).bind fun p p' hp => ?_
  · refine ((field? h "value").or (findLast? h (startsBehind_eq hname))).filter fun _ _ hp => ?_
    rw [isMissing_eq hp]
  refine (hconvert p p' hp).bind fun r r' hr => ?_
  refine (Agree.require hr hp rfl).bind fun bound bound' hbound => .pure ?_
  rw [SameBinding, Binding.shift, hbound, (C.alike hname).span, (C.alike h).span]

/-- A single binding of a list, as the list it adds. -/
theorem binding_corresponds_singleton {p : n.Part} {p' : n'.Part} (hp : C.Parts p p')
    (hconvert : C.Converters C.SameExpression convert convert') :
    C.Agree (List.Forall₂ C.SameBinding)
      (do return [← binding p.node (convert.inside p)])
      (do return [← binding p'.node (convert'.inside p')]) :=
  (binding_corresponds hp hconvert.inside).bind fun _ _ hb => .pure (.cons hb .nil)

theorem bindings_corresponds {n n' : Node} {convert : Converter n Expression}
    {convert' : Converter n' Expression} (h : C.Related n n')
    (hconvert : C.Converters C.SameExpression convert convert') :
    C.Agree (List.Forall₂ C.SameBinding) (bindings n convert) (bindings n' convert') := by
  rw [bindings, bindings]
  refine (Agree.mapM (T := List.Forall₂ C.SameBinding) (significant h)
    fun p p' hp => ?_).bind fun groups groups' hgroups => .pure (List.rel_flatten hgroups)
  rw [kind_eq hp]
  split
  · exact binding_corresponds_singleton hp hconvert
  · exact binding_corresponds_singleton hp hconvert
  · exact binding_corresponds_singleton hp hconvert
  · dsimp only
    rw [(field? hp "name").isNone_eq]
    split
    · exact Agree.fail_bind hp (.refl _)
    · exact binding_corresponds_singleton hp hconvert
  · exact bindings_corresponds hp hconvert.inside
  · exact bindings_corresponds hp hconvert.inside
  · exact .pure .nil
termination_by sizeOf n
decreasing_by all_goals exact p.inside

/-! ## §5 Comprehensions -/

/-- The loop variable is the same, and the expression is the first one moved. -/
def SameClause (C : Correspondence) (r r' : String × Expression) : Prop :=
  r'.1 = r.1 ∧ C.SameExpression r.2 r'.2

theorem forClause_corresponds (h : C.Related n n')
    (hconvert : C.Converters C.SameExpression convert convert') :
    C.Agree (SameClause C) (forClause n convert) (forClause n' convert') := by
  have hinner (label : String) : Option.Rel C.Parts
      ((n.find? fun c => c.kind == .assignment || c.kind == .forBinding).bind
        fun b => (b.node.field? label).map b.within)
      ((n'.find? fun c => c.kind == .assignment || c.kind == .forBinding).bind
        fun b => (b.node.field? label).map b.within) :=
    (find? h fun hc => by rw [kind_eq hc]).bind fun _ _ hb => (field? hb label).map fun _ _ hp => hp
  unfold forClause
  refine (Agree.require (S := C.Parts) ?_ h rfl).bind fun iterator iterator' hiterator => ?_
  · refine ((field? h "iterator").or (hinner "name")).filter fun _ _ hp => ?_
    rw [isMissing_eq hp, hasText_eq hp]
  refine (Agree.require (S := C.Parts) ?_ h rfl).bind fun range range' hrange => ?_
  · exact ((field? h "range").or (hinner "value")).filter fun _ _ hp => by rw [isMissing_eq hp]
  refine (resolve_corresponds hconvert .iterable hrange).bind fun e e' he => .pure ⟨?_, he⟩
  exact trimmed_eq hiterator

theorem leadingBindings_corresponds (hconvert : C.Converters C.SameExpression convert convert')
    {clause : Option n.Part} {clause' : Option n'.Part}
    (hclause : Option.Rel C.Parts clause clause') :
    C.Agree (List.Forall₂ C.SameBinding) (leadingBindings convert clause)
      (leadingBindings convert' clause') := by
  cases hclause with
  | none => exact .pure .nil
  | some hp =>
    refine (Agree.remark _ hp).bind fun _ _ _ => ?_
    exact (bindings_corresponds hp hconvert.inside).blame hp fun _ _ _ => .refl _

theorem splitCondition_corresponds {rest : List n.Part} {rest' : List n'.Part}
    (h : List.Forall₂ C.Parts rest rest') :
    Option.Rel C.Parts (splitCondition rest).1 (splitCondition rest').1 ∧
      List.Forall₂ C.Parts (splitCondition rest).2 (splitCondition rest').2 := by
  cases h with
  | nil => exact ⟨.none, .nil⟩
  | cons hp hrest =>
    simp only [splitCondition, (C.alike hp).label]
    split
    · exact ⟨.some hp, hrest⟩
    · exact ⟨.none, .cons hp hrest⟩

/-- The conditions correspond, and the bodies do. -/
def SameBody (C : Correspondence) (r r' : Option Expression × Expression) : Prop :=
  Option.Rel C.SameExpression r.1 r'.1 ∧ C.SameExpression r.2 r'.2

theorem conditionAndBody_corresponds (h : C.Related n n')
    (hconvert : C.Converters C.SameExpression convert convert') {rest : List n.Part}
    {rest' : List n'.Part} (hrest : List.Forall₂ C.Parts rest rest') :
    C.Agree (SameBody C) (conditionAndBody convert rest) (conditionAndBody convert' rest') := by
  obtain ⟨hcondition, hleft⟩ := splitCondition_corresponds hrest
  unfold conditionAndBody
  generalize splitCondition rest = parts, splitCondition rest' = parts' at *
  obtain ⟨condition, left⟩ := parts
  obtain ⟨condition', left'⟩ := parts'
  dsimp only at *
  refine (resolve?_corresponds hconvert _ hcondition).bind fun condition condition' hcondition => ?_
  cases hleft with
  | nil => exact .fail h (.refl _)
  | cons hbody hextra =>
    dsimp only
    rw [kind_eq hbody, (C.alike hbody).tag]
    split
    · exact Agree.fail_bind hbody (.refl _)
    · cases hextra with
      | nil =>
        exact (resolve_corresponds hconvert _ hbody).bind fun e e' he => .pure ⟨hcondition, he⟩
      | cons hp _ =>
        dsimp only
        rw [(C.alike hp).tag]
        exact .fail hp (.refl _)

theorem bodyLast_corresponds (h : C.Related n n')
    (hconvert : C.Converters C.SameExpression convert convert') :
    C.Agree (Option.Rel C.SameExpression) (bodyLast n convert) (bodyLast n' convert') := by
  have hsignificant := significant h
  have hclause : Option.Rel C.Parts (n.significant.head?.filter (·.node.kind == .letClause))
      (n'.significant.head?.filter (·.node.kind == .letClause)) :=
    (rel_head? hsignificant).filter fun _ _ hp => by rw [kind_eq hp]
  unfold bodyLast
  dsimp only
  generalize n.significant.head?.filter (·.node.kind == .letClause) = clause,
    n'.significant.head?.filter (·.node.kind == .letClause) = clause' at hclause
  rw [hclause.isSome_eq]
  have hrest : List.Forall₂ C.Parts
      (if clause.isSome then n.significant.tail else n.significant)
      (if clause.isSome then n'.significant.tail else n'.significant) := by
    split
    · exact rel_tail hsignificant
    · exact hsignificant
  generalize (if clause.isSome then n.significant.tail else n.significant) = rest,
    (if clause.isSome then n'.significant.tail else n'.significant) = rest' at hrest
  refine (leadingBindings_corresponds hconvert hclause).bind fun lets lets' hlets => ?_
  have hloop : Option.Rel C.Parts (rest.head?.filter (·.node.kind == .forClause))
      (rest'.head?.filter (·.node.kind == .forClause)) :=
    (rel_head? hrest).filter fun _ _ hp => by rw [kind_eq hp]
  generalize rest.head?.filter (·.node.kind == .forClause) = loop,
    rest'.head?.filter (·.node.kind == .forClause) = loop' at hloop
  cases hloop with
  | none =>
    dsimp only
    split
    · exact .fail h (.refl _)
    · exact .pure .none
  | some hp =>
    refine (forClause_corresponds hp hconvert.inside).bind fun r r' hr => ?_
    refine (conditionAndBody_corresponds h hconvert (rel_tail hrest)).bind fun q q' hq => ?_
    refine .pure (.some ?_)
    rw [SameExpression, Expression.shift, Binding.shiftList_eq_map, Expression.shift?_eq_map,
      eq_map_of_forall₂ hlets, hr.1, hr.2, eq_map_of_rel hq.1, hq.2, (C.alike h).span]

theorem bodyFirst_corresponds (h : C.Related n n')
    (hconvert : C.Converters C.SameExpression convert convert') :
    C.Agree C.SameExpression (bodyFirst n convert) (bodyFirst n' convert') := by
  unfold bodyFirst
  refine (Agree.require ((field? h "for_clause").or (ofKind? h .forClause)) h rfl).bind
    fun loop loop' hloop => ?_
  refine (Agree.require (S := C.Parts) ?_ h rfl).bind fun element element' helement => ?_
  · refine (field? h "element").or (find? h fun hc => ?_)
    rw [kind_eq hc, (C.alike hc).label]
  refine (forClause_corresponds hloop hconvert.inside).bind fun r r' hr => ?_
  refine (resolve?_corresponds hconvert _ (field? h "condition")).bind
    fun condition condition' hcondition => ?_
  refine (resolve_corresponds hconvert _ helement).bind fun body body' hbody => .pure ?_
  rw [SameExpression, Expression.shift, Binding.shiftList_eq_map, Expression.shift?_eq_map,
    hr.1, hr.2, eq_map_of_rel hcondition, hbody, (C.alike h).span, List.map_nil]

theorem comprehension_corresponds (h : C.Related n n')
    (hconvert : C.Converters C.SameExpression convert convert') :
    C.Agree (Option.Rel C.SameExpression) (comprehension n convert)
      (comprehension n' convert') := by
  unfold comprehension
  refine (bodyLast_corresponds h hconvert).bind fun r r' hr => ?_
  cases hr with
  | some he => exact .pure (.some he)
  | none => exact .map ((bodyFirst_corresponds h hconvert).imp fun _ _ => .some)

/-! ## §6 Operators -/

/-- Which operation an expression is does not depend on where it stands. -/
theorem throughRung_corresponds {inner inner' : Conversion (Option Expression)}
    {accepts : Expression → Bool} (hinner : C.Agree (Option.Rel C.SameExpression) inner inner')
    (haccepts : ∀ e, accepts (e.shift C.shift) = accepts e) :
    C.Agree (Option.Rel C.SameExpression) (throughRung inner accepts)
      (throughRung inner' accepts) := by
  unfold throughRung
  exact hinner.bind fun r r' hr => .pure (hr.filter fun e e' he => by rw [he, haccepts])

theorem binary_corresponds (h : C.Related n n')
    (hconvert : C.Converters C.SameExpression convert convert') :
    C.Agree (Option.Rel C.SameExpression) (binary n convert) (binary n' convert') := by
  have hsignificant := significant h
  have honly := onlyChild? h binaryLabels
  unfold binary
  generalize n.onlyChild? binaryLabels = x, n'.onlyChild? binaryLabels = x' at honly
  cases honly with
  | some hp =>
    exact throughRung_corresponds (hconvert _ _ hp) Expression.isBinary_shift
  | none =>
    dsimp only
    refine (Agree.require ((field? h "left").or (rel_head? hsignificant)) h rfl).bind
      fun left left' hleft => ?_
    refine (Agree.require (S := C.Parts) ?_ h rfl).bind fun right right' hright => ?_
    · rw [hsignificant.length_eq]
      exact (field? h "right").or (.ite (rel_getLast? hsignificant) .none)
    refine (Agree.require (S := C.Parts) ?_ h rfl).bind fun token token' htoken => ?_
    · exact (field? h "operator").or (token? h fun hc => by rw [(C.alike hc).text])
    rw [(C.alike htoken).text, trimmed_eq htoken]
    refine (Agree.require (S := Eq) (.refl _) htoken rfl).bind
      fun operator operator' hoperator => ?_
    refine (resolve_corresponds hconvert _ hleft).bind fun l l' hl => ?_
    refine (resolve_corresponds hconvert _ hright).bind fun r r' hr => .pure (.some ?_)
    rw [SameExpression, Expression.shift, hoperator, hl, hr, (C.alike h).span]

theorem unary_corresponds (h : C.Related n n')
    (hconvert : C.Converters C.SameExpression convert convert') :
    C.Agree (Option.Rel C.SameExpression) (unary n convert) (unary n' convert') := by
  have honly := onlyChild? h unaryLabels
  unfold unary
  generalize n.onlyChild? unaryLabels = x, n'.onlyChild? unaryLabels = x' at honly
  cases honly with
  | some hp =>
    exact throughRung_corresponds (hconvert _ _ hp) Expression.isUnary_shift
  | none =>
    dsimp only
    refine (Agree.require (S := C.Parts) ?_ h rfl).bind fun token token' htoken => ?_
    · exact (field? h "operator").or (token? h fun hc => by rw [(C.alike hc).text])
    rw [(C.alike htoken).text, trimmed_eq htoken]
    refine (Agree.require (S := Eq) (.refl _) htoken rfl).bind
      fun operator operator' hoperator => ?_
    refine (Agree.require ((field? h "operand").or (rel_getLast? (significant h))) h rfl).bind
      fun operand operand' hoperand => ?_
    refine (resolve_corresponds hconvert _ hoperand).bind fun e e' he => .pure (.some ?_)
    rw [SameExpression, Expression.shift, hoperator, he, (C.alike h).span]

theorem conditional_corresponds (h : C.Related n n')
    (hconvert : C.Converters C.SameExpression convert convert') :
    C.Agree (Option.Rel C.SameExpression) (conditional n convert) (conditional n' convert') := by
  have hpart (label : String) (i : Nat) : Option.Rel C.Parts
      ((n.field? label).or (if n.hasAnyField conditionalLabels then none else n.significant[i]?))
      ((n'.field? label).or
        (if n'.hasAnyField conditionalLabels then none else n'.significant[i]?)) := by
    rw [hasAnyField_eq h]
    exact (field? h label).or (.ite .none (rel_getElem? (significant h) i))
  have honly := onlyChild? h conditionalLabels
  unfold conditional
  generalize n.onlyChild? conditionalLabels = x, n'.onlyChild? conditionalLabels = x' at honly
  cases honly with
  | some hp =>
    exact throughRung_corresponds (hconvert _ _ hp) Expression.isConditional_shift
  | none =>
    dsimp only
    refine (Agree.require (hpart _ _) h rfl).bind fun condition condition' hcondition => ?_
    refine (Agree.require (hpart _ _) h rfl).bind fun consequence consequence' hconsequence => ?_
    refine (Agree.require (hpart _ _) h rfl).bind fun alternative alternative' halternative => ?_
    refine (resolve_corresponds hconvert _ hcondition).bind fun c c' hc => ?_
    refine (resolve_corresponds hconvert _ hconsequence).bind fun t t' ht => ?_
    refine (resolve_corresponds hconvert _ halternative).bind fun e e' he => .pure (.some ?_)
    rw [SameExpression, Expression.shift, hc, ht, he, (C.alike h).span]

/-! ## §7 Calls and access -/

theorem call_corresponds (h : C.Related n n')
    (hconvert : C.Converters C.SameExpression convert convert') :
    C.Agree (Option.Rel C.SameExpression) (call n convert) (call n' convert') := by
  unfold call
  refine (Agree.require (S := C.Parts) ?_ h rfl).bind fun callee callee' hcallee => ?_
  · exact ((anyField? h _).or (rel_nameChild? h)).filter fun _ _ hp => hasText_eq hp
  refine (argumentsOf_corresponds hconvert ((field? h "arguments").or (ofKind? h .arguments))).bind
    fun as as' has => .pure (.some ?_)
  rw [SameExpression, Expression.shift, Argument.shiftList_eq_map, trimmed_eq hcallee,
    eq_map_of_forall₂ has, (C.alike h).span]

theorem rel_accessParts (h : C.Related n n') (first second : List String) :
    Option.Rel C.Parts (accessParts n first second).1 (accessParts n' first second).1 ∧
      Option.Rel C.Parts (accessParts n first second).2 (accessParts n' first second).2 := by
  rw [accessParts, accessParts, hasAnyField_eq h]
  split
  · exact ⟨anyField? h _, anyField? h _⟩
  · exact ⟨rel_getElem? (significant h) 0, rel_getElem? (significant h) 1⟩

theorem index_corresponds (h : C.Related n n')
    (hconvert : C.Converters C.SameExpression convert convert') :
    C.Agree (Option.Rel C.SameExpression) (index n convert) (index n' convert') := by
  obtain ⟨hfirst, hsecond⟩ := rel_accessParts h ["array", "value"] ["index"]
  unfold index
  refine (Agree.require hfirst h rfl).bind fun array array' harray => ?_
  refine (Agree.require (S := C.Parts) ?_ h rfl).bind fun position position' hposition => ?_
  · exact hsecond.filter fun _ _ hp => by rw [isMissing_eq hp]
  refine (resolve_corresponds hconvert _ harray).bind fun a a' ha => ?_
  refine (resolve_corresponds hconvert _ hposition).bind fun i i' hi => .pure (.some ?_)
  rw [SameExpression, Expression.shift, ha, hi, (C.alike h).span]

theorem member_corresponds (h : C.Related n n')
    (hconvert : C.Converters C.SameExpression convert convert') :
    C.Agree (Option.Rel C.SameExpression) (member n convert) (member n' convert') := by
  obtain ⟨hfirst, hsecond⟩ := rel_accessParts h ["object", "value"] ["property", "index"]
  unfold member
  refine (Agree.require hfirst h rfl).bind fun object object' hobject => ?_
  refine (Agree.require (S := C.Parts) ?_ h rfl).bind fun property property' hproperty => ?_
  · exact hsecond.filter fun _ _ hp => hasText_eq hp
  refine (resolve_corresponds hconvert _ hobject).bind fun e e' he => .pure (.some ?_)
  rw [SameExpression, Expression.shift, he, trimmed_eq hproperty, (C.alike h).span]

/-! ## §8 Collections -/

theorem vector_corresponds (h : C.Related n n')
    (hconvert : C.Converters C.SameExpression convert convert') :
    C.Agree (Option.Rel C.SameExpression) (vector n convert) (vector n' convert') := by
  unfold vector
  refine (Agree.mapM (significant h) fun p p' hp => resolve_corresponds hconvert _ hp).bind
    fun es es' hes => .pure (.some ?_)
  rw [SameExpression, Expression.shift, Expression.shiftList_eq_map, eq_map_of_forall₂ hes,
    (C.alike h).span]

/-- The start, the step and the stop of two ranges correspond. -/
def SameParts (C : Correspondence) (r : Option n.Part × Option n.Part × Option n.Part)
    (r' : Option n'.Part × Option n'.Part × Option n'.Part) : Prop :=
  Option.Rel C.Parts r.1 r'.1 ∧ Option.Rel C.Parts r.2.1 r'.2.1 ∧ Option.Rel C.Parts r.2.2 r'.2.2

theorem rangeParts_corresponds (h : C.Related n n') :
    C.Agree (SameParts C) (rangeParts n) (rangeParts n') := by
  have hpresent (label : String) : Option.Rel C.Parts
      ((n.field? label).filter (!·.node.isPlaceholder))
      ((n'.field? label).filter (!·.node.isPlaceholder)) :=
    (field? h label).filter fun _ _ hp => by rw [isPlaceholder_eq hp]
  have hreadable := readable h
  rw [rangeParts, rangeParts, hasAnyField_eq h]
  split
  · exact .pure ⟨hpresent _, hpresent _, hpresent _⟩
  · generalize n.significant.filter (!·.node.isPlaceholder) = parts,
      n'.significant.filter (!·.node.isPlaceholder) = parts' at hreadable
    -- At most three parts are parts of a range.
    rcases hreadable with _ | ⟨h₁, _ | ⟨h₂, _ | ⟨h₃, _ | ⟨h₄, _⟩⟩⟩⟩
    · exact .pure ⟨.none, .none, .none⟩
    · exact .pure ⟨.some h₁, .none, .none⟩
    · exact .pure ⟨.some h₁, .none, .some h₂⟩
    · exact .pure ⟨.some h₁, .some h₂, .some h₃⟩
    · exact .fail h₄ (.refl _)

theorem range_corresponds (h : C.Related n n')
    (hconvert : C.Converters C.SameExpression convert convert') :
    C.Agree C.SameExpression (range n convert) (range n' convert') := by
  unfold range
  dsimp only
  rw [kind_eq h, (C.alike h).tag]
  split
  · exact Agree.fail_bind h (.refl _)
  refine (rangeParts_corresponds h).bind fun parts parts' hparts => ?_
  refine (Agree.require hparts.1 h rfl).bind fun start start' hstart => ?_
  refine (Agree.require hparts.2.2 h rfl).bind fun stop stop' hstop => ?_
  refine (resolve_corresponds hconvert _ hstart).bind fun a a' ha => ?_
  refine (resolve?_corresponds hconvert _ hparts.2.1).bind fun b b' hb => ?_
  refine (resolve_corresponds hconvert _ hstop).bind fun c c' hc => .pure ?_
  rw [SameExpression, Expression.shift, Expression.shift?_eq_map, ha, eq_map_of_rel hb, hc,
    (C.alike h).span]

theorem letIn_corresponds (h : C.Related n n')
    (hconvert : C.Converters C.SameExpression convert convert') :
    C.Agree (Option.Rel C.SameExpression) (letIn n convert) (letIn n' convert') := by
  unfold letIn
  refine (Agree.require (S := C.Parts) ?_ h rfl).bind fun body body' hbody => ?_
  · exact (field? h "body").or (findLast? h fun hc => by rw [kind_eq hc])
  refine (bindings_corresponds h hconvert).bind fun bound bound' hbound => ?_
  refine (resolve_corresponds hconvert _ hbody).bind fun e e' he => .pure (.some ?_)
  rw [SameExpression, Expression.shift, Binding.shiftList_eq_map, eq_map_of_forall₂ hbound, he,
    (C.alike h).span]

/-! ## §9 Wrappers and parentheses -/

/-- The conversion answers nothing for a comment. -/
def SkipsComments (convert : Converter n Expression) (settings : Settings) : Prop :=
  ∀ p, p.node.kind = .comment → (convert p).result settings = .ok none

theorem SkipsComments.inside {settings : Settings} (h : SkipsComments convert settings)
    (p : n.Part) : SkipsComments (convert.inside p) settings :=
  fun q hq => h (p.within q) hq

/-- Converting the first child of a wrapper comes to the same where that child corresponds to the
first child of the other, or where it answers nothing that the significant children do not. -/
theorem lead_corresponds (h : C.Related n n') (hgeneral : n.isGeneral = true)
    (hconvert : C.Converters C.SameExpression convert convert')
    (hskips : SkipsComments convert C.left) (hskips' : SkipsComments convert' C.right)
    (hnone : ∀ p, n.significant.head? = some p → p.node.isPlaceholder = false →
      (convert p).result C.left = .ok none) :
    Option.Rel (fun p p' => C.Agree (Option.Rel C.SameExpression) (convert p) (convert' p'))
      n.parts.head? n'.parts.head? := by
  rcases head?_parts h hgeneral with hlead | ⟨hlistens, p, p', hp, hp', hpair, hplain⟩
  · exact hlead.imp hconvert
  · rw [hp, hp']
    refine .some ?_
    have hresult : (convert p).result C.left = .ok none :=
      hplain.elim (hskips p) fun hhead => hnone p hhead.1 hhead.2
    rcases hpair with hcomment | hpair
    · exact .of_none hlistens hresult (hskips' p' hcomment)
    · exact hconvert p p' hpair

theorem firstConverted_corresponds (hconvert : C.Converters C.SameExpression convert convert')
    {parts : List n.Part} {parts' : List n'.Part} (h : List.Forall₂ C.Parts parts parts') :
    C.Agree (Option.Rel C.SameExpression) (firstConverted convert parts)
      (firstConverted convert' parts') := by
  induction h with
  | nil => exact .pure .none
  | cons hp _ ih =>
    rw [firstConverted, firstConverted]
    refine (hconvert _ _ hp).bind fun r r' hr => ?_
    cases hr with
    | some he => exact .pure (.some he)
    | none => exact ih

/-- Where nothing is found, no part converts to anything. -/
theorem result_eq_none_of_firstConverted {settings : Settings} {parts : List n.Part}
    (h : (firstConverted convert parts).result settings = .ok none) :
    ∀ p ∈ parts, (convert p).result settings = .ok none := by
  induction parts with
  | nil => exact List.forall_mem_nil _
  | cons p rest ih =>
    rw [firstConverted, result_bind] at h
    cases hp : (convert p).result settings with
    | error f => simp [hp] at h
    | ok r =>
      cases r with
      | some e => simp [hp] at h
      | none =>
        rw [hp] at h
        exact List.forall_mem_cons.mpr ⟨hp, ih h⟩

theorem parenthesized_corresponds (h : C.Related n n')
    (hconvert : C.Converters C.SameExpression convert convert')
    (hskips : SkipsComments convert C.left) (hskips' : SkipsComments convert' C.right) :
    C.Agree (Option.Rel C.SameExpression) (parenthesized n convert)
      (parenthesized n' convert') := by
  unfold parenthesized
  refine (Agree.require (S := C.Parts) ?_ h rfl).bind fun inner inner' hinner => ?_
  · exact (field? h "expression").or (rel_head? (significant h))
  dsimp only
  rw [kind_eq hinner]
  split
  · exact hconvert inner inner' hinner
  · next hkind =>
    have hgeneral : inner.node.isGeneral = true := by simp_all [Node.isGeneral]
    have hcandidates : List.Forall₂ C.Parts
        ((inner.node.significant.filter (!·.node.isPlaceholder)).map inner.within)
        ((inner'.node.significant.filter (!·.node.isPlaceholder)).map inner'.within) :=
      map_within (readable hinner)
    refine (firstConverted_corresponds hconvert hcandidates).bind_of_result
      fun r r' hresult hr => ?_
    cases hr with
    | some he => exact .pure (.some he)
    | none =>
      -- The first child is taken, which is no candidate that converts.
      have hlead := lead_corresponds hinner hgeneral hconvert.inside (hskips.inside inner)
        (hskips'.inside inner') fun p hp hplaceholder => by
          refine result_eq_none_of_firstConverted hresult _ (List.mem_map_of_mem ?_)
          simp [List.mem_of_head? hp, hplaceholder]
      exact (Agree.require hlead h rfl).bind fun p p' hp => hp

/-! ## §10 The choice among them -/

theorem rel_rungChild? (h : C.Related n n') :
    Option.Rel C.Parts (rungChild? n) (rungChild? n') := by
  rw [rungChild?, rungChild?, kind_eq h]
  exact (Option.Rel.refl _).bind fun labels labels' hlabels => hlabels ▸ onlyChild? h labels

theorem literal_corresponds (h : C.Related n n') :
    C.Agree Eq (literal n) (literal n') := by
  rw [literal, literal, kind_eq h, (C.alike h).text, (C.alike h).tag]
  split
  · exact .map ((Agree.ofExcept (numberOf_outcome h)).imp fun _ _ hx => congrArg _ hx)
  · exact .pure rfl
  · exact .pure rfl
  · exact .pure rfl
  · exact .fail h (.refl _)

/-- What a wrapper holds is its first significant child, or else its first child. -/
theorem wrapper_corresponds (h : C.Related n n') (hgeneral : n.isGeneral = true)
    (hconvert : C.Converters C.SameExpression convert convert')
    (hskips : SkipsComments convert C.left) (hskips' : SkipsComments convert' C.right) :
    Option.Rel (fun p p' => C.Agree (Option.Rel C.SameExpression) (convert p) (convert' p'))
      (wrappedChild? n) (wrappedChild? n') := by
  have hhead := rel_head? (significant h)
  have hlead := lead_corresponds h hgeneral hconvert hskips hskips'
  unfold wrappedChild?
  generalize n.significant.head? = x, n'.significant.head? = x' at *
  cases hhead with
  | some hp => exact .some (hconvert _ _ hp)
  | none => exact hlead fun _ hnone => nomatch hnone

theorem expressionStep_corresponds (h : C.Related n n')
    (hconvert : C.Converters C.SameExpression convert convert')
    (hskips : SkipsComments convert C.left) (hskips' : SkipsComments convert' C.right) :
    C.Agree (Option.Rel C.SameExpression) (expressionStep n convert)
      (expressionStep n' convert') := by
  have hrung := rel_rungChild? h
  unfold expressionStep
  generalize rungChild? n = x, rungChild? n' = x' at hrung
  cases hrung with
  | some hp => exact (Agree.remark _ h).bind fun _ _ _ => hconvert _ _ hp
  | none =>
    dsimp only
    have hliteral : C.Agree (Option.Rel C.SameExpression)
        (do return some (.literal (← literal n) n.span))
        (do return some (.literal (← literal n') n'.span)) := by
      refine (literal_corresponds h).bind fun l l' hl => .pure (.some ?_)
      rw [SameExpression, Expression.shift, hl, (C.alike h).span]
    rw [kind_eq h, trimmed_eq h, (C.alike h).tag]
    split
    -- A wrapper.
    iterate 2
      · next hkind =>
        have hgeneral : n.isGeneral = true := by
          rw [Node.isGeneral, hkind]
          rfl
        have hinner := wrapper_corresponds h hgeneral hconvert hskips hskips'
        generalize wrappedChild? n = x, wrappedChild? n' = x' at hinner
        cases hinner with
        | some hagree => exact hagree
        | none => exact .failBare _ h
    -- A literal.
    iterate 4
      · exact hliteral
    -- A name.
    iterate 2
      · exact .pure (.some (by rw [SameExpression, Expression.shift, (C.alike h).span]))
    · exact call_corresponds h hconvert
    · exact call_corresponds h hconvert
    · exact vector_corresponds h hconvert
    · exact index_corresponds h hconvert
    · exact member_corresponds h hconvert
    · exact .map ((range_corresponds h hconvert).imp fun _ _ => .some)
    · exact letIn_corresponds h hconvert
    · exact comprehension_corresponds h hconvert
    · exact binary_corresponds h hconvert
    · exact unary_corresponds h hconvert
    · exact conditional_corresponds h hconvert
    · exact parenthesized_corresponds h hconvert hskips hskips'
    · exact .fail h (.refl _)
    · exact .fail h (.refl _)
    · exact (Agree.tell (echoes_unsupported h)).bind fun _ _ _ => .pure .none

/-- A comment is no expression. -/
theorem expression_of_comment (h : n.kind = .comment) (settings : Settings) :
    (expression n).result settings = .ok none := by
  have hrung : rungChild? n = none := by rw [rungChild?, h]; rfl
  rw [expression_eq, expressionStep, hrung, h]
  rfl

theorem expressions_skips (n : Node) (settings : Settings) :
    SkipsComments (expressions n) settings :=
  fun _ hp => expression_of_comment hp settings

/-- Corresponding nodes stand for the same expression, one as far from the other as the trees. -/
theorem expression_corresponds {n n' : Node} (h : C.Related n n') :
    C.Agree (Option.Rel C.SameExpression) (expression n) (expression n') := by
  rw [expression_eq, expression_eq]
  exact expressionStep_corresponds h (fun p p' hp => expression_corresponds hp)
    (expressions_skips n _) (expressions_skips n' _)
termination_by sizeOf n
decreasing_by exact p.inside

theorem expressions_correspond (n n' : Node) :
    C.Converters C.SameExpression (expressions n) (expressions n') :=
  fun _ _ hp => expression_corresponds hp

end Convert

end Scad
