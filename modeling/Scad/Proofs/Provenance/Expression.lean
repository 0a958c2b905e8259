import Scad.Convert.Expression
import Scad.Proofs.Provenance.Origin

/-!
# Where Expressions Come From

Every expression that a conversion makes of a node is made of the syntax of that node, and every
fault points into it.  There is one lemma for each construct; all of them assume the same of the
conversion of the parts, and `expression_meets` ties the knot as `expression` does.
-/

namespace Scad.Convert

open Conversion Node

variable {n : Node} {convert : Converter n Expression}

/-! ## §1 Plain values -/

/-- A number that cannot be read is a fault at its own node. -/
theorem numberOf_error {f : Fault} (h : numberOf n = .error f) : f.PointsInto n := by
  unfold numberOf at h
  split at h
  · cases h
  · obtain rfl := Except.error.inj h
    exact .of_bareFault _ n

theorem finds_wrapped? (n : Node) : n.Finds (wrapped? n) := by
  unfold wrapped?
  split
  · exact finds_onlyChild? _
  · exact finds_onlyChild? _
  · exact finds_onlyChild? _
  · exact .none

/-- Unwrapping goes down the tree. -/
theorem within_unwrapped (n : Node) : (unwrapped n).Within n := by
  rw [unwrapped]
  -- By recursion, as the node is unwrapped: one wrapper at a time.
  cases hinner : wrapped? n with
  | none => exact .refl n
  | some inner => exact (within_unwrapped inner.node).trans (finds_wrapped? n inner hinner)
termination_by sizeOf n
decreasing_by exact Part.inside _

/-- A sign in front of a number that cannot be read is a fault at the number. -/
theorem signedNumber_meets (n : Node) : OptionMeets n (fun _ => True) (signedNumber n) := by
  unfold signedNumber
  refine (OptionMeets.ofOption (Q := fun _ => True) fun _ _ => trivial).bind fun operator _ => ?_
  refine (OptionMeets.ofOption (Q := fun p : n.Part => p.node.Within n) ?_).bind fun p hp => ?_
  · exact (finds_field? _).or finds_getLast?_significant
  have hoperand : (unwrapped p.node).Within n := (within_unwrapped p.node).trans hp
  dsimp only
  split
  · exact .bind (Q := fun _ => False) .failure fun _ h => h.elim
  · refine (OptionMeets.lift (Q := fun _ => True) (fun _ _ => trivial)
      fun _ hf => (numberOf_error hf).mono hoperand).bind fun x _ => ?_
    split
    · exact .pure trivial
    · exact .pure trivial
    · exact .failure

/-- A value that was settled when it was read keeps no expression. -/
theorem plainValue_meets (n : Node) :
    OptionMeets n (fun v => v.expression? = none) (plainValue n) := by
  rw [plainValue]
  -- A wrapper stands for what it holds; behind it, one case for each kind of literal.
  cases hinner : wrapped? n with
  | some inner => exact (plainValue_meets inner.node).mono (finds_wrapped? n inner hinner)
  | none =>
    dsimp only
    split
    · exact (OptionMeets.lift (fun _ _ => trivial) fun _ => numberOf_error).bind
        fun _ _ => .pure rfl
    · exact .pure rfl
    · exact .pure rfl
    · exact .pure rfl
    · exact (signedNumber_meets n).bind fun _ _ => .pure rfl
    · refine (OptionMeets.mapM (R := fun _ => True) fun element helement => ?_).bind
        fun xs _ => .ofOption fun v hv => ?_
      · have hin := within_of_mem_significant helement
        refine ((plainValue_meets element.node).mono hin).bind fun v _ => ?_
        split
        · exact .pure trivial
        · exact .failure
      · unfold shortVector at hv
        split at hv <;> cases hv <;> rfl
    · exact .failure
termination_by sizeOf n
decreasing_by all_goals exact Part.inside _

/-! ## §2 Parts in their roles -/

/-- An expression that plays a role is made of the syntax of the part that plays it. -/
theorem resolve_meets_part (h : convert.Traces .expression) {role : Role} {p : n.Part}
    (hp : p.node.Within n) :
    (resolve convert role p).Meets p.node fun e => p.node.Yields (.expression e) := by
  have hconverted := h p hp
  unfold resolve
  dsimp only
  split
  · exact hconverted.blame.bind fun r hr => .require (.refl _) hr
  · exact hconverted.bind fun r hr => .require (.refl _) hr

/-- Seen from the whole, the same holds of the subtree of the whole. -/
theorem resolve_meets (h : convert.Traces .expression) {role : Role} {p : n.Part}
    (hp : p.node.Within n) :
    (resolve convert role p).Meets n fun e => n.Yields (.expression e) :=
  ((resolve_meets_part h hp).mono hp).imp fun _ => .within hp

theorem resolve?_meets (h : convert.Traces .expression) {role : Role} {x : Option n.Part}
    (hx : n.Finds x) :
    (resolve? convert role x).Meets n fun r => ∀ c ∈ View.ofExpression? r, n.Yields c := by
  cases x with
  | none => exact .pure (List.forall_mem_nil _)
  | some p =>
    refine .map ((resolve_meets h (hx p rfl)).imp fun e he => ?_)
    simpa [View.ofExpression?] using he

/-! ## §3 Arguments -/

/-- A value is settled when it is read, or else made of an expression. -/
theorem value_meets {n : Node} {whole : Conversion (Option Expression)}
    (h : whole.Meets n fun r => ∀ e, r = some e → n.Yields (.expression e)) :
    (value n whole).Meets n n.YieldsValue := by
  unfold value
  refine (plainValue_meets n).meets.bind fun settled hsettled => ?_
  cases settled with
  | some v => exact .pure (.of_settled (hsettled v rfl))
  | none =>
    refine h.bind fun r hr => ?_
    exact (Meets.require (.refl n) hr).bind fun e he => .pure he.toValue

/-- An argument has the span of its node, and keeps no span of its name. -/
theorem argument_meets (h : convert.Traces .expression) :
    (argument n convert).Meets n fun a => n.Yields (.argument a) := by
  unfold argument
  refine (Meets.requirePart ?_).bind fun p hp => ?_
  · exact ((finds_field? _).or (finds_findLast? _)).filter
  refine ((value_meets (h p hp)).mono hp).bind fun v hv => .pure ?_
  exact .of_unnamed rfl rfl fun c hc => .within hp (hv c hc)

/-- A single argument of a list, as the list it adds. -/
theorem argument_meets_singleton {p : n.Part} (h : convert.Traces .expression)
    (hp : p.node.Within n) :
    (do return [← argument p.node (convert.inside p)] : Conversion (List Argument)).Meets n
      fun as => ∀ a ∈ as, n.Yields (.argument a) := by
  refine ((argument_meets (h.inside hp)).mono hp).bind fun a ha => .pure ?_
  exact List.forall_mem_singleton.mpr (.within hp ha)

theorem arguments_meets (n : Node) (convert : Converter n Expression)
    (h : convert.Traces .expression) :
    (arguments n convert).Meets n fun as => ∀ a ∈ as, n.Yields (.argument a) := by
  rw [arguments]
  refine .mapM_flatten fun c hc => ?_
  have hin := within_of_mem_significant hc
  split
  -- A list inside the list adds its own arguments.
  · refine ((arguments_meets c.node _ (h.inside hin)).mono hin).imp fun as has a ha => ?_
    exact .within hin (has a ha)
  · exact argument_meets_singleton h hin
  · exact argument_meets_singleton h hin
  · exact argument_meets_singleton h hin
  -- A bare value is an argument without a name; anything else adds nothing.
  · split
    · refine ((value_meets (h c hin)).mono hin).bind fun v hv => .pure ?_
      refine List.forall_mem_singleton.mpr (.within hin ?_)
      exact .of_unnamed rfl rfl hv
    · exact .pure (List.forall_mem_nil _)
termination_by sizeOf n
decreasing_by all_goals exact Part.inside _

theorem argumentsOf_meets (h : convert.Traces .expression) {x : Option n.Part} (hx : n.Finds x) :
    (argumentsOf convert x).Meets n fun as => ∀ a ∈ as, n.Yields (.argument a) := by
  cases x with
  | none => exact .pure (List.forall_mem_nil _)
  | some p =>
    have hp := hx p rfl
    refine ((arguments_meets p.node _ (h.inside hp)).mono hp).imp fun as has a ha => ?_
    exact .within hp (has a ha)

/-! ## §4 Bindings -/

/-- A binding has the span of its node, and its name stands at a node in the subtree. -/
theorem binding_meets (h : convert.Traces .expression) :
    (binding n convert).Meets n fun b => b.span = n.span ∧ n.Yields (.binding b) := by
  unfold binding
  refine (Meets.requirePart ?_).bind fun name hname => ?_
  · exact ((finds_field? _).or (finds_find? _)).filter
  refine (Meets.requirePart ?_).bind fun p hp => ?_
  · exact ((finds_field? _).or (finds_findLast? _)).filter
  refine ((h p hp).mono hp).bind fun r hr => ?_
  refine (Meets.require hp hr).bind fun bound hbound => .pure ⟨rfl, ?_⟩
  -- A named view: first where the name stands, then what the view holds.
  refine .made rfl (fun s hs => ?_) fun c hc => ?_
  · obtain rfl : name.node.span = s := Option.some.inj hs
    exact ⟨name.node, hname, rfl⟩
  · obtain rfl := List.mem_singleton.mp hc
    exact .within hp hbound

/-- A single binding of a list, as the list it adds. -/
theorem binding_meets_singleton {p : n.Part} (h : convert.Traces .expression)
    (hp : p.node.Within n) :
    (do return [← binding p.node (convert.inside p)] : Conversion (List Binding)).Meets n
      fun bs => ∀ b ∈ bs, n.Yields (.binding b) := by
  refine ((binding_meets (h.inside hp)).mono hp).bind fun b hb => .pure ?_
  exact List.forall_mem_singleton.mpr (.within hp hb.2)

theorem bindings_meets (n : Node) (convert : Converter n Expression)
    (h : convert.Traces .expression) :
    (bindings n convert).Meets n fun bs => ∀ b ∈ bs, n.Yields (.binding b) := by
  rw [bindings]
  refine .mapM_flatten fun c hc => ?_
  have hin := within_of_mem_significant hc
  have hinner {c : n.Part} (hin : c.node.Within n)
      (hbs : (bindings c.node (convert.inside c)).Meets c.node
        fun bs => ∀ b ∈ bs, c.node.Yields (.binding b)) :
      (bindings c.node (convert.inside c)).Meets n fun bs => ∀ b ∈ bs, n.Yields (.binding b) :=
    (hbs.mono hin).imp fun bs hbs b hb => .within hin (hbs b hb)
  split
  · exact binding_meets_singleton h hin
  · exact binding_meets_singleton h hin
  · exact binding_meets_singleton h hin
  -- An argument binds only where it has a name.
  · dsimp only
    split
    · exact Meets.fail_bind hin
    · exact binding_meets_singleton h hin
  · exact hinner hin (bindings_meets c.node _ (h.inside hin))
  · exact hinner hin (bindings_meets c.node _ (h.inside hin))
  · exact .pure (List.forall_mem_nil _)
termination_by sizeOf n
decreasing_by all_goals exact Part.inside _

/-! ## §5 Comprehensions -/

/-- What a loop runs through is labelled in the clause, or in the binding inside it. -/
theorem forClause_meets (h : convert.Traces .expression) :
    (forClause n convert).Meets n fun r => n.Yields (.expression r.2) := by
  have hinner (label : String) : n.Finds
      ((n.find? fun c => c.kind == .assignment || c.kind == .forBinding).bind
        fun b => (b.node.field? label).map b.within) :=
    (finds_find? _).bind_within fun _ => finds_field? label
  unfold forClause
  refine (Meets.requirePart ?_).bind fun iterator _ => ?_
  · exact ((finds_field? _).or (hinner "name")).filter
  refine (Meets.requirePart ?_).bind fun range hrange => ?_
  · exact ((finds_field? _).or (hinner "value")).filter
  exact (resolve_meets h hrange).bind fun e he => .pure he

theorem leadingBindings_meets (h : convert.Traces .expression) {clause : Option n.Part}
    (hclause : n.Finds clause) :
    (leadingBindings convert clause).Meets n fun bs => ∀ b ∈ bs, n.Yields (.binding b) := by
  cases clause with
  | none => exact .pure (List.forall_mem_nil _)
  | some clause =>
    have hin := hclause clause rfl
    refine Meets.remark.bind fun _ _ => ?_
    refine ((bindings_meets clause.node _ (h.inside hin)).blame.mono hin).imp ?_
    exact fun bs hbs b hb => .within hin (hbs b hb)

theorem splitCondition_within {rest : List n.Part} (h : ∀ p ∈ rest, p.node.Within n) :
    n.Finds (splitCondition rest).1 ∧ ∀ p ∈ (splitCondition rest).2, p.node.Within n := by
  unfold splitCondition
  split
  · obtain ⟨hc, hrest⟩ := List.forall_mem_cons.mp h
    split
    · exact ⟨.some hc, hrest⟩
    · exact ⟨.none, h⟩
  · exact ⟨.none, h⟩

/-- What the condition and the body of a comprehension are made of. -/
theorem conditionAndBody_meets (h : convert.Traces .expression) {rest : List n.Part}
    (hrest : ∀ p ∈ rest, p.node.Within n) :
    (conditionAndBody convert rest).Meets n fun r =>
      (∀ c ∈ View.ofExpression? r.1, n.Yields c) ∧ n.Yields (.expression r.2) := by
  obtain ⟨hcondition, hleft⟩ := splitCondition_within hrest
  unfold conditionAndBody
  generalize splitCondition rest = parts at *
  obtain ⟨condition, left⟩ := parts
  dsimp only at *
  refine (resolve?_meets h hcondition).bind fun condition hcondition => ?_
  cases left with
  -- A body that is missing is a fault at the comprehension.
  | nil => exact .fail (.refl n)
  | cons body extra =>
    have hbody := hleft body List.mem_cons_self
    dsimp only
    split
    · exact Meets.fail_bind hbody
    · cases extra with
      | nil => exact (resolve_meets h hbody).bind fun e he => .pure ⟨hcondition, he⟩
      -- What is left over is a fault where it stands.
      | cons extra _ => exact .fail (hleft extra (by simp))

theorem bodyLast_meets (h : convert.Traces .expression) :
    (bodyLast n convert).Meets n fun r => ∀ e, r = some e → n.Yields (.expression e) := by
  have hsignificant : ∀ p ∈ n.significant, p.node.Within n := fun _ => within_of_mem_significant
  unfold bodyLast
  dsimp only
  generalize hclause : n.significant.head?.filter (·.node.kind == .letClause) = clause
  have hfound : n.Finds clause := hclause ▸ finds_head?_significant.filter
  generalize hrest : (if clause.isSome then n.significant.tail else n.significant) = rest
  have hwithin : ∀ p ∈ rest, p.node.Within n := by
    subst hrest
    split
    · exact fun p hp => hsignificant p (List.mem_of_mem_tail hp)
    · exact hsignificant
  refine (leadingBindings_meets h hfound).bind fun lets hlets => ?_
  cases hloop : rest.head?.filter (·.node.kind == .forClause) with
  | none =>
    dsimp only
    split
    · exact .fail (.refl n)
    · exact .pure fun _ h => nomatch h
  | some loop =>
    have hin : loop.node.Within n := Finds.filter (.head? hwithin) loop hloop
    refine ((forClause_meets (h.inside hin)).mono hin).bind fun r hiterable => ?_
    refine (conditionAndBody_meets h fun p hp => hwithin p (List.mem_of_mem_tail hp)).bind ?_
    rintro ⟨condition, body⟩ ⟨hcondition, hbody⟩
    refine .pure fun e he => ?_
    obtain rfl := Option.some.inj he
    refine .of_parts rfl fun c hc => ?_
    -- The views are the bindings, the iterable, the condition and the body.
    simp only [View.ofParts, List.mem_append, List.mem_map, List.mem_singleton] at hc
    rcases hc with ((⟨b, hb, rfl⟩ | rfl) | hc) | rfl
    · exact hlets b hb
    · exact .within hin hiterable
    · exact hcondition c hc
    · exact hbody

theorem bodyFirst_meets (h : convert.Traces .expression) :
    (bodyFirst n convert).Meets n fun e => n.Yields (.expression e) := by
  unfold bodyFirst
  refine (Meets.requirePart ?_).bind fun loop hloop => ?_
  · exact (finds_field? _).or (finds_ofKind? _)
  refine (Meets.requirePart ?_).bind fun element helement => ?_
  · exact (finds_field? _).or (finds_find? _)
  refine ((forClause_meets (h.inside hloop)).mono hloop).bind fun r hiterable => ?_
  refine (resolve?_meets h (finds_field? _)).bind fun condition hcondition => ?_
  refine (resolve_meets h helement).bind fun body hbody => .pure (.of_parts rfl fun c hc => ?_)
  simp only [View.ofParts, List.mem_append, List.mem_singleton, List.map_nil,
    List.nil_append] at hc
  rcases hc with (rfl | hc) | rfl
  · exact .within hloop hiterable
  · exact hcondition c hc
  · exact hbody

theorem comprehension_meets (h : convert.Traces .expression) :
    (comprehension n convert).Meets n fun r => ∀ e, r = some e → n.Yields (.expression e) := by
  unfold comprehension
  refine (bodyLast_meets h).bind fun r hr => ?_
  cases r with
  | some e => exact .pure hr
  | none => exact .map_some (bodyFirst_meets h)

/-! ## §6 Operators -/

/-- A rung stands for what it holds. -/
theorem throughRung_meets (h : convert.Traces .expression) {labels : List String}
    {accepts : Expression → Bool} {p : n.Part} (hp : n.onlyChild? labels = some p) :
    (throughRung (convert p) accepts).Meets n fun r =>
      ∀ e, r = some e → n.Yields (.expression e) := by
  have hin := finds_onlyChild? labels p hp
  unfold throughRung
  refine ((h p hin).mono hin).bind fun r hr => .pure fun e he => ?_
  exact .within hin (hr e (Option.filter_eq_some_iff.mp he).1)

theorem binary_meets (h : convert.Traces .expression) :
    (binary n convert).Meets n fun r => ∀ e, r = some e → n.Yields (.expression e) := by
  unfold binary
  split
  · next hp => exact throughRung_meets h hp
  refine (Meets.requirePart ?_).bind fun left hleft => ?_
  · exact (finds_field? _).or finds_head?_significant
  refine (Meets.requirePart ?_).bind fun right hright => ?_
  · exact (finds_field? _).or (.ite finds_getLast?_significant .none)
  refine (Meets.requirePart ?_).bind fun token htoken => ?_
  · exact (finds_field? _).or (finds_token? _)
  refine (Meets.requireAny htoken).bind fun operator _ => ?_
  refine (resolve_meets h hleft).bind fun left hleft => ?_
  refine (resolve_meets h hright).bind fun right hright => .pure_some (.of_parts rfl ?_)
  simp only [View.ofParts, List.forall_mem_cons]
  exact ⟨hleft, hright, List.forall_mem_nil _⟩

theorem unary_meets (h : convert.Traces .expression) :
    (unary n convert).Meets n fun r => ∀ e, r = some e → n.Yields (.expression e) := by
  unfold unary
  split
  · next hp => exact throughRung_meets h hp
  refine (Meets.requirePart ?_).bind fun token htoken => ?_
  · exact (finds_field? _).or (finds_token? _)
  refine (Meets.requireAny htoken).bind fun operator _ => ?_
  refine (Meets.requirePart ?_).bind fun operand hoperand => ?_
  · exact (finds_field? _).or finds_getLast?_significant
  refine (resolve_meets h hoperand).bind fun operand hoperand => .pure_some (.of_parts rfl ?_)
  exact List.forall_mem_singleton.mpr hoperand

theorem conditional_meets (h : convert.Traces .expression) :
    (conditional n convert).Meets n fun r => ∀ e, r = some e → n.Yields (.expression e) := by
  have hpart (label : String) (i : Nat) : n.Finds ((n.field? label).or
      (if n.hasAnyField conditionalLabels then none else n.significant[i]?)) :=
    (finds_field? _).or (.ite .none (finds_getElem?_significant i))
  unfold conditional
  split
  · next hp => exact throughRung_meets h hp
  refine (Meets.require (.refl n) (hpart _ _)).bind fun condition hcondition => ?_
  refine (Meets.require (.refl n) (hpart _ _)).bind fun consequence hconsequence => ?_
  refine (Meets.require (.refl n) (hpart _ _)).bind fun alternative halternative => ?_
  refine (resolve_meets h hcondition).bind fun condition hcondition => ?_
  refine (resolve_meets h hconsequence).bind fun consequence hconsequence => ?_
  refine (resolve_meets h halternative).bind fun alternative halternative => ?_
  refine .pure_some (.of_parts rfl ?_)
  simp only [View.ofParts, List.forall_mem_cons]
  exact ⟨hcondition, hconsequence, halternative, List.forall_mem_nil _⟩

/-! ## §7 Calls and access -/

theorem finds_nameChild? : n.Finds (nameChild? n) :=
  finds_find? _

theorem call_meets (h : convert.Traces .expression) :
    (call n convert).Meets n fun r => ∀ e, r = some e → n.Yields (.expression e) := by
  unfold call
  refine (Meets.requirePart ?_).bind fun callee _ => ?_
  · exact ((finds_anyField? _).or finds_nameChild?).filter
  refine (argumentsOf_meets h ((finds_field? _).or (finds_ofKind? _))).bind fun as has => ?_
  exact .pure_some (.of_parts rfl (List.forall_mem_map.mpr has))

theorem finds_accessParts (first second : List String) :
    n.Finds (accessParts n first second).1 ∧ n.Finds (accessParts n first second).2 := by
  unfold accessParts
  split
  · exact ⟨finds_anyField? _, finds_anyField? _⟩
  · exact ⟨finds_getElem?_significant 0, finds_getElem?_significant 1⟩

theorem index_meets (h : convert.Traces .expression) :
    (index n convert).Meets n fun r => ∀ e, r = some e → n.Yields (.expression e) := by
  obtain ⟨hfirst, hsecond⟩ := finds_accessParts (n := n) ["array", "value"] ["index"]
  unfold index
  refine (Meets.require (.refl n) hfirst).bind fun array harray => ?_
  refine (Meets.require (.refl n) hsecond.filter).bind fun position hposition => ?_
  refine (resolve_meets h harray).bind fun array harray => ?_
  refine (resolve_meets h hposition).bind fun position hposition => .pure_some (.of_parts rfl ?_)
  simp only [View.ofParts, List.forall_mem_cons]
  exact ⟨harray, hposition, List.forall_mem_nil _⟩

theorem member_meets (h : convert.Traces .expression) :
    (member n convert).Meets n fun r => ∀ e, r = some e → n.Yields (.expression e) := by
  obtain ⟨hfirst, hsecond⟩ := finds_accessParts (n := n) ["object", "value"] ["property", "index"]
  unfold member
  refine (Meets.require (.refl n) hfirst).bind fun object hobject => ?_
  refine (Meets.require (.refl n) hsecond.filter).bind fun property _ => ?_
  refine (resolve_meets h hobject).bind fun object hobject => .pure_some (.of_parts rfl ?_)
  exact List.forall_mem_singleton.mpr hobject

/-! ## §8 Collections -/

theorem vector_meets (h : convert.Traces .expression) :
    (vector n convert).Meets n fun r => ∀ e, r = some e → n.Yields (.expression e) := by
  unfold vector
  refine (Meets.mapM_mem fun p hp => resolve_meets h (within_of_mem_significant hp)).bind
    fun es hes => ?_
  exact .pure_some (.of_parts rfl (List.forall_mem_map.mpr hes))

theorem rangeParts_meets (n : Node) :
    (rangeParts n).Meets n fun r => n.Finds r.1 ∧ n.Finds r.2.1 ∧ n.Finds r.2.2 := by
  have hpresent (label : String) : n.Finds ((n.field? label).filter (!·.node.isPlaceholder)) :=
    (finds_field? label).filter
  have hremaining : ∀ p ∈ n.significant.filter (!·.node.isPlaceholder), p.node.Within n :=
    fun p hp => within_of_mem_significant (List.mem_filter.mp hp).1
  unfold rangeParts
  split
  · exact .pure ⟨hpresent _, hpresent _, hpresent _⟩
  · generalize n.significant.filter (!·.node.isPlaceholder) = remaining at hremaining ⊢
    split
    · exact .pure ⟨.none, .none, .none⟩
    · exact .pure ⟨.some (hremaining _ (by simp)), .none, .none⟩
    · exact .pure ⟨.some (hremaining _ (by simp)), .none, .some (hremaining _ (by simp))⟩
    · exact .pure ⟨.some (hremaining _ (by simp)), .some (hremaining _ (by simp)),
        .some (hremaining _ (by simp))⟩
    · exact .fail (hremaining _ (by simp))

theorem range_meets (h : convert.Traces .expression) :
    (range n convert).Meets n fun e => n.Yields (.expression e) := by
  unfold range
  dsimp only
  split
  · exact Meets.fail_bind (.refl n)
  refine (rangeParts_meets n).bind fun parts hparts => ?_
  refine (Meets.require (.refl n) hparts.1).bind fun start hstart => ?_
  refine (Meets.require (.refl n) hparts.2.2).bind fun stop hstop => ?_
  refine (resolve_meets h hstart).bind fun start hstart => ?_
  refine (resolve?_meets h hparts.2.1).bind fun step hstep => ?_
  refine (resolve_meets h hstop).bind fun stop hstop => .pure (.of_parts rfl fun c hc => ?_)
  simp only [View.ofParts, List.mem_append, List.mem_singleton] at hc
  rcases hc with (rfl | hc) | rfl
  · exact hstart
  · exact hstep c hc
  · exact hstop

theorem letIn_meets (h : convert.Traces .expression) :
    (letIn n convert).Meets n fun r => ∀ e, r = some e → n.Yields (.expression e) := by
  unfold letIn
  refine (Meets.requirePart ?_).bind fun body hbody => ?_
  · exact (finds_field? _).or (finds_findLast? _)
  refine (bindings_meets n convert h).bind fun bound hbound => ?_
  refine (resolve_meets h hbody).bind fun body hbody => .pure_some (.of_parts rfl fun c hc => ?_)
  simp only [View.ofParts, List.mem_append, List.mem_map, List.mem_singleton] at hc
  rcases hc with ⟨b, hb, rfl⟩ | rfl
  · exact hbound b hb
  · exact hbody

/-! ## §9 Parentheses -/

/-- The first part that converts is one of the parts. -/
theorem firstConverted_meets (h : convert.Traces .expression) {parts : List n.Part}
    (hparts : ∀ p ∈ parts, p.node.Within n) :
    (firstConverted convert parts).Meets n fun r => ∀ e, r = some e → n.Yields (.expression e) := by
  induction parts with
  | nil => exact .pure_none
  | cons p rest ih =>
    obtain ⟨hp, hrest⟩ := List.forall_mem_cons.mp hparts
    rw [firstConverted]
    refine ((h p hp).mono hp).bind fun r hr => ?_
    cases r with
    | some e => exact .pure_some (.within hp (hr e rfl))
    | none => exact ih hrest

/-- What converts within the subtree yields there what it yields at its own place. -/
theorem convert_meets (h : convert.Traces .expression) {p : n.Part} (hp : p.node.Within n) :
    (convert p).Meets n fun r => ∀ e, r = some e → n.Yields (.expression e) :=
  ((h p hp).mono hp).imp fun _ hr e he => .within hp (hr e he)

theorem parenthesized_meets (h : convert.Traces .expression) :
    (parenthesized n convert).Meets n fun r => ∀ e, r = some e → n.Yields (.expression e) := by
  unfold parenthesized
  refine (Meets.requirePart ?_).bind fun inner hinner => ?_
  · exact (finds_field? _).or finds_head?_significant
  dsimp only
  split
  · exact convert_meets h hinner
  · have hcandidates : ∀ p ∈ (inner.node.significant.filter (!·.node.isPlaceholder)).map
        inner.within, p.node.Within n := by
      refine List.forall_mem_map.mpr fun p hp => Within.trans ?_ hinner
      exact within_of_mem_significant (List.mem_filter.mp hp).1
    refine (firstConverted_meets h hcandidates).bind fun r hr => ?_
    cases r with
    | some e => exact .pure hr
    | none =>
      refine (Meets.require (.refl n) (Q := fun p => p.node.Within n) ?_).bind fun p hp => ?_
      · exact fun p hp => (Finds.head? (fun _ => within_of_mem_parts) p hp).trans hinner
      · exact convert_meets h hp

/-! ## §10 The choice among them -/

theorem finds_rungChild? : n.Finds (rungChild? n) := by
  intro p h
  obtain ⟨labels, -, h⟩ := Option.bind_eq_some_iff.mp h
  exact finds_onlyChild? labels p h

theorem finds_wrappedChild? : n.Finds (wrappedChild? n) :=
  finds_head?_significant.or (.head? fun _ => within_of_mem_parts)

theorem literal_meets (n : Node) : (literal n).Meets n fun _ => True := by
  unfold literal
  split
  · exact .map (.ofExcept (fun _ _ => trivial) fun _ => numberOf_error)
  · exact .pure trivial
  · exact .pure trivial
  · exact .pure trivial
  · exact .fail (.refl n)

theorem expressionStep_meets (h : convert.Traces .expression) :
    (expressionStep n convert).Meets n fun r => ∀ e, r = some e → n.Yields (.expression e) := by
  have hleaf {e : Expression} (hspan : e.span = n.span) (hparts : View.ofParts e = []) :
      n.Yields (.expression e) := .of_parts hspan (by simp [hparts])
  unfold expressionStep
  split
  · next p hp => exact Meets.remark.bind fun _ _ => convert_meets h (finds_rungChild? p hp)
  split
  -- A wrapper.
  iterate 2
    · split
      · next p hp => exact convert_meets h (finds_wrappedChild? p hp)
      · exact .failBare (.refl n)
  -- A literal.
  iterate 4
    · exact (literal_meets n).bind fun _ _ => .pure_some (hleaf rfl rfl)
  -- A name.
  iterate 2
    · exact .pure_some (hleaf rfl rfl)
  · exact call_meets h
  · exact call_meets h
  · exact vector_meets h
  · exact index_meets h
  · exact member_meets h
  · exact .map_some (range_meets h)
  · exact letIn_meets h
  · exact comprehension_meets h
  · exact binary_meets h
  · exact unary_meets h
  · exact conditional_meets h
  · exact parenthesized_meets h
  · exact .fail (.refl n)
  · exact .fail (.refl n)
  · exact Meets.tell.bind fun _ _ => .pure_none

/-- Whatever a node stands for is made of its own syntax. -/
theorem expression_meets (n : Node) :
    (expression n).Meets n fun r => ∀ e, r = some e → n.Yields (.expression e) := by
  rw [expression_eq]
  exact expressionStep_meets fun p _ => expression_meets p.node
termination_by sizeOf n
decreasing_by exact p.inside

theorem expressions_traces (n : Node) : (expressions n).Traces .expression :=
  fun p _ => expression_meets p.node

end Scad.Convert
