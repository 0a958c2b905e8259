import Scad.Convert.Program
import Scad.Proofs.Provenance.Expression
import Scad.Proofs.Provenance.Predefined

/-!
# Where Statements Come From

The same for statements: every statement that a conversion makes of a node is made of the syntax of
that node.  A statement that fails inside another becomes a fault in its place, and that fault
points into the node that failed.
-/

namespace Scad.Convert

open Conversion Node

variable {n : Node} {convert : Converter n Statement}

/-! ## §1 Lists and bodies -/

/-- A settled statement is made of the syntax of its own node, be it a fault or not. -/
theorem orFault_meets {m : Node} {x : Conversion (Option Statement)}
    (h : x.Meets m fun r => ∀ s, r = some s → m.Yields (.ofStatement s)) :
    (orFault x).Meets n fun r => ∀ s, r = some s → m.Yields (.ofStatement s) := by
  unfold orFault
  refine h.settle.bind fun r hr => ?_
  cases r with
  | ok s => exact .pure (hr.1 s rfl)
  | error f => exact .pure_some (.of_fault (hr.2 f rfl))

/-- What stands for something answers for the parts of a sublist, one statement for each part. -/
theorem exists_sublist_filterMap {parts : List n.Part} {rs : List (Option Statement)}
    (h : List.Forall₂ (fun p r => ∀ s, r = some s → p.node.Yields (.ofStatement s)) parts rs) :
    ∃ ps, ps.Sublist parts ∧
      List.Forall₂ (fun p s => p.node.Yields (.ofStatement s)) ps (rs.filterMap id) := by
  induction h with
  | nil => exact ⟨[], .refl _, .nil⟩
  | @cons p r parts rs hr _ ih =>
    obtain ⟨ps, hps, hss⟩ := ih
    cases r with
    | none => exact ⟨ps, hps.cons p, by simpa using hss⟩
    | some s =>
      rw [List.filterMap_cons_some (by rfl)]
      exact ⟨p :: ps, hps.cons_cons p, .cons (hr s rfl) hss⟩

/-- Each statement of a list is made of a part, and the parts keep their order. -/
theorem statements_meets (h : convert.Traces .ofStatement) {parts : List n.Part}
    (hparts : ∀ p ∈ parts, p.node.Within n) :
    (statements convert parts).Meets n fun ss => ∃ ps, ps.Sublist parts ∧
      List.Forall₂ (fun p s => p.node.Yields (.ofStatement s)) ps ss := by
  unfold statements
  refine (Meets.mapM (S := fun p r => ∀ s, r = some s → p.node.Yields (.ofStatement s))
    fun p hp => orFault_meets (h p (hparts p hp))).bind fun rs hrs => .pure ?_
  -- Parts that stand for nothing are left out of both lists.
  exact exists_sublist_filterMap hrs

/-- For a body it is enough that each statement is made of the syntax of the whole. -/
theorem significantStatements_meets (h : convert.Traces .ofStatement) :
    (significantStatements n convert).Meets n fun ss => ∀ s ∈ ss, n.Yields (.ofStatement s) := by
  refine (statements_meets h fun _ => within_of_mem_significant).imp ?_
  rintro ss ⟨ps, hps, hss⟩ s hs
  obtain ⟨p, hp, hyields⟩ := Meets.exists_of_forall₂ hss s hs
  exact .within (within_of_mem_significant (hps.subset hp)) hyields

/-- The statements of a body are made of the syntax of the body, a block opened up or not. -/
theorem body_meets {whole : Conversion (Option Statement)} (h : convert.Traces .ofStatement)
    (hwhole : whole.Meets n fun r => ∀ s, r = some s → n.Yields (.ofStatement s)) :
    (body n whole convert).Meets n fun ss => ∀ s ∈ ss, n.Yields (.ofStatement s) := by
  unfold body
  split
  · exact significantStatements_meets h
  · refine (orFault_meets hwhole).bind fun r hr => ?_
    split
    -- A block is opened up, and its statements are parts of it.
    · exact .pure (List.forall_mem_map.mp (hr _ rfl).statementParts)
    · exact .pure (List.forall_mem_singleton.mpr (hr _ rfl))
    · exact .pure (List.forall_mem_nil _)

/-- A body is read where it stands, and told of the whole. -/
theorem partBody_meets (h : convert.Traces .ofStatement) {p : n.Part} (hp : p.node.Within n) :
    (partBody convert p).Meets n fun ss => ∀ s ∈ ss, n.Yields (.ofStatement s) :=
  ((body_meets (h.inside hp) (h p hp)).mono hp).imp fun _ hss s hs => .within hp (hss s hs)

theorem bodyOf_meets (h : convert.Traces .ofStatement) {x : Option n.Part} (hx : n.Finds x) :
    (bodyOf convert x).Meets n fun ss => ∀ s ∈ ss, n.Yields (.ofStatement s) := by
  cases x with
  | none => exact .pure (List.forall_mem_nil _)
  | some p => exact partBody_meets h (hx p rfl)

/-- A statement behind a call is made of the syntax of the call. -/
theorem singleBody_meets (h : convert.Traces .ofStatement) {x : Option n.Part} (hx : n.Finds x) :
    (singleBody convert x).Meets n fun r => ∀ c ∈ View.ofStatement? r, n.Yields c := by
  cases x with
  | none => exact .pure (List.forall_mem_nil _)
  | some p =>
    have hp := hx p rfl
    refine (orFault_meets (h p hp)).imp fun r hr => ?_
    cases r with
    | none => exact List.forall_mem_nil _
    | some s => exact List.forall_mem_singleton.mpr (.within hp (hr s rfl))

/-! ## §2 The parts of a call -/

theorem finds_callee? : n.Finds (callee? n) :=
  ((finds_anyField? _).or (finds_ofKind? _)).filter

theorem finds_argumentList? : n.Finds (argumentList? n) :=
  (finds_field? _).or (finds_ofKind? _)

theorem finds_statementAfter? (offset : Nat) : n.Finds (statementAfter? n offset) :=
  finds_find? _

/-- The statement behind a call is in the subtree of the call. -/
theorem finds_trailing? (labels : List String) : n.Finds (trailing? n labels) := by
  unfold trailing?
  split
  · next hp => exact .some (finds_anyField? _ _ hp)
  · exact finds_statementAfter? _

theorem callChildren_meets (h : convert.Traces .ofStatement) :
    (callChildren n convert).Meets n fun ss => ∀ s ∈ ss, n.Yields (.ofStatement s) :=
  bodyOf_meets h (finds_trailing? _)

/-- The arguments of a call. -/
theorem callArguments_meets (n : Node) :
    (argumentsOf (expressions n) (argumentList? n)).Meets n
      fun as => ∀ a ∈ as, n.Yields (.argument a) :=
  argumentsOf_meets (expressions_traces n) finds_argumentList?

/-! ## §3 Calls -/

/-- Remarks make nothing. -/
theorem remarkIgnored_meets (name : String) (args : List Argument) :
    (remarkIgnored n name args).Meets n fun _ => True := by
  unfold remarkIgnored
  induction ignored name args with
  | nil => exact .pure trivial
  | cons argument rest ih => exact Meets.remark.bind fun _ _ => ih

/-- The name of a call stands where the name is written, or else where the call stands. -/
theorem exists_nameSpan (n : Node) :
    ∃ m : Node, m.Within n ∧ ((callee? n).map fun p => p.node.span).getD n.span = m.span := by
  cases hcallee : callee? n with
  | none => exact ⟨n, .refl n, rfl⟩
  | some p => exact ⟨p.node, finds_callee? p hcallee, rfl⟩

/-- A call makes a statement with the span of its node, of arguments that are made of the same
syntax. -/
theorem predefinedCall_meets (h : convert.Traces .ofStatement) {name : String}
    {args : List Argument} (hargs : ∀ a ∈ args, n.Yields (.argument a)) :
    (predefinedCall n convert name args).Meets n fun s => n.Yields (.ofStatement s) := by
  unfold predefinedCall
  split
  -- A shape.
  · next shape hshape =>
    have hspecials : ∀ a ∈ args.filter isSpecial, n.Yields (.argument a) :=
      fun a ha => hargs a (List.mem_filter.mp ha).1
    have hmade : n.Yields (.ofStatement (.primitive shape (args.filter isSpecial) n.span)) :=
      .of_unnamedParts rfl rfl (List.forall_mem_append.mpr
        ⟨yields_primitive hargs hshape, List.forall_mem_map.mpr hspecials⟩)
    have hignored := remarkIgnored_meets (n := n) name args
    dsimp only
    split
    · exact Meets.remark.bind fun _ _ => hignored.bind fun _ _ => .pure hmade
    · exact hignored.bind fun _ _ => .pure hmade
  split
  -- A transform.
  · next htransform =>
    refine (remarkIgnored_meets name args).bind fun _ _ => ?_
    refine (callChildren_meets h).bind fun ss hss => .pure ?_
    refine .of_unnamedParts rfl rfl (List.forall_mem_append.mpr ?_)
    exact ⟨yields_transform hargs htransform, List.forall_mem_map.mpr hss⟩
  split
  -- An operation.
  · refine (callChildren_meets h).bind fun ss hss => .pure ?_
    exact .of_unnamedParts rfl rfl (List.forall_mem_map.mpr hss)
  dsimp only
  split
  -- An `echo`, with the statement behind it.
  · refine (singleBody_meets h (finds_trailing? _)).bind fun r hr => .pure ?_
    refine .of_unnamedParts rfl rfl (List.forall_mem_append.mpr ?_)
    exact ⟨List.forall_mem_map.mpr hargs, hr⟩
  -- A module of the program.
  · refine (callChildren_meets h).bind fun ss hss => .pure ?_
    refine .of_statementParts rfl (fun s hs => ?_) (List.forall_mem_append.mpr ?_)
    · obtain rfl := Option.some.inj hs
      exact exists_nameSpan n
    · exact ⟨List.forall_mem_map.mpr hargs, List.forall_mem_map.mpr hss⟩

/-- A call outside the full dialect keeps no span of its name, and stands for it itself. -/
theorem plainCall_meets (h : convert.Traces .ofStatement) {name : String} {args : List Argument}
    (hargs : ∀ a ∈ args, n.Yields (.argument a)) :
    (plainCall n convert name args).Meets n fun s => n.Yields (.ofStatement s) := by
  unfold plainCall
  refine Meets.tell.bind fun _ _ => (callChildren_meets h).bind fun ss hss => .pure ?_
  refine .of_statementParts rfl (fun s hs => ?_) (List.forall_mem_append.mpr ?_)
  · obtain rfl := Option.some.inj hs
    -- The name stands where the call stands.
    exact ⟨n, .refl n, rfl⟩
  · exact ⟨List.forall_mem_map.mpr hargs, List.forall_mem_map.mpr hss⟩

/-- A call without a name makes nothing. -/
theorem callStatement_meets (d : Dialect) (h : convert.Traces .ofStatement) :
    (callStatement d n convert).Meets n fun r => ∀ s, r = some s → n.Yields (.ofStatement s) := by
  unfold callStatement
  split
  · exact Meets.remark.bind fun _ _ => .pure_none
  · refine (callArguments_meets n).bind fun args hargs => ?_
    cases d with
    | complete => exact .map_some (predefinedCall_meets h hargs)
    | calls => exact .map_some (plainCall_meets h hargs)

/-! ## §4 Assignments -/

theorem binding_meets_expressions (n : Node) :
    (binding n (expressions n)).Meets n fun b => b.span = n.span ∧ n.Yields (.binding b) :=
  binding_meets (expressions_traces n)

/-- An assignment is made of its own node, or of the assignment inside it. -/
theorem assignmentStatement_meets (n : Node) :
    (assignmentStatement n).Meets n fun r => ∀ s, r = some s → n.Yields (.ofStatement s) := by
  have hmade {m : Node} {b : Binding} (h : b.span = m.span ∧ m.Yields (.binding b)) :
      m.Yields (.ofStatement (.assignment b)) :=
    .of_unnamedParts h.1 rfl (List.forall_mem_singleton.mpr h.2)
  have hown := (binding_meets_expressions n).imp fun _ => hmade
  unfold assignmentStatement
  split
  · exact hown.bind fun _ hb => .pure_some hb
  · split
    -- The node inside is converted where it stands, and is in the subtree.
    · next inner hinner =>
      have hin := finds_ofKind? _ inner hinner
      refine ((binding_meets_expressions inner.node).mono hin).bind fun b hb => ?_
      exact .pure_some (.within hin (hmade hb))
    · exact hown.bind fun _ hb => .pure_some hb

/-- What an `assign` makes of a child is made of the syntax of the child. -/
theorem assignBinding_meets (n : Node) :
    (assignBinding n).Meets n fun bs => ∀ b ∈ bs, n.Yields (.binding b) := by
  have hbinding : (do return [← binding n (expressions n)] : Conversion (List Binding)).Meets n
      fun bs => ∀ b ∈ bs, n.Yields (.binding b) :=
    (binding_meets_expressions n).bind fun b hb => .pure (List.forall_mem_singleton.mpr hb.2)
  unfold assignBinding
  split
  -- The three kinds of entries, which need a labelled name.
  iterate 3
    · dsimp only
      split
      · exact Meets.fail_bind (.refl n)
      · exact hbinding
  · split
    · exact .fail (.refl n)
    · exact .pure (List.forall_mem_nil _)

theorem assignStatement_meets (h : convert.Traces .ofStatement) :
    (assignStatement n convert).Meets n fun r =>
      ∀ s, r = some s → n.Yields (.ofStatement s) := by
  have hargs : ∀ p ∈ ((argumentList? n).map fun p => p.node.significant.map p.within).getD [],
      p.node.Within n := by
    cases hlist : argumentList? n with
    | none => exact List.forall_mem_nil _
    | some list =>
      refine List.forall_mem_map.mpr fun p hp => ?_
      exact (within_of_mem_significant hp).trans (finds_argumentList? list hlist)
  unfold assignStatement
  refine Meets.remark.bind fun _ _ => ?_
  dsimp only
  refine (Meets.mapM_mem (R := fun bs => ∀ b ∈ bs, n.Yields (.binding b)) fun p hp => ?_).bind
    fun groups hgroups => ?_
  · have hin := hargs p hp
    exact ((assignBinding_meets p.node).mono hin).imp fun bs hbs b hb => .within hin (hbs b hb)
  refine (singleBody_meets h ((finds_anyField? _).or (finds_statementAfter? _))).bind
    fun r hr => .pure_some ?_
  refine .of_unnamedParts rfl rfl (List.forall_mem_append.mpr ⟨?_, hr⟩)
  refine List.forall_mem_map.mpr fun b hb => ?_
  -- A binding comes from one of the groups, one group for each argument.
  obtain ⟨bs, hbs, hb⟩ := List.mem_flatten.mp hb
  exact hgroups bs hbs b hb

/-! ## §5 Assertions -/

theorem finds_assertValue? : n.Finds (assertValue? n) :=
  (finds_field? _).or (finds_findLast? _)

theorem finds_argumentValue? {p : n.Part} (hp : p.node.Within n) : n.Finds (argumentValue? p) := by
  unfold argumentValue?
  split
  iterate 3
    · intro q hq
      obtain ⟨r, hr, rfl⟩ := Option.map_eq_some_iff.mp hq
      exact (finds_assertValue? r hr).trans hp
  · exact .ite (.some hp) .none

/-- The condition and the message are values of arguments, by name or by number. -/
theorem finds_assertArguments {list : n.Part} (hlist : list.node.Within n) :
    n.Finds (assertArguments list).1 ∧ n.Finds (assertArguments list).2 := by
  have hargs : ∀ p ∈ list.node.significant.map list.within, p.node.Within n :=
    List.forall_mem_map.mpr fun p hp => (within_of_mem_significant hp).trans hlist
  have hnamed {accepts : n.Part → Bool} : n.Finds
      ((((list.node.significant.map list.within).filter accepts).getLast?).bind
        argumentValue?) := by
    intro q hq
    obtain ⟨p, hp, hq⟩ := Option.bind_eq_some_iff.mp hq
    exact finds_argumentValue? (hargs p (List.mem_filter.mp (List.mem_of_getLast? hp)).1) q hq
  have hunnamed {accepts : n.Part → Bool} : ∀ p ∈
      ((list.node.significant.map list.within).filter accepts).filterMap argumentValue?,
      p.node.Within n := by
    intro q hq
    obtain ⟨p, hp, hq⟩ := List.mem_filterMap.mp hq
    exact finds_argumentValue? (hargs p (List.mem_filter.mp hp).1) q hq
  exact ⟨hnamed.or (.getElem? hunnamed), hnamed.or (.getElem? hunnamed)⟩

/-- Without a list they are children of the node. -/
theorem finds_assertChildren (n : Node) :
    n.Finds (assertChildren n).1 ∧ n.Finds (assertChildren n).2 := by
  unfold assertChildren
  dsimp only
  refine ⟨finds_find? _, fun p hp => ?_⟩
  obtain ⟨comma, -, hp⟩ := Option.bind_eq_some_iff.mp hp
  exact finds_find? _ p hp

/-- However an assertion is written, its parts are in its subtree. -/
theorem finds_assertParts (n : Node) :
    n.Finds (assertParts n).1 ∧ n.Finds (assertParts n).2 := by
  unfold assertParts
  split
  · next hcondition => exact ⟨.some (finds_field? _ _ hcondition), finds_field? _⟩
  · split
    · next hlist => exact finds_assertArguments (finds_argumentList? _ hlist)
    · exact finds_assertChildren n

/-- An assertion without a condition makes nothing. -/
theorem assertStatement_meets (h : convert.Traces .ofStatement) :
    (assertStatement n convert).Meets n fun r =>
      ∀ s, r = some s → n.Yields (.ofStatement s) := by
  obtain ⟨hcondition, hmessage⟩ := finds_assertParts n
  unfold assertStatement
  generalize assertParts n = parts at *
  obtain ⟨condition, message⟩ := parts
  cases condition with
  | none => exact Meets.remark.bind fun _ _ => .pure_none
  | some condition =>
    refine (resolve_meets (expressions_traces n) (hcondition _ rfl)).bind fun e he => ?_
    refine (resolve?_meets (expressions_traces n) hmessage).bind fun text htext => ?_
    refine (singleBody_meets h (finds_trailing? _)).bind fun r hr => .pure_some ?_
    refine .of_unnamedParts rfl rfl fun c hc => ?_
    -- Its views are the condition, the message and the statement behind it.
    simp only [View.ofStatementParts, List.mem_append, List.mem_singleton] at hc
    rcases hc with (rfl | hc) | hc
    · exact he
    · exact htext c hc
    · exact hr c hc

/-! ## §6 Definitions -/

theorem definitionName_meets (n : Node) (what : String) :
    (definitionName n what).Meets n fun p => p.node.Within n :=
  .require (.refl n) ((finds_field? _).or (finds_ofKind? _)).filter

theorem finds_parameterList? : n.Finds (parameterList? n) :=
  (finds_field? _).or (finds_ofKind? _)

/-- A parameter is read from its own node, or from an assignment inside it. -/
theorem within_parameterTarget (n : Node) : (parameterTarget n).Within n := by
  unfold parameterTarget
  split
  · next inner hinner => exact (finds_ofKind? _).filter inner hinner
  · exact .refl n

/-- A parameter has the span of its node, whichever node it is read from. -/
theorem declaration_meets (n : Node) :
    (declaration n).Meets n fun d => n.Yields (.declaration d) := by
  unfold declaration
  split
  · exact .pure (.of_unnamed rfl rfl (List.forall_mem_nil _))
  dsimp only
  have hin := within_parameterTarget n
  refine (Meets.requireAny (.refl n)).bind fun name _ => ?_
  -- The default value stands behind the name where it has no label.
  have hdefault : (parameterTarget n).Finds
      (((parameterTarget n).anyField? ["default", "value"]).or
        ((parameterTarget n).findLast? fun c => name.node.stopByte ≤ c.startByte)) :=
    (finds_anyField? _).or (finds_findLast? _)
  refine ((resolve?_meets (expressions_traces _) hdefault).mono hin).bind fun e he => .pure ?_
  exact .of_unnamed rfl rfl fun c hc => .within hin (he c hc)

theorem declarations_meets (n : Node) :
    (declarations n).Meets n fun ds => ∀ d ∈ ds, n.Yields (.declaration d) := by
  unfold declarations
  split
  · next list hlist =>
    refine .mapM_mem fun p hp => ?_
    have hin := (within_of_mem_significant (List.mem_filter.mp hp).1).trans
      (finds_parameterList? list hlist)
    exact ((declaration_meets p.node).mono hin).imp fun d hd => .within hin hd
  · exact .pure (List.forall_mem_nil _)

/-- A definition is named by a node in its subtree. -/
theorem moduleDefinition_meets (h : convert.Traces .ofStatement) :
    (moduleDefinition n convert).Meets n fun r =>
      ∀ s, r = some s → n.Yields (.ofStatement s) := by
  unfold moduleDefinition
  refine (definitionName_meets n _).bind fun name hname => ?_
  refine (declarations_meets n).bind fun ds hds => ?_
  refine (bodyOf_meets h ((finds_field? _).or (finds_findLast? _))).bind
    fun ss hss => .pure_some ?_
  refine .of_statementParts rfl (fun s hs => ?_) (List.forall_mem_append.mpr ?_)
  · obtain rfl := Option.some.inj hs
    exact ⟨name.node, hname, rfl⟩
  · exact ⟨List.forall_mem_map.mpr hds, List.forall_mem_map.mpr hss⟩

theorem functionDefinition_meets (n : Node) :
    (functionDefinition n).Meets n fun r => ∀ s, r = some s → n.Yields (.ofStatement s) := by
  unfold functionDefinition
  refine (definitionName_meets n _).bind fun name hname => ?_
  refine (declarations_meets n).bind fun ds hds => ?_
  dsimp only
  refine (Meets.requirePart ?_).bind fun body hbody => ?_
  · exact ((finds_anyField? _).or (finds_findLast? _)).filter
  refine (resolve_meets (expressions_traces n) hbody).bind fun e he => .pure_some ?_
  refine .of_statementParts rfl (fun s hs => ?_) (List.forall_mem_append.mpr ?_)
  · obtain rfl := Option.some.inj hs
    exact ⟨name.node, hname, rfl⟩
  · exact ⟨List.forall_mem_map.mpr hds, List.forall_mem_singleton.mpr he⟩

/-! ## §7 Control flow -/

theorem blockStatement_meets (h : convert.Traces .ofStatement) :
    (blockStatement n convert).Meets n fun r =>
      ∀ s, r = some s → n.Yields (.ofStatement s) := by
  unfold blockStatement
  refine (significantStatements_meets h).bind fun ss hss => .pure_some ?_
  exact .of_unnamedParts rfl rfl (List.forall_mem_map.mpr hss)

theorem ifStatement_meets (h : convert.Traces .ofStatement) :
    (ifStatement n convert).Meets n fun r => ∀ s, r = some s → n.Yields (.ofStatement s) := by
  unfold ifStatement
  dsimp only
  refine (Meets.requirePart ?_).bind fun condition hcondition => ?_
  · exact ((finds_field? _).or (finds_find? _)).filter
  refine (resolve_meets (expressions_traces n) hcondition).bind fun e he => ?_
  refine (bodyOf_meets h ((finds_field? _).or (finds_find? _))).bind fun ss hss => ?_
  -- Its views are the condition and both lists of statements.
  have hmade (alternative : Option (List Statement))
      (halternative : ∀ s ∈ alternative.getD [], n.Yields (.ofStatement s)) :
      n.Yields (.ofStatement (.branch e ss alternative n.span)) := by
    refine .of_unnamedParts rfl rfl fun c hc => ?_
    simp only [View.ofStatementParts, List.mem_append, List.mem_singleton, List.mem_map] at hc
    rcases hc with (rfl | ⟨s, hs, rfl⟩) | ⟨s, hs, rfl⟩
    · exact he
    · exact hss s hs
    · exact halternative s hs
  split
  · next p hp =>
    -- The alternative is labelled, or stands behind the keyword.
    have hin : p.node.Within n := by
      refine Finds.or (finds_field? _) (fun q hq => ?_) p hp
      obtain ⟨stop, -, hq⟩ := Option.bind_eq_some_iff.mp hq
      exact finds_statementAfter? stop q hq
    refine (Meets.map (R := fun r => ∀ s ∈ r.getD [], n.Yields (.ofStatement s))
      (partBody_meets h hin)).bind fun alternative halternative => ?_
    exact .pure_some (hmade alternative halternative)
  · exact Meets.pure_some (hmade none (List.forall_mem_nil _))

/-- A loop with labels makes one binding, from its variable to the end of its range. -/
theorem loopBindings_meets (n : Node) :
    (loopBindings n).Meets n fun bs => ∀ b ∈ bs, n.Yields (.binding b) := by
  unfold loopBindings
  split
  · next iterator range hiterator hrange =>
    have hin := finds_field? _ range hrange
    refine ((resolve_meets_part (expressions_traces n) hin).mono hin).bind fun e he => .pure ?_
    exact List.forall_mem_singleton.mpr (.loop (finds_field? _ iterator hiterator) hin he)
  · next range _ hrange => exact .fail (finds_field? _ range hrange)
  · next iterator hiterator _ => exact .fail (finds_field? _ iterator hiterator)
  · exact bindings_meets n _ (expressions_traces n)

theorem forStatement_meets (h : convert.Traces .ofStatement) :
    (forStatement n convert).Meets n fun r => ∀ s, r = some s → n.Yields (.ofStatement s) := by
  unfold forStatement
  refine (loopBindings_meets n).bind fun bs hbs => ?_
  refine (Meets.requireAny (.refl n)).bind fun last _ => ?_
  refine (bodyOf_meets h ((finds_field? _).or (finds_statementAfter? _))).bind
    fun ss hss => .pure_some ?_
  refine .of_unnamedParts rfl rfl (List.forall_mem_append.mpr ?_)
  exact ⟨List.forall_mem_map.mpr hbs, List.forall_mem_map.mpr hss⟩

theorem letStatement_meets (h : convert.Traces .ofStatement) :
    (letStatement n convert).Meets n fun r => ∀ s, r = some s → n.Yields (.ofStatement s) := by
  unfold letStatement
  refine (bindings_meets n _ (expressions_traces n)).bind fun bs hbs => ?_
  refine (bodyOf_meets h ((finds_field? _).or (finds_statementAfter? _))).bind
    fun ss hss => .pure_some ?_
  refine .of_unnamedParts rfl rfl (List.forall_mem_append.mpr ?_)
  exact ⟨List.forall_mem_map.mpr hbs, List.forall_mem_map.mpr hss⟩

theorem echoStatement_meets (h : convert.Traces .ofStatement) :
    (echoStatement n convert).Meets n fun r => ∀ s, r = some s → n.Yields (.ofStatement s) := by
  unfold echoStatement
  refine (callArguments_meets n).bind fun args hargs => ?_
  refine (singleBody_meets h (finds_trailing? _)).bind fun r hr => .pure_some ?_
  refine .of_unnamedParts rfl rfl (List.forall_mem_append.mpr ?_)
  exact ⟨List.forall_mem_map.mpr hargs, hr⟩

theorem inclusionStatement_meets (n : Node) :
    (inclusionStatement n).Meets n fun r => ∀ s, r = some s → n.Yields (.ofStatement s) := by
  unfold inclusionStatement
  refine (Meets.requireAny (.refl n)).bind fun path _ => ?_
  exact .pure_some (.of_unnamedParts rfl rfl (List.forall_mem_nil _))

/-! ## §8 Modifiers -/

/-- A modifier in front of a statement reaches as far as the statement; a modifier that reaches
further does so because it holds the statement, or because the statement is empty. -/
theorem applyModifier_meets (h : convert.Traces .ofStatement) {modifier : Node}
    (hmodifier : modifier.Within n) {target : Option n.Part} (htarget : n.Finds target)
    (hplace : modifier = n ∨ ∀ p, target = some p → [modifier, p.node].Sublist n.named) :
    (applyModifier convert modifier target).Meets n fun r =>
      ∀ s, r = some s → n.Yields (.ofStatement s) := by
  unfold applyModifier
  split
  · exact Meets.remark.bind fun _ _ => .pure_none
  · next kind _ =>
    cases target with
    | none => exact .pure_none
    | some p =>
      have hin := htarget p rfl
      refine (orFault_meets (h p hin)).bind fun r hr => .pure fun s hs => ?_
      obtain ⟨child, rfl, rfl⟩ := Option.map_eq_some_iff.mp hs
      have hchild := hr child rfl
      -- The span depends on whether the statement stops behind the modifier.
      split
      · exact .modified hmodifier hin hchild
      · next hstop =>
        obtain rfl | hlist := hplace
        · exact .of_unnamedParts rfl rfl
            (List.forall_mem_singleton.mpr (.within hin hchild))
        · exact .beside (hlist p rfl) (Nat.le_of_not_lt hstop) hchild

theorem modifierStatement_meets (h : convert.Traces .ofStatement) :
    (modifierStatement n convert).Meets n fun r =>
      ∀ s, r = some s → n.Yields (.ofStatement s) :=
  -- The modifier is the node itself, so it holds the statement.
  applyModifier_meets h (.refl n) ((finds_anyField? _).or (finds_findLast? _)) (.inl rfl)

/-! ## §9 Wrappers -/

/-- A statement of a part is made of the syntax of the whole. -/
theorem convertStatement_meets (h : convert.Traces .ofStatement) {p : n.Part}
    (hp : p.node.Within n) :
    (convert p).Meets n fun r => ∀ s, r = some s → n.Yields (.ofStatement s) :=
  ((h p hp).mono hp).imp fun _ hr s hs => .within hp (hr s hs)

theorem expressionNode_meets (n : Node) :
    (expressionNode n).Meets n fun r => ∀ s, r = some s → n.Yields (.ofStatement s) := by
  unfold expressionNode
  refine (expression_meets n).bind fun r hr => .pure fun s hs => ?_
  obtain ⟨e, he, rfl⟩ := Option.map_eq_some_iff.mp hs
  exact (hr e he).toStatement

theorem expressionStatement_meets (h : convert.Traces .ofStatement) :
    (expressionStatement n convert).Meets n fun r =>
      ∀ s, r = some s → n.Yields (.ofStatement s) := by
  unfold expressionStatement
  split
  · exact .pure_none
  · next inner hinner =>
    have hin := finds_head?_significant inner hinner
    split
    iterate 3
      · exact convertStatement_meets h hin
    · refine ((expressionNode_meets inner.node).mono hin).imp fun r hr s hs => ?_
      exact .within hin (hr s hs)

/-- The call that a wrapper stands for is found at any depth below it. -/
theorem plainWrapper_meets (h : convert.Traces .ofStatement) :
    (plainWrapper n convert).Meets n fun r => ∀ s, r = some s → n.Yields (.ofStatement s) := by
  unfold plainWrapper
  split
  · next hinner =>
    exact convertStatement_meets h (within_of_mem_parts (List.mem_of_find?_eq_some hinner))
  · split
    · next hcall =>
      refine convertStatement_meets h (Finds.or ?_ ?_ _ hcall)
      · exact finds_descendant? n _
      · exact finds_descendant? n _
    · exact .pure_none

/-- The statement behind a modifier is listed behind it. -/
theorem siblingModifier?_sublist {modifier : n.Part} {target : Option n.Part}
    (h : siblingModifier? n = some (modifier, target)) :
    modifier.node.Within n ∧ n.Finds target ∧
      ∀ p, target = some p → [modifier.node, p.node].Sublist n.named := by
  unfold siblingModifier? at h
  split at h
  · next rest hsignificant =>
    split at h
    · cases h
      have hmem : ∀ p ∈ modifier :: rest, p.node.Within n :=
        fun p hp => within_of_mem_significant (hsignificant ▸ hp)
      refine ⟨hmem modifier List.mem_cons_self, fun p hp => ?_, fun p hp => ?_⟩
      · exact hmem p (List.mem_cons_of_mem _ (List.mem_of_find?_eq_some hp))
      · have hrest : [p].Sublist rest :=
          List.singleton_sublist.mpr (List.mem_of_find?_eq_some hp)
        have hpair : [modifier, p].Sublist n.significant :=
          hsignificant ▸ hrest.cons_cons modifier
        have hnamed : (n.significant.map Part.node).Sublist n.named := by
          rw [n.map_node_significant]
          exact List.filter_sublist
        exact (hpair.map Part.node).trans hnamed
    · cases h
  · cases h

theorem statementWrapper_meets (h : convert.Traces .ofStatement) :
    (statementWrapper n convert).Meets n fun r =>
      ∀ s, r = some s → n.Yields (.ofStatement s) := by
  unfold statementWrapper
  split
  -- A modifier beside the statement is listed in front of it.
  · next hsibling =>
    obtain ⟨hmodifier, htarget, hlist⟩ := siblingModifier?_sublist hsibling
    exact applyModifier_meets h hmodifier htarget (.inr hlist)
  · split
    · next hinner => exact convertStatement_meets h (finds_find? _ _ hinner)
    · exact plainWrapper_meets h

/-! ## §10 The choice among them -/

theorem moduleCall_meets (h : convert.Traces .ofStatement) :
    (moduleCall n convert).Meets n fun r => ∀ s, r = some s → n.Yields (.ofStatement s) := by
  unfold moduleCall
  split
  · exact assignStatement_meets h
  · exact assertStatement_meets h
  · exact callStatement_meets _ h

theorem commonStep_meets (d : Dialect) (h : convert.Traces .ofStatement) :
    (commonStep d n convert).Meets n fun r => ∀ s, r = some s → n.Yields (.ofStatement s) := by
  unfold commonStep
  split
  · exact moduleCall_meets h
  iterate 3
    · exact callStatement_meets _ h
  · exact statementWrapper_meets h
  · exact plainWrapper_meets h
  · exact expressionStatement_meets h
  iterate 3
    · exact expressionNode_meets n
  · exact moduleDefinition_meets h
  · exact functionDefinition_meets n
  · exact ifStatement_meets h
  · exact forStatement_meets h
  · exact assignmentStatement_meets n
  · exact blockStatement_meets h
  · exact .pure_none

theorem statementStep_meets (d : Dialect) (h : convert.Traces .ofStatement) :
    (statementStep d n convert).Meets n fun r => ∀ s, r = some s → n.Yields (.ofStatement s) := by
  unfold statementStep
  split
  · exact assignStatement_meets h
  · exact assertStatement_meets h
  · exact echoStatement_meets h
  iterate 2
    · exact inclusionStatement_meets n
  · exact letStatement_meets h
  · exact modifierStatement_meets h
  · exact commonStep_meets _ h

/-- Whatever a node stands for is made of its own syntax. -/
theorem statement_meets (d : Dialect) (n : Node) :
    (statement d n).Meets n fun r => ∀ s, r = some s → n.Yields (.ofStatement s) := by
  rw [statement_eq]
  exact statementStep_meets d fun p _ => statement_meets d p.node
termination_by sizeOf n
decreasing_by exact p.inside

theorem inner_traces (d : Dialect) (n : Node) : (inner d n).Traces .ofStatement :=
  fun p _ => statement_meets d p.node

/-! ## §11 Programs -/

/-- The statements of a program are made of the root alone, or of nodes that the root lists, one for
each statement and in the same order. -/
theorem rootStatements_meets (root : Node) :
    (rootStatements root).Meets root fun ss => ∃ ms : List Node,
      (ms.Sublist [root] ∨ ms.Sublist root.named) ∧
        List.Forall₂ (fun m s => m.Yields (.ofStatement s)) ms ss := by
  unfold rootStatements
  split
  -- A root that is a program lists its statements; any other root is one itself.
  · refine (statements_meets (inner_traces _ root) fun _ => within_of_mem_significant).imp ?_
    rintro ss ⟨ps, hps, hss⟩
    refine ⟨ps.map Part.node, .inr ?_, List.forall₂_map_left_iff.mpr hss⟩
    have hnamed := hps.map Part.node
    rw [root.map_node_significant] at hnamed
    exact hnamed.trans List.filter_sublist
  · refine (orFault_meets (statement_meets .complete root)).bind fun r hr => .pure ?_
    cases r with
    | none => exact ⟨[], .inl (List.nil_sublist _), .nil⟩
    | some s => exact ⟨[root], .inl (.refl _), .cons (hr s rfl) .nil⟩

end Scad.Convert
