import Scad.Proofs.Agreement.Expression
import Scad.Proofs.Agreement.Predefined

/-!
# Statements of Corresponding Nodes

Corresponding nodes are converted to the same statement, up to where it stands and to the words of
the faults in it.  There is one lemma for each construct; all of them assume the same of the
conversions of the statements inside, and `statement_corresponds` ties the knot as `statement` does.
-/

namespace Scad

namespace Correspondence

variable (C : Correspondence)

/-- The statements tell the same, the second one as far away as the trees are. -/
def SameStatement (s s' : Statement) : Prop :=
  s.retell C.shift C.reword = s'.retell {} C.reword

/-- The second parameter is the first one moved. -/
def SameDeclaration (p p' : Declaration) : Prop :=
  p' = p.shift C.shift

variable {C} {α β γ : Type}

theorem map_eq_of_forall₂ {f : α → γ} {g : β → γ} {l : List α} {l' : List β}
    (h : List.Forall₂ (fun a b => f a = g b) l l') : l.map f = l'.map g := by
  rw [← List.forall₂_eq_eq_eq, List.forall₂_map_left_iff, List.forall₂_map_right_iff]
  exact h

theorem map_eq_of_rel {f : α → γ} {g : β → γ} {x : Option α} {y : Option β}
    (h : Option.Rel (fun a b => f a = g b) x y) : x.map f = y.map g :=
  h.map_eq fun _ _ => id

end Correspondence

/-- What a statement holds as a body: a block is opened up. -/
def Statement.opened : Statement → List Statement
  | .block inner _ => inner
  | s => [s]

/-- Opening a block and telling it in other words do not disturb each other. -/
theorem Statement.map_retell_opened {d : Shift} {reword : String → String} (s : Statement) :
    (s.retell d reword).opened = s.opened.map (Statement.retell d reword) := by
  cases s with
  | block statements s => simp [opened, retell]
  | _ => rfl

namespace Convert

open Conversion Correspondence

variable {C : Correspondence} {n n' : Node} {convert : Converter n Statement}
  {convert' : Converter n' Statement}

/-! ## §1 Lists and bodies -/

/-- What fails in one tree fails in the other, so both settle for a fault or neither does. -/
theorem orFault_corresponds {x y : Conversion (Option Statement)}
    (h : C.Agree (Option.Rel C.SameStatement) x y) :
    C.Agree (Option.Rel C.SameStatement) (orFault x) (orFault y) := by
  unfold orFault
  refine h.settle.bind fun r r' hr => ?_
  cases hr with
  | ok h => exact .pure h
  | error h => exact .pure (.some (congrArg Statement.fault h))

/-- A part that stands for nothing does so in both trees, so what is left stays paired. -/
theorem statements_corresponds (hconvert : C.Converters C.SameStatement convert convert')
    {parts : List n.Part} {parts' : List n'.Part} (h : List.Forall₂ C.Parts parts parts') :
    C.Agree (List.Forall₂ C.SameStatement) (statements convert parts)
      (statements convert' parts') := by
  unfold statements
  refine (Agree.mapM h fun p p' hp => orFault_corresponds (hconvert p p' hp)).bind
    fun rs rs' hrs => .pure ?_
  -- Both lists are thinned out at the same places.
  exact List.rel_filterMap (fun _ _ hr => hr) hrs

theorem significantStatements_corresponds (h : C.Related n n')
    (hconvert : C.Converters C.SameStatement convert convert') :
    C.Agree (List.Forall₂ C.SameStatement) (significantStatements n convert)
      (significantStatements n' convert') :=
  statements_corresponds hconvert (significant h)

/-- Blocks correspond to blocks, so both are opened up or neither is. -/
theorem opened_corresponds {s s' : Statement} (h : C.SameStatement s s') :
    List.Forall₂ C.SameStatement s.opened s'.opened := by
  have hopened := congrArg Statement.opened h
  rw [Statement.map_retell_opened, Statement.map_retell_opened] at hopened
  rw [← List.forall₂_eq_eq_eq, List.forall₂_map_left_iff, List.forall₂_map_right_iff] at hopened
  exact hopened

/-- The statements of a body, with its cases drawn together: what is no block is settled as a whole
and then opened up. -/
theorem body_eq (n : Node) (whole : Conversion (Option Statement))
    (convert : Converter n Statement) :
    body n whole convert =
      if n.kind == .block then significantStatements n convert
      else do return ((← orFault whole).map Statement.opened).getD [] := by
  unfold body
  split
  · rfl
  · congr 1
    funext r
    rcases r with _ | s
    · rfl
    · cases s <;> rfl

/-- Bodies are of one kind, so both are read as blocks or neither is. -/
theorem body_corresponds {whole whole' : Conversion (Option Statement)} (h : C.Related n n')
    (hconvert : C.Converters C.SameStatement convert convert')
    (hwhole : C.Agree (Option.Rel C.SameStatement) whole whole') :
    C.Agree (List.Forall₂ C.SameStatement) (body n whole convert) (body n' whole' convert') := by
  rw [body_eq, body_eq, kind_eq h]
  split
  · exact significantStatements_corresponds h hconvert
  · refine (orFault_corresponds hwhole).bind fun r r' hr => ?_
    cases hr with
    | none => exact .pure .nil
    | some hs => exact .pure (opened_corresponds hs)

theorem partBody_corresponds (hconvert : C.Converters C.SameStatement convert convert')
    {p : n.Part} {p' : n'.Part} (hp : C.Parts p p') :
    C.Agree (List.Forall₂ C.SameStatement) (partBody convert p) (partBody convert' p') :=
  body_corresponds hp hconvert.inside (hconvert p p' hp)

/-- A body that is absent is absent from both, and has no statements. -/
theorem bodyOf_corresponds (hconvert : C.Converters C.SameStatement convert convert')
    {x : Option n.Part} {x' : Option n'.Part} (hx : Option.Rel C.Parts x x') :
    C.Agree (List.Forall₂ C.SameStatement) (bodyOf convert x) (bodyOf convert' x') := by
  cases hx with
  | none => exact .pure .nil
  | some hp => exact partBody_corresponds hconvert hp

theorem singleBody_corresponds (hconvert : C.Converters C.SameStatement convert convert')
    {x : Option n.Part} {x' : Option n'.Part} (hx : Option.Rel C.Parts x x') :
    C.Agree (Option.Rel C.SameStatement) (singleBody convert x) (singleBody convert' x') := by
  cases hx with
  | none => exact .pure .none
  | some hp => exact orFault_corresponds (hconvert _ _ hp)

/-! ## §2 The parts of a call -/

/-- A call is named in both trees or in neither, as a name is judged by its text. -/
theorem rel_callee? (h : C.Related n n') : Option.Rel C.Parts (callee? n) (callee? n') :=
  ((anyField? h _).or (ofKind? h _)).filter fun _ _ hp => by rw [hasText_eq hp, isMissing_eq hp]

theorem rel_argumentList? (h : C.Related n n') :
    Option.Rel C.Parts (argumentList? n) (argumentList? n') :=
  (field? h _).or (ofKind? h _)

/-- What is looked for behind an offset is looked for behind the moved one. -/
theorem rel_statementAfter? (h : C.Related n n') {offset offset' : Nat}
    (hoffset : offset' = offset + C.shift.bytes) :
    Option.Rel C.Parts (statementAfter? n offset) (statementAfter? n' offset') :=
  find? h fun hc => by
    simp only [kind_eq hc, startByte_eq hc, hoffset, Nat.add_le_add_iff_right]

/-- Where a part stops that may be absent, and where the whole starts without it. -/
theorem stopByte_getD_eq (h : C.Related n n') {x : Option n.Part} {x' : Option n'.Part}
    (hx : Option.Rel C.Parts x x') :
    (x'.map fun p => p.node.stopByte).getD n'.startByte =
      (x.map fun p => p.node.stopByte).getD n.startByte + C.shift.bytes := by
  cases hx with
  | none => exact startByte_eq h
  | some hp => exact stopByte_eq hp

/-- The statement behind a call is labelled, or stands behind the arguments or the name. -/
theorem rel_trailing? (h : C.Related n n') (labels : List String) :
    Option.Rel C.Parts (trailing? n labels) (trailing? n' labels) := by
  have hlabelled := anyField? h labels
  unfold trailing?
  generalize n.anyField? labels = x, n'.anyField? labels = x' at hlabelled
  cases hlabelled with
  | some hp => exact .some hp
  | none =>
    exact rel_statementAfter? h
      (stopByte_getD_eq h ((rel_argumentList? h).or (rel_callee? h)))

theorem callChildren_corresponds (h : C.Related n n')
    (hconvert : C.Converters C.SameStatement convert convert') :
    C.Agree (List.Forall₂ C.SameStatement) (callChildren n convert) (callChildren n' convert') :=
  bodyOf_corresponds hconvert (rel_trailing? h _)

/-- The arguments of a call. -/
theorem callArguments_corresponds (h : C.Related n n') :
    C.Agree (List.Forall₂ C.SameArgument) (argumentsOf (expressions n) (argumentList? n))
      (argumentsOf (expressions n') (argumentList? n')) :=
  argumentsOf_corresponds (expressions_correspond n n') (rel_argumentList? h)

/-! ## §3 Calls -/

/-- There is one remark for each argument that is ignored, and both calls ignore the same ones. -/
theorem remarkIgnored_corresponds (h : C.Related n n') (name : String) (args : List Argument) :
    C.Agree Eq (remarkIgnored n name args)
      (remarkIgnored n' name (args.map (Argument.shift C.shift))) := by
  rw [remarkIgnored, remarkIgnored, ignored_shift]
  -- The remarks quote names, and are made at the calls.
  induction ignored name args with
  | nil => exact .pure rfl
  | cons argument rest ih => exact (Agree.remark _ h).bind fun _ _ _ => ih

/-- The name of a call stands where it is written, or else where the call stands. -/
theorem calleeSpan_eq (h : C.Related n n') :
    ((callee? n').map fun p => p.node.span).getD n'.span =
      (((callee? n).map fun p => p.node.span).getD n.span).shift C.shift := by
  have hcallee := rel_callee? h
  generalize callee? n = x, callee? n' = x' at hcallee
  cases hcallee with
  | none => exact (C.alike h).span
  | some hp => exact (C.alike hp).span

/-- The name and the arguments decide what a call is, and those are the same up to their places. -/
theorem predefinedCall_corresponds (h : C.Related n n')
    (hconvert : C.Converters C.SameStatement convert convert') (name : String)
    (args : List Argument) :
    C.Agree C.SameStatement (predefinedCall n convert name args)
      (predefinedCall n' convert' name (args.map (Argument.shift C.shift))) := by
  have hspan := (C.alike h).span
  have hchildren := callChildren_corresponds h hconvert
  have hignored := remarkIgnored_corresponds h name args
  have htrailing := rel_trailing? h ["body"]
  unfold predefinedCall
  rw [primitive?_shift, transform?_shift, htrailing.isSome_eq]
  -- A shape takes no body, and one that has a body is remarked on.
  cases primitive? name args with
  | some shape =>
    have hmade : C.SameStatement (.primitive shape (args.filter isSpecial) n.span)
        (.primitive (shape.shift C.shift)
          ((args.map (Argument.shift C.shift)).filter isSpecial) n'.span) := by
      rw [filter_isSpecial_shift, hspan]
      simp [SameStatement, Statement.retell]
    dsimp only [Option.map_some]
    split
    · exact (Agree.remark _ h).bind fun _ _ _ => hignored.bind fun _ _ _ => .pure hmade
    · exact hignored.bind fun _ _ _ => .pure hmade
  | none =>
    dsimp only [Option.map_none]
    -- A transform takes its body.
    cases transform? name args with
    | some transform =>
      dsimp only [Option.map_some]
      refine hignored.bind fun _ _ _ => hchildren.bind fun ss ss' hss => .pure ?_
      simp [SameStatement, Statement.retell, map_eq_of_forall₂ hss, hspan]
    | none =>
      dsimp only [Option.map_none]
      split
      -- An operation has nothing but a body.
      · refine hchildren.bind fun ss ss' hss => .pure ?_
        simp [SameStatement, Statement.retell, map_eq_of_forall₂ hss, hspan]
      split
      -- An `echo` has at most one statement behind it.
      · refine (singleBody_corresponds hconvert htrailing).bind fun r r' hr => .pure ?_
        simp [SameStatement, Statement.retell, map_eq_of_rel hr, hspan]
      -- A module of the program, which keeps the span of its name.
      · refine hchildren.bind fun ss ss' hss => .pure ?_
        rw [calleeSpan_eq h]
        simp [SameStatement, Statement.retell, map_eq_of_forall₂ hss, hspan]

theorem plainCall_corresponds (h : C.Related n n')
    (hconvert : C.Converters C.SameStatement convert convert') (name : String)
    (args : List Argument) :
    C.Agree C.SameStatement (plainCall n convert name args)
      (plainCall n' convert' name (args.map (Argument.shift C.shift))) := by
  unfold plainCall
  rw [List.length_map]
  refine (Agree.tell fun _ => .nil).bind fun _ _ _ => ?_
  refine (callChildren_corresponds h hconvert).bind fun ss ss' hss => .pure ?_
  simp [SameStatement, Statement.retell, map_eq_of_forall₂ hss, (C.alike h).span]

/-- A call without a name is left out of both programs, with a remark. -/
theorem callStatement_corresponds (d : Dialect) (h : C.Related n n')
    (hconvert : C.Converters C.SameStatement convert convert') :
    C.Agree (Option.Rel C.SameStatement) (callStatement d n convert)
      (callStatement d n' convert') := by
  have hcallee := rel_callee? h
  unfold callStatement
  generalize callee? n = x, callee? n' = x' at hcallee
  cases hcallee with
  | none => exact (Agree.remark _ h).bind fun _ _ _ => .pure .none
  | some hp =>
    dsimp only
    refine (callArguments_corresponds h).bind fun args args' hargs => ?_
    rw [trimmed_eq hp, eq_map_of_forall₂ hargs]
    cases d with
    | complete =>
      exact .map ((predefinedCall_corresponds h hconvert _ args).imp fun _ _ => .some)
    | calls => exact .map ((plainCall_corresponds h hconvert _ args).imp fun _ _ => .some)

/-! ## §4 Assignments -/

theorem binding_corresponds_expressions {n n' : Node} (h : C.Related n n') :
    C.Agree C.SameBinding (binding n (expressions n)) (binding n' (expressions n')) :=
  binding_corresponds h (expressions_correspond n n')

/-- The binding of an assignment is the node itself, or an assignment inside it. -/
theorem assignmentStatement_corresponds (h : C.Related n n') :
    C.Agree (Option.Rel C.SameStatement) (assignmentStatement n) (assignmentStatement n') := by
  have hmade {b b' : Binding} (hb : C.SameBinding b b') :
      C.Agree (Option.Rel C.SameStatement) (pure (some (.assignment b)))
        (pure (some (.assignment b'))) := by
    refine .pure (.some ?_)
    rw [SameStatement, hb]
    simp [Statement.retell]
  have hinner := ofKind? h .assignment
  have hown := binding_corresponds_expressions h
  unfold assignmentStatement
  rw [hasAnyField_eq h]
  split
  -- A labelled part shows that the node itself is meant.
  · exact hown.bind fun _ _ => hmade
  · generalize n.ofKind? .assignment = x, n'.ofKind? .assignment = x' at hinner
    cases hinner with
    | none => exact hown.bind fun _ _ => hmade
    | some hp => exact (binding_corresponds_expressions hp).bind fun _ _ => hmade

/-- What an `assign` makes of a child depends on its kind and on whether its name is labelled. -/
theorem assignBinding_corresponds {n n' : Node} (h : C.Related n n') :
    C.Agree (List.Forall₂ C.SameBinding) (assignBinding n) (assignBinding n') := by
  have hbinding : C.Agree (List.Forall₂ C.SameBinding)
      (do return [← binding n (expressions n)]) (do return [← binding n' (expressions n')]) :=
    (binding_corresponds_expressions h).bind fun _ _ hb => .pure (.cons hb .nil)
  unfold assignBinding
  rw [kind_eq h, (field? h "name").isNone_eq]
  split
  -- The three kinds of entries.
  iterate 3
    · dsimp only
      split
      · exact .fail_bind h (.refl _)
      · exact hbinding
  -- Anything else is refused if it is a value, and passed over if not.
  · split
    · exact .fail h (.refl _)
    · exact .pure .nil

theorem assignStatement_corresponds (h : C.Related n n')
    (hconvert : C.Converters C.SameStatement convert convert') :
    C.Agree (Option.Rel C.SameStatement) (assignStatement n convert)
      (assignStatement n' convert') := by
  have hlist := rel_argumentList? h
  have hafter := stopByte_getD_eq h hlist
  -- Without a list there are no arguments, in both.
  have hargs : List.Forall₂ C.Parts
      (((argumentList? n).map fun p => p.node.significant.map p.within).getD [])
      (((argumentList? n').map fun p => p.node.significant.map p.within).getD []) := by
    generalize argumentList? n = x, argumentList? n' = x' at hlist
    cases hlist with
    | none => exact .nil
    | some hp => exact map_within (significant hp)
  unfold assignStatement
  refine (Agree.remark _ h).bind fun _ _ _ => ?_
  dsimp only
  refine (Agree.mapM hargs fun p p' hp => assignBinding_corresponds hp).bind
    fun groups groups' hgroups => ?_
  refine (singleBody_corresponds hconvert ((anyField? h _).or (rel_statementAfter? h hafter))).bind
    fun r r' hr => .pure (.some ?_)
  rw [SameStatement, eq_map_of_forall₂ (List.rel_flatten hgroups)]
  simp [Statement.retell, map_eq_of_rel hr, (C.alike h).span]

/-! ## §5 Assertions -/

/-- The value of an argument is labelled, or is the last child behind the name. -/
theorem rel_assertValue? {n n' : Node} (h : C.Related n n') :
    Option.Rel C.Parts (assertValue? n) (assertValue? n') := by
  have hname := field? h "name"
  unfold assertValue?
  refine (field? h "value").or (findLast? h fun {c c'} hc => ?_)
  generalize n.field? "name" = x, n'.field? "name" = x' at hname
  cases hname with
  | none => simp
  | some hp => exact startsBehind_eq hp hc

theorem rel_argumentValue? {p : n.Part} {p' : n'.Part} (hp : C.Parts p p') :
    Option.Rel C.Parts (argumentValue? p) (argumentValue? p') := by
  unfold argumentValue?
  rw [kind_eq hp]
  split
  iterate 3
    · exact (rel_assertValue? hp).map fun _ _ hq => hq
  · exact .ite (.some hp) .none

/-- Arguments are told apart by the texts of their names, and counted where they have none. -/
theorem rel_assertArguments {list : n.Part} {list' : n'.Part} (h : C.Parts list list') :
    Option.Rel C.Parts (assertArguments list).1 (assertArguments list').1 ∧
      Option.Rel C.Parts (assertArguments list).2 (assertArguments list').2 := by
  have hargs : List.Forall₂ C.Parts (list.node.significant.map list.within)
      (list'.node.significant.map list'.within) :=
    map_within (significant h)
  have hname (p : n.Part) (p' : n'.Part) (hp : C.Parts p p') :
      ((p'.node.field? "name").map fun q => q.node.trimmed) =
        (p.node.field? "name").map fun q => q.node.trimmed :=
    ((field? hp "name").map_eq fun _ _ hq => (trimmed_eq hq).symm).symm
  have hnamed (name : String) : Option.Rel C.Parts
      ((((list.node.significant.map list.within).filter fun p =>
        ((p.node.field? "name").map fun q => q.node.trimmed) == some name).getLast?).bind
          argumentValue?)
      ((((list'.node.significant.map list'.within).filter fun p =>
        ((p.node.field? "name").map fun q => q.node.trimmed) == some name).getLast?).bind
          argumentValue?) :=
    (rel_getLast? (rel_filter hargs fun p p' hp => by rw [hname p p' hp])).bind
      fun _ _ => rel_argumentValue?
  have hunnamed : List.Forall₂ C.Parts
      (((list.node.significant.map list.within).filter fun p =>
        ((p.node.field? "name").map fun q => q.node.trimmed).isNone).filterMap argumentValue?)
      (((list'.node.significant.map list'.within).filter fun p =>
        ((p.node.field? "name").map fun q => q.node.trimmed).isNone).filterMap argumentValue?) :=
    List.rel_filterMap (fun _ _ => rel_argumentValue?)
      (rel_filter hargs fun p p' hp => by rw [hname p p' hp])
  unfold assertArguments
  dsimp only
  -- Where the condition is named, the message comes first among the others.
  rw [(hnamed "condition").isSome_eq]
  exact ⟨(hnamed _).or (rel_getElem? hunnamed _), (hnamed _).or (rel_getElem? hunnamed _)⟩

/-- Without a list of arguments, the message is an expression behind the comma. -/
theorem rel_assertChildren (h : C.Related n n') :
    Option.Rel C.Parts (assertChildren n).1 (assertChildren n').1 ∧
      Option.Rel C.Parts (assertChildren n).2 (assertChildren n').2 := by
  unfold assertChildren
  dsimp only
  refine ⟨find? h fun hc => by rw [kind_eq hc], ?_⟩
  refine (token? h fun hc => by rw [(C.alike hc).text]).bind fun comma comma' hcomma => ?_
  exact find? h fun hc => by rw [startsBehind_eq hcomma hc, kind_eq hc]

/-- The parts are labelled, or arguments, or children. -/
theorem rel_assertParts (h : C.Related n n') :
    Option.Rel C.Parts (assertParts n).1 (assertParts n').1 ∧
      Option.Rel C.Parts (assertParts n).2 (assertParts n').2 := by
  have hcondition := field? h "condition"
  have hlist := rel_argumentList? h
  unfold assertParts
  generalize n.field? "condition" = x, n'.field? "condition" = x' at hcondition
  cases hcondition with
  | some hp => exact ⟨.some hp, field? h _⟩
  | none =>
    generalize argumentList? n = y, argumentList? n' = y' at hlist
    cases hlist with
    | some hp => exact rel_assertArguments hp
    | none => exact rel_assertChildren h

/-- An assertion without a condition is left out of both programs, with a remark. -/
theorem assertStatement_corresponds (h : C.Related n n')
    (hconvert : C.Converters C.SameStatement convert convert') :
    C.Agree (Option.Rel C.SameStatement) (assertStatement n convert)
      (assertStatement n' convert') := by
  have hexpressions := expressions_correspond (C := C) n n'
  obtain ⟨hcondition, hmessage⟩ := rel_assertParts h
  unfold assertStatement
  -- Only how the parts were found depends on the nodes.
  generalize assertParts n = parts, assertParts n' = parts' at *
  obtain ⟨condition, message⟩ := parts
  obtain ⟨condition', message'⟩ := parts'
  dsimp only at *
  cases hcondition with
  | none => exact (Agree.remark _ h).bind fun _ _ _ => .pure .none
  | some hp =>
    refine (resolve_corresponds hexpressions _ hp).bind fun e e' he => ?_
    refine (resolve?_corresponds hexpressions _ hmessage).bind fun m m' hm => ?_
    refine (singleBody_corresponds hconvert (rel_trailing? h _)).bind
      fun r r' hr => .pure (.some ?_)
    rw [SameStatement, he, eq_map_of_rel hm]
    simp [Statement.retell, map_eq_of_rel hr, (C.alike h).span]

/-! ## §6 Definitions -/

theorem definitionName_corresponds (h : C.Related n n') (what : String) :
    C.Agree C.Parts (definitionName n what) (definitionName n' what) := by
  refine .require (((field? h "name").or (ofKind? h .identifier)).filter fun _ _ hp => ?_) h rfl
  rw [hasText_eq hp, isMissing_eq hp]

theorem rel_parameterList? (h : C.Related n n') :
    Option.Rel C.Parts (parameterList? n) (parameterList? n') :=
  (field? h _).or (ofKind? h _)

/-- A parameter is read from the assignment inside it, unless it has a name itself. -/
theorem related_parameterTarget (h : C.Related n n') :
    C.Related (parameterTarget n) (parameterTarget n') := by
  have hinner : Option.Rel C.Parts
      ((n.ofKind? .assignment).filter fun _ => (n.field? "name").isNone)
      ((n'.ofKind? .assignment).filter fun _ => (n'.field? "name").isNone) := by
    refine (ofKind? h .assignment).filter fun _ _ _ => ?_
    rw [(field? h "name").isNone_eq]
  unfold parameterTarget
  generalize (n.ofKind? .assignment).filter (fun _ => (n.field? "name").isNone) = x,
    (n'.ofKind? .assignment).filter (fun _ => (n'.field? "name").isNone) = x' at hinner
  cases hinner with
  | some hp => exact hp
  | none => exact h

theorem declaration_corresponds {n n' : Node} (h : C.Related n n') :
    C.Agree C.SameDeclaration (declaration n) (declaration n') := by
  have htarget := related_parameterTarget h
  have hspan := (C.alike h).span
  unfold declaration
  rw [kind_eq h, trimmed_eq h]
  split
  -- A name alone is a parameter without a default value.
  · exact .pure (by rw [SameDeclaration, Declaration.shift, hspan, Option.map_none])
  dsimp only
  refine (Agree.require (S := C.Parts) ?_ h rfl).bind fun name name' hname => ?_
  · exact ((field? htarget "name").or (rel_nameChild? htarget)).filter fun _ _ hp => hasText_eq hp
  refine (resolve?_corresponds (expressions_correspond _ _) _
    ((anyField? htarget _).or (findLast? htarget (startsBehind_eq hname)))).bind
      fun e e' he => .pure ?_
  rw [SameDeclaration, Declaration.shift, trimmed_eq hname, eq_map_of_rel he, hspan]

theorem declarations_corresponds (h : C.Related n n') :
    C.Agree (List.Forall₂ C.SameDeclaration) (declarations n) (declarations n') := by
  have hlist := rel_parameterList? h
  unfold declarations
  generalize parameterList? n = x, parameterList? n' = x' at hlist
  cases hlist with
  | none => exact .pure .nil
  | some hp =>
    refine .mapM (rel_filter (significant hp) fun _ _ hc => ?_) fun _ _ => declaration_corresponds
    rw [isDeclaration, isDeclaration, kind_eq hc]

theorem moduleDefinition_corresponds (h : C.Related n n')
    (hconvert : C.Converters C.SameStatement convert convert') :
    C.Agree (Option.Rel C.SameStatement) (moduleDefinition n convert)
      (moduleDefinition n' convert') := by
  have hbody : Option.Rel C.Parts ((n.field? "body").or (n.findLast? (·.kind.isStatement)))
      ((n'.field? "body").or (n'.findLast? (·.kind.isStatement))) :=
    (field? h "body").or (findLast? h fun hc => by rw [kind_eq hc])
  unfold moduleDefinition
  refine (definitionName_corresponds h _).bind fun name name' hname => ?_
  refine (declarations_corresponds h).bind fun ps ps' hps => ?_
  refine (bodyOf_corresponds hconvert hbody).bind fun ss ss' hss => .pure (.some ?_)
  rw [SameStatement, eq_map_of_forall₂ hps, trimmed_eq hname, (C.alike hname).span]
  simp [Statement.retell, map_eq_of_forall₂ hss, (C.alike h).span]

theorem functionDefinition_corresponds (h : C.Related n n') :
    C.Agree (Option.Rel C.SameStatement) (functionDefinition n) (functionDefinition n') := by
  unfold functionDefinition
  refine (definitionName_corresponds h _).bind fun name name' hname => ?_
  refine (declarations_corresponds h).bind fun ps ps' hps => ?_
  dsimp only
  -- The body stands behind the parameters, or behind the name of a function without any.
  have hafter : ((parameterList? n').map fun p => p.node.stopByte).getD name'.node.stopByte =
      ((parameterList? n).map fun p => p.node.stopByte).getD name.node.stopByte +
        C.shift.bytes := by
    have hlist := rel_parameterList? h
    generalize parameterList? n = x, parameterList? n' = x' at hlist
    cases hlist with
    | none => exact stopByte_eq hname
    | some hp => exact stopByte_eq hp
  rw [hafter, trimmed_eq hname]
  refine (Agree.require (S := C.Parts) ?_ h rfl).bind fun body body' hbody => ?_
  · refine ((anyField? h _).or (findLast? h fun hc => ?_)).filter fun _ _ hp => ?_
    · simp only [startByte_eq hc, kind_eq hc, Nat.add_le_add_iff_right]
    · rw [isMissing_eq hp]
  refine (resolve_corresponds (expressions_correspond n n') _ hbody).bind
    fun e e' he => .pure (.some ?_)
  rw [SameStatement, eq_map_of_forall₂ hps, he, (C.alike hname).span]
  simp [Statement.retell, (C.alike h).span]

/-! ## §7 Control flow -/

theorem blockStatement_corresponds (h : C.Related n n')
    (hconvert : C.Converters C.SameStatement convert convert') :
    C.Agree (Option.Rel C.SameStatement) (blockStatement n convert)
      (blockStatement n' convert') := by
  unfold blockStatement
  refine (significantStatements_corresponds h hconvert).bind fun ss ss' hss => .pure (.some ?_)
  simp [SameStatement, Statement.retell, map_eq_of_forall₂ hss, (C.alike h).span]

/-- Which statement is the alternative depends on where `else` stands, and that is moved with all
the rest. -/
theorem ifStatement_corresponds (h : C.Related n n')
    (hconvert : C.Converters C.SameStatement convert convert') :
    C.Agree (Option.Rel C.SameStatement) (ifStatement n convert) (ifStatement n' convert') := by
  -- The keyword is found in both, as far apart as the trees.
  have helse : Option.Rel (fun stop stop' => stop' = stop + C.shift.bytes)
      ((n.token? (·.text == "else")).map fun p => p.node.stopByte)
      ((n'.token? (·.text == "else")).map fun p => p.node.stopByte) :=
    (token? h fun hc => by rw [(C.alike hc).text]).map fun _ _ => stopByte_eq
  unfold ifStatement
  dsimp only
  refine (Agree.require (S := C.Parts) ?_ h rfl).bind fun condition condition' hcondition => ?_
  · refine ((field? h _).or (find? h fun hc => by rw [kind_eq hc])).filter fun _ _ hp => ?_
    rw [isMissing_eq hp]
  refine (resolve_corresponds (expressions_correspond n n') _ hcondition).bind fun e e' he => ?_
  generalize (n.token? (·.text == "else")).map (fun p => p.node.stopByte) = stop,
    (n'.token? (·.text == "else")).map (fun p => p.node.stopByte) = stop' at helse
  refine (bodyOf_corresponds hconvert ((field? h _).or (find? h fun {c c'} hc => ?_))).bind
    fun ss ss' hss => ?_
  -- A consequence stops no later than the keyword, if there is one.
  · have hall : (stop'.all fun stop => decide (c'.stopByte ≤ stop)) =
        stop.all fun stop => decide (c.stopByte ≤ stop) := by
      cases helse with
      | none => rfl
      | some hstop => simp only [Option.all_some, hstop, stopByte_eq hc, Nat.add_le_add_iff_right]
    rw [hall, startsBehind_eq hcondition hc, kind_eq hc]
  have halternative : Option.Rel C.Parts
      ((n.field? "alternative").or (stop.bind fun stop => statementAfter? n stop))
      ((n'.field? "alternative").or (stop'.bind fun stop => statementAfter? n' stop)) :=
    (field? h _).or (helse.bind fun _ _ => rel_statementAfter? h)
  have hmade {ts ts' : Option (List Statement)}
      (hts : Option.Rel (List.Forall₂ C.SameStatement) ts ts') :
      C.SameStatement (.branch e ss ts n.span) (.branch e' ss' ts' n'.span) := by
    have hlists := hts.map_eq fun _ _ => map_eq_of_forall₂
    rw [SameStatement, he]
    simp [Statement.retell, map_eq_of_forall₂ hss, hlists, (C.alike h).span]
  generalize (n.field? "alternative").or (stop.bind fun stop => statementAfter? n stop) = x,
    (n'.field? "alternative").or (stop'.bind fun stop => statementAfter? n' stop) = x'
    at halternative
  -- No alternative is not the same as an empty one.
  cases halternative with
  | none => exact .pure (.some (hmade .none))
  | some hp =>
    refine Agree.bind (S := Option.Rel (List.Forall₂ C.SameStatement)) ?_
      fun ts ts' hts => .pure (.some (hmade hts))
    exact .map ((partBody_corresponds hconvert hp).imp fun _ _ => .some)

/-- A loop labels its variable and its range.  One of them alone is a fault in both trees, and
without them the bindings are listed. -/
theorem loopBindings_corresponds (h : C.Related n n') :
    C.Agree (List.Forall₂ C.SameBinding) (loopBindings n) (loopBindings n') := by
  have hiterator := field? h "iterator"
  have hrange := field? h "range"
  unfold loopBindings
  generalize n.field? "iterator" = x, n'.field? "iterator" = x' at hiterator
  generalize n.field? "range" = y, n'.field? "range" = y' at hrange
  cases hiterator with
  | some hp =>
    cases hrange with
    | some hq =>
      refine (resolve_corresponds (expressions_correspond n n') _ hq).bind
        fun e e' he => .pure (.cons ?_ .nil)
      rw [SameBinding, Binding.shift, he, trimmed_eq hp, (C.alike hp).span, spanTo_eq hp hq]
    | none => exact .fail hp (.refl _)
  | none =>
    cases hrange with
    | some hq => exact .fail hq (.refl _)
    | none => exact bindings_corresponds h (expressions_correspond n n')

theorem forStatement_corresponds (h : C.Related n n')
    (hconvert : C.Converters C.SameStatement convert convert') :
    C.Agree (Option.Rel C.SameStatement) (forStatement n convert) (forStatement n' convert') := by
  unfold forStatement
  refine (loopBindings_corresponds h).bind fun bound bound' hbound => ?_
  refine (Agree.require (rel_getLast? hbound) h rfl).bind fun last last' hlast => ?_
  -- The body is looked for behind the last binding.
  have hstop : last'.span.stop.offset = last.span.stop.offset + C.shift.bytes := by
    rw [hlast, Binding.span_shift]
    rfl
  refine (bodyOf_corresponds hconvert ((field? h _).or (rel_statementAfter? h hstop))).bind
    fun ss ss' hss => .pure (.some ?_)
  rw [SameStatement, eq_map_of_forall₂ hbound]
  simp [Statement.retell, map_eq_of_forall₂ hss, (C.alike h).span]

theorem letStatement_corresponds (h : C.Related n n')
    (hconvert : C.Converters C.SameStatement convert convert') :
    C.Agree (Option.Rel C.SameStatement) (letStatement n convert) (letStatement n' convert') := by
  -- The body is looked for behind the list, or behind the last assignment.
  have hbefore : Option.Rel C.Parts ((argumentList? n).or (n.findLast? (·.kind == .assignment)))
      ((argumentList? n').or (n'.findLast? (·.kind == .assignment))) :=
    (rel_argumentList? h).or (findLast? h fun hc => by rw [kind_eq hc])
  have hafter := stopByte_getD_eq h hbefore
  unfold letStatement
  refine (bindings_corresponds h (expressions_correspond n n')).bind fun bound bound' hbound => ?_
  refine (bodyOf_corresponds hconvert ((field? h _).or (rel_statementAfter? h hafter))).bind
    fun ss ss' hss => .pure (.some ?_)
  rw [SameStatement, eq_map_of_forall₂ hbound]
  simp [Statement.retell, map_eq_of_forall₂ hss, (C.alike h).span]

theorem echoStatement_corresponds (h : C.Related n n')
    (hconvert : C.Converters C.SameStatement convert convert') :
    C.Agree (Option.Rel C.SameStatement) (echoStatement n convert)
      (echoStatement n' convert') := by
  unfold echoStatement
  refine (callArguments_corresponds h).bind fun args args' hargs => ?_
  refine (singleBody_corresponds hconvert (rel_trailing? h _)).bind fun r r' hr => .pure (.some ?_)
  rw [SameStatement, eq_map_of_forall₂ hargs]
  simp [Statement.retell, map_eq_of_rel hr, (C.alike h).span]

theorem inclusionStatement_corresponds (h : C.Related n n') :
    C.Agree (Option.Rel C.SameStatement) (inclusionStatement n) (inclusionStatement n') := by
  -- The path is cut out of a text, and texts are the same.
  have hpath : ((n'.field? "path").or n'.significant.head?).map (fun p => pathOf p.node.text) =
      ((n.field? "path").or n.significant.head?).map fun p => pathOf p.node.text :=
    (((field? h "path").or (rel_head? (significant h))).map_eq fun _ _ hp => by
      rw [(C.alike hp).text]).symm
  unfold inclusionStatement
  rw [kind_eq h, hpath]
  refine (Agree.require (S := Eq) (.refl _) h rfl).bind fun path path' hpath => .pure (.some ?_)
  rw [SameStatement, hpath]
  simp [Statement.retell, (C.alike h).span]

/-! ## §8 Modifiers -/

/-- A modifier is read from a token, or else from the text of its node. -/
theorem modifierOf_eq (h : C.Related n n') : modifierOf n' = modifierOf n := by
  have htoken : ((n'.token? fun _ => true).bind fun p => p.node.text.toList.head?) =
      (n.token? fun _ => true).bind fun p => p.node.text.toList.head? := by
    have htoken : Option.Rel C.Parts (n.token? fun _ => true) (n'.token? fun _ => true) :=
      token? h fun _ => rfl
    generalize (n.token? fun _ => true) = x, (n'.token? fun _ => true) = x' at htoken
    cases htoken with
    | none => rfl
    | some hp => rw [Option.bind_some, Option.bind_some, (C.alike hp).text]
  rw [modifierOf, modifierOf, htoken, (C.alike h).text]

/-- A modifier in front of a statement reaches to the end of it, in both trees. -/
theorem applyModifier_corresponds (hconvert : C.Converters C.SameStatement convert convert')
    {modifier modifier' : Node} (hmodifier : C.Related modifier modifier')
    {target : Option n.Part} {target' : Option n'.Part}
    (htarget : Option.Rel C.Parts target target') :
    C.Agree (Option.Rel C.SameStatement) (applyModifier convert modifier target)
      (applyModifier convert' modifier' target') := by
  unfold applyModifier
  rw [modifierOf_eq hmodifier]
  split
  · exact (Agree.remark _ hmodifier).bind fun _ _ _ => .pure .none
  · cases htarget with
    | none => exact .pure .none
    | @some p p' hp =>
      -- Whether the statement stands behind the modifier is the same after moving both.
      have hspan : (if modifier'.stopByte < p'.node.stopByte then modifier'.spanTo p'.node
            else modifier'.span) =
          (if modifier.stopByte < p.node.stopByte then modifier.spanTo p.node
            else modifier.span).shift C.shift := by
        simp only [stopByte_eq hmodifier, stopByte_eq hp, Nat.add_lt_add_iff_right,
          spanTo_eq hmodifier hp, (C.alike hmodifier).span]
        exact (apply_ite (Span.shift C.shift) _ _ _).symm
      refine (orFault_corresponds (hconvert p p' hp)).bind fun r r' hr => .pure ?_
      refine hr.map fun s s' hs => ?_
      rw [SameStatement, hspan, Statement.retell, Statement.retell, hs, Span.shift_zero]

theorem modifierStatement_corresponds (h : C.Related n n')
    (hconvert : C.Converters C.SameStatement convert convert') :
    C.Agree (Option.Rel C.SameStatement) (modifierStatement n convert)
      (modifierStatement n' convert') :=
  applyModifier_corresponds hconvert h
    ((anyField? h _).or (findLast? h fun hc => by rw [kind_eq hc]))

/-! ## §9 Wrappers -/

theorem expressionNode_corresponds {n n' : Node} (h : C.Related n n') :
    C.Agree (Option.Rel C.SameStatement) (expressionNode n) (expressionNode n') := by
  unfold expressionNode
  refine (expression_corresponds h).bind fun r r' hr => .pure (hr.map fun e e' he => ?_)
  rw [SameStatement, he, Statement.retell, Statement.retell, Expression.shift_zero]

/-- A call that stands as an expression is read as a statement, and anything else is kept. -/
theorem expressionStatement_corresponds (h : C.Related n n')
    (hconvert : C.Converters C.SameStatement convert convert') :
    C.Agree (Option.Rel C.SameStatement) (expressionStatement n convert)
      (expressionStatement n' convert') := by
  have hhead := rel_head? (significant h)
  unfold expressionStatement
  generalize n.significant.head? = x, n'.significant.head? = x' at hhead
  cases hhead with
  | none => exact .pure .none
  | some hp =>
    dsimp only
    rw [kind_eq hp]
    split
    -- The kinds of calls.
    iterate 3
      · exact hconvert _ _ hp
    · exact expressionNode_corresponds hp

/-- A wrapper stands for the expression statement in it, or for the first call at any depth. -/
theorem plainWrapper_corresponds (h : C.Related n n')
    (hconvert : C.Converters C.SameStatement convert convert') :
    C.Agree (Option.Rel C.SameStatement) (plainWrapper n convert) (plainWrapper n' convert') := by
  have hinner : Option.Rel C.Parts (n.parts.find? (·.node.kind == .expressionStatement))
      (n'.parts.find? (·.node.kind == .expressionStatement)) :=
    find?_parts h (fun p hp => by rw [hp.kind]; rfl) fun _ _ hp => by rw [kind_eq hp]
  have hcall : Option.Rel C.Parts
      ((n.descendant? .moduleInstantiation).or (n.descendant? .accessorExpression))
      ((n'.descendant? .moduleInstantiation).or (n'.descendant? .accessorExpression)) :=
    (descendant? (by decide) h).or (descendant? (by decide) h)
  unfold plainWrapper
  generalize n.parts.find? (·.node.kind == .expressionStatement) = x,
    n'.parts.find? (·.node.kind == .expressionStatement) = x' at hinner
  cases hinner with
  | some hp => exact hconvert _ _ hp
  | none =>
    dsimp only
    generalize (n.descendant? .moduleInstantiation).or (n.descendant? .accessorExpression) = y,
      (n'.descendant? .moduleInstantiation).or (n'.descendant? .accessorExpression) = y' at hcall
    cases hcall with
    | some hp => exact hconvert _ _ hp
    | none => exact .pure .none

/-- A modifier that holds no statement applies to the next one beside it. -/
theorem rel_siblingModifier? (h : C.Related n n') :
    Option.Rel (fun r r' => C.Parts r.1 r'.1 ∧ Option.Rel C.Parts r.2 r'.2)
      (siblingModifier? n) (siblingModifier? n') := by
  have hsignificant := significant h
  unfold siblingModifier?
  generalize n.significant = l, n'.significant = l' at hsignificant
  cases hsignificant with
  | nil => exact .none
  | @cons p p' _ _ hp hrest =>
    have hheld : (p'.node.significant.any fun c => c.node.kind.isStatement) =
        p.node.significant.any fun c => c.node.kind.isStatement :=
      any_eq_of_forall₂ (significant hp) fun _ _ hc => by rw [kind_eq hc]
    dsimp only
    rw [kind_eq hp, hheld]
    refine Option.Rel.ite (.some ⟨hp, ?_⟩) .none
    exact rel_find? hrest fun _ _ hc => by rw [kind_eq hc]

theorem statementWrapper_corresponds (h : C.Related n n')
    (hconvert : C.Converters C.SameStatement convert convert') :
    C.Agree (Option.Rel C.SameStatement) (statementWrapper n convert)
      (statementWrapper n' convert') := by
  have hsibling := rel_siblingModifier? h
  have hinner : Option.Rel C.Parts (n.find? (isDedicated ·.kind)) (n'.find? (isDedicated ·.kind)) :=
    find? h fun hc => by rw [kind_eq hc]
  unfold statementWrapper
  generalize siblingModifier? n = x, siblingModifier? n' = x' at hsibling
  cases hsibling with
  | some hpair => exact applyModifier_corresponds hconvert hpair.1 hpair.2
  | none =>
    dsimp only
    generalize n.find? (isDedicated ·.kind) = y, n'.find? (isDedicated ·.kind) = y' at hinner
    cases hinner with
    | some hp => exact hconvert _ _ hp
    | none => exact plainWrapper_corresponds h hconvert

/-! ## §10 The choice among them -/

/-- A call is taken for an assertion or for assignments by its name. -/
theorem moduleCall_corresponds (h : C.Related n n')
    (hconvert : C.Converters C.SameStatement convert convert') :
    C.Agree (Option.Rel C.SameStatement) (moduleCall n convert) (moduleCall n' convert') := by
  have hname : ((n'.anyField? ["name", "function"]).map fun p => p.node.trimmed) =
      (n.anyField? ["name", "function"]).map fun p => p.node.trimmed :=
    ((anyField? h _).map_eq fun _ _ hp => (trimmed_eq hp).symm).symm
  unfold moduleCall
  rw [hname]
  split
  · exact assignStatement_corresponds h hconvert
  · exact assertStatement_corresponds h hconvert
  · exact callStatement_corresponds _ h hconvert

/-- Corresponding nodes are of one kind, so the same construct is read from both. -/
theorem commonStep_corresponds (d : Dialect) (h : C.Related n n')
    (hconvert : C.Converters C.SameStatement convert convert') :
    C.Agree (Option.Rel C.SameStatement) (commonStep d n convert) (commonStep d n' convert') := by
  unfold commonStep
  rw [kind_eq h]
  split
  · exact moduleCall_corresponds h hconvert
  -- The kinds of calls.
  iterate 3
    · exact callStatement_corresponds _ h hconvert
  · exact statementWrapper_corresponds h hconvert
  · exact plainWrapper_corresponds h hconvert
  · exact expressionStatement_corresponds h hconvert
  -- Expressions that stand as statements.
  iterate 3
    · exact expressionNode_corresponds h
  · exact moduleDefinition_corresponds h hconvert
  · exact functionDefinition_corresponds h
  · exact ifStatement_corresponds h hconvert
  · exact forStatement_corresponds h hconvert
  · exact assignmentStatement_corresponds h
  · exact blockStatement_corresponds h hconvert
  · exact .pure .none

theorem statementStep_corresponds (d : Dialect) (h : C.Related n n')
    (hconvert : C.Converters C.SameStatement convert convert') :
    C.Agree (Option.Rel C.SameStatement) (statementStep d n convert)
      (statementStep d n' convert') := by
  unfold statementStep
  rw [kind_eq h]
  split
  · exact assignStatement_corresponds h hconvert
  · exact assertStatement_corresponds h hconvert
  · exact echoStatement_corresponds h hconvert
  iterate 2
    · exact inclusionStatement_corresponds h
  · exact letStatement_corresponds h hconvert
  · exact modifierStatement_corresponds h hconvert
  · exact commonStep_corresponds _ h hconvert

/-- Corresponding nodes stand for the same statement. -/
theorem statement_corresponds (d : Dialect) {n n' : Node} (h : C.Related n n') :
    C.Agree (Option.Rel C.SameStatement) (statement d n) (statement d n') := by
  rw [statement_eq, statement_eq]
  exact statementStep_corresponds d h fun p p' hp => statement_corresponds d hp
termination_by sizeOf n
decreasing_by exact p.inside

theorem inner_corresponds (d : Dialect) (n n' : Node) :
    C.Converters C.SameStatement (inner d n) (inner d n') :=
  fun _ _ hp => statement_corresponds d hp

/-! ## §11 Programs -/

/-- Corresponding trees have the same statements, in the same order. -/
theorem rootStatements_corresponds {root root' : Node} (h : C.Related root root') :
    C.Agree (List.Forall₂ C.SameStatement) (rootStatements root) (rootStatements root') := by
  unfold rootStatements
  rw [kind_eq h]
  split
  · exact significantStatements_corresponds h (inner_corresponds _ root root')
  · refine (orFault_corresponds (statement_corresponds .complete h)).bind fun r r' hr => .pure ?_
    cases hr with
    | none => exact .nil
    | some hs => exact .cons hs .nil

/-- Corresponding trees have the same program, up to where it stands and to the words of the faults
in it. -/
theorem program_corresponds {root root' : Node} (h : C.Related root root') :
    (Convert.convert C.left root).program.map (Statement.retell C.shift C.reword) =
      (Convert.convert C.right root').program.map (Statement.retell {} C.reword) := by
  have hresult := (rootStatements_corresponds h).result
  show (((rootStatements root).result C.left).toOption.getD []).map _ =
    (((rootStatements root').result C.right).toOption.getD []).map _
  generalize (rootStatements root).result C.left = r, (rootStatements root').result C.right = r'
    at hresult
  cases hresult with
  | ok hss => exact map_eq_of_forall₂ hss
  | error _ => rfl

end Convert

end Scad
