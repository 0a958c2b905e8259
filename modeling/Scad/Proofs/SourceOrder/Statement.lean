import Scad.Proofs.CalleePlace
import Scad.Proofs.SourceOrder.Predefined

/-!
# Statements in the Order of the Source

The statements of a block and of a body are listed as they stand, and so are the arguments of a
call, the bindings of a list and the parameters of a definition.  The parts of every other construct
are in order unless its node displaces them.

* `Node.OrdersStatement` — a statement that is ordered by a node.
* `convert_children_forward` — the views directly inside a view of a program start in the order in
  which they are listed, unless the view is made of a node that displaces its parts.
-/

namespace Scad

open Text (Source)

/-! ## §1 What is asked of the nodes inside -/

namespace Node

/-- The node orders the view of the statement, and what the statement holds as a body starts in
order. -/
structure OrdersStatement (n : Node) (st : Statement) : Prop where
  view : n.Orders (.ofStatement st)
  opened : n.Sequences (st.opened.map .ofStatement)

/-- Every node strictly inside orders the statement that it converts to. -/
def InnerOrdersStatements (n : Node) : Prop :=
  ∀ m : Node, m.Within n → sizeOf m < sizeOf n →
    (Convert.statement .complete m).Ensures fun r => ∀ st, r = some st → m.OrdersStatement st

theorem InnerOrdersStatements.within {m n : Node} (h : n.InnerOrdersStatements)
    (hm : m.Within n) : m.InnerOrdersStatements :=
  fun l hl hsize => h l (hl.trans hm) (Nat.lt_of_lt_of_le hsize hm.sizeOf_le)

theorem OrdersStatement.within {s : Source} {m n : Node} {st : Statement}
    (h : m.OrdersStatement st) (hn : n.LaidOut s) (hm : m.Within n) : n.OrdersStatement st :=
  ⟨h.view.within hn hm, h.opened.within hn hm⟩

end Node

namespace Convert

open Conversion Node

variable {s : Source} {n : Node}

/-- Whatever the conversion answers with is ordered by the node. -/
def StatementOrdering (n : Node) (r : Option Statement) : Prop :=
  ∀ st, r = some st → n.OrdersStatement st

theorem statementOrdering_none : StatementOrdering n none :=
  fun _ h => nomatch h

/-- A statement that is no block is its own body. -/
theorem statementOrdering_some {st : Statement} (h : n.Orders (.ofStatement st))
    (hopened : st.opened = [st]) : StatementOrdering n (some st) := by
  rintro _ ⟨⟩
  exact ⟨h, by rw [hopened]; exact .singleton h⟩

theorem convertStatement_ordering (hn : n.LaidOut s) (h : n.InnerOrdersStatements) {p : n.Part}
    (hp : p.node.Within n) : (inner .complete n p).Ensures (StatementOrdering n) :=
  (h p.node hp p.inside).imp fun _ hr st hst => (hr st hst).within hn hp

/-! ## §2 Lists and bodies -/

theorem orders_fault (hn : n.LaidOut s) {f : Fault} (h : f.PointsInto n) :
    n.OrdersStatement (.fault f) := by
  obtain ⟨m, hm, hspan⟩ := h.exists_span
  have hview : m.Orders (.fault f) := .of_leaf (hn.mono hm) hspan rfl
  exact ⟨hview.within hn hm, .singleton (hview.within hn hm)⟩

/-- A settled statement is ordered, be it a fault or not. -/
theorem orFault_ordering (hn : n.LaidOut s)
    (h : (statement .complete n).Ensures (StatementOrdering n)) :
    (orFault (statement .complete n)).Ensures (StatementOrdering n) := by
  have hsettle : (statement .complete n).settle.Ensures fun r =>
      (∀ a, r = .ok a → StatementOrdering n a) ∧ ∀ f, r = .error f → f.PointsInto n := by
    intro settings r hr
    obtain rfl : (statement .complete n).result settings = r := Except.ok.inj hr
    exact ⟨fun a => h settings a, fun f => (statement_meets .complete n).error⟩
  unfold orFault
  refine hsettle.bind fun r hr => ?_
  cases r with
  | ok a => exact .pure (hr.1 a rfl)
  | error f =>
    refine .pure ?_
    rintro _ ⟨⟩
    exact orders_fault hn (hr.2 f rfl)

/-- A part is settled where it stands. -/
theorem orFault_part (hn : n.LaidOut s) (h : n.InnerOrdersStatements) {p : n.Part}
    (hp : p.node.Within n) : (orFault (inner .complete n p)).Ensures (StatementOrdering p.node) :=
  orFault_ordering (hn.mono hp) (h p.node hp p.inside)

/-- A statement that may be absent makes at most one view. -/
theorem sequences_ofStatement? {r : Option Statement} (h : StatementOrdering n r) :
    n.Sequences (View.ofStatement? r) := by
  cases r with
  | none => exact .nil
  | some st => exact .singleton (h st rfl).view

/-- What stands for nothing has no view. -/
theorem map_ofStatement_filterMap (rs : List (Option Statement)) :
    (rs.filterMap id).map View.ofStatement = (rs.map View.ofStatement?).flatten := by
  induction rs with
  | nil => rfl
  | cons r rs ih =>
    cases r with
    | none => simpa [View.ofStatement?] using ih
    | some st => simpa [View.ofStatement?] using ih

/-- The statements directly under a node are in the order of its children. -/
theorem significantStatements_sequences (hn : n.LaidOut s) (h : n.InnerOrdersStatements) :
    (significantStatements n (inner .complete n)).Ensures fun ss =>
      n.Sequences (ss.map .ofStatement) := by
  unfold significantStatements statements
  refine (Ensures.mapM fun p hp => orFault_part hn h (within_of_mem_significant hp)).bind
    fun rs hrs => .pure ?_
  rw [map_ofStatement_filterMap]
  -- One child makes one statement or none, so the row of views follows the row of children.
  have hrow : n.Furnishes (n.significant.map Part.node) (rs.map View.ofStatement?).flatten := by
    refine .of_groups (List.forall_mem_map.mpr fun _ => within_of_mem_significant) ?_
    refine List.forall₂_map_left_iff.mpr (List.forall₂_map_right_iff.mpr ?_)
    exact hrs.imp fun _ _ => sequences_ofStatement?
  exact hrow.sequences hn hn.significant_inOrder

/-- The statements of a body are in order, a block opened up or not. -/
theorem body_sequences (hn : n.LaidOut s)
    (hself : (statement .complete n).Ensures (StatementOrdering n))
    (h : n.InnerOrdersStatements) :
    (body n (statement .complete n) (inner .complete n)).Ensures fun ss =>
      n.Sequences (ss.map .ofStatement) := by
  unfold body
  split
  · exact significantStatements_sequences hn h
  · refine (orFault_ordering hn hself).bind fun r hr => ?_
    -- A block is opened up, any other statement is its own body, and nothing has no views.
    split
    · exact .pure (hr _ rfl).opened
    · exact .pure (.singleton (hr _ rfl).view)
    · exact .pure .nil

/-- The statements of a body are views of one node, the body. -/
theorem bodyOf_furnishes (hn : n.LaidOut s) (h : n.InnerOrdersStatements) {x : Option n.Part}
    (hx : n.Finds x) :
    (bodyOf (inner .complete n) x).Ensures fun ss =>
      n.Furnishes (found [x]) (ss.map .ofStatement) := by
  cases x with
  | none => exact .pure .nil
  | some p =>
    have hp := hx p rfl
    exact (body_sequences (hn.mono hp) (h p.node hp p.inside) (h.within hp)).imp
      fun _ hss => .single hp hss

theorem singleBody_furnishes (hn : n.LaidOut s) (h : n.InnerOrdersStatements)
    {x : Option n.Part} (hx : n.Finds x) :
    (singleBody (inner .complete n) x).Ensures fun r =>
      n.Furnishes (found [x]) (View.ofStatement? r) := by
  cases x with
  | none => exact .pure .nil
  | some p =>
    have hp := hx p rfl
    exact (orFault_part hn h hp).imp fun _ hr => .single hp (sequences_ofStatement? hr)

/-! ## §3 Calls -/

/-- Arguments come before the body, wherever the body stands. -/
theorem predefinedCall_ordering (hn : n.LaidOut s) (h : n.InnerOrdersStatements)
    {name : String} {args : List Argument} (hcall : n.Calls name args) :
    (predefinedCall n (inner .complete n) name args).Ensures
      fun st => StatementOrdering n (some st) := by
  have hbody : (callChildren n (inner .complete n)).Ensures fun ss =>
      n.Furnishes (found [trailing? n ["body"]]) (ss.map .ofStatement) :=
    bodyOf_furnishes hn h (finds_trailing? _)
  have hargs := arguments_furnish hn hcall
  unfold predefinedCall
  split
  -- A shape has its parameters for views, and no body.
  · next hshape =>
    have hmade := statementOrdering_some (orders_primitive hn hcall hshape) rfl
    dsimp only
    split
    · exact .bind_any fun _ => .bind_any fun _ => .pure hmade
    · exact .bind_any fun _ => .pure hmade
  split
  -- A transform has its parameters for views, and the body behind them.
  · next htransform =>
    refine .bind_any fun _ => hbody.bind fun ss hss => .pure ?_
    exact statementOrdering_some (orders_transform hn hcall htransform hss) rfl
  split
  -- An operation has its body alone.
  · refine hbody.bind fun ss hss => .pure (statementOrdering_some ?_ rfl)
    exact .of_sequences hn rfl (hss.sequences_found hn)
  dsimp only
  split
  -- An `echo`, and a module of the program.
  · refine (singleBody_furnishes hn h (finds_trailing? _)).bind fun r hr => .pure ?_
    refine statementOrdering_some ?_ rfl
    exact .of_parts hn rfl (.call hcall.isCall) (hargs.found_cons hr)
  · refine hbody.bind fun ss hss => .pure (statementOrdering_some ?_ rfl)
    exact .of_parts hn rfl (.call hcall.isCall) (hargs.found_cons hss)

theorem callStatement_ordering (hn : n.LaidOut s) (h : n.InnerOrdersStatements)
    (hkind : n.kind.isCall = true) :
    (callStatement .complete n (inner .complete n)).Ensures (StatementOrdering n) := by
  unfold callStatement
  split
  · exact .bind_any fun _ => .pure statementOrdering_none
  · next callee hcallee =>
    refine Ensures.of_result.bind fun args hargs => .map ?_
    exact predefinedCall_ordering hn h ⟨hkind, ⟨callee, hcallee, rfl⟩, hargs⟩

/-! ## §4 Assignments -/

/-- An assignment has one view, the binding, which is that of its own node or of one inside it. -/
theorem assignmentStatement_ordering (hn : n.LaidOut s) :
    (assignmentStatement n).Ensures (StatementOrdering n) := by
  have hmade {m : Node} (hm : m.Within n) :
      (binding m (expressions m)).Ensures fun b =>
        StatementOrdering n (some (.assignment b)) := by
    intro settings b hb
    have hin := hn.mono hm
    have hbinding := binding_orders hin (innerOrders hin) settings b hb
    have hview : m.Orders (.ofStatement (.assignment b)) :=
      .of_single hin (binding_ok hb).1 rfl hbinding
    exact statementOrdering_some (hview.within hn hm) rfl
  unfold assignmentStatement
  split
  · exact (hmade (.refl n)).bind fun _ hb => .pure hb
  · split
    · next inner hinner => exact (hmade (finds_ofKind? _ inner hinner)).bind fun _ hb => .pure hb
    · exact (hmade (.refl n)).bind fun _ hb => .pure hb

theorem within_of_mem_entries {m : Node} (h : m ∈ n.entries) : m.Within n := by
  obtain ⟨c, hc, h⟩ := List.mem_flatMap.mp h
  split at h
  · rw [List.mem_singleton.mp h]
    exact within_of_mem_significant hc
  · cases h

theorem assignStatement_ordering (hn : n.LaidOut s) (h : n.InnerOrdersStatements)
    (hread : n.kind = .assignStatement ∨
      n.kind = .moduleInstantiation ∧ n.calledAs? = some "assign") :
    (assignStatement n (inner .complete n)).Ensures (StatementOrdering n) := by
  cases hlist : argumentList? n with
  -- Without a list there are no bindings, and the body is the only view.
  | none =>
    unfold assignStatement
    simp only [hlist, Option.map_none, Option.getD_none, List.mapM_nil, pure_bind]
    have hbody : n.Finds ((n.anyField? ["statement", "block", "body"]).or
        (statementAfter? n n.startByte)) := (finds_anyField? _).or (finds_statementAfter? _)
    refine .bind_any fun _ => (singleBody_furnishes hn h hbody).bind fun r hr => .pure ?_
    refine statementOrdering_some ?_ rfl
    exact .of_sequences hn rfl (hr.sequences_found hn)
  -- The bindings are those of the entries of the list, and the body comes last.
  | some list =>
    have hin := finds_argumentList? list hlist
    rw [assignStatement_of_list hlist]
    have hbindings : (assignBindings list.node).Ensures fun bs =>
        n.Furnishes list.node.entries (bs.map .binding) := fun _ _ hbs =>
      furnishes_of_bindsAs hn (innerOrders hn) (fun _ hm => (within_of_mem_entries hm).trans hin)
        (assignBindings_ok_iff.mp hbs).2
    refine .bind_any fun _ => hbindings.bind fun bs hbs => ?_
    have hbody : n.Finds (assignBody? n list) := (finds_anyField? _).or (finds_statementAfter? _)
    refine (singleBody_furnishes hn h hbody).bind fun r hr => .pure ?_
    refine statementOrdering_some ?_ rfl
    exact .of_parts hn rfl (.assign hread hlist) (hbs.append hr)

/-! ## §5 Assertions -/

/-- The condition comes first, then the message, then the statement behind. -/
theorem assertStatement_ordering (hn : n.LaidOut s) (h : n.InnerOrdersStatements)
    (hread : n.IsAssertion) :
    (assertStatement n (inner .complete n)).Ensures (StatementOrdering n) := by
  obtain ⟨hcondition, hmessage⟩ := finds_assertParts n
  have hparts := TakesParts.assertion hread
  unfold assertStatement
  generalize assertParts n = parts at *
  obtain ⟨condition, message⟩ := parts
  cases condition with
  | none => exact .bind_any fun _ => .pure statementOrdering_none
  | some condition =>
    refine (resolve_furnishes (innerOrders hn) (hcondition _ rfl)).bind fun e he => ?_
    refine (resolve?_furnishes (innerOrders hn) hmessage).bind fun text htext => ?_
    refine (singleBody_furnishes hn h (finds_trailing? _)).bind fun r hr => .pure ?_
    refine statementOrdering_some (.of_parts hn rfl hparts ?_) rfl
    show n.Furnishes _ ([.expression e] ++ View.ofExpression? text ++ View.ofStatement? r)
    rw [List.append_assoc]
    exact he.found_cons (htext.found_cons hr)

/-! ## §6 Definitions -/

/-- A parameter has one view at most, that of its default value. -/
theorem declaration_orders (hn : n.LaidOut s) :
    (declaration n).Ensures fun d => n.Orders (.declaration d) := by
  unfold declaration
  split
  · exact .pure (.of_leaf hn rfl rfl)
  dsimp only
  have hin := within_parameterTarget n
  refine .bind_any fun name => ?_
  have hdefault : (parameterTarget n).Finds
      (((parameterTarget n).anyField? ["default", "value"]).or
        ((parameterTarget n).findLast? fun c => name.node.stopByte ≤ c.startByte)) :=
    (finds_anyField? _).or (finds_findLast? _)
  refine (resolve?_furnishes (innerOrders (hn.mono hin)) hdefault).bind fun e he => .pure ?_
  exact .of_sequences hn rfl ((he.sequences_found (hn.mono hin)).within hn hin)

/-- The parameters are listed as they stand in their list. -/
theorem declarations_furnish (hn : n.LaidOut s) :
    (declarations n).Ensures fun ds =>
      n.Furnishes (found [parameterList? n]) (ds.map .declaration) := by
  unfold declarations
  split
  · next list hlist =>
    have hin := finds_parameterList? list hlist
    have hdeclared : ∀ p ∈ list.node.significant.filter (isDeclaration ·.node),
        p.node.Within list.node := fun p hp => within_of_mem_significant (List.mem_filter.mp hp).1
    refine (Ensures.mapM fun p hp =>
      declaration_orders ((hn.mono hin).mono (hdeclared p hp))).imp fun ds hds => ?_
    rw [hlist]
    have hrow : list.node.Furnishes
        ((list.node.significant.filter (isDeclaration ·.node)).map Part.node)
        (ds.map .declaration) := by
      refine .of_forall₂ (List.forall₂_map_left_iff.mpr hds) fun m hm d hd => ⟨?_, hd⟩
      obtain ⟨p, hp, rfl⟩ := List.mem_map.mp hm
      exact hdeclared p hp
    refine .single hin (hrow.sequences (hn.mono hin) ?_)
    exact (hn.mono hin).significant_inOrder.sublist (List.filter_sublist.map _)
  · next hlist =>
    rw [hlist]
    exact .pure .nil

theorem moduleDefinition_ordering (hn : n.LaidOut s) (h : n.InnerOrdersStatements)
    (hkind : n.kind = .moduleDefinition) :
    (moduleDefinition n (inner .complete n)).Ensures (StatementOrdering n) := by
  have hbody : n.Finds n.moduleBody? := (finds_field? _).or (finds_findLast? _)
  unfold moduleDefinition
  refine .bind_any fun name => (declarations_furnish hn).bind fun ds hds => ?_
  refine (bodyOf_furnishes hn h hbody).bind fun ss hss => .pure ?_
  refine statementOrdering_some ?_ rfl
  exact .of_parts hn rfl (.moduleDefinition hkind) (hds.found_cons hss)

theorem functionDefinition_ordering (hn : n.LaidOut s) (hkind : n.kind = .functionDefinition) :
    (functionDefinition n).Ensures (StatementOrdering n) := by
  unfold functionDefinition
  refine .bind_any fun name => (declarations_furnish hn).bind fun ds hds => ?_
  dsimp only
  refine .bind .require fun p hp => ?_
  obtain ⟨hp, -⟩ := Option.filter_eq_some_iff.mp hp
  have hin : p.node.Within n := ((finds_anyField? _).or (finds_findLast? _)) p hp
  refine (resolve_furnishes (innerOrders hn) hin).bind fun e he => .pure ?_
  refine statementOrdering_some ?_ rfl
  -- Without parameters the value is the only view.
  cases hlist : parameterList? n with
  | none =>
    rw [hlist] at hds
    exact .of_sequences hn rfl ((hds.found_cons he).sequences hn (List.pairwise_singleton _ _))
  | some list =>
    have hbody : n.functionBody? list = some p := by rw [hlist] at hp; exact hp
    have hparts := TakesParts.functionDefinition hkind hlist
    rw [hbody] at hparts
    exact .of_parts hn rfl hparts ((hlist ▸ hds).found_cons he)

/-! ## §7 Control flow -/

theorem blockStatement_ordering (hn : n.LaidOut s) (h : n.InnerOrdersStatements) :
    (blockStatement n (inner .complete n)).Ensures (StatementOrdering n) := by
  unfold blockStatement
  refine (significantStatements_sequences hn h).bind fun ss hss => .pure ?_
  rintro _ ⟨⟩
  exact ⟨.of_sequences hn rfl hss, hss⟩

theorem ifStatement_ordering (hn : n.LaidOut s) (h : n.InnerOrdersStatements)
    (hkind : n.kind = .ifStatement) :
    (ifStatement n (inner .complete n)).Ensures (StatementOrdering n) := by
  unfold ifStatement
  dsimp only
  refine .bind .require fun condition hcondition => ?_
  obtain ⟨hcondition, -⟩ := Option.filter_eq_some_iff.mp hcondition
  obtain hcondition : n.branchCondition? = some condition := hcondition
  have hin : condition.node.Within n := ((finds_field? _).or (finds_find? _)) condition hcondition
  refine (resolve_furnishes (innerOrders hn) hin).bind fun e he => ?_
  have hthen : n.Finds (n.consequence? condition) := (finds_field? _).or (finds_find? _)
  refine (bodyOf_furnishes hn h hthen).bind fun ss hss => ?_
  -- The condition, the consequence and the alternative, which may be absent.
  have hmade (alternative : Option (List Statement))
      (halternative : n.Furnishes (found [n.alternative?])
        ((alternative.getD []).map .ofStatement)) :
      StatementOrdering n (some (.branch e ss alternative n.span)) := by
    refine statementOrdering_some (.of_parts hn rfl (.branch hkind hcondition) ?_) rfl
    show n.Furnishes _ ([.expression e] ++ ss.map .ofStatement ++
      (alternative.getD []).map .ofStatement)
    rw [List.append_assoc]
    exact he.found_cons (hss.found_cons halternative)
  have helse : n.Finds n.alternative? := by
    refine (finds_field? _).or fun p hp => ?_
    obtain ⟨stop, -, hp⟩ := Option.bind_eq_some_iff.mp hp
    exact finds_statementAfter? stop p hp
  split
  · next p hp =>
    obtain hp : n.alternative? = some p := hp
    have hbody : (partBody (inner .complete n) p).Ensures fun ss =>
        n.Furnishes (found [n.alternative?]) (ss.map .ofStatement) := by
      rw [hp]
      exact bodyOf_furnishes hn h (Finds.some (helse p hp))
    exact .bind (Ensures.map (R := fun alternative => n.Furnishes (found [n.alternative?])
      ((alternative.getD []).map .ofStatement)) hbody) fun alternative halternative =>
        .pure (hmade alternative halternative)
  · next hp =>
    obtain hp : n.alternative? = none := hp
    refine .pure (hmade none ?_)
    rw [hp]
    exact .nil

/-- The bindings of a loop: a single one that reaches over its variable, where the loop labels the
variable, or else those under its node. -/
theorem loopBindings_orders (hn : n.LaidOut s) :
    (loopBindings n).Ensures fun bs =>
      n.field? "iterator" = none ∧ n.Furnishes n.bindingNodes (bs.map .binding) ∨
      ∃ iterator b, n.field? "iterator" = some iterator ∧ bs = [b] ∧ n.Orders (.binding b) ∧
        b.span.encloses iterator.node.span = true := by
  unfold loopBindings
  split
  · next iterator range hiterator hrange =>
    have hin := finds_field? _ iterator hiterator
    have hin' := finds_field? _ range hrange
    have hleft := Span.merge_encloses_left iterator.node.span range.node.span
    refine (resolve_orders (innerOrders hn) hin').bind fun e he => .pure (.inr ?_)
    refine ⟨iterator, _, hiterator, rfl, ?_, hleft⟩
    refine ⟨Span.encloses_merge (hn.encloses hin) (hn.encloses hin'),
      (hn.mono hin).ordered.of_encloses hleft, View.forall_mem_preorder.mpr ⟨.inl ?_, ?_⟩⟩
    · exact View.forward_of_children_eq rfl
    · exact List.forall_mem_singleton.mpr (he.within hn hin').forward
  · exact .fail
  · exact .fail
  · next hiterator _ =>
    exact (bindings_furnish hn (innerOrders hn)).imp fun _ hbs => .inl ⟨hiterator, hbs⟩

theorem forStatement_ordering (hn : n.LaidOut s) (h : n.InnerOrdersStatements)
    (hkind : n.kind = .forStatement) :
    (forStatement n (inner .complete n)).Ensures (StatementOrdering n) := by
  unfold forStatement
  refine Ensures.of_result.bind fun bs hresult => .bind .require fun last hlast => ?_
  obtain ⟨settings, hresult⟩ := hresult
  have hbody : n.Finds (n.loopBody? last) := (finds_field? _).or (finds_statementAfter? _)
  have hparts := TakesParts.loop hkind hresult hlast
  refine (bodyOf_furnishes hn h hbody).bind fun ss hss => .pure ?_
  refine statementOrdering_some ?_ rfl
  rcases loopBindings_orders hn settings bs hresult with
    ⟨hiterator, hbs⟩ | ⟨iterator, b, hiterator, rfl, hb, hencloses⟩
  · rw [loopNodes, hiterator] at hparts
    exact .of_parts hn rfl hparts (hbs.append hss)
  · rw [loopNodes, hiterator] at hparts
    have hin := finds_field? _ iterator hiterator
    have hchildren : ∀ c ∈ [View.binding b] ++ ss.map .ofStatement, n.Orders c :=
      List.forall_mem_cons.mpr ⟨hb, hss.orders hn⟩
    refine .of_children hn rfl hchildren ?_
    by_cases horder : InOrder ([iterator.node] ++ found [n.loopBody? last])
    · -- The binding starts with its variable or before it, and the body behind the variable.
      obtain ⟨hfirst, horder⟩ := List.pairwise_cons.mp horder
      refine .inl (List.pairwise_cons.mpr ⟨fun w hw => ?_, (hss.sequences hn horder).startsBy⟩)
      obtain ⟨m, hm, hin', hordered⟩ := hss.exists_node hw
      refine Orders.startsBy_of_stop hn hin hin' ?_ hordered (hfirst m hm)
      exact Position.not_before_trans (Span.encloses_iff.mp hencloses).1 (hn.mono hin).ordered
    · exact .inr (.parts hparts horder)

theorem letStatement_ordering (hn : n.LaidOut s) (h : n.InnerOrdersStatements)
    (hkind : n.kind = .letStatement) :
    (letStatement n (inner .complete n)).Ensures (StatementOrdering n) := by
  have hbody : n.Finds n.letBody? := (finds_field? _).or (finds_statementAfter? _)
  unfold letStatement
  refine (bindings_furnish hn (innerOrders hn)).bind fun bs hbs => ?_
  refine (bodyOf_furnishes hn h hbody).bind fun ss hss => .pure ?_
  refine statementOrdering_some ?_ rfl
  exact .of_parts hn rfl (.letStatement hkind) (hbs.append hss)

theorem echoStatement_ordering (hn : n.LaidOut s) (h : n.InnerOrdersStatements)
    (hkind : n.kind = .echoStatement) :
    (echoStatement n (inner .complete n)).Ensures (StatementOrdering n) := by
  unfold echoStatement
  refine (argumentsOf_furnishes hn (innerOrders hn) finds_argumentList?).bind fun args hargs => ?_
  refine (singleBody_furnishes hn h (finds_trailing? _)).bind fun r hr => .pure ?_
  refine statementOrdering_some ?_ rfl
  exact .of_parts hn rfl (.echo hkind) (hargs.found_cons hr)

theorem inclusionStatement_ordering (hn : n.LaidOut s) :
    (inclusionStatement n).Ensures (StatementOrdering n) := by
  unfold inclusionStatement
  refine .bind_any fun path => .pure (statementOrdering_some ?_ rfl)
  exact .of_leaf hn rfl rfl

/-! ## §8 Modifiers and wrappers -/

theorem applyModifier_ordering (hn : n.LaidOut s) (h : n.InnerOrdersStatements) {modifier : Node}
    (hmodifier : modifier.Within n) {target : Option n.Part} (htarget : n.Finds target) :
    (applyModifier (inner .complete n) modifier target).Ensures (StatementOrdering n) := by
  unfold applyModifier
  split
  · exact .bind_any fun _ => .pure statementOrdering_none
  · next kind _ =>
    cases target with
    | none => exact .pure statementOrdering_none
    | some p =>
      have hp := htarget p rfl
      refine (orFault_part hn h hp).bind fun r hr => .pure ?_
      cases r with
      | none => exact statementOrdering_none
      | some child =>
        have hmade {span : Span} (hencloses : n.span.encloses span = true)
            (hordered : span.Ordered) : StatementOrdering n (some (.modified kind child span)) := by
          refine statementOrdering_some ⟨hencloses, hordered, ?_⟩ rfl
          refine View.forall_mem_preorder.mpr ⟨.inl (View.forward_of_children_eq rfl), ?_⟩
          exact List.forall_mem_singleton.mpr ((hr child rfl).view.within hn hp).forward
        have hleft := Span.merge_encloses_left modifier.span p.node.span
        dsimp only [Option.map_some]
        split
        · exact hmade (Span.encloses_merge (hn.encloses hmodifier) (hn.encloses hp))
            ((hn.mono hmodifier).ordered.of_encloses hleft)
        · exact hmade (hn.encloses hmodifier) (hn.mono hmodifier).ordered

theorem modifierStatement_ordering (hn : n.LaidOut s) (h : n.InnerOrdersStatements) :
    (modifierStatement n (inner .complete n)).Ensures (StatementOrdering n) :=
  applyModifier_ordering hn h (.refl n) ((finds_anyField? _).or (finds_findLast? _))

theorem expressionNode_ordering (hn : n.LaidOut s) :
    (expressionNode n).Ensures (StatementOrdering n) := by
  unfold expressionNode
  refine (expression_orders n hn).bind fun r hr => .pure ?_
  cases r with
  | none => exact statementOrdering_none
  | some e => exact statementOrdering_some (hr e rfl).toStatement rfl

theorem expressionStatement_ordering (hn : n.LaidOut s) (h : n.InnerOrdersStatements) :
    (expressionStatement n (inner .complete n)).Ensures (StatementOrdering n) := by
  unfold expressionStatement
  split
  · exact .pure statementOrdering_none
  · next p hp =>
    have hin := finds_head?_significant p hp
    split
    iterate 3
      · exact convertStatement_ordering hn h hin
    · refine (expressionNode_ordering (hn.mono hin)).imp fun r hr st hst => ?_
      exact (hr st hst).within hn hin

theorem plainWrapper_ordering (hn : n.LaidOut s) (h : n.InnerOrdersStatements) :
    (plainWrapper n (inner .complete n)).Ensures (StatementOrdering n) := by
  unfold plainWrapper
  split
  · next hinner =>
    exact convertStatement_ordering hn h (within_of_mem_parts (List.mem_of_find?_eq_some hinner))
  · split
    · next hcall =>
      refine convertStatement_ordering hn h (Finds.or ?_ ?_ _ hcall)
      · exact finds_descendant? n _
      · exact finds_descendant? n _
    · exact .pure statementOrdering_none

theorem statementWrapper_ordering (hn : n.LaidOut s) (h : n.InnerOrdersStatements) :
    (statementWrapper n (inner .complete n)).Ensures (StatementOrdering n) := by
  unfold statementWrapper
  split
  · next hsibling =>
    obtain ⟨hmodifier, htarget, -⟩ := siblingModifier?_sublist hsibling
    exact applyModifier_ordering hn h hmodifier htarget
  · split
    · next hinner => exact convertStatement_ordering hn h (finds_find? _ _ hinner)
    · exact plainWrapper_ordering hn h

/-! ## §9 The choice among them -/

theorem moduleCall_ordering (hn : n.LaidOut s) (h : n.InnerOrdersStatements)
    (hkind : n.kind = .moduleInstantiation) :
    (moduleCall n (inner .complete n)).Ensures (StatementOrdering n) := by
  unfold moduleCall
  split
  · next hcalled => exact assignStatement_ordering hn h (.inr ⟨hkind, hcalled⟩)
  · next hcalled => exact assertStatement_ordering hn h (.inr ⟨hkind, hcalled⟩)
  · exact callStatement_ordering hn h (by simp [hkind, Kind.isCall])

theorem commonStep_ordering (hn : n.LaidOut s) (h : n.InnerOrdersStatements) :
    (commonStep .complete n (inner .complete n)).Ensures (StatementOrdering n) := by
  unfold commonStep
  split
  · next hkind _ => exact moduleCall_ordering hn h hkind
  · next hdialect => cases hdialect
  iterate 2
    · next hkind => exact callStatement_ordering hn h (by simp [hkind, Kind.isCall])
  · exact statementWrapper_ordering hn h
  · next hdialect => cases hdialect
  · exact expressionStatement_ordering hn h
  iterate 3
    · exact expressionNode_ordering hn
  · next hkind _ => exact moduleDefinition_ordering hn h hkind
  · next hkind _ => exact functionDefinition_ordering hn hkind
  · next hkind _ => exact ifStatement_ordering hn h hkind
  · next hkind _ => exact forStatement_ordering hn h hkind
  · exact assignmentStatement_ordering hn
  · exact blockStatement_ordering hn h
  · exact .pure statementOrdering_none

theorem statementStep_ordering (hn : n.LaidOut s) (h : n.InnerOrdersStatements) :
    (statementStep .complete n (inner .complete n)).Ensures (StatementOrdering n) := by
  unfold statementStep
  split
  · next hkind _ => exact assignStatement_ordering hn h (.inl hkind)
  · next hkind _ => exact assertStatement_ordering hn h (.inl hkind)
  · next hkind _ => exact echoStatement_ordering hn h hkind
  iterate 2
    · exact inclusionStatement_ordering hn
  · next hkind _ => exact letStatement_ordering hn h hkind
  · exact modifierStatement_ordering hn h
  · exact commonStep_ordering hn h

/-- Whatever a node stands for is ordered by the node. -/
theorem statement_orders (n : Node) (hn : n.LaidOut s) :
    (statement .complete n).Ensures (StatementOrdering n) := by
  rw [statement_eq]
  exact statementStep_ordering hn fun m hm _ => statement_orders m (hn.mono hm)
termination_by sizeOf n

/-! ## §10 Programs -/

theorem rootStatements_orders (root : Node) (hroot : root.LaidOut s) :
    (rootStatements root).Ensures fun ss => ∀ st ∈ ss, root.Orders (.ofStatement st) := by
  have hinner : root.InnerOrdersStatements := fun m hm _ => statement_orders m (hroot.mono hm)
  unfold rootStatements
  split
  · refine (significantStatements_sequences hroot hinner).imp fun ss hss => ?_
    exact List.forall_mem_map.mp hss.orders
  · refine (orFault_ordering hroot (statement_orders root hroot)).bind fun r hr => .pure ?_
    exact fun st hst => (hr st (Option.mem_toList.mp hst)).view

/-- The views directly inside a view of a program start in the order in which they are listed, at
any depth, unless the view is made of a node whose parts stand in another order than their views are
listed in. -/
theorem convert_children_forward {root : Node} (h : root.LaidOut s) (settings : Settings) :
    ∀ v ∈ (convert settings root).program.preorder, v.Forward ∨
      ∃ m : Node, m.Within root ∧ m.Displaces ∧ v.span = m.span := by
  intro v hv
  obtain ⟨w, hw, hv⟩ := List.mem_flatMap.mp hv
  obtain ⟨st, hst, rfl⟩ := List.mem_map.mp hw
  have hprogram : (convert settings root).program =
      ((rootStatements root).result settings).toOption.getD [] := rfl
  rw [hprogram] at hst
  cases hresult : (rootStatements root).result settings with
  | error f => simp [hresult, Except.toOption] at hst
  | ok ss =>
    rw [hresult] at hst
    exact (rootStatements_orders root h settings ss hresult st hst).forward v hv

/-! ## §11 A cube with two arguments -/

/-- The name of an argument. -/
def argumentName (s : Source) (start stop : Nat) : Node :=
  (s.node "identifier" start stop true).labelled "name"

/-- The value of an argument whose name stops at an offset. -/
def argumentValue (s : Source) (stop : Nat) : Node :=
  (s.node "identifier" (stop + 1) (stop + 2) true).labelled "value"

/-- An argument with a name and a value of one byte. -/
def namedArgumentAt (s : Source) (start stop : Nat) : Node :=
  ((s.node "named_argument" start (stop + 2) true).push (argumentName s start stop)).push
    (argumentValue s stop)

/-- The arguments of a cube, where the name of the first one stops at an offset. -/
def cubeArgumentsOf (s : Source) (stop : Nat) : Node :=
  (((s.node "arguments" 4 21 true).push (namedArgumentAt s 5 stop)).push
    (namedArgumentAt s (stop + 3) 18)).labelled "arguments"

/-- A cube with those arguments. -/
def cubeCallOf (s : Source) (stop : Nat) : Node :=
  ((s.node "module_instantiation" 0 21 true).push
    ((s.node "identifier" 0 4 true).labelled "name")).push (cubeArgumentsOf s stop)

/-- A file with that cube. -/
def cubeFile (s : Source) (stop : Nat) : Node :=
  s.root.push (cubeCallOf s stop)

/-- The arguments in the order of the parameters. -/
def sizeFirst : Source :=
  .ofText "cube(size=a,center=b);"

/-- The arguments in the other order. -/
def centerFirst : Source :=
  .ofText "cube(center=a,size=b);"

theorem cubeFile_laidOut {s : Source} {stop : Nat}
    (h : s = sizeFirst ∧ stop = 9 ∨ s = centerFirst ∧ stop = 11) : (cubeFile s stop).LaidOut s := by
  have hnode (tag : String) (start stop : Nat) : (s.node tag start stop true).LaidOut s :=
    laidOut_node s tag start stop true
  have hargument (start stop : Nat) (hplace : start ≤ stop ∧ stop + 2 ≤ s.size) :
      (namedArgumentAt s start stop).LaidOut s := by
    refine .push (.push (hnode _ _ _) ((hnode _ _ _).labelled _) ?_ ?_ ?_ ?_)
      ((hnode _ _ _).labelled _) ?_ ?_ ?_ ?_
    all_goals simp [Node.push, Node.labelled, Source.node, startByte, stopByte, Source.position,
      argumentName, argumentValue]
    all_goals omega
  have hfirst : (namedArgumentAt s 5 stop).LaidOut s :=
    hargument _ _ (by rcases h with ⟨rfl, rfl⟩ | ⟨rfl, rfl⟩ <;> decide)
  have hsecond : (namedArgumentAt s (stop + 3) 18).LaidOut s :=
    hargument _ _ (by rcases h with ⟨rfl, rfl⟩ | ⟨rfl, rfl⟩ <;> decide)
  refine .push (hnode _ _ _) (.push (.push (hnode _ _ _) ((hnode _ _ _).labelled _) ?_ ?_ ?_ ?_)
    (.labelled (.push (.push (hnode _ _ _) hfirst ?_ ?_ ?_ ?_) hsecond ?_ ?_ ?_ ?_) _)
    ?_ ?_ ?_ ?_) ?_ ?_ ?_ ?_
  all_goals rcases h with ⟨rfl, rfl⟩ | ⟨rfl, rfl⟩ <;> decide

/-- What such an argument is converted to. -/
def cubeArgument (s : Source) (start stop : Nat) : Argument :=
  ⟨some (argumentName s start stop).trimmed,
    .expression (.identifier (argumentValue s stop).trimmed (argumentValue s stop).span),
    (namedArgumentAt s start stop).span⟩

theorem arguesAs_cubeArgument {s : Source} {start stop : Nat} (settings : Settings)
    (htext : (argumentName s start stop).hasText = true) :
    ArguesAs settings (namedArgumentAt s start stop) (cubeArgument s start stop) := by
  have hplain : plainValue (argumentValue s stop) = failure := by
    rw [plainValue]
    rfl
  have hvalue : expression (argumentValue s stop) =
      pure (some (.identifier (argumentValue s stop).trimmed (argumentValue s stop).span)) := by
    rw [expression_eq]
    rfl
  have hname : ((namedArgumentAt s start stop).field? "name").filter (·.node.hasText) =
      some ⟨argumentName s start stop, sizeOf_lt_of_mem_children (.head _)⟩ := by
    exact Option.filter_eq_some_iff.mpr ⟨rfl, htext⟩
  unfold ArguesAs argument
  rw [hname]
  show ((Conversion.ofExcept (plainValue (argumentValue s stop)).run >>= _) >>= _).result settings
    = _
  rw [hplain]
  show ((expression (argumentValue s stop) >>= _) >>= _).result settings = _
  rw [hvalue]
  rfl

theorem result_cubeArgumentsOf {s : Source} {stop : Nat} (settings : Settings)
    (hfirst : (argumentName s 5 stop).hasText = true)
    (hsecond : (argumentName s (stop + 3) 18).hasText = true) :
    (arguments (cubeArgumentsOf s stop) (expressions _)).result settings =
      .ok [cubeArgument s 5 stop, cubeArgument s (stop + 3) 18] := by
  refine (arguments_ok_iff ?_).mpr ?_
  · exact List.forall_mem_cons.mpr ⟨rfl, List.forall_mem_singleton.mpr rfl⟩
  · exact .cons (arguesAs_cubeArgument settings hfirst)
      (.cons (arguesAs_cubeArgument settings hsecond) .nil)

theorem program_centerFirst : (convert {} (cubeFile centerFirst 11)).program =
    [.primitive (.cube (cubeArgument centerFirst 14 18).value (cubeArgument centerFirst 5 11).value)
      [] (cubeCallOf centerFirst 11).span] := by
  have hcall : (statement .complete (cubeCallOf centerFirst 11)).result {} =
      .ok (some (.primitive (.cube (cubeArgument centerFirst 14 18).value
        (cubeArgument centerFirst 5 11).value) [] (cubeCallOf centerFirst 11).span)) := by
    rw [statement_eq]
    show (arguments (cubeArgumentsOf centerFirst 11) (expressions _) >>= _).result {} = _
    rw [result_bind, result_cubeArgumentsOf {} (by decide) (by decide)]
    rfl
  have hnodes : (cubeFile centerFirst 11).significant.map Part.node = [cubeCallOf centerFirst 11] :=
    rfl
  rw [program_eq_filterMap rfl, hnodes, List.filterMap_cons_some (by rw [outcome, hcall])]
  rfl

/-- No node of the tree displaces its parts. -/
def KeepsOrder (root : Node) : Prop :=
  ∀ m : Node, m.Within root → ¬m.Displaces

theorem KeepsOrder.of_children (hself : ¬n.Displaces) (hnamed : n.named = n.children)
    (hchildren : ∀ c ∈ n.children, KeepsOrder c) : KeepsOrder n := by
  refine forall_within hself fun c hc => ?_
  rw [Holds, hnamed, or_self] at hc
  exact hchildren c hc

theorem KeepsOrder.of_kind (hkind : n.kind.takesParts = false) (hnamed : n.named = n.children)
    (hchildren : ∀ c ∈ n.children, KeepsOrder c) : KeepsOrder n :=
  .of_children (fun h => by simp [h.takesParts] at hkind) hnamed hchildren

theorem keepsOrder_namedArgumentAt (s : Source) (start stop : Nat) :
    KeepsOrder (namedArgumentAt s start stop) := by
  refine .of_kind rfl rfl (List.forall_mem_cons.mpr ⟨?_, List.forall_mem_singleton.mpr ?_⟩)
  · exact .of_kind rfl rfl (List.forall_mem_nil _)
  · exact .of_kind rfl rfl (List.forall_mem_nil _)

theorem calls_sizeFirst {name : String} {args : List Argument}
    (h : (cubeCallOf sizeFirst 9).Calls name args) :
    name = "cube" ∧ args = [cubeArgument sizeFirst 5 9, cubeArgument sizeFirst 12 18] := by
  obtain ⟨callee, hcallee, rfl⟩ := h.exists_callee
  obtain ⟨settings, hargs⟩ := h.exists_settings
  obtain rfl := Option.some.inj hcallee
  refine ⟨rfl, ?_⟩
  have hresult : (arguments (cubeArgumentsOf sizeFirst 9) (expressions _)).result settings =
      .ok args := hargs
  rw [result_cubeArgumentsOf settings (by decide) (by decide)] at hresult
  exact (Except.ok.inj hresult).symm

theorem not_displaces_sizeFirst : ¬(cubeCallOf sizeFirst 9).Displaces := by
  have hcalled : (cubeCallOf sizeFirst 9).calledAs? = some "cube" := rfl
  have hkind : (cubeCallOf sizeFirst 9).kind = .moduleInstantiation := rfl
  rintro (⟨hms, horder⟩ | ⟨hcall, horder⟩ | ⟨hcall, hshape, hd, ha, horder⟩)
  · cases hms with
    | call => exact horder (List.pairwise_singleton _ _)
    | _ => simp_all [IsAssertion]
  · obtain ⟨rfl, rfl⟩ := calls_sizeFirst hcall
    exact horder (List.pairwise_pair.mpr (.inr (by decide)))
  · obtain ⟨rfl, rfl⟩ := calls_sizeFirst hcall
    cases ha

theorem keepsOrder_sizeFirst : KeepsOrder (cubeFile sizeFirst 9) := by
  refine .of_kind rfl rfl (List.forall_mem_singleton.mpr ?_)
  refine .of_children not_displaces_sizeFirst rfl
    (List.forall_mem_cons.mpr ⟨?_, List.forall_mem_singleton.mpr ?_⟩)
  · exact .of_kind rfl rfl (List.forall_mem_nil _)
  · refine .of_kind rfl rfl (List.forall_mem_cons.mpr ⟨?_, List.forall_mem_singleton.mpr ?_⟩)
    · exact keepsOrder_namedArgumentAt _ _ _
    · exact keepsOrder_namedArgumentAt _ _ _

/-- Where the arguments are written in the order of the parameters, every view is in order. -/
theorem convert_children_forward_sizeFirst :
    (cubeFile sizeFirst 9).LaidOut sizeFirst ∧
      ∀ v ∈ (convert {} (cubeFile sizeFirst 9)).program.preorder, v.Forward := by
  have hlaid : (cubeFile sizeFirst 9).LaidOut sizeFirst := cubeFile_laidOut (.inl ⟨rfl, rfl⟩)
  refine ⟨hlaid, fun v hv => ?_⟩
  rcases convert_children_forward hlaid {} v hv with hforward | ⟨m, hm, hdisplaces, -⟩
  · exact hforward
  · exact absurd hdisplaces (keepsOrder_sizeFirst m hm)

/-- Where they are written in the other order, the view of the cube lists the size first, although
the center stands in front of it. -/
theorem exists_not_forward_centerFirst :
    (cubeFile centerFirst 11).LaidOut centerFirst ∧
      ∃ v ∈ (convert {} (cubeFile centerFirst 11)).program.preorder, ¬v.Forward := by
  refine ⟨cubeFile_laidOut (.inr ⟨rfl, rfl⟩), ?_⟩
  rw [program_centerFirst]
  refine ⟨_, List.mem_flatMap.mpr ⟨_, .head _, View.self_mem_preorder _⟩, fun hforward => ?_⟩
  have hpair := List.pairwise_pair.mp hforward
  exact absurd hpair (by decide)

end Convert

end Scad
