import Scad.Proofs.SourceOrder.Parts

/-!
# Expressions in the Order of the Source

The arguments of a call, the elements of a vector and the bindings of a list are listed as they
stand, and so are the parts of a comprehension whose body comes last.  The parts of every other
construct are in order unless its node displaces them.

* `Node.InnerOrders` — what is asked of the nodes inside a node.
* `expression_orders` — whatever an expression converts to is ordered by its node.
-/

namespace Scad

open Text (Source)

/-! ## §1 What is asked of the nodes inside -/

namespace Node

/-- A node in the subtree is no larger than the root of it. -/
theorem Within.sizeOf_le {m n : Node} (h : m.Within n) : sizeOf m ≤ sizeOf n := by
  induction h with
  | refl => exact Nat.le_refl _
  | step hc _ ih =>
    rcases hc with hc | hc
    · exact Nat.le_trans ih (Nat.le_of_lt (sizeOf_lt_of_mem_children hc))
    · exact Nat.le_trans ih (Nat.le_of_lt (sizeOf_lt_of_mem_named hc))

/-- Every node strictly inside orders the expression that it converts to. -/
def InnerOrders (n : Node) : Prop :=
  ∀ m : Node, m.Within n → sizeOf m < sizeOf n →
    (Convert.expression m).Ensures fun r => ∀ e, r = some e → m.Orders (.expression e)

theorem InnerOrders.within {m n : Node} (h : n.InnerOrders) (hm : m.Within n) : m.InnerOrders :=
  fun l hl hsize => h l (hl.trans hm) (Nat.lt_of_lt_of_le hsize hm.sizeOf_le)

end Node

namespace Convert

open Conversion Node

variable {s : Source} {n : Node}

/-! ## §2 Parts in their roles -/

/-- A part is ordered by its own node, whatever role it plays. -/
theorem resolve_orders (h : n.InnerOrders) {role : Role} {p : n.Part} (hp : p.node.Within n) :
    (resolve (expressions n) role p).Ensures fun e => p.node.Orders (.expression e) := by
  have hconverted : (expressions n p).Ensures fun r => ∀ e, r = some e →
      p.node.Orders (.expression e) := h p.node hp p.inside
  unfold resolve
  dsimp only
  split
  · exact hconverted.blame.bind fun r hr => Ensures.require.imp hr
  · exact hconverted.bind fun r hr => Ensures.require.imp hr

/-- Seen from the whole, the part makes one view of one node. -/
theorem resolve_furnishes (h : n.InnerOrders) {role : Role} {p : n.Part} (hp : p.node.Within n) :
    (resolve (expressions n) role p).Ensures fun e =>
      n.Furnishes (found [some p]) [.expression e] :=
  (resolve_orders h hp).imp fun _ he => .found_some hp he

/-- A part that may be left open makes no view of no node, where it is. -/
theorem resolve?_furnishes (h : n.InnerOrders) {role : Role} {x : Option n.Part}
    (hx : n.Finds x) :
    (resolve? (expressions n) role x).Ensures fun r =>
      n.Furnishes (found [x]) (View.ofExpression? r) := by
  cases x with
  | none => exact .pure .nil
  | some p => exact .map (resolve_furnishes h (hx p rfl))

/-! ## §3 Arguments -/

/-- An argument has at most one view inside it. -/
theorem forward_argument (a : Argument) : (View.argument a).Forward := by
  show (View.ofValue a.value).Pairwise View.StartsBy
  cases a.value <;> simp [View.ofValue, Value.expression?]

theorem argument_orders (hn : n.LaidOut s) (h : n.InnerOrders) :
    (argument n (expressions n)).Ensures fun a => n.Orders (.argument a) := by
  unfold argument
  dsimp only
  refine .bind .require fun p hp => ?_
  have hp : p.node.Within n :=
    Finds.filter ((finds_field? _).or (finds_findLast? _)) p hp
  refine (value_ensures (h p.node hp p.inside)).bind fun v hv => .pure ?_
  exact .of_children hn rfl (fun w hw => (hv w hw).within hn hp) (.inl (forward_argument _))

/-- A list that is collected child by child is in the order of the children. -/
theorem collected_sequences {α : Type} (view : α → View) {f : n.Part → Conversion (List α)}
    (hn : n.LaidOut s)
    (h : ∀ c ∈ n.significant, (f c).Ensures fun as => c.node.Sequences (as.map view)) :
    (do return (← n.significant.mapM f).flatten : Conversion (List α)).Ensures fun as =>
      n.Sequences (as.map view) := by
  refine (Ensures.mapM h).bind fun groups hgroups => .pure ?_
  rw [List.map_flatten]
  have hrow : n.Furnishes (n.significant.map Part.node) (groups.map (List.map view)).flatten := by
    refine .of_groups (List.forall_mem_map.mpr fun _ => within_of_mem_significant) ?_
    exact List.forall₂_map_left_iff.mpr (List.forall₂_map_right_iff.mpr hgroups)
  exact hrow.sequences hn hn.significant_inOrder

/-- Arguments are in the order in which they are written, lists inside lists included. -/
theorem arguments_sequences (n : Node) (hn : n.LaidOut s) (h : n.InnerOrders) :
    (arguments n (expressions n)).Ensures fun as => n.Sequences (as.map .argument) := by
  rw [arguments]
  refine collected_sequences .argument hn fun c hc => ?_
  have hc := within_of_mem_significant hc
  have hsingle : (do return [← argument c.node (expressions c.node)] :
      Conversion (List Argument)).Ensures fun as => c.node.Sequences (as.map .argument) :=
    (argument_orders (hn.mono hc) (h.within hc)).bind fun a ha => .pure (.singleton ha)
  split
  -- A list inside the list.
  · exact arguments_sequences c.node (hn.mono hc) (h.within hc)
  -- Entries of the three kinds.
  · exact hsingle
  · exact hsingle
  · exact hsingle
  -- A bare value, or something that is no argument.
  · split
    · refine (value_ensures (h c.node hc c.inside)).bind fun v hv => .pure (.singleton ?_)
      exact .of_children (hn.mono hc) rfl hv (.inl (forward_argument _))
    · exact .pure .nil
termination_by sizeOf n
decreasing_by exact Part.inside _

theorem argumentsOf_furnishes (hn : n.LaidOut s) (h : n.InnerOrders) {x : Option n.Part}
    (hx : n.Finds x) :
    (argumentsOf (expressions n) x).Ensures fun as =>
      n.Furnishes (found [x]) (as.map .argument) := by
  cases x with
  | none => exact .pure .nil
  | some p =>
    have hp := hx p rfl
    refine (arguments_sequences p.node (hn.mono hp) (h.within hp)).imp fun as has => ?_
    exact .single hp has

/-! ## §4 Bindings -/

/-- A binding has one view inside it, that of its value. -/
theorem binding_orders (hn : n.LaidOut s) (h : n.InnerOrders) :
    (binding n (expressions n)).Ensures fun b => n.Orders (.binding b) := by
  unfold binding
  dsimp only
  refine .bind_any fun name => .bind .require fun p hp => ?_
  have hp : p.node.Within n :=
    Finds.filter ((finds_field? _).or (finds_findLast? _)) p hp
  refine .bind (h p.node hp p.inside) fun r hr => (Ensures.require.imp hr).bind
    fun bound hbound => .pure ?_
  exact .of_single hn rfl rfl (hbound.within hn hp)

/-- What nodes in the subtree bind, one binding for each of them. -/
theorem furnishes_of_bindsAs (hn : n.LaidOut s) (h : n.InnerOrders) {ms : List Node}
    {settings : Settings} {bs : List Binding} (hms : ∀ m ∈ ms, m.Within n)
    (hbs : List.Forall₂ (BindsAs settings) ms bs) : n.Furnishes ms (bs.map .binding) := by
  refine .of_forall₂ hbs fun m hm b hb => ⟨hms m hm, ?_⟩
  exact binding_orders (hn.mono (hms m hm)) (h.within (hms m hm)) settings b hb.2

/-- There is one binding for each node that binds, in the order of these nodes. -/
theorem bindings_furnish (hn : n.LaidOut s) (h : n.InnerOrders) :
    (bindings n (expressions n)).Ensures fun bs =>
      n.Furnishes n.bindingNodes (bs.map .binding) :=
  fun _ _ hbs =>
    furnishes_of_bindsAs hn h (fun _ => within_of_mem_bindingNodes n) ((bindings_ok_iff n).mp hbs)

/-! ## §5 Operators -/

/-- Whatever the conversion answers with is ordered by the node. -/
def Ordering (n : Node) (r : Option Expression) : Prop :=
  ∀ e, r = some e → n.Orders (.expression e)

theorem ordering_none : Ordering n none :=
  fun _ h => nomatch h

theorem ordering_some {e : Expression} (h : n.Orders (.expression e)) : Ordering n (some e) := by
  rintro _ ⟨⟩
  exact h

theorem convert_ordering (hn : n.LaidOut s) (h : n.InnerOrders) {p : n.Part}
    (hp : p.node.Within n) : (expressions n p).Ensures (Ordering n) :=
  (h p.node hp p.inside).imp fun _ hr e he => (hr e he).within hn hp

/-- An empty rung adds nothing, so it orders what its only child does. -/
theorem throughRung_ordering (hn : n.LaidOut s) (h : n.InnerOrders) {labels : List String}
    {accepts : Expression → Bool} {p : n.Part} (hp : n.onlyChild? labels = some p) :
    (throughRung (expressions n p) accepts).Ensures (Ordering n) :=
  throughRung_ensures ordering_none (convert_ordering hn h (finds_onlyChild? labels p hp))

/-- The left operand is listed first, so an operation is in order where it starts first. -/
theorem binary_ordering (hn : n.LaidOut s) (h : n.InnerOrders)
    (hkind : n.kind = .binaryExpression) :
    (binary n (expressions n)).Ensures (Ordering n) := by
  unfold binary
  split
  · next hp => exact throughRung_ordering hn h hp
  refine .bind .require fun left hleft => .bind .require fun right hright => ?_
  refine .bind_any fun token => .bind_any fun operator => ?_
  have hl := (takes_leftOperand? left hleft).within
  have hr := (takes_rightOperand? right hright).within
  refine (resolve_furnishes h hl).bind fun a ha => ?_
  refine (resolve_furnishes h hr).bind fun b hb => .pure (ordering_some ?_)
  -- Both operands are looked up as the node takes them for its parts.
  have hparts := TakesParts.binary hkind
  rw [show n.leftOperand? = some left from hleft,
    show n.rightOperand? = some right from hright] at hparts
  exact .of_parts hn rfl hparts (ha.found_cons hb)

theorem unary_ordering (hn : n.LaidOut s) (h : n.InnerOrders) :
    (unary n (expressions n)).Ensures (Ordering n) := by
  unfold unary
  split
  · next hp => exact throughRung_ordering hn h hp
  refine .bind_any fun token => .bind_any fun operator => .bind .require fun p hp => ?_
  have hp : p.node.Within n := ((finds_field? _).or finds_getLast?_significant) p hp
  refine (resolve_orders h hp).bind fun a ha => .pure (ordering_some ?_)
  exact .of_single hn rfl rfl (ha.within hn hp)

theorem conditional_ordering (hn : n.LaidOut s) (h : n.InnerOrders)
    (hkind : n.kind = .conditionalExpression) :
    (conditional n (expressions n)).Ensures (Ordering n) := by
  unfold conditional
  split
  · next hp => exact throughRung_ordering hn h hp
  refine .bind .require fun p hp => .bind .require fun q hq => .bind .require fun r hr => ?_
  refine (resolve_furnishes h (takes_conditionalPart? _ _ p hp).within).bind fun a ha => ?_
  refine (resolve_furnishes h (takes_conditionalPart? _ _ q hq).within).bind fun b hb => ?_
  refine (resolve_furnishes h (takes_conditionalPart? _ _ r hr).within).bind fun c hc => ?_
  -- The parts are listed in the order in which the lookups name them.
  have hparts := TakesParts.conditional hkind
  rw [show conditionalPart? n "condition" 0 = some p from hp,
    show conditionalPart? n "consequence" 1 = some q from hq,
    show conditionalPart? n "alternative" 2 = some r from hr] at hparts
  exact .pure (ordering_some (.of_parts hn rfl hparts (ha.found_cons (hb.found_cons hc))))

/-! ## §6 Calls and access -/

/-- Of a call only the arguments are views, and they are in order. -/
theorem call_ordering (hn : n.LaidOut s) (h : n.InnerOrders) :
    (call n (expressions n)).Ensures (Ordering n) := by
  unfold call
  refine .bind_any fun callee => ?_
  refine (argumentsOf_furnishes hn h ((finds_field? _).or (finds_ofKind? _))).bind fun as has => ?_
  exact .pure (ordering_some (.of_sequences hn rfl (has.sequences_found hn)))

theorem index_ordering (hn : n.LaidOut s) (h : n.InnerOrders) (hkind : n.kind = .indexExpression) :
    (index n (expressions n)).Ensures (Ordering n) := by
  obtain ⟨hfirst, hsecond⟩ := finds_accessParts (n := n) ["array", "value"] ["index"]
  have hparts := TakesParts.index hkind
  unfold index
  refine .bind .require fun p hp => .bind .require fun q hq => ?_
  obtain hp : (accessParts n ["array", "value"] ["index"]).1 = some p := hp
  have hq : (accessParts n ["array", "value"] ["index"]).2 = some q :=
    (Option.filter_eq_some_iff.mp hq).1
  refine (resolve_furnishes h (hfirst p hp)).bind fun a ha => ?_
  refine (resolve_furnishes h (hsecond q hq)).bind fun b hb => .pure (ordering_some ?_)
  rw [hp, hq] at hparts
  exact .of_parts hn rfl hparts (ha.found_cons hb)

/-- The property is a name, so the object is the only view. -/
theorem member_ordering (hn : n.LaidOut s) (h : n.InnerOrders) :
    (member n (expressions n)).Ensures (Ordering n) := by
  obtain ⟨hfirst, -⟩ := finds_accessParts (n := n) ["object", "value"] ["property", "index"]
  unfold member
  refine .bind .require fun p hp => .bind_any fun property => ?_
  refine (resolve_orders h (hfirst p hp)).bind fun a ha => .pure (ordering_some ?_)
  exact .of_single hn rfl rfl (ha.within hn (hfirst p hp))

/-! ## §7 Collections -/

theorem vector_ordering (hn : n.LaidOut s) (h : n.InnerOrders) :
    (vector n (expressions n)).Ensures (Ordering n) := by
  unfold vector
  refine (Ensures.mapM fun p hp => resolve_orders h (within_of_mem_significant hp)).bind
    fun es hes => .pure (ordering_some (.of_sequences hn rfl ?_))
  -- The elements are the children, one by one.
  have hfurnishes : n.Furnishes (n.significant.map Part.node) (es.map .expression) := by
    refine .of_forall₂ (List.forall₂_map_left_iff.mpr hes) fun m hm e he => ⟨?_, he⟩
    obtain ⟨p, hp, rfl⟩ := List.mem_map.mp hm
    exact within_of_mem_significant hp
  exact hfurnishes.sequences hn hn.significant_inOrder

/-- Labelled or counted, the parts of a range are in its subtree. -/
theorem finds_rangeParts :
    (rangeParts n).Ensures fun parts =>
      n.Finds parts.1 ∧ n.Finds parts.2.1 ∧ n.Finds parts.2.2 := by
  have hremaining : ∀ p ∈ n.significant.filter (!·.node.isPlaceholder), p.node.Within n :=
    fun p hp => within_of_mem_significant (List.mem_filter.mp hp).1
  unfold rangeParts
  split
  · exact .pure ⟨(finds_field? _).filter, (finds_field? _).filter, (finds_field? _).filter⟩
  -- By the number of children: two are the ends, three have the step between them.
  · generalize n.significant.filter (!·.node.isPlaceholder) = remaining at hremaining ⊢
    split
    · exact .pure ⟨.none, .none, .none⟩
    · exact .pure ⟨.some (hremaining _ (by simp)), .none, .none⟩
    · exact .pure ⟨.some (hremaining _ (by simp)), .none, .some (hremaining _ (by simp))⟩
    · exact .pure ⟨.some (hremaining _ (by simp)), .some (hremaining _ (by simp)),
        .some (hremaining _ (by simp))⟩
    · exact .fail

theorem range_orders (hn : n.LaidOut s) (h : n.InnerOrders) (hkind : n.kind = .rangeExpression) :
    (range n (expressions n)).Ensures fun e => n.Orders (.expression e) := by
  unfold range
  dsimp only
  split
  · exact .fail_bind
  refine .bind Ensures.of_result fun parts hparts => ?_
  obtain ⟨settings, hparts⟩ := hparts
  obtain ⟨hstart, hstep, hstop⟩ := finds_rangeParts settings parts hparts
  obtain ⟨start?, step?, stop?⟩ := parts
  refine .bind .require fun p hp => .bind .require fun q hq => ?_
  obtain rfl : start? = some p := hp
  obtain rfl : stop? = some q := hq
  refine (resolve_furnishes h (hstart p rfl)).bind fun a ha => ?_
  refine (resolve?_furnishes h hstep).bind fun step hstep => ?_
  refine (resolve_furnishes h (hstop q rfl)).bind fun b hb => .pure ?_
  refine .of_parts hn rfl (.range hkind hparts) ?_
  -- The step is listed between the ends, and makes no view where there is none.
  show n.Furnishes _ ([.expression a] ++ View.ofExpression? step ++ [.expression b])
  rw [List.append_assoc]
  exact ha.found_cons (hstep.found_cons hb)

/-- The bindings are listed in front of the body, wherever the body stands. -/
theorem letIn_ordering (hn : n.LaidOut s) (h : n.InnerOrders) (hkind : n.kind = .letExpression) :
    (letIn n (expressions n)).Ensures (Ordering n) := by
  unfold letIn
  refine .bind .require fun p hp => (bindings_furnish hn h).bind fun bound hbound => ?_
  obtain hp : n.letInBody? = some p := hp
  have hin : p.node.Within n := ((finds_field? _).or (finds_findLast? _)) p hp
  refine (resolve_furnishes h hin).bind fun body hbody => .pure (ordering_some ?_)
  rw [← hp] at hbody
  exact .of_parts hn rfl (.letIn hkind) (hbound.append hbody)

/-! ## §8 Comprehensions -/

/-- Of a clause only what the loop runs through is a view. -/
theorem forClause_orders (hn : n.LaidOut s) (h : n.InnerOrders) :
    (forClause n (expressions n)).Ensures fun r => n.Orders (.expression r.2) := by
  have hinner : n.Finds ((n.find? fun c => c.kind == .assignment || c.kind == .forBinding).bind
      fun b => (b.node.field? "value").map b.within) :=
    (finds_find? _).bind_within fun _ => finds_field? _
  unfold forClause
  refine .bind_any fun iterator => .bind .require fun p hp => ?_
  have hp : p.node.Within n := ((finds_field? _).or hinner).filter p hp
  exact (resolve_orders h hp).bind fun e he => .pure (he.within hn hp)

theorem leadingBindings_furnish (hn : n.LaidOut s) (h : n.InnerOrders) {clause : Option n.Part}
    (hclause : n.Finds clause) :
    (leadingBindings (expressions n) clause).Ensures fun bs =>
      n.Furnishes (found [clause]) (bs.map .binding) := by
  cases clause with
  | none => exact .pure .nil
  | some p =>
    have hp := hclause p rfl
    have hbindings := bindings_furnish (hn.mono hp) (h.within hp)
    refine .bind_any fun _ => (Ensures.blame hbindings).imp fun bs hbs => ?_
    exact .single hp (hbs.sequences (hn.mono hp) (LaidOut.bindingNodes_inOrder _ (hn.mono hp)))

/-- What stands behind the loop is the condition, where there is one, and the body. -/
theorem conditionAndBody_furnishes (h : n.InnerOrders) {rest : List n.Part}
    (hrest : ∀ p ∈ rest, p.node.Within n) :
    (conditionAndBody (expressions n) rest).Ensures fun r =>
      n.Furnishes (rest.map Part.node) (View.ofExpression? r.1 ++ [.expression r.2]) := by
  refine (conditionAndBody_ensures (Q := fun p v => p.node.Orders v) fun _ p hp =>
    resolve_orders h (hrest p hp)).imp ?_
  rintro ⟨condition, body⟩ hviews
  have hfurnishes : n.Furnishes (rest.map Part.node)
      ((View.ofExpression? condition ++ [View.expression body]).map id) := by
    refine .of_forall₂ (List.forall₂_map_left_iff.mpr hviews) fun m hm v hv => ⟨?_, hv⟩
    obtain ⟨p, hp, rfl⟩ := List.mem_map.mp hm
    exact hrest p hp
  rw [List.map_id] at hfurnishes
  exact hfurnishes

/-- With neither clause in front, it is the body that is in front. -/
theorem startsWithBody_of_heads
    (hlet : n.significant.head?.filter (·.node.kind == .letClause) = none)
    (hfor : n.significant.head?.filter (·.node.kind == .forClause) = none) :
    n.StartsWithBody := by
  intro c hc
  simp only [hc, Option.filter_some] at hlet hfor
  grind

/-- A comprehension with the body last is in order, and a node that it cannot be read from starts
with neither clause. -/
theorem bodyLast_ordering (hn : n.LaidOut s) (h : n.InnerOrders) :
    (bodyLast n (expressions n)).Ensures fun r =>
      Ordering n r ∧ (r = none → n.StartsWithBody) := by
  have hcut := cut_head (·.node.kind == .letClause) n.significant
  have horder := hn.significant_inOrder
  have hwithin : ∀ p ∈ n.significant, p.node.Within n := fun _ => within_of_mem_significant
  -- Without a `let` clause in front, what is left for the loop are all of the children.
  have hstyle : n.significant.head?.filter (·.node.kind == .letClause) = none →
      (if (n.significant.head?.filter (·.node.kind == .letClause)).isSome then n.significant.tail
        else n.significant).head?.filter (·.node.kind == .forClause) = none →
      n.StartsWithBody := by
    intro hlet hfor
    rw [hlet] at hfor
    exact startsWithBody_of_heads hlet hfor
  unfold bodyLast
  dsimp only
  -- The children are the `let` clause, where there is one, and the rest behind it.
  generalize n.significant.head?.filter (·.node.kind == .letClause) = clause at *
  generalize (if clause.isSome then n.significant.tail else n.significant) = rest at *
  rw [← hcut] at horder hwithin
  have hclause : n.Finds clause := fun p hp => hwithin p (by simp [hp])
  refine (leadingBindings_furnish hn h hclause).bind fun lets hlets => ?_
  cases hloop : rest.head?.filter (·.node.kind == .forClause) with
  | none =>
    dsimp only
    split
    · exact .fail
    · next hnone => exact .pure ⟨ordering_none, fun _ => hstyle (by simpa using hnone) hloop⟩
  | some loop =>
    obtain ⟨tail, rfl⟩ : ∃ tail, rest = loop :: tail :=
      List.head?_eq_some_iff.mp (Option.filter_eq_some_iff.mp hloop).1
    have hparts : ∀ p ∈ loop :: tail, p.node.Within n :=
      fun p hp => hwithin p (List.mem_append_right _ hp)
    obtain ⟨hin, htail⟩ := List.forall_mem_cons.mp hparts
    refine (forClause_orders (hn.mono hin) (h.within hin)).bind fun r hiterable => ?_
    refine (conditionAndBody_furnishes h htail).bind ?_
    rintro ⟨condition, body⟩ hbehind
    have hrow : n.Furnishes ((clause.toList ++ loop :: tail).map Part.node) (lets.map .binding ++
        ([.expression r.2] ++ (View.ofExpression? condition ++ [.expression body]))) := by
      rw [found, List.flatMap_singleton] at hlets
      rw [List.map_append]
      exact hlets.append (.cons hin (.singleton hiterable) hbehind)
    refine .pure ⟨ordering_some (.of_sequences hn rfl ?_),
      fun h => absurd h (Option.some_ne_none _)⟩
    show n.Sequences (lets.map .binding ++ [.expression r.2] ++ View.ofExpression? condition ++
      [.expression body])
    rw [List.append_assoc, List.append_assoc]
    exact hrow.sequences hn horder

/-- With the body first in the text, its view is listed last all the same. -/
theorem bodyFirst_orders (hn : n.LaidOut s) (h : n.InnerOrders)
    (hkind : n.kind = .listComprehension) (hstyle : n.StartsWithBody) :
    (bodyFirst n (expressions n)).Ensures fun e => n.Orders (.expression e) := by
  unfold bodyFirst
  refine .bind .require fun loop hloop => .bind .require fun element helement => ?_
  obtain hloop : n.forClause? = some loop := hloop
  obtain helement : elementPart? n = some element := helement
  have hin : loop.node.Within n := ((finds_field? _).or (finds_ofKind? _)) loop hloop
  have hin' : element.node.Within n := ((finds_field? _).or (finds_find? _)) element helement
  refine (forClause_orders (hn.mono hin) (h.within hin)).bind fun r hiterable => ?_
  refine (resolve?_furnishes h (finds_field? _)).bind fun condition hcondition => ?_
  refine (resolve_furnishes h hin').bind fun body hbody => .pure ?_
  have hparts := TakesParts.bodyFirst hkind hstyle
  rw [hloop, helement] at hparts
  refine .of_parts hn rfl hparts ?_
  show n.Furnishes _ ([.expression r.2] ++ View.ofExpression? condition ++ [.expression body])
  rw [List.append_assoc]
  exact (Furnishes.found_some hin hiterable).found_cons (hcondition.found_cons hbody)

theorem comprehension_ordering (hn : n.LaidOut s) (h : n.InnerOrders)
    (hkind : n.kind = .listComprehension) :
    (comprehension n (expressions n)).Ensures (Ordering n) := by
  unfold comprehension
  refine (bodyLast_ordering hn h).bind fun r hr => ?_
  cases r with
  | some e => exact .pure hr.1
  -- The style with the body first is only tried where neither clause is in front.
  | none =>
    exact .map ((bodyFirst_orders hn h hkind (hr.2 rfl)).imp fun _ => ordering_some)

/-! ## §9 The choice among them -/

theorem expressionStep_ordering (hn : n.LaidOut s) (h : n.InnerOrders) :
    (expressionStep n (expressions n)).Ensures (Ordering n) := by
  have hleaf {e : Expression} (hspan : e.span = n.span) (hparts : View.ofParts e = []) :
      Ordering n (some e) :=
    ordering_some (.of_leaf hn hspan hparts)
  unfold expressionStep
  split
  · next p hp => exact .bind_any fun _ => convert_ordering hn h (finds_rungChild? p hp)
  split
  -- A wrapper.
  iterate 2
    · split
      · next p hp => exact convert_ordering hn h (finds_wrappedChild? p hp)
      · exact .failBare
  -- A literal.
  iterate 4
    · exact .bind_any fun _ => .pure (hleaf rfl rfl)
  -- A name.
  iterate 2
    · exact .pure (hleaf rfl rfl)
  · exact call_ordering hn h
  · exact call_ordering hn h
  · exact vector_ordering hn h
  · next hkind => exact index_ordering hn h hkind
  · exact member_ordering hn h
  · next hkind => exact .map ((range_orders hn h hkind).imp fun _ => ordering_some)
  · next hkind => exact letIn_ordering hn h hkind
  · next hkind => exact comprehension_ordering hn h hkind
  · next hkind => exact binary_ordering hn h hkind
  · exact unary_ordering hn h
  · next hkind => exact conditional_ordering hn h hkind
  · exact parenthesized_ensures ordering_none fun p hp => convert_ordering hn h hp
  · exact .fail
  · exact .fail
  · exact .bind_any fun _ => .pure ordering_none

/-- Whatever an expression converts to is ordered by its node. -/
theorem expression_orders (n : Node) (hn : n.LaidOut s) :
    (expression n).Ensures fun r => ∀ e, r = some e → n.Orders (.expression e) := by
  rw [expression_eq]
  exact expressionStep_ordering hn fun m hm _ => expression_orders m (hn.mono hm)
termination_by sizeOf n

theorem innerOrders (hn : n.LaidOut s) : n.InnerOrders :=
  fun m hm _ => expression_orders m (hn.mono hm)

end Convert

end Scad
