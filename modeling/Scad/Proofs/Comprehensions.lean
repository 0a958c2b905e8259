import Scad.Proofs.OwnLabel
import Scad.Proofs.Separation.Expression
import Scad.Proofs.Success

/-!
# What a Comprehension is Made of

A comprehension is made of a loop, a body, and maybe a `let` clause and a condition.  The style with
the body last lists them in this order and nothing else; the style with the body first looks each
of them up.

* `ComprehensionParts` — the nodes that play these roles.
* `Node.Reads` — which nodes play them, in either style.
* `Node.Lists` — what a node holds, in the order in which it holds it.
* `comprehension_ok_iff` — a comprehension is what its parts convert to; with the body last, its
  parts are all that the node holds.
* `comprehension_reordered` — both styles mean the same.
-/

namespace Scad

open Conversion Scad.Convert

/-! ## §1 The parts -/

/-- The nodes that a comprehension is made of. -/
structure ComprehensionParts where
  /-- The `let` clause in front of the loop. -/
  clause : Option Node
  /-- The `for` clause. -/
  loop : Node
  condition : Option Node
  body : Node

namespace Convert

/-- The conversion of a node that plays a role which may be left open. -/
def resolved? (role : Role) : Option Node → Conversion (Option Expression)
  | some m => some <$> resolved role m
  | none => pure none

/-- The bindings of the `let` clause that starts a comprehension, where there is one. -/
def clauseBindings : Option Node → Conversion (List Binding)
  | some clause => do
    remark .letInComprehension clause
    (bindings clause (expressions clause)).blame (fun _ => .invalidLetClause) clause
  | none => pure []

end Convert

namespace ComprehensionParts

/-- The parts in the order in which they are converted. -/
def nodes (r : ComprehensionParts) : List Node :=
  r.clause.toList ++ r.loop :: (r.condition.toList ++ [r.body])

/-- The comprehension that the parts convert to. -/
def converted (r : ComprehensionParts) (style : ComprehensionStyle) (span : Span) :
    Conversion Expression := do
  let lets ← clauseBindings r.clause
  let (name, iterable) ← forClause r.loop (expressions r.loop)
  let condition ← resolved? .comprehensionCondition r.condition
  let body ← resolved .comprehensionBody r.body
  return .comprehension style lets name iterable condition body span

end ComprehensionParts

namespace Node

variable {n : Node}

/-- The parts of a comprehension in a style, as they are read off its node. -/
inductive Reads (n : Node) : ComprehensionStyle → ComprehensionParts → Prop where
  /-- The significant children are the parts, in their order. -/
  | bodyLast {clause condition : Option n.Part} {loop body : n.Part}
      (hparts : n.significant = clause.toList ++ loop :: (condition.toList ++ [body]))
      (hclause : ∀ p ∈ clause, p.node.kind = .letClause)
      (hloop : loop.node.kind = .forClause)
      (hcondition : ∀ p ∈ condition, p.node.label = some "condition")
      (hbare : condition = none → body.node.label ≠ some "condition")
      (hbody : body.node.kind.isExpression = true) :
      n.Reads .bodyLast
        ⟨clause.map Part.node, loop.node, condition.map Part.node, body.node⟩
  /-- The node starts with no clause, and each part is looked up by itself. -/
  | bodyFirst {loop body : n.Part}
      (hfirst : ∀ p ∈ n.significant.head?, p.node.kind ≠ .letClause ∧ p.node.kind ≠ .forClause)
      (hloop : (n.field? "for_clause").or (n.ofKind? .forClause) = some loop)
      (hbody : (n.field? "element").or
        (n.find? fun c => c.kind.isExpression && c.label != some "condition") = some body) :
      n.Reads .bodyFirst
        ⟨none, loop.node, (n.field? "condition").map Part.node, body.node⟩

/-- The significant children of the node are the parts and nothing else, and the loop is the only
`for` clause among them. -/
structure Exhausts (n : Node) (r : ComprehensionParts) : Prop where
  perm : (n.significant.map Part.node).Perm r.nodes
  loops : (n.significant.map Part.node).filter (·.kind == .forClause) = [r.loop]

/-- The significant children of the node are these, and no other child has a label. -/
structure Lists (n : Node) (parts : List Node) : Prop where
  significant : n.significant.map Part.node = parts
  children : n.children.filter (·.label.isSome) = parts.filter (·.label.isSome)
  named : n.named.filter (·.label.isSome) = parts.filter (·.label.isSome)

theorem find?_label_congr {l l' : List Node}
    (h : l.filter (·.label.isSome) = l'.filter (·.label.isSome)) (label : String) :
    l.find? (·.label == some label) = l'.find? (·.label == some label) := by
  have hfind (l : List Node) : l.find? (·.label == some label) =
      (l.filter (·.label.isSome)).find? (·.label == some label) := by
    rw [List.find?_filter]
    refine List.find?_congr fun c _ => ?_
    cases c.label <;> simp [beq_eq_decide]
  rw [hfind, h, ← hfind]

namespace Lists

variable {parts : List Node}

/-- What has a label is found among the significant children. -/
theorem map_field? (h : n.Lists parts) (label : String) :
    (n.field? label).map Part.node = parts.find? (·.label == some label) := by
  have hmap (l : List n.Part) : (l.find? (·.node.label == some label)).map Part.node =
      (l.map Part.node).find? (·.label == some label) := by
    rw [List.find?_map]
    rfl
  rw [field?, Option.map_or, hmap, hmap, map_node_parts, map_node_namedParts,
    find?_label_congr h.children, find?_label_congr h.named, Option.or_self]

theorem map_ofKind? (h : n.Lists parts) (kind : Kind) :
    (n.ofKind? kind).map Part.node = parts.find? (·.kind == kind) := by
  rw [← h.significant, List.find?_map]
  rfl

end Lists

end Node

namespace Convert

open Node

variable {n : Node} {settings : Settings}

/-! ## §2 Reading the parts -/

/-- What plays a role is of an expression kind. -/
theorem isExpression_of_resolved_ok {role : Role} {m : Node} {e : Expression}
    (h : (resolved role m).result settings = .ok e) : m.kind.isExpression = true := by
  by_contra hkind
  have hnone : (expression m).Ensures (· = none) := by
    rw [expression_eq]
    exact expressionStep_none (by simpa using hkind)
  -- What converts to nothing is missed, with the fault of the construct or without.
  have hconverted : (resolved role m).Ensures fun _ => False := by
    unfold resolved
    refine Ensures.bind (Q := (· = none)) ?_ fun r hr => Ensures.require.imp fun a ha => ?_
    · split
      · exact hnone.blame
      · exact hnone
    · rw [hr] at ha
      cases ha
  exact hconverted settings e h

theorem resolve?_expressions (role : Role) (x : Option n.Part) :
    resolve? (expressions n) role x = resolved? role (x.map Part.node) := by
  cases x <;> rfl

theorem leadingBindings_expressions (x : Option n.Part) :
    leadingBindings (expressions n) x = clauseBindings (x.map Part.node) := by
  cases x <;> rfl

theorem conditionAndBody_eq {convert : Converter n Expression} {condition : Option n.Part}
    {body : n.Part} (hcondition : ∀ p ∈ condition, p.node.label = some "condition")
    (hbare : condition = none → body.node.label ≠ some "condition")
    (hbody : body.node.kind.isExpression = true) :
    conditionAndBody convert (condition.toList ++ [body]) = do
      let c ← resolve? convert .comprehensionCondition condition
      return (c, ← resolve convert .comprehensionBody body) := by
  have hclause : (body.node.kind == .forClause || body.node.kind == .letClause) = false := by
    cases hkind : body.node.kind <;> simp_all [Kind.isExpression]
  have hsplit : splitCondition (condition.toList ++ [body]) = (condition, [body]) := by
    cases condition with
    | some p => simp [splitCondition, hcondition p rfl]
    | none => simp [splitCondition, hbare rfl]
  simp only [conditionAndBody, hsplit, hclause]
  rfl

/-- A condition is what has its label, and no first part behind a missing one has it. -/
theorem of_splitCondition {rest behind : List n.Part} {condition : Option n.Part}
    (h : splitCondition rest = (condition, behind)) :
    rest = condition.toList ++ behind ∧ (∀ p ∈ condition, p.node.label = some "condition") ∧
      (condition = none → ∀ p ∈ behind.head?, p.node.label ≠ some "condition") := by
  unfold splitCondition at h
  split at h
  · split at h
    · next hlabel =>
      obtain ⟨rfl, rfl⟩ := Prod.mk.inj h
      exact ⟨rfl, by simpa using hlabel, fun hnone => nomatch hnone⟩
    · next hlabel =>
      obtain ⟨rfl, rfl⟩ := Prod.mk.inj h
      exact ⟨rfl, by simp, by simpa using hlabel⟩
  · obtain ⟨rfl, rfl⟩ := Prod.mk.inj h
    exact ⟨rfl, by simp, by simp⟩

/-- The condition and the body are all that stands behind the loop. -/
theorem exists_of_conditionAndBody_ok {rest : List n.Part} {r : Option Expression × Expression}
    (h : (conditionAndBody (expressions n) rest).result settings = .ok r) :
    ∃ (condition : Option n.Part) (body : n.Part), rest = condition.toList ++ [body] ∧
      (∀ p ∈ condition, p.node.label = some "condition") ∧
      (condition = none → body.node.label ≠ some "condition") ∧
      body.node.kind.isExpression = true := by
  unfold conditionAndBody at h
  rcases hsplit : splitCondition rest with ⟨condition, behind⟩
  obtain ⟨hrest, hcondition, hbare⟩ := of_splitCondition hsplit
  rw [hsplit] at h
  obtain ⟨c, -, h⟩ := exists_of_bind_ok h
  cases behind with
  | nil => cases h
  | cons body extra =>
    dsimp only at h
    split at h
    · cases h
    cases extra with
    | cons extra _ => cases h
    | nil =>
      obtain ⟨e, he, -⟩ := exists_of_bind_ok h
      exact ⟨condition, body, hrest, hcondition, by simpa using hbare,
        isExpression_of_resolved_ok he⟩

/-- What stands in front of the loop is the `let` clause, where there is one. -/
theorem eq_clause_append (l : List n.Part) :
    l = (l.head?.filter (·.node.kind == .letClause)).toList ++
      if (l.head?.filter (·.node.kind == .letClause)).isSome then l.tail else l := by
  cases l with
  | nil => rfl
  | cons p rest => cases hkind : p.node.kind == .letClause <;> simp [Option.filter, hkind]

theorem bodyLast_of_reads {r : ComprehensionParts} (h : n.Reads .bodyLast r) :
    bodyLast n (expressions n) = some <$> r.converted .bodyLast n.span := by
  cases h with
  | @bodyLast clause condition loop body hparts hclause hloop hcondition hbare hbody =>
    have hfront : n.significant.head?.filter (·.node.kind == .letClause) = clause := by
      cases clause with
      | some p => simp [hparts, Option.filter, hclause p rfl]
      | none => simp [hparts, Option.filter, hloop]
    have hrest : (if clause.isSome then n.significant.tail else n.significant) =
        loop :: (condition.toList ++ [body]) := by
      cases clause <;> simp [hparts]
    unfold bodyLast
    rw [hfront]
    dsimp only
    rw [hrest]
    simp [ComprehensionParts.converted, Option.filter, hloop, leadingBindings_expressions,
      conditionAndBody_eq hcondition hbare hbody, resolve?_expressions, resolve_expressions]
    rfl

/-- A node that starts with no clause is left to the other style. -/
theorem bodyLast_of_first {convert : Converter n Expression}
    (hfirst : ∀ p ∈ n.significant.head?, p.node.kind ≠ .letClause ∧ p.node.kind ≠ .forClause) :
    bodyLast n convert = pure none := by
  have hnone {kind : Kind} (hkind : ∀ p ∈ n.significant.head?, p.node.kind ≠ kind) :
      n.significant.head?.filter (·.node.kind == kind) = none := by
    rw [Option.filter_eq_none_iff]
    simpa using hkind
  have hclause := hnone fun p hp => (hfirst p hp).1
  have hloop := hnone fun p hp => (hfirst p hp).2
  simp [bodyLast, leadingBindings, hclause, hloop]

theorem bodyFirst_of_reads {r : ComprehensionParts} (h : n.Reads .bodyFirst r) :
    bodyFirst n (expressions n) = r.converted .bodyFirst n.span := by
  cases h with
  | @bodyFirst loop body hfirst hloop hbody =>
    simp only [bodyFirst, hloop, hbody, require, pure_bind, resolve?_expressions,
      resolve_expressions]
    rfl

/-- Where its parts can be read off a node, the comprehension is what they convert to; it fails
where one of them fails. -/
theorem comprehension_of_reads {style : ComprehensionStyle} {r : ComprehensionParts}
    (h : n.Reads style r) :
    comprehension n (expressions n) = some <$> r.converted style n.span := by
  unfold comprehension
  cases style with
  | bodyLast =>
    rw [bodyLast_of_reads h]
    simp
  | bodyFirst =>
    rw [bodyFirst_of_reads h]
    cases h with
    | bodyFirst hfirst _ _ => rw [bodyLast_of_first hfirst, pure_bind]

/-- What is no comprehension with the body last is left to the other style, or fails. -/
theorem reads_of_bodyLast_ok {x : Option Expression}
    (h : (bodyLast n (expressions n)).result settings = .ok x) :
    (∃ r, n.Reads .bodyLast r) ∨
      x = none ∧ ∀ p ∈ n.significant.head?, p.node.kind ≠ .letClause ∧ p.node.kind ≠ .forClause := by
  have hparts := eq_clause_append n.significant
  have hclause (p : n.Part) (hp : p ∈ n.significant.head?.filter (·.node.kind == .letClause)) :
      p.node.kind = .letClause := by
    simpa using (Option.filter_eq_some_iff.mp hp).2
  unfold bodyLast at h
  dsimp only at h
  generalize hfront : n.significant.head?.filter (·.node.kind == .letClause) = clause at *
  generalize hrest : (if clause.isSome then n.significant.tail else n.significant) = rest at *
  obtain ⟨lets, -, h⟩ := exists_of_bind_ok h
  split at h
  · next hloop =>
    -- Without a loop in front, only a node without a clause in front is left to the other style.
    split at h
    · cases h
    · next hsome =>
      have hnone : clause = none := by simpa using hsome
      rw [hnone] at hfront hrest
      rw [← hrest, Option.filter_eq_none_iff] at hloop
      rw [Option.filter_eq_none_iff] at hfront
      refine .inr ⟨(Except.ok.inj h).symm, fun p hp => ⟨?_, ?_⟩⟩
      · simpa using hfront p hp
      · simpa using hloop p hp
  · next loop hloop =>
    obtain ⟨hhead, hkind⟩ := Option.filter_eq_some_iff.mp hloop
    obtain ⟨behind, rfl⟩ := List.head?_eq_some_iff.mp hhead
    obtain ⟨pair, -, h⟩ := exists_of_bind_ok h
    obtain ⟨r, hr, -⟩ := exists_of_bind_ok h
    obtain ⟨condition, body, hbehind, hcondition, hbare, hbody⟩ :=
      exists_of_conditionAndBody_ok hr
    rw [List.tail_cons] at hbehind
    rw [hbehind] at hparts
    exact .inl ⟨_, .bodyLast hparts hclause (by simpa using hkind) hcondition hbare hbody⟩

/-- The parts of every comprehension can be read off its node. -/
theorem exists_reads_of_ok {x : Option Expression}
    (h : (comprehension n (expressions n)).result settings = .ok x) :
    ∃ style r, n.Reads style r := by
  unfold comprehension at h
  obtain ⟨y, hy, h⟩ := exists_of_bind_ok h
  obtain ⟨r, hr⟩ | ⟨rfl, hfirst⟩ := reads_of_bodyLast_ok hy
  · exact ⟨_, r, hr⟩
  · obtain ⟨e, he, -⟩ := exists_of_map_ok h
    unfold bodyFirst at he
    obtain ⟨loop, hloop, he⟩ := exists_of_bind_ok he
    obtain ⟨body, hbody, -⟩ := exists_of_bind_ok he
    exact ⟨_, _, .bodyFirst hfirst (eq_some_of_require_ok hloop) (eq_some_of_require_ok hbody)⟩

/-! ## §3 Whether the node holds more -/

theorem isExpression_of_converted_ok {r : ComprehensionParts} {style : ComprehensionStyle}
    {span : Span} {e : Expression} (h : (r.converted style span).result settings = .ok e) :
    ∀ c ∈ r.condition, c.kind.isExpression = true := by
  unfold ComprehensionParts.converted at h
  obtain ⟨lets, -, h⟩ := exists_of_bind_ok h
  obtain ⟨pair, -, h⟩ := exists_of_bind_ok h
  obtain ⟨c, hc, -⟩ := exists_of_bind_ok h
  intro m hm
  rw [hm] at hc
  obtain ⟨x, hx, -⟩ := exists_of_map_ok hc
  exact isExpression_of_resolved_ok hx

/-- With the body last, the node holds the parts and nothing else. -/
theorem exhausts_of_reads {r : ComprehensionParts} (h : n.Reads .bodyLast r)
    (hcondition : ∀ c ∈ r.condition, c.kind.isExpression = true) : n.Exhausts r := by
  cases h with
  | @bodyLast clause condition loop body hparts hclause hloop _ _ hbody =>
    have hnodes : n.significant.map Part.node =
        (clause.map Part.node).toList ++ loop.node ::
          ((condition.map Part.node).toList ++ [body.node]) := by
      rw [hparts]
      cases clause <;> cases condition <;> rfl
    -- A body and a condition are expressions, and no clause is one.
    have hother {m : Node} (hm : m.kind.isExpression = true) : m.kind ≠ .forClause := by
      intro hkind
      simp [hkind, Kind.isExpression] at hm
    refine ⟨.of_eq hnodes, ?_⟩
    rw [hnodes]
    cases clause <;> cases condition <;> simp_all

/-- The conversion of a comprehension ends with what its parts convert to, and with nothing else.  A
comprehension with the body last drops nothing: the only `for` clause of its node is its loop, and
every other significant child is its `let` clause, its condition or its body. -/
theorem comprehension_ok_iff (n : Node) (settings : Settings) (x : Option Expression) :
    (comprehension n (expressions n)).result settings = .ok x ↔
      ∃ style r e, n.Reads style r ∧ (r.converted style n.span).result settings = .ok e ∧
        x = some e ∧ (style = .bodyLast → n.Exhausts r) := by
  constructor
  · intro h
    obtain ⟨style, r, hreads⟩ := exists_reads_of_ok h
    rw [comprehension_of_reads hreads] at h
    obtain ⟨e, he, rfl⟩ := exists_of_map_ok h
    refine ⟨style, r, e, hreads, he, rfl, ?_⟩
    rintro rfl
    exact exhausts_of_reads hreads (isExpression_of_converted_ok he)
  · rintro ⟨style, r, e, hreads, he, rfl, -⟩
    rw [comprehension_of_reads hreads, result_map, he]

/-- The clause `for (x = v)` at a column. -/
def xLoopAt (column : Nat) : Node where
  tag := "for_clause"
  text := "for (x = v)"
  span := ⟨⟨0, column, column⟩, ⟨0, column + 11, column + 11⟩⟩
  children := [nameAt (column + 5) "x" "iterator", nameAt (column + 9) "v" "range"]
  named := [nameAt (column + 5) "x" "iterator", nameAt (column + 9) "v" "range"]

theorem forClause_xLoopAt (column : Nat) :
    forClause (xLoopAt column) (expressions (xLoopAt column)) =
      pure ("x", .identifier "v" (nameAt (column + 9) "v" "range").span) := by
  have hiterator : (xLoopAt column).field? "iterator" =
      some ⟨nameAt (column + 5) "x" "iterator", sizeOf_lt_of_mem_named (.head _)⟩ := rfl
  have hrange : (xLoopAt column).field? "range" =
      some ⟨nameAt (column + 9) "v" "range", sizeOf_lt_of_mem_named (.tail _ (.head _))⟩ := rfl
  have htrimmed (k : Nat) (label : String) : (nameAt k "x" label).trimmed = "x" ∧
      (nameAt k "v" label).trimmed = "v" := by
    show Text.trim "x" = "x" ∧ Text.trim "v" = "v"
    decide
  have hshown (k : Nat) (label : String) : (nameAt k "x" label).hasText = true := by
    show (!Text.isBlankText "x") = true
    decide
  have hpresent (k : Nat) (text label : String) : (nameAt k text label).isMissing = false := rfl
  simp [forClause, hiterator, hrange, Option.filter, htrimmed, hshown, hpresent, require,
    resolve_expressions, resolved_nameAt]

/-- The comprehension `[x for (x = v) for (x = v)]`, which has a second loop. -/
def twoLoops : Node where
  tag := "list_comprehension"
  text := "[x for (x = v) for (x = v)]"
  span := ⟨⟨0, 0, 0⟩, ⟨0, 27, 27⟩⟩
  children := [nameAt 1 "x" "element", xLoopAt 3, xLoopAt 15]
  named := [nameAt 1 "x" "element", xLoopAt 3, xLoopAt 15]

theorem twoLoops_reads :
    twoLoops.Reads .bodyFirst ⟨none, xLoopAt 3, none, nameAt 1 "x" "element"⟩ :=
  @Reads.bodyFirst twoLoops ⟨xLoopAt 3, sizeOf_lt_of_mem_named (.tail _ (.head _))⟩
    ⟨nameAt 1 "x" "element", sizeOf_lt_of_mem_named (.head _)⟩ (by rintro _ ⟨⟩; decide) rfl rfl

/-- With the body first, a second loop is dropped, without a fault and without a report. -/
theorem twoLoops_drops :
    (comprehension twoLoops (expressions twoLoops)).run {} =
        (.ok (some (.comprehension .bodyFirst [] "x"
          (.identifier "v" (nameAt 12 "v" "range").span) none
          (.identifier "x" (nameAt 1 "x" "element").span) twoLoops.span)), []) ∧
      (twoLoops.significant.map Part.node).filter (·.kind == .forClause) =
        [xLoopAt 3, xLoopAt 15] := by
  refine ⟨?_, rfl⟩
  rw [comprehension_of_reads twoLoops_reads, ComprehensionParts.converted]
  dsimp only
  rw [forClause_xLoopAt, resolved_nameAt]
  rfl

/-! ## §4 The two styles -/

/-- The comprehension of a loop, a condition and a body, in a style. -/
def comprehensionOf (style : ComprehensionStyle) (span : Span)
    (p : String × Expression × Option Expression × Expression) : Option Expression :=
  some (.comprehension style [] p.1 p.2.1 p.2.2.1 p.2.2.2 span)

/-- A loop, a condition and a body, converted in this order. -/
def loopParts (loop : Node) (condition : Option Node) (body : Node) :
    Conversion (String × Expression × Option Expression × Expression) := do
  let (name, iterable) ← forClause loop (expressions loop)
  let condition ← resolved? .comprehensionCondition condition
  return (name, iterable, condition, ← resolved .comprehensionBody body)

theorem comprehension_of_loopParts {style : ComprehensionStyle} {loop body : Node}
    {condition : Option Node} (h : n.Reads style ⟨none, loop, condition, body⟩) :
    (comprehension n (expressions n)).result settings =
      comprehensionOf style n.span <$> (loopParts loop condition body).result settings := by
  have hparts : comprehension n (expressions n) =
      comprehensionOf style n.span <$> loopParts loop condition body := by
    rw [comprehension_of_reads h, ComprehensionParts.converted, loopParts]
    simp [clauseBindings]
    rfl
  rw [hparts, result_map]
  cases (loopParts loop condition body).result settings <;> rfl

theorem comprehensionOf_injective (style : ComprehensionStyle) (span : Span) :
    Function.Injective (comprehensionOf style span) := by
  rintro ⟨a, b, c, d⟩ ⟨a', b', c', d'⟩ h
  simpa [comprehensionOf] using h

/-- A loop means the same under another label. -/
theorem forClause_congr {n n' : Node} (h : n.SameInside n') :
    forClause n (expressions n) = forClause n' (expressions n') := by
  have hinner := h.find? fun c => c.kind == .assignment || c.kind == .forBinding
  -- What is found inside the binding of the loop is found inside the same node.
  have hofInner (label : String) : Option.Rel SamePart
      ((n.find? fun c => c.kind == .assignment || c.kind == .forBinding).bind
        fun b => (b.node.field? label).map b.within)
      ((n'.find? fun c => c.kind == .assignment || c.kind == .forBinding).bind
        fun b => (b.node.field? label).map b.within) := by
    generalize n.find? _ = x, n'.find? _ = x' at hinner
    cases hinner with
    | none => exact .none
    | some hp =>
      obtain ⟨m, _, _, rfl, rfl⟩ := hp.exists_node
      rw [Option.bind_some, Option.bind_some]
      cases m.field? label with
      | none => exact .none
      | some q => exact .some rfl
  unfold forClause
  refine require_bind_congr h (((h.field? "iterator").or (hofInner "name")).filter
    fun _ _ hp => by rw [hp]) fun iterator iterator' hiterator => ?_
  refine require_bind_congr h (((h.field? "range").or (hofInner "value")).filter
    fun _ _ hp => by rw [hp]) fun range range' hrange => ?_
  rw [resolve_same hrange, hiterator]

/-- The body means the same under another label. -/
theorem result_loopParts_congr {loop body body' : Node} {condition : Option Node}
    (h : body.SameInside body') :
    (loopParts loop condition body).result settings =
      (loopParts loop condition body').result settings := by
  simp only [loopParts, result_bind, result_resolved_congr h]

/-- The child under the label of a condition is the condition. -/
theorem label_of_find? {l : List Node} {condition : Option Node}
    (h : l.find? (·.label == some "condition") = condition) :
    ∀ c ∈ condition, c.label = some "condition" := by
  rintro c rfl
  simpa using List.find?_some h

theorem reads_of_significant {loop body : Node} {condition : Option Node}
    (hn : n.significant.map Part.node = loop :: (condition.toList ++ [body]))
    (hloop : loop.kind = .forClause) (hbody : body.kind.isExpression = true)
    (hcondition : (loop :: (condition.toList ++ [body])).find? (·.label == some "condition") =
      condition) :
    n.Reads .bodyLast ⟨none, loop, condition, body⟩ := by
  obtain ⟨p, behind, hp, rfl, hbehind⟩ := List.map_eq_cons_iff.mp hn
  cases condition with
  | none =>
    obtain ⟨q, rfl, rfl⟩ := List.map_eq_singleton_iff.mp hbehind
    exact @Reads.bodyLast n none none p q hp (by simp) hloop (by simp) (fun _ => by simp_all) hbody
  | some c =>
    have hlabel := label_of_find? hcondition c rfl
    obtain ⟨q, last, rfl, rfl, hlast⟩ := List.map_eq_cons_iff.mp hbehind
    obtain ⟨r, rfl, rfl⟩ := List.map_eq_singleton_iff.mp hlast
    exact @Reads.bodyLast n none (some q) p r hp (by simp) hloop (by simpa using hlabel) (by simp)
      hbody

theorem reads_of_lists {loop body : Node} {condition : Option Node}
    (hn : n.Lists (body.labelled "element" :: loop :: condition.toList))
    (hloop : loop.kind = .forClause) (hbody : body.kind.isExpression = true)
    (hcondition : (loop :: (condition.toList ++ [body])).find? (·.label == some "condition") =
      condition) :
    n.Reads .bodyFirst ⟨none, loop, condition, body.labelled "element"⟩ := by
  have hlabels := label_of_find? hcondition
  have helement : (body.labelled "element").label = some "element" := rfl
  have hkind : (body.labelled "element").kind ≠ .letClause ∧
      (body.labelled "element").kind ≠ .forClause := by
    have hexpression : (body.labelled "element").kind.isExpression = true := hbody
    constructor <;> intro hclause <;> simp [hclause, Kind.isExpression] at hexpression
  have hfirst : ∀ p ∈ n.significant.head?,
      p.node.kind ≠ .letClause ∧ p.node.kind ≠ .forClause := by
    obtain ⟨p, rest, hparts, hp, -⟩ := List.map_eq_cons_iff.mp hn.significant
    simpa [hparts, hp] using hkind
  have hclause : ((n.field? "for_clause").or (n.ofKind? .forClause)).map Part.node = some loop := by
    -- The condition has a label of its own, so it is not found in the place of the clause.
    have hother : condition.toList.find? (·.label == some "for_clause") = none := by
      rw [List.find?_eq_none]
      intro c hc
      simp [hlabels c (by simpa using hc)]
    rw [Option.map_or, hn.map_field?, hn.map_ofKind?]
    cases hlabel : loop.label == some "for_clause" <;>
      simp [helement, hlabel, hother, hloop, hkind.2]
  have hbodies : (n.field? "element").map Part.node = some (body.labelled "element") := by
    rw [hn.map_field?, List.find?_cons_of_pos (by simp [helement])]
  have hlabelled : (n.field? "condition").map Part.node = condition := by
    rw [hn.map_field?, List.find?_cons_of_neg (by simp [helement])]
    rw [List.find?_cons] at hcondition ⊢
    split
    · simpa [*] using hcondition
    · cases condition with
      | none => rfl
      | some c => simp [hlabels c rfl]
  obtain ⟨q, hq, rfl⟩ := Option.map_eq_some_iff.mp hclause
  obtain ⟨p, hp, hnode⟩ := Option.map_eq_some_iff.mp hbodies
  rw [← hlabelled, ← hnode]
  exact .bodyFirst hfirst hq (by rw [hp, Option.some_or])

/-- Both styles of a comprehension mean the same.  A node that lists a loop, a condition or none,
and a body, and a node at the same place that labels the body as its element and lists it first, are
converted to the same comprehension in different styles, or fail with the same fault.  The condition
is what the first node lists under the label of one: the loop does not bear it, nor does the body
where there is no condition. -/
theorem comprehension_reordered {m : Node} {loop body : Node} {condition : Option Node}
    (hspan : m.span = n.span)
    (hn : n.significant.map Part.node = loop :: (condition.toList ++ [body]))
    (hm : m.Lists (body.labelled "element" :: loop :: condition.toList))
    (hloop : loop.kind = .forClause) (hbody : body.kind.isExpression = true)
    (hcondition : (loop :: (condition.toList ++ [body])).find? (·.label == some "condition") =
      condition) (settings : Settings) :
    ∃ r : Except Fault (String × Expression × Option Expression × Expression),
      (comprehension n (expressions n)).result settings =
        comprehensionOf .bodyLast n.span <$> r ∧
      (comprehension m (expressions m)).result settings =
        comprehensionOf .bodyFirst n.span <$> r := by
  refine ⟨(loopParts loop condition body).result settings, ?_, ?_⟩
  · exact comprehension_of_loopParts (reads_of_significant hn hloop hbody hcondition)
  · rw [comprehension_of_loopParts (reads_of_lists hm hloop hbody hcondition), hspan,
      result_loopParts_congr (sameInside_labelled body "element")]

/-- A comprehension with these children. -/
def filteredLoop (children : List Node) : Node where
  tag := "list_comprehension"
  text := "[for (x = v) if (c) x]"
  span := ⟨⟨0, 0, 0⟩, ⟨0, 22, 22⟩⟩
  children
  named := children

/-- The body of `[for (x = v) if (c) x]`. -/
def filteredBody : Node :=
  nameAt 20 "x" "body"

/-- What the loop, the condition and the body are converted to. -/
def filteredParts : String × Expression × Option Expression × Expression :=
  ("x", .identifier "v" ⟨⟨0, 10, 10⟩, ⟨0, 11, 11⟩⟩,
    some (.identifier "c" ⟨⟨0, 17, 17⟩, ⟨0, 18, 18⟩⟩),
    .identifier "x" ⟨⟨0, 20, 20⟩, ⟨0, 21, 21⟩⟩)

theorem comprehension_reordered_filteredLoop :
    (comprehension (filteredLoop [xLoopAt 1, nameAt 17 "c" "condition", filteredBody])
        (expressions _)).result {} =
      .ok (comprehensionOf .bodyLast ⟨⟨0, 0, 0⟩, ⟨0, 22, 22⟩⟩ filteredParts) ∧
    (comprehension (filteredLoop [filteredBody.labelled "element", xLoopAt 1,
        nameAt 17 "c" "condition"]) (expressions _)).result {} =
      .ok (comprehensionOf .bodyFirst ⟨⟨0, 0, 0⟩, ⟨0, 22, 22⟩⟩ filteredParts) := by
  have hreads : (filteredLoop [xLoopAt 1, nameAt 17 "c" "condition", filteredBody]).Reads .bodyLast
      ⟨none, xLoopAt 1, some (nameAt 17 "c" "condition"), filteredBody⟩ :=
    reads_of_significant rfl (by decide) (by decide) rfl
  have hparts : (loopParts (xLoopAt 1) (some (nameAt 17 "c" "condition")) filteredBody).result {} =
      .ok filteredParts := by
    rw [loopParts, forClause_xLoopAt, resolved?, filteredBody, resolved_nameAt, resolved_nameAt]
    rfl
  have hlast : (comprehension (filteredLoop [xLoopAt 1, nameAt 17 "c" "condition", filteredBody])
      (expressions _)).result {} =
      .ok (comprehensionOf .bodyLast ⟨⟨0, 0, 0⟩, ⟨0, 22, 22⟩⟩ filteredParts) := by
    rw [comprehension_of_loopParts hreads, hparts]
    rfl
  obtain ⟨r, hr, hr'⟩ := @comprehension_reordered
    (filteredLoop [xLoopAt 1, nameAt 17 "c" "condition", filteredBody])
    (filteredLoop [filteredBody.labelled "element", xLoopAt 1, nameAt 17 "c" "condition"])
    (xLoopAt 1) filteredBody (some (nameAt 17 "c" "condition")) rfl rfl ⟨rfl, rfl, rfl⟩ (by decide)
    (by decide) rfl {}
  refine ⟨hlast, hr'.trans ?_⟩
  rw [hlast] at hr
  cases r with
  | error f => cases hr
  | ok p =>
    obtain rfl : filteredParts = p := comprehensionOf_injective _ _ (Except.ok.inj hr)
    rfl

/-! Where another part bears the label of the condition, the styles read different parts. -/

/-- A loop under the label of a condition. -/
def conditionLoop : Node :=
  (xLoopAt 1).labelled "condition"

/-- A body under the label of a condition. -/
def conditionBody : Node :=
  nameAt 20 "x" "condition"

/-- What such a loop and a body are converted to, whatever their labels. -/
theorem result_loopParts_xLoopAt (loop : Node) (h : (xLoopAt 1).SameInside loop)
    (label : String) : (loopParts loop none (nameAt 20 "x" label)).result settings =
      .ok ("x", .identifier "v" ⟨⟨0, 10, 10⟩, ⟨0, 11, 11⟩⟩, none,
        .identifier (nameAt 20 "x" label).trimmed ⟨⟨0, 20, 20⟩, ⟨0, 21, 21⟩⟩) := by
  rw [loopParts, ← forClause_congr h, forClause_xLoopAt, resolved?, resolved_nameAt]
  rfl

theorem conditionLoop_converted :
    ∃ e, (comprehension (filteredLoop [conditionLoop, filteredBody]) (expressions _)).result {} =
      .ok e := by
  have hreads : (filteredLoop [conditionLoop, filteredBody]).Reads .bodyLast
      ⟨none, conditionLoop, none, filteredBody⟩ :=
    @Reads.bodyLast _ none none ⟨conditionLoop, sizeOf_lt_of_mem_named (.head _)⟩
      ⟨filteredBody, sizeOf_lt_of_mem_named (.tail _ (.head _))⟩ rfl (by simp) (by decide)
      (by simp) (fun _ => by decide) (by decide)
  have hlabelled : (xLoopAt 1).SameInside conditionLoop := sameInside_labelled _ _
  rw [comprehension_of_loopParts hreads, filteredBody, result_loopParts_xLoopAt _ hlabelled]
  exact ⟨_, rfl⟩

theorem conditionLoop_refused (e : Option Expression) :
    (comprehension (filteredLoop [filteredBody.labelled "element", conditionLoop])
      (expressions _)).result {} ≠ .ok e := by
  intro he
  have hreads : (filteredLoop [filteredBody.labelled "element", conditionLoop]).Reads .bodyFirst
      ⟨none, conditionLoop, some conditionLoop, filteredBody.labelled "element"⟩ :=
    @Reads.bodyFirst (filteredLoop [filteredBody.labelled "element", conditionLoop])
      ⟨conditionLoop, sizeOf_lt_of_mem_named (.tail _ (.head _))⟩
      ⟨filteredBody.labelled "element", sizeOf_lt_of_mem_named (.head _)⟩
      (by rintro _ ⟨⟩; decide) rfl rfl
  -- The loop is found for the condition as well, and it is no expression.
  rw [comprehension_of_reads hreads] at he
  obtain ⟨x, hx, -⟩ := exists_of_map_ok he
  exact absurd (isExpression_of_converted_ok hx conditionLoop rfl) (by decide)

theorem conditionBody_refused (e : Option Expression) :
    (comprehension (filteredLoop [xLoopAt 1, conditionBody]) (expressions _)).result {} ≠ .ok e := by
  intro he
  obtain ⟨style, r, hreads⟩ := exists_reads_of_ok he
  cases hreads with
  | @bodyLast clause condition loop body hparts hclause hloop _ hbare _ =>
    have hnodes : [xLoopAt 1, conditionBody] = _ := congrArg (List.map Part.node) hparts
    cases clause with
    | some c =>
      obtain ⟨hc, -⟩ := List.cons.inj hnodes
      exact absurd (hclause c rfl) (hc ▸ by decide)
    | none =>
      -- The body is taken for the condition, and nothing is left for the body.
      obtain ⟨-, hbehind⟩ := List.cons.inj hnodes
      cases condition with
      | some c => simp at hbehind
      | none =>
        obtain ⟨hbody, -⟩ := List.cons.inj hbehind
        exact hbare rfl (hbody ▸ rfl)
  | bodyFirst hfirst _ _ => exact absurd rfl (hfirst _ rfl).2

theorem conditionBody_converted :
    ∃ e, (comprehension (filteredLoop [conditionBody.labelled "element", xLoopAt 1])
      (expressions _)).result {} = .ok e := by
  have hreads : (filteredLoop [conditionBody.labelled "element", xLoopAt 1]).Reads .bodyFirst
      ⟨none, xLoopAt 1, none, conditionBody.labelled "element"⟩ :=
    @Reads.bodyFirst (filteredLoop [conditionBody.labelled "element", xLoopAt 1])
      ⟨xLoopAt 1, sizeOf_lt_of_mem_named (.tail _ (.head _))⟩
      ⟨conditionBody.labelled "element", sizeOf_lt_of_mem_named (.head _)⟩
      (by rintro _ ⟨⟩; decide) rfl rfl
  rw [comprehension_of_loopParts hreads]
  show ∃ e, _ <$> (loopParts (xLoopAt 1) none (nameAt 20 "x" "element")).result {} = .ok e
  rw [result_loopParts_xLoopAt _ ⟨rfl, rfl, rfl, rfl, rfl⟩]
  exact ⟨_, rfl⟩

/-- A loop or a body under the label of a condition is taken for one in one style only: the loop
where the body comes first, and the body where it comes last. -/
theorem comprehension_not_reordered :
    ((∃ e, (comprehension (filteredLoop [conditionLoop, filteredBody]) (expressions _)).result {} =
        .ok e) ∧
      ∀ e, (comprehension (filteredLoop [filteredBody.labelled "element", conditionLoop])
        (expressions _)).result {} ≠ .ok e) ∧
    ((∀ e, (comprehension (filteredLoop [xLoopAt 1, conditionBody]) (expressions _)).result {} ≠
        .ok e) ∧
      ∃ e, (comprehension (filteredLoop [conditionBody.labelled "element", xLoopAt 1])
        (expressions _)).result {} = .ok e) :=
  ⟨⟨conditionLoop_converted, conditionLoop_refused⟩, conditionBody_refused,
    conditionBody_converted⟩

end Convert

end Scad
