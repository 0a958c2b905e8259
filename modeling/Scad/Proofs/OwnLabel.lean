import Scad.Proofs.Bodies.Header
import Scad.Proofs.Labels

/-!
# A Node's Own Label

The label of a node belongs to the parent, which finds the node by it.  What a node stands for does
not depend on the label it stands under: a conversion reads the tag, the text and the place of the
node itself, and looks for labels among its children alone.

* `Node.Paired` — two nodes whose children are paired one by one.
* `Node.SameInside` — two nodes that differ in nothing that a node shows of itself.
* `result_expression_congr` — such nodes are converted to the same expression, or fail alike.

The events may differ: the remark about an empty rung carries the node itself, label and all.
-/

namespace Scad

namespace Node

/-! ## §1 Look-ups among paired children -/

/-- The children of the second node stand for those of the first, one by one. -/
structure Paired (R : Node → Node → Prop) (n n' : Node) : Prop where
  children : List.Forall₂ R n.children n'.children
  named : List.Forall₂ R n.named n'.named

/-- What is accepted of a pair is one node, in the place of itself. -/
def Fixes (R : Node → Node → Prop) (accepts : Node → Bool) : Prop :=
  ∀ c c', R c c' → c = c' ∨ accepts c = false ∧ accepts c' = false

theorem fixes_eq (accepts : Node → Bool) : Fixes Eq accepts :=
  fun _ _ => .inl

/-- Asking for more accepts less. -/
theorem Fixes.and {R : Node → Node → Prop} {accepts : Node → Bool} (h : Fixes R accepts)
    (further : Node → Bool) : Fixes R fun c => accepts c && further c := by
  intro c c' hc
  refine (h c c' hc).imp_right fun ⟨hold, hnew⟩ => ?_
  simp [hold, hnew]

namespace Paired

variable {R : Node → Node → Prop} {n n' : Node}

/-- Where the children are the same, each is paired with itself. -/
theorem of_eq (hchildren : n'.children = n.children) (hnamed : n'.named = n.named) :
    n.Paired Eq n' where
  children := by
    rw [hchildren]
    exact List.forall₂_same.mpr fun _ _ => rfl
  named := by
    rw [hnamed]
    exact List.forall₂_same.mpr fun _ _ => rfl

theorem mono {S : Node → Node → Prop} (h : n.Paired R n') (hRS : ∀ c c', R c c' → S c c') :
    n.Paired S n' :=
  ⟨h.children.imp hRS, h.named.imp hRS⟩

theorem parts (h : n.Paired R n') :
    List.Forall₂ (fun p p' => R p.node p'.node) n.parts n'.parts := by
  have hchildren := h.children
  rw [← n.map_node_parts, ← n'.map_node_parts, List.forall₂_map_left_iff,
    List.forall₂_map_right_iff] at hchildren
  exact hchildren

theorem namedParts (h : n.Paired R n') :
    List.Forall₂ (fun p p' => R p.node p'.node) n.namedParts n'.namedParts := by
  have hnamed := h.named
  rw [← n.map_node_namedParts, ← n'.map_node_namedParts, List.forall₂_map_left_iff,
    List.forall₂_map_right_iff] at hnamed
  exact hnamed

/-- A scan that accepts what stays the same finds the same. -/
theorem filter_same {l : List n.Part} {l' : List n'.Part} {accepts : Node → Bool}
    (h : List.Forall₂ (fun p p' => R p.node p'.node) l l') (hfixes : Fixes R accepts) :
    List.Forall₂ SamePart (l.filter (accepts ·.node)) (l'.filter (accepts ·.node)) := by
  refine forall₂_filter h (fun p p' hp => ?_) fun p p' hp haccepted => ?_
  · rcases hfixes _ _ hp with heq | ⟨hold, hnew⟩
    · rw [heq]
    · rw [hold, hnew]
  · refine (hfixes _ _ hp).resolve_right fun ⟨hold, _⟩ => ?_
    rw [hold] at haccepted
    cases haccepted

/-- The first that is accepted is the same, as the accepted ones are. -/
theorem find?_same {l : List n.Part} {l' : List n'.Part} {accepts : Node → Bool}
    (h : List.Forall₂ (fun p p' => R p.node p'.node) l l') (hfixes : Fixes R accepts) :
    Option.Rel SamePart (l.find? (accepts ·.node)) (l'.find? (accepts ·.node)) := by
  rw [← List.head?_filter, ← List.head?_filter]
  exact rel_head? (filter_same h hfixes)

/-- A label that no pair changes is found at the same child. -/
theorem field? (h : n.Paired R n') {label : String}
    (hfixes : Fixes R (·.label == some label)) :
    Option.Rel SamePart (n.field? label) (n'.field? label) :=
  (find?_same h.parts hfixes).or (find?_same h.namedParts hfixes)

/-- The labels are tried one after the other, and each finds the same child or none in both. -/
theorem anyField? (h : n.Paired R n') {labels : List String}
    (hfixes : ∀ label ∈ labels, Fixes R (·.label == some label)) :
    Option.Rel SamePart (n.anyField? labels) (n'.anyField? labels) := by
  induction labels with
  | nil => exact .none
  | cons label labels ih =>
    obtain ⟨hlabel, hrest⟩ := List.forall_mem_cons.mp hfixes
    rw [Node.anyField?, Node.anyField?, List.findSome?_cons, List.findSome?_cons]
    have hfield := h.field? hlabel
    generalize n.field? label = x, n'.field? label = x' at hfield
    cases hfield with
    | some hp => exact .some hp
    -- Nothing has the first label, here as there.
    | none => exact ih hrest

/-- Comments are passed over before anything is looked for, so both scans are one. -/
theorem filter_significant (h : n.Paired R n') {accepts : Node → Bool}
    (hfixes : Fixes R accepts) :
    List.Forall₂ SamePart (n.significant.filter (accepts ·.node))
      (n'.significant.filter (accepts ·.node)) := by
  rw [Node.significant, Node.significant, List.filter_filter, List.filter_filter]
  exact filter_same h.namedParts (hfixes.and (·.kind != .comment))

theorem find? (h : n.Paired R n') {accepts : Node → Bool} (hfixes : Fixes R accepts) :
    Option.Rel SamePart (n.find? accepts) (n'.find? accepts) := by
  rw [Node.find?, Node.find?, ← List.head?_filter, ← List.head?_filter]
  exact rel_head? (h.filter_significant hfixes)

theorem findLast? (h : n.Paired R n') {accepts : Node → Bool} (hfixes : Fixes R accepts) :
    Option.Rel SamePart (n.findLast? accepts) (n'.findLast? accepts) :=
  rel_getLast? (h.filter_significant hfixes)

theorem ofKind? (h : n.Paired R n') {kind : Kind} (hfixes : Fixes R (·.kind == kind)) :
    Option.Rel SamePart (n.ofKind? kind) (n'.ofKind? kind) :=
  h.find? hfixes

theorem token? (h : n.Paired R n') {accepts : Node → Bool}
    (hfixes : Fixes R fun c => !c.isNamed && accepts c) :
    Option.Rel SamePart (n.token? accepts) (n'.token? accepts) :=
  find?_same h.parts hfixes

end Paired

/-! ## §2 Nodes with the same inside -/

/-- The second node is the first, under another label. -/
structure SameInside (n n' : Node) : Prop where
  tag : n'.tag = n.tag
  text : n'.text = n.text
  span : n'.span = n.span
  children : n'.children = n.children
  named : n'.named = n.named

/-- Another label leaves everything else as it is. -/
theorem sameInside_labelled (n : Node) (label : String) : n.SameInside (n.labelled label) :=
  ⟨rfl, rfl, rfl, rfl, rfl⟩

namespace SameInside

variable {n n' : Node}

theorem kind_eq (h : n.SameInside n') : n'.kind = n.kind := by
  rw [Node.kind, Node.kind, h.tag]

theorem trimmed_eq (h : n.SameInside n') : n'.trimmed = n.trimmed := by
  rw [Node.trimmed, Node.trimmed, h.text]

theorem paired (h : n.SameInside n') : n.Paired Eq n' :=
  .of_eq h.children h.named

theorem parts (h : n.SameInside n') : List.Forall₂ SamePart n.parts n'.parts :=
  h.paired.parts

theorem significant (h : n.SameInside n') : List.Forall₂ SamePart n.significant n'.significant :=
  Paired.filter_same h.paired.namedParts (fixes_eq (·.kind != .comment))

theorem field? (h : n.SameInside n') (label : String) :
    Option.Rel SamePart (n.field? label) (n'.field? label) :=
  h.paired.field? (fixes_eq _)

theorem anyField? (h : n.SameInside n') (labels : List String) :
    Option.Rel SamePart (n.anyField? labels) (n'.anyField? labels) :=
  h.paired.anyField? fun _ _ => fixes_eq _

theorem hasAnyField_eq (h : n.SameInside n') (labels : List String) :
    n'.hasAnyField labels = n.hasAnyField labels := by
  rw [Node.hasAnyField, Node.hasAnyField]
  congr 1
  funext label
  exact (h.field? label).isSome_eq

theorem token? (h : n.SameInside n') (accepts : Node → Bool) :
    Option.Rel SamePart (n.token? accepts) (n'.token? accepts) :=
  h.paired.token? (fixes_eq _)

theorem find? (h : n.SameInside n') (accepts : Node → Bool) :
    Option.Rel SamePart (n.find? accepts) (n'.find? accepts) :=
  h.paired.find? (fixes_eq _)

theorem findLast? (h : n.SameInside n') (accepts : Node → Bool) :
    Option.Rel SamePart (n.findLast? accepts) (n'.findLast? accepts) :=
  h.paired.findLast? (fixes_eq _)

theorem ofKind? (h : n.SameInside n') (kind : Kind) :
    Option.Rel SamePart (n.ofKind? kind) (n'.ofKind? kind) :=
  h.find? _

/-- A node is an empty rung or is none, whatever its own label. -/
theorem onlyChild? (h : n.SameInside n') (labels : List String) :
    Option.Rel SamePart (n.onlyChild? labels) (n'.onlyChild? labels) := by
  rw [Node.onlyChild?, Node.onlyChild?, h.hasAnyField_eq, h.children]
  refine .ite .none ?_
  have hsignificant := h.significant
  generalize n.significant = l, n'.significant = l' at hsignificant
  -- No child, one child, or more than one.
  rcases hsignificant with _ | ⟨hp, _ | ⟨_, _⟩⟩
  · exact .none
  · exact .some hp
  · exact .none

end SameInside

end Node

namespace Convert

open Conversion Node

variable {α : Type} {n n' : Node}

/-! ## §3 Faults at the node -/

/-- A fault shows the tag, the text and the span of a node, and not its label. -/
theorem fault_congr (h : n.SameInside n') (problem : Problem) (settings : Settings) :
    problem.fault n' settings = problem.fault n settings := by
  rw [Problem.fault, Problem.fault, Fault.on, Fault.on, h.tag, h.text, h.span]

theorem fail_congr (h : n.SameInside n') (problem : Problem) :
    (fail problem n : Conversion α) = fail problem n' := by
  funext settings
  rw [fail, fail, fault_congr h]

theorem failBare_congr (h : n.SameInside n') (problem : Problem) :
    (failBare problem n : Conversion α) = failBare problem n' := by
  funext settings
  rw [failBare, failBare, Problem.bareFault, Problem.bareFault, Fault.on, Fault.on, h.tag, h.text,
    h.span]

/-- What has to be there is the same, or is missed in the same words. -/
theorem require_bind_congr (h : n.SameInside n') {x : Option n.Part} {x' : Option n'.Part}
    {problem : Problem} {f : n.Part → Conversion α} {g : n'.Part → Conversion α}
    (hx : Option.Rel SamePart x x') (hfg : ∀ p p', SamePart p p' → f p = g p') :
    require x problem n >>= f = require x' problem n' >>= g := by
  cases hx with
  | some hp =>
    rw [require, require, pure_bind, pure_bind]
    exact hfg _ _ hp
  | none =>
    funext settings
    show ((fail problem n : Conversion n.Part) >>= f).run settings =
      ((fail problem n' : Conversion n'.Part) >>= g).run settings
    rw [run_bind, run_bind, run_fail, run_fail, fault_congr h]

/-- A value that has to be there is missed in the same words. -/
theorem require_congr (h : n.SameInside n') (x : Option α) (problem : Problem) :
    require x problem n = require x problem n' := by
  cases x with
  | some a => rfl
  | none => exact fail_congr h problem

/-! ## §4 Constructs -/

theorem bindings_congr (h : n.SameInside n') :
    bindings n (expressions n) = bindings n' (expressions n') := by
  rw [bindings, bindings]
  congr 1
  refine mapM_eq_of_forall₂ (h.significant.imp fun p p' hp => ?_)
  obtain ⟨m, _, _, rfl, rfl⟩ := hp.exists_node
  rfl

/-- What is read of a clause is read of the clause itself. -/
theorem forClause_same {p : n.Part} {p' : n'.Part} (hp : SamePart p p') :
    forClause p.node ((expressions n).inside p) =
      forClause p'.node ((expressions n').inside p') := by
  obtain ⟨m, _, _, rfl, rfl⟩ := hp.exists_node
  rfl

theorem leadingBindings_same {x : Option n.Part} {x' : Option n'.Part}
    (hx : Option.Rel SamePart x x') :
    leadingBindings (expressions n) x = leadingBindings (expressions n') x' := by
  cases hx with
  | none => rfl
  | some hp =>
    obtain ⟨m, _, _, rfl, rfl⟩ := hp.exists_node
    rfl

/-- A condition in front is labelled as one, in both lists. -/
theorem splitCondition_same {l : List n.Part} {l' : List n'.Part}
    (h : List.Forall₂ SamePart l l') :
    -- The label is that of a child, and children are the same.
    Option.Rel SamePart (splitCondition l).1 (splitCondition l').1 ∧
      List.Forall₂ SamePart (splitCondition l).2 (splitCondition l').2 := by
  cases h with
  | nil => exact ⟨.none, .nil⟩
  | cons hp hrest =>
    rw [splitCondition, splitCondition, hp]
    split
    · exact ⟨.some hp, hrest⟩
    · exact ⟨.none, .cons hp hrest⟩

/-- Behind the condition stands the body alone. -/
theorem conditionAndBody_congr (h : n.SameInside n') {l : List n.Part} {l' : List n'.Part}
    (hl : List.Forall₂ SamePart l l') :
    conditionAndBody (expressions n) l = conditionAndBody (expressions n') l' := by
  obtain ⟨hcondition, hrest⟩ := splitCondition_same hl
  unfold conditionAndBody
  generalize splitCondition l = split, splitCondition l' = split' at hcondition hrest
  obtain ⟨condition, rest⟩ := split
  obtain ⟨condition', rest'⟩ := split'
  dsimp only at *
  rw [resolve?_same hcondition]
  refine bind_congr fun c => ?_
  cases hrest with
  -- The body is missed at the node itself.
  | nil => exact fail_congr h _
  | cons hbody hextra =>
    obtain ⟨body, _, _, rfl, rfl⟩ := hbody.exists_node
    cases hextra with
    | nil => rfl
    -- One child too many is blamed itself, and is the same.
    | cons hp _ =>
      obtain ⟨extra, _, _, rfl, rfl⟩ := hp.exists_node
      rfl

/-- A comprehension with the body last is read off its children in their order. -/
theorem bodyLast_congr (h : n.SameInside n') :
    bodyLast n (expressions n) = bodyLast n' (expressions n') := by
  -- What is left for the loop depends on whether a clause is in front, so that is compared first.
  have hclause : Option.Rel SamePart (n.significant.head?.filter (·.node.kind == .letClause))
      (n'.significant.head?.filter (·.node.kind == .letClause)) :=
    (rel_head? h.significant).filter fun _ _ hp => by rw [hp]
  have hrest : List.Forall₂ SamePart
      (if (n.significant.head?.filter (·.node.kind == .letClause)).isSome then n.significant.tail
        else n.significant)
      (if (n'.significant.head?.filter (·.node.kind == .letClause)).isSome then n'.significant.tail
        else n'.significant) := by
    rw [hclause.isSome_eq]
    split
    · exact rel_tail h.significant
    · exact h.significant
  unfold bodyLast
  dsimp only
  generalize n.significant.head?.filter (·.node.kind == .letClause) = clause,
    n'.significant.head?.filter (·.node.kind == .letClause) = clause' at hclause hrest
  rw [leadingBindings_same hclause, hclause.isSome_eq]
  rw [hclause.isSome_eq] at hrest
  generalize (if clause.isSome then n.significant.tail else n.significant) = rest,
    (if clause.isSome then n'.significant.tail else n'.significant) = rest' at hrest
  have hloop : Option.Rel SamePart (rest.head?.filter (·.node.kind == .forClause))
      (rest'.head?.filter (·.node.kind == .forClause)) :=
    (rel_head? hrest).filter fun _ _ hp => by rw [hp]
  refine bind_congr fun lets => ?_
  generalize rest.head?.filter (·.node.kind == .forClause) = loop,
    rest'.head?.filter (·.node.kind == .forClause) = loop' at hloop
  cases hloop with
  -- A `let` clause without a loop behind it is a fault; without either, the other style is tried.
  | none =>
    dsimp only
    split
    · exact fail_congr h _
    · rfl
  | some hp =>
    dsimp only
    rw [forClause_same hp, conditionAndBody_congr h (rel_tail hrest), h.span]

/-- A comprehension with the body first looks each part up by itself. -/
theorem bodyFirst_congr (h : n.SameInside n') :
    bodyFirst n (expressions n) = bodyFirst n' (expressions n') := by
  unfold bodyFirst
  refine require_bind_congr h ((h.field? _).or (h.ofKind? _)) fun loop loop' hloop => ?_
  refine require_bind_congr h ((h.field? _).or (h.find? _)) fun body body' hbody => ?_
  rw [forClause_same hloop, resolve?_same (h.field? _), resolve_same hbody, h.span]

theorem comprehension_congr (h : n.SameInside n') :
    comprehension n (expressions n) = comprehension n' (expressions n') := by
  rw [comprehension, comprehension, bodyLast_congr h, bodyFirst_congr h]

/-- An empty rung stands for what it holds. -/
theorem throughRung_same {p : n.Part} {p' : n'.Part} (hp : SamePart p p')
    (accepts : Expression → Bool) :
    throughRung (expressions n p) accepts = throughRung (expressions n' p') accepts := by
  rw [expressions, expressions, hp]

/-- The operands and the operator of an operation are found at the same children. -/
theorem binary_congr (h : n.SameInside n') :
    binary n (expressions n) = binary n' (expressions n') := by
  have honly := h.onlyChild? binaryLabels
  unfold binary
  generalize n.onlyChild? binaryLabels = x, n'.onlyChild? binaryLabels = x' at honly
  cases honly with
  | some hp => exact throughRung_same hp _
  | none =>
    dsimp only
    refine require_bind_congr h ((h.field? _).or (rel_head? h.significant))
      fun left left' hleft => ?_
    refine require_bind_congr h ?_ fun right right' hright => ?_
    -- The last child is the right operand only where there are two.
    · rw [h.significant.length_eq]
      exact (h.field? _).or (.ite (rel_getLast? h.significant) .none)
    refine require_bind_congr h ((h.field? _).or (h.token? _)) fun token token' htoken => ?_
    rw [htoken, resolve_same hleft, resolve_same hright, h.span]

theorem unary_congr (h : n.SameInside n') :
    unary n (expressions n) = unary n' (expressions n') := by
  have honly := h.onlyChild? unaryLabels
  unfold unary
  generalize n.onlyChild? unaryLabels = x, n'.onlyChild? unaryLabels = x' at honly
  cases honly with
  | some hp => exact throughRung_same hp _
  | none =>
    dsimp only
    refine require_bind_congr h ((h.field? _).or (h.token? _)) fun token token' htoken => ?_
    rw [htoken]
    refine bind_congr fun operator => ?_
    refine require_bind_congr h ((h.field? _).or (rel_getLast? h.significant))
      fun operand operand' hoperand => ?_
    rw [resolve_same hoperand, h.span]

theorem conditional_congr (h : n.SameInside n') :
    conditional n (expressions n) = conditional n' (expressions n') := by
  -- A part is labelled, or counted where no part is labelled.
  have hpart (label : String) (i : Nat) : Option.Rel SamePart
      ((n.field? label).or (if n.hasAnyField conditionalLabels then none else n.significant[i]?))
      ((n'.field? label).or
        (if n'.hasAnyField conditionalLabels then none else n'.significant[i]?)) := by
    rw [h.hasAnyField_eq]
    exact (h.field? label).or (.ite .none (rel_getElem? h.significant i))
  have honly := h.onlyChild? conditionalLabels
  unfold conditional
  generalize n.onlyChild? conditionalLabels = x, n'.onlyChild? conditionalLabels = x' at honly
  cases honly with
  | some hp => exact throughRung_same hp _
  | none =>
    dsimp only
    refine require_bind_congr h (hpart _ _) fun condition condition' hcondition => ?_
    refine require_bind_congr h (hpart _ _) fun consequence consequence' hconsequence => ?_
    refine require_bind_congr h (hpart _ _) fun alternative alternative' halternative => ?_
    rw [resolve_same hcondition, resolve_same hconsequence, resolve_same halternative, h.span]

theorem call_congr (h : n.SameInside n') : call n (expressions n) = call n' (expressions n') := by
  have hcallee : Option.Rel SamePart
      (((n.anyField? ["function", "name"]).or (nameChild? n)).filter (·.node.hasText))
      (((n'.anyField? ["function", "name"]).or (nameChild? n')).filter (·.node.hasText)) :=
    ((h.anyField? _).or (h.find? _)).filter fun _ _ hp => by rw [hp]
  unfold call
  refine require_bind_congr h hcallee fun callee callee' hcallee => ?_
  dsimp only
  rw [argumentsOf_same ((h.field? "arguments").or (h.ofKind? .arguments)), hcallee, h.span]

/-- The parts of an access are labelled, or are the first two children. -/
theorem accessParts_congr (h : n.SameInside n') (first second : List String) :
    Option.Rel SamePart (accessParts n first second).1 (accessParts n' first second).1 ∧
      Option.Rel SamePart (accessParts n first second).2 (accessParts n' first second).2 := by
  rw [accessParts, accessParts, h.hasAnyField_eq]
  split
  · exact ⟨h.anyField? _, h.anyField? _⟩
  · exact ⟨rel_getElem? h.significant 0, rel_getElem? h.significant 1⟩

theorem index_congr (h : n.SameInside n') :
    index n (expressions n) = index n' (expressions n') := by
  obtain ⟨harray, hposition⟩ := accessParts_congr h ["array", "value"] ["index"]
  unfold index
  refine require_bind_congr h harray fun array array' harray => ?_
  refine require_bind_congr h (hposition.filter fun _ _ hp => by rw [hp])
    fun position position' hposition => ?_
  rw [resolve_same harray, resolve_same hposition, h.span]

theorem member_congr (h : n.SameInside n') :
    member n (expressions n) = member n' (expressions n') := by
  obtain ⟨hobject, hproperty⟩ := accessParts_congr h ["object", "value"] ["property", "index"]
  unfold member
  refine require_bind_congr h hobject fun object object' hobject => ?_
  refine require_bind_congr h (hproperty.filter fun _ _ hp => by rw [hp])
    fun property property' hproperty => ?_
  rw [resolve_same hobject, hproperty, h.span]

theorem vector_congr (h : n.SameInside n') :
    vector n (expressions n) = vector n' (expressions n') := by
  unfold vector
  rw [mapM_eq_of_forall₂ (h.significant.imp fun _ _ hp => resolve_same hp _), h.span]

theorem letIn_congr (h : n.SameInside n') :
    letIn n (expressions n) = letIn n' (expressions n') := by
  unfold letIn
  refine require_bind_congr h ((h.field? _).or (h.findLast? _)) fun body body' hbody => ?_
  rw [bindings_congr h, resolve_same hbody, h.span]

/-- A literal is its text. -/
theorem literal_congr (h : n.SameInside n') : literal n = literal n' := by
  have hnumber : numberOf n = numberOf n' := by
    rw [numberOf, numberOf, Problem.bareFault, Problem.bareFault, Fault.on, Fault.on, h.text,
      h.trimmed_eq, h.tag, h.span]
  rw [literal, literal, h.kind_eq, hnumber, h.text, h.tag, fail_congr h]

/-- The three parts of a range are the same, or the same part is one too many. -/
theorem rangeParts_congr (h : n.SameInside n') :
    (∃ start step stop start' step' stop', rangeParts n = pure (start, step, stop) ∧
      rangeParts n' = pure (start', step', stop') ∧ Option.Rel SamePart start start' ∧
      Option.Rel SamePart step step' ∧ Option.Rel SamePart stop stop') ∨
    ∃ problem m, rangeParts n = fail problem m ∧ rangeParts n' = fail problem m := by
  have hpresent (label : String) : Option.Rel SamePart
      ((n.field? label).filter (!·.node.isPlaceholder))
      ((n'.field? label).filter (!·.node.isPlaceholder)) :=
    (h.field? label).filter fun _ _ hp => by rw [hp]
  have hreadable : List.Forall₂ SamePart (n.significant.filter (!·.node.isPlaceholder))
      (n'.significant.filter (!·.node.isPlaceholder)) :=
    rel_filter h.significant fun _ _ hp => by rw [hp]
  rw [rangeParts, rangeParts, h.hasAnyField_eq]
  split
  · exact .inl ⟨_, _, _, _, _, _, rfl, rfl, hpresent _, hpresent _, hpresent _⟩
  · generalize n.significant.filter (!·.node.isPlaceholder) = parts,
      n'.significant.filter (!·.node.isPlaceholder) = parts' at hreadable
    rcases hreadable with _ | ⟨h₁, _ | ⟨h₂, _ | ⟨h₃, _ | ⟨h₄, _⟩⟩⟩⟩
    · exact .inl ⟨_, _, _, _, _, _, rfl, rfl, .none, .none, .none⟩
    · exact .inl ⟨_, _, _, _, _, _, rfl, rfl, .some h₁, .none, .none⟩
    · exact .inl ⟨_, _, _, _, _, _, rfl, rfl, .some h₁, .none, .some h₂⟩
    · exact .inl ⟨_, _, _, _, _, _, rfl, rfl, .some h₁, .some h₂, .some h₃⟩
    · exact .inr ⟨_, _, rfl, by rw [h₄]⟩

theorem range_congr (h : n.SameInside n') :
    range n (expressions n) = range n' (expressions n') := by
  unfold range
  dsimp only
  rw [h.kind_eq, h.tag, fail_congr h]
  -- A node that is no range is refused for its kind.
  refine ite_congr rfl (fun _ => rfl) fun _ => ?_
  obtain ⟨start, step, stop, start', step', stop', hparts, hparts', hstart, hstep, hstop⟩ |
    ⟨problem, m, hparts, hparts'⟩ := rangeParts_congr h
  · rw [hparts, hparts', pure_bind, pure_bind]
    refine require_bind_congr h hstart fun a a' ha => ?_
    refine require_bind_congr h hstop fun b b' hb => ?_
    rw [resolve_same ha, resolve?_same hstep, resolve_same hb, h.span]
  · rw [hparts, hparts']
    rfl

/-- The candidates are tried in the same order. -/
theorem firstConverted_same {l : List n.Part} {l' : List n'.Part}
    (hl : List.Forall₂ SamePart l l') :
    firstConverted (expressions n) l = firstConverted (expressions n') l' := by
  induction hl with
  | nil => rfl
  | cons hp _ ih =>
    obtain ⟨m, _, _, rfl, rfl⟩ := hp.exists_node
    rw [firstConverted, firstConverted, ih]
    rfl

theorem parenthesized_congr (h : n.SameInside n') :
    parenthesized n (expressions n) = parenthesized n' (expressions n') := by
  unfold parenthesized
  refine require_bind_congr h ((h.field? _).or (rel_head? h.significant))
    fun inner inner' hinner => ?_
  obtain ⟨m, hm, hm', rfl, rfl⟩ := hinner.exists_node
  -- The candidates are the same children of the inner node, seen from two outer ones.
  have hcandidates (l : List m.Part) : List.Forall₂ SamePart
      (l.map (Part.within ⟨m, hm⟩ : m.Part → n.Part))
      (l.map (Part.within ⟨m, hm'⟩ : m.Part → n'.Part)) := by
    rw [List.forall₂_map_left_iff, List.forall₂_map_right_iff]
    exact List.forall₂_same.mpr fun _ _ => rfl
  dsimp only
  rw [firstConverted_same (hcandidates _), require_congr h]
  rfl

/-! ## §5 The choice among them -/

/-- Which labels a construct has depends on the kind of its node. -/
theorem rungChild?_congr (h : n.SameInside n') :
    Option.Rel SamePart (rungChild? n) (rungChild? n') := by
  rw [rungChild?, rungChild?, h.kind_eq]
  exact (Option.Rel.refl _).bind fun labels labels' hlabels => hlabels ▸ h.onlyChild? labels

/-- A wrapper holds its first child that is no comment, or its first child. -/
theorem wrappedChild?_congr (h : n.SameInside n') :
    Option.Rel SamePart (wrappedChild? n) (wrappedChild? n') :=
  (rel_head? h.significant).or (rel_head? h.parts)

theorem unsupported_congr (h : n.SameInside n') : unsupported n = unsupported n' := by
  rw [unsupported, unsupported, Report.on, Report.on, h.tag, h.span]

/-- What a node stands for does not depend on the label that its parent holds it under: the node
under another label is converted to the same expression, or fails with the same fault. -/
theorem result_expression_congr (h : n.SameInside n') (settings : Settings) :
    (expression n).result settings = (expression n').result settings := by
  have hrung := rungChild?_congr h
  have hwrapped := wrappedChild?_congr h
  rw [expression_eq, expression_eq]
  unfold expressionStep
  generalize rungChild? n = x, rungChild? n' = x' at hrung
  cases hrung with
  | some hp =>
    -- The remark about an empty rung shows the node, but is no part of the result.
    obtain ⟨m, _, _, rfl, rfl⟩ := hp.exists_node
    rfl
  -- Each construct is replaced by its counterpart, and the choice among them is by kind.
  | none =>
    dsimp only
    rw [h.kind_eq, h.trimmed_eq, h.tag, h.span, literal_congr h, call_congr h, vector_congr h,
      index_congr h, member_congr h, range_congr h, letIn_congr h, comprehension_congr h,
      binary_congr h, unary_congr h, conditional_congr h, parenthesized_congr h, fail_congr h,
      fail_congr h, unsupported_congr h]
    generalize wrappedChild? n = x, wrappedChild? n' = x' at hwrapped
    split
    -- A wrapper stands for what it holds.
    iterate 2
      · cases hwrapped with
        | some hp =>
          obtain ⟨m, _, _, rfl, rfl⟩ := hp.exists_node
          rfl
        | none =>
          dsimp only
          rw [failBare_congr h]
    all_goals rfl

/-- Nor does the part that it plays in a construct. -/
theorem result_resolved_congr (h : n.SameInside n') (role : Role) (settings : Settings) :
    (resolved role n).result settings = (resolved role n').result settings := by
  have hresult := result_expression_congr h settings
  unfold resolved
  rw [result_bind, result_bind]
  -- A fault that is blamed on the part shows the part, and that is the same.
  have hconverted : (if role.addsFault then (expression n).blame
        (fun inner => .invalid role inner.message) n else expression n).result settings =
      (if role.addsFault then (expression n').blame
        (fun inner => .invalid role inner.message) n' else expression n').result settings := by
    split
    · rw [result_blame, result_blame, hresult]
      simp only [fault_congr h]
    · exact hresult
  rw [hconverted]
  split
  · rfl
  · rw [require_congr h]

end Convert

end Scad
