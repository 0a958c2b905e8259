import Mathlib.Data.List.Find
import Scad.Proofs.PlainValue

/-!
# Labelled and Unlabelled Trees

A grammar may label the parts of a construct, or leave them to be found by their order.  Every
construct looks for the labels first and for the places next, and an expression does not depend on
which of the two its tree has.

* `Node.unlabelled` — the tree without its labels.
* `Node.Spelled` — the trees in which each part has its label and its place.
* `expression_unlabelled` — such a tree means the same without its labels.
-/

namespace Scad

/-- Whether a node of this kind is a literal or a name by itself. -/
def Kind.isLeaf : Kind → Bool
  | number | string | boolean | undefined | identifier | specialVariable => true
  | _ => false

namespace Node

/-! ## §1 Trees without labels -/

/-- The tree without its labels. -/
def unlabelled (n : Node) : Node :=
  { n with
    label := none
    children := n.parts.map fun c => unlabelled c.node
    named := n.namedParts.map fun c => unlabelled c.node }
termination_by sizeOf n
decreasing_by all_goals exact c.inside

variable {n : Node}

theorem unlabelled_eq (n : Node) :
    n.unlabelled =
      { n with
        label := none
        children := n.children.map unlabelled
        named := n.named.map unlabelled } := by
  rw [unlabelled, ← n.map_node_parts, ← n.map_node_namedParts, List.map_map, List.map_map]
  rfl

@[simp] theorem tag_unlabelled (n : Node) : n.unlabelled.tag = n.tag := by
  rw [unlabelled_eq]

@[simp] theorem text_unlabelled (n : Node) : n.unlabelled.text = n.text := by
  rw [unlabelled_eq]

@[simp] theorem span_unlabelled (n : Node) : n.unlabelled.span = n.span := by
  rw [unlabelled_eq]

@[simp] theorem isNamed_unlabelled (n : Node) : n.unlabelled.isNamed = n.isNamed := by
  rw [unlabelled_eq]

@[simp] theorem label_unlabelled (n : Node) : n.unlabelled.label = none := by
  rw [unlabelled_eq]

@[simp] theorem children_unlabelled (n : Node) :
    n.unlabelled.children = n.children.map unlabelled := by
  rw [unlabelled_eq]

@[simp] theorem named_unlabelled (n : Node) : n.unlabelled.named = n.named.map unlabelled := by
  rw [unlabelled_eq]

@[simp] theorem kind_unlabelled (n : Node) : n.unlabelled.kind = n.kind := by
  simp [kind]

@[simp] theorem trimmed_unlabelled (n : Node) : n.unlabelled.trimmed = n.trimmed := by
  simp [trimmed]

@[simp] theorem hasText_unlabelled (n : Node) : n.unlabelled.hasText = n.hasText := by
  simp [hasText]

theorem bare_unlabelled (ms : List Node) : ∀ m ∈ ms.map unlabelled, m.label = none := by
  simp

/-! ## §2 Children in their places -/

/-- The named children of a node are the parts, in this order, and its other children are the
tokens, in this order.  No part is a comment. -/
structure Arranged (n : Node) (tokens parts : List Node) : Prop where
  named_eq : n.named = parts
  filter_named : n.children.filter (·.isNamed) = parts
  filter_tokens : n.children.filter (!·.isNamed) = tokens
  ne_comment : ∀ m ∈ parts, m.kind ≠ .comment

theorem Part.eq_of_map_node_eq {ps qs : List n.Part} (h : ps.map Part.node = qs.map Part.node) :
    ps = qs :=
  (List.map_inj_right fun _ _ => Part.eq_of_node_eq).mp h

/-- The label of a part, in a tree with labels or in one without. -/
def labelIf : Bool → String → Option String
  | true, label => some label
  | false, _ => none

/-- Of things with different labels, each is the first with its own. -/
theorem find?_eq_getElem? {α : Type} {f : α → Option String} {xs : List α} {labels : List String}
    {label : String} {i : Nat} (hlabels : xs.map f = labels.map some) (hnodup : labels.Nodup)
    (hi : labels[i]? = some label) : xs.find? (f · == some label) = xs[i]? := by
  induction labels generalizing xs i with
  | nil => simp at hi
  | cons first labels ih =>
    obtain ⟨x, xs, rfl, hx, hxs⟩ := List.map_eq_cons_iff.mp hlabels
    obtain ⟨hfirst, hnodup⟩ := List.nodup_cons.mp hnodup
    cases i with
    | zero =>
      obtain rfl : first = label := by simpa using hi
      simp [hx]
    | succ i =>
      have hne : first ≠ label := by
        rintro rfl
        exact hfirst (List.mem_of_getElem? hi)
      simpa [hx, hne] using ih hxs hnodup hi

namespace Arranged

variable {tokens parts : List Node} {label : String}

theorem unlabelled (h : n.Arranged tokens parts) :
    n.unlabelled.Arranged (tokens.map Node.unlabelled) (parts.map Node.unlabelled) where
  named_eq := by rw [named_unlabelled, h.named_eq]
  filter_named := by
    rw [children_unlabelled, List.filter_map, ← h.filter_named]
    simp [Function.comp_def]
  filter_tokens := by
    rw [children_unlabelled, List.filter_map, ← h.filter_tokens]
    simp [Function.comp_def]
  ne_comment := by simpa using h.ne_comment

theorem map_node_significant (h : n.Arranged tokens parts) :
    n.significant.map Part.node = parts := by
  rw [Node.map_node_significant, h.named_eq, List.filter_eq_self]
  simpa using h.ne_comment

theorem namedParts_eq (h : n.Arranged tokens parts) : n.namedParts = n.significant := by
  apply Part.eq_of_map_node_eq
  rw [map_node_namedParts, h.map_node_significant, h.named_eq]

theorem filter_isNamed_parts (h : n.Arranged tokens parts) :
    n.parts.filter (·.node.isNamed) = n.significant := by
  apply Part.eq_of_map_node_eq
  rw [h.map_node_significant, ← h.filter_named, ← n.map_node_parts, List.filter_map]
  rfl

/-- A label that no token has is looked for among the parts. -/
theorem field?_eq_find? (h : n.Arranged tokens parts)
    (htokens : ∀ t ∈ tokens, t.label ≠ some label) :
    n.field? label = n.significant.find? (·.node.label == some label) := by
  have hchildren : n.parts.find? (·.node.label == some label) =
      n.significant.find? (·.node.label == some label) := by
    rw [← h.filter_isNamed_parts, List.find?_filter]
    refine List.find?_congr fun c hc => ?_
    by_cases hnamed : c.node.isNamed
    · simp [hnamed, beq_eq_decide]
    · have htoken : c.node ∈ tokens := by
        rw [← h.filter_tokens, List.mem_filter]
        exact ⟨mem_children_of_mem_parts hc, by simpa using hnamed⟩
      simp [hnamed, htokens _ htoken]
  rw [field?, hchildren, h.namedParts_eq, Option.or_self]

/-- Where the parts have their labels, each is found under its own; where none has one, none is. -/
theorem field?_labelled (h : n.Arranged tokens parts) {b : Bool} {labels : List String}
    (hlabels : parts.map (·.label) = labels.map (labelIf b)) (hnodup : labels.Nodup) {i : Nat}
    (hi : labels[i]? = some label) (htokens : ∀ t ∈ tokens, t.label ≠ some label) :
    n.field? label = if b then n.significant[i]? else none := by
  rw [h.field?_eq_find? htokens]
  rw [← h.map_node_significant, List.map_map] at hlabels
  cases b with
  | true => exact find?_eq_getElem? hlabels hnodup hi
  | false =>
    refine List.find?_eq_none.mpr fun c hc => ?_
    have hlabel : c.node.label ∈ labels.map (labelIf false) := hlabels ▸ List.mem_map_of_mem hc
    obtain ⟨_, -, hnone⟩ := List.mem_map.mp hlabel
    simp [← hnone, labelIf]

/-- A label that no part has is looked for among the tokens. -/
theorem field?_eq_token? (h : n.Arranged tokens parts)
    (hparts : ∀ m ∈ parts, m.label ≠ some label) :
    n.field? label = n.token? (·.label == some label) := by
  have hnamed : n.namedParts.find? (·.node.label == some label) = none := by
    rw [List.find?_eq_none]
    intro c hc
    simpa using hparts _ (h.named_eq ▸ mem_named_of_mem_namedParts hc)
  rw [field?, hnamed, Option.or_none, token?]
  refine List.find?_congr fun c hc => ?_
  by_cases hnamed : c.node.isNamed
  · have hpart : c.node ∈ parts := by
      rw [← h.filter_named, List.mem_filter]
      exact ⟨mem_children_of_mem_parts hc, hnamed⟩
    simp [hparts _ hpart]
  · simp [hnamed]

/-- The only token is found where it is accepted. -/
theorem exists_token {token : Node} (h : n.Arranged [token] parts) :
    ∃ p : n.Part, p.node = token ∧
      ∀ accepts, n.token? accepts = if accepts token then some p else none := by
  have htokens : (n.parts.filter (!·.node.isNamed)).map Part.node = [token] := by
    rw [← h.filter_tokens, ← n.map_node_parts, List.filter_map]
    rfl
  obtain ⟨p, hp, rfl⟩ := List.map_eq_singleton_iff.mp htokens
  refine ⟨p, rfl, fun accepts => ?_⟩
  calc n.token? accepts
      = (n.parts.filter (!·.node.isNamed)).find? (accepts ·.node) := by simp [token?]
    _ = if accepts p.node then some p else none := by rw [hp, List.find?_singleton]

theorem significant_one {a : Node} (h : n.Arranged tokens [a]) :
    ∃ p : n.Part, n.significant = [p] ∧ p.node = a :=
  List.map_eq_singleton_iff.mp h.map_node_significant

theorem significant_two {a b : Node} (h : n.Arranged tokens [a, b]) :
    ∃ p q : n.Part, n.significant = [p, q] ∧ p.node = a ∧ q.node = b := by
  obtain ⟨p, tail, hp, rfl, htail⟩ := List.map_eq_cons_iff.mp h.map_node_significant
  obtain ⟨q, rfl, rfl⟩ := List.map_eq_singleton_iff.mp htail
  exact ⟨p, q, hp, rfl, rfl⟩

theorem significant_three {a b c : Node} (h : n.Arranged tokens [a, b, c]) :
    ∃ p q r : n.Part, n.significant = [p, q, r] ∧ p.node = a ∧ q.node = b ∧ r.node = c := by
  obtain ⟨p, tail, hp, rfl, htail⟩ := List.map_eq_cons_iff.mp h.map_node_significant
  obtain ⟨q, tail, rfl, rfl, hrest⟩ := List.map_eq_cons_iff.mp htail
  obtain ⟨r, rfl, rfl⟩ := List.map_eq_singleton_iff.mp hrest
  exact ⟨p, q, r, hp, rfl, rfl, rfl⟩

/-- A node with a token is no empty rung. -/
theorem onlyChild?_of_token {token : Node} {labels : List String} (h : n.Arranged [token] parts) :
    n.onlyChild? labels = none := by
  obtain ⟨p, -, htoken⟩ := h.exists_token
  cases honly : n.onlyChild? labels with
  | none => rfl
  | some only =>
    have hnone := (lookups_of_onlyChild? honly).2 fun _ => true
    simp [htoken] at hnone

/-- A node with more than one part is no empty rung. -/
theorem onlyChild?_of_parts {labels : List String} (h : n.Arranged tokens parts)
    (hlength : parts.length ≠ 1) : n.onlyChild? labels = none := by
  cases honly : n.onlyChild? labels with
  | none => rfl
  | some only =>
    refine absurd ?_ hlength
    rw [← h.map_node_significant, significant_of_onlyChild? honly]
    rfl

end Arranged

/-! ## §3 Trees with all their labels -/

/-- The tree of an expression in which every part of a construct has its label, and stands in its
place. -/
inductive Spelled : Node → Prop where
  /-- A literal or a name, whatever its text. -/
  | leaf {n : Node} (hkind : n.kind.isLeaf = true) : Spelled n
  /-- A literal with nothing inside. -/
  | emptyLiteral {n : Node} (hkind : n.kind = .literal) (hchildren : n.children = [])
      (hnamed : n.named = []) : Spelled n
  /-- `left operator right` -/
  | binary {n left operator right : Node} (hkind : n.kind = .binaryExpression)
      (hplaces : n.Arranged [operator] [left, right])
      (hlabels : [left, right].map (·.label) = ["left", "right"].map some)
      (hlabel : operator.label = some "operator")
      (hoperator : (BinaryOperator.ofSymbol? operator.text).isSome = true)
      (hleft : Spelled left) (hright : Spelled right) : Spelled n
  /-- `operator operand` -/
  | unary {n operator operand : Node} (hkind : n.kind = .unaryExpression)
      (hplaces : n.Arranged [operator] [operand])
      (hlabels : [operand].map (·.label) = ["operand"].map some)
      (hlabel : operator.label = some "operator")
      (hoperator : (UnaryOperator.ofSymbol? operator.text).isSome = true)
      (hoperand : Spelled operand) : Spelled n
  /-- `condition ? consequence : alternative` -/
  | conditional {n condition consequence alternative : Node} {tokens : List Node}
      (hkind : n.kind = .conditionalExpression)
      (hplaces : n.Arranged tokens [condition, consequence, alternative])
      (htokens : ∀ t ∈ tokens, t.label = none)
      (hlabels : [condition, consequence, alternative].map (·.label) =
        ["condition", "consequence", "alternative"].map some)
      (hcondition : Spelled condition) (hconsequence : Spelled consequence)
      (halternative : Spelled alternative) : Spelled n
  /-- `array[index]` -/
  | index {n array index : Node} {tokens : List Node} (hkind : n.kind = .indexExpression)
      (hplaces : n.Arranged tokens [array, index]) (htokens : ∀ t ∈ tokens, t.label = none)
      (hlabels : [array, index].map (·.label) = ["array", "index"].map some)
      (harray : Spelled array) (hindex : Spelled index) : Spelled n
  /-- `object.property`, where the property is any node. -/
  | member {n object property : Node} {tokens : List Node} (hkind : n.kind = .memberExpression)
      (hplaces : n.Arranged tokens [object, property]) (htokens : ∀ t ∈ tokens, t.label = none)
      (hlabels : [object, property].map (·.label) = ["object", "property"].map some)
      (hobject : Spelled object) : Spelled n
  /-- `[elements]`, whose elements need no labels. -/
  | vector {n : Node} {tokens elements : List Node} (hkind : n.kind = .vector)
      (hplaces : n.Arranged tokens elements) (helements : ∀ m ∈ elements, Spelled m) : Spelled n
  /-- `(inner)` -/
  | parenthesized {n inner : Node} {tokens : List Node}
      (hkind : n.kind = .parenthesizedExpression) (hplaces : n.Arranged tokens [inner])
      (htokens : ∀ t ∈ tokens, t.label = none)
      (hlabels : [inner].map (·.label) = ["expression"].map some)
      (hinner : Spelled inner) : Spelled n
  /-- `[start : stop]` -/
  | range {n start stop : Node} {tokens : List Node} (hkind : n.kind = .rangeExpression)
      (hplaces : n.Arranged tokens [start, stop]) (htokens : ∀ t ∈ tokens, t.label = none)
      (hlabels : [start, stop].map (·.label) = ["start", "end"].map some)
      (hstart : Spelled start) (hstop : Spelled stop) : Spelled n
  /-- `[start : step : stop]` -/
  | steppedRange {n start step stop : Node} {tokens : List Node}
      (hkind : n.kind = .rangeExpression) (hplaces : n.Arranged tokens [start, step, stop])
      (htokens : ∀ t ∈ tokens, t.label = none)
      (hlabels : [start, step, stop].map (·.label) = ["start", "step", "end"].map some)
      (hstart : Spelled start) (hstep : Spelled step) (hstop : Spelled stop) : Spelled n

end Node

namespace Convert

open Conversion Node

variable {n : Node} {tokens : List Node}

/-! ## §4 Constructs read from their parts -/

/-- The conversion of a node that plays a role. -/
def resolved (role : Role) (m : Node) : Conversion Expression := do
  let converted :=
    if role.addsFault then (expression m).blame (fun inner => .invalid role inner.message) m
    else expression m
  require (← converted) (.unresolved role) m

theorem resolve_expressions (role : Role) (p : n.Part) :
    resolve (expressions n) role p = resolved role p.node :=
  rfl

theorem expression_binary (hkind : n.kind = .binaryExpression)
    (hrung : n.onlyChild? binaryLabels = none) : expression n = binary n (expressions n) := by
  rw [expression_eq]
  simp [expressionStep, rungChild?, constructLabels?, hkind, hrung]

theorem expression_conditional (hkind : n.kind = .conditionalExpression)
    (hrung : n.onlyChild? conditionalLabels = none) :
    expression n = conditional n (expressions n) := by
  rw [expression_eq]
  simp [expressionStep, rungChild?, constructLabels?, hkind, hrung]

theorem expression_index (hkind : n.kind = .indexExpression) :
    expression n = index n (expressions n) := by
  rw [expression_eq]
  simp [expressionStep, rungChild?, constructLabels?, hkind]

theorem expression_member (hkind : n.kind = .memberExpression) :
    expression n = member n (expressions n) := by
  rw [expression_eq]
  simp [expressionStep, rungChild?, constructLabels?, hkind]

theorem expression_range (hkind : n.kind = .rangeExpression) :
    expression n = some <$> range n (expressions n) := by
  rw [expression_eq]
  simp [expressionStep, rungChild?, constructLabels?, hkind]

/-! Each construct, with its parts in their places.  It is the same whether the parts have their
labels or have none. -/

theorem expression_binary_arranged (b : Bool) {left operator right : Node} {o : BinaryOperator}
    (hkind : n.kind = .binaryExpression) (h : n.Arranged [operator] [left, right])
    (hlabels : [left, right].map (·.label) = ["left", "right"].map (labelIf b))
    (hlabel : operator.label = labelIf b "operator")
    (ho : BinaryOperator.ofSymbol? operator.text = some o) :
    expression n = do
      let x ← resolved .leftOperand left
      let y ← resolved .rightOperand right
      return some (.binary o x y n.span) := by
  have hrung : n.onlyChild? binaryLabels = none := h.onlyChild?_of_token
  obtain ⟨p, q, hsignificant, rfl, rfl⟩ := h.significant_two
  obtain ⟨t, rfl, htoken⟩ := h.exists_token
  have hother (label : String) (hne : label ≠ "operator") :
      ∀ u ∈ [t.node], u.label ≠ some label := by
    cases b <;> simp [hlabel, labelIf, hne.symm]
  have hp := h.field?_labelled hlabels (by decide) (i := 0) rfl (hother _ (by decide))
  have hq := h.field?_labelled hlabels (by decide) (i := 1) rfl (hother _ (by decide))
  have ht : (n.field? "operator").or
      (n.token? fun c => (BinaryOperator.ofSymbol? c.text).isSome) = some t := by
    rw [h.field?_eq_token? (by cases b <;> simp_all [labelIf]), htoken, htoken]
    cases b <;> simp [hlabel, ho, labelIf]
  rw [expression_binary hkind hrung, binary, hrung, hp, hq, ht, hsignificant]
  cases b <;> simp [require, ho, resolve_expressions]

theorem expression_unary_arranged (b : Bool) {operator operand : Node} {o : UnaryOperator}
    (hkind : n.kind = .unaryExpression) (h : n.Arranged [operator] [operand])
    (hlabels : [operand].map (·.label) = ["operand"].map (labelIf b))
    (hlabel : operator.label = labelIf b "operator")
    (ho : UnaryOperator.ofSymbol? operator.text = some o) :
    expression n = do
      let x ← resolved .operand operand
      return some (.unary o x n.span) := by
  have hrung : n.onlyChild? unaryLabels = none := h.onlyChild?_of_token
  obtain ⟨p, hsignificant, rfl⟩ := h.significant_one
  obtain ⟨t, rfl, htoken⟩ := h.exists_token
  have hp := h.field?_labelled hlabels (by decide) (i := 0) rfl
    (by cases b <;> simp [hlabel, labelIf])
  have ht : (n.field? "operator").or
      (n.token? fun c => (UnaryOperator.ofSymbol? c.text).isSome) = some t := by
    rw [h.field?_eq_token? (by cases b <;> simp_all [labelIf]), htoken, htoken]
    cases b <;> simp [hlabel, ho, labelIf]
  rw [expression_unary hkind hrung, unary, hrung, hp, ht, hsignificant]
  cases b <;> simp [require, ho, resolve_expressions]

section Bare

variable (htokens : ∀ t ∈ tokens, t.label = none)

include htokens

theorem label_ne_of_bare (label : String) : ∀ t ∈ tokens, t.label ≠ some label := by
  simp_all

theorem expression_conditional_arranged (b : Bool) {condition consequence alternative : Node}
    (hkind : n.kind = .conditionalExpression)
    (h : n.Arranged tokens [condition, consequence, alternative])
    (hlabels : [condition, consequence, alternative].map (·.label) =
      ["condition", "consequence", "alternative"].map (labelIf b)) :
    expression n = do
      let x ← resolved .condition condition
      let y ← resolved .consequence consequence
      let z ← resolved .alternative alternative
      return some (.conditional x y z n.span) := by
  have hrung : n.onlyChild? conditionalLabels = none := h.onlyChild?_of_parts (by simp)
  obtain ⟨p, q, r, hsignificant, rfl, rfl, rfl⟩ := h.significant_three
  have hp := h.field?_labelled hlabels (by decide) (i := 0) rfl (label_ne_of_bare htokens _)
  have hq := h.field?_labelled hlabels (by decide) (i := 1) rfl (label_ne_of_bare htokens _)
  have hr := h.field?_labelled hlabels (by decide) (i := 2) rfl (label_ne_of_bare htokens _)
  rw [expression_conditional hkind hrung, conditional, hrung]
  cases b <;> simp [conditionalLabels, hasAnyField, hp, hq, hr, hsignificant, require,
    resolve_expressions]

/-- The two parts of an index expression or of a member expression. -/
theorem accessParts_arranged (b : Bool) {x y : Node} {first second : String}
    (others others' : List String) (h : n.Arranged tokens [x, y])
    (hlabels : [x, y].map (·.label) = [first, second].map (labelIf b)) (hne : first ≠ second) :
    ∃ p q : n.Part, p.node = x ∧ q.node = y ∧
      accessParts n (first :: others) (second :: others') = (some p, some q) := by
  obtain ⟨p, q, hsignificant, rfl, rfl⟩ := h.significant_two
  have hnodup : [first, second].Nodup := by simpa using hne
  refine ⟨p, q, rfl, rfl, ?_⟩
  cases b with
  | true =>
    have hp := h.field?_labelled hlabels hnodup (i := 0) rfl (label_ne_of_bare htokens _)
    have hq := h.field?_labelled hlabels hnodup (i := 1) rfl (label_ne_of_bare htokens _)
    simp [accessParts, hasAnyField, anyField?, hp, hq, hsignificant]
  | false =>
    have hnone (label : String) : n.field? label = none := by
      rw [h.field?_eq_find? (label_ne_of_bare htokens label), hsignificant]
      simp_all [labelIf]
    simp [accessParts, hasAnyField, hnone, hsignificant]

theorem expression_index_arranged (b : Bool) {array position : Node}
    (hkind : n.kind = .indexExpression) (h : n.Arranged tokens [array, position])
    (hlabels : [array, position].map (·.label) = ["array", "index"].map (labelIf b))
    (hpresent : position.isMissing = false) :
    expression n = do
      let x ← resolved .indexedValue array
      let y ← resolved .index position
      return some (.index x y n.span) := by
  obtain ⟨p, q, rfl, rfl, hparts⟩ :=
    accessParts_arranged htokens b ["value"] [] h hlabels (by decide)
  rw [expression_index hkind, index, hparts]
  simp [require, Option.filter, hpresent, resolve_expressions]

theorem expression_member_arranged (b : Bool) {object property : Node}
    (hkind : n.kind = .memberExpression) (h : n.Arranged tokens [object, property])
    (hlabels : [object, property].map (·.label) = ["object", "property"].map (labelIf b)) :
    expression n =
      if property.hasText then do
        let x ← resolved .object object
        return some (.member x property.trimmed n.span)
      else fail .noMemberName n := by
  obtain ⟨p, q, rfl, rfl, hparts⟩ :=
    accessParts_arranged htokens b ["value"] ["index"] h hlabels (by decide)
  rw [expression_member hkind, member, hparts]
  cases htext : q.node.hasText with
  | true => simp [require, Option.filter, htext, resolve_expressions]
  | false =>
    simp [require, Option.filter, htext]
    rfl

theorem expression_parenthesized_arranged (b : Bool) {content : Node}
    (hkind : n.kind = .parenthesizedExpression) (h : n.Arranged tokens [content])
    (hlabels : [content].map (·.label) = ["expression"].map (labelIf b))
    (hcontent : content.kind ≠ .expression) : expression n = expression content := by
  obtain ⟨p, hsignificant, rfl⟩ := h.significant_one
  have hp := h.field?_labelled hlabels (by decide) (i := 0) rfl (label_ne_of_bare htokens _)
  rw [expression_parenthesized hkind, parenthesized, hp, hsignificant]
  cases b
  all_goals
    simp [require, hcontent]
    rfl

theorem expression_range_arranged (b : Bool) {start stop : Node} (hkind : n.kind = .rangeExpression)
    (h : n.Arranged tokens [start, stop])
    (hlabels : [start, stop].map (·.label) = ["start", "end"].map (labelIf b))
    (hpresent : ∀ m ∈ [start, stop], m.isPlaceholder = false) :
    expression n = do
      let x ← resolved .rangeStart start
      let y ← resolved .rangeStop stop
      return some (.range x none y n.span) := by
  obtain ⟨p, q, hsignificant, rfl, rfl⟩ := h.significant_two
  have hp := h.field?_labelled hlabels (by decide) (i := 0) rfl (label_ne_of_bare htokens _)
  have hq := h.field?_labelled hlabels (by decide) (i := 1) rfl (label_ne_of_bare htokens _)
  have hnone : n.field? "step" = none := by
    rw [h.field?_eq_find? (label_ne_of_bare htokens _), hsignificant]
    cases b <;> simp_all [labelIf]
  have hparts : rangeParts n = pure (some p, none, some q) := by
    unfold rangeParts
    cases b <;> simp_all [rangeLabels, hasAnyField, Option.filter]
  rw [expression_range hkind, range, hparts]
  simp [hkind, require, resolve?, resolve_expressions]

theorem expression_steppedRange_arranged (b : Bool) {start step stop : Node}
    (hkind : n.kind = .rangeExpression) (h : n.Arranged tokens [start, step, stop])
    (hlabels : [start, step, stop].map (·.label) = ["start", "step", "end"].map (labelIf b))
    (hpresent : ∀ m ∈ [start, step, stop], m.isPlaceholder = false) :
    expression n = do
      let x ← resolved .rangeStart start
      let y ← resolved .rangeStep step
      let z ← resolved .rangeStop stop
      return some (.range x (some y) z n.span) := by
  obtain ⟨p, q, r, hsignificant, rfl, rfl, rfl⟩ := h.significant_three
  have hp := h.field?_labelled hlabels (by decide) (i := 0) rfl (label_ne_of_bare htokens _)
  have hq := h.field?_labelled hlabels (by decide) (i := 1) rfl (label_ne_of_bare htokens _)
  have hr := h.field?_labelled hlabels (by decide) (i := 2) rfl (label_ne_of_bare htokens _)
  have hparts : rangeParts n = pure (some p, some q, some r) := by
    unfold rangeParts
    cases b <;> simp_all [rangeLabels, hasAnyField, Option.filter]
  rw [expression_range hkind, range, hparts]
  simp [hkind, require, resolve?, resolve_expressions]

end Bare

/-- A literal with nothing inside is a wrapper around nothing. -/
theorem expression_emptyLiteral (hkind : n.kind = .literal) (hchildren : n.children = [])
    (hnamed : n.named = []) : expression n = failBare .emptyWrapper n := by
  have hparts : n.parts = [] := List.map_eq_nil_iff.mp (n.map_node_parts.trans hchildren)
  have hsignificant : n.significant = [] := by
    rw [← List.map_eq_nil_iff, map_node_significant, hnamed]
    rfl
  rw [expression_eq]
  simp [expressionStep, rungChild?, constructLabels?, hkind, wrappedChild?, hparts, hsignificant]

/-- A vector never looks at labels. -/
theorem expression_vector_arranged {elements : List Node} (hkind : n.kind = .vector)
    (h : n.Arranged tokens elements) :
    expression n = do
      return some (.vector (← elements.mapM (resolved .vectorElement)) n.span) := by
  rw [expression_vector hkind, vector, ← h.map_node_significant, List.mapM_map]
  rfl

/-! ## §5 An expression without its labels -/

theorem fail_unlabelled {α : Type} (problem : Problem) (m : Node) :
    (fail problem m.unlabelled : Conversion α) = fail problem m := by
  funext settings
  simp [fail, Problem.fault, Fault.on]

theorem failBare_unlabelled {α : Type} (problem : Problem) (m : Node) :
    (failBare problem m.unlabelled : Conversion α) = failBare problem m := by
  funext settings
  simp [failBare, Problem.bareFault, Fault.on]

/-- A part plays its role without its labels as it does with them. -/
theorem resolved_unlabelled {m : Node} (h : expression m.unlabelled = expression m) (role : Role) :
    resolved role m.unlabelled = resolved role m := by
  have hblame (x : Conversion (Option Expression)) (problem : Fault → Problem) :
      x.blame problem m.unlabelled = x.blame problem m := by
    funext settings
    simp [blame, Problem.fault, Fault.on]
  have hrequire (x : Option Expression) (problem : Problem) :
      require x problem m.unlabelled = require x problem m := by
    cases x with
    | none => exact fail_unlabelled problem m
    | some e => rfl
  simp only [resolved, h, hblame, hrequire]

theorem mapM_resolved_unlabelled {ms : List Node} {role : Role}
    (h : ∀ m ∈ ms, expression m.unlabelled = expression m) :
    (ms.map unlabelled).mapM (resolved role) = ms.mapM (resolved role) := by
  induction ms with
  | nil => rfl
  | cons m ms ih =>
    obtain ⟨hm, hms⟩ := List.forall_mem_cons.mp h
    rw [List.map_cons, List.mapM_cons, List.mapM_cons, resolved_unlabelled hm, ih hms]

theorem literal_unlabelled (m : Node) : literal m.unlabelled = literal m := by
  cases hm : m.kind <;>
    simp [literal, numberOf, hm, fail_unlabelled, Problem.bareFault, Fault.on]

/-- None of the constructs is a wrapper, or was put in by error recovery. -/
theorem kind_of_spelled (h : n.Spelled) :
    n.kind ≠ .expression ∧ n.isMissing = false ∧ n.isPlaceholder = false := by
  cases h with
  | leaf hkind =>
    cases hn : n.kind <;> simp_all [isMissing, isPlaceholder, Kind.isPlaceholder, Kind.isLeaf]
  | _ => simp_all [isMissing, isPlaceholder, Kind.isPlaceholder]

/-! One construct after the other: if its parts are converted without their labels as they are with
them, then so is the whole.  Each time both trees are read into the same conversion of the parts. -/

theorem leaf_unlabelled (hkind : n.kind.isLeaf = true) :
    expression n.unlabelled = expression n := by
  rw [expression_eq, expression_eq]
  cases hn : n.kind <;>
    simp_all [Kind.isLeaf, expressionStep, rungChild?, constructLabels?, literal_unlabelled]

theorem emptyLiteral_unlabelled (hkind : n.kind = .literal) (hchildren : n.children = [])
    (hnamed : n.named = []) : expression n.unlabelled = expression n := by
  rw [expression_emptyLiteral hkind hchildren hnamed,
    expression_emptyLiteral (by simpa) (by simp [hchildren]) (by simp [hnamed])]
  exact failBare_unlabelled _ n

theorem binary_unlabelled {left operator right : Node} (hkind : n.kind = .binaryExpression)
    (hplaces : n.Arranged [operator] [left, right])
    (hlabels : [left, right].map (·.label) = ["left", "right"].map some)
    (hlabel : operator.label = some "operator")
    (hoperator : (BinaryOperator.ofSymbol? operator.text).isSome = true)
    (hleft : expression left.unlabelled = expression left)
    (hright : expression right.unlabelled = expression right) :
    expression n.unlabelled = expression n := by
  obtain ⟨o, ho⟩ := Option.isSome_iff_exists.mp hoperator
  rw [expression_binary_arranged true hkind hplaces hlabels hlabel ho,
    expression_binary_arranged false (by simpa) hplaces.unlabelled (by simp [labelIf])
      (by simp [labelIf]) (by simpa using ho)]
  simp only [resolved_unlabelled hleft, resolved_unlabelled hright, span_unlabelled]

theorem unary_unlabelled {operator operand : Node} (hkind : n.kind = .unaryExpression)
    (hplaces : n.Arranged [operator] [operand])
    (hlabels : [operand].map (·.label) = ["operand"].map some)
    (hlabel : operator.label = some "operator")
    (hoperator : (UnaryOperator.ofSymbol? operator.text).isSome = true)
    (hoperand : expression operand.unlabelled = expression operand) :
    expression n.unlabelled = expression n := by
  obtain ⟨o, ho⟩ := Option.isSome_iff_exists.mp hoperator
  rw [expression_unary_arranged true hkind hplaces hlabels hlabel ho,
    expression_unary_arranged false (by simpa) hplaces.unlabelled (by simp [labelIf])
      (by simp [labelIf]) (by simpa using ho)]
  simp only [resolved_unlabelled hoperand, span_unlabelled]

theorem conditional_unlabelled {x y z : Node} (hkind : n.kind = .conditionalExpression)
    (hplaces : n.Arranged tokens [x, y, z]) (htokens : ∀ t ∈ tokens, t.label = none)
    (hlabels : [x, y, z].map (·.label) = ["condition", "consequence", "alternative"].map some)
    (hx : expression x.unlabelled = expression x) (hy : expression y.unlabelled = expression y)
    (hz : expression z.unlabelled = expression z) : expression n.unlabelled = expression n := by
  rw [expression_conditional_arranged htokens true hkind hplaces hlabels,
    expression_conditional_arranged (bare_unlabelled tokens) false (by simpa) hplaces.unlabelled
      (by simp [labelIf])]
  simp only [resolved_unlabelled hx, resolved_unlabelled hy, resolved_unlabelled hz,
    span_unlabelled]

theorem index_unlabelled {array position : Node} (hkind : n.kind = .indexExpression)
    (hplaces : n.Arranged tokens [array, position]) (htokens : ∀ t ∈ tokens, t.label = none)
    (hlabels : [array, position].map (·.label) = ["array", "index"].map some)
    (hpresent : position.isMissing = false)
    (harray : expression array.unlabelled = expression array)
    (hposition : expression position.unlabelled = expression position) :
    expression n.unlabelled = expression n := by
  rw [expression_index_arranged htokens true hkind hplaces hlabels hpresent,
    expression_index_arranged (bare_unlabelled tokens) false (by simpa) hplaces.unlabelled
      (by simp [labelIf]) (by simpa [isMissing] using hpresent)]
  simp only [resolved_unlabelled harray, resolved_unlabelled hposition, span_unlabelled]

theorem member_unlabelled {object property : Node} (hkind : n.kind = .memberExpression)
    (hplaces : n.Arranged tokens [object, property]) (htokens : ∀ t ∈ tokens, t.label = none)
    (hlabels : [object, property].map (·.label) = ["object", "property"].map some)
    (hobject : expression object.unlabelled = expression object) :
    expression n.unlabelled = expression n := by
  rw [expression_member_arranged htokens true hkind hplaces hlabels,
    expression_member_arranged (bare_unlabelled tokens) false (by simpa) hplaces.unlabelled
      (by simp [labelIf])]
  -- Of the property only the text is read, and that is no label.
  simp only [resolved_unlabelled hobject, hasText_unlabelled, trimmed_unlabelled, span_unlabelled,
    fail_unlabelled]

theorem vector_unlabelled {elements : List Node} (hkind : n.kind = .vector)
    (hplaces : n.Arranged tokens elements)
    (helements : ∀ m ∈ elements, expression m.unlabelled = expression m) :
    expression n.unlabelled = expression n := by
  rw [expression_vector_arranged hkind hplaces,
    expression_vector_arranged (by simpa) hplaces.unlabelled,
    mapM_resolved_unlabelled helements, span_unlabelled]

theorem parenthesized_unlabelled {inner : Node} (hkind : n.kind = .parenthesizedExpression)
    (hplaces : n.Arranged tokens [inner]) (htokens : ∀ t ∈ tokens, t.label = none)
    (hlabels : [inner].map (·.label) = ["expression"].map some) (hne : inner.kind ≠ .expression)
    (hinner : expression inner.unlabelled = expression inner) :
    expression n.unlabelled = expression n := by
  rw [expression_parenthesized_arranged htokens true hkind hplaces hlabels hne,
    expression_parenthesized_arranged (bare_unlabelled tokens) false (by simpa) hplaces.unlabelled
      (by simp [labelIf]) (by simpa), hinner]

theorem range_unlabelled {start stop : Node} (hkind : n.kind = .rangeExpression)
    (hplaces : n.Arranged tokens [start, stop]) (htokens : ∀ t ∈ tokens, t.label = none)
    (hlabels : [start, stop].map (·.label) = ["start", "end"].map some)
    (hpresent : ∀ m ∈ [start, stop], m.isPlaceholder = false)
    (hstart : expression start.unlabelled = expression start)
    (hstop : expression stop.unlabelled = expression stop) :
    expression n.unlabelled = expression n := by
  rw [expression_range_arranged htokens true hkind hplaces hlabels hpresent,
    expression_range_arranged (bare_unlabelled tokens) false (by simpa) hplaces.unlabelled
      (by simp [labelIf]) (by simpa [isPlaceholder] using hpresent)]
  simp only [resolved_unlabelled hstart, resolved_unlabelled hstop, span_unlabelled]

theorem steppedRange_unlabelled {start step stop : Node} (hkind : n.kind = .rangeExpression)
    (hplaces : n.Arranged tokens [start, step, stop]) (htokens : ∀ t ∈ tokens, t.label = none)
    (hlabels : [start, step, stop].map (·.label) = ["start", "step", "end"].map some)
    (hpresent : ∀ m ∈ [start, step, stop], m.isPlaceholder = false)
    (hstart : expression start.unlabelled = expression start)
    (hstep : expression step.unlabelled = expression step)
    (hstop : expression stop.unlabelled = expression stop) :
    expression n.unlabelled = expression n := by
  rw [expression_steppedRange_arranged htokens true hkind hplaces hlabels hpresent,
    expression_steppedRange_arranged (bare_unlabelled tokens) false (by simpa) hplaces.unlabelled
      (by simp [labelIf]) (by simpa [isPlaceholder] using hpresent)]
  simp only [resolved_unlabelled hstart, resolved_unlabelled hstep, resolved_unlabelled hstop,
    span_unlabelled]

/-- An expression does not depend on the labels of its tree.  Where every part has its label and its
place, the tree without its labels is converted to the same expression or fails with the same fault,
under all settings, and tells the same on the way. -/
theorem expression_unlabelled (h : n.Spelled) : expression n.unlabelled = expression n := by
  -- By induction on how the tree is spelled; the parts agree by the induction hypotheses.
  induction h with
  | leaf hkind => exact leaf_unlabelled hkind
  | emptyLiteral hkind hchildren hnamed => exact emptyLiteral_unlabelled hkind hchildren hnamed
  | binary hkind hplaces hlabels hlabel hoperator _ _ hleft hright =>
    exact binary_unlabelled hkind hplaces hlabels hlabel hoperator hleft hright
  | unary hkind hplaces hlabels hlabel hoperator _ hoperand =>
    exact unary_unlabelled hkind hplaces hlabels hlabel hoperator hoperand
  | conditional hkind hplaces htokens hlabels _ _ _ hx hy hz =>
    exact conditional_unlabelled hkind hplaces htokens hlabels hx hy hz
  | index hkind hplaces htokens hlabels _ hindex ihArray ihIndex =>
    -- The index is looked at: it must not have been put in by error recovery.
    obtain ⟨-, hpresent, -⟩ := kind_of_spelled hindex
    exact index_unlabelled hkind hplaces htokens hlabels hpresent ihArray ihIndex
  | member hkind hplaces htokens hlabels _ hobject =>
    exact member_unlabelled hkind hplaces htokens hlabels hobject
  | vector hkind hplaces _ helements => exact vector_unlabelled hkind hplaces helements
  | parenthesized hkind hplaces htokens hlabels hinner ih =>
    -- What stands in parentheses is no wrapper, which would be looked into.
    obtain ⟨hne, -, -⟩ := kind_of_spelled hinner
    exact parenthesized_unlabelled hkind hplaces htokens hlabels hne ih
  | range hkind hplaces htokens hlabels hstart hstop ihStart ihStop =>
    refine range_unlabelled hkind hplaces htokens hlabels ?_ ihStart ihStop
    simp [kind_of_spelled hstart, kind_of_spelled hstop]
  | steppedRange hkind hplaces htokens hlabels hstart hstep hstop ihStart ihStep ihStop =>
    refine steppedRange_unlabelled hkind hplaces htokens hlabels ?_ ihStart ihStep ihStop
    simp [kind_of_spelled hstart, kind_of_spelled hstep, kind_of_spelled hstop]

/-- A name at a column. -/
def nameAt (column : Nat) (text label : String) : Node where
  tag := "identifier"
  text
  span := ⟨⟨0, column, column⟩, ⟨0, column + 1, column + 1⟩⟩
  label := some label

/-- A token at a column. -/
def tokenAt (column : Nat) (text : String) (label : Option String) : Node where
  tag := text
  text
  span := ⟨⟨0, column, column⟩, ⟨0, column + 1, column + 1⟩⟩
  isNamed := false
  label

/-- The operand `-a`. -/
def minusA : Node where
  tag := "unary_expression"
  text := "-a"
  span := ⟨⟨0, 0, 0⟩, ⟨0, 2, 2⟩⟩
  label := some "left"
  children := [tokenAt 0 "-" (some "operator"), nameAt 1 "a" "operand"]
  named := [nameAt 1 "a" "operand"]

/-- The operand `b[c]`. -/
def bAtC : Node where
  tag := "index_expression"
  text := "b[c]"
  span := ⟨⟨0, 5, 5⟩, ⟨0, 9, 9⟩⟩
  label := some "right"
  children := [nameAt 5 "b" "array", tokenAt 6 "[" none, nameAt 7 "c" "index", tokenAt 8 "]" none]
  named := [nameAt 5 "b" "array", nameAt 7 "c" "index"]

/-- The expression `-a + b[c]`. -/
def labelledSum : Node where
  tag := "binary_expression"
  text := "-a + b[c]"
  span := ⟨⟨0, 0, 0⟩, ⟨0, 9, 9⟩⟩
  children := [minusA, tokenAt 3 "+" (some "operator"), bAtC]
  named := [minusA, bAtC]

theorem minusA_arranged :
    minusA.Arranged [tokenAt 0 "-" (some "operator")] [nameAt 1 "a" "operand"] :=
  ⟨rfl, rfl, rfl, by decide⟩

theorem bAtC_arranged :
    bAtC.Arranged [tokenAt 6 "[" none, tokenAt 8 "]" none]
      [nameAt 5 "b" "array", nameAt 7 "c" "index"] :=
  ⟨rfl, rfl, rfl, by decide⟩

theorem labelledSum_arranged :
    labelledSum.Arranged [tokenAt 3 "+" (some "operator")] [minusA, bAtC] :=
  ⟨rfl, rfl, rfl, by decide⟩

theorem spelled_labelledSum : labelledSum.Spelled :=
  .binary (by decide) labelledSum_arranged rfl rfl (by decide)
    (.unary (by decide) minusA_arranged rfl rfl (by decide) (.leaf rfl))
    (.index (by decide) bAtC_arranged (by decide) rfl (.leaf rfl) (.leaf rfl))

theorem resolved_of_expression {m : Node} {e : Expression} (h : expression m = pure (some e))
    (role : Role) : resolved role m = pure e := by
  simp only [resolved, h]
  cases role.addsFault <;> rfl

/-- What the tree says. -/
def labelledSumExpression : Expression :=
  .binary .add
    (.unary .negate (.identifier "a" ⟨⟨0, 1, 1⟩, ⟨0, 2, 2⟩⟩) ⟨⟨0, 0, 0⟩, ⟨0, 2, 2⟩⟩)
    (.index (.identifier "b" ⟨⟨0, 5, 5⟩, ⟨0, 6, 6⟩⟩) (.identifier "c" ⟨⟨0, 7, 7⟩, ⟨0, 8, 8⟩⟩)
      ⟨⟨0, 5, 5⟩, ⟨0, 9, 9⟩⟩)
    ⟨⟨0, 0, 0⟩, ⟨0, 9, 9⟩⟩

theorem expression_nameAt (column : Nat) (text label : String) :
    expression (nameAt column text label) =
      pure (some (.identifier (nameAt column text label).trimmed
        (nameAt column text label).span)) := by
  rw [expression_eq]
  rfl

theorem resolved_nameAt (role : Role) (column : Nat) (text label : String) :
    resolved role (nameAt column text label) =
      pure (.identifier (nameAt column text label).trimmed (nameAt column text label).span) :=
  resolved_of_expression (expression_nameAt column text label) role

theorem expression_labelledSum : expression labelledSum = pure (some labelledSumExpression) := by
  have hleft := expression_unary_arranged true (by decide) minusA_arranged rfl rfl rfl
  have hright :=
    expression_index_arranged (by decide) true (by decide) bAtC_arranged rfl (by decide)
  rw [resolved_nameAt] at hleft
  rw [resolved_nameAt, resolved_nameAt] at hright
  rw [expression_binary_arranged true (by decide) labelledSum_arranged rfl rfl rfl,
    resolved_of_expression hleft, resolved_of_expression hright]
  rfl

theorem expression_unlabelled_labelledSum :
    labelledSum.Spelled ∧ expression labelledSum.unlabelled = pure (some labelledSumExpression) :=
  ⟨spelled_labelledSum,
    (expression_unlabelled spelled_labelledSum).trans expression_labelledSum⟩

end Convert

end Scad
