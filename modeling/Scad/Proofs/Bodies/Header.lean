import Scad.Proofs.Agreement.Statement
import Scad.Proofs.Reporting

/-!
# Headers and Bodies

A node that owns bodies is converted in two steps: what its header says, which may fail, and what
its bodies hold, which may not.  A body that is found by its label is invisible to the header, so
other statements in its place leave a failure of the owner as it is.

* `Node.bodyLabels` — the labels under which an owner looks for its bodies.
* `Node.Rebodied` — an owner with other statements in the place of its bodies.
* `Conversion.FailsAs` — two conversions that fail alike.
* `statement_failsAs` — an owner and the owner rebodied fail alike.

One look-up of a header reads more of a child than its kind and its label: an assertion without
labels splits its children at the first comma, and a token with the text of a comma is one whatever
its tag says.
-/

namespace Scad

/-! ## §1 Bodies -/

/-- Whether a node of this kind owns bodies. -/
def Kind.ownsBodies : Kind → Bool
  | moduleDefinition | moduleInstantiation | ifStatement | forStatement | letStatement
  | echoStatement | assertStatement | assignStatement => true
  | _ => false

theorem Kind.isExpression_eq_false {k : Kind} (h : k.isStatement = true) :
    k.isExpression = false := by
  rw [← Bool.not_eq_true]
  exact fun hexpression => by simp [not_isStatement_of_isExpression hexpression] at h

namespace Node

/-- The name under which a call is told from the statements that are written as calls. -/
def calledAs? (n : Node) : Option String :=
  (n.anyField? ["name", "function"]).map fun p => p.node.trimmed

/-- The labels under which an owner looks for each of its bodies. -/
def bodyLabels (n : Node) : List (List String) :=
  match n.kind with
  | .moduleDefinition | .forStatement | .letStatement => [["body"]]
  | .ifStatement => [["consequence"], ["alternative"]]
  | .assignStatement => [["statement", "block", "body"]]
  | .echoStatement | .assertStatement => [["statement", "body"]]
  | .moduleInstantiation =>
    if n.calledAs? = some "assign" then [["statement", "block", "body"]]
    else if n.calledAs? = some "assert" then [["statement", "body"]]
    else [["body"]]
  | _ => []

/-- Whether the node is an assertion, or a call that is read as one. -/
def IsAssertion (n : Node) : Prop :=
  n.kind = .assertStatement ∨ n.kind = .moduleInstantiation ∧ n.calledAs? = some "assert"

/-- Whether the node is an assertion that splits its children at a comma. -/
def SplitsAtComma (n : Node) : Prop :=
  n.IsAssertion ∧ n.field? "condition" = none ∧ Convert.argumentList? n = none

/-- Whether the node is a token that reads as a comma. -/
def isComma (n : Node) : Bool :=
  !n.isNamed && n.text == ","

/-- The statement `c'` may stand in `n` in the place of the body `c`. -/
structure Replaces (n c c' : Node) : Prop where
  old : c.kind.isStatement = true
  new : c'.kind.isStatement = true
  span : c'.span = c.span
  label : c'.label = c.label
  body : ∃ label ∈ n.bodyLabels.flatten, c.label = some label
  comma : n.SplitsAtComma → c'.isComma = c.isComma

/-- The child is the same, or another statement in the place of a body. -/
def Exchanges (n c c' : Node) : Prop :=
  c' = c ∨ n.Replaces c c'

/-- The second node is the first with other statements in the place of some of its bodies. -/
structure Rebodied (n n' : Node) : Prop where
  rest : n' = { n with children := n'.children, named := n'.named }
  children : List.Forall₂ n.Exchanges n.children n'.children
  named : List.Forall₂ n.Exchanges n.named n'.named

/-- The labels that a header looks for. -/
def headerLabels : List String :=
  ["name", "function", "arguments", "parameters", "condition", "message", "iterator", "range"]

/-- No header looks for a body. -/
theorem not_mem_bodyLabels {n : Node} {label : String} (h : label ∈ headerLabels) :
    label ∉ n.bodyLabels.flatten := by
  have hsubset : n.bodyLabels.flatten ⊆
      ["statement", "block", "body", "consequence", "alternative"] := by
    unfold bodyLabels
    repeat' split
    all_goals simp
  have hdisjoint : ∀ label ∈ headerLabels,
      label ∉ ["statement", "block", "body", "consequence", "alternative"] := by decide
  exact fun hmem => hdisjoint label h (hsubset hmem)

end Node

/-! ## §2 What a header finds -/

/-- The parts are one node. -/
def Node.SamePart {n n' : Node} (p : n.Part) (p' : n'.Part) : Prop :=
  p.node = p'.node

theorem Node.SamePart.exists_node {n n' : Node} {p : n.Part} {p' : n'.Part} (h : SamePart p p') :
    ∃ m hm hm', p = ⟨m, hm⟩ ∧ p' = ⟨m, hm'⟩ := by
  cases p
  cases p'
  cases h
  exact ⟨_, _, _, rfl, rfl⟩

/-- Lists that correspond are filtered to lists that correspond more closely. -/
theorem forall₂_filter {α β : Type} {R S : α → β → Prop} {l : List α} {l' : List β} {p : α → Bool}
    {q : β → Bool} (h : List.Forall₂ R l l') (hpq : ∀ a b, R a b → q b = p a)
    (hS : ∀ a b, R a b → p a = true → S a b) :
    List.Forall₂ S (l.filter p) (l'.filter q) := by
  induction h with
  | nil => exact .nil
  | @cons a b _ _ hab _ ih =>
    rw [List.filter_cons, List.filter_cons, hpq a b hab]
    split
    · next ha => exact .cons (hS a b hab ha) ih
    · exact ih

namespace Node.Rebodied

variable {n n' : Node}

theorem tag_eq (h : n.Rebodied n') : n'.tag = n.tag := by
  rw [h.rest]

theorem text_eq (h : n.Rebodied n') : n'.text = n.text := by
  rw [h.rest]

theorem span_eq (h : n.Rebodied n') : n'.span = n.span := by
  rw [h.rest]

theorem kind_eq (h : n.Rebodied n') : n'.kind = n.kind := by
  rw [Node.kind, Node.kind, h.tag_eq]

/-- A fault at the owner tells nothing of its bodies. -/
theorem fault_eq (h : n.Rebodied n') (problem : Problem) (settings : Settings) :
    problem.fault n' settings = problem.fault n settings := by
  rw [Problem.fault, Problem.fault, Fault.on, Fault.on, h.tag_eq, h.text_eq, h.span_eq]

theorem parts (h : n.Rebodied n') :
    List.Forall₂ (fun p p' => n.Exchanges p.node p'.node) n.parts n'.parts := by
  have hchildren := h.children
  rw [← n.map_node_parts, ← n'.map_node_parts, List.forall₂_map_left_iff,
    List.forall₂_map_right_iff] at hchildren
  exact hchildren

theorem namedParts (h : n.Rebodied n') :
    List.Forall₂ (fun p p' => n.Exchanges p.node p'.node) n.namedParts n'.namedParts := by
  have hnamed := h.named
  rw [← n.map_node_namedParts, ← n'.map_node_namedParts, List.forall₂_map_left_iff,
    List.forall₂_map_right_iff] at hnamed
  exact hnamed

/-- No body is a comment, before or after. -/
theorem significant (h : n.Rebodied n') :
    List.Forall₂ (fun p p' => n.Exchanges p.node p'.node) n.significant n'.significant := by
  refine forall₂_filter h.namedParts (fun p p' hp => ?_) fun _ _ hp _ => hp
  rcases hp with hp | hp
  · rw [hp]
  · have hne {c : Node} (hc : c.kind.isStatement = true) : (c.kind != .comment) = true := by
      rw [bne_iff_ne]
      exact fun hkind => by simp [hkind, Kind.isStatement] at hc
    rw [hne hp.old, hne hp.new]

/-- A label of the header is the label of no body. -/
theorem field? (h : n.Rebodied n') {label : String} (hlabel : label ∈ headerLabels) :
    Option.Rel SamePart (n.field? label) (n'.field? label) := by
  have hpair (p : n.Part) (p' : n'.Part) (hp : n.Exchanges p.node p'.node) :
      (p'.node.label == some label) = (p.node.label == some label) := by
    rcases hp with hp | hp
    · rw [hp]
    · rw [hp.label]
  have hsame (p : n.Part) (p' : n'.Part) (hp : n.Exchanges p.node p'.node)
      (haccepted : (p.node.label == some label) = true) : SamePart p p' := by
    rcases hp with hp | hp
    · exact hp.symm
    -- What has a label of the header is no body.
    · obtain ⟨other, hbody, hother⟩ := hp.body
      have hlabels : other = label := by simpa [hother] using haccepted
      exact absurd (hlabels ▸ hbody) (not_mem_bodyLabels hlabel)
  refine Option.Rel.or ?_ ?_
  · rw [← List.head?_filter, ← List.head?_filter]
    exact rel_head? (forall₂_filter h.parts hpair hsame)
  · rw [← List.head?_filter, ← List.head?_filter]
    exact rel_head? (forall₂_filter h.namedParts hpair hsame)

theorem anyField? (h : n.Rebodied n') {labels : List String} (hlabels : labels ⊆ headerLabels) :
    Option.Rel SamePart (n.anyField? labels) (n'.anyField? labels) := by
  induction labels with
  | nil => exact .none
  | cons label labels ih =>
    obtain ⟨hlabel, hrest⟩ := List.cons_subset.mp hlabels
    rw [Node.anyField?, Node.anyField?, List.findSome?_cons, List.findSome?_cons]
    have hfield := h.field? hlabel
    generalize n.field? label = x, n'.field? label = x' at hfield
    cases hfield with
    | some hp => exact .some hp
    | none => exact ih hrest

/-- A scan by position that passes over statements passes over bodies. -/
theorem filter_significant (h : n.Rebodied n') {accepts : Node → Bool}
    (haccepts : ∀ c : Node, c.kind.isStatement = true → accepts c = false) :
    List.Forall₂ SamePart (n.significant.filter fun p => accepts p.node)
      (n'.significant.filter fun p => accepts p.node) := by
  refine forall₂_filter h.significant (fun p p' hp => ?_) fun p p' hp haccepted => ?_
  · rcases hp with hp | hp
    · rw [hp]
    · rw [haccepts _ hp.old, haccepts _ hp.new]
  · rcases hp with hp | hp
    · exact hp.symm
    · rw [haccepts _ hp.old] at haccepted
      cases haccepted

theorem find? (h : n.Rebodied n') {accepts : Node → Bool}
    (haccepts : ∀ c : Node, c.kind.isStatement = true → accepts c = false) :
    Option.Rel SamePart (n.find? accepts) (n'.find? accepts) := by
  rw [Node.find?, Node.find?, ← List.head?_filter, ← List.head?_filter]
  exact rel_head? (h.filter_significant haccepts)

theorem find?_isExpression (h : n.Rebodied n') :
    Option.Rel SamePart (n.find? (·.kind.isExpression)) (n'.find? (·.kind.isExpression)) :=
  h.find? fun _ => Kind.isExpression_eq_false

theorem ofKind? (h : n.Rebodied n') {kind : Kind} (hkind : kind.isStatement = false) :
    Option.Rel SamePart (n.ofKind? kind) (n'.ofKind? kind) := by
  refine h.find? fun c hc => ?_
  have hne : c.kind ≠ kind := fun heq => by simp [heq, hkind] at hc
  simpa using hne

theorem argumentList? (h : n.Rebodied n') :
    Option.Rel SamePart (Convert.argumentList? n) (Convert.argumentList? n') :=
  (h.field? (by decide)).or (h.ofKind? rfl)

theorem calledAs?_eq (h : n.Rebodied n') : n'.calledAs? = n.calledAs? :=
  ((h.anyField? (by decide)).map_eq fun _ _ hp => by rw [hp]).symm

end Node.Rebodied

/-! ## §3 Conversions that fail alike -/

namespace Conversion

variable {α β γ δ : Type} {S : α → β → Prop}

/-- Either conversion fails where the other does, and with the same fault. -/
def FailsAs (x : Conversion α) (y : Conversion β) : Prop :=
  ∀ settings f, x.result settings = .error f ↔ y.result settings = .error f

namespace FailsAs

variable {x : Conversion α} {y : Conversion β}

theorem pure {a : α} {b : β} : FailsAs (Pure.pure a) (Pure.pure b) :=
  fun _ _ => by simp

/-- What never fails fails as anything else does that never fails. -/
theorem of_succeeds (hx : x.Succeeds) (hy : y.Succeeds) : FailsAs x y := by
  intro settings f
  obtain ⟨a, ha⟩ := hx settings
  obtain ⟨b, hb⟩ := hy settings
  simp [ha, hb]

/-- Behind one conversion. -/
theorem bind_of_eq {y : Conversion α} {f : α → Conversion γ} {g : α → Conversion δ} (h : x = y)
    (hfg : ∀ a, FailsAs (f a) (g a)) : FailsAs (x >>= f) (y >>= g) := by
  subst h
  intro settings e
  rw [result_bind, result_bind]
  cases x.result settings with
  | error e' => simp
  | ok a => exact hfg a settings e

/-- Behind conversions that never fail. -/
theorem bind_of_succeeds {f : α → Conversion γ} {g : β → Conversion δ} (hx : x.Succeeds)
    (hy : y.Succeeds) (hfg : ∀ a b, FailsAs (f a) (g b)) : FailsAs (x >>= f) (y >>= g) := by
  intro settings e
  obtain ⟨a, ha⟩ := hx settings
  obtain ⟨b, hb⟩ := hy settings
  rw [result_bind, result_bind, ha, hb]
  exact hfg a b settings e

/-- Behind what the owner has to have. -/
theorem bind_require {n n' : Node} (h : n.Rebodied n') {a : Option α} {b : Option β}
    {problem : Problem} {f : α → Conversion γ} {g : β → Conversion δ} (hab : Option.Rel S a b)
    (hfg : ∀ a b, S a b → FailsAs (f a) (g b)) :
    FailsAs (require a problem n >>= f) (require b problem n' >>= g) := by
  cases hab with
  | some hab => simpa only [require, pure_bind] using hfg _ _ hab
  | none =>
    intro settings e
    simp [h.fault_eq]

end FailsAs

/-- Conversions in a row that are the same one by one. -/
theorem mapM_eq_of_forall₂ {f : α → Conversion γ} {g : β → Conversion γ} {l : List α} {l' : List β}
    (h : List.Forall₂ (fun a b => f a = g b) l l') : l.mapM f = l'.mapM g := by
  induction h with
  | nil => rfl
  | cons hab _ ih => rw [List.mapM_cons, List.mapM_cons, hab, ih]

end Conversion

/-- A tree beside itself, converted twice under the same settings. -/
def Correspondence.same (settings : Settings) : Correspondence where
  Related := Eq
  shift := {}
  left := settings
  right := settings
  reword := id
  Listens := False
  alike := by
    rintro n _ rfl
    exact ⟨rfl, rfl, n.span.shift_zero.symm, rfl, rfl, .refl _, .refl _⟩
  lead := by
    rintro n _ rfl -
    exact .inl (.refl _)
  quoting := @quoting_of_id settings
  invalid := @invalid_of_id

namespace Convert

open Conversion Node Correspondence

variable {n n' : Node}

/-! ## §4 Bodies never fail -/

theorem statements_succeeds (convert : Converter n Statement) (parts : List n.Part) :
    (statements convert parts).Succeeds :=
  (Succeeds.mapM (fun _ => orFault_succeeds _) parts).bind fun _ => .pure _

theorem partBody_succeeds (convert : Converter n Statement) (p : n.Part) :
    (partBody convert p).Succeeds := by
  rw [partBody, body_eq]
  split
  · exact statements_succeeds _ _
  · exact (orFault_succeeds _).bind fun _ => .pure _

theorem bodyOf_succeeds (convert : Converter n Statement) (x : Option n.Part) :
    (bodyOf convert x).Succeeds := by
  cases x with
  | some p => exact partBody_succeeds convert p
  | none => exact .pure []

theorem singleBody_succeeds (convert : Converter n Statement) (x : Option n.Part) :
    (singleBody convert x).Succeeds := by
  cases x with
  | some p => exact orFault_succeeds _
  | none => exact .pure none

theorem remark_succeeds (r : Remark) (m : Node) : (remark r m).Succeeds :=
  fun _ => ⟨(), rfl⟩

theorem remarkIgnored_succeeds (n : Node) (name : String) (args : List Argument) :
    (remarkIgnored n name args).Succeeds := by
  unfold remarkIgnored
  induction ignored name args with
  | nil => exact .pure ()
  | cons a as ih =>
    rw [List.forM_eq_forM, List.forM_cons]
    exact (remark_succeeds _ _).bind fun _ => ih

/-- Once its arguments are read, a call is converted whatever else is wrong with it. -/
theorem predefinedCall_succeeds (n : Node) (convert : Converter n Statement) (name : String)
    (args : List Argument) : (predefinedCall n convert name args).Succeeds := by
  have hchildren : (callChildren n convert).Succeeds := bodyOf_succeeds _ _
  unfold predefinedCall
  split
  -- A shape, with children that are remarked on, or without.
  · split
    · refine (remark_succeeds _ _).bind fun _ => ?_
      exact (remarkIgnored_succeeds _ _ _).bind fun _ => .pure _
    · exact (remarkIgnored_succeeds _ _ _).bind fun _ => .pure _
  -- A transform, an operation, an echo, and a call of an unknown module.
  · split
    · exact (remarkIgnored_succeeds _ _ _).bind fun _ => hchildren.bind fun _ => .pure _
    · split
      · exact hchildren.bind fun _ => .pure _
      · split
        · exact (singleBody_succeeds _ _).bind fun _ => .pure _
        · exact hchildren.bind fun _ => .pure _

/-! ## §5 What a header says -/

theorem resolve_same {p : n.Part} {p' : n'.Part} (hp : SamePart p p') (role : Role) :
    resolve (expressions n) role p = resolve (expressions n') role p' := by
  obtain ⟨m, _, _, rfl, rfl⟩ := hp.exists_node
  rfl

theorem resolve?_same {x : Option n.Part} {x' : Option n'.Part} (hx : Option.Rel SamePart x x')
    (role : Role) : resolve? (expressions n) role x = resolve? (expressions n') role x' := by
  cases hx with
  | none => rfl
  | some hp => exact congrArg (some <$> ·) (resolve_same hp role)

theorem argumentsOf_same {x : Option n.Part} {x' : Option n'.Part} (hx : Option.Rel SamePart x x') :
    argumentsOf (expressions n) x = argumentsOf (expressions n') x' := by
  cases hx with
  | none => rfl
  | some hp =>
    obtain ⟨m, _, _, rfl, rfl⟩ := hp.exists_node
    rfl

/-- No statement binds anything in its owner. -/
theorem bindings_rebodied (h : n.Rebodied n') :
    bindings n (expressions n) = bindings n' (expressions n') := by
  rw [bindings, bindings]
  congr 1
  refine mapM_eq_of_forall₂ (h.significant.imp fun p p' hp => ?_)
  rcases hp with hp | hp
  · obtain ⟨m, _, _, rfl, rfl⟩ := SamePart.exists_node hp.symm
    rfl
  · have hold := hp.old
    have hnew := hp.new
    -- Neither statement is of a kind that binds.
    calc
      _ = pure [] := by
        split
        all_goals first | rfl | (next hkind => simp [hkind, Kind.isStatement] at hold)
      _ = _ := by
        split
        all_goals first | rfl | (next hkind => simp [hkind, Kind.isStatement] at hnew)

/-- The parameters of a definition stand in their list. -/
theorem declarations_rebodied (h : n.Rebodied n') : declarations n = declarations n' := by
  have hlist : Option.Rel SamePart (parameterList? n) (parameterList? n') :=
    (h.field? (by decide)).or (h.ofKind? rfl)
  unfold declarations
  generalize parameterList? n = x, parameterList? n' = x' at hlist
  cases hlist with
  | none => rfl
  | some hp =>
    obtain ⟨m, _, _, rfl, rfl⟩ := hp.exists_node
    rfl

theorem loopBindings_rebodied (h : n.Rebodied n') : loopBindings n = loopBindings n' := by
  have hiterator := h.field? (by decide : "iterator" ∈ headerLabels)
  have hrange := h.field? (by decide : "range" ∈ headerLabels)
  unfold loopBindings
  generalize n.field? "iterator" = x, n'.field? "iterator" = x' at hiterator
  generalize n.field? "range" = y, n'.field? "range" = y' at hrange
  cases hiterator with
  | none =>
    cases hrange with
    | none => exact bindings_rebodied h
    | some hq =>
      obtain ⟨_, _, _, rfl, rfl⟩ := hq.exists_node
      rfl
  | some hp =>
    obtain ⟨_, _, _, rfl, rfl⟩ := hp.exists_node
    cases hrange with
    | none => rfl
    | some hq =>
      obtain ⟨_, _, _, rfl, rfl⟩ := hq.exists_node
      rfl

/-- The bindings of `assign` stand in its argument list. -/
theorem assignGroups_same {x : Option n.Part} {x' : Option n'.Part}
    (hx : Option.Rel SamePart x x') :
    ((x.map fun p => p.node.significant.map p.within).getD []).mapM
        (fun p => assignBinding p.node) =
      ((x'.map fun p => p.node.significant.map p.within).getD []).mapM
        fun p => assignBinding p.node := by
  cases hx with
  | none => rfl
  | some hp =>
    obtain ⟨m, _, _, rfl, rfl⟩ := hp.exists_node
    refine mapM_eq_of_forall₂ ?_
    rw [Option.map_some, Option.map_some, Option.getD_some, Option.getD_some,
      List.forall₂_map_left_iff, List.forall₂_map_right_iff]
    exact List.forall₂_same.mpr fun _ _ => rfl

/-- A part in a list is the same part whoever holds the list. -/
theorem assertArguments_same {list : n.Part} {list' : n'.Part} (h : SamePart list list') :
    Option.Rel SamePart (assertArguments list).1 (assertArguments list').1 ∧
      Option.Rel SamePart (assertArguments list).2 (assertArguments list').2 :=
  rel_assertArguments (C := .same {}) h

/-- The first comma among the children of an assertion stops where it stopped. -/
theorem comma_rebodied (h : n.Rebodied n') (hsplits : n.SplitsAtComma) :
    Option.Rel (fun p p' => p'.node.stopByte = p.node.stopByte) (n.token? (·.text == ","))
      (n'.token? (·.text == ",")) := by
  have hpair : Option.Rel (fun p p' => n.Exchanges p.node p'.node) (n.token? (·.text == ","))
      (n'.token? (·.text == ",")) := by
    refine rel_find? h.parts fun p p' hp => ?_
    rcases hp with hp | hp
    · rw [hp]
    · exact hp.comma hsplits
  refine hpair.imp fun p p' hp => ?_
  rcases hp with hp | hp
  · rw [hp]
  · rw [Node.stopByte, Node.stopByte, hp.span]

theorem assertChildren_rebodied (h : n.Rebodied n') (hsplits : n.SplitsAtComma) :
    Option.Rel SamePart (assertChildren n).1 (assertChildren n').1 ∧
      Option.Rel SamePart (assertChildren n).2 (assertChildren n').2 := by
  unfold assertChildren
  refine ⟨h.find?_isExpression, (comma_rebodied h hsplits).bind fun comma comma' hstop => ?_⟩
  rw [hstop]
  refine h.find? fun c hc => ?_
  rw [Kind.isExpression_eq_false hc, Bool.and_false]

theorem assertParts_rebodied (h : n.Rebodied n') (hassertion : n.IsAssertion) :
    Option.Rel SamePart (assertParts n).1 (assertParts n').1 ∧
      Option.Rel SamePart (assertParts n).2 (assertParts n').2 := by
  have hlabelled := h.field? (by decide : "condition" ∈ headerLabels)
  have hmessage := h.field? (by decide : "message" ∈ headerLabels)
  have hlist := h.argumentList?
  have hchildren (hcondition : n.field? "condition" = none) (hnone : argumentList? n = none) :=
    assertChildren_rebodied h ⟨hassertion, hcondition, hnone⟩
  unfold assertParts
  generalize n.field? "condition" = x, n'.field? "condition" = x' at *
  generalize argumentList? n = y, argumentList? n' = y' at *
  cases hlabelled with
  | some hp => exact ⟨.some hp, hmessage⟩
  | none =>
    cases hlist with
    | some hp => exact assertArguments_same hp
    | none => exact hchildren rfl rfl

/-! ## §6 Owners -/

theorem moduleDefinition_failsAs (h : n.Rebodied n') (convert : Converter n Statement)
    (convert' : Converter n' Statement) :
    FailsAs (moduleDefinition n convert) (moduleDefinition n' convert') := by
  have hname : Option.Rel SamePart ((n.field? "name").or (n.ofKind? .identifier))
      ((n'.field? "name").or (n'.ofKind? .identifier)) :=
    (h.field? (by decide)).or (h.ofKind? rfl)
  unfold moduleDefinition definitionName
  refine .bind_require h (hname.filter fun _ _ hp => by rw [hp]) fun _ _ _ => ?_
  refine .bind_of_eq (declarations_rebodied h) fun _ => ?_
  exact .bind_of_succeeds (bodyOf_succeeds _ _) (bodyOf_succeeds _ _) fun _ _ => .pure

/-- The alternative is the last that an `if` converts. -/
theorem alternative_succeeds (convert : Converter n Statement) (alternative : Option n.Part)
    (make : Option (List Statement) → Statement) :
    (do
      let alternative ← match alternative with
        | some p => some <$> partBody convert p
        | none => pure none
      return some (make alternative) : Conversion (Option Statement)).Succeeds := by
  cases alternative with
  | none => exact .pure _
  | some p =>
    simp only [← bind_pure_comp]
    exact ((partBody_succeeds _ _).bind fun _ => .pure _).bind fun _ => .pure _

theorem ifStatement_failsAs (h : n.Rebodied n') (convert : Converter n Statement)
    (convert' : Converter n' Statement) :
    FailsAs (ifStatement n convert) (ifStatement n' convert') := by
  have hcondition : Option.Rel SamePart ((n.field? "condition").or (n.find? (·.kind.isExpression)))
      ((n'.field? "condition").or (n'.find? (·.kind.isExpression))) :=
    (h.field? (by decide)).or h.find?_isExpression
  unfold ifStatement
  refine .bind_require h (hcondition.filter fun _ _ hp => by rw [hp]) fun _ _ hp => ?_
  refine .bind_of_eq (resolve_same hp _) fun _ => ?_
  refine .bind_of_succeeds (bodyOf_succeeds _ _) (bodyOf_succeeds _ _) fun ss ss' => ?_
  exact .of_succeeds (alternative_succeeds _ _ fun ts => .branch _ ss ts n.span)
    (alternative_succeeds _ _ fun ts => .branch _ ss' ts n'.span)

theorem forStatement_failsAs (h : n.Rebodied n') (convert : Converter n Statement)
    (convert' : Converter n' Statement) :
    FailsAs (forStatement n convert) (forStatement n' convert') := by
  unfold forStatement
  refine .bind_of_eq (loopBindings_rebodied h) fun bound => ?_
  refine .bind_require h (.refl bound.getLast?) fun _ _ _ => ?_
  exact .bind_of_succeeds (bodyOf_succeeds _ _) (bodyOf_succeeds _ _) fun _ _ => .pure

theorem letStatement_failsAs (h : n.Rebodied n') (convert : Converter n Statement)
    (convert' : Converter n' Statement) :
    FailsAs (letStatement n convert) (letStatement n' convert') := by
  unfold letStatement
  refine .bind_of_eq (bindings_rebodied h) fun _ => ?_
  exact .bind_of_succeeds (bodyOf_succeeds _ _) (bodyOf_succeeds _ _) fun _ _ => .pure

theorem echoStatement_failsAs (h : n.Rebodied n') (convert : Converter n Statement)
    (convert' : Converter n' Statement) :
    FailsAs (echoStatement n convert) (echoStatement n' convert') := by
  unfold echoStatement
  refine .bind_of_eq (argumentsOf_same h.argumentList?) fun _ => ?_
  exact .bind_of_succeeds (singleBody_succeeds _ _) (singleBody_succeeds _ _) fun _ _ => .pure

theorem assignStatement_failsAs (h : n.Rebodied n') (convert : Converter n Statement)
    (convert' : Converter n' Statement) :
    FailsAs (assignStatement n convert) (assignStatement n' convert') := by
  unfold assignStatement
  refine .bind_of_succeeds (remark_succeeds _ _) (remark_succeeds _ _) fun _ _ => ?_
  refine .bind_of_eq (assignGroups_same h.argumentList?) fun _ => ?_
  exact .bind_of_succeeds (singleBody_succeeds _ _) (singleBody_succeeds _ _) fun _ _ => .pure

theorem assertStatement_failsAs (h : n.Rebodied n') (hassertion : n.IsAssertion)
    (convert : Converter n Statement) (convert' : Converter n' Statement) :
    FailsAs (assertStatement n convert) (assertStatement n' convert') := by
  obtain ⟨hcondition, hmessage⟩ := assertParts_rebodied h hassertion
  unfold assertStatement
  generalize assertParts n = parts, assertParts n' = parts' at *
  obtain ⟨condition, message⟩ := parts
  obtain ⟨condition', message'⟩ := parts'
  dsimp only at *
  cases hcondition with
  | none => exact .bind_of_succeeds (remark_succeeds _ _) (remark_succeeds _ _) fun _ _ => .pure
  | some hp =>
    refine .bind_of_eq (resolve_same hp _) fun _ => ?_
    refine .bind_of_eq (resolve?_same hmessage _) fun _ => ?_
    exact .bind_of_succeeds (singleBody_succeeds _ _) (singleBody_succeeds _ _) fun _ _ => .pure

theorem callStatement_failsAs (h : n.Rebodied n') (convert : Converter n Statement)
    (convert' : Converter n' Statement) :
    FailsAs (callStatement .complete n convert) (callStatement .complete n' convert') := by
  have hcallee : Option.Rel SamePart (callee? n) (callee? n') :=
    ((h.anyField? (by decide)).or (h.ofKind? rfl)).filter fun _ _ hp => by rw [hp]
  unfold callStatement
  generalize callee? n = x, callee? n' = x' at hcallee
  cases hcallee with
  | none => exact .bind_of_succeeds (remark_succeeds _ _) (remark_succeeds _ _) fun _ _ => .pure
  | some hp =>
    refine .bind_of_eq (argumentsOf_same h.argumentList?) fun args => ?_
    simp only [← bind_pure_comp]
    exact .bind_of_succeeds (predefinedCall_succeeds _ _ _ _) (predefinedCall_succeeds _ _ _ _)
      fun _ _ => .pure

theorem moduleCall_failsAs (h : n.Rebodied n') (hkind : n.kind = .moduleInstantiation)
    (convert : Converter n Statement) (convert' : Converter n' Statement) :
    FailsAs (moduleCall n convert) (moduleCall n' convert') := by
  have hcalled := h.calledAs?_eq
  unfold calledAs? at hcalled
  unfold moduleCall
  rw [hcalled]
  split
  · exact assignStatement_failsAs h _ _
  · next hassert => exact assertStatement_failsAs h (.inr ⟨hkind, hassert⟩) _ _
  · exact callStatement_failsAs h _ _

/-- An owner fails as it did when other statements are put in the place of its bodies. -/
theorem statement_failsAs (howns : n.kind.ownsBodies = true) (h : n.Rebodied n') :
    FailsAs (statement .complete n) (statement .complete n') := by
  rw [statement_eq, statement_eq]
  unfold statementStep commonStep
  rw [h.kind_eq]
  cases hkind : n.kind with
  | moduleDefinition => exact moduleDefinition_failsAs h _ _
  | moduleInstantiation => exact moduleCall_failsAs h hkind _ _
  | ifStatement => exact ifStatement_failsAs h _ _
  | forStatement => exact forStatement_failsAs h _ _
  | letStatement => exact letStatement_failsAs h _ _
  | echoStatement => exact echoStatement_failsAs h _ _
  | assertStatement => exact assertStatement_failsAs h (.inl hkind) _ _
  | assignStatement => exact assignStatement_failsAs h _ _
  | _ => simp [hkind, Kind.ownsBodies] at howns

end Convert

end Scad
