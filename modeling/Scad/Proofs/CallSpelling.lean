import Scad.Proofs.OwnLabel
import Scad.Proofs.SpecialArguments

/-!
# Spellings of a Call

A grammar writes a call that stands as a statement under one of three tags, and labels its callee or
leaves it to be found.

* `Node.Respelled` — a call under another tag, or with its callee labelled otherwise.
* `Node.ReadsAsStatement` — a call that is read as an assertion or as a scoped assignment.
* `statement_respelled` — which spellings of a call mean the same.

All spellings of a call of any other module mean the same.  A call of `assert` or of `assign` is
read as the statement in one spelling alone: as a module call with a labelled callee.
-/

namespace Scad

/-- Whether a node of this kind is a call where it stands as a statement. -/
def Kind.isCall : Kind → Bool
  | moduleInstantiation | callExpression | accessorExpression => true
  | _ => false

namespace Node

/-! ## §1 Other spellings -/

/-- The second node is the first, an identifier that stands under the label of a name or under none,
and again stands under either. -/
structure Renamed (k k' : Node) : Prop where
  kind : k.kind = .identifier
  rest : k' = { k with label := k'.label }
  old : k.label = none ∨ k.label = some "name"
  new : k'.label = none ∨ k'.label = some "name"

/-- The callee is exchanged, and another child stays as it is.  No other child is labelled as a
callee. -/
inductive Respells (k k' : Node) : Node → Node → Prop where
  | callee : Respells k k' k k'
  | other {c : Node} (hne : c ≠ k) (hname : c.label ≠ some "name")
      (hfunction : c.label ≠ some "function") : Respells k k' c c

/-- The second node is the call that the first is, spelled otherwise. -/
inductive Respelled (n n' : Node) : Prop where
  /-- The tag is another one, whatever is called and wherever the name of it stands. -/
  | retagged (hrest : n' = { n with tag := n'.tag }) : Respelled n n'
  /-- The tag may be another one, and the callee, which is the first identifier of the call, stands
  under another label. -/
  | relabelled {k k' : Node}
      (hrest : n' = { n with tag := n'.tag, children := n'.children, named := n'.named })
      (hrenamed : k.Renamed k') (hfirst : (n.ofKind? .identifier).map Part.node = some k)
      (hpaired : n.Paired (Respells k k') n') : Respelled n n'

/-- The name that a call shows, under a label or as its first identifier. -/
def shownName? (n : Node) : Option String :=
  ((n.anyField? ["name", "function"]).or (n.ofKind? .identifier)).map fun p => p.node.trimmed

/-- The call is read as an assertion or as a scoped assignment. -/
def ReadsAsStatement (n : Node) : Prop :=
  n.kind = .moduleInstantiation ∧
    (n.calledAs? = some "assign" ∨ n.calledAs? = some "assert")

theorem shownName?_of_calledAs? {n : Node} {name : String} (h : n.calledAs? = some name) :
    n.shownName? = some name := by
  rw [calledAs?] at h
  rw [shownName?, Option.map_or, h, Option.some_or]

namespace Renamed

variable {k k' : Node}

theorem kind_eq (h : k.Renamed k') : k'.kind = k.kind := by
  rw [h.rest]
  rfl

theorem trimmed_eq (h : k.Renamed k') : k'.trimmed = k.trimmed := by
  rw [h.rest]
  rfl

theorem hasText_eq (h : k.Renamed k') : k'.hasText = k.hasText := by
  rw [h.rest]
  rfl

theorem isMissing_eq (h : k.Renamed k') : k'.isMissing = k.isMissing := by
  rw [h.rest]
  rfl

theorem span_eq (h : k.Renamed k') : k'.span = k.span := by
  rw [h.rest]

/-- A label that is no name is neither the old one nor the new one. -/
theorem label_ne (h : k.Renamed k') {label : String} (hlabel : label ≠ "name") :
    k.label ≠ some label ∧ k'.label ≠ some label := by
  constructor
  · rcases h.old with hk | hk <;> simp [hk, hlabel.symm]
  · rcases h.new with hk | hk <;> simp [hk, hlabel.symm]

end Renamed

namespace Respells

variable {k k' c c' : Node}

/-- In the place of the callee stands the callee. -/
theorem eq_of_eq (h : Respells k k' c c') (hc : c = k) : c' = k' := by
  cases h with
  | callee => rfl
  | other hne => exact absurd hc hne

/-- Nothing but the callee is labelled as one, in either call. -/
theorem eq_of_label (h : Respells k k' c c') :
    (c.label = some "name" ∨ c.label = some "function" → c = k) ∧
      (c'.label = some "name" ∨ c'.label = some "function" → c' = k') := by
  cases h with
  | callee => exact ⟨fun _ => rfl, fun _ => rfl⟩
  | other hne hname hfunction => simp [hname, hfunction]

end Respells

/-- The child is the same, or is renamed. -/
def SameOrRenamed (c c' : Node) : Prop :=
  c = c' ∨ c.Renamed c'

namespace SameOrRenamed

variable {c c' : Node}

theorem kind_eq (h : SameOrRenamed c c') : c'.kind = c.kind := by
  rcases h with rfl | h
  · rfl
  · exact h.kind_eq

theorem trimmed_eq (h : SameOrRenamed c c') : c'.trimmed = c.trimmed := by
  rcases h with rfl | h
  · rfl
  · exact h.trimmed_eq

theorem span_eq (h : SameOrRenamed c c') : c'.span = c.span := by
  rcases h with rfl | h
  · rfl
  · exact h.span_eq

/-- A scan that passes over every callee finds what it found. -/
theorem fixes {accepts : Node → Bool}
    (hpasses : ∀ k k' : Node, k.Renamed k' → accepts k = false ∧ accepts k' = false) :
    Fixes SameOrRenamed accepts :=
  fun _ _ h => h.imp_right (hpasses _ _)

theorem fixes_label {label : String} (hlabel : label ≠ "name") :
    Fixes SameOrRenamed (·.label == some label) := by
  refine fixes fun k k' hk => ?_
  obtain ⟨hold, hnew⟩ := hk.label_ne hlabel
  exact ⟨by simpa using hold, by simpa using hnew⟩

theorem fixes_kind {kind : Kind} (hkind : kind ≠ .identifier) :
    Fixes SameOrRenamed (·.kind == kind) := by
  refine fixes fun k k' hk => ?_
  rw [hk.kind_eq, hk.kind]
  simpa using hkind.symm

/-- A callee is no statement. -/
theorem fixes_statement (offset : Nat) :
    Fixes SameOrRenamed fun c => offset ≤ c.startByte && c.kind.isStatement := by
  refine fixes fun k k' hk => ?_
  rw [hk.kind_eq, hk.kind]
  simp [Kind.isStatement]

end SameOrRenamed

theorem Respells.sameOrRenamed {k k' c c' : Node} (h : Respells k k' c c') (hk : k.Renamed k') :
    SameOrRenamed c c' := by
  cases h with
  | callee => exact .inr hk
  | other => exact .inl rfl

/-! ## §2 What a call finds -/

section Callee

variable {n k : Node} {label : String}

/-- What stands under a label is found, or something else under the label is. -/
theorem exists_field?_of_holds (hk : n.Holds k) (hlabel : k.label = some label) :
    ∃ p, n.field? label = some p := by
  rw [← Option.isSome_iff_exists, field?, Option.isSome_or, Bool.or_eq_true, List.find?_isSome,
    List.find?_isSome]
  refine hk.imp (fun hmem => ?_) fun hmem => ?_
  · rw [← n.map_node_parts] at hmem
    obtain ⟨p, hp, rfl⟩ := List.mem_map.mp hmem
    exact ⟨p, hp, by simp [hlabel]⟩
  · rw [← n.map_node_namedParts] at hmem
    obtain ⟨p, hp, rfl⟩ := List.mem_map.mp hmem
    exact ⟨p, hp, by simp [hlabel]⟩

/-- The first identifier of a call is its callee, and nothing else is labelled as one. -/
structure HasCallee (n k : Node) : Prop where
  first : (n.ofKind? .identifier).map Part.node = some k
  label : k.label = none ∨ k.label = some "name"
  other : ∀ c, n.Holds c → c.label = some "name" ∨ c.label = some "function" → c = k

theorem HasCallee.holds (h : n.HasCallee k) : n.Holds k := by
  obtain ⟨p, hp, rfl⟩ := Option.map_eq_some_iff.mp h.first
  exact .inr (mem_named_of_mem_namedParts (List.mem_filter.mp (List.mem_of_find?_eq_some hp)).1)

/-- The callee is found by its label, where it has one; nothing else is found in its place. -/
theorem HasCallee.map_anyField? (h : n.HasCallee k) :
    (n.anyField? ["name", "function"]).map Part.node =
      if k.label = some "name" then some k else none := by
  have hlabels : n.anyField? ["name", "function"] = (n.field? "name").or (n.field? "function") := by
    rw [anyField?, List.findSome?_cons]
    cases n.field? "name" <;> simp
  rw [hlabels]
  rcases h.label with hnone | hname
  · have hmissing (label : String) (hcallee : label = "name" ∨ label = "function") :
        n.field? label = none := by
      rw [Option.eq_none_iff_forall_ne_some]
      intro p hp
      obtain ⟨hheld, hp⟩ := holds_of_field? hp
      have heq := h.other p.node hheld (by rcases hcallee with rfl | rfl <;> simp [hp])
      rw [heq, hnone] at hp
      cases hp
    rw [hmissing _ (.inl rfl), hmissing _ (.inr rfl), hnone]
    rfl
  · obtain ⟨p, hp⟩ := exists_field?_of_holds h.holds hname
    obtain ⟨hheld, hlabel⟩ := holds_of_field? hp
    rw [hp, Option.some_or, Option.map_some, h.other p.node hheld (.inl hlabel), if_pos hname]

/-- Under a label or under none, the callee is found. -/
theorem HasCallee.map_or_ofKind? (h : n.HasCallee k) :
    ((n.anyField? ["name", "function"]).or (n.ofKind? .identifier)).map Part.node = some k := by
  rw [Option.map_or, h.map_anyField?, h.first]
  split <;> rfl

theorem HasCallee.calledAs? (h : n.HasCallee k) :
    n.calledAs? = if k.label = some "name" then some k.trimmed else none := by
  have hcallee := congrArg (Option.map Node.trimmed) h.map_anyField?
  rw [Option.map_map] at hcallee
  rw [Node.calledAs?]
  refine hcallee.trans ?_
  split <;> rfl

theorem HasCallee.shownName? (h : n.HasCallee k) : n.shownName? = some k.trimmed := by
  have hcallee := congrArg (Option.map Node.trimmed) h.map_or_ofKind?
  rw [Option.map_map] at hcallee
  exact hcallee

theorem HasCallee.map_callee? (h : n.HasCallee k) :
    (Convert.callee? n).map Part.node = (some k).filter fun k => k.hasText && !k.isMissing := by
  obtain ⟨p, hp, rfl⟩ := Option.map_eq_some_iff.mp h.map_or_ofKind?
  rw [Convert.callee?, hp, Option.filter_some, Option.filter_some]
  split <;> rfl

variable {n' k' : Node}

theorem HasCallee.of_respells (hrenamed : k.Renamed k')
    (hfirst : (n.ofKind? .identifier).map Part.node = some k)
    (hpaired : n.Paired (Respells k k') n') : n.HasCallee k where
  first := hfirst
  label := hrenamed.old
  other c hc := by
    have hall {l l' : List Node} (hl : List.Forall₂ (Respells k k') l l') :=
      ((List.forall₂_and_left _ _).mp (hl.imp fun a b hab => ⟨hab.eq_of_label.1, hab⟩)).1
    exact hc.elim (hall hpaired.children c) (hall hpaired.named c)

theorem HasCallee.to_respells (hrenamed : k.Renamed k')
    (hfirst : (n.ofKind? .identifier).map Part.node = some k)
    (hpaired : n.Paired (Respells k k') n') : n'.HasCallee k' where
  -- The first identifier of the second call stands where that of the first call stands.
  first := by
    have hkinds (p : n.Part) (p' : n'.Part) (hp : Respells k k' p.node p'.node) :
        p'.node.kind = p.node.kind := (hp.sameOrRenamed hrenamed).kind_eq
    have hrel : Option.Rel (fun p p' => Respells k k' p.node p'.node) (n.ofKind? .identifier)
        (n'.ofKind? .identifier) := by
      refine rel_find? (rel_filter hpaired.namedParts fun p p' hp => ?_) fun p p' hp => ?_
      · rw [hkinds p p' hp]
      · simp only [hkinds p p' hp]
    obtain ⟨p, hp, hnode⟩ := Option.map_eq_some_iff.mp hfirst
    rw [hp] at hrel
    generalize n'.ofKind? .identifier = x at hrel
    cases hrel with
    | some hpair => rw [Option.map_some, hpair.eq_of_eq hnode]
  label := hrenamed.new
  other c hc := by
    have hall {l l' : List Node} (hl : List.Forall₂ (Respells k k') l l') :=
      ((List.forall₂_and_left _ _).mp (hl.flip.imp fun a b hab => ⟨hab.eq_of_label.2, hab⟩)).1
    exact hc.elim (hall hpaired.children c) (hall hpaired.named c)

end Callee

namespace Respelled

variable {n n' : Node}

theorem span_eq (h : n.Respelled n') : n'.span = n.span := by
  cases h with
  | retagged hrest => rw [hrest]
  | relabelled hrest => rw [hrest]

theorem paired (h : n.Respelled n') : n.Paired SameOrRenamed n' := by
  cases h with
  | retagged hrest => exact (Paired.of_eq (by rw [hrest]) (by rw [hrest])).mono fun _ _ => .inl
  | relabelled _ hrenamed _ hpaired => exact hpaired.mono fun _ _ hc => hc.sameOrRenamed hrenamed

theorem shownName?_eq (h : n.Respelled n') : n'.shownName? = n.shownName? := by
  cases h with
  | retagged hrest =>
    have hpaired : n.Paired Eq n' := .of_eq (by rw [hrest]) (by rw [hrest])
    refine (Option.Rel.map_eq ((hpaired.anyField? fun _ _ => fixes_eq _).or
      (hpaired.ofKind? (fixes_eq _))) fun p p' hp => ?_).symm
    rw [hp]
  | relabelled _ hrenamed hfirst hpaired =>
    rw [(HasCallee.of_respells hrenamed hfirst hpaired).shownName?,
      (HasCallee.to_respells hrenamed hfirst hpaired).shownName?, hrenamed.trimmed_eq]

/-- The callee is the same, or is missed in both calls. -/
theorem callee? (h : n.Respelled n') :
    Option.Rel (fun p p' => SameOrRenamed p.node p'.node) (Convert.callee? n)
      (Convert.callee? n') := by
  cases h with
  | retagged hrest =>
    have hpaired : n.Paired Eq n' := .of_eq (by rw [hrest]) (by rw [hrest])
    have hsame : Option.Rel SamePart (Convert.callee? n) (Convert.callee? n') :=
      ((hpaired.anyField? fun _ _ => fixes_eq _).or (hpaired.ofKind? (fixes_eq _))).filter
        fun p p' hp => by rw [hp]
    exact hsame.imp fun p p' hp => .inl hp
  | relabelled _ hrenamed hfirst hpaired =>
    have hold := (HasCallee.of_respells hrenamed hfirst hpaired).map_callee?
    have hnew := (HasCallee.to_respells hrenamed hfirst hpaired).map_callee?
    rw [Option.filter_some] at hold hnew
    rw [hrenamed.hasText_eq, hrenamed.isMissing_eq] at hnew
    generalize Convert.callee? n = x, Convert.callee? n' = x' at *
    split at hold
    · rename_i hcallee
      rw [if_pos hcallee] at hnew
      obtain ⟨p, rfl, rfl⟩ := Option.map_eq_some_iff.mp hold
      obtain ⟨p', rfl, rfl⟩ := Option.map_eq_some_iff.mp hnew
      exact .some (.inr hrenamed)
    · rename_i hcallee
      rw [if_neg hcallee] at hnew
      rw [Option.map_eq_none_iff.mp hold, Option.map_eq_none_iff.mp hnew]
      exact .none

theorem anyField? (h : n.Respelled n') {labels : List String} (hlabels : "name" ∉ labels) :
    Option.Rel SamePart (n.anyField? labels) (n'.anyField? labels) :=
  h.paired.anyField? fun _ hlabel => SameOrRenamed.fixes_label fun heq => hlabels (heq ▸ hlabel)

theorem argumentList? (h : n.Respelled n') :
    Option.Rel SamePart (Convert.argumentList? n) (Convert.argumentList? n') :=
  (h.paired.field? (SameOrRenamed.fixes_label (by decide))).or
    (h.paired.ofKind? (SameOrRenamed.fixes_kind (by decide)))

theorem statementAfter? (h : n.Respelled n') (offset : Nat) :
    Option.Rel SamePart (Convert.statementAfter? n offset) (Convert.statementAfter? n' offset) :=
  h.paired.find? (SameOrRenamed.fixes_statement offset)

/-- What stands behind the arguments, or behind the callee, stands behind them in both calls. -/
theorem trailing? (h : n.Respelled n') {labels : List String} (hlabels : "name" ∉ labels) :
    Option.Rel SamePart (Convert.trailing? n labels) (Convert.trailing? n' labels) := by
  have hbefore : ((Convert.argumentList? n).or (Convert.callee? n)).map (·.node.stopByte) =
      ((Convert.argumentList? n').or (Convert.callee? n')).map (·.node.stopByte) := by
    refine Option.Rel.map_eq (R := fun p p' => p'.node.span = p.node.span) ?_ fun p p' hp => ?_
    · exact (h.argumentList?.imp fun p p' hp => by rw [hp]).or
        (h.callee?.imp fun p p' hp => hp.span_eq)
    · rw [Node.stopByte, Node.stopByte, hp]
  have hlabelled := h.anyField? hlabels
  unfold Convert.trailing?
  generalize n.anyField? labels = x, n'.anyField? labels = x' at hlabelled
  cases hlabelled with
  | some hp => exact .some hp
  | none =>
    dsimp only
    rw [hbefore, Node.startByte, Node.startByte, h.span_eq]
    exact h.statementAfter? _

end Respelled

end Node

/-- Whether the statement is an assertion or a scoped assignment. -/
def Statement.isAssertOrAssign : Statement → Bool
  | assertion .. | assign .. => true
  | _ => false

namespace Convert

open Conversion Node

variable {n n' : Node} {settings : Settings}

/-! ## §3 What a call means -/

/-- A body is converted in the same way, whoever holds it. -/
theorem bodyOf_same {d : Dialect} {x : Option n.Part} {x' : Option n'.Part}
    (hx : Option.Rel SamePart x x') : bodyOf (inner d n) x = bodyOf (inner d n') x' := by
  cases hx with
  | none => rfl
  | some hp =>
    obtain ⟨m, _, _, rfl, rfl⟩ := hp.exists_node
    rfl

theorem singleBody_same {d : Dialect} {x : Option n.Part} {x' : Option n'.Part}
    (hx : Option.Rel SamePart x x') : singleBody (inner d n) x = singleBody (inner d n') x' := by
  cases hx with
  | none => rfl
  | some hp =>
    obtain ⟨m, _, _, rfl, rfl⟩ := hp.exists_node
    rfl

theorem result_remarkIgnored (n : Node) (name : String) (args : List Argument)
    (settings : Settings) : (remarkIgnored n name args).result settings = .ok () := by
  obtain ⟨_, h⟩ := remarkIgnored_succeeds n name args settings
  exact h

/-- Once its name and its arguments are read, a call means the same in every spelling. -/
theorem result_predefinedCall_respelled (h : n.Respelled n') (name : String)
    (args : List Argument) :
    (predefinedCall n (inner .complete n) name args).result settings =
      (predefinedCall n' (inner .complete n') name args).result settings := by
  have htrailing := h.trailing? (by decide : "name" ∉ ["body"])
  have hchildren : callChildren n (inner .complete n) = callChildren n' (inner .complete n') :=
    bodyOf_same htrailing
  have hspan : ((callee? n).map fun p => p.node.span) = (callee? n').map fun p => p.node.span :=
    h.callee?.map_eq fun p p' hp => hp.span_eq.symm
  unfold predefinedCall
  rw [htrailing.isSome_eq, hchildren, singleBody_same htrailing, hspan, h.span_eq]
  -- What is left are the remarks, which show the call itself and have no result.
  cases primitive? name args with
  | some shape =>
    dsimp only
    split
    · simp [result_remarkIgnored]
    · simp [result_remarkIgnored]
  | none =>
    cases transform? name args with
    | some transform => simp [result_remarkIgnored]
    | none => rfl

theorem result_callStatement_respelled (h : n.Respelled n') :
    (callStatement .complete n (inner .complete n)).result settings =
      (callStatement .complete n' (inner .complete n')).result settings := by
  have hcallee := h.callee?
  unfold callStatement
  generalize callee? n = x, callee? n' = x' at hcallee
  cases hcallee with
  | none => rfl
  | some hp =>
    dsimp only
    rw [argumentsOf_same h.argumentList?, hp.trimmed_eq]
    simp only [result_bind, result_map, result_predefinedCall_respelled h]

/-! ## §4 Calls that are read as statements -/

theorem result_assignStatement_respelled (h : n.Respelled n') :
    (assignStatement n (inner .complete n)).result settings =
      (assignStatement n' (inner .complete n')).result settings := by
  have hafter : ((argumentList? n).map fun p => p.node.stopByte).getD n.startByte =
      ((argumentList? n').map fun p => p.node.stopByte).getD n'.startByte := by
    rw [h.argumentList?.map_eq fun p p' hp => by rw [hp], Node.startByte, Node.startByte, h.span_eq]
  have hbody := (h.anyField? (by decide : "name" ∉ ["statement", "block", "body"])).or
    (h.statementAfter? (((argumentList? n').map fun p => p.node.stopByte).getD n'.startByte))
  unfold assignStatement
  dsimp only
  rw [assignGroups_same h.argumentList?, hafter, singleBody_same hbody, h.span_eq]
  -- The remark shows the call itself, and has no result.
  simp only [result_bind, result_remark]

theorem assertParts_same (h : n.Paired Eq n') :
    Option.Rel SamePart (assertParts n).1 (assertParts n').1 ∧
      Option.Rel SamePart (assertParts n).2 (assertParts n').2 := by
  have hcondition := h.field? (fixes_eq (·.label == some "condition"))
  have hmessage := h.field? (fixes_eq (·.label == some "message"))
  have hlist : Option.Rel SamePart (argumentList? n) (argumentList? n') :=
    (h.field? (fixes_eq _)).or (h.ofKind? (fixes_eq _))
  have hchildren : Option.Rel SamePart (assertChildren n).1 (assertChildren n').1 ∧
      Option.Rel SamePart (assertChildren n).2 (assertChildren n').2 := by
    unfold assertChildren
    dsimp only
    refine ⟨h.find? (fixes_eq _), (h.token? (fixes_eq _)).bind fun p p' hp => ?_⟩
    rw [hp]
    exact h.find? (fixes_eq _)
  unfold assertParts
  generalize n.field? "condition" = x, n'.field? "condition" = x' at *
  generalize argumentList? n = y, argumentList? n' = y' at *
  cases hcondition with
  | some hp => exact ⟨.some hp, hmessage⟩
  | none =>
    cases hlist with
    | some hp => exact assertArguments_same hp
    | none => exact hchildren

/-- An assertion may take any of its children for its condition, so all of them have to stay. -/
theorem result_assertStatement_respelled (h : n.Respelled n') (hpaired : n.Paired Eq n') :
    (assertStatement n (inner .complete n)).result settings =
      (assertStatement n' (inner .complete n')).result settings := by
  obtain ⟨hcondition, hmessage⟩ := assertParts_same hpaired
  have hbody := h.trailing? (by decide : "name" ∉ ["statement", "body"])
  unfold assertStatement
  generalize assertParts n = parts, assertParts n' = parts' at *
  obtain ⟨condition, message⟩ := parts
  obtain ⟨condition', message'⟩ := parts'
  dsimp only at *
  cases hcondition with
  | none => rfl
  | some hp =>
    dsimp only
    rw [resolve_same hp, resolve?_same hmessage, singleBody_same hbody, h.span_eq]

/-! ## §5 Which spellings mean the same -/

theorem shownName?_of_readsAsStatement (h : n.ReadsAsStatement) :
    n.shownName? = some "assign" ∨ n.shownName? = some "assert" :=
  h.2.imp shownName?_of_calledAs? shownName?_of_calledAs?

theorem statement_of_moduleInstantiation (h : n.kind = .moduleInstantiation) :
    statement .complete n = moduleCall n (inner .complete n) := by
  rw [statement_eq]
  simp only [statementStep, commonStep, h]

/-- A call that is not read as another statement is a call. -/
theorem statement_of_not_readsAsStatement (hcall : n.kind.isCall = true)
    (h : ¬n.ReadsAsStatement) :
    statement .complete n = callStatement .complete n (inner .complete n) := by
  cases hkind : n.kind with
  | moduleInstantiation =>
    have hnot : ¬(n.calledAs? = some "assign" ∨ n.calledAs? = some "assert") :=
      fun hcalled => h ⟨hkind, hcalled⟩
    rw [statement_of_moduleInstantiation hkind]
    unfold moduleCall
    unfold calledAs? at hnot
    split
    · next hassign => exact absurd (.inl hassign) hnot
    · next hassert => exact absurd (.inr hassert) hnot
    · rfl
  | callExpression =>
    rw [statement_eq]
    simp only [statementStep, commonStep, hkind]
  | accessorExpression =>
    rw [statement_eq]
    simp only [statementStep, commonStep, hkind]
  | _ => simp [hkind, Kind.isCall] at hcall

/-- One that is read as another statement is that statement. -/
theorem statement_of_readsAsStatement (h : n.ReadsAsStatement) :
    n.calledAs? = some "assign" ∧
        statement .complete n = assignStatement n (inner .complete n) ∨
      n.calledAs? = some "assert" ∧
        statement .complete n = assertStatement n (inner .complete n) := by
  obtain ⟨hkind, hcalled⟩ := h
  rw [statement_of_moduleInstantiation hkind]
  unfold moduleCall
  refine hcalled.imp (fun hassign => ⟨hassign, ?_⟩) fun hassert => ⟨hassert, ?_⟩
  · unfold calledAs? at hassign
    simp only [hassign]
  · unfold calledAs? at hassert
    simp only [hassert]

/-- No module makes an assertion or a scoped assignment. -/
theorem callStatement_ensures (n : Node) (convert : Converter n Statement) :
    (callStatement .complete n convert).Ensures fun r =>
      ∀ s, r = some s → s.isAssertOrAssign = false := by
  unfold callStatement
  cases callee? n with
  | none => exact .bind_any fun _ => .pure fun _ h => nomatch h
  | some callee =>
    refine .bind_any fun args => .map ((predefinedCall_makes _ _ _ _).imp fun s hs => ?_)
    rintro _ ⟨⟩
    cases hs <;> rfl

theorem assignStatement_ensures (n : Node) (convert : Converter n Statement) :
    (assignStatement n convert).Ensures fun r =>
      ∀ s, r = some s → s.isAssertOrAssign = true := by
  unfold assignStatement
  refine .bind_any fun _ => .bind_any fun _ => .bind_any fun _ => .pure ?_
  rintro _ ⟨⟩
  rfl

theorem assertStatement_ensures (n : Node) (convert : Converter n Statement) :
    (assertStatement n convert).Ensures fun r =>
      ∀ s, r = some s → s.isAssertOrAssign = true := by
  unfold assertStatement
  rcases assertParts n with ⟨_ | condition, message⟩
  · exact .bind_any fun _ => .pure fun _ h => nomatch h
  · refine .bind_any fun _ => .bind_any fun _ => .bind_any fun _ => .pure ?_
    rintro _ ⟨⟩
    rfl

/-- What a call is converted to tells whether it was read as another statement. -/
theorem isAssertOrAssign_iff {s : Statement} (hcall : n.kind.isCall = true)
    (h : (statement .complete n).result settings = .ok (some s)) :
    s.isAssertOrAssign = true ↔ n.ReadsAsStatement := by
  constructor
  · intro hs
    by_contra hreads
    rw [statement_of_not_readsAsStatement hcall hreads] at h
    simp [callStatement_ensures _ _ settings _ h s rfl] at hs
  · intro hreads
    rcases statement_of_readsAsStatement hreads with ⟨-, hassign⟩ | ⟨-, hassert⟩
    · rw [hassign] at h
      exact assignStatement_ensures _ _ settings _ h s rfl
    · rw [hassert] at h
      exact assertStatement_ensures _ _ settings _ h s rfl

/-- Where both spellings are read as another statement, the callee stands under one label, and every
child stays as it is. -/
theorem Respelled.paired_of_readsAsStatement (h : n.Respelled n') (hn : n.ReadsAsStatement)
    (hn' : n'.ReadsAsStatement) : n.Paired Eq n' := by
  cases h with
  | retagged hrest => exact .of_eq (by rw [hrest]) (by rw [hrest])
  | @relabelled k k' _ hrenamed hfirst hpaired =>
    have hlabelled {m c : Node} (hm : m.ReadsAsStatement) (hc : m.HasCallee c) :
        c.label = some "name" := by
      by_contra hlabel
      have hcalled := hm.2
      rw [hc.calledAs?, if_neg hlabel] at hcalled
      rcases hcalled with hcalled | hcalled <;> cases hcalled
    have hlabel : k'.label = k.label := by
      rw [hlabelled hn (.of_respells hrenamed hfirst hpaired),
        hlabelled hn' (.to_respells hrenamed hfirst hpaired)]
    have hcallee : k = k' := by
      rw [hrenamed.rest, hlabel]
      cases k
      rfl
    refine hpaired.mono fun c c' hc => ?_
    cases hc with
    | callee => exact hcallee
    | other => rfl

/-- Spellings that are read alike mean the same. -/
theorem result_statement_respelled (hcall : n.kind.isCall = true) (hcall' : n'.kind.isCall = true)
    (h : n.Respelled n') (hreads : n.ReadsAsStatement ↔ n'.ReadsAsStatement) :
    (statement .complete n).result settings = (statement .complete n').result settings := by
  by_cases hn : n.ReadsAsStatement
  · have hn' := hreads.mp hn
    have hpaired := Respelled.paired_of_readsAsStatement h hn hn'
    have hcalled : n.calledAs? = n'.calledAs? :=
      (hpaired.anyField? fun _ _ => fixes_eq _).map_eq fun p p' hp => by rw [hp]
    -- The name is the same in both, so they are read as the same statement.
    obtain ⟨hname, hold⟩ | ⟨hname, hold⟩ := statement_of_readsAsStatement hn
    all_goals obtain ⟨hname', hnew⟩ | ⟨hname', hnew⟩ := statement_of_readsAsStatement hn'
    · rw [hold, hnew, result_assignStatement_respelled h]
    · simp [← hcalled, hname] at hname'
    · simp [← hcalled, hname] at hname'
    · rw [hold, hnew, result_assertStatement_respelled h hpaired]
  · rw [statement_of_not_readsAsStatement hcall hn,
      statement_of_not_readsAsStatement hcall' (mt hreads.mpr hn), result_callStatement_respelled h]

/-- A call under another tag, or with its callee labelled otherwise, means the same unless it calls
`assert` or `assign`: it is converted to the same statement, or fails with the same fault.  A call
of `assert` or `assign` means the same in two spellings where both are read as the statement of that
name, and where neither is.  Where only one is, it alone is converted to such a statement. -/
theorem statement_respelled (hcall : n.kind.isCall = true) (hcall' : n'.kind.isCall = true)
    (h : n.Respelled n') (settings : Settings) :
    (n.shownName? ≠ some "assign" → n.shownName? ≠ some "assert" →
        (statement .complete n).result settings = (statement .complete n').result settings) ∧
      ((n.ReadsAsStatement ↔ n'.ReadsAsStatement) →
        (statement .complete n).result settings = (statement .complete n').result settings) ∧
      ∀ m ∈ [n, n'], ∀ s, (statement .complete m).result settings = .ok (some s) →
        (s.isAssertOrAssign = true ↔ m.ReadsAsStatement) := by
  refine ⟨fun hassign hassert => result_statement_respelled hcall hcall' h ?_,
    result_statement_respelled hcall hcall' h, fun m hm s hs => isAssertOrAssign_iff ?_ hs⟩
  · refine iff_of_false (fun hn => ?_) fun hn => ?_
    · exact (shownName?_of_readsAsStatement hn).elim hassign hassert
    · have hname := shownName?_of_readsAsStatement hn
      rw [h.shownName?_eq] at hname
      exact hname.elim hassign hassert
  · simp only [List.mem_cons, List.not_mem_nil, or_false] at hm
    rcases hm with rfl | rfl
    · exact hcall
    · exact hcall'

/-- The name of a call, under a label or under none. -/
def calleeOf (text : String) (label : Option String) : Node where
  tag := "identifier"
  text
  span := ⟨⟨0, 0, 0⟩, ⟨0, 6, 6⟩⟩
  label

/-- The argument `true`. -/
def trueArgument : Node where
  tag := "boolean"
  text := "true"
  span := ⟨⟨0, 7, 7⟩, ⟨0, 11, 11⟩⟩

/-- The argument list `(true)`. -/
def trueArguments : Node where
  tag := "arguments"
  text := "(true)"
  span := ⟨⟨0, 6, 6⟩, ⟨0, 12, 12⟩⟩
  children := [trueArgument]
  named := [trueArgument]

/-- A call with this argument list. -/
def callSpelled (tag : String) (callee : Node) : Node where
  tag
  text := callee.text ++ "(true)"
  span := ⟨⟨0, 0, 0⟩, ⟨0, 12, 12⟩⟩
  children := [callee, trueArguments]
  named := [callee, trueArguments]

theorem respelled_callSpelled (tag tag' text : String) {label label' : Option String}
    (hlabel : label = none ∨ label = some "name") (hlabel' : label' = none ∨ label' = some "name") :
    (callSpelled tag (calleeOf text label)).Respelled (callSpelled tag' (calleeOf text label')) := by
  have hchildren : List.Forall₂ (Respells (calleeOf text label) (calleeOf text label'))
      [calleeOf text label, trueArguments] [calleeOf text label', trueArguments] :=
    .cons .callee (.cons (.other (by simp [calleeOf, trueArguments]) (by decide) (by decide)) .nil)
  exact .relabelled rfl ⟨rfl, rfl, hlabel, hlabel'⟩ rfl ⟨hchildren, hchildren⟩

theorem arguments_trueArguments :
    arguments trueArguments (expressions trueArguments) =
      pure [⟨none, .boolean true, trueArgument.span⟩] := by
  have hplain : plainValue trueArgument = pure (.boolean true) := by
    rw [plainValue]
    rfl
  have hvalue : value trueArgument (expression trueArgument) = pure (.boolean true) := by
    rw [value, hplain]
    rfl
  have hsignificant : trueArguments.significant =
      [⟨trueArgument, sizeOf_lt_of_mem_named (.head _)⟩] := rfl
  rw [arguments, hsignificant, List.mapM_cons, List.mapM_nil]
  show ((do return [⟨none, ← value trueArgument (expression trueArgument), trueArgument.span⟩] :
    Conversion (List Argument)) >>= fun group => _) >>= _ = _
  rw [hvalue]
  rfl

/-- What a call of a module converts to. -/
def callOfTrue (name : String) : Statement :=
  .call name ⟨⟨0, 0, 0⟩, ⟨0, 6, 6⟩⟩ [⟨none, .boolean true, trueArgument.span⟩] []
    ⟨⟨0, 0, 0⟩, ⟨0, 12, 12⟩⟩

/-- Once the two children of a call are found, what is left is to tell what is called. -/
theorem callStatement_callSpelled {tag : String} {callee : Node}
    (hcallee : callee? (callSpelled tag callee) =
      some ⟨callee, sizeOf_lt_of_mem_named (.head _)⟩)
    (hlist : argumentList? (callSpelled tag callee) =
      some ⟨trueArguments, sizeOf_lt_of_mem_named (.tail _ (.head _))⟩) :
    callStatement .complete (callSpelled tag callee) (inner .complete (callSpelled tag callee)) =
      some <$> predefinedCall (callSpelled tag callee) (inner .complete (callSpelled tag callee))
        callee.trimmed [⟨none, .boolean true, trueArgument.span⟩] := by
  have hargs : argumentsOf (expressions (callSpelled tag callee))
      (some ⟨trueArguments, sizeOf_lt_of_mem_named (.tail _ (.head _))⟩) =
        pure [⟨none, .boolean true, trueArgument.span⟩] :=
    arguments_trueArguments
  unfold callStatement
  rw [hlist, hcallee]
  dsimp only
  rw [hargs, pure_bind]

theorem statement_respelled_widget :
    (callSpelled "module_instantiation" (calleeOf "widget" (some "name"))).Respelled
        (callSpelled "call_expression" (calleeOf "widget" none)) ∧
      (statement .complete (callSpelled "module_instantiation"
          (calleeOf "widget" (some "name")))).result {} = .ok (some (callOfTrue "widget")) ∧
      (statement .complete (callSpelled "call_expression" (calleeOf "widget" none))).result {} =
        .ok (some (callOfTrue "widget")) := by
  have hrespelled := respelled_callSpelled "module_instantiation" "call_expression" "widget"
    (.inr rfl) (.inl rfl)
  have hreads : ¬(callSpelled "call_expression" (calleeOf "widget" none)).ReadsAsStatement := by
    rintro ⟨hkind, -⟩
    cases hkind
  have hcall : (statement .complete (callSpelled "call_expression"
      (calleeOf "widget" none))).result {} = .ok (some (callOfTrue "widget")) := by
    rw [statement_of_not_readsAsStatement (by decide) hreads, callStatement_callSpelled rfl rfl]
    rfl
  have hname : (callSpelled "module_instantiation" (calleeOf "widget" (some "name"))).shownName? =
      some (Text.trim "widget") := rfl
  obtain ⟨hsame, -⟩ := statement_respelled (by decide) (by decide) hrespelled {}
  exact ⟨hrespelled, (hsame (by rw [hname]; decide) (by rw [hname]; decide)).trans hcall, hcall⟩

/-- Under another tag, an assertion is the call of a module that is not there. -/
theorem assert_respelled_ne :
    (callSpelled "module_instantiation" (calleeOf "assert" (some "name"))).Respelled
        (callSpelled "call_expression" (calleeOf "assert" (some "name"))) ∧
      (statement .complete (callSpelled "module_instantiation"
          (calleeOf "assert" (some "name")))).result {} =
        .ok (some (.assertion (.literal (.boolean true) trueArgument.span) none none
          ⟨⟨0, 0, 0⟩, ⟨0, 12, 12⟩⟩)) ∧
      (statement .complete (callSpelled "call_expression"
          (calleeOf "assert" (some "name")))).result {} = .ok (some (callOfTrue "assert")) := by
  refine ⟨.retagged rfl, ?_, ?_⟩
  · have hexpression : expression trueArgument =
        pure (some (.literal (.boolean true) trueArgument.span)) := by
      rw [expression_eq]
      rfl
    have hlist : trueArguments ∈ (callSpelled "module_instantiation"
        (calleeOf "assert" (some "name"))).named := .tail _ (.head _)
    have hparts : assertParts (callSpelled "module_instantiation"
        (calleeOf "assert" (some "name"))) =
          (some (Part.within ⟨trueArguments, sizeOf_lt_of_mem_named hlist⟩
            ⟨trueArgument, sizeOf_lt_of_mem_named (.head _)⟩), none) := rfl
    rw [statement_of_moduleInstantiation (by decide)]
    show (assertStatement _ _).result {} = _
    rw [assertStatement, hparts]
    show (resolved .assertCondition trueArgument >>= _).result {} = _
    rw [resolved_of_expression hexpression]
    rfl
  · have hreads : ¬(callSpelled "call_expression"
        (calleeOf "assert" (some "name"))).ReadsAsStatement := by
      rintro ⟨hkind, -⟩
      cases hkind
    rw [statement_of_not_readsAsStatement (by decide) hreads, callStatement_callSpelled rfl rfl]
    rfl

end Convert

end Scad
