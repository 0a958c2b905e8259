import Scad.Proofs.Bodies.Place

/-!
# Modifiers

A modifier applies to one statement: to the one it wraps, or, where it wraps none, to the one next to
it in a statement wrapper.  `Node.Behind` says which statement stands behind which modifiers in this
way, at any depth, and the conversion nests the modifiers as they stand.

Of several bare modifiers in a row, the first applies to the second, which is a statement of its own
kind but wraps nothing.  The statement behind them is not reached, and nothing is told of it.
-/

namespace Scad

/-- The statement `outer` is `inner` behind some modifiers, the outermost first. -/
inductive Statement.Modifies : List Modifier → Statement → Statement → Prop where
  | none (s : Statement) : Modifies [] s s
  | modified {kind : Modifier} {kinds : List Modifier} {inner outer : Statement} {span : Span}
      (h : Modifies kinds inner outer) : Modifies (kind :: kinds) inner (.modified kind outer span)

namespace Node

/-- The node is a modifier that wraps no statement. -/
structure IsBareModifier (modifier : Modifier) (m : Node) : Prop where
  kind : m.kind = .modifier
  spelled : Convert.modifierOf m = some modifier
  alone : ∀ p ∈ m.significant, p.node.kind.isStatement = false
  unlabelled : m.anyField? ["statement", "body"] = none

/-- What a modifier wraps: a labelled child, or else its last statement. -/
def wrappedStatement? (m : Node) : Option m.Part :=
  (m.anyField? ["statement", "body"]).or (m.findLast? (·.kind.isStatement))

/-- The node stands for `t` behind some modifiers, the outermost first. -/
inductive Behind (t : Node) : List Modifier → Node → Prop where
  | bare : Behind t [] t
  /-- A modifier around its statement. -/
  | around {modifier : Modifier} {modifiers : List Modifier} {m : Node} {p : m.Part}
      (hkind : m.kind = .modifier) (hspelled : Convert.modifierOf m = some modifier)
      (hwrapped : m.wrappedStatement? = some p) (h : Behind t modifiers p.node) :
      Behind t (modifier :: modifiers) m
  /-- A modifier beside its statement. -/
  | beside {modifier : Modifier} {modifiers : List Modifier} {w m x : Node} {rest : List Node}
      (hkind : w.kind = .statement) (hm : m.IsBareModifier modifier)
      (hsiblings : w.significant.map Part.node = m :: x :: rest)
      (hx : x.kind.isStatement = true) (h : Behind t modifiers x) :
      Behind t (modifier :: modifiers) w

end Node

namespace Convert

open Conversion Node

variable {n w m t x : Node} {modifier : Modifier} {settings : Settings} {s : Statement}

/-! ## §1 One modifier -/

/-- Where a modified statement stands: from the modifier to the end of its target, or where the
modifier stands that reaches as far. -/
def modifiedSpan (modifier target : Node) : Span :=
  if modifier.stopByte < target.stopByte then modifier.spanTo target else modifier.span

/-- A modifier stands around whatever its target leaves. -/
theorem result_applyModifier {p : n.Part} (h : modifierOf m = some modifier)
    (hs : outcome settings p.node = some s) :
    (applyModifier (inner .complete n) m (some p)).result settings =
      .ok (some (.modified modifier s (modifiedSpan m p.node))) := by
  have htarget : (orFault (inner .complete n p)).result settings = .ok (some s) := by
    rw [← hs]
    exact result_orFault p.node
  unfold applyModifier
  rw [h]
  dsimp only
  rw [result_bind, htarget]
  rfl

theorem statement_of_modifier (h : m.kind = .modifier) :
    statement .complete m = applyModifier (inner .complete m) m m.wrappedStatement? := by
  rw [statement_eq]
  simp only [statementStep, h]
  rfl

/-- A bare modifier stands for nothing, and tells nothing. -/
theorem statement_of_isBareModifier (h : m.IsBareModifier modifier) :
    statement .complete m = pure none := by
  have hlast : m.findLast? (·.kind.isStatement) = none := by
    rw [findLast?, List.filter_eq_nil_iff.mpr fun p hp => by simp [h.alone p hp]]
    rfl
  have hwrapped : m.wrappedStatement? = none := by
    rw [wrappedStatement?, h.unlabelled, hlast, Option.none_or]
  rw [statement_of_modifier h.kind, hwrapped, applyModifier, h.spelled]

/-- A bare modifier at the start of a wrapper applies to the statement next to it. -/
theorem statement_of_beside {rest : List Node} (hw : w.kind = .statement)
    (hm : m.IsBareModifier modifier) (hsiblings : w.significant.map Part.node = m :: x :: rest)
    (hx : x.kind.isStatement = true) :
    ∃ p : w.Part, p.node = x ∧
      statement .complete w = applyModifier (inner .complete w) m (some p) := by
  -- Only the first two of the siblings matter: the modifier and what stands next to it.
  obtain ⟨first, tail, hsignificant, rfl, htail⟩ := List.map_eq_cons_iff.mp hsiblings
  obtain ⟨p, tail, rfl, rfl, -⟩ := List.map_eq_cons_iff.mp htail
  have hany : (first.node.significant.any fun c => c.node.kind.isStatement) = false := by
    simpa using hm.alone
  have hsibling : siblingModifier? w = some (first, some p) := by
    unfold siblingModifier?
    rw [hsignificant]
    simp [hm.kind, hany, hx]
  refine ⟨p, rfl, ?_⟩
  rw [statement_eq]
  simp only [statementStep, commonStep, hw, statementWrapper, hsibling]

/-! ## §2 Modifiers that nest -/

/-- Nested modifiers nest: whatever the statement behind them leaves is left with all of them around
it, in their order. -/
theorem exists_outcome_of_behind {modifiers : List Modifier} (h : t.Behind modifiers w)
    (hs : outcome settings t = some s) :
    ∃ outer, outcome settings w = some outer ∧ Statement.Modifies modifiers s outer := by
  -- Each modifier is put around whatever the modifiers inside it have left.
  induction h with
  | bare => exact ⟨s, hs, .none s⟩
  | @around modifier _ m p hkind hspelled hwrapped _ ih =>
    obtain ⟨outer, houter, hmodifies⟩ := ih
    refine ⟨.modified modifier outer (modifiedSpan m p.node), ?_, .modified hmodifies⟩
    rw [outcome, statement_of_modifier hkind, hwrapped, result_applyModifier hspelled houter]
  | @beside modifier _ w m x _ hkind hm hsiblings hx _ ih =>
    obtain ⟨outer, houter, hmodifies⟩ := ih
    obtain ⟨p, rfl, hstatement⟩ := statement_of_beside hkind hm hsiblings hx
    refine ⟨.modified modifier outer (modifiedSpan m p.node), ?_, .modified hmodifies⟩
    rw [outcome, hstatement, result_applyModifier hm.spelled houter]

/-! ## §3 Modifiers in a row -/

/-- The first of two bare modifiers finds nothing behind it but the second, which stands for
nothing. -/
theorem run_of_twoBareModifiers {other : Modifier} {rest : List Node} (hw : w.kind = .statement)
    (hm : m.IsBareModifier modifier) (hx : x.IsBareModifier other)
    (hsiblings : w.significant.map Part.node = m :: x :: rest) (settings : Settings) :
    (statement .complete w).run settings = (.ok none, []) := by
  -- A modifier is of a statement kind, so the second is taken for the target of the first.
  have hstatement : x.kind.isStatement = true := by
    rw [hx.kind]
    rfl
  obtain ⟨p, rfl, happlied⟩ := statement_of_beside hw hm hsiblings hstatement
  have hnone : inner .complete w p = pure none := statement_of_isBareModifier hx
  rw [happlied, applyModifier, hm.spelled]
  dsimp only
  rw [hnone]
  rfl

/-- Bare modifiers in a row, and a statement behind them, in one wrapper.  A single modifier stands
around what the statement leaves.  Of several, none is left, and nothing of the statement: the
wrapper converts to nothing, and nothing is told. -/
theorem statement_of_modifiersInRow {modifiers : List Modifier} {ms rest : List Node}
    (hw : w.kind = .statement) (hms : List.Forall₂ IsBareModifier modifiers ms)
    (ht : t.kind.isStatement = true) (hsiblings : w.significant.map Part.node = ms ++ t :: rest)
    (settings : Settings) :
    (∀ modifier m s, modifiers = [modifier] → ms = [m] → outcome settings t = some s →
        (statement .complete w).result settings =
          .ok (some (.modified modifier s (modifiedSpan m t)))) ∧
      (2 ≤ modifiers.length → (statement .complete w).run settings = (.ok none, [])) := by
  constructor
  · rintro modifier m s rfl rfl hs
    obtain ⟨hm, -⟩ := List.forall₂_cons.mp hms
    obtain ⟨p, rfl, hstatement⟩ := statement_of_beside hw hm hsiblings ht
    rw [hstatement, result_applyModifier hm.spelled hs]
  · intro hlength
    obtain _ | ⟨hfirst, _ | ⟨hsecond, _⟩⟩ := hms
    · simp at hlength
    · simp at hlength
    · exact run_of_twoBareModifiers hw hfirst hsecond hsiblings settings

/-- The modifier `#`. -/
def hash : Node where
  tag := "modifier"
  text := "#"
  span := ⟨⟨0, 0, 0⟩, ⟨0, 1, 1⟩⟩

/-- The modifier `%` behind it. -/
def percent : Node where
  tag := "modifier"
  text := "%"
  span := ⟨⟨0, 1, 1⟩, ⟨0, 2, 2⟩⟩

/-- The name of a module. -/
def moduleName : Node where
  tag := "identifier"
  text := "f"
  span := ⟨⟨0, 2, 2⟩, ⟨0, 3, 3⟩⟩
  label := some "name"

/-- A call of the module. -/
def moduleCallNode : Node where
  tag := "module_instantiation"
  text := "f()"
  span := ⟨⟨0, 2, 2⟩, ⟨0, 5, 5⟩⟩
  children := [moduleName]
  named := [moduleName]

/-- The call behind modifiers, in one wrapper. -/
def callBehind (modifiers : List Node) : Node where
  tag := "statement"
  text := "#%f();"
  span := ⟨⟨0, 0, 0⟩, ⟨0, 6, 6⟩⟩
  children := modifiers ++ [moduleCallNode]
  named := modifiers ++ [moduleCallNode]

/-- What the call converts to. -/
def callOfModule : Statement :=
  .call "f" ⟨⟨0, 2, 2⟩, ⟨0, 3, 3⟩⟩ [] [] ⟨⟨0, 2, 2⟩, ⟨0, 5, 5⟩⟩

theorem result_moduleCallNode :
    (statement .complete moduleCallNode).result {} = .ok (some callOfModule) := by
  rw [statement_eq]
  rfl

theorem isBareModifier_hash : hash.IsBareModifier .highlight :=
  ⟨by decide, by decide, List.forall_mem_nil _, rfl⟩

theorem isBareModifier_percent : percent.IsBareModifier .transparent :=
  ⟨by decide, by decide, List.forall_mem_nil _, rfl⟩

theorem statement_of_modifiersInRow_hash :
    (callBehind [hash]).significant.map Part.node = [hash] ++ [moduleCallNode] ∧
      (statement .complete (callBehind [hash])).result {} =
        .ok (some (.modified .highlight callOfModule ⟨⟨0, 0, 0⟩, ⟨0, 5, 5⟩⟩)) := by
  have hsiblings : (callBehind [hash]).significant.map Part.node = [hash] ++ moduleCallNode :: [] :=
    rfl
  have hcall : outcome {} moduleCallNode = some callOfModule := by
    rw [outcome, result_moduleCallNode]
  obtain ⟨hsingle, -⟩ := statement_of_modifiersInRow (by decide)
    (.cons isBareModifier_hash .nil) (by decide) hsiblings {}
  exact ⟨hsiblings, hsingle .highlight hash callOfModule rfl rfl hcall⟩

/-- Two modifiers in a row lose the call behind them. -/
theorem callBehind_hashPercent_lost :
    (callBehind [hash, percent]).kind = .statement ∧
      (callBehind [hash, percent]).significant.map Part.node =
        [hash, percent] ++ [moduleCallNode] ∧
      List.Forall₂ IsBareModifier [.highlight, .transparent] [hash, percent] ∧
      moduleCallNode.kind.isStatement = true ∧
      (statement .complete moduleCallNode).result {} = .ok (some callOfModule) ∧
      ¬∃ outer, (statement .complete (callBehind [hash, percent])).result {} = .ok (some outer) ∧
        Statement.Modifies [.highlight, .transparent] callOfModule outer := by
  refine ⟨by decide, rfl, .cons isBareModifier_hash (.cons isBareModifier_percent .nil),
    by decide, result_moduleCallNode, ?_⟩
  rintro ⟨outer, houter, -⟩
  have hrun : (statement .complete (callBehind [hash, percent])).run {} = (.ok none, []) :=
    run_of_twoBareModifiers (by decide) isBareModifier_hash isBareModifier_percent rfl {}
  rw [result_eq, hrun] at houter
  cases houter

end Convert

end Scad
