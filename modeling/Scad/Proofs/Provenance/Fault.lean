import Mathlib.Data.List.Chain
import Scad.Proofs.Provenance.Expression

/-!
# Where Faults Come From

A fault and the causes inside it show nodes of the tree, from the outermost node inwards.  The
conversion of every construct keeps that (`expression_meets`); here it is read off the chain of a
fault, one node for each fault.
-/

namespace Scad

/-! ## §1 The nodes of a chain -/

/-- The fault is about the node: it has the node's tag, its text and its span. -/
structure Fault.Shows (f : Fault) (m : Node) : Prop where
  tag_eq : f.tag = m.tag
  text_eq : f.text = m.text
  span_eq : f.span = m.span

theorem Fault.chain_eq (f : Fault) : f.chain = f :: (f.cause.map chain).getD [] := by
  obtain ⟨_, _, _, _, _, _ | _⟩ := f <;> simp [chain]

/-- Each fault of the chain shows a node in the subtree of the node before. -/
theorem Fault.PointsInto.exists_nodes {n : Node} {f : Fault} (h : f.PointsInto n) :
    ∃ ms : List Node, List.Forall₂ Fault.Shows f.chain ms ∧
      (n :: ms).IsChain fun outer inner => inner.Within outer := by
  induction h with
  | @shows m n f hm htag htext hspan _ ih =>
    rw [chain_eq]
    cases hcause : f.cause with
    | none =>
      refine ⟨[m], .cons ⟨htag, htext, hspan⟩ .nil, ?_⟩
      exact .cons_cons hm (.singleton m)
    | some inner =>
      obtain ⟨ms, hms, hchain⟩ := ih inner hcause
      refine ⟨m :: ms, .cons ⟨htag, htext, hspan⟩ hms, ?_⟩
      exact .cons_cons hm hchain

/-! ## §2 Expressions -/

namespace Convert

/-- The faults of an expression point into the source, from the outermost inwards: there is a node
for each fault of the chain, the first in the subtree of the node that failed and each in the
subtree of the one before, and each fault has the tag, the text and the span of its node. -/
theorem exists_nodes_of_expression_error (n : Node) (settings : Settings) {f : Fault}
    (h : (expression n).result settings = .error f) :
    ∃ ms : List Node, List.Forall₂ Fault.Shows f.chain ms ∧
      (n :: ms).IsChain fun outer inner => inner.Within outer :=
  ((expression_meets n).error h).exists_nodes

/-! A range whose start is a wrapper around unreadable text. -/

/-- The text `@`, which error recovery marked as unreadable. -/
def unreadableStart : Node where
  tag := "ERROR"
  text := "@"
  span := ⟨⟨0, 1, 1⟩, ⟨0, 2, 2⟩⟩

/-- A general node around it. -/
def unreadableWrapper : Node :=
  { unreadableStart with
    tag := "expression", children := [unreadableStart], named := [unreadableStart],
    label := some "start" }

/-- The stop of the range. -/
def rangeStop : Node where
  tag := "number"
  text := "1"
  span := ⟨⟨0, 3, 3⟩, ⟨0, 4, 4⟩⟩
  label := some "end"

/-- The range `[@:1]`. -/
def unreadableRange : Node where
  tag := "range_expression"
  text := "[@:1]"
  span := ⟨⟨0, 0, 0⟩, ⟨0, 5, 5⟩⟩
  children := [unreadableWrapper, rangeStop]
  named := [unreadableWrapper, rangeStop]

/-- The fault of the unreadable text. -/
def unreadableCause : Fault :=
  Problem.syntaxError.fault unreadableStart {}

/-- The fault of the range, with that of the unreadable text inside. -/
def unreadableFault : Fault :=
  ((Problem.invalid .rangeStart unreadableCause.message).fault unreadableWrapper {}).causedBy
    unreadableCause

theorem expression_unreadableRange :
    (expression unreadableRange).result {} = .error unreadableFault := by
  have hstart : (expression unreadableStart).result {} = .error unreadableCause := by
    have hkind : unreadableStart.kind = .error := by decide
    rw [expression_eq, expressionStep]
    simp [rungChild?, constructLabels?, hkind, unreadableCause]
  -- The wrapper passes the fault on as it is.
  have hwrapper : (expression unreadableWrapper).result {} = .error unreadableCause := by
    have hkind : unreadableWrapper.kind = .expression := by decide
    have hinner : ∃ p, wrappedChild? unreadableWrapper = some p ∧ p.node = unreadableStart :=
      ⟨_, rfl, rfl⟩
    obtain ⟨p, hp, hnode⟩ := hinner
    rw [expression_eq, expressionStep]
    simp [rungChild?, constructLabels?, hkind, hp, expressions, hnode, hstart]
  -- The range adds a fault of its own.
  have hkind : unreadableRange.kind = .rangeExpression := by decide
  have hparts : ∃ start stop, start.node = unreadableWrapper ∧
      rangeParts unreadableRange = pure (some start, none, some stop) :=
    ⟨_, _, rfl, rfl⟩
  obtain ⟨start, stop, hnode, hparts⟩ := hparts
  rw [expression_eq, expressionStep]
  simp [rungChild?, constructLabels?, hkind, range, hparts, resolve, Role.addsFault,
    Conversion.result_blame, expressions, hnode, hwrapper, unreadableFault]

theorem exists_nodes_of_unreadableRange :
    (expression unreadableRange).result {} = .error unreadableFault ∧
      ∃ ms : List Node, List.Forall₂ Fault.Shows unreadableFault.chain ms ∧
        (unreadableRange :: ms).IsChain fun outer inner => inner.Within outer :=
  ⟨expression_unreadableRange,
    exists_nodes_of_expression_error unreadableRange {} expression_unreadableRange⟩

end Convert

end Scad
