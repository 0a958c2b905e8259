import Scad.Convert.Program

/-!
# Statement Wrappers

A grammar wraps statements in nodes of the kind `statement`.  Where such a node holds a single child
that is a statement by itself, the two convert alike.  Where the child is an expression, the wrapper
does not stand for it, but for a call in it: for the first module call in pre-order, or else for the
first accessor call.

* `Node.Encases` — a statement wrapper around a single node.
* `Node.firstCall?` — the call that a wrapper around an expression stands for.
* `statement_of_encases` — what a wrapper around a single node is converted into.
-/

namespace Scad

/-! ## §1 Searches in pre-order -/

namespace Node

/-- The node and everything that is reached through its children, a parent before its children. -/
def preorder (n : Node) : List Node :=
  n :: n.parts.flatMap fun c => preorder c.node
termination_by sizeOf n
decreasing_by exact c.inside

theorem preorder_eq (n : Node) : n.preorder = n :: n.children.flatMap preorder := by
  rw [preorder, n.flatMap_parts preorder]

/-- The search for a descendant finds the first of the kind in pre-order. -/
theorem map_descendant? (n : Node) (kind : Kind) :
    (n.descendant? kind).map Part.node =
      (n.children.flatMap preorder).find? (·.kind == kind) := by
  rw [descendant?, List.find?_flatMap, ← n.map_node_parts, List.findSome?_map, List.map_findSome?]
  congr 1
  funext c
  simp only [Function.comp_apply, c.node.preorder_eq, List.find?_cons]
  cases hkind : c.node.kind == kind with
  | true => rfl
  | false =>
    rw [← map_descendant? c.node kind, if_neg Bool.false_ne_true, Option.map_map]
    rfl
termination_by sizeOf n
decreasing_by exact c.inside

/-- The first module call among the node and everything inside it, in pre-order; where there is
none, the first accessor call. -/
def firstCall? (n : Node) : Option Node :=
  (n.preorder.find? (·.kind == .moduleInstantiation)).or
    (n.preorder.find? (·.kind == .accessorExpression))

/-! ## §2 A wrapper around a single node -/

/-- `w` is a statement wrapper that holds `n` and nothing else. -/
structure Encases (w n : Node) : Prop where
  kind : w.kind = .statement
  children : w.children = [n]
  named : w.named = [n]

namespace Encases

variable {w n : Node}

theorem exists_part (h : w.Encases n) : ∃ p : w.Part, p.node = n ∧ w.parts = [p] := by
  have hparts : w.parts.map Part.node = [n] := by
    rw [w.map_node_parts, h.children]
  obtain ⟨p, hp, hnode⟩ := List.map_eq_singleton_iff.mp hparts
  exact ⟨p, hnode, hp⟩

/-- The node inside counts, unless it is a comment. -/
theorem exists_significant (h : w.Encases n) (hcomment : n.kind ≠ .comment) :
    ∃ p : w.Part, p.node = n ∧ w.significant = [p] := by
  have hsignificant : w.significant.map Part.node = [n] := by
    rw [w.map_node_significant, h.named]
    simp [hcomment]
  obtain ⟨p, hp, hnode⟩ := List.map_eq_singleton_iff.mp hsignificant
  exact ⟨p, hnode, hp⟩

theorem significant_eq_nil (h : w.Encases n) (hcomment : n.kind = .comment) :
    w.significant = [] := by
  have hsignificant : w.significant.map Part.node = [] := by
    rw [w.map_node_significant, h.named]
    simp [hcomment]
  exact List.map_eq_nil_iff.mp hsignificant

/-- Everything inside the wrapper is the node or stands inside it. -/
theorem map_descendant?_or (h : w.Encases n) :
    ((w.descendant? .moduleInstantiation).or (w.descendant? .accessorExpression)).map Part.node =
      n.firstCall? := by
  rw [Option.map_or, map_descendant?, map_descendant?, h.children, List.flatMap_singleton]
  rfl

end Encases

end Node

namespace Convert

variable {w n : Node}

/-- The search for a call, where no other rule has found a statement. -/
theorem plainWrapper_of_encases (d : Dialect) (h : w.Encases n)
    (hkind : n.kind ≠ .expressionStatement) :
    plainWrapper w (inner d w) = n.firstCall?.elim (pure none) (statement d) := by
  obtain ⟨p, hnode, hparts⟩ := h.exists_part
  have hcalls := h.map_descendant?_or
  unfold plainWrapper
  simp only [hparts, hnode, List.find?_cons, List.find?_nil, beq_eq_false_iff_ne.mpr hkind]
  rw [← hcalls]
  cases (w.descendant? .moduleInstantiation).or (w.descendant? .accessorExpression) <;> rfl

theorem plainWrapper_of_encases_expressionStatement (d : Dialect) (h : w.Encases n)
    (hkind : n.kind = .expressionStatement) : plainWrapper w (inner d w) = statement d n := by
  obtain ⟨p, hnode, hparts⟩ := h.exists_part
  unfold plainWrapper
  simp [hparts, hnode, hkind, inner]

/-- The first call in a module call is the call itself. -/
theorem firstCall?_of_moduleInstantiation (hkind : n.kind = .moduleInstantiation) :
    n.firstCall? = some n := by
  rw [Node.firstCall?, n.preorder_eq]
  simp [hkind]

/-- No modifier is taken for one that applies to the statement behind it, if it holds its own. -/
theorem siblingModifier?_of_encases (h : w.Encases n)
    (hmodifier : n.kind = .modifier → ∃ c ∈ n.significant, c.node.kind.isStatement = true) :
    siblingModifier? w = none := by
  unfold siblingModifier?
  by_cases hcomment : n.kind = .comment
  · rw [h.significant_eq_nil hcomment]
  · obtain ⟨p, hnode, hsignificant⟩ := h.exists_significant hcomment
    subst hnode
    rw [hsignificant]
    simpa using hmodifier

/-- A statement with a rule of its own is found by its kind. -/
theorem find?_isDedicated_of_encases (h : w.Encases n) :
    (w.find? (isDedicated ·.kind)).map Node.Part.node =
      if isDedicated n.kind then some n else none := by
  unfold Node.find?
  by_cases hcomment : n.kind = .comment
  · rw [h.significant_eq_nil hcomment, hcomment]
    rfl
  · obtain ⟨p, hnode, hsignificant⟩ := h.exists_significant hcomment
    subst hnode
    rw [hsignificant, List.find?_cons]
    split <;> simp_all

/-- A wrapper around a single node converts as the node does, if that is a statement.  Around
anything else it converts as the first module call does among the node and everything inside it, in
pre-order; or where there is none, as the first accessor call; and it gives nothing where there is
no call at all.  A modifier is left out here that has no statement of its own. -/
theorem statement_of_encases (h : w.Encases n)
    (hmodifier : n.kind = .modifier → ∃ c ∈ n.significant, c.node.kind.isStatement = true) :
    statement .complete w =
      if n.kind.isStatement then statement .complete n
      else n.firstCall?.elim (pure none) (statement .complete) := by
  have hwrapper : statement .complete w = statementWrapper w (inner .complete w) := by
    simp only [statement_eq, statementStep, commonStep, h.kind]
  have hdedicated := find?_isDedicated_of_encases h
  rw [hwrapper, statementWrapper, siblingModifier?_of_encases h hmodifier]
  by_cases hrule : isDedicated n.kind = true
  · -- The kind has a rule of its own.
    rw [if_pos hrule] at hdedicated
    obtain ⟨p, hp, hnode⟩ := Option.map_eq_some_iff.mp hdedicated
    have hstatement : n.kind.isStatement = true := by
      simp only [isDedicated, Bool.and_eq_true] at hrule
      exact hrule.1.1
    simp [hp, hstatement, inner, hnode]
  · rw [if_neg hrule, Option.map_eq_none_iff] at hdedicated
    simp only [hdedicated]
    by_cases hexpression : n.kind = .expressionStatement
    · rw [plainWrapper_of_encases_expressionStatement _ h hexpression]
      simp [hexpression, Kind.isStatement]
    · rw [plainWrapper_of_encases _ h hexpression]
      by_cases hcall : n.kind = .moduleInstantiation
      · rw [firstCall?_of_moduleInstantiation hcall]
        simp [hcall, Kind.isStatement]
      · have hstatement : n.kind.isStatement = false := by
          simpa [isDedicated, hexpression, hcall] using hrule
        simp [hstatement]

/-- A statement wrapper around the node. -/
def encasing (n : Node) : Node where
  tag := "statement"
  text := n.text
  span := n.span
  children := [n]
  named := [n]

theorem encases_encasing (n : Node) : (encasing n).Encases n := by
  constructor
  · show Kind.ofTag "statement" = .statement
    decide
  · rfl
  · rfl

/-- The call `f()`, as the node of a tag.  The name stands `offset` bytes from the start. -/
def callOf (tag : String) (offset : Nat) : Node where
  tag := tag
  text := "f()"
  span := ⟨⟨0, offset, offset⟩, ⟨0, offset + 3, offset + 3⟩⟩
  children := [calledName, noArguments]
  named := [calledName, noArguments]
where
  calledName : Node :=
    { tag := "identifier", text := "f", span := ⟨⟨0, offset, offset⟩, ⟨0, offset + 1, offset + 1⟩⟩
      label := some "function" }
  noArguments : Node :=
    { tag := "arguments", text := "()"
      span := ⟨⟨0, offset + 1, offset + 1⟩, ⟨0, offset + 3, offset + 3⟩⟩
      label := some "arguments" }

/-- The call `f()` with a modifier in front of it, which holds the call. -/
def markedCall : Node where
  tag := "modifier"
  text := "#f()"
  span := ⟨⟨0, 0, 0⟩, ⟨0, 4, 4⟩⟩
  children := [mark, callOf "module_instantiation" 1]
  named := [callOf "module_instantiation" 1]
where
  mark : Node := { tag := "#", text := "#", span := ⟨⟨0, 0, 0⟩, ⟨0, 1, 1⟩⟩, isNamed := false }

/-- The wrapper around a modifier with a call of its own converts as the modifier does. -/
theorem statement_of_encases_markedCall :
    (∃ c ∈ markedCall.significant, c.node.kind.isStatement = true) ∧
      ((statement .complete markedCall).result {}).toOption.map (Option.map Statement.typeName) =
        some (some "modified") ∧
      statement .complete (encasing markedCall) = statement .complete markedCall := by
  have hcall : ∃ c ∈ markedCall.significant, c.node.kind.isStatement = true := by
    apply List.any_eq_true.mp
    decide +kernel
  have hkind : markedCall.kind.isStatement = true := by decide
  have hwrapper := statement_of_encases (encases_encasing markedCall) fun _ => hcall
  rw [if_pos hkind] at hwrapper
  exact ⟨hcall, by decide +kernel, hwrapper⟩

/-- A call that stands in a wrapper as an expression is lost, although it is converted by itself. -/
theorem exists_encases_statement_ne :
    ∃ n w : Node, n.kind ≠ .comment ∧ n.isNamed = true ∧ n.label = none ∧ w.Encases n ∧
      (statement .complete n).result {} ≠ .ok none ∧
      statement .complete w ≠ statement .complete n := by
  have hcall : ((statement .complete (callOf "call_expression" 0)).result {}).toOption.map
      (Option.map Statement.typeName) = some (some "module_instantiation") := by decide +kernel
  have hwrapper : ((statement .complete (encasing (callOf "call_expression" 0))).result
      {}).toOption.map (Option.map Statement.typeName) = some none := by decide +kernel
  refine ⟨callOf "call_expression" 0, encasing (callOf "call_expression" 0), by decide, rfl, rfl,
    encases_encasing _, ?_, ?_⟩
  · intro h
    simp [h, Except.toOption] at hcall
  · intro h
    rw [h, hcall] at hwrapper
    simp at hwrapper

end Convert

end Scad
