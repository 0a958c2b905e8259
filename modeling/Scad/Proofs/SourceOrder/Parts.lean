import Scad.Proofs.CallSpelling
import Scad.Proofs.BindingLists
import Scad.Proofs.Nesting
import Scad.Proofs.Separation.Expression
import Scad.Proofs.SourceOrder.Parameters

/-!
# Parts in the Order of the Source

The views inside a view are listed in an order that its kind fixes, and the nodes they are made of
are looked for by label, by name or by place.  Nothing keeps a tree from holding those nodes in
another order.

* `View.Forward` — the views directly inside a view start in the order in which they are listed.
* `Node.TakesParts` — the nodes that a construct takes for its parts, in the order of the views.
* `Node.Displaces` — a node whose parts stand in another order than they are listed in.
* `Node.Orders` — a view that is in order, and so is everything inside it, as far as no node of the
  subtree displaces its parts.
* `Node.Furnishes` — views that are made of nodes, one node after another.
-/

namespace Scad

open Scad.Convert
open Text (Source)

/-! ## §1 Order of views and of nodes -/

namespace View

/-- The second view does not start before the first. -/
def StartsBy (v w : View) : Prop :=
  w.span.start.before v.span.start = false

instance : DecidableRel StartsBy :=
  fun v w => inferInstanceAs (Decidable (w.span.start.before v.span.start = false))

/-- The views directly inside start in the order in which they are listed. -/
def Forward (v : View) : Prop :=
  v.children.Pairwise StartsBy

theorem forward_of_children_eq {v w : View} (h : v.children = [w]) : v.Forward := by
  simp [Forward, h]

theorem forward_of_leaf {v : View} (h : v.children = []) : v.Forward := by
  simp [Forward, h]

end View

/-- The first argument starts where the second stops, or later. -/
def Argument.Follows (b a : Argument) : Prop :=
  b.span.start.before a.span.stop = false

instance (b a : Argument) : Decidable (b.Follows a) :=
  inferInstanceAs (Decidable (b.span.start.before a.span.stop = false))

/-- Whether the parts of a node of this kind are looked for one by one. -/
def Kind.takesParts (k : Kind) : Bool :=
  k.isCall || match k with
    | binaryExpression | conditionalExpression | indexExpression | rangeExpression | letExpression
    | listComprehension | assertStatement | assignStatement | moduleDefinition | functionDefinition
    | echoStatement | ifStatement | forStatement | letStatement => true
    | _ => false

namespace Node

/-- Each of the nodes stops before the next ones start. -/
def InOrder (ms : List Node) : Prop :=
  ms.Pairwise fun a b => a.stopByte ≤ b.startByte

/-- The nodes that some look-ups found, in the order of the look-ups. -/
def found {n : Node} (xs : List (Option n.Part)) : List Node :=
  (xs.flatMap Option.toList).map Part.node

/-! ## §2 The parts of a construct -/

/-- The `for` clause of a comprehension. -/
def forClause? (n : Node) : Option n.Part :=
  (n.field? "for_clause").or (n.ofKind? .forClause)

/-- The body of a module. -/
def moduleBody? (n : Node) : Option n.Part :=
  (n.field? "body").or (n.findLast? (·.kind.isStatement))

/-- The body of a function with a parameter list. -/
def functionBody? (n : Node) (list : n.Part) : Option n.Part :=
  (n.anyField? ["value", "body"]).or
    (n.findLast? fun c => list.node.stopByte ≤ c.startByte && c.kind.isExpression)

/-- The condition of an `if` statement. -/
def branchCondition? (n : Node) : Option n.Part :=
  (n.field? "condition").or (n.find? (·.kind.isExpression))

/-- Where the `else` of an `if` statement stops. -/
def elseStop? (n : Node) : Option Nat :=
  (n.token? (·.text == "else")).map fun p => p.node.stopByte

/-- What an `if` statement does where its condition holds. -/
def consequence? (n : Node) (condition : n.Part) : Option n.Part :=
  (n.field? "consequence").or
    (n.find? fun c => condition.node.stopByte ≤ c.startByte && c.kind.isStatement
      && n.elseStop?.all fun stop => c.stopByte ≤ stop)

/-- What an `if` statement does where its condition does not hold. -/
def alternative? (n : Node) : Option n.Part :=
  (n.field? "alternative").or (n.elseStop?.bind fun stop => statementAfter? n stop)

/-- The nodes of the bindings of a loop, or that of its variable where the loop labels it. -/
def loopNodes (n : Node) : List Node :=
  match n.field? "iterator" with
  | some iterator => [iterator.node]
  | none => n.bindingNodes

/-- The body of a loop whose last binding is given. -/
def loopBody? (n : Node) (last : Binding) : Option n.Part :=
  (n.field? "body").or (statementAfter? n last.span.stop.offset)

/-- The body of a `let` statement. -/
def letBody? (n : Node) : Option n.Part :=
  let before := (argumentList? n).or (n.findLast? (·.kind == .assignment))
  let after := (before.map fun p => p.node.stopByte).getD n.startByte
  (n.field? "body").or (statementAfter? n after)

/-- Whether the comprehension starts with neither clause. -/
def StartsWithBody (n : Node) : Prop :=
  ∀ c, n.significant.head? = some c → c.node.kind ≠ .letClause ∧ c.node.kind ≠ .forClause

/-- The nodes that a construct takes for its parts, in the order in which their views are listed.
Constructs that list their children as they find them are left out, and so are those that have but
one part. -/
inductive TakesParts : Node → List Node → Prop where
  | binary {n : Node} (hkind : n.kind = .binaryExpression) :
    TakesParts n (found [n.leftOperand?, n.rightOperand?])
  | conditional {n : Node} (hkind : n.kind = .conditionalExpression) :
    TakesParts n (found [conditionalPart? n "condition" 0, conditionalPart? n "consequence" 1,
      conditionalPart? n "alternative" 2])
  | index {n : Node} (hkind : n.kind = .indexExpression) :
    TakesParts n (found [(accessParts n ["array", "value"] ["index"]).1,
      (accessParts n ["array", "value"] ["index"]).2])
  | range {n : Node} {settings : Settings} {start step stop : Option n.Part}
    (hkind : n.kind = .rangeExpression)
    (hparts : (rangeParts n).result settings = .ok (start, step, stop)) :
    TakesParts n (found [start, step, stop])
  | letIn {n : Node} (hkind : n.kind = .letExpression) :
    TakesParts n (n.bindingNodes ++ found [n.letInBody?])
  /-- The body stands in front, and its view comes last. -/
  | bodyFirst {n : Node} (hkind : n.kind = .listComprehension) (hstyle : n.StartsWithBody) :
    TakesParts n (found [n.forClause?, n.field? "condition", elementPart? n])
  | assertion {n : Node} (hread : n.IsAssertion) :
    TakesParts n (found [(assertParts n).1, (assertParts n).2, trailing? n ["statement", "body"]])
  | assign {n : Node} {list : n.Part}
    (hread : n.kind = .assignStatement ∨
      n.kind = .moduleInstantiation ∧ n.calledAs? = some "assign")
    (hlist : argumentList? n = some list) :
    TakesParts n (list.node.entries ++ found [assignBody? n list])
  | moduleDefinition {n : Node} (hkind : n.kind = .moduleDefinition) :
    TakesParts n (found [parameterList? n, n.moduleBody?])
  | functionDefinition {n : Node} {list : n.Part} (hkind : n.kind = .functionDefinition)
    (hlist : parameterList? n = some list) :
    TakesParts n (found [some list, n.functionBody? list])
  | call {n : Node} (hkind : n.kind.isCall = true) :
    TakesParts n (found [argumentList? n, trailing? n ["body"]])
  | echo {n : Node} (hkind : n.kind = .echoStatement) :
    TakesParts n (found [argumentList? n, trailing? n ["statement", "body"]])
  | branch {n : Node} {condition : n.Part} (hkind : n.kind = .ifStatement)
    (hcondition : n.branchCondition? = some condition) :
    TakesParts n (found [some condition, n.consequence? condition, n.alternative?])
  | loop {n : Node} {settings : Settings} {bound : List Binding} {last : Binding}
    (hkind : n.kind = .forStatement) (hbound : (loopBindings n).result settings = .ok bound)
    (hlast : bound.getLast? = some last) :
    TakesParts n (n.loopNodes ++ found [n.loopBody? last])
  | letStatement {n : Node} (hkind : n.kind = .letStatement) :
    TakesParts n (n.bindingNodes ++ found [n.letBody?])

/-- The node is a call of the name with the arguments. -/
structure Calls (n : Node) (name : String) (args : List Argument) : Prop where
  isCall : n.kind.isCall = true
  exists_callee : ∃ p, callee? n = some p ∧ p.node.trimmed = name
  exists_settings : ∃ settings,
    (argumentsOf (expressions n) (argumentList? n)).result settings = .ok args

/-- The parts of the node stand in another order than their views are listed in. -/
inductive Displaces : Node → Prop where
  | parts {n : Node} {ms : List Node} (hms : n.TakesParts ms) (horder : ¬InOrder ms) : Displaces n
  /-- The arguments of a shape or of a transform stand in another order than its parameters. -/
  | arguments {n : Node} {name : String} {args : List Argument} (hcall : n.Calls name args)
    (horder : ¬((drawn name args).map Prod.fst).Pairwise fun a b => a = b ∨ b.Follows a) :
    Displaces n
  /-- A special variable of a shape is set in front of a parameter. -/
  | special {n : Node} {name : String} {args : List Argument} {shape : Primitive}
    {d : Argument × Value} {a : Argument} (hcall : n.Calls name args)
    (hshape : primitive? name args = some shape) (hd : d ∈ drawn name args)
    (ha : a ∈ args.filter isSpecial) (horder : ¬a.Follows d.1) : Displaces n

/-- Only a construct whose parts are looked for one by one can displace them. -/
theorem Displaces.takesParts {n : Node} (h : n.Displaces) : n.kind.takesParts = true := by
  cases h with
  | parts hms _ =>
    cases hms with
    | assertion hread | assign hread _ =>
      rcases hread with hkind | ⟨hkind, -⟩ <;> simp [hkind, Kind.takesParts, Kind.isCall]
    | call hkind => simp [Kind.takesParts, hkind]
    | _ => simp_all [Kind.takesParts]
  | arguments hcall _ => simp [Kind.takesParts, hcall.isCall]
  | special hcall _ _ _ _ => simp [Kind.takesParts, hcall.isCall]

/-! ## §3 Views in order -/

/-- The view stands inside the node.  The views directly inside it are in order, and so are those
inside every view inside it, as long as the view is not made of a node that displaces its parts. -/
structure Orders (n : Node) (v : View) : Prop where
  encloses : n.span.encloses v.span = true
  ordered : v.span.Ordered
  forward : ∀ w ∈ v.preorder, w.Forward ∨
    ∃ m : Node, m.Within n ∧ m.Displaces ∧ w.span = m.span

namespace Orders

variable {s : Source} {m n : Node} {v w : View}

/-- A larger tree orders what a smaller one does. -/
theorem within (h : m.Orders v) (hn : n.LaidOut s) (hm : m.Within n) : n.Orders v := by
  refine ⟨Span.encloses_trans (hn.encloses hm) h.encloses, h.ordered, fun w hw => ?_⟩
  rcases h.forward w hw with hforward | ⟨l, hl, hdisplaces, hspan⟩
  · exact .inl hforward
  · exact .inr ⟨l, hl.trans hm, hdisplaces, hspan⟩

/-- The view of a whole node is ordered where its children are. -/
theorem of_children (hn : n.LaidOut s) (hspan : v.span = n.span)
    (hchildren : ∀ c ∈ v.children, n.Orders c) (hforward : v.Forward ∨ n.Displaces) :
    n.Orders v := by
  refine ⟨hspan ▸ Span.encloses_refl _, hspan ▸ hn.ordered,
    View.forall_mem_preorder.mpr ⟨?_, fun c hc => (hchildren c hc).forward⟩⟩
  exact hforward.imp_right fun hdisplaces => ⟨n, .refl n, hdisplaces, hspan⟩

theorem of_leaf (hn : n.LaidOut s) (hspan : v.span = n.span) (h : v.children = []) :
    n.Orders v :=
  .of_children hn hspan (by simp [h]) (.inl (View.forward_of_leaf h))

theorem of_single (hn : n.LaidOut s) (hspan : v.span = n.span) (h : v.children = [w])
    (hw : n.Orders w) : n.Orders v :=
  .of_children hn hspan (by simpa [h] using hw) (.inl (View.forward_of_children_eq h))

/-- An expression may stand as a statement. -/
theorem toStatement {e : Expression} (h : n.Orders (.expression e)) :
    n.Orders (.ofStatement (.expression e)) := by
  obtain ⟨hself, hchildren⟩ := View.forall_mem_preorder.mp h.forward
  exact ⟨h.encloses, h.ordered, View.forall_mem_preorder.mpr ⟨hself, hchildren⟩⟩

/-- A view that starts before a node stops comes before the views inside the nodes behind. -/
theorem startsBy_of_stop (hn : n.LaidOut s) {l : Node} (hm : m.Within n) (hl : l.Within n)
    (hv : m.span.stop.before v.span.start = false) (hw : l.Orders w)
    (h : m.stopByte ≤ l.startByte) : v.StartsBy w := by
  have hstarts := (Span.encloses_iff.mp hw.encloses).1
  have hnodes : l.span.start.before m.span.stop = false := by
    rw [(hn m hm).stop_eq, (hn l hl).start_eq]
    exact s.position_mono h
  -- the start of `v`, the stop of the first node, the start of the other one, that of `w`
  exact Position.not_before_trans hv (Position.not_before_trans hnodes hstarts)

/-- Views inside nodes that follow one another start in the order of the nodes. -/
theorem startsBy (hn : n.LaidOut s) {l : Node} (hm : m.Within n) (hl : l.Within n)
    (hv : m.Orders v) (hw : l.Orders w) (h : m.stopByte ≤ l.startByte) : v.StartsBy w :=
  startsBy_of_stop hn hm hl
    (Position.not_before_trans hv.ordered (Span.encloses_iff.mp hv.encloses).2) hw h

end Orders

/-- The node orders all of the views, and they start in the order of the list. -/
structure Sequences (n : Node) (vs : List View) : Prop where
  orders : ∀ v ∈ vs, n.Orders v
  startsBy : vs.Pairwise View.StartsBy

namespace Sequences

variable {s : Source} {m n : Node} {v : View} {vs : List View}

theorem nil : n.Sequences [] :=
  ⟨List.forall_mem_nil _, .nil⟩

theorem singleton (h : n.Orders v) : n.Sequences [v] :=
  ⟨List.forall_mem_singleton.mpr h, List.pairwise_singleton _ _⟩

theorem within (h : m.Sequences vs) (hn : n.LaidOut s) (hm : m.Within n) : n.Sequences vs :=
  ⟨fun v hv => (h.orders v hv).within hn hm, h.startsBy⟩

end Sequences

/-- The view of a whole node is ordered where its children are. -/
theorem Orders.of_sequences {s : Source} {n : Node} {v : View} (hn : n.LaidOut s)
    (hspan : v.span = n.span) (h : n.Sequences v.children) : n.Orders v :=
  .of_children hn hspan h.orders (.inl h.startsBy)

/-! ## §4 Views of nodes in a row -/

/-- The views are made of nodes in the subtree: first those of the first node, then those of the
next one, and so on. -/
inductive Furnishes (n : Node) : List Node → List View → Prop where
  | nil : Furnishes n [] []
  | cons {m : Node} {ms : List Node} {vs ws : List View} (hm : m.Within n) (hvs : m.Sequences vs)
    (hws : Furnishes n ms ws) : Furnishes n (m :: ms) (vs ++ ws)

namespace Furnishes

variable {s : Source} {n : Node} {ms ls : List Node} {vs ws : List View}

theorem append (hv : n.Furnishes ms vs) (hw : n.Furnishes ls ws) :
    n.Furnishes (ms ++ ls) (vs ++ ws) := by
  induction hv with
  | nil => exact hw
  | cons hm hvs _ ih => rw [List.cons_append, List.append_assoc]; exact .cons hm hvs ih

theorem single {m : Node} (hm : m.Within n) (h : m.Sequences vs) : n.Furnishes [m] vs := by
  simpa using cons hm h .nil

/-- Nodes that each sequence some of the views. -/
theorem of_groups {groups : List (List View)} (hms : ∀ m ∈ ms, m.Within n)
    (h : List.Forall₂ Sequences ms groups) : n.Furnishes ms groups.flatten := by
  induction h with
  | nil => exact .nil
  | cons hgroup _ ih =>
    obtain ⟨hm, hms⟩ := List.forall_mem_cons.mp hms
    exact .cons hm hgroup (ih hms)

/-- One view for each node. -/
theorem of_forall₂ {α : Type} {view : α → View} {R : Node → α → Prop} {as : List α}
    (h : List.Forall₂ R ms as) (hR : ∀ m ∈ ms, ∀ a, R m a → m.Within n ∧ m.Orders (view a)) :
    n.Furnishes ms (as.map view) := by
  induction h with
  | nil => exact .nil
  | cons ha _ ih =>
    obtain ⟨hm, hms⟩ := List.forall_mem_cons.mp hR
    obtain ⟨hin, hordered⟩ := hm _ ha
    exact .cons hin (.singleton hordered) (ih hms)

theorem found_some {p : n.Part} {v : View} (hp : p.node.Within n) (h : p.node.Orders v) :
    n.Furnishes (found [some p]) [v] :=
  .single hp (.singleton h)

theorem found_cons {x : Option n.Part} {xs : List (Option n.Part)}
    (hx : n.Furnishes (found [x]) vs) (hxs : n.Furnishes (found xs) ws) :
    n.Furnishes (found (x :: xs)) (vs ++ ws) := by
  have hfound : found (x :: xs) = found [x] ++ found xs := by simp [found]
  rw [hfound]
  exact hx.append hxs

theorem exists_node (h : n.Furnishes ms vs) {v : View} (hv : v ∈ vs) :
    ∃ m ∈ ms, m.Within n ∧ m.Orders v := by
  induction h with
  | nil => cases hv
  | @cons m ms vs ws hm hvs _ ih =>
    rcases List.mem_append.mp hv with hv | hv
    · exact ⟨m, List.mem_cons_self, hm, hvs.orders v hv⟩
    · obtain ⟨l, hl, hordered⟩ := ih hv
      exact ⟨l, List.mem_cons_of_mem _ hl, hordered⟩

theorem orders (h : n.Furnishes ms vs) (hn : n.LaidOut s) : ∀ v ∈ vs, n.Orders v := by
  intro v hv
  obtain ⟨m, -, hm, hordered⟩ := h.exists_node hv
  exact hordered.within hn hm

/-- Views of nodes that follow one another follow one another. -/
theorem sequences (h : n.Furnishes ms vs) (hn : n.LaidOut s) (horder : InOrder ms) :
    n.Sequences vs := by
  refine ⟨h.orders hn, ?_⟩
  induction h with
  | nil => exact .nil
  | @cons m ms vs ws hm hvs hws ih =>
    obtain ⟨hfirst, horder⟩ := List.pairwise_cons.mp horder
    refine List.pairwise_append.mpr ⟨hvs.startsBy, ih horder, fun v hv w hw => ?_⟩
    obtain ⟨l, hl, hin, hordered⟩ := hws.exists_node hw
    exact (hvs.orders v hv).startsBy hn hm hin hordered (hfirst l hl)

end Furnishes

/-- One look-up finds at most one node. -/
theorem Furnishes.sequences_found {s : Source} {n : Node} {x : Option n.Part} {vs : List View}
    (h : n.Furnishes (found [x]) vs) (hn : n.LaidOut s) : n.Sequences vs :=
  h.sequences hn (by cases x <;> simp [found, InOrder])

/-- The view of a construct is ordered, unless the construct displaces the parts it takes. -/
theorem Orders.of_parts {s : Source} {n : Node} {v : View} {ms : List Node} (hn : n.LaidOut s)
    (hspan : v.span = n.span) (hms : n.TakesParts ms) (h : n.Furnishes ms v.children) :
    n.Orders v := by
  refine .of_children hn hspan (h.orders hn) ?_
  by_cases horder : InOrder ms
  · exact .inl (h.sequences hn horder).startsBy
  · exact .inr (.parts hms horder)

/-! ## §5 Nodes that follow one another -/

variable {s : Source} {n : Node}

theorem LaidOut.significant_inOrder (hn : n.LaidOut s) :
    InOrder (n.significant.map Part.node) := by
  rw [n.map_node_significant]
  exact hn.named_pairwise.filter _

/-- What is collected child by child is in order. -/
theorem LaidOut.flatMap_inOrder (hn : n.LaidOut s) {f : n.Part → List Node}
    (hf : ∀ c ∈ n.significant, (∀ m ∈ f c, m.Within c.node) ∧ InOrder (f c)) :
    InOrder (n.significant.flatMap f) := by
  refine List.pairwise_flatMap.mpr ⟨fun c hc => (hf c hc).2, ?_⟩
  refine (List.pairwise_map.mp hn.significant_inOrder).imp_of_mem fun {c d} hc hd h => ?_
  intro a ha b hb
  -- Both stand inside the children they are collected from.
  have hac := (hn.mono (within_of_mem_significant hc)).bytes_of_within ((hf c hc).1 a ha)
  have hbd := (hn.mono (within_of_mem_significant hd)).bytes_of_within ((hf d hd).1 b hb)
  omega

theorem LaidOut.bindingNodes_inOrder (n : Node) (hn : n.LaidOut s) : InOrder n.bindingNodes := by
  rw [bindingNodes]
  refine hn.flatMap_inOrder fun c hc => ?_
  have hc := within_of_mem_significant hc
  split
  iterate 4
    · exact ⟨List.forall_mem_singleton.mpr (.refl _), List.pairwise_singleton _ _⟩
  iterate 2
    · exact ⟨fun m => within_of_mem_bindingNodes c.node,
        LaidOut.bindingNodes_inOrder c.node (hn.mono hc)⟩
  · exact ⟨List.forall_mem_nil _, .nil⟩
termination_by sizeOf n
decreasing_by all_goals exact Part.inside _

end Node

end Scad
