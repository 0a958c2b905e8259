import Scad.Proofs.SourceOrder.Expression

/-!
# Shapes and Transforms in the Order of the Source

What a parameter draws stands inside the argument it is drawn from, so the values of a shape or of a
transform are in order where the arguments are written in the order of the parameters.

* `Node.OrdersArguments` — arguments that a node holds in order.
* `drawn_sequences` — drawn values in the order of their arguments.
* `orders_primitive`, `orders_transform` — shapes and transforms are ordered by the node of their
  call.
-/

namespace Scad

open Text (Source)

/-- The arguments are made of the syntax of the node, and start in order. -/
structure Node.OrdersArguments (n : Node) (args : List Argument) : Prop where
  sequences : n.Sequences (args.map .argument)
  yields : ∀ a ∈ args, n.Yields (.argument a)

namespace Convert

open Conversion Node

variable {s : Source} {n : Node} {name : String} {args : List Argument}

/-! ## §1 Drawn values -/

/-- Half of a value shows the quotient, whose dividend and whose divisor start at one place. -/
theorem exists_expression_of_drawn {a : Argument} {v : Value} {w : View}
    (hv : v = a.value ∨ v = halve a.value) (hw : w ∈ View.ofValue v) :
    ∃ e, a.value = .expression e ∧ w.span = e.span ∧
      ∀ m : Node, m.Orders (.expression e) → m.Orders w := by
  cases hvalue : a.value with
  | expression e =>
    rw [hvalue] at hv
    refine ⟨e, rfl, ?_⟩
    rcases hv with rfl | rfl
    · obtain rfl : w = .expression e := by simpa [View.ofValue, Value.expression?] using hw
      exact ⟨rfl, fun _ h => h⟩
    · obtain rfl : w = .expression (.binary .divide e (.literal (.number 2) e.span) e.span) := by
        simpa [View.ofValue, Value.expression?, halve] using hw
      refine ⟨rfl, fun m h => ⟨h.encloses, h.ordered, ?_⟩⟩
      refine View.forall_mem_preorder.mpr ⟨.inl ?_, ?_⟩
      · exact List.pairwise_pair.mpr (Position.before_irrefl _)
      · refine List.forall_mem_cons.mpr ⟨h.forward, List.forall_mem_singleton.mpr ?_⟩
        refine View.forall_mem_preorder.mpr ⟨.inl (View.forward_of_leaf rfl), ?_⟩
        exact List.forall_mem_nil _
  | _ => rcases hv with rfl | rfl <;> simp [hvalue, View.ofValue, Value.expression?, halve] at hw

/-- The value of an argument stands inside the argument. -/
theorem expression_of_argument (hn : n.LaidOut s) {a : Argument} {e : Expression}
    (ha : n.Orders (.argument a)) (hyields : n.Yields (.argument a))
    (hvalue : a.value = .expression e) :
    n.Orders (.expression e) ∧ a.span.encloses e.span = true := by
  have hchild : View.expression e ∈ (View.argument a).children := by
    simp [View.children, hvalue, View.ofValue, Value.expression?]
  have hnested := (hyields.nestedIn hn).children _ hchild
  refine ⟨⟨Span.encloses_trans ha.encloses hnested.encloses, hnested.ordered, ?_⟩,
    hnested.encloses⟩
  exact (View.forall_mem_preorder.mp ha.forward).2 _ hchild

/-- A drawn value stands inside the argument it is drawn from. -/
theorem orders_drawn (hn : n.LaidOut s) (hargs : n.OrdersArguments args) {d : Argument × Value}
    (hd : d ∈ drawn name args) {w : View} (hw : w ∈ View.ofValue d.2) :
    n.Orders w ∧ d.1.span.encloses w.span = true := by
  obtain ⟨ha, hv⟩ := mem_of_mem_drawn hd
  obtain ⟨e, hvalue, hspan, horders⟩ := exists_expression_of_drawn hv hw
  have hargument := hargs.sequences.orders _ (List.mem_map_of_mem ha)
  obtain ⟨he, hencloses⟩ := expression_of_argument hn hargument (hargs.yields _ ha) hvalue
  exact ⟨horders n he, hspan ▸ hencloses⟩

/-- What is drawn from an argument comes before what starts behind the argument. -/
theorem startsBy_of_follows (hn : n.LaidOut s) (hargs : n.OrdersArguments args)
    {d : Argument × Value} (hd : d ∈ drawn name args) {w w' : View} (hw : w ∈ View.ofValue d.2)
    (h : w'.span.start.before d.1.span.stop = false) : w.StartsBy w' := by
  obtain ⟨horders, hencloses⟩ := orders_drawn hn hargs hd hw
  exact Position.not_before_trans horders.ordered
    (Position.not_before_trans (Span.encloses_iff.mp hencloses).2 h)

/-- The values that parameters draw are in order where the arguments they are drawn from are. -/
theorem drawn_sequences (hn : n.LaidOut s) (hargs : n.OrdersArguments args)
    (horder : ((drawn name args).map Prod.fst).Pairwise fun a b => a = b ∨ b.Follows a) :
    n.Sequences ((drawn name args).flatMap fun d => View.ofValue d.2) := by
  refine ⟨fun w hw => ?_, List.pairwise_flatMap.mpr ⟨fun d _ => ?_, ?_⟩⟩
  · obtain ⟨d, hd, hw⟩ := List.mem_flatMap.mp hw
    exact (orders_drawn hn hargs hd hw).1
  · cases d.2 <;> simp [View.ofValue, Value.expression?]
  refine (List.pairwise_map.mp horder).imp_of_mem fun {d d'} hd hd' h w hw w' hw' => ?_
  rcases h with heq | hfollows
  · -- Both are drawn from one argument, as a whole or by half.
    obtain ⟨e, hvalue, hspan, -⟩ := exists_expression_of_drawn (mem_of_mem_drawn hd).2 hw
    obtain ⟨e', hvalue', hspan', -⟩ := exists_expression_of_drawn (mem_of_mem_drawn hd').2 hw'
    rw [heq, hvalue'] at hvalue
    obtain rfl := Value.expression.inj hvalue
    rw [View.StartsBy, hspan, hspan']
    exact Position.before_irrefl _
  · refine startsBy_of_follows hn hargs hd hw ?_
    have hstart := (Span.encloses_iff.mp (orders_drawn hn hargs hd' hw').2).1
    exact Position.not_before_trans hfollows hstart

/-! ## §2 Calls -/

/-- The arguments of a call stand in its argument list. -/
theorem ordersArguments_of_calls (hn : n.LaidOut s) (h : n.Calls name args) :
    argumentList? n = none ∧ args = [] ∨
      ∃ p, argumentList? n = some p ∧ p.node.Within n ∧ p.node.OrdersArguments args := by
  obtain ⟨settings, hargs⟩ := h.exists_settings
  cases hlist : argumentList? n with
  | none =>
    rw [hlist] at hargs
    exact .inl ⟨rfl, (Except.ok.inj hargs).symm⟩
  | some p =>
    rw [hlist] at hargs
    have hp := finds_argumentList? p hlist
    have hsequences := arguments_sequences p.node (hn.mono hp) (innerOrders (hn.mono hp))
    have hyields := arguments_meets p.node _ (expressions_traces p.node)
    exact .inr ⟨p, rfl, hp, hsequences settings args hargs, hyields.ok hargs⟩

theorem ordersArguments (hn : n.LaidOut s) (h : n.Calls name args) : n.OrdersArguments args := by
  rcases ordersArguments_of_calls hn h with ⟨-, rfl⟩ | ⟨p, -, hp, hargs⟩
  · exact ⟨.nil, List.forall_mem_nil _⟩
  · exact ⟨hargs.sequences.within hn hp, fun a ha => .within hp (hargs.yields a ha)⟩

theorem arguments_furnish (hn : n.LaidOut s) (h : n.Calls name args) :
    n.Furnishes (found [argumentList? n]) (args.map .argument) := by
  obtain ⟨settings, hargs⟩ := h.exists_settings
  exact argumentsOf_furnishes hn (innerOrders hn) finds_argumentList? settings args hargs

theorem drawn_nil (name : String) : drawn name [] = [] := by
  unfold drawn
  refine List.filterMap_eq_nil_iff.mpr fun p _ => List.findSome?_eq_none_iff.mpr fun k _ => ?_
  cases k <;> rfl

theorem drawn_furnish (hn : n.LaidOut s) (h : n.Calls name args)
    (horder : ((drawn name args).map Prod.fst).Pairwise fun a b => a = b ∨ b.Follows a) :
    n.Furnishes (found [argumentList? n])
      ((drawn name args).flatMap fun d => View.ofValue d.2) := by
  rcases ordersArguments_of_calls hn h with ⟨hlist, rfl⟩ | ⟨p, hlist, hp, hargs⟩
  · rw [hlist, drawn_nil]
    exact .nil
  · rw [hlist]
    exact .single hp (drawn_sequences (hn.mono hp) hargs horder)

theorem orders_primitive (hn : n.LaidOut s) (hcall : n.Calls name args) {shape : Primitive}
    (hshape : primitive? name args = some shape) :
    n.Orders (.ofStatement (.primitive shape (args.filter isSpecial) n.span)) := by
  have hargs := ordersArguments hn hcall
  have hchildren : (View.statement (.primitive shape (args.filter isSpecial) n.span)).children =
      ((drawn name args).flatMap fun d => View.ofValue d.2) ++
        (args.filter isSpecial).map .argument := by
    rw [← ofPrimitive_eq hshape]
    rfl
  refine .of_children hn rfl (fun w hw => ?_) ?_
  · rcases List.mem_append.mp (hchildren ▸ hw) with hw | hw
    · obtain ⟨d, hd, hw⟩ := List.mem_flatMap.mp hw
      exact (orders_drawn hn hargs hd hw).1
    · exact hargs.sequences.orders w ((List.filter_sublist.map _).subset hw)
  by_cases horder : ((drawn name args).map Prod.fst).Pairwise fun a b => a = b ∨ b.Follows a
  · by_cases hbehind : ∀ d ∈ drawn name args, ∀ a ∈ args.filter isSpecial, a.Follows d.1
    · refine .inl ?_
      show (View.statement _).children.Pairwise View.StartsBy
      rw [hchildren, List.pairwise_append]
      refine ⟨(drawn_sequences hn hargs horder).startsBy,
        hargs.sequences.startsBy.sublist (List.filter_sublist.map _), fun w hw w' hw' => ?_⟩
      obtain ⟨d, hd, hw⟩ := List.mem_flatMap.mp hw
      obtain ⟨a, ha, rfl⟩ := List.mem_map.mp hw'
      exact startsBy_of_follows hn hargs hd hw (hbehind d hd a ha)
    · push Not at hbehind
      obtain ⟨d, hd, a, ha, hbefore⟩ := hbehind
      exact .inr (.special hcall hshape hd ha hbefore)
  · exact .inr (.arguments hcall horder)

theorem orders_transform (hn : n.LaidOut s) (hcall : n.Calls name args) {transform : Transform}
    (htransform : transform? name args = some transform) {ss : List Statement}
    (hss : n.Furnishes (found [trailing? n ["body"]]) (ss.map .ofStatement)) :
    n.Orders (.ofStatement (.transform transform ss n.span)) := by
  have hchildren : (View.statement (.transform transform ss n.span)).children =
      ((drawn name args).flatMap fun d => View.ofValue d.2) ++ ss.map .ofStatement := by
    rw [← ofTransform_eq htransform]
    rfl
  by_cases horder : ((drawn name args).map Prod.fst).Pairwise fun a b => a = b ∨ b.Follows a
  · refine .of_parts hn rfl (.call hcall.isCall) ?_
    exact hchildren ▸ (drawn_furnish hn hcall horder).found_cons hss
  · refine .of_children hn rfl (fun w hw => ?_) (.inr (.arguments hcall horder))
    rcases List.mem_append.mp (hchildren ▸ hw) with hw | hw
    · obtain ⟨d, hd, hw⟩ := List.mem_flatMap.mp hw
      exact (orders_drawn hn (ordersArguments hn hcall) hd hw).1
    · exact hss.orders hn w hw

end Convert

end Scad
