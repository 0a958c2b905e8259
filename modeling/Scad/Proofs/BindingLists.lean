import Scad.Proofs.Bodies.Header
import Scad.Proofs.PlainValue
import Scad.Proofs.Success

/-!
# Lists of Bindings

A list `(a = 1, b = 2)` is read in three places: as the arguments of a call, as the bindings of a
`let`, and as the assignments of `assign`.  The three go through the list separately.

* `Node.entries` — the entries that stand directly in a list.
* `Node.bindingNodes` — the nodes of all bindings in a list, those of lists inside it included.
* `arguments_of_bindings` — the names of the arguments of a call, compared with the bindings.
* `assignStatement_bindings` — the assignments of `assign`, compared with the bindings.

The readings are the same as long as every entry says by its kind and by the label of its name what
it is.  Only the bindings look for a name without a label, and only they and the arguments open a
list inside the list.
-/

namespace Scad

open Conversion

/-! ## §1 Entries -/

namespace Kind

/-- Whether a node of this kind is an entry of a list: an argument, with a name or without. -/
def isEntry : Kind → Bool
  | argument | namedArgument | assignment => true
  | _ => false

/-- Whether a node of this kind means the same to `assign` as to `let`: it is no value by itself, no
loop binding, and no list or clause inside the list. -/
def readsAlike (k : Kind) : Bool :=
  !(k.isExpression || k == .forBinding || k == .arguments || k == .letClause)

end Kind

namespace Node

/-- Whether the node is an argument without a name. -/
def isPositional (n : Node) : Bool :=
  n.kind == .argument && (n.field? "name").isNone

/-- The entries directly in a list. -/
def entries (n : Node) : List Node :=
  n.significant.flatMap fun c => if c.node.kind.isEntry then [c.node] else []

/-- The nodes of the bindings in a list, those of the lists and the clauses inside it included. -/
def bindingNodes (n : Node) : List Node :=
  n.significant.flatMap fun c =>
    match c.node.kind with
    | .argument | .namedArgument | .assignment | .forBinding => [c.node]
    | .arguments | .letClause => bindingNodes c.node
    | _ => []
termination_by sizeOf n
decreasing_by exact c.inside

theorem within_of_mem_bindingNodes (n : Node) {m : Node} (h : m ∈ n.bindingNodes) :
    m.Within n := by
  rw [bindingNodes] at h
  obtain ⟨c, hc, h⟩ := List.mem_flatMap.mp h
  have hc := within_of_mem_significant hc
  split at h
  iterate 4
    · rw [List.mem_singleton.mp h]
      exact hc
  iterate 2
    · exact (within_of_mem_bindingNodes c.node h).trans hc
  · cases h
termination_by sizeOf n
decreasing_by all_goals exact Part.inside _

/-- A list whose children read alike has no bindings but its entries. -/
theorem bindingNodes_of_readsAlike {n : Node}
    (h : ∀ c ∈ n.significant, c.node.kind.readsAlike = true) : n.bindingNodes = n.entries := by
  rw [bindingNodes, entries]
  refine List.flatMap_congr fun c hc => ?_
  have hc := h c hc
  cases hkind : c.node.kind <;> simp_all [Kind.readsAlike, Kind.isExpression, Kind.isEntry]

/-- A list of entries only. -/
theorem bindingNodes_of_entries {n : Node} (h : ∀ c ∈ n.significant, c.node.kind.isEntry = true) :
    n.bindingNodes = n.significant.map Part.node := by
  rw [bindingNodes, ← List.flatMap_pure_eq_map]
  refine List.flatMap_congr fun c hc => ?_
  have hc := h c hc
  cases hkind : c.node.kind <;> simp_all [Kind.isEntry]

end Node

namespace Convert

open Node

variable {n : Node} {settings : Settings}

/-- What a binding is called, and where it stands. -/
theorem binding_ok {convert : Converter n Expression} {b : Binding}
    (h : (binding n convert).result settings = .ok b) :
    b.span = n.span ∧
      ∀ p, n.field? "name" = some p → p.node.hasText = true ∧ b.name = p.node.trimmed := by
  unfold binding at h
  obtain ⟨name, hname, h⟩ := exists_of_bind_ok h
  obtain ⟨value, -, h⟩ := exists_of_bind_ok h
  obtain ⟨r, -, h⟩ := exists_of_bind_ok h
  obtain ⟨bound, -, h⟩ := exists_of_bind_ok h
  obtain rfl := Except.ok.inj h
  refine ⟨rfl, fun p hp => ?_⟩
  -- A labelled child is taken for the name, whatever else could be one.
  obtain ⟨hfound, htext⟩ := Option.filter_eq_some_iff.mp (eq_some_of_require_ok hname)
  rw [hp, Option.some_or] at hfound
  obtain rfl := Option.some.inj hfound
  exact ⟨(Bool.and_eq_true _ _ ▸ htext).1, rfl⟩

/-- What an argument is called, and where it stands. -/
theorem argument_ok {convert : Converter n Expression} {a : Argument}
    (h : (argument n convert).result settings = .ok a) :
    a.span = n.span ∧
      a.name = ((n.field? "name").filter (·.node.hasText)).map (·.node.trimmed) := by
  unfold argument at h
  obtain ⟨value, -, h⟩ := exists_of_bind_ok h
  obtain ⟨settled, -, h⟩ := exists_of_bind_ok h
  obtain rfl := Except.ok.inj h
  exact ⟨rfl, rfl⟩

/-- An argument is called as the binding is, where the name has its label. -/
theorem name_of_argument_of_binding {convert : Converter n Expression} {a : Argument} {b : Binding}
    (hb : (binding n convert).result settings = .ok b)
    (ha : (argument n convert).result settings = .ok a) :
    a.name = if (n.field? "name").isSome then some b.name else none := by
  obtain ⟨-, hname⟩ := argument_ok ha
  obtain ⟨-, hlabelled⟩ := binding_ok hb
  cases hfield : n.field? "name" with
  | none => simp [hname, hfield]
  | some p =>
    obtain ⟨htext, heq⟩ := hlabelled p hfield
    simp [hname, hfield, htext, heq]

/-! ## §2 Collecting a list -/

theorem forall₂_append_left_iff {α β : Type} {R : α → β → Prop} {l₁ l₂ : List α} {bs : List β} :
    List.Forall₂ R (l₁ ++ l₂) bs ↔
      ∃ bs₁ bs₂, List.Forall₂ R l₁ bs₁ ∧ List.Forall₂ R l₂ bs₂ ∧ bs₁ ++ bs₂ = bs := by
  constructor
  · intro h
    exact ⟨_, _, List.forall₂_take_append bs l₁ l₂ h.flip |>.flip,
      List.forall₂_drop_append bs l₁ l₂ h.flip |>.flip, List.take_append_drop _ _⟩
  · rintro ⟨bs₁, bs₂, h₁, h₂, rfl⟩
    exact List.rel_append h₁ h₂

theorem forall₂_singleton_left_iff {α β : Type} {R : α → β → Prop} {a : α} {bs : List β} :
    List.Forall₂ R [a] bs ↔ ∃ b, R a b ∧ bs = [b] := by
  simp [List.forall₂_cons_left_iff]

/-- A list is collected from what each of its children adds. -/
theorem collect_ok_iff {α β γ : Type} {f : α → Conversion (List β)} {g : α → List γ}
    {R : γ → β → Prop} {l : List α} {bs : List β}
    (h : ∀ a ∈ l, ∀ bs, (f a).result settings = .ok bs ↔ List.Forall₂ R (g a) bs) :
    (do return (← l.mapM f).flatten : Conversion (List β)).result settings = .ok bs ↔
      List.Forall₂ R (l.flatMap g) bs := by
  induction l generalizing bs with
  | nil => simp [eq_comm]
  | cons a l ih =>
    obtain ⟨ha, hl⟩ := List.forall_mem_cons.mp h
    rw [List.flatMap_cons, forall₂_append_left_iff]
    constructor
    · intro hok
      obtain ⟨groups, hgroups, hok⟩ := exists_of_bind_ok hok
      obtain _ | @⟨_, group, _, rest, hgroup, hrest⟩ := mapM_ok_iff.mp hgroups
      have hrest : (do return (← l.mapM f).flatten : Conversion (List β)).result settings =
          .ok rest.flatten := by
        rw [result_bind, mapM_ok_iff.mpr hrest]
        rfl
      exact ⟨group, rest.flatten, (ha group).mp hgroup, (ih hl).mp hrest, Except.ok.inj hok⟩
    · rintro ⟨group, bs, hgroup, hbs, rfl⟩
      obtain ⟨rest, hrest, hok⟩ := exists_of_bind_ok ((ih hl).mpr hbs)
      obtain rfl : rest.flatten = bs := Except.ok.inj hok
      have hgroups : ((a :: l).mapM f).result settings = .ok (group :: rest) :=
        mapM_ok_iff.mpr (.cons ((ha group).mpr hgroup) (mapM_ok_iff.mp hrest))
      rw [result_bind, hgroups]
      rfl

theorem singleton_ok_iff {α : Type} {x : Conversion α} {as : List α} :
    (do return [← x] : Conversion (List α)).result settings = .ok as ↔
      ∃ a, x.result settings = .ok a ∧ as = [a] := by
  constructor
  · intro h
    obtain ⟨a, ha, h⟩ := exists_of_bind_ok h
    exact ⟨a, ha, (Except.ok.inj h).symm⟩
  · rintro ⟨a, ha, rfl⟩
    rw [result_bind, ha]
    rfl

/-! ## §3 Bindings and arguments -/

/-- The node stands for the binding, and is no argument without a name. -/
def BindsAs (settings : Settings) (m : Node) (b : Binding) : Prop :=
  m.isPositional = false ∧ (binding m (expressions m)).result settings = .ok b

/-- The node stands for the argument. -/
def ArguesAs (settings : Settings) (m : Node) (a : Argument) : Prop :=
  (argument m (expressions m)).result settings = .ok a

theorem pure_nil_ok_iff {bs : List Binding} :
    (pure [] : Conversion (List Binding)).result settings = .ok bs ↔
      List.Forall₂ (BindsAs settings) [] bs := by
  simp [eq_comm]

/-- A binding that is not positional. -/
theorem binding_ok_iff {bs : List Binding} (h : n.isPositional = false) :
    (do return [← binding n (expressions n)] : Conversion (List Binding)).result settings = .ok bs ↔
      List.Forall₂ (BindsAs settings) [n] bs := by
  rw [singleton_ok_iff, forall₂_singleton_left_iff]
  simp [BindsAs, h]

/-- A binding that is refused where it is positional. -/
theorem guarded_binding_ok_iff {problem : Problem} {bs : List Binding} :
    (do
      if n.isPositional then fail problem n
      return [← binding n (expressions n)] : Conversion (List Binding)).result settings = .ok bs ↔
      List.Forall₂ (BindsAs settings) [n] bs := by
  cases h : n.isPositional with
  | true => simp [forall₂_singleton_left_iff, BindsAs, h]
  | false => exact binding_ok_iff h

theorem isPositional_of_argument (h : n.kind = .argument) :
    n.isPositional = (n.field? "name").isNone := by
  rw [isPositional, h]
  rfl

theorem isPositional_of_ne_argument (h : n.kind ≠ .argument) : n.isPositional = false := by
  simp [isPositional, h]

/-- The bindings of a list are what the nodes of its bindings stand for. -/
theorem bindings_ok_iff (n : Node) {bs : List Binding} :
    (bindings n (expressions n)).result settings = .ok bs ↔
      List.Forall₂ (BindsAs settings) n.bindingNodes bs := by
  rw [bindings, bindingNodes]
  refine collect_ok_iff fun c _ bs => ?_
  cases hkind : c.node.kind
  case assignment | namedArgument | forBinding =>
    exact binding_ok_iff (isPositional_of_ne_argument (by simp [hkind]))
  case argument =>
    dsimp only
    rw [← isPositional_of_argument hkind]
    exact guarded_binding_ok_iff
  case arguments | letClause => exact bindings_ok_iff c.node
  all_goals exact pure_nil_ok_iff
termination_by sizeOf n
decreasing_by all_goals exact c.inside

/-- The arguments of a list of entries are what the entries stand for. -/
theorem arguments_ok_iff (hentries : ∀ c ∈ n.significant, c.node.kind.isEntry = true)
    {as : List Argument} :
    (arguments n (expressions n)).result settings = .ok as ↔
      List.Forall₂ (ArguesAs settings) (n.significant.map Part.node) as := by
  rw [arguments, ← List.flatMap_pure_eq_map]
  refine collect_ok_iff fun c hc as => ?_
  rw [Function.comp_apply, List.pure_def, forall₂_singleton_left_iff]
  have hc := hentries c hc
  cases hkind : c.node.kind <;> rw [hkind] at hc
  case argument | namedArgument | assignment => exact singleton_ok_iff
  all_goals cases hc

/-- Where a list of entries can be read both as bindings and as arguments, there is one argument for
each binding, in the same order and at the same place.  It is called as the binding is, where the
name of the entry has its label, and is positional where it has not.  So the arguments are called as
the bindings are if and only if every entry has a labelled name. -/
theorem arguments_of_bindings {bs : List Binding} {as : List Argument}
    (hentries : ∀ c ∈ n.significant, c.node.kind.isEntry = true)
    (hbs : (bindings n (expressions n)).result settings = .ok bs)
    (has : (arguments n (expressions n)).result settings = .ok as) :
    bs.map (·.span) = n.significant.map (·.node.span) ∧
      as.map (·.span) = bs.map (·.span) ∧
      as.map (·.name) =
        List.zipWith (fun c b => if (c.node.field? "name").isSome then some b.name else none)
          n.significant bs ∧
      (as.map (·.name) = bs.map (fun b => some b.name) ↔
        ∀ c ∈ n.significant, (c.node.field? "name").isSome = true) := by
  have hbindings := (bindings_ok_iff n).mp hbs
  have harguments := (arguments_ok_iff hentries).mp has
  rw [bindingNodes_of_entries hentries] at hbindings
  rw [List.forall₂_map_left_iff] at hbindings harguments
  clear hentries hbs has
  -- Both lists follow the children of the node, so the induction is on these.
  generalize n.significant = l at *
  induction hbindings generalizing as with
  | nil =>
    cases harguments
    simp
  | @cons c b l bs hb _ ih =>
    obtain _ | @⟨_, a, _, as, ha, harguments⟩ := harguments
    obtain ⟨hspans, harguments, hnames, hiff⟩ := ih harguments
    have hname := name_of_argument_of_binding hb.2 ha
    have hspan := (binding_ok hb.2).1
    have hspan' := (argument_ok ha).1
    refine ⟨by simp [hspan, hspans], by simp [hspan, hspan', harguments],
      by simp [hname, hnames], ?_⟩
    rw [List.map_cons, List.map_cons, List.cons.injEq, hiff, List.forall_mem_cons, hname]
    simp [Option.isSome_iff_ne_none]

/-- A name, with a label or without. -/
def xName (label : Option String) : Node where
  tag := "identifier"
  text := "x"
  span := ⟨⟨0, 8, 8⟩, ⟨0, 9, 9⟩⟩
  label

/-- A value. -/
def xValue : Node where
  tag := "true"
  text := "true"
  span := ⟨⟨0, 12, 12⟩, ⟨0, 16, 16⟩⟩

/-- An entry with that name and that value. -/
def xEntry (label : Option String) : Node where
  tag := "named_argument"
  text := "x = true"
  span := ⟨⟨0, 8, 8⟩, ⟨0, 16, 16⟩⟩
  children := [xName label, xValue]
  named := [xName label, xValue]

/-- A list of that entry. -/
def xList (label : Option String) : Node where
  tag := "arguments"
  text := "(x = true)"
  span := ⟨⟨0, 7, 7⟩, ⟨0, 17, 17⟩⟩
  children := [xEntry label]
  named := [xEntry label]

/-- The binding that the entry stands for. -/
def xBinding : Binding :=
  ⟨"x", ⟨⟨0, 8, 8⟩, ⟨0, 9, 9⟩⟩, .literal (.boolean true) ⟨⟨0, 12, 12⟩, ⟨0, 16, 16⟩⟩,
    ⟨⟨0, 8, 8⟩, ⟨0, 16, 16⟩⟩⟩

section

variable {label : Option String}

/-- The name is found under its label, and by its kind. -/
theorem bindsAs_xEntry (h : label = some "name" ∨ label = none) :
    BindsAs {} (xEntry label) xBinding := by
  have hvalue : expression xValue = pure (some xBinding.value) := by
    rw [expression_eq]
    rfl
  refine ⟨rfl, ?_⟩
  rcases h with rfl | rfl
  all_goals
    show (expression xValue >>= _).result {} = _
    rw [hvalue]
    rfl

/-- Without its label, the name is passed over. -/
theorem arguesAs_xEntry (h : label = some "name" ∨ label = none) :
    ArguesAs {} (xEntry label) ⟨label.map fun _ => "x", .boolean true, xBinding.span⟩ := by
  have hvalue : plainValue xValue = pure (.boolean true) := by
    rw [plainValue]
    rfl
  rcases h with rfl | rfl
  all_goals
    show ((Conversion.ofExcept (plainValue xValue).run >>= _) >>= _).result {} = _
    rw [hvalue]
    rfl

theorem isEntry_of_mem_xList :
    ∀ c ∈ (xList label).significant, c.node.kind.isEntry = true :=
  List.forall_mem_singleton.mpr rfl

theorem result_bindings_xList (label : Option String) (h : label = some "name" ∨ label = none) :
    (bindings (xList label) (expressions _)).result {} = .ok [xBinding] := by
  rw [bindings_ok_iff, bindingNodes_of_entries isEntry_of_mem_xList]
  exact .cons (bindsAs_xEntry h) .nil

theorem result_arguments_xList (label : Option String) (h : label = some "name" ∨ label = none) :
    (arguments (xList label) (expressions _)).result {} =
      .ok [⟨label.map fun _ => "x", .boolean true, xBinding.span⟩] := by
  rw [arguments_ok_iff isEntry_of_mem_xList]
  exact .cons (arguesAs_xEntry h) .nil

end

/-- The value of a second entry. -/
def yValue : Node where
  tag := "true"
  text := "true"
  span := ⟨⟨0, 22, 22⟩, ⟨0, 26, 26⟩⟩

/-- A second entry, whose name has no label. -/
def yEntry : Node where
  tag := "named_argument"
  text := "y = true"
  span := ⟨⟨0, 18, 18⟩, ⟨0, 26, 26⟩⟩
  children := [{ xName none with text := "y", span := ⟨⟨0, 18, 18⟩, ⟨0, 19, 19⟩⟩ }, yValue]
  named := [{ xName none with text := "y", span := ⟨⟨0, 18, 18⟩, ⟨0, 19, 19⟩⟩ }, yValue]

/-- A list of both, where the first name has a label. -/
def pairList : Node where
  tag := "arguments"
  text := "(x = true, y = true)"
  span := ⟨⟨0, 7, 7⟩, ⟨0, 27, 27⟩⟩
  children := [xEntry (some "name"), yEntry]
  named := [xEntry (some "name"), yEntry]

/-- The binding that the second entry stands for. -/
def yBinding : Binding :=
  ⟨"y", ⟨⟨0, 18, 18⟩, ⟨0, 19, 19⟩⟩, .literal (.boolean true) yValue.span, yEntry.span⟩

theorem bindsAs_yEntry : BindsAs {} yEntry yBinding := by
  have hvalue : expression yValue = pure (some yBinding.value) := by
    rw [expression_eq]
    rfl
  refine ⟨rfl, ?_⟩
  show (expression yValue >>= _).result {} = _
  rw [hvalue]
  rfl

theorem arguesAs_yEntry : ArguesAs {} yEntry ⟨none, .boolean true, yBinding.span⟩ := by
  have hvalue : plainValue yValue = pure (.boolean true) := by
    rw [plainValue]
    rfl
  show ((Conversion.ofExcept (plainValue yValue).run >>= _) >>= _).result {} = _
  rw [hvalue]
  rfl

theorem isEntry_of_mem_pairList : ∀ c ∈ pairList.significant, c.node.kind.isEntry = true :=
  List.forall_mem_cons.mpr ⟨rfl, List.forall_mem_singleton.mpr rfl⟩

/-- The first argument is called as the first binding is, and the second one is positional. -/
theorem arguments_of_bindings_pairList :
    (∀ c ∈ pairList.significant, c.node.kind.isEntry = true) ∧
      (bindings pairList (expressions _)).result {} = .ok [xBinding, yBinding] ∧
      (arguments pairList (expressions _)).result {} =
        .ok [⟨some "x", .boolean true, xBinding.span⟩, ⟨none, .boolean true, yBinding.span⟩] ∧
      [some "x", none] =
        List.zipWith (fun c b => if (c.node.field? "name").isSome then some b.name else none)
          pairList.significant [xBinding, yBinding] ∧
      ¬∀ c ∈ pairList.significant, (c.node.field? "name").isSome = true := by
  have hbindings : (bindings pairList (expressions _)).result {} = .ok [xBinding, yBinding] := by
    rw [bindings_ok_iff, bindingNodes_of_entries isEntry_of_mem_pairList]
    exact .cons (bindsAs_xEntry (.inl rfl)) (.cons bindsAs_yEntry .nil)
  have harguments : (arguments pairList (expressions _)).result {} =
      .ok [⟨some "x", .boolean true, xBinding.span⟩, ⟨none, .boolean true, yBinding.span⟩] := by
    rw [arguments_ok_iff isEntry_of_mem_pairList]
    exact .cons (arguesAs_xEntry (.inl rfl)) (.cons arguesAs_yEntry .nil)
  obtain ⟨-, -, hnames, hiff⟩ :=
    arguments_of_bindings isEntry_of_mem_pairList hbindings harguments
  refine ⟨isEntry_of_mem_pairList, hbindings, harguments, hnames, fun hlabelled => ?_⟩
  -- Were both names labelled, both arguments would have names.
  have hnamed := hiff.mpr hlabelled
  cases hnamed

/-- Without its label, the name of the binding is lost. -/
theorem exists_arguments_ne_bindings : ∃ (n : Node) (bs : List Binding) (as : List Argument),
    n.kind = .arguments ∧ (∀ c ∈ n.significant, c.node.kind.isEntry = true) ∧
      (bindings n (expressions n)).result {} = .ok bs ∧
      (arguments n (expressions n)).result {} = .ok as ∧
      bs.map (·.name) = ["x"] ∧ as.map (·.name) = [none] :=
  ⟨xList none, [xBinding], _, by decide, isEntry_of_mem_xList,
    result_bindings_xList none (.inr rfl), result_arguments_xList none (.inr rfl), rfl, rfl⟩

/-! ## §4 Assignments of `assign` -/

theorem assignBinding_of_isEntry (h : n.kind.isEntry = true) :
    assignBinding n = do
      if n.isPositional then fail .unnamedAssign n
      return [← binding n (expressions n)] := by
  unfold assignBinding isPositional
  cases hkind : n.kind <;> simp_all [Kind.isEntry]

/-- What a child adds to the assignments, unless it is a value alone. -/
theorem assignBinding_ok_iff (h : n.kind.isExpression = false) {bs : List Binding} :
    (assignBinding n).result settings = .ok bs ↔
      List.Forall₂ (BindsAs settings) (if n.kind.isEntry then [n] else []) bs := by
  cases hentry : n.kind.isEntry with
  | true =>
    rw [assignBinding_of_isEntry hentry]
    exact guarded_binding_ok_iff
  | false =>
    have hnothing : assignBinding n = pure [] := by
      unfold assignBinding
      cases hkind : n.kind <;> simp_all [Kind.isEntry, Kind.isExpression]
    rw [hnothing]
    exact pure_nil_ok_iff

/-- A value alone is refused. -/
theorem assignBinding_fails (h : n.kind.isExpression = true) :
    (assignBinding n).Fails settings := by
  unfold assignBinding
  split
  -- No entry is an expression.
  iterate 3
    · next hkind => simp [hkind, Kind.isExpression] at h
  · rw [if_pos h]
    exact ⟨_, rfl⟩

/-- The assignments of `assign`, by themselves. -/
def assignBindings (n : Node) : Conversion (List Binding) :=
  return (← n.significant.mapM fun c => assignBinding c.node).flatten

/-- The assignments are what the entries of the list stand for, and no value stands among them. -/
theorem assignBindings_ok_iff {bs : List Binding} :
    (assignBindings n).result settings = .ok bs ↔
      (∀ c ∈ n.significant, c.node.kind.isExpression = false) ∧
        List.Forall₂ (BindsAs settings) n.entries bs := by
  have hcollect (hvalues : ∀ c ∈ n.significant, c.node.kind.isExpression = false) :
      (assignBindings n).result settings = .ok bs ↔
        List.Forall₂ (BindsAs settings) n.entries bs :=
    collect_ok_iff fun c hc _ => assignBinding_ok_iff (hvalues c hc)
  constructor
  · intro h
    obtain ⟨groups, hgroups, -⟩ := exists_of_bind_ok h
    have hvalues : ∀ c ∈ n.significant, c.node.kind.isExpression = false := by
      intro c hc
      obtain ⟨group, hgroup⟩ := exists_of_mapM_ok hgroups c hc
      cases hvalue : c.node.kind.isExpression with
      | false => rfl
      | true =>
        obtain ⟨f, hf⟩ : (assignBinding c.node).Fails settings := assignBinding_fails hvalue
        rw [hgroup] at hf
        cases hf
    exact ⟨hvalues, (hcollect hvalues).mp h⟩
  · rintro ⟨hvalues, hentries⟩
    exact (hcollect hvalues).mpr hentries

/-- What `assign` runs, behind its list or under a label. -/
def assignBody? (n : Node) (list : n.Part) : Option n.Part :=
  (n.anyField? ["statement", "block", "body"]).or (statementAfter? n list.node.stopByte)

theorem assignStatement_of_list {convert : Converter n Statement} {list : n.Part}
    (hlist : argumentList? n = some list) :
    assignStatement n convert = do
      remark .deprecatedAssign n
      let bs ← assignBindings list.node
      return some (.assign bs (← singleBody convert (assignBody? n list)) n.span) := by
  unfold assignStatement assignBindings
  rw [hlist]
  simp only [Option.map_some, Option.getD_some, List.mapM_map, bind_assoc, pure_bind]
  rfl

/-- Only the list decides whether `assign` succeeds: its body never fails. -/
theorem assignStatement_ok_iff {convert : Converter n Statement} {list : n.Part}
    (hlist : argumentList? n = some list) {r : Option Statement} :
    (assignStatement n convert).result settings = .ok r ↔
      ∃ bs body, (assignBindings list.node).result settings = .ok bs ∧
        (singleBody convert (assignBody? n list)).result settings = .ok body ∧
        r = some (.assign bs body n.span) := by
  rw [assignStatement_of_list hlist]
  constructor
  · intro h
    obtain ⟨_, -, h⟩ := exists_of_bind_ok h
    obtain ⟨bs, hbs, h⟩ := exists_of_bind_ok h
    obtain ⟨body, hbody, h⟩ := exists_of_bind_ok h
    exact ⟨bs, body, hbs, hbody, (Except.ok.inj h).symm⟩
  · rintro ⟨bs, body, hbs, hbody, rfl⟩
    simp [hbs, hbody]

/-- The assignments that `assign` ends with. -/
theorem exists_body_iff {convert : Converter n Statement} {list : n.Part}
    (hlist : argumentList? n = some list) {bs : List Binding} :
    (∃ body, (assignStatement n convert).result settings =
        .ok (some (.assign bs body n.span))) ↔
      (assignBindings list.node).result settings = .ok bs := by
  constructor
  · rintro ⟨body, h⟩
    obtain ⟨bs', body', hbs, -, heq⟩ := (assignStatement_ok_iff hlist).mp h
    obtain ⟨rfl, rfl⟩ : bs = bs' ∧ body = body' := by simpa using heq
    exact hbs
  · intro hbs
    obtain ⟨body, hbody⟩ := singleBody_succeeds convert (assignBody? n list) settings
    exact ⟨body, (assignStatement_ok_iff hlist).mpr ⟨bs, body, hbs, hbody, rfl⟩⟩

/-- The assignments of `assign` and the bindings of the same list.

Whatever `assign` ends with, its assignments are what the entries directly in the list stand for,
one each and in order; a positional entry and a value alone are refused.  The bindings are in the
same way what the nodes of all bindings stand for, in lists inside the list as well; a positional
entry is refused, and a value alone is passed over.  Where no child of the list is a value alone, a
loop binding, a list or a clause, the two are the same: one succeeds where the other does, with
equal lists. -/
theorem assignStatement_bindings (convert : Converter n Statement) {list : n.Part}
    (hlist : argumentList? n = some list) (settings : Settings) :
    (∀ r, (assignStatement n convert).result settings = .ok r →
        ∃ bs body, r = some (.assign bs body n.span)) ∧
      (∀ bs, (∃ body, (assignStatement n convert).result settings =
          .ok (some (.assign bs body n.span))) ↔
        (∀ c ∈ list.node.significant, c.node.kind.isExpression = false) ∧
          List.Forall₂ (BindsAs settings) list.node.entries bs) ∧
      (∀ bs, (bindings list.node (expressions list.node)).result settings = .ok bs ↔
        List.Forall₂ (BindsAs settings) list.node.bindingNodes bs) ∧
      ((∀ c ∈ list.node.significant, c.node.kind.readsAlike = true) →
        ∀ bs, (∃ body, (assignStatement n convert).result settings =
            .ok (some (.assign bs body n.span))) ↔
          (bindings list.node (expressions list.node)).result settings = .ok bs) := by
  refine ⟨fun r h => ?_, fun bs => (exists_body_iff hlist).trans assignBindings_ok_iff,
    fun bs => bindings_ok_iff list.node, fun halike bs => ?_⟩
  · obtain ⟨bs, body, -, -, rfl⟩ := (assignStatement_ok_iff hlist).mp h
    exact ⟨bs, body, rfl⟩
  · have hvalues : ∀ c ∈ list.node.significant, c.node.kind.isExpression = false := by
      intro c hc
      have hc := halike c hc
      cases hkind : c.node.kind <;> simp_all [Kind.readsAlike]
    rw [exists_body_iff hlist, assignBindings_ok_iff, bindings_ok_iff,
      bindingNodes_of_readsAlike halike]
    exact and_iff_right hvalues

/-- The list inside another. -/
def nestedList : Node where
  tag := "arguments"
  text := "((x = true))"
  span := ⟨⟨0, 6, 6⟩, ⟨0, 18, 18⟩⟩
  children := [xList none]
  named := [xList none]

/-- An `assign` with a list and without a body. -/
def assignOf (text : String) (list : Node) : Node where
  tag := "assign_statement"
  text
  span := ⟨⟨0, 0, 0⟩, list.span.stop⟩
  children := [list]
  named := [list]

/-- One with the list alone. -/
def flatAssign : Node :=
  assignOf "assign (x = true)" (xList none)

/-- One with the list inside another. -/
def nestedAssign : Node :=
  assignOf "assign((x = true))" nestedList

theorem assignStatement_bindings_flatAssign :
    ∃ list : flatAssign.Part, argumentList? flatAssign = some list ∧
      (∀ c ∈ list.node.significant, c.node.kind.readsAlike = true) ∧
      (bindings list.node (expressions list.node)).result {} = .ok [xBinding] ∧
      ∃ body, (assignStatement flatAssign (inner .complete flatAssign)).result {} =
        .ok (some (.assign [xBinding] body flatAssign.span)) := by
  have hlist : argumentList? flatAssign = some ⟨xList none, sizeOf_lt_of_mem_named (.head _)⟩ := rfl
  have halike : ∀ c ∈ (xList none).significant, c.node.kind.readsAlike = true :=
    List.forall_mem_singleton.mpr rfl
  have hbindings := result_bindings_xList none (.inr rfl)
  obtain ⟨-, -, -, hiff⟩ := assignStatement_bindings (inner .complete flatAssign) hlist {}
  exact ⟨_, hlist, halike, hbindings, (hiff halike [xBinding]).mpr hbindings⟩

/-- A `let` opens the list inside the list, and `assign` drops its binding. -/
theorem nestedAssign_bindings_ne :
    nestedAssign.kind = .assignStatement ∧
      ∃ list : nestedAssign.Part, argumentList? nestedAssign = some list ∧
        (bindings list.node (expressions list.node)).result {} = .ok [xBinding] ∧
        ∃ body, (statement .complete nestedAssign).result {} =
          .ok (some (.assign [] body nestedAssign.span)) := by
  have hlist : argumentList? nestedAssign = some ⟨nestedList, sizeOf_lt_of_mem_named (.head _)⟩ :=
    rfl
  refine ⟨by decide, _, hlist, ?_, ?_⟩
  · have hinner : (xList none).bindingNodes = [xEntry none] :=
      bindingNodes_of_entries isEntry_of_mem_xList
    have hnodes : nestedList.bindingNodes = [xEntry none] := by
      rw [bindingNodes]
      exact (List.append_nil _).trans hinner
    rw [bindings_ok_iff, hnodes]
    exact .cons (bindsAs_xEntry (.inr rfl)) .nil
  · have hstatement : statement .complete nestedAssign =
        assignStatement nestedAssign (inner .complete nestedAssign) := by
      rw [statement_eq]
      rfl
    rw [hstatement, exists_body_iff hlist, assignBindings_ok_iff]
    exact ⟨List.forall_mem_singleton.mpr rfl, .nil⟩

end Convert

end Scad
