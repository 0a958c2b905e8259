import Mathlib.Data.List.Forall2
import Scad.Convert.Program
import Scad.Proofs.Agreement.Retelling

/-!
# Trees that Correspond

Two trees that a conversion cannot tell apart, except for where they stand and for comments.

* `Interspersed` — one list is another with something put in.
* `Node.Alike` — two nodes say the same, and hold corresponding nodes in the same order.
* `Correspondence` — which nodes correspond, how far one tree is moved from the other, and in what
  words the faults of the two conversions are compared.

Every look-up of `Node` finds corresponding parts in corresponding nodes; there is one lemma for
each.
-/

namespace Option.Rel

variable {α β γ δ : Type} {R : α → β → Prop} {x y : Option α} {x' y' : Option β}

theorem refl (x : Option α) : Option.Rel Eq x x := by
  cases x with
  | some a => exact .some rfl
  | none => exact .none

theorem imp {S : α → β → Prop} (h : Option.Rel R x x') (hRS : ∀ a b, R a b → S a b) :
    Option.Rel S x x' := by
  cases h with
  | some h => exact .some (hRS _ _ h)
  | none => exact .none

theorem or (hx : Option.Rel R x x') (hy : Option.Rel R y y') :
    Option.Rel R (x.or y) (x'.or y') := by
  cases hx with
  | some h => exact .some h
  | none => exact hy

theorem filter {p : α → Bool} {q : β → Bool} (h : Option.Rel R x x')
    (hpq : ∀ a b, R a b → q b = p a) : Option.Rel R (x.filter p) (x'.filter q) := by
  cases h with
  | none => exact .none
  | @some a b h =>
    simp only [Option.filter_some, hpq a b h]
    split
    · exact .some h
    · exact .none

theorem bind {S : γ → δ → Prop} {f : α → Option γ} {g : β → Option δ} (h : Option.Rel R x x')
    (hfg : ∀ a b, R a b → Option.Rel S (f a) (g b)) : Option.Rel S (x.bind f) (x'.bind g) := by
  cases h with
  | none => exact .none
  | some h => exact hfg _ _ h

theorem map {S : γ → δ → Prop} {f : α → γ} {g : β → δ} (h : Option.Rel R x x')
    (hfg : ∀ a b, R a b → S (f a) (g b)) : Option.Rel S (x.map f) (x'.map g) := by
  cases h with
  | none => exact .none
  | some h => exact .some (hfg _ _ h)

theorem ite {c : Prop} [Decidable c] (hx : Option.Rel R x x') (hy : Option.Rel R y y') :
    Option.Rel R (if c then x else y) (if c then x' else y') := by
  split
  · exact hx
  · exact hy

theorem of_map {R : γ → δ → Prop} {f : α → γ} {g : β → δ}
    (h : Option.Rel R (x.map f) (x'.map g)) : Option.Rel (fun a b => R (f a) (g b)) x x' := by
  cases x <;> cases x' <;> cases h
  · exact .none
  · next h => exact .some h

theorem isSome_eq (h : Option.Rel R x x') : x'.isSome = x.isSome := by
  cases h <;> rfl

theorem isNone_eq (h : Option.Rel R x x') : x'.isNone = x.isNone := by
  cases h <;> rfl

theorem map_eq {f : α → γ} {g : β → γ} (h : Option.Rel R x x') (hfg : ∀ a b, R a b → f a = g b) :
    x.map f = x'.map g := by
  cases h with
  | none => rfl
  | some h => exact congrArg Option.some (hfg _ _ h)

end Option.Rel

namespace Scad

/-! ## §1 Lists with something put in -/

/-- The second list holds what corresponds to the first, in order, and between it what is `put`. -/
inductive Interspersed {α β : Type} (put : β → Prop) (R : α → β → Prop) :
    List α → List β → Prop where
  | nil : Interspersed put R [] []
  | kept {a : α} {b : β} {l : List α} {l' : List β} (h : R a b) (rest : Interspersed put R l l') :
    Interspersed put R (a :: l) (b :: l')
  | added {b : β} {l : List α} {l' : List β} (h : put b) (rest : Interspersed put R l l') :
    Interspersed put R l (b :: l')

namespace Interspersed

variable {α β γ δ : Type} {put : β → Prop} {R : α → β → Prop} {l : List α} {l' : List β}

theorem refl {put : α → Prop} (l : List α) : Interspersed put Eq l l := by
  induction l with
  | nil => exact .nil
  | cons a l ih => exact .kept rfl ih

theorem of_map {put : δ → Prop} {R : γ → δ → Prop} {f : α → γ} {g : β → δ}
    (h : Interspersed put R (l.map f) (l'.map g)) :
    Interspersed (fun b => put (g b)) (fun a b => R (f a) (g b)) l l' := by
  induction l' generalizing l with
  | nil =>
    cases l with
    | nil => exact .nil
    | cons a l => cases h
  | cons b l' ih =>
    cases l with
    | nil =>
      cases h with
      | added hput rest => exact .added hput (ih (l := []) rest)
    | cons a l =>
      cases h with
      | kept hab rest => exact .kept hab (ih rest)
      | added hput rest => exact .added hput (ih (l := a :: l) rest)

/-- A filter that passes nothing that was put in leaves lists that correspond one to one. -/
theorem filter {p : α → Bool} {q : β → Bool} (h : Interspersed put R l l')
    (hput : ∀ b, put b → q b = false) (hpq : ∀ a b, R a b → q b = p a) :
    List.Forall₂ R (l.filter p) (l'.filter q) := by
  induction h with
  | nil => exact .nil
  | @kept a b l l' hab rest ih =>
    rw [List.filter_cons, List.filter_cons, hpq a b hab]
    split
    · exact .cons hab ih
    · exact ih
  | @added b l l' hb rest ih =>
    rw [List.filter_cons_of_neg (by simp [hput b hb])]
    exact ih

theorem findSome? {S : γ → δ → Prop} {f : α → Option γ} {g : β → Option δ}
    (h : Interspersed put R l l') (hput : ∀ b, put b → g b = none)
    (hfg : ∀ a b, R a b → Option.Rel S (f a) (g b)) :
    Option.Rel S (l.findSome? f) (l'.findSome? g) := by
  induction h with
  | nil => exact .none
  | @kept a b l l' hab rest ih =>
    rw [List.findSome?_cons, List.findSome?_cons]
    have hab := hfg a b hab
    generalize f a = x, g b = y at hab
    cases hab with
    | some h => exact .some h
    | none => exact ih
  | @added b l l' hb rest ih =>
    rw [List.findSome?_cons, hput b hb]
    exact ih

theorem any {p : α → Bool} {q : β → Bool} (h : Interspersed put R l l')
    (hput : ∀ b, put b → q b = false) (hpq : ∀ a b, R a b → q b = p a) : l'.any q = l.any p := by
  induction h with
  | nil => rfl
  | kept hab rest ih => rw [List.any_cons, List.any_cons, hpq _ _ hab, ih]
  | added hb rest ih => rw [List.any_cons, hput _ hb, ih, Bool.false_or]

end Interspersed

section Forall₂

variable {α β : Type} {R : α → β → Prop} {l : List α} {l' : List β}

theorem rel_getElem? (h : List.Forall₂ R l l') (i : Nat) : Option.Rel R l[i]? l'[i]? := by
  induction h generalizing i with
  | nil => exact .none
  | cons h _ ih =>
    cases i with
    | zero => exact .some h
    | succ i => exact ih i

theorem rel_head? (h : List.Forall₂ R l l') : Option.Rel R l.head? l'.head? := by
  rw [List.head?_eq_getElem?, List.head?_eq_getElem?]
  exact rel_getElem? h 0

theorem rel_tail (h : List.Forall₂ R l l') : List.Forall₂ R l.tail l'.tail := by
  cases h with
  | nil => exact .nil
  | cons _ hrest => exact hrest

theorem rel_getLast? (h : List.Forall₂ R l l') : Option.Rel R l.getLast? l'.getLast? := by
  rw [List.getLast?_eq_getElem?, List.getLast?_eq_getElem?, h.length_eq]
  exact rel_getElem? h _

theorem rel_filter {p : α → Bool} {q : β → Bool} (h : List.Forall₂ R l l')
    (hpq : ∀ a b, R a b → q b = p a) : List.Forall₂ R (l.filter p) (l'.filter q) := by
  refine List.rel_filter (fun a b hab => ?_) h
  show p a = true ↔ q b = true
  rw [hpq a b hab]

theorem rel_find? {p : α → Bool} {q : β → Bool} (h : List.Forall₂ R l l')
    (hpq : ∀ a b, R a b → q b = p a) : Option.Rel R (l.find? p) (l'.find? q) := by
  rw [← List.head?_filter, ← List.head?_filter]
  exact rel_head? (rel_filter h hpq)

theorem any_eq_of_forall₂ {p : α → Bool} {q : β → Bool} (h : List.Forall₂ R l l')
    (hpq : ∀ a b, R a b → q b = p a) : l'.any q = l.any p := by
  induction h with
  | nil => rfl
  | cons hab _ ih => rw [List.any_cons, List.any_cons, hpq _ _ hab, ih]

end Forall₂

/-! ## §2 Nodes that correspond -/

namespace Node

/-- A comment as a grammar hands it over: named, without a label, and without children. -/
structure IsPlainComment (n : Node) : Prop where
  kind : n.kind = .comment
  isNamed : n.isNamed = true
  label : n.label = none
  children : n.children = []
  named : n.named = []

/-- The second node says what the first says, as far away as `d` tells.  It holds what corresponds
to what the first holds, in the same order, and maybe comments between it. -/
structure Alike (R : Node → Node → Prop) (d : Shift) (n n' : Node) : Prop where
  tag : n'.tag = n.tag
  text : n'.text = n.text
  span : n'.span = n.span.shift d
  isNamed : n'.isNamed = n.isNamed
  label : n'.label = n.label
  children : Interspersed IsPlainComment R n.children n'.children
  named : Interspersed IsPlainComment R n.named n'.named

/-- Whether the node is a wrapper that shows nothing of what it holds. -/
def isGeneral (n : Node) : Bool :=
  n.kind == .expression || n.kind == .literal

/-- The first child of the one node corresponds to the first child of the other. -/
def SameLead (R : Node → Node → Prop) (n n' : Node) : Prop :=
  Option.Rel R n.children.head? n'.children.head?

/-- The node has a first child that tells nothing which its significant children do not tell: a
comment, or the first of those children itself, unless error recovery put it in. -/
def LeadsPlainly (n : Node) : Prop :=
  ∃ first, n.children.head? = some first ∧
    (first.kind = .comment ∨
      (n.named.filter (·.kind != .comment)).head? = some first ∧ first.isPlaceholder = false)

end Node

/-- Two trees as two conversions see them: which nodes correspond, and how the programs, the faults
and the reports of the two conversions are compared. -/
structure Correspondence where
  /-- Whether a node of the one tree corresponds to a node of the other. -/
  Related : Node → Node → Prop
  /-- How far the second tree is moved from the first. -/
  shift : Shift
  /-- The settings of the first conversion. -/
  left : Settings
  /-- The settings of the second conversion. -/
  right : Settings
  /-- The words in which messages are compared. -/
  reword : String → String
  /-- Whether the reports of the conversions are compared. -/
  Listens : Prop
  alike {n n' : Node} : Related n n' → n.Alike Related shift n'
  /-- Of a wrapper, even a child that does not count may be what is converted. -/
  lead {n n' : Node} : Related n n' → n.isGeneral = true →
    n.SameLead Related n' ∨ ¬Listens ∧ n.LeadsPlainly
  quoting {w w' : String} (text : String) : reword w = reword w' →
    reword (Problem.quoting w text left.previewWidth) =
      reword (Problem.quoting w' text right.previewWidth)
  invalid (role : Role) {m m' : String} : reword m = reword m' →
    reword (Problem.invalid role m).wording = reword (Problem.invalid role m').wording

namespace Correspondence

/-! Messages may be compared word by word, where the settings are the same. -/

theorem quoting_of_id (settings : Settings) {w w' : String} (text : String) (h : id w = id w') :
    id (Problem.quoting w text settings.previewWidth) =
      id (Problem.quoting w' text settings.previewWidth) :=
  congrArg (Problem.quoting · text settings.previewWidth) h

theorem invalid_of_id (role : Role) {m m' : String} (h : id m = id m') :
    id (Problem.invalid role m).wording = id (Problem.invalid role m').wording :=
  congrArg (fun m => (Problem.invalid role m).wording) h

variable {C : Correspondence} {n n' : Node}

/-- Parts that correspond. -/
def Parts (C : Correspondence) (p : n.Part) (p' : n'.Part) : Prop :=
  C.Related p.node p'.node

theorem kind_eq (h : C.Related n n') : n'.kind = n.kind := by
  rw [Node.kind, Node.kind, (C.alike h).tag]

theorem trimmed_eq (h : C.Related n n') : n'.trimmed = n.trimmed := by
  rw [Node.trimmed, Node.trimmed, (C.alike h).text]

theorem hasText_eq (h : C.Related n n') : n'.hasText = n.hasText := by
  rw [Node.hasText, Node.hasText, (C.alike h).text]

theorem isMissing_eq (h : C.Related n n') : n'.isMissing = n.isMissing := by
  rw [Node.isMissing, Node.isMissing, kind_eq h]

theorem isPlaceholder_eq (h : C.Related n n') : n'.isPlaceholder = n.isPlaceholder := by
  rw [Node.isPlaceholder, Node.isPlaceholder, kind_eq h]

theorem startByte_eq (h : C.Related n n') : n'.startByte = n.startByte + C.shift.bytes := by
  rw [Node.startByte, (C.alike h).span]
  rfl

theorem stopByte_eq (h : C.Related n n') : n'.stopByte = n.stopByte + C.shift.bytes := by
  rw [Node.stopByte, (C.alike h).span]
  rfl

theorem spanTo_eq {m m' : Node} (h : C.Related n n') (hm : C.Related m m') :
    n'.spanTo m' = (n.spanTo m).shift C.shift := by
  rw [Node.spanTo, Node.spanTo, (C.alike h).span, (C.alike hm).span, Span.merge_shift]

/-! ## §3 What look-ups find -/

theorem parts (h : C.Related n n') :
    Interspersed (fun p => p.node.IsPlainComment) C.Parts n.parts n'.parts := by
  refine Interspersed.of_map (f := Node.Part.node) (g := Node.Part.node) ?_
  rw [n.map_node_parts, n'.map_node_parts]
  exact (C.alike h).children

theorem namedParts (h : C.Related n n') :
    Interspersed (fun p => p.node.IsPlainComment) C.Parts n.namedParts n'.namedParts := by
  refine Interspersed.of_map (f := Node.Part.node) (g := Node.Part.node) ?_
  rw [n.map_node_namedParts, n'.map_node_namedParts]
  exact (C.alike h).named

/-- The children that count correspond one to one. -/
theorem significant (h : C.Related n n') :
    List.Forall₂ C.Parts n.significant n'.significant := by
  refine (namedParts h).filter (fun p hp => ?_) fun p p' hp => ?_
  · simp [hp.kind]
  · rw [kind_eq hp]

/-- Parts of corresponding parts correspond, as parts of the whole. -/
theorem map_within {p : n.Part} {p' : n'.Part} {l : List p.node.Part} {l' : List p'.node.Part}
    (h : List.Forall₂ C.Parts l l') :
    List.Forall₂ C.Parts (l.map p.within) (l'.map p'.within) := by
  rw [List.forall₂_map_left_iff, List.forall₂_map_right_iff]
  exact h

/-- The children that count and were read correspond one to one. -/
theorem readable (h : C.Related n n') :
    List.Forall₂ C.Parts (n.significant.filter (!·.node.isPlaceholder))
      (n'.significant.filter (!·.node.isPlaceholder)) :=
  rel_filter (significant h) fun _ _ hp => by rw [isPlaceholder_eq hp]

/-- A look-up among all children that accepts no comment. -/
theorem find?_parts {accepts : n.Part → Bool} {accepts' : n'.Part → Bool} (h : C.Related n n')
    (hcomment : ∀ p' : n'.Part, p'.node.IsPlainComment → accepts' p' = false)
    (haccepts : ∀ p p', C.Parts p p' → accepts' p' = accepts p) :
    Option.Rel C.Parts (n.parts.find? accepts) (n'.parts.find? accepts') := by
  rw [← List.head?_filter, ← List.head?_filter]
  exact rel_head? ((parts h).filter hcomment haccepts)

theorem field? (h : C.Related n n') (label : String) :
    Option.Rel C.Parts (n.field? label) (n'.field? label) := by
  have hcomment (p : n'.Part) (hp : p.node.IsPlainComment) :
      (p.node.label == some label) = false := by
    simp [hp.label]
  have hlabel (p : n.Part) (p' : n'.Part) (hp : C.Parts p p') :
      (p'.node.label == some label) = (p.node.label == some label) := by
    rw [(C.alike hp).label]
  refine (find?_parts h hcomment hlabel).or ?_
  rw [← List.head?_filter, ← List.head?_filter]
  exact rel_head? ((namedParts h).filter hcomment hlabel)

theorem anyField? (h : C.Related n n') (labels : List String) :
    Option.Rel C.Parts (n.anyField? labels) (n'.anyField? labels) := by
  induction labels with
  | nil => exact .none
  | cons label labels ih =>
    rw [Node.anyField?, Node.anyField?, List.findSome?_cons, List.findSome?_cons]
    have hlabel := field? h label
    generalize n.field? label = x, n'.field? label = x' at hlabel
    cases hlabel with
    | some hp => exact .some hp
    | none => exact ih

theorem hasAnyField_eq (h : C.Related n n') (labels : List String) :
    n'.hasAnyField labels = n.hasAnyField labels := by
  rw [Node.hasAnyField, Node.hasAnyField]
  congr 1
  funext label
  exact (field? h label).isSome_eq

theorem token? {accepts accepts' : Node → Bool} (h : C.Related n n')
    (haccepts : ∀ {c c'}, C.Related c c' → accepts' c' = accepts c) :
    Option.Rel C.Parts (n.token? accepts) (n'.token? accepts') := by
  refine find?_parts h (fun p hp => ?_) fun p p' hp => ?_
  · simp [hp.isNamed]
  · rw [(C.alike hp).isNamed, haccepts hp]

theorem find? {accepts accepts' : Node → Bool} (h : C.Related n n')
    (haccepts : ∀ {c c'}, C.Related c c' → accepts' c' = accepts c) :
    Option.Rel C.Parts (n.find? accepts) (n'.find? accepts') :=
  rel_find? (significant h) fun _ _ => haccepts

theorem findLast? {accepts accepts' : Node → Bool} (h : C.Related n n')
    (haccepts : ∀ {c c'}, C.Related c c' → accepts' c' = accepts c) :
    Option.Rel C.Parts (n.findLast? accepts) (n'.findLast? accepts') :=
  rel_getLast? (rel_filter (significant h) fun _ _ => haccepts)

theorem ofKind? (h : C.Related n n') (kind : Kind) :
    Option.Rel C.Parts (n.ofKind? kind) (n'.ofKind? kind) :=
  find? h fun hc => by rw [kind_eq hc]

theorem onlyChild? (h : C.Related n n') (labels : List String) :
    Option.Rel C.Parts (n.onlyChild? labels) (n'.onlyChild? labels) := by
  have htoken : (n'.children.any fun c => !c.isNamed) = n.children.any fun c => !c.isNamed := by
    refine (C.alike h).children.any (fun c hc => ?_) fun c c' hc => ?_
    · rw [hc.isNamed, Bool.not_true]
    · rw [(C.alike hc).isNamed]
  unfold Node.onlyChild?
  rw [hasAnyField_eq h, htoken]
  refine Option.Rel.ite .none ?_
  have hsignificant := significant h
  generalize n.significant = l, n'.significant = l' at hsignificant
  cases hsignificant with
  | nil => exact .none
  | cons hp hrest =>
    cases hrest with
    | nil => exact .some hp
    | cons _ _ => exact .none

/-- A comment is not looked for by its kind, and there is nothing inside it. -/
theorem descendant?_eq_none {c : Node} (hc : c.IsPlainComment) (kind : Kind) :
    c.descendant? kind = none := by
  rw [Node.descendant?, List.findSome?_eq_none_iff]
  intro p hp
  have hmem : p.node ∈ c.parts.map Node.Part.node := List.mem_map_of_mem hp
  rw [c.map_node_parts, hc.children] at hmem
  exact absurd hmem List.not_mem_nil

theorem descendant? {kind : Kind} (hkind : kind ≠ .comment) {n n' : Node} (h : C.Related n n') :
    Option.Rel C.Parts (n.descendant? kind) (n'.descendant? kind) := by
  rw [Node.descendant?, Node.descendant?]
  refine (parts h).findSome? (fun p hp => ?_) fun p p' hp => ?_
  · rw [hp.kind, if_neg (by simpa using hkind.symm), descendant?_eq_none hp, Option.map_none]
  · rw [kind_eq hp]
    refine Option.Rel.ite (.some hp) ?_
    exact (descendant? hkind hp).map fun _ _ h => h
termination_by sizeOf n
decreasing_by exact p.inside

/-- The first children of two wrappers correspond; or the first child of the first wrapper tells
nothing that its significant children do not tell, and in front of it stands a comment at most. -/
theorem head?_parts (h : C.Related n n') (hgeneral : n.isGeneral = true) :
    Option.Rel C.Parts n.parts.head? n'.parts.head? ∨
      ¬C.Listens ∧ ∃ p p', n.parts.head? = some p ∧ n'.parts.head? = some p' ∧
        (p'.node.kind = .comment ∨ C.Parts p p') ∧
        (p.node.kind = .comment ∨
          n.significant.head? = some p ∧ p.node.isPlaceholder = false) := by
  have hchildren : n.children.head? = n.parts.head?.map Node.Part.node := by
    rw [← n.map_node_parts, List.head?_map]
  have hchildren' : n'.children.head? = n'.parts.head?.map Node.Part.node := by
    rw [← n'.map_node_parts, List.head?_map]
  rcases C.lead h hgeneral with hlead | ⟨hlistens, first, hfirst, hplain⟩
  · rw [Node.SameLead, hchildren, hchildren'] at hlead
    exact .inl hlead.of_map
  · rw [hchildren] at hfirst
    obtain ⟨p, hp, rfl⟩ := Option.map_eq_some_iff.mp hfirst
    have hparts := parts h
    obtain ⟨rest, hlist⟩ : ∃ rest, n.parts = p :: rest := List.head?_eq_some_iff.mp hp
    rw [hlist] at hparts
    have hplain : p.node.kind = .comment ∨
        n.significant.head? = some p ∧ p.node.isPlaceholder = false := by
      refine hplain.imp_right fun ⟨hhead, hplaceholder⟩ => ⟨?_, hplaceholder⟩
      rw [← n.map_node_significant, List.head?_map] at hhead
      obtain ⟨q, hq, hnode⟩ := Option.map_eq_some_iff.mp hhead
      -- Parts are the same where their nodes are.
      cases p
      cases q
      cases hnode
      exact hq
    generalize hlist' : n'.parts = list' at hparts
    refine .inr ⟨hlistens, p, ?_⟩
    cases hparts with
    | @kept _ p' _ _ hpair => exact ⟨p', hp, by rw [List.head?_cons], .inr hpair, hplain⟩
    | @added p' _ _ hadded => exact ⟨p', hp, by rw [List.head?_cons], .inl hadded.kind, hplain⟩

end Correspondence

end Scad
