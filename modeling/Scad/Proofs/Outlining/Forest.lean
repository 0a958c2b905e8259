import Scad.Editor.Outline

/-!
# Forests of Outline Items

An outline is built from a flat list of entries that know their owners by number.  Nothing in such a
list says that the building comes to an end, or that every entry has a place in the outline: an
entry might own itself.

Where the list is the pre-order of a forest, each item with its number and the number of the item
that it stands directly below, the building does come to an end, and it gives the forest back.

* `Outline.items`, `Outline.links` — the items of a forest at any depth, and each with its parent.
* `Outline.listing` — the entries of a forest.
* `Outline.Builds` — the building of a forest without a bound on its depth.
* `builds_listing` — a forest is what its own listing builds.
-/

namespace Scad.Outline

/-! ## §1 The items of a forest -/

/-- The items of a forest at any depth, a parent before its children. -/
def items : List OutlineItem → List OutlineItem
  | [] => []
  | ⟨s, below⟩ :: rest => ⟨s, below⟩ :: (items below ++ items rest)

/-- The symbols of a forest with their parents, in the same order; those at the top stand below the
given one. -/
def links (parent : Option Symbol) : List OutlineItem → List (Option Symbol × Symbol)
  | [] => []
  | ⟨s, below⟩ :: rest => (parent, s) :: (links (some s) below ++ links parent rest)

/-- The symbols of a forest, in the same order. -/
def symbols (forest : List OutlineItem) : List Symbol :=
  (items forest).map OutlineItem.symbol

/-- A forest is empty, or it has a first item with a forest below it and a forest behind it. -/
theorem forest_induction {motive : List OutlineItem → Prop} (nil : motive [])
    (cons : ∀ i rest, motive i.children → motive rest → motive (i :: rest)) :
    ∀ forest, motive forest
  | [] => nil
  | ⟨s, below⟩ :: rest =>
    cons ⟨s, below⟩ rest (forest_induction nil cons below) (forest_induction nil cons rest)

variable {f g rest : List OutlineItem} {i : OutlineItem} {parent : Option Symbol}

@[simp] theorem items_nil : items [] = [] := by
  rw [items]

@[simp] theorem items_cons : items (i :: rest) = i :: (items i.children ++ items rest) := by
  cases i
  rw [items]

theorem mem_items : i ∈ items f ↔ ∃ j ∈ f, i = j ∨ i ∈ items j.children := by
  induction f with
  | nil => simp
  | cons j f ih => simp [ih, or_assoc]

@[simp] theorem symbols_nil : symbols [] = [] := by
  simp [symbols]

@[simp] theorem symbols_cons :
    symbols (i :: rest) = i.symbol :: (symbols i.children ++ symbols rest) := by
  simp [symbols]

@[simp] theorem symbols_append : symbols (f ++ g) = symbols f ++ symbols g := by
  induction f with
  | nil => simp
  | cons i f ih => simp [ih]

@[simp] theorem length_symbols_eq_zero : (symbols f).length = 0 ↔ f = [] := by
  cases f <;> simp

@[simp] theorem links_nil : links parent [] = [] := by
  rw [links]

@[simp] theorem links_cons :
    links parent (i :: rest) =
      (parent, i.symbol) :: (links (some i.symbol) i.children ++ links parent rest) := by
  cases i
  rw [links]

@[simp] theorem links_append : links parent (f ++ g) = links parent f ++ links parent g := by
  induction f with
  | nil => simp
  | cons i f ih => simp [ih]

/-! ## §2 The entries of a forest -/

/-- The entries of a forest, numbered in pre-order from `start`; those at the top have the given
owner. -/
def listing (owner : Option Nat) (start : Nat) : List OutlineItem → List Entry
  | [] => []
  | ⟨s, below⟩ :: rest =>
    ⟨s, start, owner⟩ :: (listing (some start) (start + 1) below ++
      listing owner (start + 1 + (symbols below).length) rest)

/-- The entries of the items at the top. -/
def tops (owner : Option Nat) (start : Nat) : List OutlineItem → List Entry
  | [] => []
  | ⟨s, below⟩ :: rest =>
    ⟨s, start, owner⟩ :: tops owner (start + 1 + (symbols below).length) rest

/-- No entry of the list is owned by one of the numbers from `first` up to `last`. -/
def OwnedOutside (first last : Nat) (es : List Entry) : Prop :=
  ∀ e ∈ es, ∀ number, e.owner = some number → number < first ∨ last ≤ number

variable {owner : Option Nat} {start first last number : Nat} {es : List Entry}

@[simp] theorem listing_nil : listing owner start [] = [] := by
  rw [listing]

theorem listing_cons :
    listing owner start (i :: rest) =
      ⟨i.symbol, start, owner⟩ :: (listing (some start) (start + 1) i.children ++
        listing owner (start + 1 + (symbols i.children).length) rest) := by
  cases i
  rw [listing]

@[simp] theorem tops_nil : tops owner start [] = [] := by
  rw [tops]

theorem tops_cons :
    tops owner start (i :: rest) =
      ⟨i.symbol, start, owner⟩ ::
        tops owner (start + 1 + (symbols i.children).length) rest := by
  cases i
  rw [tops]

namespace OwnedOutside

theorem mono {first' last' : Nat} (h : OwnedOutside first last es) (hfirst : first ≤ first')
    (hlast : last' ≤ last) : OwnedOutside first' last' es := by
  intro e he number hnumber
  have := h e he number hnumber
  omega

theorem nil : OwnedOutside first last [] := by
  simp [OwnedOutside]

theorem cons {e : Entry} (he : ∀ number, e.owner = some number → number < first ∨ last ≤ number)
    (h : OwnedOutside first last es) : OwnedOutside first last (e :: es) :=
  List.forall_mem_cons.mpr ⟨he, h⟩

theorem append {es' : List Entry} (h : OwnedOutside first last es)
    (h' : OwnedOutside first last es') : OwnedOutside first last (es ++ es') :=
  List.forall_mem_append.mpr ⟨h, h'⟩

theorem filter_eq_nil (h : OwnedOutside first last es) (hfirst : first ≤ number)
    (hlast : number < last) : es.filter (·.owner == some number) = [] := by
  apply List.filter_eq_nil_iff.mpr
  intro e he hnumber
  have := h e he number (eq_of_beq hnumber)
  omega

end OwnedOutside

/-- The owner of an entry is that of the items at the top, or an item of the forest. -/
theorem owner_of_mem_listing {e : Entry} (h : e ∈ listing owner start f) :
    e.owner = owner ∨ ∃ number, e.owner = some number ∧ start ≤ number ∧
      number < start + (symbols f).length := by
  induction f using forest_induction generalizing owner start with
  | nil => simp at h
  | cons i rest ihchildren ihrest =>
    rw [listing_cons, List.mem_cons, List.mem_append] at h
    rw [symbols_cons, List.length_cons, List.length_append]
    rcases h with rfl | h | h
    · exact .inl rfl
    · rcases ihchildren h with howner | ⟨number, howner, hnumber⟩
      · exact .inr ⟨start, howner, by omega⟩
      · exact .inr ⟨number, howner, by omega⟩
    · rcases ihrest h with howner | ⟨number, howner, hnumber⟩
      · exact .inl howner
      · exact .inr ⟨number, howner, by omega⟩

theorem ownedOutside_listing
    (howner : ∀ number, owner = some number → number < first ∨ last ≤ number)
    (hrange : last ≤ start ∨ start + (symbols f).length ≤ first) :
    OwnedOutside first last (listing owner start f) := by
  intro e he number hnumber
  rcases owner_of_mem_listing he with h | ⟨k, h, hk⟩
  · exact howner number (h.symm.trans hnumber)
  · have hsame : k = number := Option.some.inj (h.symm.trans hnumber)
    omega

/-- What has the owner of the items at the top is at the top. -/
theorem filter_listing (howner : ∀ number, owner = some number → number < start) :
    (listing owner start f).filter (·.owner == owner) = tops owner start f := by
  induction f using forest_induction generalizing start with
  | nil => simp
  | cons i rest _ ihrest =>
    have hchildren :
        (listing (some start) (start + 1) i.children).filter (·.owner == owner) = [] := by
      apply List.filter_eq_nil_iff.mpr
      intro e he hsame
      -- The owner of `e` is the item itself or one below it, and `owner` is none of those.
      rcases owner_of_mem_listing he with h | ⟨k, h, hk⟩
      · have := howner start ((eq_of_beq hsame).symm.trans h)
        omega
      · have := howner k ((eq_of_beq hsame).symm.trans h)
        omega
    have hrest : (listing owner (start + 1 + (symbols i.children).length) rest).filter
        (·.owner == owner) = tops owner (start + 1 + (symbols i.children).length) rest := by
      apply ihrest
      intro number h
      have := howner number h
      omega
    rw [listing_cons, tops_cons, List.filter_cons_of_pos (by simp), List.filter_append, hchildren,
      hrest, List.nil_append]

/-! ## §3 Building a forest -/

/-- The items of some of the entries, each with the items of the entries that it owns below it.  No
depth is given, so a derivation is a building that comes to an end. -/
inductive Builds (entries : List Entry) : List Entry → List OutlineItem → Prop where
  | nil : Builds entries [] []
  | cons {e : Entry} {es : List Entry} {i : OutlineItem} {rest : List OutlineItem}
      (hsymbol : i.symbol = e.symbol)
      (hchildren : Builds entries (entries.filter (·.owner == some e.number)) i.children)
      (hrest : Builds entries es rest) : Builds entries (e :: es) (i :: rest)

variable {entries : List Entry}

/-- A bound on the depth makes no difference where it is large enough. -/
theorem map_itemsBelow_of_builds (h : Builds entries es f) {depth : Nat}
    (hdepth : (symbols f).length ≤ depth + 1) :
    es.map (fun e => ⟨e.symbol, itemsBelow entries depth (some e.number)⟩) = f := by
  induction h generalizing depth with
  | nil => rfl
  | @cons e es i rest hsymbol _ _ ihchildren ihrest =>
    simp only [symbols_cons, List.length_cons, List.length_append] at hdepth
    have hchildren : itemsBelow entries depth (some e.number) = i.children := by
      cases depth with
      | zero =>
        have hnone : i.children = [] := length_symbols_eq_zero.mp (by omega)
        rw [hnone, itemsBelow]
      | succ depth =>
        rw [itemsBelow]
        exact ihchildren (by omega)
    cases i
    rw [List.map_cons, hchildren, ← hsymbol, ihrest (by omega)]

theorem itemsBelow_of_builds (h : Builds entries (entries.filter (·.owner == owner)) f)
    {depth : Nat} (hdepth : (symbols f).length ≤ depth) : itemsBelow entries depth owner = f := by
  cases depth with
  | zero =>
    have hnone : f = [] := length_symbols_eq_zero.mp (by omega)
    rw [hnone, itemsBelow]
  | succ depth =>
    rw [itemsBelow]
    exact map_itemsBelow_of_builds h hdepth

/-- Every item is made of an entry, and what stands directly below it of entries with that owner. -/
theorem exists_entries_of_mem_items {depth : Nat}
    (h : i ∈ items (itemsBelow entries depth owner)) :
    ∃ e ∈ entries, e.symbol = i.symbol ∧
      ∀ c ∈ i.children, ∃ e' ∈ entries, e'.symbol = c.symbol ∧ e'.owner = some e.number := by
  induction depth generalizing owner with
  | zero => simp [itemsBelow] at h
  | succ depth ih =>
    rw [itemsBelow, mem_items] at h
    obtain ⟨j, hj, h⟩ := h
    obtain ⟨e, he, rfl⟩ := List.mem_map.mp hj
    rcases h with rfl | h
    · refine ⟨e, (List.mem_filter.mp he).1, rfl, fun c hc => ?_⟩
      cases depth with
      | zero => simp [itemsBelow] at hc
      | succ depth =>
        simp only [itemsBelow] at hc
        obtain ⟨e', he', rfl⟩ := List.mem_map.mp hc
        obtain ⟨hmem, howner⟩ := List.mem_filter.mp he'
        exact ⟨e', hmem, rfl, eq_of_beq howner⟩
    · exact ih h

/-- The entries that the first item of a listing owns are those of its children, even among other
entries. -/
theorem filter_owned_children {before after : List Entry}
    (howner : ∀ number, owner = some number → number < start)
    (hbefore : OwnedOutside start (start + 1) before)
    (hafter : OwnedOutside start (start + 1) after) :
    (before ++ listing owner start (i :: rest) ++ after).filter (·.owner == some start) =
      tops (some start) (start + 1) i.children := by
  have hhead : (owner == some start) = false := by
    apply beq_eq_false_iff_ne.mpr
    intro h
    exact Nat.lt_irrefl start (howner start h)
  have hchildren : (listing (some start) (start + 1) i.children).filter
      (·.owner == some start) = tops (some start) (start + 1) i.children :=
    filter_listing (by simp)
  -- What comes behind the children has the owner of the item, or an owner further behind.
  have hrest : OwnedOutside start (start + 1)
      (listing owner (start + 1 + (symbols i.children).length) rest) :=
    ownedOutside_listing (fun number h => .inl (howner number h)) (.inl (by omega))
  rw [listing_cons]
  simp [hhead, hchildren, hbefore.filter_eq_nil (Nat.le_refl start) (by omega),
    hafter.filter_eq_nil (Nat.le_refl start) (by omega),
    hrest.filter_eq_nil (Nat.le_refl start) (by omega)]

/-- What is listed of the first item is not owned by anything behind it. -/
theorem ownedOutside_first (howner : ∀ number, owner = some number → number < start) :
    OwnedOutside (start + 1 + (symbols i.children).length) last
      (⟨i.symbol, start, owner⟩ :: listing (some start) (start + 1) i.children) := by
  apply OwnedOutside.cons
  · intro number h
    have := howner number h
    omega
  · apply ownedOutside_listing
    · simp only [Option.some.injEq, forall_eq']
      omega
    · exact .inr (Nat.le_refl _)

/-- A forest is built from its listing, even among other entries, as long as it owns none of
those. -/
theorem builds_tops (before after : List Entry)
    (hentries : entries = before ++ listing owner start f ++ after)
    (howner : ∀ number, owner = some number → number < start)
    (hbefore : OwnedOutside start (start + (symbols f).length) before)
    (hafter : OwnedOutside start (start + (symbols f).length) after) :
    Builds entries (tops owner start f) f := by
  induction f using forest_induction generalizing before after owner start with
  | nil =>
    rw [tops_nil]
    exact .nil
  | cons i rest ihchildren ihrest =>
    simp only [symbols_cons, List.length_cons, List.length_append] at hbefore hafter
    have hself (number : Nat) (h : owner = some number) : number < start + 1 :=
      Nat.lt_succ_of_lt (howner number h)
    rw [tops_cons]
    apply Builds.cons rfl
    · -- Below the item, the item and the rest of the forest count among the other entries.
      have howned : entries.filter (·.owner == some start) =
          tops (some start) (start + 1) i.children := by
        rw [hentries]
        exact filter_owned_children howner (hbefore.mono (Nat.le_refl _) (by omega))
          (hafter.mono (Nat.le_refl _) (by omega))
      rw [howned]
      rw [listing_cons] at hentries
      apply ihchildren (before ++ [⟨i.symbol, start, owner⟩])
        (listing owner (start + 1 + (symbols i.children).length) rest ++ after)
      · simp [hentries]
      · simp
      · apply (hbefore.mono (by omega) (by omega)).append
        exact .cons (fun number h => .inl (hself number h)) .nil
      · apply OwnedOutside.append _ (hafter.mono (by omega) (by omega))
        exact ownedOutside_listing (fun number h => .inl (hself number h)) (.inl (Nat.le_refl _))
    · -- Behind the item, the item and its children count among them.
      rw [listing_cons] at hentries
      apply ihrest (before ++ ⟨i.symbol, start, owner⟩ ::
        listing (some start) (start + 1) i.children) after
      · simp [hentries]
      · intro number h
        have := howner number h
        omega
      · exact (hbefore.mono (by omega) (by omega)).append (ownedOutside_first howner)
      · exact hafter.mono (by omega) (by omega)

/-- A forest is what its own listing builds. -/
theorem builds_listing (f : List OutlineItem) :
    Builds (listing none 0 f) ((listing none 0 f).filter (·.owner == none)) f := by
  rw [filter_listing (by simp)]
  apply builds_tops [] []
  · simp
  · simp
  · exact .nil
  · exact .nil

end Scad.Outline
