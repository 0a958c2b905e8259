import Scad.Proofs.Cursor
import Scad.Proofs.Outlining.Forest

/-!
# Who Holds Whom

The owner of a symbol is looked up among all symbols of a program, by the name of its scope and by
the place of its span.  Definitions of one name may stand inside one another, so several may hold a
symbol; the last of them in pre-order is taken.

Where the symbols are those of a forest whose spans are nested as its items are, that is the item
which the symbol stands directly below.  The proof goes through the forest in pre-order, and knows
of the symbols before and after a part of it only what `Surrounds` says.

* `Outline.Nested` — a forest whose spans are nested as its items are.
* `Outline.Surrounds` — the symbols around a part of a forest.
* `entries_symbols` — the entries of the symbols of a nested forest are its listing.
-/

namespace Scad

/-! ## §1 Spans that stand apart -/

namespace Span

variable {s t u : Span}

/-- The span covers a part of the text, by line and column. -/
def IsProper (s : Span) : Prop :=
  s.start.before s.stop = true

theorem IsProper.contains_start (h : s.IsProper) : s.contains s.start = true := by
  rw [IsProper] at h
  simp [contains, Position.before_irrefl, h]

/-- Of two spans apart, at most one encloses a given proper span. -/
theorem Apart.encloses_eq_false (h : s.Apart t) (hu : u.IsProper) (hs : s.encloses u = true) :
    t.encloses u = false := by
  apply Bool.eq_false_iff.mpr
  intro ht
  have hnot := h u.start (contains_of_encloses hs hu.contains_start)
  rw [contains_of_encloses ht hu.contains_start] at hnot
  cases hnot

end Span

namespace Outline

/-! ## §2 The last symbol that holds another -/

variable {scope : Option String} {name : String} {owner : Option Nat}
  {all before after more : List Symbol} {d s : Symbol}

/-- The number of the last of some symbols that holds `s` in the scope of the given name. -/
def lastHolder? (name : String) (before : List Symbol) (s : Symbol) : Option Nat :=
  ((before.zipIdx.filter fun d => holds name d.1 s).getLast?).map (·.2)

theorem holds_eq_false (h : d.kind.isDefinition = true → d.span.encloses s.span = false) :
    holds name d s = false := by
  cases hkind : d.kind.isDefinition <;> simp_all [holds]

theorem filter_zipIdx_eq_nil {start : Nat} (h : ∀ d ∈ more, holds name d s = false) :
    (more.zipIdx start).filter (fun d => holds name d.1 s) = [] := by
  apply List.filter_eq_nil_iff.mpr
  intro d hd
  rw [h d.1 (List.fst_mem_of_mem_zipIdx hd)]
  exact Bool.false_ne_true

theorem lastHolder?_append (h : ∀ d ∈ more, holds name d s = false) :
    lastHolder? name (before ++ more) s = lastHolder? name before s := by
  rw [lastHolder?, List.zipIdx_append, List.filter_append, filter_zipIdx_eq_nil h, List.append_nil,
    lastHolder?]

theorem lastHolder?_concat (h : holds name d s = true) :
    lastHolder? name (before ++ [d]) s = some before.length := by
  simp [lastHolder?, List.zipIdx_append, h]

/-- The owner of an entry encloses it. -/
theorem encloses_of_owner {e e' : Entry} (he : e ∈ entries all) (he' : e' ∈ entries all)
    (h : e'.owner = some e.number) : e.symbol.span.encloses e'.symbol.span = true := by
  obtain ⟨⟨x, number⟩, hx, rfl⟩ := List.mem_map.mp he
  obtain ⟨⟨y, number'⟩, -, rfl⟩ := List.mem_map.mp he'
  obtain ⟨scope, -, howner⟩ := Option.bind_eq_some_iff.mp h
  obtain ⟨⟨d, k⟩, hlast, hnumber⟩ := Option.map_eq_some_iff.mp howner
  obtain ⟨hd, hholds⟩ := List.mem_filter.mp (List.mem_of_getLast? hlast)
  -- Both are the symbol of that number.
  have hsame : d = x := by
    rw [List.mem_zipIdx_iff_getElem?] at hd hx
    simp only at hnumber hd hx
    rw [hnumber, hx] at hd
    exact (Option.some.inj hd).symm
  subst hsame
  simp only [holds, Bool.and_eq_true] at hholds
  exact hholds.2.2

/-- A symbol is not asked whether it holds itself.  Where none behind it holds it, the last that
does stands before it. -/
theorem owner?_eq (h : ∀ d ∈ after, ∀ name, holds name d s = false) :
    owner? (before ++ s :: after).zipIdx s before.length =
      s.scope.bind fun name => lastHolder? name before s := by
  unfold owner?
  congr 1
  funext name
  have hbefore : (before.zipIdx.filter fun d => d.2 != before.length && holds name d.1 s) =
      before.zipIdx.filter fun d => holds name d.1 s := by
    apply List.filter_congr
    intro d hd
    have hlt : d.2 < before.length := List.snd_lt_of_mem_zipIdx hd
    simp [Nat.ne_of_lt hlt]
  have hafter : ((after.zipIdx (before.length + 1)).filter
      fun d => d.2 != before.length && holds name d.1 s) = [] := by
    apply List.filter_eq_nil_iff.mpr
    intro d hd
    simp [h d.1 (List.fst_mem_of_mem_zipIdx hd) name]
  rw [List.zipIdx_append, List.filter_append, hbefore, List.zipIdx_cons]
  simp [lastHolder?, hafter]

/-! ## §3 Nested forests -/

/-- The spans of the forest are nested as its items are, and the scope of a symbol is the name of
the item above it. -/
inductive Nested : Option String → List OutlineItem → Prop where
  | nil {scope : Option String} : Nested scope []
  | cons {scope : Option String} {i : OutlineItem} {rest : List OutlineItem}
      (hscope : i.symbol.scope = scope)
      (hproper : i.symbol.span.IsProper)
      (hdefinition : i.children ≠ [] → i.symbol.kind.isDefinition = true)
      (hinside : ∀ t ∈ symbols i.children, i.symbol.span.encloses t.span = true)
      (hsmaller : ∀ t ∈ symbols i.children, t.kind.isDefinition = true →
        t.span.encloses i.symbol.span = false)
      (hapart : ∀ t ∈ symbols rest, i.symbol.span.Apart t.span)
      (hchildren : Nested (some i.symbol.name) i.children)
      (hrest : Nested scope rest) : Nested scope (i :: rest)

/-- The symbol has a proper span inside that of a symbol of the forest. -/
def Covers (f : List OutlineItem) (s : Symbol) : Prop :=
  s.span.IsProper ∧ ∃ t ∈ symbols f, t.span.encloses s.span = true

/-- The symbols in front of a part of a forest and behind it, where the part stands in a scope and
below an owner: whatever stands inside that part is held last, before it, by the owner, and by
nothing behind it. -/
structure Surrounds (scope : Option String) (owner : Option Nat) (before after : List Symbol)
    (f : List OutlineItem) : Prop where
  before : ∀ s, Covers f s → (scope.bind fun name => lastHolder? name before s) = owner
  after : ∀ s, Covers f s → ∀ d ∈ after, ∀ name, holds name d s = false

variable {i : OutlineItem} {rest : List OutlineItem}

theorem Covers.of_children
    (hinside : ∀ t ∈ symbols i.children, i.symbol.span.encloses t.span = true)
    (h : Covers i.children s) : s.span.IsProper ∧ i.symbol.span.encloses s.span = true := by
  obtain ⟨hproper, t, ht, hencloses⟩ := h
  exact ⟨hproper, Span.encloses_trans (hinside t ht) hencloses⟩

theorem covers_first (hproper : s.span.IsProper) (h : i.symbol.span.encloses s.span = true) :
    Covers (i :: rest) s :=
  ⟨hproper, i.symbol, by simp, h⟩

theorem Covers.cons (h : Covers rest s) : Covers (i :: rest) s := by
  obtain ⟨hproper, t, ht, hencloses⟩ := h
  exact ⟨hproper, t, by simp [ht], hencloses⟩

/-- What stands inside the rest of a forest stands outside of its first item. -/
theorem Covers.outside_first (hapart : ∀ t ∈ symbols rest, i.symbol.span.Apart t.span)
    (h : Covers rest s) : i.symbol.span.encloses s.span = false := by
  obtain ⟨hproper, t, ht, hencloses⟩ := h
  apply Bool.eq_false_iff.mpr
  intro hfirst
  have hnot := (hapart t ht).encloses_eq_false hproper hfirst
  rw [hencloses] at hnot
  cases hnot

/-- Below the first item of a forest, that item is the owner. -/
theorem Surrounds.children (h : Surrounds scope owner before after (i :: rest))
    (hdefinition : i.children ≠ [] → i.symbol.kind.isDefinition = true)
    (hinside : ∀ t ∈ symbols i.children, i.symbol.span.encloses t.span = true)
    (hapart : ∀ t ∈ symbols rest, i.symbol.span.Apart t.span) :
    Surrounds (some i.symbol.name) (some before.length) (before ++ [i.symbol])
      (symbols rest ++ after) i.children := by
  constructor
  · intro s hs
    have hsome : i.children ≠ [] := by
      rintro hnil
      simp [Covers, hnil] at hs
    have hencloses := (hs.of_children hinside).2
    exact lastHolder?_concat (by simp [holds, hdefinition hsome, hencloses])
  · intro s hs d hd name
    obtain ⟨hproper, hencloses⟩ := hs.of_children hinside
    rcases List.mem_append.mp hd with hd | hd
    · exact holds_eq_false fun _ => (hapart d hd).encloses_eq_false hproper hencloses
    · exact h.after s (covers_first hproper hencloses) d hd name

/-- Behind the first item of a forest, nothing in it holds anything. -/
theorem Surrounds.behind (h : Surrounds scope owner before after (i :: rest))
    (hinside : ∀ t ∈ symbols i.children, i.symbol.span.encloses t.span = true)
    (hapart : ∀ t ∈ symbols rest, i.symbol.span.Apart t.span) :
    Surrounds scope owner (before ++ i.symbol :: symbols i.children) after rest := by
  constructor
  · intro s hs
    rw [← h.before s hs.cons]
    congr 1
    funext name
    apply lastHolder?_append
    have hfirst := hs.outside_first hapart
    intro d hd
    apply holds_eq_false
    intro _
    rcases List.mem_cons.mp hd with rfl | hd
    · exact hfirst
    · -- What encloses `s` from inside the first item would have the item enclose it.
      apply Bool.eq_false_iff.mpr
      intro hencloses
      rw [Span.encloses_trans (hinside d hd) hencloses] at hfirst
      cases hfirst
  · intro s hs
    exact h.after s hs.cons

/-- The first item of a forest is held by what the forest stands below. -/
theorem Surrounds.owner?_first (h : Surrounds scope owner before after (i :: rest))
    (hscope : i.symbol.scope = scope) (hproper : i.symbol.span.IsProper)
    (hsmaller : ∀ t ∈ symbols i.children, t.kind.isDefinition = true →
      t.span.encloses i.symbol.span = false)
    (hapart : ∀ t ∈ symbols rest, i.symbol.span.Apart t.span) :
    owner? (before ++ i.symbol :: (symbols i.children ++ symbols rest ++ after)).zipIdx i.symbol
      before.length = owner := by
  have hself : Covers (i :: rest) i.symbol := covers_first hproper (Span.encloses_refl _)
  rw [owner?_eq, hscope]
  · exact h.before i.symbol hself
  · intro d hd name
    rcases List.mem_append.mp hd with hd | hd
    · rcases List.mem_append.mp hd with hd | hd
      · exact holds_eq_false (hsmaller d hd)
      · exact holds_eq_false fun _ =>
          (hapart d hd).encloses_eq_false hproper (Span.encloses_refl _)
    · exact h.after i.symbol hself d hd name

/-! ## §4 The owners of a forest -/

/-- The entries of a part of a forest, with their owners looked up among all symbols. -/
theorem map_owner?_symbols {f : List OutlineItem} (hnested : Nested scope f)
    (hall : all = before ++ symbols f ++ after) (h : Surrounds scope owner before after f) :
    ((symbols f).zipIdx before.length).map
        (fun e => (⟨e.1, e.2, owner? all.zipIdx e.1 e.2⟩ : Entry)) =
      listing owner before.length f := by
  induction hnested generalizing owner before after with
  | nil => simp
  | @cons scope i rest hscope hproper hdefinition hinside hsmaller hapart _ _ ihchildren ihrest =>
    have hfirst := h.owner?_first hscope hproper hsmaller hapart
    have hsplit : before ++ i.symbol :: (symbols i.children ++ symbols rest ++ after) = all := by
      simp [hall]
    rw [hsplit] at hfirst
    have hchildren := ihchildren (by simp [hall]) (h.children hdefinition hinside hapart)
    have hrest := ihrest (by simp [hall]) (h.behind hinside hapart)
    rw [List.length_append, List.length_singleton] at hchildren
    rw [List.length_append, List.length_cons, Nat.add_comm (symbols i.children).length,
      ← Nat.add_assoc] at hrest
    rw [symbols_cons, listing_cons, List.zipIdx_cons, List.map_cons, List.zipIdx_append,
      List.map_append, hchildren, hrest, hfirst]

/-- The entries of the symbols of a nested forest are its listing. -/
theorem entries_symbols {f : List OutlineItem} (h : Nested none f) :
    entries (symbols f) = listing none 0 f := by
  have hsurrounds : Surrounds none none [] [] f := by
    constructor
    · simp
    · simp
  exact map_owner?_symbols h (by simp) hsurrounds

end Outline

end Scad
