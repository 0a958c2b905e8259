import Scad.Convert.Program
import Scad.Proofs.Outcome
import Scad.Proofs.Transport.Token

/-!
# Trees Read Back

A tree that was written as JSON is read back as it was, whatever its texts and labels are, as long
as its numbers fit their bits and it does not nest deeper than the reader allows.  A node uses up
one level for itself and one for the lists and positions in it, so that of the levels of arrays and
objects a tree needs twice as many as it has levels of nodes.  A list of named children that is left
out of the text is read as an empty list.

* `ReadsFields` — how the fields of an object are taken one after another.
* `Node.depth`, `Node.FitsWords` — what decides whether a tree can be read back.
* `Node.Abridged` — a tree as it is written, with some lists of named children left out.
* `readNode_answers` — what the reader makes of a written tree, by recursion on the tree.
* `convertText_toJson` — the bound for whole texts.
-/

namespace Scad

namespace Json

variable {α σ : Type}

/-! ## §1 Fields and items -/

/-- The reader of fields takes the fields from a state on, up to the first that is refused. -/
inductive ReadsFields (field : σ → String → Reader σ) :
    σ → List (String × Json) → Except ReadError σ → Prop where
  | done (state : σ) : ReadsFields field state [] (.ok state)
  | next {state : σ} (state' : σ) {name : String} {j : Json} {rest : List (String × Json)}
      {r : Except ReadError σ} (h : Answers (field state name) (':' :: write j) (.ok state'))
      (hrest : ReadsFields field state' rest r) : ReadsFields field state ((name, j) :: rest) r
  | refused {state : σ} {name : String} {j : Json} {e : ReadError}
      (h : Answers (field state name) (':' :: write j) (.error e))
      (rest : List (String × Json)) : ReadsFields field state ((name, j) :: rest) (.error e)

/-- Behind a field stands a comma or the closing brace. -/
theorem exists_behind_field (name : String) (j : Json) (fields : List (String × Json))
    (rest : List Char) :
    ∃ behind, EndsValue behind ∧ writeFields ((name, j) :: fields) ++ '\x7d' :: rest =
      quote name ++ (':' :: write j ++ behind) := by
  cases fields with
  | nil =>
    exact ⟨'\x7d' :: rest, endsValue_cons _ (by simp), by simp [writeFields, writeField]⟩
  | cons f fields =>
    exact ⟨',' :: (writeFields (f :: fields) ++ '\x7d' :: rest), endsValue_cons _ (by simp),
      by simp [writeFields, writeField]⟩

/-- The name in front of a field is taken, and the field is left to its reader. -/
theorem run_fieldsFrom_name (field : σ → String → Reader σ) (fuel : Nat) (state : σ)
    (name : String) (rest : List Char) :
    (fieldsFrom false field (fuel + 1) state).run (quote name ++ rest) =
      (do
        let state ← field state name
        match ← peek with
        | some ',' => drop; fieldsFrom false field fuel state
        | some '\x7d' => drop; return state
        | some _ => throw .malformed
        | none => throw .truncated : Reader σ).run rest := by
  obtain ⟨tail, htail⟩ := quote_eq_cons name rest
  rw [fieldsFrom, htail, run_bind_ok (run_peek _ rfl), ← htail]
  exact run_bind_ok (run_stringToken name rest)

theorem run_fieldsFrom {field : σ → String → Reader σ} {state : σ}
    {fields : List (String × Json)} {r : Except ReadError σ} (h : ReadsFields field state fields r)
    (hne : fields ≠ []) {fuel : Nat} (hfuel : fields.length ≤ fuel) (rest : List Char) :
    (fieldsFrom false field fuel state).run (writeFields fields ++ '\x7d' :: rest) =
      r.map fun a => (a, rest) := by
  induction h generalizing fuel with
  | done => contradiction
  | @next state state' name j fields r h hrest ih =>
    obtain ⟨fuel, rfl⟩ : ∃ m, fuel = m + 1 := ⟨fuel - 1, by simp at hfuel; omega⟩
    cases fields with
    | nil =>
      cases hrest
      have htext : writeFields [(name, j)] ++ '\x7d' :: rest =
          quote name ++ (':' :: write j ++ '\x7d' :: rest) := by
        simp [writeFields, writeField]
      rw [htext, run_fieldsFrom_name, run_bind_ok (h _ (endsValue_cons rest (by simp))),
        run_bind_ok (run_peek _ rfl)]
      rfl
    | cons f fields =>
      have htext : writeFields ((name, j) :: f :: fields) ++ '\x7d' :: rest =
          quote name ++ (':' :: write j ++ ',' :: (writeFields (f :: fields) ++ '\x7d' :: rest)) := by
        simp [writeFields, writeField]
      rw [htext, run_fieldsFrom_name, run_bind_ok (h _ (endsValue_cons _ (by simp))),
        run_bind_ok (run_peek _ rfl)]
      exact ih (by simp) (by simpa using hfuel)
  | @refused state name j e h fields =>
    obtain ⟨fuel, rfl⟩ : ∃ m, fuel = m + 1 := ⟨fuel - 1, by simp at hfuel; omega⟩
    -- What stands behind the field is not reached.
    obtain ⟨behind, hbehind, htext⟩ := exists_behind_field name j fields rest
    rw [htext, run_fieldsFrom_name, run_bind_error (h behind hbehind)]
    rfl

theorem length_le_length_writeFields (fields : List (String × Json)) :
    fields.length ≤ (writeFields fields).length + 1 := by
  induction fields with
  | nil => simp
  | cons f fields ih =>
    cases fields with
    | nil => simp
    | cons g fields =>
      simp only [writeFields, List.length_append, List.length_cons] at ih ⊢
      omega

/-- An object is read as its fields are. -/
theorem answers_fieldsToken {field : σ → String → Reader σ} {state : σ}
    {fields : List (String × Json)} {r : Except ReadError σ} (h : ReadsFields field state fields r)
    (hne : fields ≠ []) : Answers (fieldsToken false field state) (write (object fields)) r := by
  intro rest _
  obtain ⟨tail, htail⟩ : ∃ tail, writeFields fields ++ '\x7d' :: rest = '"' :: tail := by
    obtain ⟨⟨name, j⟩, fields, rfl⟩ := List.exists_cons_of_ne_nil hne
    obtain ⟨behind, -, htext⟩ := exists_behind_field name j fields rest
    rw [htext]
    exact quote_eq_cons name _
  have htext : write (object fields) ++ rest =
      '\x7b' :: (writeFields fields ++ '\x7d' :: rest) := by
    simp [write]
  have hfuel : fields.length ≤ (writeFields fields ++ '\x7d' :: rest).length + 1 := by
    have := length_le_length_writeFields fields
    rw [List.length_append]
    omega
  rw [fieldsToken, htext, run_bind_ok (run_drop _ _), htail, run_bind_ok (run_peek _ rfl), ← htail]
  exact (run_bind_ok (StateT.run_get _)).trans (run_fieldsFrom h hne hfuel rest)

/-- Behind an item stands a comma or the closing bracket. -/
theorem exists_behind_item (j : Json) (items : List Json) (rest : List Char) :
    ∃ behind, EndsValue behind ∧
      writeItems (j :: items) ++ ']' :: rest = write j ++ behind := by
  cases items with
  | nil => exact ⟨']' :: rest, endsValue_cons _ (by simp), by simp [writeItems]⟩
  | cons k items =>
    exact ⟨',' :: (writeItems (k :: items) ++ ']' :: rest), endsValue_cons _ (by simp),
      by simp [writeItems]⟩

/-- The items of a list are taken one after another, up to the first that is refused. -/
theorem run_itemsFrom {item : Reader α} {encode : σ → Json} {result : σ → Except ReadError α}
    {items : List σ} (h : ∀ a ∈ items, Answers item (write (encode a)) (result a))
    (hne : items ≠ []) {fuel : Nat} (hfuel : items.length ≤ fuel) (rest : List Char) :
    (itemsFrom item fuel).run (writeItems (items.map encode) ++ ']' :: rest) =
      (items.mapM result).map fun as => (as, rest) := by
  induction items generalizing fuel with
  | nil => contradiction
  | cons a items ih =>
    obtain ⟨fuel, rfl⟩ : ∃ m, fuel = m + 1 := ⟨fuel - 1, by simp at hfuel; omega⟩
    obtain ⟨ha, hitems⟩ := List.forall_mem_cons.mp h
    rw [itemsFrom, List.mapM_cons]
    cases hr : result a with
    | error e =>
      obtain ⟨behind, hbehind, htext⟩ := exists_behind_item (encode a) (items.map encode) rest
      have hitem := ha behind hbehind
      rw [hr] at hitem
      rw [List.map_cons, htext]
      exact run_bind_error hitem
    | ok a' =>
      cases items with
      | nil =>
        have hitem := ha (']' :: rest) (endsValue_cons rest (by simp))
        rw [hr] at hitem
        simp only [List.map_cons, List.map_nil, writeItems]
        rw [run_bind_ok hitem, run_bind_ok (run_peek _ rfl)]
        rfl
      | cons b items =>
        have hitem := ha (',' :: (writeItems ((b :: items).map encode) ++ ']' :: rest))
          (endsValue_cons _ (by simp))
        rw [hr] at hitem
        have htext : writeItems ((a :: b :: items).map encode) ++ ']' :: rest =
            write (encode a) ++ ',' :: (writeItems ((b :: items).map encode) ++ ']' :: rest) := by
          simp [writeItems]
        have hless : (b :: items).length ≤ fuel := by simpa using hfuel
        have hrest := ih hitems (by simp) hless
        rw [htext, run_bind_ok hitem, run_bind_ok (run_peek _ rfl)]
        cases hmore : (b :: items).mapM result with
        | error e =>
          rw [hmore] at hrest
          exact (run_bind_ok (run_drop _ _)).trans (run_bind_error hrest)
        | ok more =>
          rw [hmore] at hrest
          exact (run_bind_ok (run_drop _ _)).trans (run_bind_ok hrest)

theorem length_le_length_writeItems (items : List Json) :
    items.length ≤ (writeItems items).length + 1 := by
  induction items with
  | nil => simp
  | cons j items ih =>
    cases items with
    | nil => simp
    | cons k items =>
      simp only [writeItems, List.length_append, List.length_cons] at ih ⊢
      omega

/-- The nodes of a list are written one by one. -/
theorem ofNodes_eq_map (nodes : List Node) : ofNodes nodes = nodes.map ofNode := by
  induction nodes with
  | nil => rfl
  | cons n nodes ih => rw [ofNodes, ih, List.map_cons]

/-- A list of objects is read as the nodes that the objects denote. -/
theorem answers_readNodes {levels : Nat} (hlevels : 2 ≤ levels) {node : Reader Node}
    {encode : σ → Json} {result : σ → Except ReadError Node} {items : List σ}
    (hobject : ∀ a ∈ items, ∃ tail, write (encode a) = '\x7b' :: tail)
    (h : ∀ a ∈ items, Answers node (write (encode a)) (result a)) :
    Answers (readNodes levels node) (write (array (items.map encode))) (items.mapM result) := by
  intro rest _
  have htext : write (array (items.map encode)) ++ rest =
      '[' :: (writeItems (items.map encode) ++ ']' :: rest) := by
    simp [write]
  rw [readNodes, htext, run_bind_ok (run_peek _ rfl)]
  simp only [enter, hlevels, if_true]
  rw [itemsToken, run_bind_ok (run_drop _ _)]
  cases items with
  | nil =>
    rw [List.map_nil, writeItems, List.nil_append, run_bind_ok (run_peek _ rfl)]
    rfl
  | cons a items =>
    have hfuel : (a :: items).length ≤
        (writeItems ((a :: items).map encode) ++ ']' :: rest).length + 1 := by
      have := length_le_length_writeItems ((a :: items).map encode)
      rw [List.length_map] at this
      rw [List.length_append]
      omega
    have hitems := run_itemsFrom h (by simp) hfuel rest
    -- The list does not end before its first object.
    obtain ⟨behind, -, hfirst⟩ := exists_behind_item (encode a) (items.map encode) rest
    obtain ⟨tail, htail⟩ := hobject a List.mem_cons_self
    rw [List.map_cons] at hitems ⊢
    rw [hfirst, htail, List.cons_append] at hitems ⊢
    rw [run_bind_ok (run_peek _ rfl)]
    exact (run_bind_ok (StateT.run_get _)).trans hitems

/-! ## §2 Positions -/

theorem exists_write_ofRowColumn (p : Position) :
    ∃ tail, write (ofRowColumn p) = '\x7b' :: tail :=
  ⟨_, by rw [ofRowColumn, write, List.cons_append]⟩

/-- A position takes one level. -/
theorem answers_readRowColumn {p : Position} (hline : p.line < Decimal.wordLimit)
    (hcolumn : p.column < Decimal.wordLimit) {levels : Nat} (hlevels : 2 ≤ levels) :
    Answers (readRowColumn levels) (write (ofRowColumn p)) (.ok (p.line, p.column)) := by
  intro rest hrest
  obtain ⟨tail, htail⟩ := exists_write_ofRowColumn p
  rw [readRowColumn, htail, List.cons_append, run_bind_ok (run_peek _ rfl), ← List.cons_append,
    ← htail]
  simp only [enter, hlevels, if_true]
  refine (run_bind_ok (answers_fieldsToken (r := .ok (some p.line, some p.column)) ?_ (by simp)
    rest hrest)).trans rfl
  refine .next (some p.line, none) ?_ (.next _ ?_ (.done _))
  · exact (answers_readNatural hline).field "row"
  · exact (answers_readNatural hcolumn).field "column"

theorem readRowColumn_refused (p : Position) {levels : Nat} (hlevels : levels < 2) :
    Answers (readRowColumn levels) (write (ofRowColumn p)) (.error .malformed) := by
  intro rest _
  obtain ⟨tail, htail⟩ := exists_write_ofRowColumn p
  have hnot : ¬2 ≤ levels := by omega
  rw [readRowColumn, htail, List.cons_append, run_bind_ok (run_peek _ rfl)]
  simp only [enter, hnot, if_false]
  rfl

end Json

/-! ## §3 How deep a tree is, and how large its numbers are -/

mutual

/-- How many nodes stand inside one another, the node itself included. -/
def Node.depth : Node → Nat
  | ⟨_, _, _, children, named, _, _⟩ => max (listDepth children) (listDepth named) + 1

/-- How many nodes of a list stand inside one another. -/
def Node.listDepth : List Node → Nat
  | [] => 0
  | n :: rest => max n.depth (listDepth rest)

end

theorem Node.depth_eq (n : Node) :
    n.depth = max (listDepth n.children) (listDepth n.named) + 1 := by
  cases n
  rw [depth]

/-- The numbers of the position fit 64 bits. -/
structure Position.FitsWords (p : Position) : Prop where
  line : p.line < Decimal.wordLimit
  column : p.column < Decimal.wordLimit
  offset : p.offset < Decimal.wordLimit

/-- The numbers of the node and of everything inside it fit 64 bits. -/
def Node.FitsWords (n : Node) : Prop :=
  ∀ m : Node, m.Within n → m.span.start.FitsWords ∧ m.span.stop.FitsWords

theorem Node.FitsWords.of_holds {n c : Node} (h : n.FitsWords) (hc : n.Holds c) : c.FitsWords :=
  fun m hm => h m (hm.trans hc.within)

/-! ## §4 Trees with lists left out -/

namespace Json

/-- The fields in front of the lists of a node. -/
def leadFields (n : Node) : List (String × Json) :=
  [("type", string n.tag), ("text", string n.text),
   ("startIndex", natural n.span.start.offset), ("endIndex", natural n.span.stop.offset),
   ("startPosition", ofRowColumn n.span.start), ("endPosition", ofRowColumn n.span.stop)]

/-- The fields behind the lists of a node. -/
def lastFields (n : Node) : List (String × Json) :=
  [("isNamed", bool n.isNamed), ("fieldName", optional string n.label)]

theorem ofNode_eq (n : Node) :
    ofNode n = object (leadFields n ++
      ("children", array (n.children.map ofNode)) ::
        ("namedChildren", array (n.named.map ofNode)) :: lastFields n) := by
  cases n
  rw [ofNode, ofNodes_eq_map, ofNodes_eq_map]
  rfl

end Json

/-- The value is the tree as it is written, with the key `namedChildren` left out wherever one
likes, in the node itself as in the nodes of its lists, as long as `drops` admits the list behind
the key.  Beside the value stands the tree with those lists empty. -/
inductive Node.Abridged (drops : List Node → Prop) : Node → Node × Json → Prop where
  | whole {n : Node} {cs ns : List (Node × Json)}
      (hchildren : List.Forall₂ (Abridged drops) n.children cs)
      (hnamed : List.Forall₂ (Abridged drops) n.named ns) :
    Abridged drops n
      ({ n with children := cs.map Prod.fst, named := ns.map Prod.fst },
        .object (Json.leadFields n ++
          ("children", .array (cs.map Prod.snd)) ::
            ("namedChildren", .array (ns.map Prod.snd)) :: Json.lastFields n))
  | cut {n : Node} {cs : List (Node × Json)}
      (hchildren : List.Forall₂ (Abridged drops) n.children cs) (hdrops : drops n.named) :
    Abridged drops n
      ({ n with children := cs.map Prod.fst, named := [] },
        .object (Json.leadFields n ++
          ("children", .array (cs.map Prod.snd)) :: Json.lastFields n))

namespace Node.Abridged

variable {drops : List Node → Prop} {n : Node} {p : Node × Json}

/-- Nothing needs to be left out. -/
theorem refl (n : Node) : n.Abridged drops (n, Json.ofNode n) := by
  have hlist (l : List Node) (hl : ∀ c ∈ l, sizeOf c < sizeOf n) :
      List.Forall₂ (Abridged drops) l (l.map fun c => (c, Json.ofNode c)) := by
    rw [List.forall₂_map_right_iff, List.forall₂_same]
    intro c hc
    have := hl c hc
    exact refl c
  have hwhole := Abridged.whole (hlist n.children fun _ => sizeOf_lt_of_mem_children)
    (hlist n.named fun _ => sizeOf_lt_of_mem_named)
  have hsame : (⟨n.tag, n.text, n.span, n.children, n.named, n.isNamed, n.label⟩ : Node) = n := by
    cases n
    rfl
  simp only [List.map_map, Function.comp_def, List.map_id', hsame] at hwhole
  rw [Json.ofNode_eq]
  exact hwhole
termination_by sizeOf n

/-- A node is written as an object. -/
theorem exists_write (h : n.Abridged drops p) : ∃ tail, Json.write p.2 = '\x7b' :: tail := by
  cases h <;> exact ⟨_, by rw [Json.write, List.cons_append]⟩

end Node.Abridged

/-! ## §5 Reading a tree -/

namespace Json

/-- What the reader makes of a written tree: the tree itself, where the levels are enough for it.
A node takes two levels, and the last level is never used. -/
def readBack (levels : Nat) (n : Node) : Except ReadError Node :=
  if 2 * n.depth < levels then .ok n else .error .malformed

theorem mapM_readBack {levels : Nat} (hlevels : 0 < levels) (nodes : List Node) :
    nodes.mapM (readBack levels) =
      if 2 * Node.listDepth nodes < levels then .ok nodes else .error .malformed := by
  induction nodes with
  | nil => simp [Node.listDepth, hlevels, pure, Except.pure]
  | cons n nodes ih =>
    rw [List.mapM_cons, ih, readBack, Node.listDepth]
    by_cases hn : 2 * n.depth < levels
    · by_cases hnodes : 2 * Node.listDepth nodes < levels
      · have hmax : 2 * max n.depth (Node.listDepth nodes) < levels := by omega
        rw [if_pos hn, if_pos hnodes, if_pos hmax]
        rfl
      · have hmax : ¬2 * max n.depth (Node.listDepth nodes) < levels := by omega
        rw [if_pos hn, if_neg hnodes, if_neg hmax]
        rfl
    · have hmax : ¬2 * max n.depth (Node.listDepth nodes) < levels := by omega
      rw [if_neg hn, if_neg hmax]
      rfl

section Fields

variable {n : Node} {levels : Nat} {nodes : Reader (List Node)} {rest : List (String × Json)}
  {r : Except ReadError NodeFields}

/-- What is known of a node before its positions. -/
def frontFields (n : Node) : NodeFields where
  tag := some n.tag
  text := some n.text
  startByte := some n.span.start.offset
  stopByte := some n.span.stop.offset

/-- What is known of a node before its children. -/
def placedFields (n : Node) : NodeFields :=
  { frontFields n with
    startPlace := some (n.span.start.line, n.span.start.column)
    stopPlace := some (n.span.stop.line, n.span.stop.column) }

/-- What is known of a node before its name and its label. -/
def listedFields (n : Node) (children : List Node) (named : Option (List Node)) : NodeFields :=
  { placedFields n with children := some children, named }

/-- All that is known of a node in the end. -/
def allFields (n : Node) (children : List Node) (named : Option (List Node)) : NodeFields :=
  { listedFields n children named with isNamed := some n.isNamed, label := some n.label }

theorem readsFields_front (hstart : n.span.start.FitsWords) (hstop : n.span.stop.FitsWords)
    (h : ReadsFields (NodeFields.readField levels nodes) (frontFields n) rest r) :
    ReadsFields (NodeFields.readField levels nodes) {}
      (("type", string n.tag) :: ("text", string n.text) ::
        ("startIndex", natural n.span.start.offset) ::
        ("endIndex", natural n.span.stop.offset) :: rest) r := by
  refine .next { tag := some n.tag } ?_ ?_
  · exact (answers_readString n.tag).field "type"
  refine .next { tag := some n.tag, text := some n.text } ?_ ?_
  · exact (answers_readString n.text).field "text"
  refine .next { frontFields n with stopByte := none } ?_ (.next _ ?_ h)
  · exact (answers_readNatural hstart.offset).field "startIndex"
  · exact (answers_readNatural hstop.offset).field "endIndex"

theorem readsFields_places (hstart : n.span.start.FitsWords) (hstop : n.span.stop.FitsWords)
    (hlevels : 2 ≤ levels)
    (h : ReadsFields (NodeFields.readField levels nodes) (placedFields n) rest r) :
    ReadsFields (NodeFields.readField levels nodes) (frontFields n)
      (("startPosition", ofRowColumn n.span.start) ::
        ("endPosition", ofRowColumn n.span.stop) :: rest) r := by
  refine .next { placedFields n with stopPlace := none } ?_ (.next _ ?_ h)
  · exact (answers_readRowColumn hstart.line hstart.column hlevels).field "startPosition"
  · exact (answers_readRowColumn hstop.line hstop.column hlevels).field "endPosition"

theorem readsFields_last (children : List Node) (named : Option (List Node)) :
    ReadsFields (NodeFields.readField levels nodes) (listedFields n children named)
      (lastFields n) (.ok (allFields n children named)) := by
  refine .next { listedFields n children named with isNamed := some n.isNamed } ?_
    (.next _ ?_ (.done _))
  · exact (answers_readBool n.isNamed).field "isNamed"
  · exact (answers_readString? n.label).field "fieldName"

/-- The lists of a node, of which the first that is refused is told. -/
def bothLists (children named : Except ReadError (List Node)) :
    Except ReadError (List Node × Option (List Node)) := do
  let children ← children
  let named ← named
  return (children, some named)

/-- Where one of the lists is refused, the node is. -/
theorem readsFields_lists {j k : Json} {children named : Except ReadError (List Node)}
    (hchildren : Answers nodes (write j) children) (hnamed : Answers nodes (write k) named) :
    ReadsFields (NodeFields.readField levels nodes) (placedFields n)
      (("children", j) :: ("namedChildren", k) :: lastFields n)
      ((bothLists children named).map fun l => allFields n l.1 l.2) := by
  cases children with
  | error e => exact .refused (hchildren.field "children") _
  | ok children =>
    refine .next (listedFields n children none) ?_ ?_
    · exact hchildren.field "children"
    cases named with
    | error e => exact .refused (hnamed.field "namedChildren") _
    | ok named =>
      refine .next (listedFields n children (some named)) ?_ (readsFields_last _ _)
      exact hnamed.field "namedChildren"

/-- The named children may be left out. -/
theorem readsFields_children {j : Json} {children : Except ReadError (List Node)}
    (hchildren : Answers nodes (write j) children) :
    ReadsFields (NodeFields.readField levels nodes) (placedFields n)
      (("children", j) :: lastFields n)
      ((children.map fun l => (l, none)).map fun l => allFields n l.1 l.2) := by
  cases children with
  | error e => exact .refused (hchildren.field "children") _
  | ok children =>
    refine .next (listedFields n children none) ?_ (readsFields_last _ _)
    exact hchildren.field "children"

end Fields

/-- A node whose fields are all there is complete, and so is one without named children. -/
theorem run_finish (n : Node) (children : List Node) (named : Option (List Node))
    (rest : List Char) :
    (allFields n children named).finish.run rest =
      .ok ({ n with children, named := named.getD [] }, rest) := by
  cases n
  rfl

theorem Answers.finish {reader : Reader NodeFields} {text : List Char} {n : Node}
    {r : Except ReadError (List Node × Option (List Node))}
    (h : Answers reader text (r.map fun l => allFields n l.1 l.2)) :
    Answers (do (← reader).finish) text
      (r.map fun l => { n with children := l.1, named := l.2.getD [] }) := by
  intro rest hrest
  have hreader := h rest hrest
  cases r with
  | error e => exact run_bind_error hreader
  | ok l => exact (run_bind_ok hreader).trans (run_finish n l.1 l.2 rest)

/-- Where nothing is left for the lists and the positions of a node, the node is refused. -/
theorem readNode_refused {text : List Char} (hobject : ∃ tail, text = '\x7b' :: tail) {levels : Nat}
    (hlevels : levels < 2) : Answers (readNode levels) text (.error .malformed) := by
  intro rest _
  obtain ⟨tail, rfl⟩ := hobject
  rw [List.cons_append]
  obtain rfl | rfl : levels = 0 ∨ levels = 1 := by omega
  · rw [readNode, run_bind_ok (run_peek _ rfl)]
    · rfl
    · simp
  · rw [readNode, run_bind_ok (run_peek _ rfl)]
    · rfl
    · simp

/-- A list of nodes is read where its deepest node is. -/
theorem answers_nodes {drops : List Node → Prop} {l : List Node} {cs : List (Node × Json)}
    (hcs : List.Forall₂ (Node.Abridged drops) l cs) {levels : Nat} (hlevels : 0 < levels)
    {node : Reader Node}
    (hnode : ∀ c ∈ l, ∀ p, c.Abridged drops p → Answers node (write p.2) (readBack levels p.1)) :
    Answers (readNodes (levels + 1) node) (write (array (cs.map Prod.snd)))
      (if 2 * Node.listDepth (cs.map Prod.fst) < levels then .ok (cs.map Prod.fst)
        else .error .malformed) := by
  have hof := Conversion.Meets.exists_of_forall₂ hcs
  rw [← mapM_readBack hlevels, List.mapM_map]
  apply answers_readNodes (by omega)
  · intro p hp
    obtain ⟨c, -, h⟩ := hof p hp
    exact h.exists_write
  · intro p hp
    obtain ⟨c, hc, h⟩ := hof p hp
    exact hnode c hc p h

/-- A node fits where its lists do, which have two levels less. -/
theorem readBack_node (n : Node) (levels : Nat) :
    readBack (levels + 2) n =
      (if 2 * Node.listDepth n.children < levels ∧ 2 * Node.listDepth n.named < levels then .ok n
        else .error .malformed) := by
  have hdepth := n.depth_eq
  rw [readBack]
  congr 1
  apply propext
  omega

/-- Two lists that are read as far as the levels go make a node that is. -/
theorem readBack_lists (n : Node) (children named : List Node) (levels : Nat) :
    (bothLists (if 2 * Node.listDepth children < levels then .ok children else .error .malformed)
        (if 2 * Node.listDepth named < levels then .ok named else .error .malformed)).map
      (fun l => { n with children := l.1, named := l.2.getD [] }) =
        readBack (levels + 2) { n with children, named } := by
  rw [readBack_node]
  by_cases hdeep : 2 * Node.listDepth children < levels
  · by_cases hwide : 2 * Node.listDepth named < levels
    · rw [if_pos hdeep, if_pos hwide, if_pos ⟨hdeep, hwide⟩]
      rfl
    · rw [if_pos hdeep, if_neg hwide, if_neg fun h => hwide h.2]
      rfl
  · have hnode : ¬(2 * Node.listDepth children < levels ∧ 2 * Node.listDepth named < levels) :=
      fun h => hdeep h.1
    rw [if_neg hdeep, if_neg hnode]
    rfl

/-- One list that is read as far as the levels go makes a node without named children. -/
theorem readBack_children (n : Node) (children : List Node) {levels : Nat} (hlevels : 0 < levels) :
    ((if 2 * Node.listDepth children < levels then .ok children
        else .error .malformed : Except ReadError (List Node)).map fun l => (l, none)).map
      (fun l => { n with children := l.1, named := l.2.getD [] }) =
        readBack (levels + 2) { n with children, named := [] } := by
  rw [readBack_node]
  by_cases hdeep : 2 * Node.listDepth children < levels
  · rw [if_pos hdeep, if_pos ⟨hdeep, hlevels⟩]
    rfl
  · rw [if_neg hdeep, if_neg fun h => hdeep h.1]
    rfl

/-- With two levels left for the object of a node, already its first position is one too deep. -/
theorem answers_object_refused {drops : List Node → Prop} {n : Node} {p : Node × Json}
    (hp : n.Abridged drops p) (hstart : n.span.start.FitsWords) (hstop : n.span.stop.FitsWords)
    {node : Reader Node} :
    Answers
      (do (← fieldsToken false (NodeFields.readField 1 (readNodes 1 node)) {}).finish)
      (write p.2) (readBack 2 p.1) := by
  have hresult : readBack 2 p.1 = .error .malformed :=
    (readBack_node p.1 0).trans (if_neg (by omega))
  have hrefused (rest : List (String × Json)) :
      ReadsFields (NodeFields.readField 1 (readNodes 1 node)) {} (leadFields n ++ rest)
        (.error .malformed) :=
    readsFields_front hstart hstop
      (.refused ((readRowColumn_refused _ (by omega)).field "startPosition") _)
  rw [hresult]
  cases hp <;> exact Answers.finish (n := n) (r := .error .malformed)
    (answers_fieldsToken (hrefused _) (by simp [leadFields]))

/-- The object of a node is read as far as the levels go. -/
theorem answers_object {drops : List Node → Prop} {n : Node} {p : Node × Json}
    (hp : n.Abridged drops p) (hstart : n.span.start.FitsWords) (hstop : n.span.stop.FitsWords)
    {levels : Nat} {node : Reader Node}
    (hnode : ∀ c, n.Holds c → ∀ p, c.Abridged drops p →
      Answers node (write p.2) (readBack levels p.1)) :
    Answers
      (do (← fieldsToken false (NodeFields.readField (levels + 1)
        (readNodes (levels + 1) node)) {}).finish)
      (write p.2) (readBack (levels + 2) p.1) := by
  obtain rfl | hlevels := Nat.eq_zero_or_pos levels
  · exact answers_object_refused hp hstart hstop
  have hleft : 2 ≤ levels + 1 := by omega
  cases hp with
  | @whole _ cs ns hchildren hnamed =>
    have hcs := answers_nodes hchildren hlevels fun c hc => hnode c (.inl hc)
    have hns := answers_nodes hnamed hlevels fun c hc => hnode c (.inr hc)
    have hfields := readsFields_front hstart hstop <| readsFields_places hstart hstop hleft <|
      readsFields_lists (n := n) hcs hns
    rw [← readBack_lists]
    exact (answers_fieldsToken hfields (by simp)).finish
  | @cut _ cs hchildren _ =>
    have hcs := answers_nodes hchildren hlevels fun c hc => hnode c (.inl hc)
    have hfields := readsFields_front hstart hstop <| readsFields_places hstart hstop hleft <|
      readsFields_children (n := n) hcs
    rw [← readBack_children n _ hlevels]
    exact (answers_fieldsToken hfields (by simp)).finish

/-- The reader of nodes gives a written tree back, where its levels are enough for the tree, and
refuses it otherwise. -/
theorem readNode_answers {drops : List Node → Prop} {n : Node} (h : n.FitsWords)
    {p : Node × Json} (hp : n.Abridged drops p) (levels : Nat) :
    Answers (readNode levels) (write p.2) (readBack levels p.1) := by
  obtain ⟨hstart, hstop⟩ := h n (.refl n)
  match levels with
  | 0 | 1 =>
    have hdepth := p.1.depth_eq
    rw [readBack, if_neg (by omega)]
    exact readNode_refused hp.exists_write (by omega)
  | levels + 2 =>
    have hnode (c : Node) (hc : n.Holds c) (q : Node × Json) (hq : c.Abridged drops q) :
        Answers (readNode levels) (write q.2) (readBack levels q.1) := by
      have hsize : sizeOf c < sizeOf n :=
        hc.elim Node.sizeOf_lt_of_mem_children Node.sizeOf_lt_of_mem_named
      exact readNode_answers (h.of_holds hc) hq levels
    intro rest hrest
    obtain ⟨tail, htail⟩ := hp.exists_write
    have hobject := answers_object hp hstart hstop hnode rest hrest
    rw [htail, List.cons_append] at hobject ⊢
    rw [readNode, run_bind_ok (run_peek _ rfl)]
    exact hobject
termination_by sizeOf n

end Json

/-! ## §6 Whole texts -/

/-- A written tree is the whole text, so nothing is left behind it. -/
theorem Node.Abridged.read_text {drops : List Node → Prop} {n : Node} {p : Node × Json}
    (hp : n.Abridged drops p) (h : n.FitsWords) :
    read p.2.text = Json.readBack Json.depthLimit p.1 := by
  have hread := Json.readNode_answers h hp Json.depthLimit [] Json.endsValue_nil
  rw [List.append_nil] at hread
  unfold read Json.readWith Json.text
  rw [String.toList_ofList]
  generalize Json.readBack Json.depthLimit p.1 = r at hread
  cases r with
  | error e => rw [Json.run_bind_error hread]; rfl
  | ok n => rw [Json.run_bind_ok hread]; rfl

theorem Node.read_toJson {n : Node} (h : n.FitsWords) :
    read n.toJson.text = Json.readBack Json.depthLimit n := by
  have hwhole : n.Abridged (fun _ => False) (n, n.toJson) := .refl n
  exact hwhole.read_text h

namespace Convert

/-- A tree that was written as JSON is read back as it was and converted as it is, if at most 63
nodes stand inside one another, counted through the children and through the named children; where
64 do, its text is refused.  All texts and labels are admitted, and all numbers of 64 bits. -/
theorem convertText_toJson {n : Node} (h : n.FitsWords) :
    (n.depth ≤ 63 → Node.read n.toJson.text = .ok n ∧
        convertText n.toJson.text = .ok (convert {} n)) ∧
      (64 ≤ n.depth → convertText n.toJson.text = .error .malformed) := by
  have hread := Node.read_toJson h
  unfold convertText
  rw [hread, Json.readBack, Json.depthLimit]
  constructor
  · intro hdepth
    rw [if_pos (by omega)]
    exact ⟨rfl, rfl⟩
  · intro hdepth
    rw [if_neg (by omega)]
    rfl

/-- A leaf with texts that have to be escaped, and with the largest numbers. -/
def awkwardLeaf : Node where
  tag := "string"
  text := "\"é\\\n\x01𝄞\""
  span := ⟨⟨0, 0, 0⟩, ⟨Decimal.wordLimit - 1, Decimal.wordLimit - 1, Decimal.wordLimit - 1⟩⟩
  label := some "\tvalue"

/-- Nodes inside one another, each among the named children of the one around it alone. -/
def tower : Nat → Node
  | 0 => awkwardLeaf
  | k + 1 =>
    { awkwardLeaf with
      tag := "expression", children := [awkwardLeaf], named := [tower k], isNamed := false }

theorem tower_fitsWords (k : Nat) : (tower k).FitsWords := by
  have hspan : awkwardLeaf.span.start.FitsWords ∧ awkwardLeaf.span.stop.FitsWords :=
    ⟨⟨by decide, by decide, by decide⟩, ⟨by decide, by decide, by decide⟩⟩
  have hleaf : awkwardLeaf.FitsWords := by
    intro m hm
    cases hm with
    | refl => exact hspan
    | step hc _ => exact absurd hc (by simp [Node.Holds, awkwardLeaf])
  induction k with
  | zero => exact hleaf
  | succ k ih =>
    intro m hm
    cases hm with
    | refl => exact hspan
    | step hc hm =>
      rcases hc with hc | hc
      · obtain rfl := List.mem_singleton.mp hc
        exact hleaf m hm
      · obtain rfl := List.mem_singleton.mp hc
        exact ih m hm

theorem depth_tower (k : Nat) : (tower k).depth = k + 1 := by
  induction k with
  | zero => rfl
  | succ k ih =>
    have hleaf : awkwardLeaf.depth = 1 := rfl
    rw [Node.depth_eq]
    simp only [tower, Node.listDepth, ih, hleaf]
    omega

theorem convertText_toJson_tower :
    (tower 62).FitsWords ∧ (tower 62).depth = 63 ∧
      convertText (tower 62).toJson.text = .ok (convert {} (tower 62)) ∧
      (tower 63).FitsWords ∧ (tower 63).depth = 64 ∧
      convertText (tower 63).toJson.text = .error .malformed :=
  ⟨tower_fitsWords 62, depth_tower 62,
    ((convertText_toJson (tower_fitsWords 62)).1 (Nat.le_of_eq (depth_tower 62))).2,
    tower_fitsWords 63, depth_tower 63,
    (convertText_toJson (tower_fitsWords 63)).2 (Nat.le_of_eq (depth_tower 63).symm)⟩

end Convert

end Scad
