import Scad.Proofs.Bodies.Header
import Scad.Proofs.Reporting
import Scad.Proofs.Success

/-!
# Broken Bodies

A broken body never breaks its owner.  What fails in it stays in the body of the owner, as a fault
at the place of the statement that failed.

* `Convert.outcome`, `Convert.held` — what a statement leaves where it stands in a list, and what it
  leaves as a body.
* `Statement.bodies` — the bodies of a statement, one for each entry of `Node.bodyLabels`.
* `statement_bodies` — an owner that is converted holds what its bodies leave.
* `statement_brokenBody` — both halves: the owner fails as if its bodies were others, and shows what
  is broken in them.
-/

namespace Scad

/-! ## §1 Bodies of statements -/

namespace Statement

/-- Whether the statement is a predefined shape, which has no children. -/
def isPrimitive : Statement → Bool
  | primitive .. => true
  | _ => false

/-- The bodies that a statement holds.  A block that is a body by itself is opened up. -/
def bodies : Statement → List (List Statement)
  | moduleDefinition _ _ _ inner _ | call _ _ _ inner _ | transform _ inner _ | csg _ inner _
  | loop _ inner _ | letIn _ inner _ => [inner]
  | branch _ consequence alternative _ => [consequence, alternative.getD []]
  | assertion _ _ inner _ | assign _ inner _ | echo _ inner _ => [(inner.map opened).getD []]
  | _ => []

end Statement

namespace Convert

open Conversion Node

variable {n : Node} {settings : Settings} {s : Statement}

/-! ## §2 What a statement leaves -/

/-- What a statement leaves where it stands in a list: what it converts to, or its fault. -/
def outcome (settings : Settings) (m : Node) : Option Statement :=
  match (statement .complete m).result settings with
  | .ok converted => converted
  | .error f => some (.fault f)

/-- What a statement leaves as a body. -/
def held (settings : Settings) (m : Node) : List Statement :=
  ((outcome settings m).map Statement.opened).getD []

theorem result_orFault (m : Node) :
    (orFault (statement .complete m)).result settings = .ok (outcome settings m) := by
  unfold orFault outcome
  rw [result_bind, result_settle]
  cases (statement .complete m).result settings with
  | ok converted => rfl
  | error f => rfl

theorem result_significantStatements (m : Node) :
    (significantStatements m (inner .complete m)).result settings =
      .ok ((m.significant.map Part.node).filterMap (outcome settings)) := by
  have hlist : (m.significant.mapM fun p => orFault (inner .complete m p)).result settings =
      .ok (m.significant.map fun p => outcome settings p.node) :=
    result_mapM m.significant fun p _ => result_orFault p.node
  unfold significantStatements statements
  rw [result_bind, hlist]
  simp [List.filterMap_map]

/-- The program of a file is what its statements leave. -/
theorem program_eq_filterMap {root : Node} (h : root.kind = .sourceFile) (settings : Settings) :
    (convert settings root).program =
      (root.significant.map Part.node).filterMap (outcome settings) := by
  have hroot := result_rootStatements settings root
  unfold rootStatements at hroot
  rw [if_pos (by simp [h]), result_significantStatements] at hroot
  exact (Except.ok.inj hroot).symm

/-- A block leaves what its statements leave, in their order. -/
theorem outcome_of_block {m : Node} (h : m.kind = .block) :
    outcome settings m =
      some (.block ((m.significant.map Part.node).filterMap (outcome settings)) m.span) := by
  have hstatement : statement .complete m = blockStatement m (inner .complete m) := by
    rw [statement_eq]
    simp [statementStep, commonStep, h]
  conv_lhs => rw [outcome, hstatement, blockStatement, result_bind, result_significantStatements]
  rfl

theorem result_partBody (p : n.Part) :
    (partBody (inner .complete n) p).result settings = .ok (held settings p.node) := by
  rw [partBody, body_eq]
  split
  · next hblock =>
    have hheld : held settings p.node =
        (p.node.significant.map Part.node).filterMap (outcome settings) := by
      rw [held, outcome_of_block (by simpa using hblock)]
      rfl
    rw [hheld]
    exact result_significantStatements p.node
  · rw [result_bind]
    have hwhole : (orFault (inner .complete n p)).result settings = .ok (outcome settings p.node) :=
      result_orFault p.node
    rw [hwhole]
    rfl

theorem result_bodyOf (p : n.Part) :
    (bodyOf (inner .complete n) (some p)).result settings = .ok (held settings p.node) :=
  result_partBody p

theorem result_singleBody (p : n.Part) :
    (singleBody (inner .complete n) (some p)).result settings = .ok (outcome settings p.node) :=
  result_orFault p.node

/-! ## §3 Owners -/

/-- The body holds what the part under the labels leaves. -/
def Fills (settings : Settings) (n : Node) (labels : List String) (inner : List Statement) : Prop :=
  ∀ p, n.anyField? labels = some p → inner = held settings p.node

theorem fills_of_bodyOf {labels : List String} {x : Option n.Part} {inner' : List Statement}
    (h : (bodyOf (inner .complete n) x).result settings = .ok inner')
    (hx : ∀ p, n.anyField? labels = some p → x = some p) : Fills settings n labels inner' := by
  intro p hp
  rw [hx p hp, result_bodyOf] at h
  exact (Except.ok.inj h).symm

theorem fills_of_singleBody {labels : List String} {x : Option n.Part} {inner' : Option Statement}
    (h : (singleBody (inner .complete n) x).result settings = .ok inner')
    (hx : ∀ p, n.anyField? labels = some p → x = some p) :
    Fills settings n labels ((inner'.map Statement.opened).getD []) := by
  intro p hp
  rw [hx p hp, result_singleBody] at h
  rw [← Except.ok.inj h]
  rfl

theorem field?_or {label : String} {x : Option n.Part} (p : n.Part)
    (hp : n.anyField? [label] = some p) : (n.field? label).or x = some p := by
  have hfield : n.field? label = some p := by simpa [anyField?] using hp
  rw [hfield, Option.some_or]

theorem trailing?_of_labelled {labels : List String} (p : n.Part)
    (hp : n.anyField? labels = some p) : trailing? n labels = some p := by
  unfold trailing?
  rw [hp]

theorem moduleDefinition_bodies
    (h : (moduleDefinition n (inner .complete n)).result settings = .ok (some s)) :
    List.Forall₂ (Fills settings n) [["body"]] s.bodies := by
  unfold moduleDefinition at h
  obtain ⟨name, -, h⟩ := exists_of_bind_ok h
  obtain ⟨parameters, -, h⟩ := exists_of_bind_ok h
  obtain ⟨inner', hinner, h⟩ := exists_of_bind_ok h
  cases h
  exact .cons (fills_of_bodyOf hinner field?_or) .nil

theorem forStatement_bodies
    (h : (forStatement n (inner .complete n)).result settings = .ok (some s)) :
    List.Forall₂ (Fills settings n) [["body"]] s.bodies := by
  unfold forStatement at h
  obtain ⟨bound, -, h⟩ := exists_of_bind_ok h
  obtain ⟨last, -, h⟩ := exists_of_bind_ok h
  obtain ⟨inner', hinner, h⟩ := exists_of_bind_ok h
  cases h
  exact .cons (fills_of_bodyOf hinner field?_or) .nil

theorem letStatement_bodies
    (h : (letStatement n (inner .complete n)).result settings = .ok (some s)) :
    List.Forall₂ (Fills settings n) [["body"]] s.bodies := by
  unfold letStatement at h
  obtain ⟨bound, -, h⟩ := exists_of_bind_ok h
  obtain ⟨inner', hinner, h⟩ := exists_of_bind_ok h
  cases h
  exact .cons (fills_of_bodyOf hinner field?_or) .nil

theorem ifStatement_bodies
    (h : (ifStatement n (inner .complete n)).result settings = .ok (some s)) :
    List.Forall₂ (Fills settings n) [["consequence"], ["alternative"]] s.bodies := by
  unfold ifStatement at h
  obtain ⟨condition, -, h⟩ := exists_of_bind_ok h
  obtain ⟨value, -, h⟩ := exists_of_bind_ok h
  obtain ⟨ss, hss, h⟩ := exists_of_bind_ok h
  have hconsequence : Fills settings n ["consequence"] ss := fills_of_bodyOf hss field?_or
  cases hfield : n.field? "alternative" with
  | some p =>
    simp only [hfield, Option.some_or] at h
    obtain ⟨ts, hts, h⟩ := exists_of_bind_ok h
    rw [result_map, result_partBody] at hts
    cases hts
    cases h
    refine .cons hconsequence (.cons (fun q hq => ?_) .nil)
    obtain rfl : p = q := by simpa [anyField?, hfield] using hq
    rfl
  | none =>
    -- An alternative without its label is not looked for here.
    have halternative (ts : List Statement) : Fills settings n ["alternative"] ts := by
      intro q hq
      simp [anyField?, hfield] at hq
    dsimp only at h
    split at h
    · obtain ⟨ts, -, h⟩ := exists_of_bind_ok h
      cases h
      exact .cons hconsequence (.cons (halternative _) .nil)
    · cases h
      exact .cons hconsequence (.cons (halternative _) .nil)

theorem echoStatement_bodies
    (h : (echoStatement n (inner .complete n)).result settings = .ok (some s)) :
    List.Forall₂ (Fills settings n) [["statement", "body"]] s.bodies := by
  unfold echoStatement at h
  obtain ⟨args, -, h⟩ := exists_of_bind_ok h
  obtain ⟨single, hsingle, h⟩ := exists_of_bind_ok h
  cases h
  exact .cons (fills_of_singleBody hsingle trailing?_of_labelled) .nil

theorem assertStatement_bodies
    (h : (assertStatement n (inner .complete n)).result settings = .ok (some s)) :
    List.Forall₂ (Fills settings n) [["statement", "body"]] s.bodies := by
  unfold assertStatement at h
  generalize assertParts n = parts at h
  obtain ⟨condition, message⟩ := parts
  cases condition with
  | none =>
    -- Without a condition there is only a remark, and no statement.
    obtain ⟨_, -, h⟩ := exists_of_bind_ok h
    cases h
  | some condition =>
    obtain ⟨value, -, h⟩ := exists_of_bind_ok h
    obtain ⟨message, -, h⟩ := exists_of_bind_ok h
    obtain ⟨single, hsingle, h⟩ := exists_of_bind_ok h
    cases h
    exact .cons (fills_of_singleBody hsingle trailing?_of_labelled) .nil

theorem assignStatement_bodies
    (h : (assignStatement n (inner .complete n)).result settings = .ok (some s)) :
    List.Forall₂ (Fills settings n) [["statement", "block", "body"]] s.bodies := by
  unfold assignStatement at h
  obtain ⟨_, -, h⟩ := exists_of_bind_ok h
  obtain ⟨groups, -, h⟩ := exists_of_bind_ok h
  obtain ⟨single, hsingle, h⟩ := exists_of_bind_ok h
  cases h
  exact .cons (fills_of_singleBody hsingle fun p hp => by rw [hp, Option.some_or]) .nil

/-- Whatever a call means, it holds its children, unless it is a shape. -/
theorem predefinedCall_bodies {name : String} {args : List Argument}
    (h : (predefinedCall n (inner .complete n) name args).result settings = .ok s)
    (hshape : s.isPrimitive = false) :
    List.Forall₂ (Fills settings n) [["body"]] s.bodies := by
  have hchildren {ss : List Statement}
      (hss : (callChildren n (inner .complete n)).result settings = .ok ss) :
      List.Forall₂ (Fills settings n) [["body"]] [ss] :=
    .cons (fills_of_bodyOf hss trailing?_of_labelled) .nil
  unfold predefinedCall at h
  split at h
  -- A shape.
  · split at h
    · obtain ⟨_, -, h⟩ := exists_of_bind_ok h
      obtain ⟨_, -, h⟩ := exists_of_bind_ok h
      cases h
      cases hshape
    · obtain ⟨_, -, h⟩ := exists_of_bind_ok h
      cases h
      cases hshape
  -- A transform, an operation, an echo, and a call of an unknown module.
  · split at h
    · obtain ⟨_, -, h⟩ := exists_of_bind_ok h
      obtain ⟨ss, hss, h⟩ := exists_of_bind_ok h
      cases h
      exact hchildren hss
    · split at h
      · obtain ⟨ss, hss, h⟩ := exists_of_bind_ok h
        cases h
        exact hchildren hss
      · split at h
        · obtain ⟨single, hsingle, h⟩ := exists_of_bind_ok h
          cases h
          exact .cons (fills_of_singleBody hsingle trailing?_of_labelled) .nil
        · obtain ⟨ss, hss, h⟩ := exists_of_bind_ok h
          cases h
          exact hchildren hss

theorem callStatement_bodies
    (h : (callStatement .complete n (inner .complete n)).result settings = .ok (some s))
    (hshape : s.isPrimitive = false) :
    List.Forall₂ (Fills settings n) [["body"]] s.bodies := by
  unfold callStatement at h
  cases hcallee : callee? n with
  | none =>
    -- Nor is there one without a name.
    rw [hcallee] at h
    obtain ⟨_, -, h⟩ := exists_of_bind_ok h
    cases h
  | some callee =>
    rw [hcallee] at h
    obtain ⟨args, -, h⟩ := exists_of_bind_ok h
    simp only [← bind_pure_comp] at h
    obtain ⟨s', hs, h⟩ := exists_of_bind_ok h
    cases h
    exact predefinedCall_bodies hs hshape

theorem moduleCall_bodies (hkind : n.kind = .moduleInstantiation)
    (h : (moduleCall n (inner .complete n)).result settings = .ok (some s))
    (hshape : s.isPrimitive = false) :
    List.Forall₂ (Fills settings n) n.bodyLabels s.bodies := by
  unfold moduleCall at h
  simp only [bodyLabels, hkind]
  split at h
  · next hcalled =>
    have hassign : n.calledAs? = some "assign" := hcalled
    rw [if_pos hassign]
    exact assignStatement_bodies h
  · next hcalled =>
    have hassert : n.calledAs? = some "assert" := hcalled
    rw [hassert, if_neg (by decide), if_pos rfl]
    exact assertStatement_bodies h
  · next hassign hassert =>
    have hassign : n.calledAs? ≠ some "assign" := hassign
    have hassert : n.calledAs? ≠ some "assert" := hassert
    rw [if_neg hassign, if_neg hassert]
    exact callStatement_bodies h hshape

/-- An owner that is converted to anything but a shape holds what its bodies leave. -/
theorem statement_bodies (howns : n.kind.ownsBodies = true)
    (h : (statement .complete n).result settings = .ok (some s)) (hshape : s.isPrimitive = false) :
    List.Forall₂ (Fills settings n) n.bodyLabels s.bodies := by
  rw [statement_eq] at h
  unfold statementStep commonStep at h
  unfold bodyLabels
  revert h
  cases hkind : n.kind with
  | moduleDefinition => exact moduleDefinition_bodies
  | moduleInstantiation =>
    intro h
    simpa only [bodyLabels, hkind] using moduleCall_bodies hkind h hshape
  | ifStatement => exact ifStatement_bodies
  | forStatement => exact forStatement_bodies
  | letStatement => exact letStatement_bodies
  | echoStatement => exact echoStatement_bodies
  | assertStatement => exact assertStatement_bodies
  | assignStatement => exact assignStatement_bodies
  | _ => simp [hkind, Kind.ownsBodies] at howns

/-! ## §4 What is broken in a body -/

/-- The list shows what fails in the body `p`: its fault alone, where the body as a whole fails, and
the fault of a statement of a block between what the statements around it leave.  The block may stand
in wrappers, which convert as it does. -/
structure Shows (settings : Settings) (p : Node) (ss : List Statement) : Prop where
  whole : ∀ f, (statement .complete p).result settings = .error f → ss = [.fault f]
  part : ∀ block : Node, block.kind = .block →
    (statement .complete p).result settings = (statement .complete block).result settings →
      ∀ before c after f, block.significant.map Part.node = before ++ c :: after →
        (statement .complete c).result settings = .error f →
          ss = before.filterMap (outcome settings) ++
            .fault f :: after.filterMap (outcome settings)

theorem shows_held (p : Node) : Shows settings p (held settings p) where
  whole f hf := by
    rw [held, outcome, hf]
    rfl
  part block hblock hp before c after f hparts hf := by
    have hc : outcome settings c = some (.fault f) := by rw [outcome, hf]
    have hsame : outcome settings p = outcome settings block := by rw [outcome, hp, outcome]
    rw [held, hsame, outcome_of_block hblock, hparts, List.filterMap_append,
      List.filterMap_cons_some hc]
    rfl

/-- A broken body never breaks its owner.  With other statements in the place of its bodies an owner
fails as it did, and with the same fault.  Where it is converted, and to anything but a shape, what
fails in a body that is found by its label stays in that body, at its place. -/
theorem statement_brokenBody (howns : n.kind.ownsBodies = true) (settings : Settings) :
    (∀ n', n.Rebodied n' → ∀ f, (statement .complete n).result settings = .error f ↔
        (statement .complete n').result settings = .error f) ∧
      ∀ s, (statement .complete n).result settings = .ok (some s) → s.isPrimitive = false →
        List.Forall₂ (fun labels ss => ∀ p, n.anyField? labels = some p → Shows settings p.node ss)
          n.bodyLabels s.bodies := by
  refine ⟨fun n' h f => statement_failsAs howns h settings f, fun s hs hshape => ?_⟩
  refine (statement_bodies howns hs hshape).imp fun labels ss hfills p hp => ?_
  rw [hfills p hp]
  exact shows_held p.node

/-- An `if` without a condition. -/
def bareIf : Node where
  tag := "if_statement"
  text := "if"
  span := ⟨⟨0, 4, 4⟩, ⟨0, 6, 6⟩⟩
  label := some "body"

/-- A block around it. -/
def bareIfBlock : Node :=
  { bareIf with tag := "block", children := [bareIf], named := [bareIf] }

/-- A `let` without bindings around a body. -/
def bareLet (child : Node) : Node where
  tag := "let_statement"
  text := "let if"
  span := ⟨⟨0, 0, 0⟩, ⟨0, 6, 6⟩⟩
  children := [child]
  named := [child]

/-- The fault of the `if`. -/
def bareIfFault : Fault :=
  Problem.ifWithoutCondition.fault bareIf {}

theorem result_bareIf : (statement .complete bareIf).result {} = .error bareIfFault := by
  rw [statement_eq]
  rfl

theorem held_bareIfBlock : held {} bareIfBlock = [.fault bareIfFault] := by
  have hif : outcome {} bareIf = some (.fault bareIfFault) := by rw [outcome, result_bareIf]
  have hparts : bareIfBlock.significant.map Part.node = [bareIf] := rfl
  rw [held, outcome_of_block (by decide), hparts, List.filterMap_cons_some hif]
  rfl

theorem result_bareLet :
    (statement .complete (bareLet bareIfBlock)).result {} =
      .ok (some (.letIn [] [.fault bareIfFault] ⟨⟨0, 0, 0⟩, ⟨0, 6, 6⟩⟩)) := by
  have hbindings : (bindings (bareLet bareIfBlock) (expressions _)).result {} = .ok [] := by
    rw [bindings]
    rfl
  have hbody : (bodyOf (inner .complete (bareLet bareIfBlock))
      ((bareLet bareIfBlock).field? "body")).result {} = .ok [.fault bareIfFault] := by
    rw [← held_bareIfBlock]
    exact result_bodyOf ⟨bareIfBlock, sizeOf_lt_of_mem_children List.mem_cons_self⟩
  rw [statement_eq]
  show (letStatement _ _).result {} = _
  rw [letStatement, result_bind, hbindings]
  show (bodyOf _ ((bareLet bareIfBlock).field? "body") >>= _).result {} = _
  rw [result_bind, hbody]
  rfl

theorem rebodied_bareLet : (bareLet bareIfBlock).Rebodied (bareLet bareIf) := by
  have hreplaces : (bareLet bareIfBlock).Replaces bareIfBlock bareIf :=
    ⟨by decide, by decide, rfl, rfl, ⟨"body", by decide, rfl⟩, fun _ => rfl⟩
  exact ⟨rfl, .cons (.inr hreplaces) .nil, .cons (.inr hreplaces) .nil⟩

/-- The body may become one that fails as a whole; what fails in the block stays there. -/
theorem statement_brokenBody_bareLet :
    (bareLet bareIfBlock).Rebodied (bareLet bareIf) ∧
      (∀ f, (statement .complete (bareLet bareIfBlock)).result {} = .error f ↔
        (statement .complete (bareLet bareIf)).result {} = .error f) ∧
      (statement .complete (bareLet bareIfBlock)).result {} =
        .ok (some (.letIn [] [.fault bareIfFault] ⟨⟨0, 0, 0⟩, ⟨0, 6, 6⟩⟩)) ∧
      List.Forall₂ (fun labels ss => ∀ p, (bareLet bareIfBlock).anyField? labels = some p →
        Shows {} p.node ss) [["body"]] [[.fault bareIfFault]] := by
  obtain ⟨hfails, hshows⟩ := statement_brokenBody (n := bareLet bareIfBlock) (by decide) {}
  exact ⟨rebodied_bareLet, hfails _ rebodied_bareLet, result_bareLet,
    hshows _ result_bareLet rfl⟩

/-! ## §5 A body that is a comma -/

/-- A token under the label of a body, whose tag is that of a block. -/
def tokenBody (text : String) : Node where
  tag := "block"
  text := text
  span := ⟨⟨0, 8, 8⟩, ⟨0, 9, 9⟩⟩
  isNamed := false
  label := some "body"

/-- What an assertion asserts. -/
def assertedName : Node where
  tag := "identifier"
  text := "a"
  span := ⟨⟨0, 7, 7⟩, ⟨0, 8, 8⟩⟩

/-- A number that cannot be read. -/
def brokenNumber : Node where
  tag := "number"
  text := "1_0"
  span := ⟨⟨0, 10, 10⟩, ⟨0, 13, 13⟩⟩

/-- An assertion without labels on its condition or its message, and with a body between them. -/
def assertion (child : Node) : Node where
  tag := "assert_statement"
  text := "assert a;,1_0"
  span := ⟨⟨0, 0, 0⟩, ⟨0, 13, 13⟩⟩
  children := [assertedName, child, brokenNumber]
  named := [assertedName, brokenNumber]

/-- The condition and the number behind it, as parts of an assertion. -/
def assertedPart (child : Node) : (assertion child).Part :=
  ⟨assertedName, sizeOf_lt_of_mem_named List.mem_cons_self⟩

def numberPart (child : Node) : (assertion child).Part :=
  ⟨brokenNumber, sizeOf_lt_of_mem_named (List.mem_cons_of_mem _ List.mem_cons_self)⟩

theorem resolve_assertedPart (child : Node) :
    resolve (expressions (assertion child)) .assertCondition (assertedPart child) =
      pure (.identifier "a" assertedName.span) := by
  show (expression assertedName >>= _) = _
  rw [expression_eq]
  rfl

theorem resolve_numberPart (child : Node) :
    (resolve (expressions (assertion child)) .assertMessage (numberPart child)).result {} =
      .error ((Problem.invalidNumber "1_0").bareFault brokenNumber) := by
  show (expression brokenNumber >>= _).result {} = _
  rw [expression_eq]
  rfl

theorem statement_assertion (child : Node) : statement .complete (assertion child) =
    assertStatement (assertion child) (inner .complete (assertion child)) := by
  rw [statement_eq]
  rfl

/-- A body that is a comma shows an assertion a message that it has not with another body. -/
theorem assertion_comma_fails :
    (assertion (tokenBody ";")).kind.ownsBodies = true ∧
      ((assertion (tokenBody ";")).field? "body").map Part.node = some (tokenBody ";") ∧
      (tokenBody ";").kind.isStatement = true ∧ (tokenBody ",").kind.isStatement = true ∧
      (tokenBody ",").span = (tokenBody ";").span ∧
      (tokenBody ",").label = (tokenBody ";").label ∧
      (∀ f, (statement .complete (assertion (tokenBody ";"))).result {} ≠ .error f) ∧
      (statement .complete (assertion (tokenBody ","))).result {} =
        .error ((Problem.invalidNumber "1_0").bareFault brokenNumber) := by
  refine ⟨by decide, rfl, by decide, by decide, rfl, rfl, fun f hf => ?_, ?_⟩
  · have hparts : assertParts (assertion (tokenBody ";")) = (some (assertedPart _), none) := rfl
    rw [statement_assertion, assertStatement, hparts] at hf
    dsimp only at hf
    rw [resolve_assertedPart, pure_bind] at hf
    obtain ⟨single, hsingle⟩ := singleBody_succeeds (inner .complete (assertion (tokenBody ";")))
      (trailing? _ ["statement", "body"]) {}
    simp [resolve?, hsingle] at hf
  · have hparts : assertParts (assertion (tokenBody ",")) =
      (some (assertedPart _), some (numberPart _)) := rfl
    rw [statement_assertion, assertStatement, hparts]
    dsimp only
    rw [resolve_assertedPart, pure_bind, resolve?, result_bind, result_map, resolve_numberPart]

end Convert

end Scad
