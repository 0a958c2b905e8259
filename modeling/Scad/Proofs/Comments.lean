import Scad.Proofs.Agreement.Statement

/-!
# Comments

A comment may stand between any two tokens.  Comments put into a tree leave its program as it is,
but for one place: a wrapper without a significant child stands for its first child of all, and a
comment in front of that child takes its place.

* `Node.Commented` — a tree with comments put into it, at any depth.
* `Node.KeepsLead` — a wrapper does not get a comment in front of the child that it may stand for.
-/

namespace Scad

namespace Node

/-- The second tree is the first with comments put in, anywhere among the children and anywhere
among the named children of any node.  Every wrapper of the first tree is in the relation `keeps`
to what becomes of it. -/
inductive Commented (keeps : Node → Node → Prop) : Node → Node → Prop where
  | intro {n n' : Node} (htag : n'.tag = n.tag) (htext : n'.text = n.text)
      (hspan : n'.span = n.span) (hisNamed : n'.isNamed = n.isNamed) (hlabel : n'.label = n.label)
      (hchildren : Interspersed IsPlainComment (Commented keeps) n.children n'.children)
      (hnamed : Interspersed IsPlainComment (Commented keeps) n.named n'.named)
      (hkeeps : n.isGeneral = true → keeps n n') : Commented keeps n n'

/-- The first child keeps its kind, so that no comment comes to stand in front of it; or it is the
first of the children that count, which a wrapper stands for in any case. -/
def KeepsLead (n n' : Node) : Prop :=
  n'.children.head?.map kind = n.children.head?.map kind ∨
    ∃ first, n.children.head? = some first ∧
      (n.named.filter (·.kind != .comment)).head? = some first ∧ first.isPlaceholder = false

/-- The first children correspond, or the first child of the wrapper tells nothing. -/
theorem sameLead_or_leadsPlainly {R : Node → Node → Prop} {n n' : Node}
    (hchildren : Interspersed IsPlainComment R n.children n'.children) (h : n.KeepsLead n') :
    n.SameLead R n' ∨ n.LeadsPlainly := by
  rcases h with hkind | ⟨first, hfirst, hsignificant, hplaceholder⟩
  · rw [SameLead, LeadsPlainly]
    generalize n.children = l, n'.children = l' at *
    cases hchildren with
    | nil => exact .inl .none
    | kept h _ => exact .inl (.some h)
    | @added comment _ _ hadded _ =>
      -- A comment in front changes the kind, unless a comment stood there before.
      obtain ⟨first, hfirst, hcomment⟩ := Option.map_eq_some_iff.mp hkind.symm
      exact .inr ⟨first, hfirst, .inl (hcomment.trans hadded.kind)⟩
  · exact .inr ⟨first, hfirst, .inr ⟨hsignificant, hplaceholder⟩⟩

end Node

/-- A tree and the tree with comments, converted under the same settings.  Their programs are
compared as they are, and their reports are not compared. -/
def Correspondence.comments (settings : Settings) : Correspondence where
  Related := Node.Commented Node.KeepsLead
  shift := {}
  left := settings
  right := settings
  reword := id
  Listens := False
  alike := by
    rintro n n' ⟨htag, htext, hspan, hisNamed, hlabel, hchildren, hnamed, -⟩
    exact ⟨htag, htext, hspan, hisNamed, hlabel, hchildren, hnamed⟩
  lead := by
    rintro n n' ⟨-, -, -, -, -, hchildren, -, hkeeps⟩ hgeneral
    exact (Node.sameLead_or_leadsPlainly hchildren (hkeeps hgeneral)).imp_right
      fun hplain => ⟨not_false, hplain⟩
  quoting := @quoting_of_id settings
  invalid := @invalid_of_id

namespace Convert

/-- Comments do not change the program, as long as none comes to stand in front of a child that a
wrapper stands for although it does not count. -/
theorem program_of_commented {root root' : Node} (h : root.Commented Node.KeepsLead root')
    (settings : Settings) :
    (convert settings root').program = (convert settings root).program := by
  have hprogram := program_corresponds (C := .comments settings) h
  have hzero : Statement.retell {} id = id := funext Statement.retell_zero
  simp only [Correspondence.comments, hzero, List.map_id] at hprogram
  exact hprogram.symm

/-- A comment over seven bytes. -/
def shortComment : Node where
  tag := "comment"
  text := "/* c */"
  span := ⟨⟨0, 4, 4⟩, ⟨0, 11, 11⟩⟩

/-- A digit behind the comment. -/
def digitBehind : Node where
  tag := "number"
  text := "1"
  span := ⟨⟨0, 12, 12⟩, ⟨0, 13, 13⟩⟩

/-- A keyword behind the comment, which is handed over as a token. -/
def keywordBehind : Node where
  tag := "true"
  text := "true"
  span := ⟨⟨0, 12, 12⟩, ⟨0, 16, 16⟩⟩
  isNamed := false

/-- The name that something is assigned to. -/
def assignedName : Node where
  tag := "identifier"
  text := "x"
  span := ⟨⟨0, 0, 0⟩, ⟨0, 1, 1⟩⟩
  label := some "name"

/-- The wrapper of the assigned value. -/
def assignedValue (held : List Node) : Node where
  tag := "expression"
  text := "/* c */ true"
  span := ⟨⟨0, 4, 4⟩, ⟨0, 16, 16⟩⟩
  children := held
  named := held.filter (·.isNamed)
  label := some "value"

/-- An assignment of what the wrapper holds. -/
def assignmentOf (held : List Node) : Node where
  tag := "assignment_statement"
  text := "x = /* c */ true;"
  span := ⟨⟨0, 0, 0⟩, ⟨0, 17, 17⟩⟩
  children := [assignedName, assignedValue held]
  named := [assignedName, assignedValue held]

/-- A source file of that assignment alone. -/
def sourceOf (held : List Node) : Node where
  tag := "source_file"
  text := "x = /* c */ true;"
  span := ⟨⟨0, 0, 0⟩, ⟨0, 17, 17⟩⟩
  children := [assignmentOf held]
  named := [assignmentOf held]

theorem isPlainComment_shortComment : shortComment.IsPlainComment :=
  ⟨by decide, rfl, rfl, rfl, rfl⟩

/-- A node without children is a tree with no comment put in. -/
theorem commented_leaf {keeps : Node → Node → Prop} {n : Node} (hchildren : n.children = [])
    (hnamed : n.named = []) (hgeneral : n.isGeneral = false) : n.Commented keeps n := by
  refine .intro rfl rfl rfl rfl rfl ?_ ?_ fun h => absurd (hgeneral.symm.trans h) nofun
  · rw [hchildren]
    exact .nil
  · rw [hnamed]
    exact .nil

/-- Comments in the wrapper are comments in the source file. -/
theorem commented_sourceOf {keeps : Node → Node → Prop} {held held' : List Node}
    (hheld : Interspersed Node.IsPlainComment (Node.Commented keeps) held held')
    (hnamed : Interspersed Node.IsPlainComment (Node.Commented keeps)
      (held.filter (·.isNamed)) (held'.filter (·.isNamed)))
    (hkeeps : keeps (assignedValue held) (assignedValue held')) :
    (sourceOf held).Commented keeps (sourceOf held') := by
  have hname : assignedName.Commented keeps assignedName :=
    commented_leaf rfl rfl (by decide)
  have hvalue : (assignedValue held).Commented keeps (assignedValue held') :=
    .intro rfl rfl rfl rfl rfl hheld hnamed fun _ => hkeeps
  have hparts : Interspersed Node.IsPlainComment (Node.Commented keeps)
      [assignedName, assignedValue held] [assignedName, assignedValue held'] :=
    .kept hname (.kept hvalue .nil)
  have hassignment : (assignmentOf held).Commented keeps (assignmentOf held') := by
    have hkind : (assignmentOf held).kind = .assignmentStatement := by
      show Kind.ofTag "assignment_statement" = .assignmentStatement
      decide
    exact .intro rfl rfl rfl rfl rfl hparts hparts fun h => by simp [Node.isGeneral, hkind] at h
  have hkind : (sourceOf held).kind = .sourceFile := by
    show Kind.ofTag "source_file" = .sourceFile
    decide
  exact .intro rfl rfl rfl rfl rfl (.kept hassignment .nil) (.kept hassignment .nil) fun h => by
    simp [Node.isGeneral, hkind] at h

/-- A comment in front of a digit is passed over, as the digit is a child that counts. -/
theorem program_of_commented_digit :
    (sourceOf [digitBehind]).Commented Node.KeepsLead (sourceOf [shortComment, digitBehind]) ∧
      (convert {} (sourceOf [shortComment, digitBehind])).program =
        (convert {} (sourceOf [digitBehind])).program := by
  have hdigit : digitBehind.Commented Node.KeepsLead digitBehind :=
    commented_leaf rfl rfl (by decide)
  have hlist : Interspersed Node.IsPlainComment (Node.Commented Node.KeepsLead)
      [digitBehind] [shortComment, digitBehind] :=
    .added isPlainComment_shortComment (.kept hdigit .nil)
  have hkeeps : (assignedValue [digitBehind]).KeepsLead
      (assignedValue [shortComment, digitBehind]) :=
    .inr ⟨digitBehind, rfl, rfl, by decide⟩
  have hcommented := commented_sourceOf hlist hlist hkeeps
  exact ⟨hcommented, program_of_commented hcommented {}⟩

/-- A comment in front of a keyword takes its place: the assignment becomes a fault. -/
theorem exists_commented_program_ne :
    ∃ root root' : Node, root.Commented (fun _ _ => True) root' ∧
      (convert {} root').program ≠ (convert {} root).program := by
  refine ⟨sourceOf [keywordBehind], sourceOf [shortComment, keywordBehind], ?_, fun h => ?_⟩
  · refine commented_sourceOf (.added isPlainComment_shortComment (.kept ?_ .nil))
      (.added isPlainComment_shortComment .nil) trivial
    exact commented_leaf rfl rfl (by decide)
  · have hassignment : (convert {} (sourceOf [keywordBehind])).program.map Statement.typeName =
        ["assignment"] := by decide +kernel
    have hfault : (convert {} (sourceOf [shortComment, keywordBehind])).program.map
        Statement.typeName = ["error"] := by decide +kernel
    rw [h, hassignment] at hfault
    exact absurd hfault (by decide)

end Convert

end Scad
