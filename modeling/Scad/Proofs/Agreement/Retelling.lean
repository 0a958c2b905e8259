import Scad.Ast.Statement
import Scad.Diagnostic

/-!
# Programs Told Again

What is left of a program when the text it was read from is moved, and when its faults are told in
other words.

* `Shift` — the rows and bytes that come in front of a text; `shift` moves every span.
* `retell` — moves every span, and puts every message into other words.
-/

namespace Scad

/-! ## §1 Spans -/

/-- How far a text is moved: by whole rows, so that columns stay as they are. -/
structure Shift where
  rows : Nat := 0
  bytes : Nat := 0

def Position.shift (d : Shift) (p : Position) : Position :=
  ⟨p.line + d.rows, p.column, p.offset + d.bytes⟩

def Span.shift (d : Shift) (s : Span) : Span :=
  ⟨s.start.shift d, s.stop.shift d⟩

/-- The order of two positions does not change when both are moved. -/
theorem Position.before_shift (d : Shift) (p q : Position) :
    (p.shift d).before (q.shift d) = p.before q := by
  rw [Bool.eq_iff_iff, before_iff, before_iff]
  simp only [shift]
  omega

theorem Span.merge_shift (d : Shift) (s t : Span) :
    (s.shift d).merge (t.shift d) = (s.merge t).shift d := by
  simp only [merge, shift, Position.before_shift, Span.mk.injEq]
  constructor
  · exact (apply_ite (Position.shift d) _ _ _).symm
  · exact (apply_ite (Position.shift d) _ _ _).symm

@[simp] theorem Span.shift_zero (s : Span) : s.shift {} = s := rfl

/-! ## §2 Expressions -/

mutual

/-- The expression with every span moved. -/
def Expression.shift (d : Shift) : Expression → Expression
  | .literal value s => .literal value (s.shift d)
  | .identifier name s => .identifier name (s.shift d)
  | .special name s => .special name (s.shift d)
  | .call name arguments s => .call name (Argument.shiftList d arguments) (s.shift d)
  | .vector elements s => .vector (Expression.shiftList d elements) (s.shift d)
  | .index array index s => .index (array.shift d) (index.shift d) (s.shift d)
  | .member object property s => .member (object.shift d) property (s.shift d)
  | .range start step stop s =>
    .range (start.shift d) (Expression.shift? d step) (stop.shift d) (s.shift d)
  | .letIn bindings body s => .letIn (Binding.shiftList d bindings) (body.shift d) (s.shift d)
  | .comprehension style bindings variableName iterable condition body s =>
    .comprehension style (Binding.shiftList d bindings) variableName (iterable.shift d)
      (Expression.shift? d condition) (body.shift d) (s.shift d)
  | .binary operator left right s => .binary operator (left.shift d) (right.shift d) (s.shift d)
  | .unary operator operand s => .unary operator (operand.shift d) (s.shift d)
  | .conditional condition consequence alternative s =>
    .conditional (condition.shift d) (consequence.shift d) (alternative.shift d) (s.shift d)

/-- The expressions of a list with every span moved. -/
def Expression.shiftList (d : Shift) : List Expression → List Expression
  | [] => []
  | e :: rest => e.shift d :: Expression.shiftList d rest

/-- An expression that may be absent with every span moved. -/
def Expression.shift? (d : Shift) : Option Expression → Option Expression
  | none => none
  | some e => some (e.shift d)

/-- The value with every span moved. -/
def Value.shift (d : Shift) : Value → Value
  | .expression e => .expression (e.shift d)
  | .number x => .number x
  | .boolean b => .boolean b
  | .string s => .string s
  | .undefined => .undefined
  | .vector2 x y => .vector2 x y
  | .vector3 x y z => .vector3 x y z

/-- The argument with every span moved. -/
def Argument.shift (d : Shift) : Argument → Argument
  | ⟨name, value, s⟩ => ⟨name, value.shift d, s.shift d⟩

/-- The arguments of a list with every span moved. -/
def Argument.shiftList (d : Shift) : List Argument → List Argument
  | [] => []
  | a :: rest => a.shift d :: Argument.shiftList d rest

/-- The binding with every span moved. -/
def Binding.shift (d : Shift) : Binding → Binding
  | ⟨name, nameSpan, value, s⟩ => ⟨name, nameSpan.shift d, value.shift d, s.shift d⟩

/-- The bindings of a list with every span moved. -/
def Binding.shiftList (d : Shift) : List Binding → List Binding
  | [] => []
  | b :: rest => b.shift d :: Binding.shiftList d rest

end

def Declaration.shift (d : Shift) (p : Declaration) : Declaration :=
  ⟨p.name, p.default?.map (Expression.shift d), p.span.shift d⟩

variable {d : Shift}

@[simp] theorem Expression.shiftList_eq_map (es : List Expression) :
    Expression.shiftList d es = es.map (Expression.shift d) := by
  induction es with
  | nil => rw [shiftList, List.map_nil]
  | cons e es ih => rw [shiftList, ih, List.map_cons]

@[simp] theorem Expression.shift?_eq_map (e : Option Expression) :
    Expression.shift? d e = e.map (Expression.shift d) := by
  cases e <;> rfl

@[simp] theorem Argument.shiftList_eq_map (as : List Argument) :
    Argument.shiftList d as = as.map (Argument.shift d) := by
  induction as with
  | nil => rw [shiftList, List.map_nil]
  | cons a as ih => rw [shiftList, ih, List.map_cons]

@[simp] theorem Binding.shiftList_eq_map (bs : List Binding) :
    Binding.shiftList d bs = bs.map (Binding.shift d) := by
  induction bs with
  | nil => rw [shiftList, List.map_nil]
  | cons b bs ih => rw [shiftList, ih, List.map_cons]

@[simp] theorem Expression.span_shift (e : Expression) : (e.shift d).span = e.span.shift d := by
  cases e <;> rfl

@[simp] theorem Expression.isBinary_shift (e : Expression) : (e.shift d).isBinary = e.isBinary := by
  cases e <;> rfl

@[simp] theorem Expression.isUnary_shift (e : Expression) : (e.shift d).isUnary = e.isUnary := by
  cases e <;> rfl

@[simp] theorem Expression.isConditional_shift (e : Expression) :
    (e.shift d).isConditional = e.isConditional := by
  cases e <;> rfl

@[simp] theorem Argument.name_shift (a : Argument) : (a.shift d).name = a.name := by
  cases a
  rfl

@[simp] theorem Argument.isPositional_shift (a : Argument) :
    (a.shift d).isPositional = a.isPositional := by
  cases a
  rfl

@[simp] theorem Argument.value_shift (a : Argument) : (a.shift d).value = a.value.shift d := by
  cases a
  rfl

@[simp] theorem Binding.span_shift (b : Binding) : (b.shift d).span = b.span.shift d := by
  cases b
  rfl

@[simp] theorem Value.number?_shift (v : Value) : (v.shift d).number? = v.number? := by
  cases v <;> rfl

/-- A literal has no span of its own, so its value stays. -/
theorem Expression.toValue_shift (e : Expression) : (e.shift d).toValue = e.toValue.shift d := by
  cases e with
  | literal value s => cases value <;> rfl
  | _ => rfl

/-! A text with nothing in front of it is not moved. -/

mutual

theorem Expression.shift_zero (e : Expression) : e.shift {} = e := by
  cases e with
  | literal | identifier | special => rfl
  | call name arguments s => rw [Expression.shift, Argument.shiftList_zero, Span.shift_zero]
  | vector elements s => rw [Expression.shift, Expression.shiftList_zero, Span.shift_zero]
  | index array index s =>
    rw [Expression.shift, array.shift_zero, index.shift_zero, Span.shift_zero]
  | member object property s => rw [Expression.shift, object.shift_zero, Span.shift_zero]
  | range start step stop s =>
    rw [Expression.shift, start.shift_zero, Expression.shift?_zero, stop.shift_zero,
      Span.shift_zero]
  | letIn bindings body s =>
    rw [Expression.shift, Binding.shiftList_zero, body.shift_zero, Span.shift_zero]
  | comprehension style bindings variableName iterable condition body s =>
    rw [Expression.shift, Binding.shiftList_zero, iterable.shift_zero, Expression.shift?_zero,
      body.shift_zero, Span.shift_zero]
  | binary operator left right s =>
    rw [Expression.shift, left.shift_zero, right.shift_zero, Span.shift_zero]
  | unary operator operand s => rw [Expression.shift, operand.shift_zero, Span.shift_zero]
  | conditional condition consequence alternative s =>
    rw [Expression.shift, condition.shift_zero, consequence.shift_zero, alternative.shift_zero,
      Span.shift_zero]

theorem Expression.shiftList_zero (es : List Expression) : Expression.shiftList {} es = es := by
  cases es with
  | nil => rfl
  | cons e rest => rw [Expression.shiftList, e.shift_zero, Expression.shiftList_zero rest]

theorem Expression.shift?_zero (e : Option Expression) : Expression.shift? {} e = e := by
  cases e with
  | none => rfl
  | some e => rw [Expression.shift?, e.shift_zero]

theorem Value.shift_zero (v : Value) : v.shift {} = v := by
  cases v with
  | expression e => rw [Value.shift, e.shift_zero]
  | _ => rfl

theorem Argument.shift_zero (a : Argument) : a.shift {} = a := by
  cases a with
  | mk name value s => rw [Argument.shift, value.shift_zero, Span.shift_zero]

theorem Argument.shiftList_zero (as : List Argument) : Argument.shiftList {} as = as := by
  cases as with
  | nil => rfl
  | cons a rest => rw [Argument.shiftList, a.shift_zero, Argument.shiftList_zero rest]

theorem Binding.shift_zero (b : Binding) : b.shift {} = b := by
  cases b with
  | mk name nameSpan value s =>
    rw [Binding.shift, value.shift_zero, Span.shift_zero, Span.shift_zero]

theorem Binding.shiftList_zero (bs : List Binding) : Binding.shiftList {} bs = bs := by
  cases bs with
  | nil => rfl
  | cons b rest => rw [Binding.shiftList, b.shift_zero, Binding.shiftList_zero rest]

end

@[simp] theorem Expression.shift_zero_eq_id : Expression.shift {} = id :=
  funext Expression.shift_zero

@[simp] theorem Value.shift_zero_eq_id : Value.shift {} = id :=
  funext Value.shift_zero

@[simp] theorem Argument.shift_zero_eq_id : Argument.shift {} = id :=
  funext Argument.shift_zero

@[simp] theorem Binding.shift_zero_eq_id : Binding.shift {} = id :=
  funext Binding.shift_zero

@[simp] theorem Declaration.shift_zero_eq_id : Declaration.shift {} = id := by
  funext p
  simp [shift]

/-! ## §3 Predefined modules -/

def Primitive.shift (d : Shift) : Primitive → Primitive
  | .cube size center => .cube (size.shift d) (center.shift d)
  | .sphere radius => .sphere (radius.shift d)
  | .cylinder height radiusBottom radiusTop center =>
    .cylinder (height.shift d) (radiusBottom.shift d) (radiusTop.shift d) (center.shift d)
  | .polyhedron points faces convexity =>
    .polyhedron (points.shift d) (faces.shift d) convexity
  | .circle radius => .circle (radius.shift d)
  | .square size center => .square (size.shift d) (center.shift d)
  | .polygon points paths => .polygon (points.shift d) (paths.map (Value.shift d))
  | .text content size => .text (content.shift d) (size.shift d)

def OffsetAmount.shift (d : Shift) : OffsetAmount → OffsetAmount
  | .radius value => .radius (value.shift d)
  | .delta value => .delta (value.shift d)

def Transform.shift (d : Shift) : Transform → Transform
  | .translate vector => .translate (vector.shift d)
  | .rotate angle axis => .rotate (angle.shift d) (axis.map (Value.shift d))
  | .scale factors => .scale (factors.shift d)
  | .mirror normal => .mirror (normal.shift d)
  | .resize size auto => .resize (size.shift d) (auto.shift d)
  | .multmatrix matrix => .multmatrix (matrix.shift d)
  | .color value alpha => .color (value.shift d) (alpha.map (Value.shift d))
  | .offset amount chamfer => .offset (amount.shift d) (chamfer.shift d)
  | .linearExtrude height center twist slices factors =>
    .linearExtrude (height.shift d) (center.shift d) (twist.shift d)
      (slices.map (Value.shift d)) (factors.shift d)
  | .rotateExtrude angle convexity => .rotateExtrude (angle.shift d) convexity

@[simp] theorem Primitive.shift_zero (p : Primitive) : p.shift {} = p := by
  cases p <;> simp [shift]

@[simp] theorem OffsetAmount.shift_zero (a : OffsetAmount) : a.shift {} = a := by
  cases a <;> simp [shift]

@[simp] theorem Transform.shift_zero (t : Transform) : t.shift {} = t := by
  cases t <;> simp [shift]

/-! ## §4 Faults and statements -/

section Retell

variable (d : Shift) (reword : String → String)

/-- The fault with every span moved, and every message in other words. -/
def Fault.retell : Fault → Fault
  | ⟨code, message, tag, text, span, none⟩ =>
    ⟨code, reword message, tag, text, span.shift d, none⟩
  | ⟨code, message, tag, text, span, some inner⟩ =>
    ⟨code, reword message, tag, text, span.shift d, some inner.retell⟩

/-- The report with its place moved, and its message in other words. -/
def Report.retell (r : Report) : Report :=
  { r with
    message := reword r.message
    line := r.line + d.rows
    span := r.span.map (Span.shift d) }

mutual

/-- The statement with every span moved, and every message in other words. -/
def Statement.retell : Statement → Statement
  | .expression value => .expression (value.shift d)
  | .fault f => .fault (f.retell d reword)
  | .assertion condition message body s =>
    .assertion (condition.shift d) (message.map (Expression.shift d)) (Statement.retell? body)
      (s.shift d)
  | .assign bindings body s =>
    .assign (bindings.map (Binding.shift d)) (Statement.retell? body) (s.shift d)
  | .assignment binding => .assignment (binding.shift d)
  | .moduleDefinition name nameSpan parameters body s =>
    .moduleDefinition name (nameSpan.shift d) (parameters.map (Declaration.shift d))
      (Statement.retellList body) (s.shift d)
  | .functionDefinition name nameSpan parameters body s =>
    .functionDefinition name (nameSpan.shift d) (parameters.map (Declaration.shift d))
      (body.shift d) (s.shift d)
  | .call name nameSpan arguments children s =>
    .call name (nameSpan.shift d) (arguments.map (Argument.shift d))
      (Statement.retellList children) (s.shift d)
  | .primitive shape specials s =>
    .primitive (shape.shift d) (specials.map (Argument.shift d)) (s.shift d)
  | .transform t children s =>
    .transform (t.shift d) (Statement.retellList children) (s.shift d)
  | .csg operation children s => .csg operation (Statement.retellList children) (s.shift d)
  | .modified modifier child s => .modified modifier child.retell (s.shift d)
  | .branch condition consequence alternative s =>
    .branch (condition.shift d) (Statement.retellList consequence)
      (Statement.retellList? alternative) (s.shift d)
  | .loop bindings body s =>
    .loop (bindings.map (Binding.shift d)) (Statement.retellList body) (s.shift d)
  | .letIn bindings body s =>
    .letIn (bindings.map (Binding.shift d)) (Statement.retellList body) (s.shift d)
  | .echo arguments body s =>
    .echo (arguments.map (Argument.shift d)) (Statement.retell? body) (s.shift d)
  | .inclusion kind path s => .inclusion kind path (s.shift d)
  | .block statements s => .block (Statement.retellList statements) (s.shift d)

/-- The statements of a list told again. -/
def Statement.retellList : List Statement → List Statement
  | [] => []
  | s :: rest => s.retell :: Statement.retellList rest

/-- A statement that may be absent told again. -/
def Statement.retell? : Option Statement → Option Statement
  | none => none
  | some s => some s.retell

/-- The statements of a list that may be absent told again. -/
def Statement.retellList? : Option (List Statement) → Option (List Statement)
  | none => none
  | some ss => some (Statement.retellList ss)

end

end Retell

/-! Told at its place and in its own words, a statement is what it was. -/

theorem Fault.retell_zero (f : Fault) : f.retell {} id = f := by
  obtain ⟨code, message, tag, text, span, _ | inner⟩ := f
  · rfl
  · rw [retell, inner.retell_zero, Span.shift_zero, id]
termination_by sizeOf f

theorem Report.retell_zero (r : Report) : r.retell {} id = r := by
  obtain ⟨message, line, column, tag, severity, code, _ | span⟩ := r <;> rfl

mutual

theorem Statement.retell_zero (s : Statement) : s.retell {} id = s := by
  cases s with
  | expression e => rw [Statement.retell, e.shift_zero]
  | fault f => rw [Statement.retell, f.retell_zero]
  | assertion condition message body s =>
    simp [Statement.retell, Statement.retell?_zero body]
  | assign bindings body s => simp [Statement.retell, Statement.retell?_zero body]
  | assignment b => rw [Statement.retell, b.shift_zero]
  | moduleDefinition name nameSpan parameters body s =>
    simp [Statement.retell, Statement.retellList_zero body]
  | functionDefinition name nameSpan parameters body s =>
    simp [Statement.retell]
  | call name nameSpan arguments children s =>
    simp [Statement.retell, Statement.retellList_zero children]
  | primitive shape specials s => simp [Statement.retell]
  | transform t children s =>
    simp [Statement.retell, Statement.retellList_zero children]
  | csg operation children s => simp [Statement.retell, Statement.retellList_zero children]
  | modified modifier child s => simp [Statement.retell, child.retell_zero]
  | branch condition consequence alternative s =>
    simp [Statement.retell, Statement.retellList_zero consequence,
      Statement.retellList?_zero alternative]
  | loop bindings body s => simp [Statement.retell, Statement.retellList_zero body]
  | letIn bindings body s => simp [Statement.retell, Statement.retellList_zero body]
  | echo arguments body s => simp [Statement.retell, Statement.retell?_zero body]
  | inclusion kind path s => rw [Statement.retell, Span.shift_zero]
  | block statements s => simp [Statement.retell, Statement.retellList_zero statements]

theorem Statement.retellList_zero (ss : List Statement) : Statement.retellList {} id ss = ss := by
  cases ss with
  | nil => rfl
  | cons s rest => rw [Statement.retellList, s.retell_zero, Statement.retellList_zero rest]

theorem Statement.retell?_zero (s : Option Statement) : Statement.retell? {} id s = s := by
  cases s with
  | none => rfl
  | some s => rw [Statement.retell?, s.retell_zero]

theorem Statement.retellList?_zero (ss : Option (List Statement)) :
    Statement.retellList? {} id ss = ss := by
  cases ss with
  | none => rfl
  | some ss => rw [Statement.retellList?, Statement.retellList_zero ss]

end

variable {reword : String → String}

@[simp] theorem Statement.retellList_eq_map (ss : List Statement) :
    Statement.retellList d reword ss = ss.map (Statement.retell d reword) := by
  induction ss with
  | nil => rw [retellList, List.map_nil]
  | cons s ss ih => rw [retellList, ih, List.map_cons]

@[simp] theorem Statement.retell?_eq_map (s : Option Statement) :
    Statement.retell? d reword s = s.map (Statement.retell d reword) := by
  cases s <;> rfl

@[simp] theorem Statement.retellList?_eq_map (ss : Option (List Statement)) :
    Statement.retellList? d reword ss = ss.map (List.map (Statement.retell d reword)) := by
  cases ss with
  | none => rfl
  | some ss => rw [retellList?, retellList_eq_map, Option.map_some]

@[simp] theorem Fault.message_retell (f : Fault) :
    (f.retell d reword).message = reword f.message := by
  obtain ⟨code, message, tag, text, span, _ | inner⟩ := f <;> rfl

theorem Fault.retell_on (code : FaultCode) (message : String) (n : Node) :
    (Fault.on code message n).retell d reword =
      ⟨code, reword message, n.tag, n.text, n.span.shift d, none⟩ := rfl

theorem Fault.retell_causedBy (outer inner : Fault) :
    (outer.causedBy inner).retell d reword =
      { outer with
        message := reword outer.message
        span := outer.span.shift d
        cause := some (inner.retell d reword) } := rfl

end Scad
