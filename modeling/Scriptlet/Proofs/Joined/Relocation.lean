/-
**Moving a program to another place.**

The tokens of a source keep their kinds, lexemes and literals when another source is put in front of
it; only their places move.  So do the trees that are read from them, the faults that are found in
them, and, if numbers have been given away before, the numbers of their expressions and the labels
of their routines.  A relocation says what becomes of places, numbers and labels, and it acts on
everything that carries them.

Main definitions:

* `Scriptlet.Relocation`, `Scriptlet.Relocation.behind` — relocations, and the one that moves a
  source behind another text;
* `Scriptlet.Relocation.clamp`, `Scriptlet.Relocation.instead` — the relocation that leaves alone
  what stands within a source, and the one that puts one text in the place of another in front of a
  source;
* `Scriptlet.Relocation.Rigid` — a relocation that moves a stretch with its two ends and hands out
  numbers in the order of a counter;
* `Scriptlet.Token.relocate`, `Scriptlet.SyntaxError.relocate`, `Scriptlet.Expr.relocate`,
  `Scriptlet.Stmt.relocate`, `Scriptlet.Decl.relocate`, … — what a relocation does.

Main results:

* `Scriptlet.Relocation.rigid_behind` — a source moves behind a text as a whole;
* `Scriptlet.Decl.allRelocate_comp`, `Scriptlet.Decl.allRelocate_id` — **relocations are carried out
  one after the other**, and the one that moves nothing does nothing;
* `Scriptlet.CompileError.message_relocate`, `Scriptlet.CompileError.span_relocate` — an error that
  has moved says the same of its new place.
-/

import Scriptlet.Compile

set_option relaxedAutoImplicit false
set_option autoImplicit false

namespace Scriptlet

/-! ### Relocations -/

/-- What becomes of places, of the numbers of expressions, and of the labels of routines. -/
structure Relocation where
  /-- Where a stretch of the source comes to stand. -/
  span : Span → Span
  /-- The number that an expression gets. -/
  expr : ExprId → ExprId
  /-- The label that a routine gets. -/
  routine : Nat → Nat

namespace Relocation

/-- The relocation that moves nothing. -/
def id : Relocation := ⟨fun s => s, fun n => n, fun n => n⟩

/-- One relocation after another. -/
def comp (ψ φ : Relocation) : Relocation :=
  ⟨fun s => ψ.span (φ.span s), fun n => ψ.expr (φ.expr n), fun n => ψ.routine (φ.routine n)⟩

/-- The relocation that moves a source behind a text, when `exprs` numbers and `routines` labels
have been given away before. -/
def behind (text : List Char) (exprs routines : Nat) : Relocation where
  span s := ⟨s.offset + byteLength text, s.len, s.line + text.count '\n'⟩
  expr n := n + exprs
  routine n := n + routines

/-- A relocation that moves a stretch with its two ends, and hands out numbers and labels in the
same order, the numbers in that of a counter. -/
structure Rigid [W : Counter] (φ : Relocation) : Prop where
  through : ∀ a b, φ.span (a.through b) = (φ.span a).through (φ.span b)
  expr : ∀ n, φ.expr (n + 1) = Counter.next (φ.expr n)
  routine : ∀ n, φ.routine (n + 1) = φ.routine n + 1

/-- **A source moves behind a text as a whole.** -/
theorem rigid_behind (text : List Char) (exprs routines : Nat) :
    (behind text exprs routines).Rigid := by
  refine ⟨fun a b => ?_, fun n => ?_, fun n => ?_⟩
  · have hlen : max (b.offset + b.len) a.offset - a.offset =
        max (b.offset + byteLength text + b.len) (a.offset + byteLength text)
          - (a.offset + byteLength text) := by
      omega
    simp only [behind, Span.through, Span.stop, hlen]
  · exact Nat.add_right_comm n 1 exprs
  · exact Nat.add_right_comm n 1 routines

theorem rigid_id : Relocation.id.Rigid := ⟨fun _ _ => rfl, fun _ => rfl, fun _ => rfl⟩

/-- The relocation that pushes what stands behind the end of a source back to the end. -/
def clamp (length : Nat) : Relocation where
  span s := ⟨min s.offset length, min s.stop length - min s.offset length, s.line⟩
  expr n := n
  routine n := n

theorem rigid_clamp (length : Nat) : (clamp length).Rigid := by
  refine ⟨fun a b => ?_, fun n => rfl, fun n => rfl⟩
  simp only [clamp, Span.through, Span.stop, Span.mk.injEq, and_true, true_and]
  omega

/-- What stands within a source is left alone. -/
theorem span_clamp {length : Nat} {s : Span} (h : s.stop ≤ length) :
    (clamp length).span s = s := by
  have hstop : s.offset + s.len ≤ length := h
  have hoffset : min s.offset length = s.offset := by omega
  have hlen : min s.stop length - s.offset = s.len := by
    simp only [Span.stop]
    omega
  simp only [clamp, hoffset, hlen]

/-- The relocation that puts what stands behind a text behind another text instead, and leaves alone
what stands within the first. -/
def instead (text text' : List Char) : Relocation where
  span s :=
    if s.offset < byteLength text then s
    else (behind text' 0 0).span ⟨s.offset - byteLength text, s.len, s.line - text.count '\n'⟩
  expr n := n
  routine n := n

/-- What has moved behind a text moves behind the other. -/
theorem instead_comp_behind (text text' : List Char) :
    (instead text text').comp (behind text 0 0) = behind text' 0 0 := by
  have hnot : ∀ offset, ¬offset + byteLength text < byteLength text := fun offset => by omega
  simp [instead, behind, comp, hnot]

/-- What stands within a text stays there. -/
theorem instead_comp_clamp {text : List Char} {length : Nat} (h : length < byteLength text)
    (text' : List Char) : (instead text text').comp (clamp length) = clamp length := by
  have hlt : ∀ offset, min offset length < byteLength text := fun offset => by omega
  simp [instead, clamp, comp, hlt]

/-- Nothing moves behind the empty text. -/
theorem behind_nil : behind [] 0 0 = id := rfl

end Relocation

variable (φ ψ : Relocation)

/-! ### Tokens and numbers -/

/-- A token at its new place. -/
def Token.relocate (t : Token) : Token := { t with span := φ.span t.span }

@[simp] theorem Token.kind_relocate (t : Token) : (t.relocate φ).kind = t.kind := rfl

@[simp] theorem Token.lexeme_relocate (t : Token) : (t.relocate φ).lexeme = t.lexeme := rfl

@[simp] theorem Token.literal_relocate (t : Token) : (t.relocate φ).literal = t.literal := rfl

@[simp] theorem Token.span_relocate (t : Token) : (t.relocate φ).span = φ.span t.span := rfl

/-- The supply that is left if what has been given away is numbered anew. -/
def Supply.relocate (s : Supply) : Supply := ⟨φ.expr s.expr, φ.routine s.routine⟩

/-! ### Errors -/

/-- An error of a scan at its new place. -/
def ScanError.relocate (e : ScanError) : ScanError := { e with span := φ.span e.span }

/-- An error at its token, which has moved. -/
def SyntaxError.relocate (e : SyntaxError) : SyntaxError := { e with token := e.token.relocate φ }

/-- An error about a name at its new place. -/
def ScopeError.relocate (e : ScopeError) : ScopeError := { e with span := φ.span e.span }

/-- A compile error at its new place. -/
def CompileError.relocate : CompileError → CompileError
  | .scan e => .scan (e.relocate φ)
  | .parse e => .parse (e.relocate φ)
  | .resolve e => .resolve (e.relocate φ)

/-- An error that has moved is worded in the same way. -/
@[simp] theorem CompileError.message_relocate (e : CompileError) :
    (e.relocate φ).message = e.message := by
  cases e <;> rfl

/-- An error that has moved is about the same. -/
@[simp] theorem CompileError.subject_relocate (e : CompileError) :
    (e.relocate φ).subject = e.subject := by
  cases e <;> rfl

/-- An error that has moved behind a text points at the place there. -/
theorem CompileError.span_relocate (text : List Char) (exprs routines : Nat) (e : CompileError) :
    (e.relocate (.behind text exprs routines)).span =
      ⟨e.span.offset + byteLength text, e.span.len, e.span.line + text.count '\n'⟩ := by
  cases e <;> rfl

/-! ### Trees -/

/-- The number and the place of an expression that has moved. -/
def Mark.relocate (m : Mark) : Mark := ⟨φ.expr m.id, φ.span m.span⟩

mutual

/-- An expression that has moved. -/
def Expr.relocate : Expr → Expr
  | .constant mark value => .constant (mark.relocate φ) value
  | .grouping mark inner => .grouping (mark.relocate φ) inner.relocate
  | .unary mark op operand => .unary (mark.relocate φ) op operand.relocate
  | .binary mark left op opSpan right =>
      .binary (mark.relocate φ) left.relocate op (φ.span opSpan) right.relocate
  | .logical mark left op right => .logical (mark.relocate φ) left.relocate op right.relocate
  | .ternary mark condition question thenBranch elseBranch =>
      .ternary (mark.relocate φ) condition.relocate (φ.span question) thenBranch.relocate
        elseBranch.relocate
  | .variable mark name => .variable (mark.relocate φ) name
  | .assign mark name value => .assign (mark.relocate φ) name value.relocate
  | .call mark callee arguments paren =>
      .call (mark.relocate φ) callee.relocate (Expr.allRelocate arguments) (φ.span paren)
  | .get mark object name => .get (mark.relocate φ) object.relocate name
  | .set mark object name value => .set (mark.relocate φ) object.relocate name value.relocate
  | .thisRef mark => .thisRef (mark.relocate φ)
  | .superRef mark method => .superRef (mark.relocate φ) method
termination_by structural e => e

/-- Expressions that have moved. -/
def Expr.allRelocate : List Expr → List Expr
  | [] => []
  | e :: es => e.relocate :: Expr.allRelocate es
termination_by structural es => es

end

/-- A superclass that has moved. -/
def Superclass.relocate (s : Superclass) : Superclass := ⟨s.mark.relocate φ, s.name⟩

/-- A parameter that has moved. -/
def Param.relocate (p : Param) : Param := ⟨p.name, φ.span p.span⟩

mutual

/-- A routine that has moved. -/
def Routine.relocate : Routine → Routine
  | .mk label name params body span =>
      .mk (φ.routine label) name (params.map (Param.relocate φ)) (Decl.allRelocate body)
        (φ.span span)
termination_by structural r => r

/-- Routines that have moved. -/
def Routine.allRelocate : List Routine → List Routine
  | [] => []
  | r :: rs => r.relocate :: Routine.allRelocate rs
termination_by structural rs => rs

/-- A declaration that has moved. -/
def Decl.relocate : Decl → Decl
  | .classDecl name nameSpan superclass methods span =>
      .classDecl name (φ.span nameSpan) (superclass.map (Superclass.relocate φ))
        (Routine.allRelocate methods) (φ.span span)
  | .funDecl routine span => .funDecl routine.relocate (φ.span span)
  | .varDecl name nameSpan initializer span =>
      .varDecl name (φ.span nameSpan) (initializer.map (Expr.relocate φ)) (φ.span span)
  | .statement stmt => .statement stmt.relocate
termination_by structural d => d

/-- Declarations that have moved. -/
def Decl.allRelocate : List Decl → List Decl
  | [] => []
  | d :: ds => d.relocate :: Decl.allRelocate ds
termination_by structural ds => ds

/-- A statement that has moved. -/
def Stmt.relocate : Stmt → Stmt
  | .expression e span => .expression (e.relocate φ) (φ.span span)
  | .print e span => .print (e.relocate φ) (φ.span span)
  | .ret keyword value span =>
      .ret (φ.span keyword) (value.map (Expr.relocate φ)) (φ.span span)
  | .block body span => .block (Decl.allRelocate body) (φ.span span)
  | .ifElse condition thenBranch none span =>
      .ifElse (condition.relocate φ) thenBranch.relocate none (φ.span span)
  | .ifElse condition thenBranch (some elseBranch) span =>
      .ifElse (condition.relocate φ) thenBranch.relocate (some elseBranch.relocate) (φ.span span)
  | .whileLoop condition body span =>
      .whileLoop (condition.relocate φ) body.relocate (φ.span span)
termination_by structural s => s

end

@[simp] theorem Expr.mark_relocate (e : Expr) : (e.relocate φ).mark = e.mark.relocate φ := by
  cases e <;> rfl

@[simp] theorem Expr.span_relocate (e : Expr) : (e.relocate φ).span = φ.span e.span := by
  rw [span, mark_relocate]
  rfl

@[simp] theorem Stmt.span_relocate (s : Stmt) : (s.relocate φ).span = φ.span s.span := by
  cases s with
  | ifElse _ _ elseBranch _ => cases elseBranch <;> rfl
  | _ => rfl

@[simp] theorem Decl.span_relocate (d : Decl) : (d.relocate φ).span = φ.span d.span := by
  cases d with
  | statement stmt => exact stmt.span_relocate φ
  | _ => rfl

@[simp] theorem Routine.name_relocate (r : Routine) : (r.relocate φ).name = r.name := by
  cases r
  rfl

@[simp] theorem Routine.label_relocate (r : Routine) :
    (r.relocate φ).label = φ.routine r.label := by
  cases r
  rfl

@[simp] theorem Routine.params_relocate (r : Routine) :
    (r.relocate φ).params = r.params.map (Param.relocate φ) := by
  cases r
  rfl

@[simp] theorem Routine.body_relocate (r : Routine) :
    (r.relocate φ).body = Decl.allRelocate φ r.body := by
  cases r
  rfl

@[simp] theorem Routine.span_relocate (r : Routine) : (r.relocate φ).span = φ.span r.span := by
  cases r
  rfl

@[simp] theorem Routine.arity_relocate (r : Routine) : (r.relocate φ).arity = r.arity := by
  simp [arity]

@[simp] theorem Expr.allRelocate_eq_map (es : List Expr) :
    Expr.allRelocate φ es = es.map (Expr.relocate φ) := by
  induction es with
  | nil => rfl
  | cons e es ih => rw [allRelocate, ih, List.map_cons]

@[simp] theorem Routine.allRelocate_eq_map (rs : List Routine) :
    Routine.allRelocate φ rs = rs.map (Routine.relocate φ) := by
  induction rs with
  | nil => rfl
  | cons r rs ih => rw [allRelocate, ih, List.map_cons]

@[simp] theorem Decl.allRelocate_eq_map (ds : List Decl) :
    Decl.allRelocate φ ds = ds.map (Decl.relocate φ) := by
  induction ds with
  | nil => rfl
  | cons d ds ih => rw [allRelocate, ih, List.map_cons]

/-! ### Relocations one after the other -/

theorem Mark.relocate_comp (m : Mark) :
    (m.relocate φ).relocate ψ = m.relocate (ψ.comp φ) := rfl

mutual

theorem Expr.relocate_comp : ∀ e : Expr, (e.relocate φ).relocate ψ = e.relocate (ψ.comp φ)
  | .constant _ _ | .variable _ _ | .thisRef _ | .superRef _ _ => rfl
  | .grouping _ inner => by
      simp only [Expr.relocate, inner.relocate_comp, Mark.relocate_comp]
  | .unary _ _ operand => by
      simp only [Expr.relocate, operand.relocate_comp, Mark.relocate_comp]
  | .binary _ left _ _ right => by
      simp only [Expr.relocate, left.relocate_comp, right.relocate_comp, Mark.relocate_comp]
      rfl
  | .logical _ left _ right => by
      simp only [Expr.relocate, left.relocate_comp, right.relocate_comp, Mark.relocate_comp]
  | .ternary _ condition _ thenBranch elseBranch => by
      simp only [Expr.relocate, condition.relocate_comp, thenBranch.relocate_comp,
        elseBranch.relocate_comp, Mark.relocate_comp]
      rfl
  | .assign _ _ value => by
      simp only [Expr.relocate, value.relocate_comp, Mark.relocate_comp]
  | .call _ callee arguments _ => by
      simp only [Expr.relocate, callee.relocate_comp, Expr.allRelocate_comp arguments,
        Mark.relocate_comp]
      rfl
  | .get _ object _ => by
      simp only [Expr.relocate, object.relocate_comp, Mark.relocate_comp]
  | .set _ object _ value => by
      simp only [Expr.relocate, object.relocate_comp, value.relocate_comp, Mark.relocate_comp]

theorem Expr.allRelocate_comp : ∀ es : List Expr,
    Expr.allRelocate ψ (Expr.allRelocate φ es) = Expr.allRelocate (ψ.comp φ) es
  | [] => rfl
  | e :: es => by simp only [Expr.allRelocate, e.relocate_comp, Expr.allRelocate_comp es]

end

theorem Expr.relocate_comp_option (e : Option Expr) :
    (e.map (Expr.relocate φ)).map (Expr.relocate ψ) = e.map (Expr.relocate (ψ.comp φ)) := by
  cases e with
  | none => rfl
  | some e => simp only [Option.map_some, e.relocate_comp]

theorem Superclass.relocate_comp_option (s : Option Superclass) :
    (s.map (Superclass.relocate φ)).map (Superclass.relocate ψ) =
      s.map (Superclass.relocate (ψ.comp φ)) := by
  cases s <;> rfl

theorem Param.map_relocate_comp (ps : List Param) :
    (ps.map (Param.relocate φ)).map (Param.relocate ψ) = ps.map (Param.relocate (ψ.comp φ)) := by
  rw [List.map_map]
  rfl

mutual

theorem Routine.relocate_comp : ∀ r : Routine,
    (r.relocate φ).relocate ψ = r.relocate (ψ.comp φ)
  | .mk _ _ _ body _ => by
      simp only [Routine.relocate, Param.map_relocate_comp, Decl.allRelocate_comp body]
      rfl

theorem Routine.allRelocate_comp : ∀ rs : List Routine,
    Routine.allRelocate ψ (Routine.allRelocate φ rs) = Routine.allRelocate (ψ.comp φ) rs
  | [] => rfl
  | r :: rs => by simp only [Routine.allRelocate, r.relocate_comp, Routine.allRelocate_comp rs]

theorem Decl.relocate_comp : ∀ d : Decl, (d.relocate φ).relocate ψ = d.relocate (ψ.comp φ)
  | .classDecl _ _ _ methods _ => by
      simp only [Decl.relocate, Superclass.relocate_comp_option, Routine.allRelocate_comp methods]
      rfl
  | .funDecl routine _ => by
      simp only [Decl.relocate, routine.relocate_comp]
      rfl
  | .varDecl _ _ _ _ => by
      simp only [Decl.relocate, Expr.relocate_comp_option]
      rfl
  | .statement stmt => by simp only [Decl.relocate, stmt.relocate_comp]

/-- **Relocations are carried out one after the other.** -/
theorem Decl.allRelocate_comp : ∀ ds : List Decl,
    Decl.allRelocate ψ (Decl.allRelocate φ ds) = Decl.allRelocate (ψ.comp φ) ds
  | [] => rfl
  | d :: ds => by simp only [Decl.allRelocate, d.relocate_comp, Decl.allRelocate_comp ds]

theorem Stmt.relocate_comp : ∀ s : Stmt, (s.relocate φ).relocate ψ = s.relocate (ψ.comp φ)
  | .expression e _ | .print e _ => by
      simp only [Stmt.relocate, e.relocate_comp]
      rfl
  | .ret _ _ _ => by
      simp only [Stmt.relocate, Expr.relocate_comp_option]
      rfl
  | .block body _ => by
      simp only [Stmt.relocate, Decl.allRelocate_comp body]
      rfl
  | .ifElse condition thenBranch none _ => by
      simp only [Stmt.relocate, condition.relocate_comp, thenBranch.relocate_comp]
      rfl
  | .ifElse condition thenBranch (some elseBranch) _ => by
      simp only [Stmt.relocate, condition.relocate_comp, thenBranch.relocate_comp,
        elseBranch.relocate_comp]
      rfl
  | .whileLoop condition body _ => by
      simp only [Stmt.relocate, condition.relocate_comp, body.relocate_comp]
      rfl

end

/-! ### The relocation that moves nothing -/

theorem Relocation.span_id (s : Span) : Relocation.id.span s = s := rfl

theorem Relocation.routine_id (label : Nat) : Relocation.id.routine label = label := rfl

theorem Mark.relocate_id (m : Mark) : m.relocate .id = m := rfl

mutual

theorem Expr.relocate_id : ∀ e : Expr, e.relocate .id = e
  | .constant _ _ | .variable _ _ | .thisRef _ | .superRef _ _ => rfl
  | .grouping _ inner => congrArg (Expr.grouping _) inner.relocate_id
  | .unary _ _ operand => congrArg (Expr.unary _ _) operand.relocate_id
  | .binary _ left _ _ right => by
      simp only [Expr.relocate, left.relocate_id, right.relocate_id, Mark.relocate_id,
        Relocation.span_id]
  | .logical _ left _ right => by
      simp only [Expr.relocate, left.relocate_id, right.relocate_id, Mark.relocate_id]
  | .ternary _ condition _ thenBranch elseBranch => by
      simp only [Expr.relocate, condition.relocate_id, thenBranch.relocate_id,
        elseBranch.relocate_id, Mark.relocate_id, Relocation.span_id]
  | .assign _ _ value => congrArg (Expr.assign _ _) value.relocate_id
  | .call _ callee arguments _ => by
      simp only [Expr.relocate, callee.relocate_id, Expr.allRelocate_id arguments,
        Mark.relocate_id, Relocation.span_id]
  | .get _ object _ => by
      simp only [Expr.relocate, object.relocate_id, Mark.relocate_id]
  | .set _ object _ value => by
      simp only [Expr.relocate, object.relocate_id, value.relocate_id, Mark.relocate_id]

theorem Expr.allRelocate_id : ∀ es : List Expr, Expr.allRelocate .id es = es
  | [] => rfl
  | e :: es => by rw [Expr.allRelocate, e.relocate_id, Expr.allRelocate_id es]

end

theorem Expr.relocate_id_option (e : Option Expr) : e.map (Expr.relocate .id) = e := by
  cases e with
  | none => rfl
  | some e => rw [Option.map_some, e.relocate_id]

theorem Superclass.relocate_id_option (s : Option Superclass) :
    s.map (Superclass.relocate .id) = s := by
  cases s <;> rfl

theorem Param.map_relocate_id (ps : List Param) : ps.map (Param.relocate .id) = ps :=
  List.map_id ps

mutual

theorem Routine.relocate_id : ∀ r : Routine, r.relocate .id = r
  | .mk _ _ params body _ => by
      simp only [Routine.relocate, Param.map_relocate_id, Decl.allRelocate_id body,
        Relocation.routine_id, Relocation.span_id]

theorem Routine.allRelocate_id : ∀ rs : List Routine, Routine.allRelocate .id rs = rs
  | [] => rfl
  | r :: rs => by rw [Routine.allRelocate, r.relocate_id, Routine.allRelocate_id rs]

theorem Decl.relocate_id : ∀ d : Decl, d.relocate .id = d
  | .classDecl _ _ _ methods _ => by
      simp only [Decl.relocate, Superclass.relocate_id_option, Routine.allRelocate_id methods,
        Relocation.span_id]
  | .funDecl routine _ => by
      simp only [Decl.relocate, routine.relocate_id, Relocation.span_id]
  | .varDecl _ _ _ _ => by
      simp only [Decl.relocate, Expr.relocate_id_option, Relocation.span_id]
  | .statement stmt => congrArg Decl.statement stmt.relocate_id

/-- **The relocation that moves nothing does nothing.** -/
theorem Decl.allRelocate_id : ∀ ds : List Decl, Decl.allRelocate .id ds = ds
  | [] => rfl
  | d :: ds => by rw [Decl.allRelocate, d.relocate_id, Decl.allRelocate_id ds]

theorem Stmt.relocate_id : ∀ s : Stmt, s.relocate .id = s
  | .expression e _ | .print e _ => by
      simp only [Stmt.relocate, e.relocate_id, Relocation.span_id]
  | .ret _ _ _ => by
      simp only [Stmt.relocate, Expr.relocate_id_option, Relocation.span_id]
  | .block body _ => by
      simp only [Stmt.relocate, Decl.allRelocate_id body, Relocation.span_id]
  | .ifElse condition thenBranch none _ => by
      simp only [Stmt.relocate, condition.relocate_id, thenBranch.relocate_id,
        Relocation.span_id]
  | .ifElse condition thenBranch (some elseBranch) _ => by
      simp only [Stmt.relocate, condition.relocate_id, thenBranch.relocate_id,
        elseBranch.relocate_id, Relocation.span_id]
  | .whileLoop condition body _ => by
      simp only [Stmt.relocate, condition.relocate_id, body.relocate_id, Relocation.span_id]

end

theorem Decl.relocate_id_option (d : Option Decl) : d.map (Decl.relocate .id) = d := by
  cases d with
  | none => rfl
  | some d => rw [Option.map_some, d.relocate_id]

end Scriptlet
