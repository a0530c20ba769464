/-
**Reading only goes forward.**

Whatever a parser answers, the cursor it leaves behind has the same end of the source as the one it
started at, the tokens ahead of it are a tail of those that were ahead before, the errors reported
before are still there, and no number that was given away is free again.

Main definitions:

* `Scriptlet.Supply.Le` — a supply of which at least as much has been given away;
* `Scriptlet.Cursor.Reaches` — **one cursor can be reached from another by reading**;
* `Scriptlet.Parser.Forward` — a parser only goes forward.

Main results:

* `Scriptlet.Parser.Forward.bind` — two parsers in a row go forward if both do;
* `Scriptlet.Parser.forwardExpressions`, `Scriptlet.Parser.forwardStatements` — **every parser only
  goes forward**, whatever the fuel;
* `Scriptlet.Program.supply_parse` — the supply behind a program, read or not.
-/

import Scriptlet.Program.Parse

set_option relaxedAutoImplicit false
set_option autoImplicit false

namespace Scriptlet

/-! ### Supplies -/

/-- A supply of which at least as much has been given away. -/
structure Supply.Le (s s' : Supply) : Prop where
  expr : s.expr ≤ s'.expr
  routine : s.routine ≤ s'.routine

theorem Supply.Le.refl (s : Supply) : s.Le s := ⟨Nat.le_refl _, Nat.le_refl _⟩

theorem Supply.Le.trans {s s₁ s₂ : Supply} (h : s.Le s₁) (h' : s₁.Le s₂) : s.Le s₂ :=
  ⟨Nat.le_trans h.expr h'.expr, Nat.le_trans h.routine h'.routine⟩

/-! ### Cursors -/

namespace Cursor

/-- One cursor can be reached from another by reading: tokens are dropped from the front, errors
are added, numbers are given away, and the end of the source stays. -/
structure Reaches (c c' : Cursor) : Prop where
  /-- Tokens are only dropped from the front. -/
  ahead : c'.ahead <:+ c.ahead
  /-- The end of the source stays. -/
  finish : c'.finish = c.finish
  /-- Errors are only added. -/
  errors : c.errors <:+ c'.errors
  /-- Numbers are only given away. -/
  supply : c.supply.Le c'.supply

theorem Reaches.refl (c : Cursor) : c.Reaches c := ⟨List.suffix_rfl, rfl, List.suffix_rfl, .refl _⟩

theorem Reaches.trans {c c₁ c₂ : Cursor} (h : c.Reaches c₁) (h' : c₁.Reaches c₂) : c.Reaches c₂ :=
  ⟨h'.ahead.trans h.ahead, h'.finish.trans h.finish, h.errors.trans h'.errors,
    h.supply.trans h'.supply⟩

theorem reaches_advance (c : Cursor) : c.Reaches c.advance := by
  unfold advance
  split
  · rename_i t ts h
    exact ⟨by rw [h]; exact List.suffix_cons t ts, rfl, List.suffix_rfl, .refl _⟩
  · exact .refl c

theorem reaches_synchronize (c : Cursor) : c.Reaches c.synchronize := by
  unfold synchronize
  split
  · exact .refl c
  · rename_i t ts h
    refine ⟨?_, rfl, List.suffix_rfl, .refl _⟩
    rw [h]
    exact (settle_suffix t ts).trans (List.suffix_cons t ts)

end Cursor

/-! ### Single steps -/

namespace Parser

variable {α β : Type}

/-- A parser only goes forward: whatever it answers, the cursor it leaves behind can be reached
from the one it started at. -/
def Forward (p : Parser α) : Prop :=
  ∀ c, match p c with
    | .done _ c' => c.Reaches c'
    | .failed _ c' => c.Reaches c'
    | .starved => True

namespace Forward

theorem pure (a : α) : Forward (Parser.pure a) := fun c => .refl c

/-- **Two parsers in a row go forward if both do.** -/
theorem bind {p : Parser α} {f : α → Parser β} (hp : Forward p) (hf : ∀ a, Forward (f a)) :
    Forward (p >>= f) := by
  intro c
  have hp := hp c
  rw [bind_apply]
  cases h : p c with
  | done a c₁ =>
      rw [h] at hp
      have hf := hf a c₁
      dsimp only at hp ⊢
      cases h' : f a c₁ with
      | done b c₂ =>
          rw [h'] at hf
          exact hp.trans hf
      | failed e c₂ =>
          rw [h'] at hf
          exact hp.trans hf
      | starved => trivial
  | failed e c₁ =>
      rw [h] at hp
      exact hp
  | starved => trivial

theorem starve : Forward (Parser.starve : Parser α) := fun _ => trivial

theorem peek : Forward Parser.peek := fun c => .refl c

theorem advance : Forward Parser.advance := fun c => c.reaches_advance

theorem fail (e : SyntaxError) : Forward (Parser.fail e : Parser α) := fun c => .refl c

theorem report (fault : SyntaxFault) : Forward (Parser.report fault) := fun _ =>
  ⟨List.suffix_rfl, rfl, List.suffix_cons _ _, .refl _⟩

theorem check (kind : TokenKind) : Forward (Parser.check kind) := fun c => .refl c

theorem atEnd : Forward Parser.atEnd := fun c => .refl c

theorem mark (span : Span) : Forward (Parser.mark span) := fun _ =>
  ⟨List.suffix_rfl, rfl, List.suffix_rfl, Nat.le_succ _, Nat.le_refl _⟩

theorem spanFrom (start : Span) : Forward (Parser.spanFrom start) := fun c => .refl c

theorem freshLabel : Forward Parser.freshLabel := fun _ =>
  ⟨List.suffix_rfl, rfl, List.suffix_rfl, Nat.le_refl _, Nat.le_succ _⟩

theorem accept (kind : TokenKind) : Forward (Parser.accept kind) := by
  intro c
  unfold Parser.accept
  by_cases h : c.next.kind = kind
  · rw [if_pos h]
    exact c.reaches_advance
  · rw [if_neg h]
    exact .refl c

theorem expect (kind : TokenKind) (place : Place) : Forward (Parser.expect kind place) := by
  intro c
  unfold Parser.expect
  by_cases h : c.next.kind = kind
  · rw [if_pos h]
    exact c.reaches_advance
  · rw [if_neg h]
    exact .refl c

theorem expectName (role : NameRole) : Forward (Parser.expectName role) := by
  intro c
  unfold Parser.expectName
  by_cases h : c.next.kind = .identifier
  · rw [if_pos h]
    exact c.reaches_advance
  · rw [if_neg h]
    exact .refl c

/-- Recovery goes forward. -/
theorem recover {p : Parser α} (hp : Forward p) : Forward (Parser.recover p) := by
  intro c
  have hp := hp c
  unfold Parser.recover
  cases h : p c with
  | done a c₁ =>
      rw [h] at hp
      exact hp
  | failed e c₁ =>
      rw [h] at hp
      have hreport : c₁.Reaches { c₁ with errors := e :: c₁.errors } :=
        ⟨List.suffix_rfl, rfl, List.suffix_cons _ _, .refl _⟩
      exact hp.trans (hreport.trans (Cursor.reaches_synchronize _))
  | starved => trivial

/-- The report of a list that is too long goes forward. -/
theorem limited {p : Parser α} {count : Nat} {fault : SyntaxFault} (hp : Forward p) :
    Forward (if arityLimit ≤ count then (do Parser.report fault; p) else p) := by
  split
  · exact (report fault).bind fun _ => hp
  · exact hp

end Forward

/-! ### Expressions -/

/-- With some fuel, the parsers of expressions only go forward. -/
structure ForwardExpressions (fuel : Nat) : Prop where
  expression : Forward (expression fuel)
  assignment : Forward (assignment fuel)
  operand : ∀ level, Forward (operand fuel level)
  joins : ∀ level left, Forward (joins fuel level left)
  unary : Forward (unary fuel)
  suffixes : ∀ callee, Forward (suffixes fuel callee)
  argumentList : Forward (argumentList fuel)
  arguments : ∀ count, Forward (arguments fuel count)
  primary : Forward (primary fuel)

section Expressions

variable {n : Nat}

theorem forward_expression (ih : ForwardExpressions n) : Forward (expression (n + 1)) := by
  rw [expression]
  refine ih.assignment.bind fun _ => Forward.peek.bind fun question => ?_
  split
  · refine Forward.advance.bind fun _ => ih.assignment.bind fun _ =>
      (Forward.accept _).bind fun colon => ?_
    split
    · exact ih.assignment.bind fun _ => (Forward.mark _).bind fun _ => .pure _
    · exact .fail _
  · exact .pure _

theorem forward_assignment (ih : ForwardExpressions n) : Forward (assignment (n + 1)) := by
  rw [assignment]
  refine (ih.operand _).bind fun target => Forward.peek.bind fun equals => ?_
  split
  · refine Forward.advance.bind fun _ => ih.assignment.bind fun _ => ?_
    split
    · exact (Forward.mark _).bind fun _ => .pure _
    · exact (Forward.mark _).bind fun _ => .pure _
    · exact .fail _
  · exact .pure _

theorem forward_operand (ih : ForwardExpressions n) (level : Option Level) :
    Forward (operand (n + 1) level) := by
  cases level with
  | none => exact ih.unary
  | some level =>
      rw [operand]
      exact (ih.operand _).bind fun _ => ih.joins _ _

theorem forward_joins (ih : ForwardExpressions n) (level : Level) (left : Expr) :
    Forward (joins (n + 1) level left) := by
  rw [joins]
  refine Forward.peek.bind fun operator => ?_
  split
  · exact Forward.advance.bind fun _ => (ih.operand _).bind fun _ =>
      (Forward.mark _).bind fun _ => ih.joins _ _
  · exact .pure _

theorem forward_unary (ih : ForwardExpressions n) : Forward (unary (n + 1)) := by
  rw [unary]
  refine Forward.peek.bind fun operator => ?_
  split
  · exact Forward.advance.bind fun _ => ih.unary.bind fun _ =>
      (Forward.mark _).bind fun _ => .pure _
  · exact ih.primary.bind fun _ => ih.suffixes _

theorem forward_suffixes (ih : ForwardExpressions n) (callee : Expr) :
    Forward (suffixes (n + 1) callee) := by
  rw [suffixes]
  refine (Forward.accept _).bind fun opening => ?_
  split
  · exact ih.argumentList.bind fun _ => (Forward.expect _ _).bind fun _ =>
      (Forward.mark _).bind fun _ => ih.suffixes _
  · refine (Forward.accept _).bind fun dot => ?_
    split
    · exact (Forward.expectName _).bind fun _ => (Forward.mark _).bind fun _ => ih.suffixes _
    · exact .pure _

theorem forward_argumentList (ih : ForwardExpressions n) : Forward (argumentList (n + 1)) := by
  rw [argumentList]
  refine (Forward.check _).bind fun closed => ?_
  split
  · exact .pure _
  · exact ih.arguments 0

theorem forward_arguments (ih : ForwardExpressions n) (count : Nat) :
    Forward (arguments (n + 1) count) := by
  rw [arguments]
  refine Forward.limited (ih.expression.bind fun _ => (Forward.accept _).bind fun comma => ?_)
  split
  · exact (ih.arguments _).bind fun _ => .pure _
  · exact .pure _

theorem forward_constant (token : Token) :
    Forward (match Constant.ofToken? token with
      | some value => do
          let _ ← advance
          let mark ← mark token.span
          pure (.constant mark value)
      | none => fail ⟨.malformedLiteral, token⟩ : Parser Expr) := by
  split
  · exact Forward.advance.bind fun _ => (Forward.mark _).bind fun _ => .pure _
  · exact .fail _

theorem forward_primary (ih : ForwardExpressions n) : Forward (primary (n + 1)) := by
  rw [primary]
  refine Forward.peek.bind fun token => ?_
  split
  · exact forward_constant token
  · exact forward_constant token
  · exact forward_constant token
  · exact forward_constant token
  · exact forward_constant token
  · exact Forward.advance.bind fun _ => (Forward.mark _).bind fun _ => .pure _
  · exact Forward.advance.bind fun _ => (Forward.expect _ _).bind fun _ =>
      (Forward.expectName _).bind fun _ => (Forward.mark _).bind fun _ => .pure _
  · exact Forward.advance.bind fun _ => (Forward.mark _).bind fun _ => .pure _
  · exact Forward.advance.bind fun _ => ih.expression.bind fun _ =>
      (Forward.expect _ _).bind fun _ => (Forward.mark _).bind fun _ => .pure _
  · exact .fail _

/-- **The parsers of expressions only go forward**, whatever the fuel. -/
theorem forwardExpressions (n : Nat) : ForwardExpressions n := by
  induction n with
  | zero =>
      exact ⟨.starve, .starve, fun level => by cases level <;> exact .starve, fun _ _ => .starve,
        .starve, fun _ => .starve, .starve, fun _ => .starve, .starve⟩
  | succ n ih =>
      exact ⟨forward_expression ih, forward_assignment ih, forward_operand ih, forward_joins ih,
        forward_unary ih, forward_suffixes ih, forward_argumentList ih, forward_arguments ih,
        forward_primary ih⟩

end Expressions

/-! ### Parts of declarations and statements -/

theorem forward_parameters (n count : Nat) : Forward (parameters n count) := by
  induction n generalizing count with
  | zero => exact .starve
  | succ n ih =>
      rw [parameters]
      refine Forward.limited ((Forward.expectName _).bind fun name =>
        (Forward.accept _).bind fun comma => ?_)
      split
      · exact (ih _).bind fun _ => .pure _
      · exact .pure _

section Parts

variable (n : Nat)

theorem forward_parameterList : Forward (parameterList n) := by
  rw [parameterList]
  refine (Forward.check _).bind fun closed => ?_
  split
  · exact .pure _
  · exact forward_parameters n 0

theorem forward_superclass : Forward superclass := by
  rw [superclass]
  refine (Forward.accept _).bind fun less => ?_
  split
  · exact (Forward.expectName _).bind fun _ => (Forward.mark _).bind fun _ => .pure _
  · exact .pure _

theorem forward_variableDeclaration : Forward (variableDeclaration n) := by
  rw [variableDeclaration]
  refine Forward.advance.bind fun _ => (Forward.expectName _).bind fun name =>
    (Forward.accept _).bind fun equals => ?_
  split
  · exact (forwardExpressions n).expression.bind fun _ => (Forward.pure _).bind fun _ =>
      (Forward.expect _ _).bind fun _ => (Forward.spanFrom _).bind fun _ => .pure _
  · exact (Forward.pure _).bind fun _ => (Forward.expect _ _).bind fun _ =>
      (Forward.spanFrom _).bind fun _ => .pure _

theorem forward_expressionStatement : Forward (expressionStatement n) := by
  rw [expressionStatement]
  exact (forwardExpressions n).expression.bind fun _ => (Forward.expect _ _).bind fun _ => .pure _

theorem forward_printStatement : Forward (printStatement n) := by
  rw [printStatement]
  exact Forward.advance.bind fun _ => (forwardExpressions n).expression.bind fun _ =>
    (Forward.expect _ _).bind fun _ => (Forward.spanFrom _).bind fun _ => .pure _

theorem forward_returnStatement : Forward (returnStatement n) := by
  rw [returnStatement]
  refine Forward.advance.bind fun keyword => (Forward.check _).bind fun closed => ?_
  have hend : ∀ value : Option Expr, Forward (do
      let _ ← expect .semicolon .afterReturned
      let span ← spanFrom keyword.span
      pure (.ret keyword.span value span) : Parser Stmt) := fun value =>
    (Forward.expect _ _).bind fun _ => (Forward.spanFrom _).bind fun _ => .pure _
  split
  · exact (Forward.pure _).bind hend
  · exact (forwardExpressions n).expression.bind fun _ => (Forward.pure _).bind hend

theorem forward_loopInitializer : Forward (loopInitializer n) := by
  rw [loopInitializer]
  refine (Forward.accept _).bind fun semicolon => ?_
  split
  · exact .pure _
  · refine (Forward.check _).bind fun keyword => ?_
    split
    · exact (forward_variableDeclaration n).bind fun _ => .pure _
    · exact (forward_expressionStatement n).bind fun _ => .pure _

theorem forward_loopCondition : Forward (loopCondition n) := by
  rw [loopCondition]
  refine (Forward.check _).bind fun closed => ?_
  have hend : ∀ condition : Expr, Forward (do
      let _ ← expect .semicolon .afterLoopCondition
      pure condition : Parser Expr) := fun _ => (Forward.expect _ _).bind fun _ => .pure _
  split
  · exact Forward.peek.bind fun _ => (Forward.mark _).bind fun _ => (Forward.pure _).bind hend
  · exact (forwardExpressions n).expression.bind hend

theorem forward_loopIncrement : Forward (loopIncrement n) := by
  rw [loopIncrement]
  refine (Forward.check _).bind fun closed => ?_
  have hend : ∀ increment : Option Expr, Forward (do
      let _ ← expect .rightParen .afterForClauses
      pure increment : Parser (Option Expr)) := fun _ =>
    (Forward.expect _ _).bind fun _ => .pure _
  split
  · exact (Forward.pure _).bind hend
  · exact (forwardExpressions n).expression.bind fun _ => (Forward.pure _).bind hend

end Parts

/-! ### Declarations and statements -/

/-- With some fuel, the parsers of declarations and statements only go forward. -/
structure ForwardStatements (fuel : Nat) : Prop where
  declaration : Forward (declaration fuel)
  wholeDeclaration : Forward (wholeDeclaration fuel)
  methods : Forward (methods fuel)
  routine : ∀ role, Forward (routine fuel role)
  blockBody : Forward (blockBody fuel)
  declarations : ∀ inBlock, Forward (declarations fuel inBlock)
  statement : Forward (statement fuel)

section Statements

variable {n : Nat}

theorem forward_wholeDeclaration (ih : ForwardStatements n) :
    Forward (wholeDeclaration (n + 1)) := by
  rw [wholeDeclaration]
  refine Forward.peek.bind fun token => ?_
  split
  · exact Forward.advance.bind fun _ => (Forward.expectName _).bind fun _ =>
      forward_superclass.bind fun _ => (Forward.expect _ _).bind fun _ => ih.methods.bind fun _ =>
      (Forward.expect _ _).bind fun _ => (Forward.spanFrom _).bind fun _ => .pure _
  · exact Forward.advance.bind fun _ => (ih.routine _).bind fun _ =>
      (Forward.spanFrom _).bind fun _ => .pure _
  · exact forward_variableDeclaration n
  · exact ih.statement.bind fun _ => .pure _

theorem forward_methods (ih : ForwardStatements n) : Forward (methods (n + 1)) := by
  rw [methods]
  refine (Forward.check _).bind fun closed => Forward.atEnd.bind fun finished => ?_
  split
  · exact .pure _
  · exact (ih.routine _).bind fun _ => ih.methods.bind fun _ => .pure _

theorem forward_routine (ih : ForwardStatements n) (role : RoutineRole) :
    Forward (routine (n + 1) role) := by
  rw [routine]
  exact (Forward.expectName _).bind fun _ => (Forward.expect _ _).bind fun _ =>
    (forward_parameterList n).bind fun _ => (Forward.expect _ _).bind fun _ =>
    (Forward.expect _ _).bind fun _ => ih.blockBody.bind fun _ =>
    (Forward.spanFrom _).bind fun _ => Forward.freshLabel.bind fun _ => .pure _

theorem forward_blockBody (ih : ForwardStatements n) : Forward (blockBody (n + 1)) := by
  rw [blockBody]
  exact (ih.declarations _).bind fun _ => (Forward.expect _ _).bind fun _ => .pure _

theorem forward_declarations (ih : ForwardStatements n) (inBlock : Bool) :
    Forward (declarations (n + 1) inBlock) := by
  rw [declarations]
  refine (Forward.check _).bind fun closed => Forward.atEnd.bind fun finished => ?_
  split
  · exact .pure _
  · exact ih.declaration.bind fun _ => (ih.declarations _).bind fun _ => .pure _

theorem forward_statement (ih : ForwardStatements n) : Forward (statement (n + 1)) := by
  rw [statement]
  refine Forward.peek.bind fun token => ?_
  split
  · exact forward_printStatement n
  · exact forward_returnStatement n
  · exact Forward.advance.bind fun _ => ih.blockBody.bind fun _ =>
      (Forward.spanFrom _).bind fun _ => .pure _
  · refine Forward.advance.bind fun _ => (Forward.expect _ _).bind fun _ =>
      (forwardExpressions n).expression.bind fun _ => (Forward.expect _ _).bind fun _ =>
      ih.statement.bind fun _ => (Forward.accept _).bind fun otherwise => ?_
    split
    · exact ih.statement.bind fun _ => (Forward.pure _).bind fun _ =>
        (Forward.spanFrom _).bind fun _ => .pure _
    · exact (Forward.pure _).bind fun _ => (Forward.spanFrom _).bind fun _ => .pure _
  · exact Forward.advance.bind fun _ => (Forward.expect _ _).bind fun _ =>
      (forwardExpressions n).expression.bind fun _ => (Forward.expect _ _).bind fun _ =>
      ih.statement.bind fun _ => (Forward.spanFrom _).bind fun _ => .pure _
  · exact Forward.advance.bind fun _ => (Forward.expect _ _).bind fun _ =>
      (forward_loopInitializer n).bind fun _ => (forward_loopCondition n).bind fun _ =>
      (forward_loopIncrement n).bind fun _ => ih.statement.bind fun _ =>
      (Forward.spanFrom _).bind fun _ => .pure _
  · exact forward_expressionStatement n

/-- **The parsers of declarations and statements only go forward**, whatever the fuel. -/
theorem forwardStatements (n : Nat) : ForwardStatements n := by
  induction n with
  | zero =>
      exact ⟨.starve, .starve, .starve, fun _ => .starve, .starve, fun _ => .starve, .starve⟩
  | succ n ih =>
      exact ⟨ih.wholeDeclaration.recover, forward_wholeDeclaration ih, forward_methods ih,
        forward_routine ih, forward_blockBody ih, forward_declarations ih, forward_statement ih⟩

end Statements

end Parser

/-- The supply behind a program, whether it could be read or not. -/
theorem Program.supply_parse (ts : List Token) (supply : Supply) :
    supply.Le (Program.parse ts supply).2 := by
  have h := (Parser.forwardStatements (fuelFor ts)).declarations false (Cursor.ofTokens ts supply)
  unfold Program.parse
  generalize Parser.declarations (fuelFor ts) false (Cursor.ofTokens ts supply) = reply at h ⊢
  cases reply with
  | done decls c =>
      dsimp only at h ⊢
      split <;> exact h.supply
  | failed e c => exact h.supply
  | starved => exact .refl supply

end Scriptlet
