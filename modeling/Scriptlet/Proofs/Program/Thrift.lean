/-
**A reading takes no more numbers than there are tokens.**

An expression takes its number behind a token of its own: a literal, a name, an operator, an
opening bracket or a dot.  The condition that is left out of a `for` loop takes its number in front
of the semicolon, which is passed next.  So what a parser adds to the numbers taken, it takes from
the tokens ahead, and the two together are never more than they were; behind a token that was
passed, a parser may take one number on credit.

Main definitions:

* `Scriptlet.Cursor.Affords` — a cursor that stays within a budget of numbers and tokens;
* `Scriptlet.Parser.Thrifty` — **a parser that takes no more numbers than it passes tokens**, but
  for its credit;
* `Scriptlet.Program.taken` — how many numbers the reading of a list of tokens takes.

Main results:

* `Scriptlet.Parser.thriftyExpressions`, `Scriptlet.Parser.thriftyStatements` — every parser is
  thrifty, whatever the fuel;
* `Scriptlet.Program.taken_le` — **a reading takes at most as many numbers as there are tokens**.
-/

import Scriptlet.Proofs.Program.Ample

set_option relaxedAutoImplicit false
set_option autoImplicit false

namespace Scriptlet

/-! ### Budgets -/

/-- A cursor in front of a proper end of the source, at which the numbers taken so far and the
tokens ahead, together, are within a budget. -/
structure Cursor.Affords (c : Cursor) (budget : Nat) : Prop where
  finish : c.finish.kind = .endOfSource
  le : c.ahead.length + c.supply.expr ≤ budget

namespace Cursor.Affords

variable {c : Cursor} {budget : Nat}

theorem mono {budget' : Nat} (h : c.Affords budget) (hle : budget ≤ budget') :
    c.Affords budget' :=
  ⟨h.finish, Nat.le_trans h.le hle⟩

/-- Where tokens are only dropped and no number is taken, the budget is the same. -/
theorem reaches {c' : Cursor} (h : c.Affords budget) (hr : c.Reaches c')
    (hsupply : c'.supply = c.supply) : c'.Affords budget := by
  refine ⟨by rw [hr.finish, h.finish], ?_⟩
  rw [hsupply]
  exact Nat.le_trans (Nat.add_le_add_right hr.ahead.length_le _) h.le

theorem advance (h : c.Affords budget) : c.advance.Affords budget :=
  h.reaches c.reaches_advance c.advance_supply

/-- A token that is passed leaves a number in the budget. -/
theorem passed {kind : TokenKind} (h : c.Affords budget) (hk : c.next.kind = kind)
    (hkind : kind ≠ .endOfSource) : ∃ less, budget = less + 1 ∧ c.advance.Affords less := by
  have hlength := length_advance (ahead_ne_nil h.finish hk hkind)
  have hle := h.le
  obtain ⟨less, rfl⟩ : ∃ less, budget = less + 1 := ⟨budget - 1, by omega⟩
  refine ⟨less, rfl, by rw [c.advance_finish, h.finish], ?_⟩
  rw [c.advance_supply]
  omega

/-- A number is taken on credit. -/
theorem numbered (h : c.Affords budget) : c.numbered.Affords (budget + 1) := by
  refine ⟨h.finish, ?_⟩
  have hle := h.le
  change c.ahead.length + (c.supply.expr + 1) ≤ budget + 1
  omega

end Cursor.Affords

/-- An answer that leaves a cursor within a budget. -/
def Reply.Affords {α : Type} (budget : Nat) : Reply α → Prop
  | .done _ c => c.Affords budget
  | .failed _ c => c.Affords budget
  | .starved => True

namespace Parser

variable {α β : Type}

/-! ### Thrifty parsers -/

/-- **A parser that takes no more numbers than it passes tokens**, but for those on credit. -/
def Thrifty (credit : Nat) (p : Parser α) : Prop :=
  ∀ ⦃c : Cursor⦄ ⦃budget : Nat⦄, c.Affords budget → (p c).Affords (budget + credit)

/-- A parser is thrifty where the next token is known. -/
def ThriftyOn (t : Token) (p : Parser α) : Prop :=
  ∀ ⦃c : Cursor⦄ ⦃budget : Nat⦄, c.Affords budget → c.next = t → (p c).Affords budget

namespace Thrifty

variable {credit : Nat}

theorem pure (a : α) : Thrifty credit (Parser.pure a) := fun _ _ hc =>
  hc.mono (Nat.le_add_right _ _)

theorem starve : Thrifty credit (Parser.starve : Parser α) := fun _ _ _ => trivial

theorem fail (e : SyntaxError) : Thrifty credit (Parser.fail e : Parser α) := fun _ _ hc =>
  hc.mono (Nat.le_add_right _ _)

/-- **Two parsers in a row are thrifty if both are.**  The second one may use the credit. -/
theorem bind {p : Parser α} {f : α → Parser β} (hp : Thrifty 0 p)
    (hf : ∀ a, Thrifty credit (f a)) : Thrifty credit (p >>= f) := by
  intro c budget hc
  have hp := hp hc
  rw [bind_apply]
  cases h : p c with
  | done a c₁ =>
      rw [h] at hp
      exact hf a hp
  | failed e c₁ =>
      rw [h] at hp
      exact Cursor.Affords.mono hp (Nat.add_le_add_left (Nat.zero_le _) _)
  | starved => trivial

theorem peek : Thrifty 0 Parser.peek := fun _ _ hc => hc

theorem advance : Thrifty 0 Parser.advance := fun _ _ hc => hc.advance

theorem check (kind : TokenKind) : Thrifty 0 (Parser.check kind) := fun _ _ hc => hc

theorem atEnd : Thrifty 0 Parser.atEnd := fun _ _ hc => hc

theorem spanFrom (start : Span) : Thrifty 0 (Parser.spanFrom start) := fun _ _ hc => hc

theorem freshLabel : Thrifty 0 Parser.freshLabel := fun _ _ hc => ⟨hc.finish, hc.le⟩

/-- The number of a mark is taken on credit. -/
theorem mark_bind {span : Span} {f : Mark → Parser β} (hf : ∀ m, Thrifty 0 (f m)) :
    Thrifty 1 (Parser.mark span >>= f) := fun _ _ hc => hf _ hc.numbered

/-- A token that is accepted pays for a number behind it. -/
theorem accept_bind {kind : TokenKind} {f : Bool → Parser β} (hkind : kind ≠ .endOfSource)
    (htrue : Thrifty 1 (f true)) (hfalse : Thrifty 0 (f false)) :
    Thrifty 0 (Parser.accept kind >>= f) := by
  intro c budget hc
  rw [Parser.accept_bind]
  split
  · rename_i hk
    obtain ⟨less, rfl, hc₁⟩ := hc.passed hk hkind
    exact htrue hc₁
  · exact hfalse hc

/-- A mark that is expected pays for a number behind it. -/
theorem expect_bind {kind : TokenKind} {place : Place} {f : Span → Parser β}
    (hkind : kind ≠ .endOfSource) (hf : ∀ span, Thrifty (credit + 1) (f span)) :
    Thrifty credit (Parser.expect kind place >>= f) := by
  intro c budget hc
  rw [Parser.expect_bind]
  split
  · rename_i hk
    obtain ⟨less, rfl, hc₁⟩ := hc.passed hk hkind
    exact Nat.add_right_comm less 1 credit ▸ hf _ hc₁
  · exact hc.mono (Nat.le_add_right _ _)

/-- A name that is expected pays for a number behind it. -/
theorem expectName_bind {role : NameRole} {f : String × Span → Parser β}
    (hf : ∀ name, Thrifty (credit + 1) (f name)) :
    Thrifty credit (Parser.expectName role >>= f) := by
  intro c budget hc
  rw [Parser.expectName_bind]
  split
  · rename_i hk
    obtain ⟨less, rfl, hc₁⟩ := hc.passed hk nofun
    exact Nat.add_right_comm less 1 credit ▸ hf _ hc₁
  · exact hc.mono (Nat.le_add_right _ _)

theorem on {p : Parser α} (hp : Thrifty 0 p) (t : Token) : ThriftyOn t p := fun _ _ hc _ => hp hc

theorem peek_bind {f : Token → Parser β} (hf : ∀ t, ThriftyOn t (f t)) :
    Thrifty 0 (Parser.peek >>= f) := fun c _ hc => hf c.next hc rfl

/-- A token that is known not to end the source pays for a number behind it. -/
theorem passing {f : Token → Parser β} {t : Token} {kind : TokenKind} (hk : t.kind = kind)
    (hkind : kind ≠ .endOfSource) (hf : ∀ t, Thrifty 1 (f t)) :
    ThriftyOn t (Parser.advance >>= f) := by
  rintro c budget hc rfl
  obtain ⟨less, rfl, hc₁⟩ := hc.passed hk hkind
  exact hf _ hc₁

/-- Credit need not be used. -/
theorem mono {p : Parser α} {credit' : Nat} (hp : Thrifty credit p) (hle : credit ≤ credit') :
    Thrifty credit' p := by
  intro c budget hc
  have hp := hp hc
  cases h : p c with
  | done a c₁ =>
      rw [h] at hp
      exact Cursor.Affords.mono hp (Nat.add_le_add_left hle _)
  | failed e c₁ =>
      rw [h] at hp
      exact Cursor.Affords.mono hp (Nat.add_le_add_left hle _)
  | starved => trivial

/-- The report of a list that is too long takes no number. -/
theorem limited {p : Parser α} {count : Nat} {fault : SyntaxFault} (hp : Thrifty 0 p) :
    Thrifty 0 (if arityLimit ≤ count then (do Parser.report fault; p) else p) := by
  split
  · exact fun _ _ hc => hp ⟨hc.finish, hc.le⟩
  · exact hp

/-- Recovery from an error only drops tokens. -/
theorem recover {p : Parser α} (hp : Thrifty 0 p) : Thrifty 0 (Parser.recover p) := by
  intro c budget hc
  have hp := hp hc
  unfold Parser.recover
  cases h : p c with
  | done a c₁ =>
      rw [h] at hp
      exact hp
  | failed e c₁ =>
      rw [h] at hp
      have hreported : Cursor.Affords { c₁ with errors := e :: c₁.errors } budget :=
        ⟨hp.finish, hp.le⟩
      refine hreported.reaches (Cursor.reaches_synchronize _) ?_
      unfold Cursor.synchronize
      split <;> rfl
  | starved => trivial

end Thrifty

/-! ### Expressions -/

/-- With some fuel, the parsers of expressions are thrifty. -/
structure ThriftyExpressions (fuel : Nat) : Prop where
  expression : Thrifty 0 (expression fuel)
  assignment : Thrifty 0 (assignment fuel)
  operand : ∀ level, Thrifty 0 (operand fuel level)
  joins : ∀ level left, Thrifty 0 (joins fuel level left)
  unary : Thrifty 0 (unary fuel)
  suffixes : ∀ callee, Thrifty 0 (suffixes fuel callee)
  argumentList : Thrifty 0 (argumentList fuel)
  arguments : ∀ count, Thrifty 0 (arguments fuel count)
  primary : Thrifty 0 (primary fuel)

section Expressions

variable {n : Nat}

/-- The colon of a choice pays for its number. -/
theorem thrifty_expression (ih : ThriftyExpressions n) : Thrifty 0 (expression (n + 1)) := by
  rw [expression]
  refine ih.assignment.bind fun condition => Thrifty.peek.bind fun question => ?_
  split
  · refine Thrifty.advance.bind fun _ => ih.assignment.bind fun _ =>
      .accept_bind (by decide) ?_ ?_
    · rw [if_pos rfl]
      exact ih.assignment.bind fun _ => .mark_bind fun _ => .pure _
    · rw [if_neg (by decide)]
      exact .fail _
  · exact .pure _

/-- The equals sign pays for the number of an assignment; that of its left side is lost. -/
theorem thrifty_assignment (ih : ThriftyExpressions n) : Thrifty 0 (assignment (n + 1)) := by
  rw [assignment]
  refine (ih.operand _).bind fun target => .peek_bind fun equals => ?_
  split
  · rename_i hequal
    refine Thrifty.passing hequal (by decide) fun _ => ih.assignment.bind fun _ => ?_
    split
    · exact .mark_bind fun _ => .pure _
    · exact .mark_bind fun _ => .pure _
    · exact .fail _
  · exact Thrifty.on (.pure _) _

theorem thrifty_operand (ih : ThriftyExpressions n) (level : Option Level) :
    Thrifty 0 (operand (n + 1) level) := by
  cases level with
  | none => exact ih.unary
  | some level =>
      rw [operand]
      exact (ih.operand _).bind fun _ => ih.joins _ _

/-- An operator pays for the number of its expression. -/
theorem thrifty_joins (ih : ThriftyExpressions n) (level : Level) (left : Expr) :
    Thrifty 0 (joins (n + 1) level left) := by
  rw [joins]
  refine .peek_bind fun operator => ?_
  split
  · rename_i join hjoin
    exact Thrifty.passing rfl (join_ne_end hjoin) fun _ => (ih.operand _).bind fun _ =>
      .mark_bind fun _ => ih.joins _ _
  · exact Thrifty.on (.pure _) _

theorem thrifty_unary (ih : ThriftyExpressions n) : Thrifty 0 (unary (n + 1)) := by
  rw [unary]
  refine .peek_bind fun operator => ?_
  split
  · rename_i op hop
    exact Thrifty.passing rfl (unary_ne_end hop) fun _ => ih.unary.bind fun _ =>
      .mark_bind fun _ => .pure _
  · exact Thrifty.on (ih.primary.bind fun _ => ih.suffixes _) _

/-- A parenthesis or a dot pays for the number of a call or a property. -/
theorem thrifty_suffixes (ih : ThriftyExpressions n) (callee : Expr) :
    Thrifty 0 (suffixes (n + 1) callee) := by
  rw [suffixes]
  refine .accept_bind (by decide) ?_ ?_
  · rw [if_pos rfl]
    exact ih.argumentList.bind fun _ => .mono (.expect_bind (by decide) fun _ =>
      .mark_bind fun _ => ih.suffixes _) (Nat.zero_le 1)
  · rw [if_neg (by decide)]
    refine .accept_bind (by decide) ?_ ?_
    · rw [if_pos rfl]
      exact .mono (.expectName_bind fun _ => .mark_bind fun _ => ih.suffixes _) (Nat.zero_le 1)
    · rw [if_neg (by decide)]
      exact .pure _

theorem thrifty_argumentList (ih : ThriftyExpressions n) : Thrifty 0 (argumentList (n + 1)) := by
  rw [argumentList]
  refine (Thrifty.check _).bind fun closed => ?_
  split
  · exact .pure _
  · exact ih.arguments 0

theorem thrifty_arguments (ih : ThriftyExpressions n) (count : Nat) :
    Thrifty 0 (arguments (n + 1) count) := by
  rw [arguments]
  refine .limited (ih.expression.bind fun _ => .accept_bind (by decide) ?_ ?_)
  · rw [if_pos rfl]
    exact .mono ((ih.arguments _).bind fun _ => .pure _) (Nat.zero_le 1)
  · rw [if_neg (by decide)]
    exact .pure _

/-- A token that stands for a value pays for the number of its expression. -/
theorem thrifty_constant {token : Token} {kind : TokenKind} (hk : token.kind = kind)
    (hkind : kind ≠ .endOfSource) :
    ThriftyOn token (match Constant.ofToken? token with
      | some value => do
          let _ ← advance
          let mark ← mark token.span
          pure (.constant mark value)
      | none => fail ⟨.malformedLiteral, token⟩ : Parser Expr) := by
  split
  · exact Thrifty.passing hk hkind fun _ => .mark_bind fun _ => .pure _
  · exact Thrifty.on (.fail _) _

theorem thrifty_primary (ih : ThriftyExpressions n) : Thrifty 0 (primary (n + 1)) := by
  rw [primary]
  refine .peek_bind fun token => ?_
  split
  · rename_i hk
    exact thrifty_constant hk (by decide)
  · rename_i hk
    exact thrifty_constant hk (by decide)
  · rename_i hk
    exact thrifty_constant hk (by decide)
  · rename_i hk
    exact thrifty_constant hk (by decide)
  · rename_i hk
    exact thrifty_constant hk (by decide)
  · rename_i hk
    exact Thrifty.passing hk (by decide) fun _ => .mark_bind fun _ => .pure _
  · exact Thrifty.on (Thrifty.advance.bind fun _ => .expect_bind (by decide) fun _ =>
      .mono (.expectName_bind fun _ => .mark_bind fun _ => .pure _) (Nat.zero_le 1)) _
  · rename_i hk
    exact Thrifty.passing hk (by decide) fun _ => .mark_bind fun _ => .pure _
  · exact Thrifty.on (Thrifty.advance.bind fun _ => ih.expression.bind fun _ =>
      .expect_bind (by decide) fun _ => .mark_bind fun _ => .pure _) _
  · exact Thrifty.on (.fail _) _

/-- **The parsers of expressions are thrifty**, whatever the fuel. -/
theorem thriftyExpressions (n : Nat) : ThriftyExpressions n := by
  induction n with
  | zero =>
      exact ⟨.starve, .starve, fun level => by cases level <;> exact .starve, fun _ _ => .starve,
        .starve, fun _ => .starve, .starve, fun _ => .starve, .starve⟩
  | succ n ih =>
      exact ⟨thrifty_expression ih, thrifty_assignment ih, thrifty_operand ih, thrifty_joins ih,
        thrifty_unary ih, thrifty_suffixes ih, thrifty_argumentList ih, thrifty_arguments ih,
        thrifty_primary ih⟩

end Expressions

/-! ### Parts of declarations and statements -/

theorem Thrifty.expect (kind : TokenKind) (place : Place) :
    Thrifty 0 (Parser.expect kind place) := by
  intro c budget hc
  unfold Parser.expect
  split
  · exact hc.advance
  · exact hc

theorem Thrifty.expectName (role : NameRole) : Thrifty 0 (Parser.expectName role) := by
  intro c budget hc
  unfold Parser.expectName
  split
  · exact hc.advance
  · exact hc

theorem Thrifty.accept (kind : TokenKind) : Thrifty 0 (Parser.accept kind) := by
  intro c budget hc
  unfold Parser.accept
  split
  · exact hc.advance
  · exact hc

theorem thrifty_parameters (n count : Nat) : Thrifty 0 (parameters n count) := by
  induction n generalizing count with
  | zero => exact .starve
  | succ n ih =>
      rw [parameters]
      refine .limited ((Thrifty.expectName _).bind fun name =>
        (Thrifty.accept _).bind fun comma => ?_)
      split
      · exact (ih _).bind fun _ => .pure _
      · exact .pure _

section Parts

variable (n : Nat)

theorem thrifty_parameterList : Thrifty 0 (parameterList n) := by
  rw [parameterList]
  refine (Thrifty.check _).bind fun closed => ?_
  split
  · exact .pure _
  · exact thrifty_parameters n 0

theorem thrifty_superclass : Thrifty 0 superclass := by
  rw [superclass]
  refine (Thrifty.accept _).bind fun less => ?_
  split
  · exact .expectName_bind fun _ => .mark_bind fun _ => .pure _
  · exact .pure _

theorem thrifty_variableDeclaration : Thrifty 0 (variableDeclaration n) := by
  rw [variableDeclaration]
  refine Thrifty.advance.bind fun keyword => (Thrifty.expectName _).bind fun name =>
    (Thrifty.accept _).bind fun equals => ?_
  split
  · exact (thriftyExpressions n).expression.bind fun _ => (Thrifty.pure _).bind fun _ =>
      (Thrifty.expect _ _).bind fun _ => (Thrifty.spanFrom _).bind fun _ => .pure _
  · exact (Thrifty.pure _).bind fun _ => (Thrifty.expect _ _).bind fun _ =>
      (Thrifty.spanFrom _).bind fun _ => .pure _

theorem thrifty_expressionStatement : Thrifty 0 (expressionStatement n) := by
  rw [expressionStatement]
  exact (thriftyExpressions n).expression.bind fun _ => (Thrifty.expect _ _).bind fun _ => .pure _

theorem thrifty_printStatement : Thrifty 0 (printStatement n) := by
  rw [printStatement]
  exact Thrifty.advance.bind fun _ => (thriftyExpressions n).expression.bind fun _ =>
    (Thrifty.expect _ _).bind fun _ => (Thrifty.spanFrom _).bind fun _ => .pure _

theorem thrifty_returnStatement : Thrifty 0 (returnStatement n) := by
  rw [returnStatement]
  refine Thrifty.advance.bind fun keyword => (Thrifty.check _).bind fun closed => ?_
  have hend : ∀ value : Option Expr, Thrifty 0 (do
      let _ ← expect .semicolon .afterReturned
      let span ← spanFrom keyword.span
      pure (.ret keyword.span value span) : Parser Stmt) := fun value =>
    (Thrifty.expect _ _).bind fun _ => (Thrifty.spanFrom _).bind fun _ => .pure _
  split
  · exact (Thrifty.pure _).bind hend
  · exact (thriftyExpressions n).expression.bind fun _ => (Thrifty.pure _).bind hend

theorem thrifty_loopInitializer : Thrifty 0 (loopInitializer n) := by
  rw [loopInitializer]
  refine (Thrifty.accept _).bind fun semicolon => ?_
  split
  · exact .pure _
  · refine (Thrifty.check _).bind fun keyword => ?_
    split
    · exact (thrifty_variableDeclaration n).bind fun _ => .pure _
    · exact (thrifty_expressionStatement n).bind fun _ => .pure _

/-- The condition that is left out takes its number in front of the semicolon that pays for it. -/
theorem thrifty_loopCondition : Thrifty 0 (loopCondition n) := by
  intro c budget hc
  rw [loopCondition, Parser.check_bind]
  split
  · rename_i hsemicolon
    have hnext : c.numbered.next.kind = .semicolon := eq_of_beq hsemicolon
    obtain ⟨less, hless, hc₁⟩ := hc.numbered.passed hnext (by decide)
    obtain rfl := Nat.succ.inj hless
    rw [Parser.peek_bind, Parser.mark_bind, answer_bind]
    dsimp only
    rw [Parser.expect_bind, if_pos hnext]
    exact hc₁
  · exact (thriftyExpressions n).expression.bind (fun _ => (Thrifty.expect _ _).bind fun _ =>
      .pure _) hc

theorem thrifty_loopIncrement : Thrifty 0 (loopIncrement n) := by
  rw [loopIncrement]
  refine (Thrifty.check _).bind fun closed => ?_
  have hend : ∀ increment : Option Expr, Thrifty 0 (do
      let _ ← expect .rightParen .afterForClauses
      pure increment : Parser (Option Expr)) := fun _ =>
    (Thrifty.expect _ _).bind fun _ => .pure _
  split
  · exact (Thrifty.pure _).bind hend
  · exact (thriftyExpressions n).expression.bind fun _ => (Thrifty.pure _).bind hend

end Parts

/-! ### Declarations and statements -/

/-- With some fuel, the parsers of declarations and statements are thrifty. -/
structure ThriftyStatements (fuel : Nat) : Prop where
  declaration : Thrifty 0 (declaration fuel)
  wholeDeclaration : Thrifty 0 (wholeDeclaration fuel)
  methods : Thrifty 0 (methods fuel)
  routine : ∀ role, Thrifty 0 (routine fuel role)
  blockBody : Thrifty 0 (blockBody fuel)
  declarations : ∀ inBlock, Thrifty 0 (declarations fuel inBlock)
  statement : Thrifty 0 (statement fuel)

section Statements

variable {n : Nat}

theorem thrifty_wholeDeclaration (ih : ThriftyStatements n) :
    Thrifty 0 (wholeDeclaration (n + 1)) := by
  rw [wholeDeclaration]
  refine Thrifty.peek.bind fun token => ?_
  split
  · exact Thrifty.advance.bind fun _ => (Thrifty.expectName _).bind fun _ =>
      thrifty_superclass.bind fun _ => (Thrifty.expect _ _).bind fun _ =>
      ih.methods.bind fun _ => (Thrifty.expect _ _).bind fun _ =>
      (Thrifty.spanFrom _).bind fun _ => .pure _
  · exact Thrifty.advance.bind fun _ => (ih.routine _).bind fun _ =>
      (Thrifty.spanFrom _).bind fun _ => .pure _
  · exact thrifty_variableDeclaration n
  · exact ih.statement.bind fun _ => .pure _

theorem thrifty_methods (ih : ThriftyStatements n) : Thrifty 0 (methods (n + 1)) := by
  rw [methods]
  refine (Thrifty.check _).bind fun closed => Thrifty.atEnd.bind fun finished => ?_
  split
  · exact .pure _
  · exact (ih.routine _).bind fun _ => ih.methods.bind fun _ => .pure _

theorem thrifty_routine (ih : ThriftyStatements n) (role : RoutineRole) :
    Thrifty 0 (routine (n + 1) role) := by
  rw [routine]
  exact (Thrifty.expectName _).bind fun _ => (Thrifty.expect _ _).bind fun _ =>
    (thrifty_parameterList n).bind fun _ => (Thrifty.expect _ _).bind fun _ =>
    (Thrifty.expect _ _).bind fun _ => ih.blockBody.bind fun _ =>
    (Thrifty.spanFrom _).bind fun _ => Thrifty.freshLabel.bind fun _ => .pure _

theorem thrifty_blockBody (ih : ThriftyStatements n) : Thrifty 0 (blockBody (n + 1)) := by
  rw [blockBody]
  exact (ih.declarations _).bind fun _ => (Thrifty.expect _ _).bind fun _ => .pure _

theorem thrifty_declarations (ih : ThriftyStatements n) (inBlock : Bool) :
    Thrifty 0 (declarations (n + 1) inBlock) := by
  rw [declarations]
  refine (Thrifty.check _).bind fun closed => Thrifty.atEnd.bind fun finished => ?_
  split
  · exact .pure _
  · exact ih.declaration.bind fun _ => (ih.declarations _).bind fun _ => .pure _

theorem thrifty_statement (ih : ThriftyStatements n) : Thrifty 0 (statement (n + 1)) := by
  have hexpression := (thriftyExpressions n).expression
  rw [statement]
  refine Thrifty.peek.bind fun token => ?_
  split
  · exact thrifty_printStatement n
  · exact thrifty_returnStatement n
  · exact Thrifty.advance.bind fun _ => ih.blockBody.bind fun _ =>
      (Thrifty.spanFrom _).bind fun _ => .pure _
  · refine Thrifty.advance.bind fun _ => (Thrifty.expect _ _).bind fun _ =>
      hexpression.bind fun _ => (Thrifty.expect _ _).bind fun _ =>
      ih.statement.bind fun _ => (Thrifty.accept _).bind fun otherwise => ?_
    split
    · exact ih.statement.bind fun _ => (Thrifty.pure _).bind fun _ =>
        (Thrifty.spanFrom _).bind fun _ => .pure _
    · exact (Thrifty.pure _).bind fun _ => (Thrifty.spanFrom _).bind fun _ => .pure _
  · exact Thrifty.advance.bind fun _ => (Thrifty.expect _ _).bind fun _ =>
      hexpression.bind fun _ => (Thrifty.expect _ _).bind fun _ =>
      ih.statement.bind fun _ => (Thrifty.spanFrom _).bind fun _ => .pure _
  · exact Thrifty.advance.bind fun _ => (Thrifty.expect _ _).bind fun _ =>
      (thrifty_loopInitializer n).bind fun _ => (thrifty_loopCondition n).bind fun _ =>
      (thrifty_loopIncrement n).bind fun _ => ih.statement.bind fun _ =>
      (Thrifty.spanFrom _).bind fun _ => .pure _
  · exact thrifty_expressionStatement n

/-- **The parsers of declarations and statements are thrifty**, whatever the fuel. -/
theorem thriftyStatements (n : Nat) : ThriftyStatements n := by
  induction n with
  | zero =>
      exact ⟨.starve, .starve, .starve, fun _ => .starve, .starve, fun _ => .starve, .starve⟩
  | succ n ih =>
      exact ⟨ih.wholeDeclaration.recover, thrifty_wholeDeclaration ih, thrifty_methods ih,
        thrifty_routine ih, thrifty_blockBody ih, thrifty_declarations ih, thrifty_statement ih⟩

end Statements

end Parser

/-! ### Programs -/

namespace Program

/-- **How many numbers the reading of a list of tokens takes**, whether it succeeds or not. -/
def taken (ts : List Token) : Nat := (parse ts .full).2.expr

/-- **A reading takes at most as many numbers as there are tokens** in front of the first end of the
source. -/
theorem taken_le (ts : List Token) : taken ts ≤ (ts.takeWhile Cursor.isInner).length := by
  have hstart : (Cursor.ofTokens ts .full).Affords (ts.takeWhile Cursor.isInner).length :=
    ⟨ofTokens_finish ts .full, Nat.le_refl _⟩
  have hend := (Parser.thriftyStatements (fuelFor ts)).declarations false hstart
  unfold taken parse
  cases hread : Parser.declarations (fuelFor ts) false (Cursor.ofTokens ts .full) with
  | done ds c =>
      rw [hread] at hend
      have hle : c.supply.expr ≤ (ts.takeWhile Cursor.isInner).length :=
        Nat.le_trans (Nat.le_add_left _ _) hend.le
      dsimp only
      split <;> exact hle
  | failed e c =>
      rw [hread] at hend
      exact Nat.le_trans (Nat.le_add_left _ _) hend.le
  | starved => exact Nat.zero_le _

end Program

end Scriptlet
