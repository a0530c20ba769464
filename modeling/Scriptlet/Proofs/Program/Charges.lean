/-
**Each error is charged to a token.**

A syntax error is reported at a token that is read, or at the end of the source.  The parser reports
no more errors than there are tokens in front of the end: what a parser adds to the errors it takes
from the tokens ahead.  A list that is too long reports an error and reads on; the comma in front of
the entry pays for it.  An error that ends a declaration is paid for by the token that recovery
drops.  Where recovery finds none, at the end of the source, a token that the declaration had passed
pays, and a parser that is in front of a token keeps one back for that.

Main definitions:

* `Scriptlet.Cursor.weight` — the errors reported so far and the tokens ahead, together;
* `Scriptlet.Cursor.Among` — a cursor whose tokens, and those of whose errors, are in a list;
* `Scriptlet.Parser.Charged`, `Scriptlet.Parser.Frugal` — **a parser that pays for its errors**, and
  one that keeps a token back.

Main results:

* `Scriptlet.Parser.chargedExpressions`, `Scriptlet.Parser.chargedStatements` — every parser pays
  for its errors, whatever the fuel;
* `Scriptlet.Program.syntaxErrors_charged` — **a list of tokens that cannot be read has at least one
  error and at most as many as tokens**, each at one of them or at the end of the source.
-/

import Scriptlet.Proofs.Program.Bounds

set_option relaxedAutoImplicit false
set_option autoImplicit false

namespace Scriptlet

variable {us : List Token}

/-! ### The weight of a cursor -/

namespace Cursor

/-- The errors reported so far and the tokens ahead, counted together. -/
def weight (c : Cursor) : Nat := c.errors.length + c.ahead.length

/-- A cursor in front of a proper end of the source.  The tokens ahead, the end, and the tokens at
which errors were reported are in a list. -/
structure Among (us : List Token) (c : Cursor) : Prop where
  finish_kind : c.finish.kind = .endOfSource
  finish : c.finish ∈ us
  ahead : c.ahead ⊆ us
  errors : ∀ e ∈ c.errors, e.token ∈ us

variable {c : Cursor}

theorem errors_le_weight (c : Cursor) : c.errors.length ≤ c.weight := Nat.le_add_right _ _

theorem weight_advance (h : c.ahead ≠ []) : c.advance.weight + 1 = c.weight := by
  have hlength := length_advance h
  unfold weight
  rw [c.advance_errors]
  omega

theorem weight_advance_le (c : Cursor) : c.advance.weight ≤ c.weight := by
  unfold weight
  rw [c.advance_errors]
  exact Nat.add_le_add_left c.reaches_advance.ahead.length_le _

namespace Among

theorem next (h : c.Among us) : c.next ∈ us := by
  unfold Cursor.next
  split
  · rename_i t ts hts
    exact h.ahead (hts ▸ List.mem_cons_self)
  · exact h.finish

/-- Where tokens are only dropped and errors stay, the list is the same. -/
theorem reaches {c' : Cursor} (h : c.Among us) (hr : c.Reaches c') (herrors : c'.errors = c.errors) :
    c'.Among us where
  finish_kind := by rw [hr.finish, h.finish_kind]
  finish := by rw [hr.finish]; exact h.finish
  ahead := fun _ ht => h.ahead (hr.ahead.subset ht)
  errors := by rw [herrors]; exact h.errors

theorem advance (h : c.Among us) : c.advance.Among us :=
  h.reaches c.reaches_advance c.advance_errors

theorem report (h : c.Among us) {e : SyntaxError} (he : e.token ∈ us) :
    Among us { c with errors := e :: c.errors } where
  finish_kind := h.finish_kind
  finish := h.finish
  ahead := h.ahead
  errors := List.forall_mem_cons.2 ⟨he, h.errors⟩

end Among

end Cursor

/-! ### Answers within a bound -/

namespace Reply

variable {α β : Type} {bound bound' : Nat}

/-- An answer that leaves errors and tokens within a bound, and that fails at a token of a list. -/
def Keeps (us : List Token) (bound : Nat) : Reply α → Prop
  | .done _ c => c.Among us ∧ c.weight ≤ bound
  | .failed e c => e.token ∈ us ∧ c.Among us ∧ c.weight ≤ bound
  | .starved => True

/-- An answer that leaves room for one more error. -/
def Saves (us : List Token) (bound : Nat) : Reply α → Prop
  | .done _ c => c.Among us ∧ c.weight < bound
  | .failed e c => e.token ∈ us ∧ c.Among us ∧ c.weight ≤ bound ∧ c.errors.length < bound
  | .starved => True

theorem Keeps.mono {r : Reply α} (h : r.Keeps us bound) (hb : bound ≤ bound') :
    r.Keeps us bound' := by
  cases r with
  | done a c => exact ⟨h.1, Nat.le_trans h.2 hb⟩
  | failed e c => exact ⟨h.1, h.2.1, Nat.le_trans h.2.2 hb⟩
  | starved => trivial

/-- An answer behind one that keeps within the bound. -/
theorem Keeps.bind {p : Parser α} {f : α → Parser β} {c : Cursor} (h : (p c).Keeps us bound)
    (hf : ∀ a c₁, c₁.Among us → c₁.weight ≤ bound → (f a c₁).Keeps us bound) :
    ((p >>= f) c).Keeps us bound := by
  rw [Parser.bind_apply]
  cases hp : p c with
  | done a c₁ =>
      rw [hp] at h
      exact hf a c₁ h.1 h.2
  | failed e c₁ =>
      rw [hp] at h
      exact h
  | starved => trivial

end Reply

namespace Parser

variable {α β : Type}

/-! ### Parsers that pay for their errors -/

/-- **A parser that pays for its errors**, but for some that are spared, with the tokens it
passes. -/
def Charged (us : List Token) (spare : Nat) (p : Parser α) : Prop :=
  ∀ ⦃c : Cursor⦄, c.Among us → (p c).Keeps us (c.weight + spare)

/-- A parser that pays for its errors and, in front of a token, keeps a token back. -/
structure Frugal (us : List Token) (p : Parser α) : Prop where
  charged : Charged us 0 p
  saves : ∀ ⦃c : Cursor⦄, c.Among us → c.ahead ≠ [] → (p c).Saves us c.weight

namespace Charged

variable {spare : Nat}

theorem pure (a : α) : Charged us 0 (Parser.pure a) := fun _ hc => ⟨hc, Nat.le_refl _⟩

theorem starve : Charged us spare (Parser.starve : Parser α) := fun _ _ => trivial

theorem fail {e : SyntaxError} (he : e.token ∈ us) : Charged us 0 (Parser.fail e : Parser α) :=
  fun _ hc => ⟨he, hc, Nat.le_refl _⟩

/-- **Two parsers in a row pay for their errors if both do.** -/
theorem bind {p : Parser α} {f : α → Parser β} (hp : Charged us spare p)
    (hf : ∀ a, Charged us 0 (f a)) : Charged us spare (p >>= f) := fun _ hc =>
  (hp hc).bind fun a _ hc₁ hle => (hf a hc₁).mono hle

/-- A token that is looked at is one of the list. -/
theorem peek_bind {f : Token → Parser β} (hf : ∀ t ∈ us, Charged us spare (f t)) :
    Charged us spare (Parser.peek >>= f) := fun c hc => hf c.next hc.next hc

theorem check (kind : TokenKind) : Charged us 0 (Parser.check kind) := fun _ hc =>
  ⟨hc, Nat.le_refl _⟩

theorem mark (span : Span) : Charged us 0 (Parser.mark span) := fun _ hc =>
  ⟨⟨hc.finish_kind, hc.finish, hc.ahead, hc.errors⟩, Nat.le_refl _⟩

theorem spanFrom (start : Span) : Charged us 0 (Parser.spanFrom start) := fun _ hc =>
  ⟨hc, Nat.le_refl _⟩

theorem freshLabel : Charged us 0 Parser.freshLabel := fun _ hc =>
  ⟨⟨hc.finish_kind, hc.finish, hc.ahead, hc.errors⟩, Nat.le_refl _⟩

theorem accept (kind : TokenKind) : Charged us 0 (Parser.accept kind) := by
  intro c hc
  unfold Parser.accept
  split
  · exact ⟨hc.advance, c.weight_advance_le⟩
  · exact ⟨hc, Nat.le_refl _⟩

/-- A token that is accepted pays for an error behind it. -/
theorem accept_bind {kind : TokenKind} {f : Bool → Parser β} (hkind : kind ≠ .endOfSource)
    (htrue : Charged us 1 (f true)) (hfalse : Charged us 0 (f false)) :
    Charged us 0 (Parser.accept kind >>= f) := by
  intro c hc
  rw [Parser.accept_bind]
  split
  · rename_i hk
    have hweight := Cursor.weight_advance (Cursor.ahead_ne_nil hc.finish_kind hk hkind)
    exact (htrue hc.advance).mono (Nat.le_of_eq hweight)
  · exact hfalse hc

/-- The report of a list that is too long is spared. -/
theorem limited {p : Parser α} {count : Nat} {fault : SyntaxFault} (hp : Charged us 0 p) :
    Charged us (if arityLimit ≤ count then 1 else 0)
      (if arityLimit ≤ count then (do Parser.report fault; p) else p) := by
  split
  · intro c hc
    have hp := hp (hc.report (e := ⟨fault, c.next⟩) hc.next)
    have hweight : Cursor.weight { c with errors := ⟨fault, c.next⟩ :: c.errors } =
        c.weight + 1 := by
      simp +arith [Cursor.weight]
    rw [hweight] at hp
    exact hp
  · exact hp

/-- Less may be spared. -/
theorem mono {p : Parser α} {spare' : Nat} (hp : Charged us spare p) (h : spare ≤ spare') :
    Charged us spare' p := fun _ hc => (hp hc).mono (Nat.add_le_add_left h _)

end Charged

namespace Frugal

theorem starve : Frugal us (Parser.starve : Parser α) := ⟨.starve, fun _ _ _ => trivial⟩

theorem fail {e : SyntaxError} (he : e.token ∈ us) : Frugal us (Parser.fail e : Parser α) where
  charged := .fail he
  saves c hc hne := by
    have hpos := List.length_pos_iff.2 hne
    refine ⟨he, hc, Nat.le_refl _, ?_⟩
    unfold Cursor.weight
    omega

/-- Two parsers in a row keep a token back if the first one does. -/
theorem bind {p : Parser α} {f : α → Parser β} (hp : Frugal us p)
    (hf : ∀ a, Charged us 0 (f a)) : Frugal us (p >>= f) where
  charged := hp.charged.bind hf
  saves c hc hne := by
    have hp := hp.saves hc hne
    rw [bind_apply]
    cases h : p c with
    | done a c₁ =>
        rw [h] at hp
        obtain ⟨hc₁, hlt⟩ := hp
        have hf := hf a hc₁
        dsimp only
        cases h' : f a c₁ with
        | done b c₂ =>
            rw [h'] at hf
            exact ⟨hf.1, Nat.lt_of_le_of_lt hf.2 hlt⟩
        | failed e c₂ =>
            rw [h'] at hf
            have hless := Nat.lt_of_le_of_lt hf.2.2 hlt
            exact ⟨hf.1, hf.2.1, Nat.le_of_lt hless,
              Nat.lt_of_le_of_lt c₂.errors_le_weight hless⟩
        | starved => trivial
    | failed e c₁ =>
        rw [h] at hp
        exact hp
    | starved => trivial

theorem peek_bind {f : Token → Parser β} (hf : ∀ t ∈ us, Frugal us (f t)) :
    Frugal us (Parser.peek >>= f) where
  charged := .peek_bind fun t ht => (hf t ht).charged
  saves c hc hne := (hf c.next hc.next).saves hc hne

/-- A token that is passed whatever it is. -/
theorem advance : Frugal us Parser.advance where
  charged c hc := ⟨hc.advance, c.weight_advance_le⟩
  saves c hc hne := ⟨hc.advance, Nat.lt_of_succ_le (Nat.le_of_eq (c.weight_advance hne))⟩

theorem failHere (fault : SyntaxFault) : Frugal us (Parser.failHere fault : Parser α) where
  charged c hc := Charged.fail (α := α) (e := ⟨fault, c.next⟩) hc.next hc
  saves c hc hne := (Frugal.fail (α := α) (e := ⟨fault, c.next⟩) hc.next).saves hc hne

/-- Parsers between which the next token decides. -/
theorem taking {kind : TokenKind} {p q : Parser α} (hp : Frugal us p) (hq : Frugal us q) :
    Frugal us (do if ← Parser.check kind then p else q) := by
  constructor
  · intro c hc
    rw [check_bind]
    split
    · exact hp.charged hc
    · exact hq.charged hc
  · intro c hc hne
    rw [check_bind]
    split
    · exact hp.saves hc hne
    · exact hq.saves hc hne

theorem expect (kind : TokenKind) (place : Place) : Frugal us (Parser.expect kind place) := by
  rw [expect_eq]
  exact taking (advance.bind fun token => .pure token.span) (failHere _)

theorem expectName (role : NameRole) : Frugal us (Parser.expectName role) := by
  rw [expectName_eq]
  exact taking (advance.bind fun token => .pure (token.lexeme, token.span)) (failHere _)

end Frugal

/-! ### Expressions -/

/-- With some fuel, the parsers of expressions pay for their errors. -/
structure ChargedExpressions (us : List Token) (fuel : Nat) : Prop where
  expression : Frugal us (expression fuel)
  assignment : Frugal us (assignment fuel)
  operand : ∀ level, Frugal us (operand fuel level)
  joins : ∀ level left, Charged us 0 (joins fuel level left)
  unary : Frugal us (unary fuel)
  suffixes : ∀ callee, Charged us 0 (suffixes fuel callee)
  argumentList : Charged us 0 (argumentList fuel)
  arguments : ∀ count, Charged us (if arityLimit ≤ count then 1 else 0) (arguments fuel count)
  primary : Frugal us (primary fuel)

section Expressions

variable {n : Nat}

theorem charged_expression (ih : ChargedExpressions us n) : Frugal us (expression (n + 1)) := by
  rw [expression]
  refine ih.assignment.bind fun condition => .peek_bind fun question hquestion => ?_
  split
  · refine Frugal.advance.charged.bind fun _ => ih.assignment.charged.bind fun _ =>
      (Charged.accept _).bind fun colon => ?_
    split
    · exact ih.assignment.charged.bind fun _ => (Charged.mark _).bind fun _ => .pure _
    · exact .fail hquestion
  · exact .pure _

theorem charged_assignment (ih : ChargedExpressions us n) : Frugal us (assignment (n + 1)) := by
  rw [assignment]
  refine (ih.operand _).bind fun target => .peek_bind fun equals hequals => ?_
  split
  · refine Frugal.advance.charged.bind fun _ => ih.assignment.charged.bind fun _ => ?_
    split
    · exact (Charged.mark _).bind fun _ => .pure _
    · exact (Charged.mark _).bind fun _ => .pure _
    · exact .fail hequals
  · exact .pure _

theorem charged_operand (ih : ChargedExpressions us n) (level : Option Level) :
    Frugal us (operand (n + 1) level) := by
  cases level with
  | none => exact ih.unary
  | some level =>
      rw [operand]
      exact (ih.operand _).bind fun _ => ih.joins _ _

theorem charged_joins (ih : ChargedExpressions us n) (level : Level) (left : Expr) :
    Charged us 0 (joins (n + 1) level left) := by
  rw [joins]
  refine .peek_bind fun operator _ => ?_
  split
  · exact Frugal.advance.charged.bind fun _ => (ih.operand _).charged.bind fun _ =>
      (Charged.mark _).bind fun _ => ih.joins _ _
  · exact .pure _

theorem charged_unary (ih : ChargedExpressions us n) : Frugal us (unary (n + 1)) := by
  rw [unary]
  refine .peek_bind fun operator _ => ?_
  split
  · exact Frugal.advance.bind fun _ => ih.unary.charged.bind fun _ =>
      (Charged.mark _).bind fun _ => .pure _
  · exact ih.primary.bind fun _ => ih.suffixes _

theorem charged_suffixes (ih : ChargedExpressions us n) (callee : Expr) :
    Charged us 0 (suffixes (n + 1) callee) := by
  rw [suffixes]
  refine (Charged.accept _).bind fun opening => ?_
  split
  · exact ih.argumentList.bind fun _ => (Frugal.expect _ _).charged.bind fun _ =>
      (Charged.mark _).bind fun _ => ih.suffixes _
  · refine (Charged.accept _).bind fun dot => ?_
    split
    · exact (Frugal.expectName _).charged.bind fun _ => (Charged.mark _).bind fun _ =>
        ih.suffixes _
    · exact .pure _

theorem charged_argumentList (ih : ChargedExpressions us n) :
    Charged us 0 (argumentList (n + 1)) := by
  rw [argumentList]
  refine (Charged.check _).bind fun closed => ?_
  split
  · exact .pure _
  · exact ih.arguments 0

/-- Behind a comma, the report of a list that is too long has been paid for. -/
theorem charged_arguments (ih : ChargedExpressions us n) (count : Nat) :
    Charged us (if arityLimit ≤ count then 1 else 0) (arguments (n + 1) count) := by
  rw [arguments]
  refine .limited (ih.expression.charged.bind fun _ => .accept_bind (by decide) ?_ ?_)
  · have hothers : Charged us 1 (arguments n (count + 1)) :=
      (ih.arguments _).mono (by split <;> omega)
    rw [if_pos rfl]
    exact hothers.bind fun _ => .pure _
  · rw [if_neg (by decide)]
    exact .pure _

theorem charged_constant {token : Token} (htoken : token ∈ us) :
    Frugal us (match Constant.ofToken? token with
      | some value => do
          let _ ← advance
          let mark ← mark token.span
          pure (.constant mark value)
      | none => fail ⟨.malformedLiteral, token⟩ : Parser Expr) := by
  split
  · exact Frugal.advance.bind fun _ => (Charged.mark _).bind fun _ => .pure _
  · exact .fail htoken

theorem charged_primary (ih : ChargedExpressions us n) : Frugal us (primary (n + 1)) := by
  rw [primary]
  refine .peek_bind fun token htoken => ?_
  split
  · exact charged_constant htoken
  · exact charged_constant htoken
  · exact charged_constant htoken
  · exact charged_constant htoken
  · exact charged_constant htoken
  · exact Frugal.advance.bind fun _ => (Charged.mark _).bind fun _ => .pure _
  · exact Frugal.advance.bind fun _ => (Frugal.expect _ _).charged.bind fun _ =>
      (Frugal.expectName _).charged.bind fun _ => (Charged.mark _).bind fun _ => .pure _
  · exact Frugal.advance.bind fun _ => (Charged.mark _).bind fun _ => .pure _
  · exact Frugal.advance.bind fun _ => ih.expression.charged.bind fun _ =>
      (Frugal.expect _ _).charged.bind fun _ => (Charged.mark _).bind fun _ => .pure _
  · exact .fail htoken

/-- **The parsers of expressions pay for their errors**, whatever the fuel. -/
theorem chargedExpressions (us : List Token) (n : Nat) : ChargedExpressions us n := by
  induction n with
  | zero =>
      exact ⟨.starve, .starve, fun level => by cases level <;> exact .starve, fun _ _ => .starve,
        .starve, fun _ => .starve, .starve, fun _ => .starve, .starve⟩
  | succ n ih =>
      exact ⟨charged_expression ih, charged_assignment ih, charged_operand ih, charged_joins ih,
        charged_unary ih, charged_suffixes ih, charged_argumentList ih, charged_arguments ih,
        charged_primary ih⟩

end Expressions

/-! ### Parts of declarations and statements -/

theorem charged_parameters (us : List Token) (n count : Nat) :
    Charged us (if arityLimit ≤ count then 1 else 0) (parameters n count) := by
  induction n generalizing count with
  | zero => exact .starve
  | succ n ih =>
      rw [parameters]
      refine .limited ((Frugal.expectName _).charged.bind fun name =>
        .accept_bind (by decide) ?_ ?_)
      · have hothers : Charged us 1 (parameters n (count + 1)) :=
          (ih _).mono (by split <;> omega)
        rw [if_pos rfl]
        exact hothers.bind fun _ => .pure _
      · rw [if_neg (by decide)]
        exact .pure _

section Parts

variable (us : List Token) (n : Nat)

theorem charged_parameterList : Charged us 0 (parameterList n) := by
  rw [parameterList]
  refine (Charged.check _).bind fun closed => ?_
  split
  · exact .pure _
  · exact charged_parameters us n 0

theorem charged_superclass : Charged us 0 superclass := by
  rw [superclass]
  refine (Charged.accept _).bind fun less => ?_
  split
  · exact (Frugal.expectName _).charged.bind fun _ => (Charged.mark _).bind fun _ => .pure _
  · exact .pure _

theorem charged_variableDeclaration : Frugal us (variableDeclaration n) := by
  rw [variableDeclaration]
  refine Frugal.advance.bind fun keyword => (Frugal.expectName _).charged.bind fun name =>
    (Charged.accept _).bind fun equals => ?_
  split
  · exact (chargedExpressions us n).expression.charged.bind fun _ => (Charged.pure _).bind fun _ =>
      (Frugal.expect _ _).charged.bind fun _ => (Charged.spanFrom _).bind fun _ => .pure _
  · exact (Charged.pure _).bind fun _ => (Frugal.expect _ _).charged.bind fun _ =>
      (Charged.spanFrom _).bind fun _ => .pure _

theorem charged_expressionStatement : Frugal us (expressionStatement n) := by
  rw [expressionStatement]
  exact (chargedExpressions us n).expression.bind fun _ =>
    (Frugal.expect _ _).charged.bind fun _ => .pure _

theorem charged_printStatement : Frugal us (printStatement n) := by
  rw [printStatement]
  exact Frugal.advance.bind fun _ => (chargedExpressions us n).expression.charged.bind fun _ =>
    (Frugal.expect _ _).charged.bind fun _ => (Charged.spanFrom _).bind fun _ => .pure _

theorem charged_returnStatement : Frugal us (returnStatement n) := by
  rw [returnStatement]
  refine Frugal.advance.bind fun keyword => (Charged.check _).bind fun closed => ?_
  have hend : ∀ value : Option Expr, Charged us 0 (do
      let _ ← expect .semicolon .afterReturned
      let span ← spanFrom keyword.span
      pure (.ret keyword.span value span) : Parser Stmt) := fun value =>
    (Frugal.expect _ _).charged.bind fun _ => (Charged.spanFrom _).bind fun _ => .pure _
  split
  · exact (Charged.pure _).bind hend
  · exact (chargedExpressions us n).expression.charged.bind fun _ => (Charged.pure _).bind hend

theorem charged_loopInitializer : Charged us 0 (loopInitializer n) := by
  rw [loopInitializer]
  refine (Charged.accept _).bind fun semicolon => ?_
  split
  · exact .pure _
  · refine (Charged.check _).bind fun keyword => ?_
    split
    · exact (charged_variableDeclaration us n).charged.bind fun _ => .pure _
    · exact (charged_expressionStatement us n).charged.bind fun _ => .pure _

theorem charged_loopCondition : Charged us 0 (loopCondition n) := by
  rw [loopCondition]
  refine (Charged.check _).bind fun closed => ?_
  have hend : ∀ condition : Expr, Charged us 0 (do
      let _ ← expect .semicolon .afterLoopCondition
      pure condition : Parser Expr) := fun _ =>
    (Frugal.expect _ _).charged.bind fun _ => .pure _
  split
  · exact .peek_bind fun _ _ => (Charged.mark _).bind fun _ => (Charged.pure _).bind hend
  · exact (chargedExpressions us n).expression.charged.bind hend

theorem charged_loopIncrement : Charged us 0 (loopIncrement n) := by
  rw [loopIncrement]
  refine (Charged.check _).bind fun closed => ?_
  have hend : ∀ increment : Option Expr, Charged us 0 (do
      let _ ← expect .rightParen .afterForClauses
      pure increment : Parser (Option Expr)) := fun _ =>
    (Frugal.expect _ _).charged.bind fun _ => .pure _
  split
  · exact (Charged.pure _).bind hend
  · exact (chargedExpressions us n).expression.charged.bind fun _ => (Charged.pure _).bind hend

end Parts

/-! ### Declarations and statements -/

/-- With some fuel, the parsers of declarations and statements pay for their errors.  A call for a
declaration does so in front of a token, for there is one that recovery drops, or one that the
declaration has kept back. -/
structure ChargedStatements (us : List Token) (fuel : Nat) : Prop where
  declaration : ∀ ⦃c : Cursor⦄, c.Among us → c.ahead ≠ [] →
    (declaration fuel c).Keeps us c.weight
  wholeDeclaration : Frugal us (wholeDeclaration fuel)
  methods : Charged us 0 (methods fuel)
  routine : ∀ role, Frugal us (routine fuel role)
  blockBody : Charged us 0 (blockBody fuel)
  declarations : ∀ inBlock, Charged us 0 (declarations fuel inBlock)
  statement : Frugal us (statement fuel)

section Statements

variable {n : Nat}

/-- Recovery drops a token, unless there is none. -/
theorem weight_synchronize (c : Cursor) (e : SyntaxError) {bound : Nat} (hweight : c.weight ≤ bound)
    (herrors : c.errors.length < bound) :
    (Cursor.synchronize { c with errors := e :: c.errors }).weight ≤ bound := by
  have hkept := Cursor.synchronize_errors { c with errors := e :: c.errors }
  unfold Cursor.weight at hweight ⊢
  rw [hkept, List.length_cons]
  rcases Cursor.synchronize_ahead { c with errors := e :: c.errors } with hnil | ⟨t, ts, hts, hsuffix⟩
  · rw [hnil, List.length_nil]
    omega
  · have hlength := hsuffix.length_le
    rw [hts, List.length_cons] at hweight
    omega

theorem charged_declaration (ih : ChargedStatements us n) {c : Cursor} (hc : c.Among us)
    (hne : c.ahead ≠ []) : (declaration (n + 1) c).Keeps us c.weight := by
  have hwhole := ih.wholeDeclaration.saves hc hne
  rw [declaration, recover]
  cases hw : wholeDeclaration n c with
  | done d c₁ =>
      rw [hw] at hwhole
      exact ⟨hwhole.1, Nat.le_of_lt hwhole.2⟩
  | failed e c₁ =>
      rw [hw] at hwhole
      obtain ⟨he, hc₁, hweight, herrors⟩ := hwhole
      exact ⟨(hc₁.report he).reaches (Cursor.reaches_synchronize _) (Cursor.synchronize_errors _),
        weight_synchronize c₁ e hweight herrors⟩
  | starved => trivial

theorem charged_wholeDeclaration (ih : ChargedStatements us n) :
    Frugal us (wholeDeclaration (n + 1)) := by
  rw [wholeDeclaration]
  refine .peek_bind fun token _ => ?_
  split
  · exact Frugal.advance.bind fun _ => (Frugal.expectName _).charged.bind fun _ =>
      (charged_superclass us).bind fun _ => (Frugal.expect _ _).charged.bind fun _ =>
      ih.methods.bind fun _ => (Frugal.expect _ _).charged.bind fun _ =>
      (Charged.spanFrom _).bind fun _ => .pure _
  · exact Frugal.advance.bind fun _ => (ih.routine _).charged.bind fun _ =>
      (Charged.spanFrom _).bind fun _ => .pure _
  · exact charged_variableDeclaration us n
  · exact ih.statement.bind fun _ => .pure _

theorem charged_methods (ih : ChargedStatements us n) : Charged us 0 (methods (n + 1)) := by
  rw [methods]
  refine (Charged.check _).bind fun closed => fun c hc => ?_
  rw [atEnd_bind]
  split
  · exact Charged.pure _ hc
  · exact (ih.routine _).charged.bind (fun _ => ih.methods.bind fun _ => .pure _) hc

theorem charged_routine (ih : ChargedStatements us n) (role : RoutineRole) :
    Frugal us (routine (n + 1) role) := by
  rw [routine]
  exact (Frugal.expectName _).bind fun _ => (Frugal.expect _ _).charged.bind fun _ =>
    (charged_parameterList us n).bind fun _ => (Frugal.expect _ _).charged.bind fun _ =>
    (Frugal.expect _ _).charged.bind fun _ => ih.blockBody.bind fun _ =>
    (Charged.spanFrom _).bind fun _ => Charged.freshLabel.bind fun _ => .pure _

theorem charged_blockBody (ih : ChargedStatements us n) : Charged us 0 (blockBody (n + 1)) := by
  rw [blockBody]
  exact (ih.declarations _).bind fun _ => (Frugal.expect _ _).charged.bind fun _ => .pure _

theorem charged_declarations (ih : ChargedStatements us n) (inBlock : Bool) :
    Charged us 0 (declarations (n + 1) inBlock) := by
  rw [declarations]
  refine (Charged.check _).bind fun closed => fun c hc => ?_
  rw [atEnd_bind]
  split
  · exact Charged.pure _ hc
  · rename_i hopen
    have hne : c.ahead ≠ [] := by
      intro hnil
      simp [hnil] at hopen
    refine (ih.declaration hc hne).bind fun d c₁ hc₁ hle => ?_
    have hothers : Charged us 0 (do
        let others ← declarations n inBlock
        pure (d.toList ++ others)) := (ih.declarations _).bind fun _ => .pure _
    exact (hothers hc₁).mono hle

theorem charged_statement (ih : ChargedStatements us n) : Frugal us (statement (n + 1)) := by
  have hexpression := (chargedExpressions us n).expression.charged
  rw [statement]
  refine .peek_bind fun token _ => ?_
  split
  · exact charged_printStatement us n
  · exact charged_returnStatement us n
  · exact Frugal.advance.bind fun _ => ih.blockBody.bind fun _ =>
      (Charged.spanFrom _).bind fun _ => .pure _
  · refine Frugal.advance.bind fun _ => (Frugal.expect _ _).charged.bind fun _ =>
      hexpression.bind fun _ => (Frugal.expect _ _).charged.bind fun _ =>
      ih.statement.charged.bind fun _ => (Charged.accept _).bind fun otherwise => ?_
    split
    · exact ih.statement.charged.bind fun _ => (Charged.pure _).bind fun _ =>
        (Charged.spanFrom _).bind fun _ => .pure _
    · exact (Charged.pure _).bind fun _ => (Charged.spanFrom _).bind fun _ => .pure _
  · exact Frugal.advance.bind fun _ => (Frugal.expect _ _).charged.bind fun _ =>
      hexpression.bind fun _ => (Frugal.expect _ _).charged.bind fun _ =>
      ih.statement.charged.bind fun _ => (Charged.spanFrom _).bind fun _ => .pure _
  · exact Frugal.advance.bind fun _ => (Frugal.expect _ _).charged.bind fun _ =>
      (charged_loopInitializer us n).bind fun _ => (charged_loopCondition us n).bind fun _ =>
      (charged_loopIncrement us n).bind fun _ => ih.statement.charged.bind fun _ =>
      (Charged.spanFrom _).bind fun _ => .pure _
  · exact charged_expressionStatement us n

/-- **The parsers of declarations and statements pay for their errors**, whatever the fuel. -/
theorem chargedStatements (us : List Token) (n : Nat) : ChargedStatements us n := by
  induction n with
  | zero =>
      exact ⟨fun _ _ _ => trivial, .starve, .starve, fun _ => .starve, .starve, fun _ => .starve,
        .starve⟩
  | succ n ih =>
      exact ⟨fun _ => charged_declaration ih, charged_wholeDeclaration ih, charged_methods ih,
        charged_routine ih, charged_blockBody ih, charged_declarations ih, charged_statement ih⟩

end Statements

end Parser

/-! ### Programs -/

namespace Program

/-- The errors of a list of tokens that cannot be read: there is one, there are at most as many as
tokens in front of the end, and each is found at a token that the parser reads. -/
theorem errors_among {ts : List Token} {supply : Supply} {errors : List SyntaxError}
    (h : (parse ts supply).1 = .error errors) :
    errors ≠ [] ∧ errors.length ≤ (layout ts).inner.length ∧
      ∀ e ∈ errors, e.token ∈ (layout ts).read := by
  have hstart : (Cursor.ofTokens ts supply).Among (layout ts).read :=
    { finish_kind := (layout ts).finish_kind
      finish := List.mem_append_right _ List.mem_cons_self
      ahead := fun _ ht => List.mem_append_left _ ht
      errors := fun _ he => absurd he List.not_mem_nil }
  have hfed := declarations_ne_starved ts supply
  rw [parse_eq_answer] at h
  generalize fuelFor ts = n at h hfed
  have hcharged := (Parser.chargedStatements (layout ts).read n).declarations false hstart
  cases hread : Parser.declarations n false (Cursor.ofTokens ts supply) with
  | done ds c =>
      rw [hread] at h hcharged
      obtain ⟨hc, hweight⟩ := hcharged
      -- nothing was reported at the start, so all the weight was in the tokens
      have hstart : (Cursor.ofTokens ts supply).weight = (layout ts).inner.length := Nat.zero_add _
      have hbound : c.errors.length ≤ (layout ts).inner.length :=
        Nat.le_trans c.errors_le_weight (hstart ▸ hweight)
      cases herrors : c.errors with
      | nil => simp [answer, herrors] at h
      | cons e es =>
          obtain rfl : errors = c.errors.reverse := by simpa [answer, herrors] using h.symm
          exact ⟨by simp [herrors], by simpa using hbound, fun e he =>
            hc.errors e (List.mem_reverse.1 he)⟩
  | failed e c => exact absurd hread (Parser.declarations_ne_failed _ _ _ _ _)
  | starved => exact absurd hread hfed

/-- **A list of tokens that cannot be read has at least one error, and at most as many as there are
tokens in front of the first end of the source.**  Each is found at one of these tokens or at that
end, which gives it its offset, its line and the words for its place. -/
theorem syntaxErrors_charged {ts : List Token} {supply : Supply} {errors : List SyntaxError}
    (h : (parse ts supply).1 = .error errors) :
    1 ≤ errors.length ∧ errors.length ≤ (ts.takeWhile Cursor.isInner).length ∧
      ∀ e ∈ errors, ∃ t, (t ∈ ts.takeWhile Cursor.isInner ∨ t = Cursor.finishOf ts) ∧
        e.token = t ∧ e.span.offset = t.span.offset ∧ e.span.line = t.span.line ∧
        e.location = if t.kind = .endOfSource then "end" else "'" ++ t.lexeme ++ "'" := by
  obtain ⟨hne, hbound, hamong⟩ := errors_among h
  refine ⟨List.length_pos_iff.2 hne, hbound, fun e he => ?_⟩
  exact ⟨e.token, (List.mem_append.1 (hamong e he)).imp_right List.mem_singleton.1,
    rfl, rfl, rfl, rfl⟩

/-- Two blocks that are not closed. -/
def unclosedBlocks : List Token :=
  [⟨.leftBrace, "\x7b", none, ⟨0, 1, 1⟩⟩, ⟨.leftBrace, "\x7b", none, ⟨1, 1, 1⟩⟩]

/-- Each block that is not closed has its error at the end of the source: there are as many errors
as tokens. -/
theorem syntaxErrors_charged_unclosedBlocks :
    ∃ errors, (parse unclosedBlocks .full).1 = .error errors ∧ errors.length = 2 ∧
      errors.length ≤ (unclosedBlocks.takeWhile Cursor.isInner).length ∧
      ∀ e ∈ errors, ∃ t, (t ∈ unclosedBlocks.takeWhile Cursor.isInner ∨
        t = Cursor.finishOf unclosedBlocks) ∧ e.token = t := by
  obtain ⟨errors, herrors⟩ : ∃ errors, (parse unclosedBlocks .full).1 = .error errors := ⟨_, rfl⟩
  obtain ⟨-, hbound, htokens⟩ := syntaxErrors_charged herrors
  have hlength : errors.length = 2 := by
    cases herrors
    rfl
  refine ⟨errors, herrors, hlength, hbound, fun e he => ?_⟩
  obtain ⟨t, ht, htoken, -⟩ := htokens e he
  exact ⟨t, ht, htoken⟩

end Program

end Scriptlet
