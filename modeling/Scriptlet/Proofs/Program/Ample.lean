/-
**The fuel of the parser suffices, whatever it reads.**

The recursion of the parser goes at most twenty steps deep before a token is passed, be the tokens a
program or not.  So the fuel that `Program.parse` gives for a list of tokens is never used up, and
an answer without program always comes with an error.

Main definitions:

* `Scriptlet.Parser.Eats` — a parser that passes at least one token, if it answers with a value;
* `Scriptlet.Cursor.Within` — a cursor with a bounded number of tokens ahead;
* `Scriptlet.Parser.Fed` — **a parser that has fuel enough for a number of tokens**.

Main results:

* `Scriptlet.Parser.fedExpressions`, `Scriptlet.Parser.fedStatements` — every parser is fed by
  twenty units of fuel for each token, and some more;
* `Scriptlet.Program.declarations_ne_starved` — **no list of tokens starves the parser**.
-/

import Scriptlet.Proofs.Program.Completeness

set_option relaxedAutoImplicit false
set_option autoImplicit false

namespace Scriptlet

/-! ### Cursors with few tokens ahead -/

namespace Cursor

/-- A cursor in front of a proper end of the source, with a bounded number of tokens ahead. -/
structure Within (c : Cursor) (room : Nat) : Prop where
  finish : c.finish.kind = .endOfSource
  length : c.ahead.length ≤ room

theorem ahead_ne_nil {c : Cursor} {kind : TokenKind} (hc : c.finish.kind = .endOfSource)
    (hk : c.next.kind = kind) (h : kind ≠ .endOfSource) : c.ahead ≠ [] := by
  intro hnil
  rw [next, hnil] at hk
  exact h (hk.symm.trans hc)

theorem length_advance {c : Cursor} (h : c.ahead ≠ []) :
    c.advance.ahead.length + 1 = c.ahead.length := by
  unfold advance
  split
  · rename_i t ts hts
    rw [hts]
    rfl
  · rename_i hts
    exact absurd hts h

section Within

variable {c c' : Cursor} {room : Nat}

theorem Within.reaches (h : c.Within room) (hr : c.Reaches c') : c'.Within room :=
  ⟨by rw [hr.finish, h.finish], Nat.le_trans hr.ahead.length_le h.length⟩

/-- Where fewer tokens are ahead than at a cursor, there is less room. -/
theorem Within.shrink (h : c.Within room) (hfinish : c'.finish = c.finish)
    (hlt : c'.ahead.length < c.ahead.length) : ∃ less, room = less + 1 ∧ c'.Within less := by
  have hlength := h.length
  obtain ⟨less, rfl⟩ : ∃ less, room = less + 1 := ⟨room - 1, by omega⟩
  exact ⟨less, rfl, by rw [hfinish, h.finish], by omega⟩

/-- Behind a token that does not end the source, there is less room. -/
theorem Within.advance {kind : TokenKind} (h : c.Within room) (hk : c.next.kind = kind)
    (hne : kind ≠ .endOfSource) : ∃ less, room = less + 1 ∧ c.advance.Within less := by
  have hlength := length_advance (ahead_ne_nil h.finish hk hne)
  exact h.shrink c.advance_finish (by omega)

end Within

end Cursor

namespace Parser

variable {α β : Type}

/-! ### Parsers that pass a token -/

/-- A parser passes at least one token, if it answers with a value. -/
def Eats (p : Parser α) : Prop :=
  ∀ ⦃c c' : Cursor⦄ ⦃a : α⦄, c.finish.kind = .endOfSource → p c = .done a c' →
    c'.ahead.length < c.ahead.length

namespace Eats

theorem expect {kind : TokenKind} (place : Place) (h : kind ≠ .endOfSource) :
    Eats (Parser.expect kind place) := by
  intro c c' a hc hp
  unfold Parser.expect at hp
  split at hp
  · rename_i hk
    cases hp
    have := Cursor.length_advance (Cursor.ahead_ne_nil hc hk h)
    omega
  · cases hp

theorem expectName (role : NameRole) : Eats (Parser.expectName role) := by
  intro c c' a hc hp
  unfold Parser.expectName at hp
  split at hp
  · rename_i hk
    cases hp
    have := Cursor.length_advance (Cursor.ahead_ne_nil hc hk nofun)
    omega
  · cases hp

/-- Two parsers in a row pass a token if the first one does. -/
theorem bind_left {p : Parser α} {f : α → Parser β} (hp : Eats p) (hf : ∀ a, Forward (f a)) :
    Eats (p >>= f) := by
  intro c c' b hc h
  obtain ⟨a, c₁, hp₁, hf₁⟩ := bind_done h
  have hreach := hf a c₁
  rw [hf₁] at hreach
  exact Nat.lt_of_le_of_lt hreach.ahead.length_le (hp hc hp₁)

/-- Two parsers in a row pass a token if the second one does. -/
theorem bind_right {p : Parser α} {f : α → Parser β} (hp : Forward p) (hf : ∀ a, Eats (f a)) :
    Eats (p >>= f) := by
  intro c c' b hc h
  obtain ⟨a, c₁, hp₁, hf₁⟩ := bind_done h
  have hreach := hp c
  rw [hp₁] at hreach
  exact Nat.lt_of_lt_of_le (hf a (by rw [hreach.finish, hc]) hf₁) hreach.ahead.length_le

theorem starve : Eats (Parser.starve : Parser α) := by
  intro c c' a _ h
  cases h

end Eats

section Eats

variable (n : Nat)

theorem eats_variableDeclaration : Eats (variableDeclaration n) := by
  rw [variableDeclaration]
  refine .bind_right .advance fun _ => .bind_left (.expectName _) fun name => ?_
  refine (Forward.accept _).bind fun equals => ?_
  split
  · exact (forwardExpressions n).expression.bind fun _ => (Forward.pure _).bind fun _ =>
      (Forward.expect _ _).bind fun _ => (Forward.spanFrom _).bind fun _ => .pure _
  · exact (Forward.pure _).bind fun _ => (Forward.expect _ _).bind fun _ =>
      (Forward.spanFrom _).bind fun _ => .pure _

theorem eats_expressionStatement : Eats (expressionStatement n) := by
  rw [expressionStatement]
  exact .bind_right (forwardExpressions n).expression fun _ =>
    .bind_left (.expect _ (by decide)) fun _ => .pure _

theorem eats_printStatement : Eats (printStatement n) := by
  rw [printStatement]
  exact .bind_right .advance fun _ => .bind_right (forwardExpressions n).expression fun _ =>
    .bind_left (.expect _ (by decide)) fun _ => (Forward.spanFrom _).bind fun _ => .pure _

theorem eats_returnStatement : Eats (returnStatement n) := by
  rw [returnStatement]
  refine .bind_right .advance fun keyword => .bind_right (.check _) fun closed => ?_
  have hend : ∀ value : Option Expr, Eats (do
      let _ ← Parser.expect .semicolon .afterReturned
      let span ← spanFrom keyword.span
      pure (.ret keyword.span value span) : Parser Stmt) := fun _ =>
    .bind_left (.expect _ (by decide)) fun _ => (Forward.spanFrom _).bind fun _ => .pure _
  split
  · exact .bind_right (.pure _) hend
  · exact .bind_right (forwardExpressions n).expression fun _ => .bind_right (.pure _) hend

theorem eats_routine (role : RoutineRole) : Eats (routine n role) := by
  cases n with
  | zero => exact .starve
  | succ n =>
      rw [routine]
      exact .bind_left (.expectName _) fun _ => (Forward.expect _ _).bind fun _ =>
        (forward_parameterList n).bind fun _ => (Forward.expect _ _).bind fun _ =>
        (Forward.expect _ _).bind fun _ => (forwardStatements n).blockBody.bind fun _ =>
        (Forward.spanFrom _).bind fun _ => Forward.freshLabel.bind fun _ => .pure _

theorem eats_blockBody : Eats (blockBody n) := by
  cases n with
  | zero => exact .starve
  | succ n =>
      rw [blockBody]
      exact .bind_right ((forwardStatements n).declarations _) fun _ =>
        .bind_left (.expect _ (by decide)) fun _ => .pure _

theorem eats_statement : Eats (statement n) := by
  cases n with
  | zero => exact .starve
  | succ n =>
      rw [statement]
      refine .bind_right .peek fun token => ?_
      split
      · exact eats_printStatement n
      · exact eats_returnStatement n
      · exact .bind_right .advance fun _ => .bind_left (eats_blockBody n) fun _ =>
          (Forward.spanFrom _).bind fun _ => .pure _
      · refine .bind_right .advance fun _ => .bind_left (.expect _ (by decide)) fun _ =>
          (forwardExpressions n).expression.bind fun _ => (Forward.expect _ _).bind fun _ =>
          (forwardStatements n).statement.bind fun _ => (Forward.accept _).bind fun otherwise => ?_
        split
        · exact (forwardStatements n).statement.bind fun _ => (Forward.pure _).bind fun _ =>
            (Forward.spanFrom _).bind fun _ => .pure _
        · exact (Forward.pure _).bind fun _ => (Forward.spanFrom _).bind fun _ => .pure _
      · exact .bind_right .advance fun _ => .bind_left (.expect _ (by decide)) fun _ =>
          (forwardExpressions n).expression.bind fun _ => (Forward.expect _ _).bind fun _ =>
          (forwardStatements n).statement.bind fun _ => (Forward.spanFrom _).bind fun _ => .pure _
      · exact .bind_right .advance fun _ => .bind_left (.expect _ (by decide)) fun _ =>
          (forward_loopInitializer n).bind fun _ => (forward_loopCondition n).bind fun _ =>
          (forward_loopIncrement n).bind fun _ => (forwardStatements n).statement.bind fun _ =>
          (Forward.spanFrom _).bind fun _ => .pure _
      · exact eats_expressionStatement n

theorem eats_wholeDeclaration : Eats (wholeDeclaration n) := by
  cases n with
  | zero => exact .starve
  | succ n =>
      rw [wholeDeclaration]
      refine .bind_right .peek fun token => ?_
      split
      · exact .bind_right .advance fun _ => .bind_left (.expectName _) fun _ =>
          forward_superclass.bind fun _ => (Forward.expect _ _).bind fun _ =>
          (forwardStatements n).methods.bind fun _ => (Forward.expect _ _).bind fun _ =>
          (Forward.spanFrom _).bind fun _ => .pure _
      · exact .bind_right .advance fun _ => .bind_left (eats_routine n _) fun _ =>
          (Forward.spanFrom _).bind fun _ => .pure _
      · exact eats_variableDeclaration n
      · exact .bind_left (eats_statement n) fun _ => .pure _

/-- A declaration passes a token if there is one, for what cannot be read is skipped. -/
theorem declaration_length {c c' : Cursor} {d : Option Decl}
    (hc : c.finish.kind = .endOfSource) (h : declaration n c = .done d c') (hne : c.ahead ≠ []) :
    c'.ahead.length < c.ahead.length := by
  cases n with
  | zero => cases h
  | succ n =>
      rw [declaration, recover] at h
      have hreach := (forwardStatements n).wholeDeclaration c
      cases hw : wholeDeclaration n c with
      | done d c₁ =>
          rw [hw] at h
          cases h
          exact eats_wholeDeclaration n hc hw
      | failed e c₁ =>
          rw [hw] at h hreach
          cases h
          have hpos := List.length_pos_iff.2 hne
          rcases Cursor.synchronize_ahead { c₁ with errors := e :: c₁.errors } with
            hnil | ⟨t, ts, hts, hsuffix⟩
          · rw [hnil]
            exact hpos
          · have hlength := hreach.ahead.length_le
            have hless := hsuffix.length_le
            rw [hts, List.length_cons] at hlength
            omega
      | starved =>
          rw [hw] at h
          cases h

end Eats

/-! ### Parsers with fuel enough -/

/-- A parser has fuel enough for a number of tokens. -/
def Fed (room : Nat) (p : Parser α) : Prop := ∀ ⦃c : Cursor⦄, c.Within room → p c ≠ .starved

/-- A parser has fuel enough for a number of tokens, the next of which is known. -/
def FedOn (room : Nat) (t : Token) (p : Parser α) : Prop :=
  ∀ ⦃c : Cursor⦄, c.Within room → c.next = t → p c ≠ .starved

theorem bind_ne_starved {p : Parser α} {f : α → Parser β} {c : Cursor} (hp : p c ≠ .starved)
    (hf : ∀ a c₁, p c = .done a c₁ → f a c₁ ≠ .starved) : (p >>= f) c ≠ .starved := by
  rw [bind_apply]
  cases h : p c with
  | done a c₁ => exact hf a c₁ h
  | failed e c₁ => nofun
  | starved => exact absurd h hp

namespace Fed

variable {room : Nat}

theorem pure (a : α) : Fed room (Parser.pure a) := by
  intro c _ h
  cases h

theorem fail (e : SyntaxError) : Fed room (Parser.fail e : Parser α) := by
  intro c _ h
  cases h

/-- Two parsers in a row have fuel enough if both do. -/
theorem bind {p : Parser α} {f : α → Parser β} (hp : Fed room p) (hforward : Forward p)
    (hf : ∀ a, Fed room (f a)) : Fed room (p >>= f) := by
  intro c hc
  refine bind_ne_starved (hp hc) fun a c₁ h => hf a (hc.reaches ?_)
  have hreach := hforward c
  rw [h] at hreach
  exact hreach

/-- Behind a parser that passes a token, fuel for fewer tokens is enough. -/
theorem eats_bind {p : Parser α} {f : α → Parser β} (hp : Fed room p) (heats : Eats p)
    (hforward : Forward p) (hf : ∀ a less, room = less + 1 → Fed less (f a)) :
    Fed room (p >>= f) := by
  intro c hc
  refine bind_ne_starved (hp hc) fun a c₁ h => ?_
  have hreach := hforward c
  rw [h] at hreach
  obtain ⟨less, hroom, hc₁⟩ := hc.shrink hreach.finish (heats hc.finish h)
  exact hf a less hroom hc₁

theorem expect (kind : TokenKind) (place : Place) : Fed room (Parser.expect kind place) := by
  intro c _
  unfold Parser.expect
  split <;> nofun

theorem expectName (role : NameRole) : Fed room (Parser.expectName role) := by
  intro c _
  unfold Parser.expectName
  split <;> nofun

/-- Behind a mark that is expected, fuel for fewer tokens is enough. -/
theorem expect_bind {kind : TokenKind} {place : Place} {f : Span → Parser β}
    (h : kind ≠ .endOfSource) (hf : ∀ a less, room = less + 1 → Fed less (f a)) :
    Fed room (Parser.expect kind place >>= f) :=
  eats_bind (.expect _ _) (.expect _ h) (.expect _ _) hf

/-- Behind a name that is expected, fuel for fewer tokens is enough. -/
theorem expectName_bind {role : NameRole} {f : String × Span → Parser β}
    (hf : ∀ a less, room = less + 1 → Fed less (f a)) :
    Fed room (Parser.expectName role >>= f) :=
  eats_bind (.expectName _) (.expectName _) (.expectName _) hf

/-- Behind a token that is accepted, fuel for fewer tokens is enough. -/
theorem accept_bind {kind : TokenKind} {f : Bool → Parser β}
    (h : kind ≠ .endOfSource) (htrue : ∀ less, room = less + 1 → Fed less (f true))
    (hfalse : Fed room (f false)) : Fed room (Parser.accept kind >>= f) := by
  intro c hc
  rw [Parser.accept_bind]
  split
  · rename_i hk
    obtain ⟨less, hroom, hc₁⟩ := hc.advance hk h
    exact htrue less hroom hc₁
  · exact hfalse hc

theorem on {p : Parser α} (hp : Fed room p) (t : Token) : FedOn room t p := fun _ hc _ => hp hc

theorem peek_bind {f : Token → Parser β} (hf : ∀ t, FedOn room t (f t)) :
    Fed room (Parser.peek >>= f) := fun c hc => hf c.next hc rfl

theorem advance_bind {f : Token → Parser β} (hf : ∀ t, Fed room (f t)) :
    Fed room (Parser.advance >>= f) := fun c hc => hf _ (hc.reaches c.reaches_advance)

/-- Behind a token that is known not to end the source, fuel for fewer tokens is enough. -/
theorem passing {f : Token → Parser β} {t : Token} {kind : TokenKind} (hk : t.kind = kind)
    (h : kind ≠ .endOfSource) (hf : ∀ t less, room = less + 1 → Fed less (f t)) :
    FedOn room t (Parser.advance >>= f) := by
  rintro c hc rfl
  obtain ⟨less, hroom, hc₁⟩ := hc.advance hk h
  exact hf _ less hroom hc₁

theorem check_bind {kind : TokenKind} {f : Bool → Parser β} (hf : ∀ b, Fed room (f b)) :
    Fed room (Parser.check kind >>= f) := fun _ hc => hf _ hc

theorem mark_bind {span : Span} {f : Mark → Parser β} (hf : ∀ m, Fed room (f m)) :
    Fed room (Parser.mark span >>= f) := fun _ hc => hf _ ⟨hc.finish, hc.length⟩

theorem spanFrom_bind {start : Span} {f : Span → Parser β} (hf : ∀ s, Fed room (f s)) :
    Fed room (Parser.spanFrom start >>= f) := fun _ hc => hf _ hc

theorem limited {p : Parser α} {count : Nat} {fault : SyntaxFault} (hp : Fed room p) :
    Fed room (if arityLimit ≤ count then (do Parser.report fault; p) else p) := by
  split
  · exact fun _ hc => hp ⟨hc.finish, hc.length⟩
  · exact hp

end Fed

/-! ### Expressions -/

/-- With some fuel, the parsers of expressions have enough of it for as many tokens as there is room
for. -/
structure FedExpressions (fuel : Nat) : Prop where
  expression : ∀ room, 20 * room + 12 ≤ fuel → Fed room (expression fuel)
  assignment : ∀ room, 20 * room + 11 ≤ fuel → Fed room (assignment fuel)
  operand : ∀ room level, 20 * room + looseness level + 4 ≤ fuel → Fed room (operand fuel level)
  joins : ∀ room level left, 20 * room + 1 ≤ fuel → Fed room (joins fuel level left)
  unary : ∀ room, 20 * room + 3 ≤ fuel → Fed room (unary fuel)
  suffixes : ∀ room callee, 20 * room + 1 ≤ fuel → Fed room (suffixes fuel callee)
  argumentList : ∀ room, 20 * room + 14 ≤ fuel → Fed room (argumentList fuel)
  arguments : ∀ room count, 20 * room + 13 ≤ fuel → Fed room (arguments fuel count)
  primary : ∀ room, 20 * room + 1 ≤ fuel → Fed room (primary fuel)

section Expressions

variable {n room : Nat}

theorem looseness_le (level : Option Level) : looseness level ≤ 6 := by
  cases level with
  | none => decide
  | some level => cases level <;> decide

theorem fed_expression (ih : FedExpressions n) (hn : 20 * room + 12 ≤ n + 1) :
    Fed room (expression (n + 1)) := by
  rw [expression]
  refine .bind (ih.assignment _ (by omega)) (forwardExpressions n).assignment fun _ =>
    .peek_bind fun token => ?_
  split
  · rename_i hquestion
    refine Fed.passing hquestion (by decide) fun _ less hless => ?_
    refine .bind (ih.assignment _ (by omega)) (forwardExpressions n).assignment fun _ =>
      .accept_bind (by decide) (fun more hmore => ?_) ?_
    · rw [if_pos rfl]
      exact .bind (ih.assignment _ (by omega)) (forwardExpressions n).assignment fun _ =>
        .mark_bind fun _ => .pure _
    · rw [if_neg (by decide)]
      exact .fail _
  · exact (Fed.pure _).on token

theorem fed_assignment (ih : FedExpressions n) (hn : 20 * room + 11 ≤ n + 1) :
    Fed room (assignment (n + 1)) := by
  rw [assignment]
  have hloose : looseness (some .disjunction) = 6 := rfl
  refine .bind (ih.operand _ _ (by omega)) ((forwardExpressions n).operand _) fun target =>
    .peek_bind fun token => ?_
  split
  · rename_i hequals
    refine Fed.passing hequals (by decide) fun _ less hless => ?_
    refine .bind (ih.assignment _ (by omega)) (forwardExpressions n).assignment fun _ => ?_
    split
    · exact .mark_bind fun _ => .pure _
    · exact .mark_bind fun _ => .pure _
    · exact .fail _
  · exact (Fed.pure _).on token

theorem fed_operand (ih : FedExpressions n) (level : Option Level)
    (hn : 20 * room + looseness level + 4 ≤ n + 1) : Fed room (operand (n + 1) level) := by
  cases level with
  | none =>
      have hloose : looseness none = 0 := rfl
      exact ih.unary _ (by omega)
  | some level =>
      rw [operand]
      have hloose := looseness_tighter level
      exact .bind (ih.operand _ _ (by omega)) ((forwardExpressions n).operand _) fun _ =>
        ih.joins _ _ _ (by omega)

theorem fed_joins (ih : FedExpressions n) (level : Level) (left : Expr)
    (hn : 20 * room + 1 ≤ n + 1) : Fed room (joins (n + 1) level left) := by
  rw [joins]
  refine .peek_bind fun token => ?_
  have hloose := looseness_le level.tighter?
  cases hj : level.join? token.kind with
  | some join =>
      exact Fed.passing rfl (join_ne_end hj) fun _ less hless =>
        .bind (ih.operand _ _ (by omega)) ((forwardExpressions n).operand _) fun _ =>
          .mark_bind fun _ => ih.joins _ _ _ (by omega)
  | none => exact (Fed.pure _).on token

theorem fed_unary (ih : FedExpressions n) (hn : 20 * room + 3 ≤ n + 1) :
    Fed room (unary (n + 1)) := by
  rw [unary]
  refine .peek_bind fun token => ?_
  cases hop : UnaryOp.ofKind? token.kind with
  | some op =>
      exact Fed.passing rfl (unary_ne_end hop) fun _ less hless =>
        .bind (ih.unary _ (by omega)) (forwardExpressions n).unary fun _ =>
          .mark_bind fun _ => .pure _
  | none =>
      refine Fed.on (.bind (ih.primary _ (by omega)) (forwardExpressions n).primary fun _ => ?_) _
      exact ih.suffixes _ _ (by omega)

theorem fed_suffixes (ih : FedExpressions n) (callee : Expr) (hn : 20 * room + 1 ≤ n + 1) :
    Fed room (suffixes (n + 1) callee) := by
  rw [suffixes]
  refine .accept_bind (by decide) (fun less hless => ?_) ?_
  · rw [if_pos rfl]
    exact .bind (ih.argumentList _ (by omega)) (forwardExpressions n).argumentList fun _ =>
      .expect_bind (by decide) fun _ fewer hfewer => .mark_bind fun _ => ih.suffixes _ _ (by omega)
  · rw [if_neg (by decide)]
    refine .accept_bind (by decide) (fun less hless => ?_) ?_
    · rw [if_pos rfl]
      exact .expectName_bind fun _ fewer hfewer => .mark_bind fun _ => ih.suffixes _ _ (by omega)
    · rw [if_neg (by decide)]
      exact .pure _

theorem fed_argumentList (ih : FedExpressions n) (hn : 20 * room + 14 ≤ n + 1) :
    Fed room (argumentList (n + 1)) := by
  rw [argumentList]
  refine .check_bind fun closed => ?_
  split
  · exact .pure _
  · exact ih.arguments _ 0 (by omega)

theorem fed_arguments (ih : FedExpressions n) (count : Nat) (hn : 20 * room + 13 ≤ n + 1) :
    Fed room (arguments (n + 1) count) := by
  rw [arguments]
  refine .limited (.bind (ih.expression _ (by omega)) (forwardExpressions n).expression fun _ =>
    .accept_bind (by decide) (fun less hless => ?_) ?_)
  · rw [if_pos rfl]
    exact .bind (ih.arguments _ _ (by omega)) ((forwardExpressions n).arguments _) fun _ => .pure _
  · rw [if_neg (by decide)]
    exact .pure _

theorem fed_constant (token : Token) :
    Fed room (match Constant.ofToken? token with
      | some value => do
          let _ ← advance
          let mark ← mark token.span
          pure (.constant mark value)
      | none => fail ⟨.malformedLiteral, token⟩ : Parser Expr) := by
  split
  · exact .advance_bind fun _ => .mark_bind fun _ => .pure _
  · exact .fail _

theorem fed_primary (ih : FedExpressions n) (hn : 20 * room + 1 ≤ n + 1) :
    Fed room (primary (n + 1)) := by
  rw [primary]
  refine .peek_bind fun token => ?_
  split
  · exact (fed_constant token).on token
  · exact (fed_constant token).on token
  · exact (fed_constant token).on token
  · exact (fed_constant token).on token
  · exact (fed_constant token).on token
  · rename_i hk
    exact Fed.passing hk (by decide) fun _ _ _ => .mark_bind fun _ => .pure _
  · rename_i hk
    exact Fed.passing hk (by decide) fun _ _ _ => .expect_bind (by decide) fun _ _ _ =>
      .expectName_bind fun _ _ _ => .mark_bind fun _ => .pure _
  · rename_i hk
    exact Fed.passing hk (by decide) fun _ _ _ => .mark_bind fun _ => .pure _
  · rename_i hk
    exact Fed.passing hk (by decide) fun _ less hless =>
      .bind (ih.expression _ (by omega)) (forwardExpressions n).expression fun _ =>
        .expect_bind (by decide) fun _ _ _ => .mark_bind fun _ => .pure _
  · exact (Fed.fail _).on token

/-- **The parsers of expressions have fuel enough for their tokens.** -/
theorem fedExpressions (n : Nat) : FedExpressions n := by
  induction n with
  | zero => constructor <;> intros <;> omega
  | succ n ih =>
      exact ⟨fun _ => fed_expression ih, fun _ => fed_assignment ih, fun _ => fed_operand ih,
        fun _ => fed_joins ih, fun _ => fed_unary ih, fun _ => fed_suffixes ih,
        fun _ => fed_argumentList ih, fun _ => fed_arguments ih, fun _ => fed_primary ih⟩

end Expressions

/-! ### Parts of declarations and statements -/

section Parts

variable {n room : Nat}

theorem fed_parameters (count : Nat) (hn : 20 * room + 1 ≤ n) : Fed room (parameters n count) := by
  induction n generalizing room count with
  | zero => omega
  | succ n ih =>
      rw [parameters]
      refine .limited (.expectName_bind fun name less hless =>
        .accept_bind (by decide) (fun fewer hfewer => ?_) ?_)
      · rw [if_pos rfl]
        exact .bind (ih _ (by omega)) (forward_parameters n _) fun _ => .pure _
      · rw [if_neg (by decide)]
        exact .pure _

theorem fed_parameterList (hn : 20 * room + 1 ≤ n) : Fed room (parameterList n) := by
  rw [parameterList]
  refine .check_bind fun closed => ?_
  split
  · exact .pure _
  · exact fed_parameters 0 hn

theorem fed_superclass : Fed room superclass := by
  rw [superclass]
  refine .accept_bind (by decide) (fun less hless => ?_) ?_
  · rw [if_pos rfl]
    exact .expectName_bind fun _ _ _ => .mark_bind fun _ => .pure _
  · rw [if_neg (by decide)]
    exact .pure _

theorem fed_expression_of_le (hn : 20 * room + 12 ≤ n) : Fed room (expression n) :=
  (fedExpressions n).expression room hn

theorem fed_variableDeclaration (hn : 20 * room + 12 ≤ n) : Fed room (variableDeclaration n) := by
  rw [variableDeclaration]
  refine .advance_bind fun keyword => .expectName_bind fun name less hless =>
    .accept_bind (by decide) (fun fewer hfewer => ?_) ?_
  · rw [if_pos rfl]
    exact .bind (fed_expression_of_le (by omega)) (forwardExpressions n).expression fun _ =>
      .bind (.pure _) (.pure _) fun _ => .expect_bind (by decide) fun _ _ _ =>
      .spanFrom_bind fun _ => .pure _
  · rw [if_neg (by decide)]
    exact .bind (.pure _) (.pure _) fun _ => .expect_bind (by decide) fun _ _ _ =>
      .spanFrom_bind fun _ => .pure _

theorem fed_expressionStatement (hn : 20 * room + 12 ≤ n) : Fed room (expressionStatement n) := by
  rw [expressionStatement]
  exact .bind (fed_expression_of_le hn) (forwardExpressions n).expression fun _ =>
    .expect_bind (by decide) fun _ _ _ => .pure _

theorem fed_printStatement (hn : 20 * room + 12 ≤ n) : Fed room (printStatement n) := by
  rw [printStatement]
  exact .advance_bind fun _ => .bind (fed_expression_of_le hn) (forwardExpressions n).expression
    fun _ => .expect_bind (by decide) fun _ _ _ => .spanFrom_bind fun _ => .pure _

theorem fed_returnStatement (hn : 20 * room + 12 ≤ n) : Fed room (returnStatement n) := by
  rw [returnStatement]
  refine .advance_bind fun keyword => .check_bind fun closed => ?_
  have hend : ∀ value : Option Expr, Fed room (do
      let _ ← expect .semicolon .afterReturned
      let span ← spanFrom keyword.span
      pure (.ret keyword.span value span) : Parser Stmt) := fun _ =>
    .expect_bind (by decide) fun _ _ _ => .spanFrom_bind fun _ => .pure _
  split
  · exact .bind (.pure _) (.pure _) hend
  · exact .bind (fed_expression_of_le hn) (forwardExpressions n).expression fun _ =>
      .bind (.pure _) (.pure _) hend

theorem fed_loopInitializer (hn : 20 * room + 12 ≤ n) : Fed room (loopInitializer n) := by
  rw [loopInitializer]
  refine .accept_bind (by decide) (fun _ _ => ?_) ?_
  · rw [if_pos rfl]
    exact .pure _
  · rw [if_neg (by decide)]
    refine .check_bind fun keyword => ?_
    split
    · exact .bind (fed_variableDeclaration hn) (forward_variableDeclaration n) fun _ => .pure _
    · exact .bind (fed_expressionStatement hn) (forward_expressionStatement n) fun _ => .pure _

theorem fed_loopCondition (hn : 20 * room + 12 ≤ n) : Fed room (loopCondition n) := by
  rw [loopCondition]
  refine .check_bind fun closed => ?_
  have hend : ∀ condition : Expr, Fed room (do
      let _ ← expect .semicolon .afterLoopCondition
      pure condition : Parser Expr) := fun _ => .expect_bind (by decide) fun _ _ _ => .pure _
  split
  · exact .peek_bind fun token => Fed.on (.mark_bind fun _ => .bind (.pure _) (.pure _) hend) token
  · exact .bind (fed_expression_of_le hn) (forwardExpressions n).expression hend

theorem fed_loopIncrement (hn : 20 * room + 12 ≤ n) : Fed room (loopIncrement n) := by
  rw [loopIncrement]
  refine .check_bind fun closed => ?_
  have hend : ∀ increment : Option Expr, Fed room (do
      let _ ← expect .rightParen .afterForClauses
      pure increment : Parser (Option Expr)) :=
    fun _ => .expect_bind (by decide) fun _ _ _ => .pure _
  split
  · exact .bind (.pure _) (.pure _) hend
  · exact .bind (fed_expression_of_le hn) (forwardExpressions n).expression fun _ =>
      .bind (.pure _) (.pure _) hend

end Parts

/-! ### Declarations and statements -/

/-- With some fuel, the parsers of declarations and statements have enough of it for as many tokens
as there is room for. -/
structure FedStatements (fuel : Nat) : Prop where
  declaration : ∀ room, 20 * room + 15 ≤ fuel → Fed room (declaration fuel)
  wholeDeclaration : ∀ room, 20 * room + 14 ≤ fuel → Fed room (wholeDeclaration fuel)
  methods : ∀ room, 20 * room + 3 ≤ fuel → Fed room (methods fuel)
  routine : ∀ room role, 20 * room + 2 ≤ fuel → Fed room (routine fuel role)
  blockBody : ∀ room, 20 * room + 17 ≤ fuel → Fed room (blockBody fuel)
  declarations : ∀ room inBlock, 20 * room + 16 ≤ fuel → Fed room (declarations fuel inBlock)
  statement : ∀ room, 20 * room + 13 ≤ fuel → Fed room (statement fuel)

section Statements

variable {n room : Nat}

theorem fed_declaration (ih : FedStatements n) (hn : 20 * room + 15 ≤ n + 1) :
    Fed room (declaration (n + 1)) := by
  intro c hc h
  rw [declaration, recover] at h
  have hwhole := ih.wholeDeclaration room (by omega) hc
  cases hw : wholeDeclaration n c with
  | done d c₁ =>
      rw [hw] at h
      cases h
  | failed e c₁ =>
      rw [hw] at h
      cases h
  | starved => exact hwhole hw

theorem fed_wholeDeclaration (ih : FedStatements n) (hn : 20 * room + 14 ≤ n + 1) :
    Fed room (wholeDeclaration (n + 1)) := by
  rw [wholeDeclaration]
  refine .peek_bind fun token => ?_
  split
  · rename_i hk
    exact Fed.passing hk (by decide) fun _ less hless => .expectName_bind fun _ fewer hfewer =>
      .bind fed_superclass forward_superclass fun _ => .expect_bind (by decide) fun _ few hfew =>
      .bind (ih.methods _ (by omega)) (forwardStatements n).methods fun _ =>
      .expect_bind (by decide) fun _ _ _ => .spanFrom_bind fun _ => .pure _
  · rename_i hk
    exact Fed.passing hk (by decide) fun _ less hless =>
      .bind (ih.routine _ _ (by omega)) ((forwardStatements n).routine _) fun _ =>
      .spanFrom_bind fun _ => .pure _
  · exact (fed_variableDeclaration (by omega)).on token
  · exact Fed.on (.bind (ih.statement _ (by omega)) (forwardStatements n).statement fun _ =>
      .pure _) token

theorem fed_methods (ih : FedStatements n) (hn : 20 * room + 3 ≤ n + 1) :
    Fed room (methods (n + 1)) := by
  rw [methods]
  refine .check_bind fun closed => fun c hc => ?_
  rw [atEnd_bind]
  split
  · exact Fed.pure _ hc
  · exact Fed.eats_bind (ih.routine _ _ (by omega)) (eats_routine n _)
      ((forwardStatements n).routine _) (fun _ less hless =>
        .bind (ih.methods _ (by omega)) (forwardStatements n).methods fun _ => .pure _) hc

theorem fed_routine (ih : FedStatements n) (role : RoutineRole) (hn : 20 * room + 2 ≤ n + 1) :
    Fed room (routine (n + 1) role) := by
  rw [routine]
  exact .expectName_bind fun _ less hless => .expect_bind (by decide) fun _ fewer hfewer =>
    .bind (fed_parameterList (by omega)) (forward_parameterList n) fun _ =>
    .expect_bind (by decide) fun _ few hfew => .expect_bind (by decide) fun _ rest hrest =>
    .bind (ih.blockBody _ (by omega)) (forwardStatements n).blockBody fun _ =>
    .spanFrom_bind fun _ => fun _ _ h => by cases h

theorem fed_blockBody (ih : FedStatements n) (hn : 20 * room + 17 ≤ n + 1) :
    Fed room (blockBody (n + 1)) := by
  rw [blockBody]
  exact .bind (ih.declarations _ _ (by omega)) ((forwardStatements n).declarations _) fun _ =>
    .expect_bind (by decide) fun _ _ _ => .pure _

theorem fed_declarations (ih : FedStatements n) (inBlock : Bool) (hn : 20 * room + 16 ≤ n + 1) :
    Fed room (declarations (n + 1) inBlock) := by
  rw [declarations]
  refine .check_bind fun closed => fun c hc => ?_
  rw [atEnd_bind]
  split
  · exact Fed.pure _ hc
  · rename_i hopen
    have hne : c.ahead ≠ [] := by
      intro hnil
      simp [hnil] at hopen
    refine bind_ne_starved (ih.declaration _ (by omega) hc) fun d c₁ h => ?_
    have hreach := (forwardStatements n).declaration c
    rw [h] at hreach
    -- a declaration passes a token even if it cannot be read
    obtain ⟨less, hless, hc₁⟩ := hc.shrink hreach.finish (declaration_length n hc.finish h hne)
    exact Fed.bind (ih.declarations less _ (by omega)) ((forwardStatements n).declarations _)
      (fun _ => .pure _) hc₁

theorem fed_statement (ih : FedStatements n) (hn : 20 * room + 13 ≤ n + 1) :
    Fed room (statement (n + 1)) := by
  rw [statement]
  refine .peek_bind fun token => ?_
  split
  · exact (fed_printStatement (by omega)).on token
  · exact (fed_returnStatement (by omega)).on token
  · rename_i hk
    exact Fed.passing hk (by decide) fun _ less hless =>
      .bind (ih.blockBody _ (by omega)) (forwardStatements n).blockBody fun _ =>
      .spanFrom_bind fun _ => .pure _
  · rename_i hk
    refine Fed.passing hk (by decide) fun _ less hless =>
      .expect_bind (by decide) fun _ fewer hfewer =>
      .bind (fed_expression_of_le (by omega)) (forwardExpressions n).expression fun _ =>
      .expect_bind (by decide) fun _ few hfew =>
      .bind (ih.statement _ (by omega)) (forwardStatements n).statement fun _ =>
      .accept_bind (by decide) (fun rest hrest => ?_) ?_
    · rw [if_pos rfl]
      exact .bind (ih.statement _ (by omega)) (forwardStatements n).statement fun _ =>
        .bind (.pure _) (.pure _) fun _ => .spanFrom_bind fun _ => .pure _
    · rw [if_neg (by decide)]
      exact .bind (.pure _) (.pure _) fun _ => .spanFrom_bind fun _ => .pure _
  · rename_i hk
    exact Fed.passing hk (by decide) fun _ less hless =>
      .expect_bind (by decide) fun _ fewer hfewer =>
      .bind (fed_expression_of_le (by omega)) (forwardExpressions n).expression fun _ =>
      .expect_bind (by decide) fun _ few hfew =>
      .bind (ih.statement _ (by omega)) (forwardStatements n).statement fun _ =>
      .spanFrom_bind fun _ => .pure _
  · rename_i hk
    exact Fed.passing hk (by decide) fun _ less hless =>
      .expect_bind (by decide) fun _ fewer hfewer =>
      .bind (fed_loopInitializer (by omega)) (forward_loopInitializer n) fun _ =>
      .bind (fed_loopCondition (by omega)) (forward_loopCondition n) fun _ =>
      .bind (fed_loopIncrement (by omega)) (forward_loopIncrement n) fun _ =>
      .bind (ih.statement _ (by omega)) (forwardStatements n).statement fun _ =>
      .spanFrom_bind fun _ => .pure _
  · exact (fed_expressionStatement (by omega)).on token

/-- **The parsers of declarations and statements have fuel enough for their tokens.** -/
theorem fedStatements (n : Nat) : FedStatements n := by
  induction n with
  | zero => constructor <;> intros <;> omega
  | succ n ih =>
      exact ⟨fun _ => fed_declaration ih, fun _ => fed_wholeDeclaration ih, fun _ => fed_methods ih,
        fun _ => fed_routine ih, fun _ => fed_blockBody ih, fun _ => fed_declarations ih,
        fun _ => fed_statement ih⟩

end Statements

end Parser

/-! ### Programs -/

/-- **No list of tokens starves the parser.** -/
theorem Program.declarations_ne_starved (ts : List Token) (supply : Supply) :
    Parser.declarations (fuelFor ts) false (Cursor.ofTokens ts supply) ≠ .starved := by
  have hlength : (ts.takeWhile Cursor.isInner).length ≤ ts.length :=
    (List.takeWhile_sublist _).length_le
  refine (Parser.fedStatements _).declarations ts.length false ?_
    ⟨ofTokens_finish ts supply, hlength⟩
  unfold fuelFor
  omega

end Scriptlet
