/-
**Every program of the grammar is accepted.**

A parser in front of the tokens of a phrase passes exactly these tokens, whatever follows, unless
the phrase could go on with it: an expression must not be followed by an operator, and a statement
that ends in an `if` without `else` must not be followed by one.  Twenty steps for each token are
fuel enough.

Main definitions:

* `Scriptlet.Cursor.Faces` — the tokens in front of a cursor, and what may follow them;
* `Scriptlet.Ends` — the kinds that cannot go on with an operand;
* `Scriptlet.Parser.Finds` — **a parser passes the tokens of a phrase**.

Main results:

* `Scriptlet.Parser.findsExpressions`, `Scriptlet.Parser.findsStatements` — every parser passes the
  tokens of each phrase of its production, if there is fuel enough;
* `Scriptlet.Program.parse_iff_derives` — **the parser accepts a list of tokens exactly if it
  derives a program, and this program is unique**.
-/

import Scriptlet.Proofs.Program.Soundness

set_option relaxedAutoImplicit false
set_option autoImplicit false

namespace Scriptlet

/-! ### What stands in front of a cursor -/

namespace Cursor

/-- The tokens stand in front of a cursor, and the kind of what follows them is in a set. -/
def Faces (c : Cursor) (ts : List Token) (Follow : TokenKind → Prop) : Prop :=
  ∃ rest, c.ahead = ts ++ rest ∧ Follow (rest.headD c.finish).kind

theorem next_eq (c : Cursor) : c.next = c.ahead.headD c.finish := by
  unfold next
  split
  · rename_i t ts h
    rw [h, List.headD_cons]
  · rename_i h
    rw [h, List.headD_nil]

section Faces

variable {c c' : Cursor} {ts us : List Token} {t : Token} {Follow Follow' : TokenKind → Prop}

theorem Faces.mono (h : c.Faces ts Follow) (hf : ∀ k, Follow k → Follow' k) :
    c.Faces ts Follow' := by
  obtain ⟨rest, hrest, hk⟩ := h
  exact ⟨rest, hrest, hf _ hk⟩

theorem Faces.next (h : c.Faces (t :: ts) Follow) : c.next = t := by
  obtain ⟨rest, hrest, hk⟩ := h
  rw [next_eq, hrest]
  rfl

theorem Faces.follow (h : c.Faces [] Follow) : Follow c.next.kind := by
  obtain ⟨rest, hrest, hk⟩ := h
  rw [next_eq, hrest]
  exact hk

theorem Faces.advance (h : c.Faces (t :: ts) Follow) : c.Passes [t] c.advance := by
  obtain ⟨rest, hrest, hk⟩ := h
  unfold Cursor.advance
  rw [hrest]
  exact ⟨hrest, rfl, rfl, rfl⟩

/-- Behind the first tokens stand the others. -/
theorem Faces.passes (h : c.Faces (ts ++ us) Follow) (hp : c.Passes ts c') :
    c'.Faces us Follow := by
  obtain ⟨rest, hrest, hk⟩ := h
  refine ⟨rest, ?_, ?_⟩
  · rw [hp.ahead, List.append_assoc] at hrest
    exact List.append_cancel_left hrest
  · rw [hp.finish]
    exact hk

/-- Behind the first token stand the others. -/
theorem Faces.tail (h : c.Faces (t :: ts) Follow) : c.advance.Faces ts Follow := by
  have h' : c.Faces ([t] ++ ts) Follow := h
  exact h'.passes h.advance

/-- Behind all the tokens stands what may follow them. -/
theorem Faces.done (h : c.Faces ts Follow) (hp : c.Passes ts c') : Follow c'.next.kind := by
  have h' : c.Faces (ts ++ []) Follow := by rwa [List.append_nil]
  exact (h'.passes hp).follow

/-- The first tokens are followed by the next one. -/
theorem Faces.cut (h : c.Faces (ts ++ t :: us) Follow) (ht : Follow' t.kind) :
    c.Faces ts Follow' := by
  obtain ⟨rest, hrest, hk⟩ := h
  refine ⟨t :: us ++ rest, ?_, ht⟩
  rw [hrest, List.append_assoc]

/-- The first tokens are followed by the others, or by what follows these. -/
theorem Faces.split (h : c.Faces (ts ++ us) Follow) (hnil : ∀ k, Follow k → Follow' k)
    (hcons : ∀ t vs, us = t :: vs → Follow' t.kind) : c.Faces ts Follow' := by
  cases us with
  | nil =>
      rw [List.append_nil] at h
      exact h.mono hnil
  | cons t vs => exact h.cut (hcons t vs rfl)

theorem Faces.numbered (h : c.Faces ts Follow) : c.numbered.Faces ts Follow := h

end Faces

end Cursor

/-! ### What can follow an expression -/

/-- How loose the operators of a level are; operators in front of their operands are the
tightest. -/
def looseness : Option Level → Nat
  | none => 0
  | some .product => 1
  | some .sum => 2
  | some .comparison => 3
  | some .equality => 4
  | some .conjunction => 5
  | some .disjunction => 6

theorem looseness_tighter (level : Level) :
    looseness level.tighter? + 1 = looseness (some level) := by
  cases level <;> rfl

/-- The kinds that cannot go on with an operand: no call, no property, and no operator of its level
or a tighter one. -/
structure Ends (level : Option Level) (kind : TokenKind) : Prop where
  call : kind ≠ .leftParen
  property : kind ≠ .dot
  operator : ∀ l, looseness (some l) ≤ looseness level → l.join? kind = none

/-- The kinds that cannot go on with an assignment. -/
structure EndsAssignment (kind : TokenKind) : Prop where
  operand : Ends (some .disjunction) kind
  assignment : kind ≠ .equal

/-- The kinds that cannot go on with an expression. -/
structure EndsExpression (kind : TokenKind) : Prop where
  assignment : EndsAssignment kind
  choice : kind ≠ .question

theorem Ends.tighter {level : Level} {kind : TokenKind} (h : Ends (some level) kind) :
    Ends level.tighter? kind := by
  refine ⟨h.call, h.property, fun l hl => h.operator l ?_⟩
  have := looseness_tighter level
  omega

/-- An operator ends the operands of its level. -/
theorem ends_operator {level : Level} {kind : TokenKind} {join : Join}
    (h : level.join? kind = some join) : Ends level.tighter? kind := by
  rw [← Grammar.operator_iff] at h
  cases h <;> exact ⟨nofun, nofun, fun l => by cases l <;> decide⟩

/-- The kinds that end every operand: no operator is spelled like them. -/
theorem ends_punctuation {kind : TokenKind}
    (h : kind ∈ [TokenKind.semicolon, .comma, .rightParen, .question, .colon, .equal]) :
    Ends (some .disjunction) kind := by
  simp only [List.mem_cons, List.not_mem_nil, or_false] at h
  rcases h with rfl | rfl | rfl | rfl | rfl | rfl <;>
    exact ⟨nofun, nofun, fun l _ => by cases l <;> rfl⟩

/-- Of these, those that end every assignment, too. -/
theorem endsAssignment_punctuation {kind : TokenKind}
    (h : kind ∈ [TokenKind.semicolon, .comma, .rightParen, .question, .colon]) :
    EndsAssignment kind := by
  constructor
  case operand =>
    exact ends_punctuation (List.mem_append_left [TokenKind.equal] h)
  case assignment =>
    rintro rfl
    simp at h

theorem endsExpression_semicolon : EndsExpression .semicolon :=
  ⟨endsAssignment_punctuation (by simp), nofun⟩

theorem endsExpression_comma : EndsExpression .comma :=
  ⟨endsAssignment_punctuation (by simp), nofun⟩

theorem endsExpression_rightParen : EndsExpression .rightParen :=
  ⟨endsAssignment_punctuation (by simp), nofun⟩

theorem endsAssignment_question : EndsAssignment .question := endsAssignment_punctuation (by simp)

theorem endsAssignment_colon : EndsAssignment .colon := endsAssignment_punctuation (by simp)

theorem ends_equal : Ends (some .disjunction) .equal := ends_punctuation (by simp)

/-! ### What expressions begin with -/

/-- The kinds that an expression begins with. -/
def TokenKind.startsExpression : TokenKind → Bool
  | .bang | .minus | .number | .string | .trueWord | .falseWord | .nilWord | .thisWord
  | .superWord | .identifier | .leftParen => true
  | _ => false

/-- A list of tokens begins with one whose kind is in a set. -/
def Starts (First : TokenKind → Prop) (ts : List Token) : Prop :=
  ∃ t us, ts = t :: us ∧ First t.kind

theorem Starts.append {First : TokenKind → Prop} {ts : List Token} (h : Starts First ts)
    (us : List Token) : Starts First (ts ++ us) := by
  obtain ⟨t, vs, rfl, ht⟩ := h
  exact ⟨t, vs ++ us, rfl, ht⟩

theorem Starts.mono {First First' : TokenKind → Prop} {ts : List Token} (h : Starts First ts)
    (hf : ∀ k, First k → First' k) : Starts First' ts := by
  obtain ⟨t, us, rfl, ht⟩ := h
  exact ⟨t, us, rfl, hf _ ht⟩

theorem Starts.length_pos {First : TokenKind → Prop} {ts : List Token} (h : Starts First ts) :
    1 ≤ ts.length := by
  obtain ⟨t, us, rfl, ht⟩ := h
  rw [List.length_cons]
  omega

/-- The kind of a token at which an expression begins. -/
theorem startsExpression_of_kind {kind k : TokenKind} (h : kind = k)
    (hk : k.startsExpression = true) : kind.startsExpression = true := by
  rw [h, hk]

namespace Grammar

theorem Primary.starts {ts : List Token} {e : Expr} (h : Primary ts e) :
    Starts (TokenKind.startsExpression ·) ts := by
  cases h with
  | number hk _ =>
      rcases hk with hk | hk <;> exact ⟨_, _, rfl, startsExpression_of_kind hk rfl⟩
  | string hk _ =>
      rcases hk with hk | hk <;> exact ⟨_, _, rfl, startsExpression_of_kind hk rfl⟩
  | trueWord hk => exact ⟨_, _, rfl, startsExpression_of_kind hk rfl⟩
  | falseWord hk => exact ⟨_, _, rfl, startsExpression_of_kind hk rfl⟩
  | nilWord hk => exact ⟨_, _, rfl, startsExpression_of_kind hk rfl⟩
  | thisWord hk => exact ⟨_, _, rfl, startsExpression_of_kind hk rfl⟩
  | superWord hk _ _ => exact ⟨_, _, rfl, startsExpression_of_kind hk rfl⟩
  | name hk => exact ⟨_, _, rfl, startsExpression_of_kind hk rfl⟩
  | grouping hk _ _ => exact ⟨_, _, rfl, startsExpression_of_kind hk rfl⟩

theorem Unary.starts {ts : List Token} {e : Expr} (h : Unary ts e) :
    Starts (TokenKind.startsExpression ·) ts := by
  cases h with
  | not hk _ => exact ⟨_, _, rfl, startsExpression_of_kind hk rfl⟩
  | negate hk _ => exact ⟨_, _, rfl, startsExpression_of_kind hk rfl⟩
  | call h _ => exact h.starts.append _

/-- The first token of a primary expression is no operator. -/
theorem Primary.no_operator {t : Token} {ts : List Token} {e : Expr} (h : Primary (t :: ts) e) :
    UnaryOp.ofKind? t.kind = none := by
  cases h with
  | number hk _ => rcases hk with hk | hk <;> rw [hk] <;> rfl
  | string hk _ => rcases hk with hk | hk <;> rw [hk] <;> rfl
  | trueWord hk => rw [hk]; rfl
  | falseWord hk => rw [hk]; rfl
  | nilWord hk => rw [hk]; rfl
  | thisWord hk => rw [hk]; rfl
  | superWord hk _ _ => rw [hk]; rfl
  | name hk => rw [hk]; rfl
  | grouping hk _ _ => rw [hk]; rfl

theorem Operand.starts {level : Option Level} {ts : List Token} {e : Expr} :
    Operand level ts e → Starts (TokenKind.startsExpression ·) ts
  | .level _ h _ => h.starts.append _
  | .unary h => h.starts

theorem Assignment.starts {ts : List Token} {e : Expr} (h : Assignment ts e) :
    Starts (TokenKind.startsExpression ·) ts := by
  cases h with
  | plain h => exact h.starts
  | name h _ _ => exact h.starts.append _
  | property h _ _ => exact h.starts.append _

theorem Expression.starts {ts : List Token} {e : Expr} (h : Expression ts e) :
    Starts (TokenKind.startsExpression ·) ts := by
  cases h with
  | plain h => exact h.starts
  | choice h _ _ _ _ => exact h.starts.append _

theorem Arguments.starts {ts : List Token} {es : List Expr} (h : Arguments ts es) :
    Starts (TokenKind.startsExpression ·) ts := by
  cases h with
  | last h => exact h.starts
  | more h _ _ => exact h.starts.append _

theorem Joins.ends {level : Level} {left e : Expr} {t : Token} {ts : List Token}
    (h : Joins level left (t :: ts) e) : Ends level.tighter? t.kind := by
  cases h with
  | cons ho _ _ _ => exact ends_operator (operator_iff.1 ho)

theorem Suffixes.starts {callee e : Expr} {t : Token} {ts : List Token}
    (h : Suffixes callee (t :: ts) e) : t.kind = .leftParen ∨ t.kind = .dot := by
  cases h with
  | call ho _ _ _ => exact .inl ho
  | property hd _ _ => exact .inr hd

end Grammar

/-! ### What declarations begin with -/

/-- The kinds that a statement begins with. -/
def TokenKind.opensStatement : TokenKind → Bool
  | .printWord | .returnWord | .leftBrace | .ifWord | .whileWord | .forWord => true
  | kind => kind.startsExpression

/-- The kinds that a declaration begins with. -/
def TokenKind.opensDeclaration : TokenKind → Bool
  | .classWord | .funWord | .varWord => true
  | kind => kind.opensStatement

theorem opensStatement_of_startsExpression {kind : TokenKind}
    (h : kind.startsExpression = true) : kind.opensStatement = true := by
  cases kind <;> first | rfl | cases h

theorem opensDeclaration_of_opensStatement {kind : TokenKind} (h : kind.opensStatement = true) :
    kind.opensDeclaration = true := by
  cases kind <;> first | rfl | cases h

namespace Grammar

theorem Statement.starts {dangling : Bool} {ts : List Token} {s : Stmt}
    (h : Statement dangling ts s) : Starts (TokenKind.opensStatement ·) ts := by
  cases h with
  | expression h _ => exact (h.starts.append _).mono fun _ => opensStatement_of_startsExpression
  | print hk _ _ => exact ⟨_, _, rfl, by rw [hk]; rfl⟩
  | ret hk _ _ => exact ⟨_, _, rfl, by rw [hk]; rfl⟩
  | block h =>
      cases h with
      | mk hk _ _ => exact ⟨_, _, rfl, by rw [hk]; rfl⟩
  | ifThen hk _ _ _ _ => exact ⟨_, _, rfl, by rw [hk]; rfl⟩
  | ifElse hk _ _ _ _ _ _ => exact ⟨_, _, rfl, by rw [hk]; rfl⟩
  | whileLoop hk _ _ _ _ => exact ⟨_, _, rfl, by rw [hk]; rfl⟩
  | forLoop hk _ _ _ _ _ _ _ => exact ⟨_, _, rfl, by rw [hk]; rfl⟩

theorem Declaration.starts {ts : List Token} {d : Decl} (h : Declaration ts d) :
    Starts (TokenKind.opensDeclaration ·) ts := by
  cases h with
  | classDecl hk _ _ _ _ _ => exact ⟨_, _, rfl, by rw [hk]; rfl⟩
  | funDecl hk _ => exact ⟨_, _, rfl, by rw [hk]; rfl⟩
  | varDecl h =>
      cases h with
      | mk hk _ _ _ => exact ⟨_, _, rfl, by rw [hk]; rfl⟩
  | statement h => exact h.starts.mono fun _ => opensDeclaration_of_opensStatement

theorem Declarations.starts {t : Token} {ts : List Token} {ds : List Decl}
    (h : Declarations (t :: ts) ds) : t.kind.opensDeclaration = true := by
  generalize hts : t :: ts = us at h
  cases h with
  | nil => cases hts
  | cons h _ =>
      obtain ⟨t', vs, rfl, ht⟩ := h.starts
      cases hts
      exact ht

theorem Function.starts {ts : List Token} {r : Routine} (h : Function ts r) :
    Starts (· = .identifier) ts := by
  cases h with
  | mk hname _ _ _ _ => exact ⟨_, _, rfl, hname⟩

end Grammar

/-! ### Trees with a given bare tree -/

theorem bare_eq_variable {e : Expr} {mark : Mark} {name : String}
    (h : e.bare = .variable mark name) : ∃ m, e = .variable m name := by
  cases e <;> simp only [Expr.bare] at h <;> cases h
  exact ⟨_, rfl⟩

theorem bare_eq_get {e object : Expr} {mark : Mark} {name : String}
    (h : e.bare = .get mark object name) : ∃ m x, e = .get m x name ∧ x.bare = object := by
  cases e <;> simp only [Expr.bare] at h <;> cases h
  exact ⟨_, _, rfl, rfl⟩

namespace Parser

variable {α β : Type}

/-- A parser passes the tokens of a phrase: in front of them, whatever follows in a set, it answers
behind them with a tree of the phrase. -/
def Finds (p : Parser α) (ts : List Token) (Follow : TokenKind → Prop) (Tree : α → Prop) : Prop :=
  ∀ ⦃c : Cursor⦄, c.Faces ts Follow → ∃ a c', p c = .done a c' ∧ c.Passes ts c' ∧ Tree a

/-! ### Expressions -/

/-- With some fuel, the parsers of expressions pass the tokens of each phrase of their productions
that is short enough. -/
structure FindsExpressions (fuel : Nat) : Prop where
  expression : ∀ {ts e}, Grammar.Expression ts e → 20 * ts.length + 11 ≤ fuel →
    Finds (expression fuel) ts EndsExpression (·.bare = e)
  assignment : ∀ {ts e}, Grammar.Assignment ts e → 20 * ts.length + 10 ≤ fuel →
    Finds (assignment fuel) ts EndsAssignment (·.bare = e)
  operand : ∀ {level ts e}, Grammar.Operand level ts e →
    20 * ts.length + 3 + looseness level ≤ fuel →
    Finds (operand fuel level) ts (Ends level) (·.bare = e)
  joins : ∀ {level left ts e}, Grammar.Joins level left.bare ts e → 20 * ts.length + 1 ≤ fuel →
    Finds (joins fuel level left) ts (Ends (some level)) (·.bare = e)
  unary : ∀ {ts e}, Grammar.Unary ts e → 20 * ts.length + 2 ≤ fuel →
    Finds (unary fuel) ts (Ends none) (·.bare = e)
  suffixes : ∀ {callee ts e}, Grammar.Suffixes callee.bare ts e → 20 * ts.length + 1 ≤ fuel →
    Finds (suffixes fuel callee) ts (Ends none) (·.bare = e)
  argumentList : ∀ {ts es}, Grammar.ArgumentList ts es → 20 * ts.length + 13 ≤ fuel →
    Finds (argumentList fuel) ts (· = .rightParen) (Expr.allBare · = es)
  arguments : ∀ count {ts es}, Grammar.Arguments ts es → count + es.length ≤ arityLimit →
    20 * ts.length + 12 ≤ fuel →
    Finds (arguments fuel count) ts (· = .rightParen) (Expr.allBare · = es)
  primary : ∀ {ts e}, Grammar.Primary ts e → 20 * ts.length + 1 ≤ fuel →
    Finds (primary fuel) ts (fun _ => True) (·.bare = e)

section Expressions

variable {n : Nat} {ts : List Token} {e : Expr}

theorem finds_expression (ih : FindsExpressions n) (h : Grammar.Expression ts e)
    (hn : 20 * ts.length + 11 ≤ n + 1) :
    Finds (expression (n + 1)) ts EndsExpression (·.bare = e) := by
  intro c hc
  cases h with
  | plain h =>
      obtain ⟨x, c₁, hx, hp, he⟩ := ih.assignment h (by omega) (hc.mono fun _ h => h.assignment)
      have hf := hc.done hp
      refine ⟨x, c₁, ?_, hp, he⟩
      rw [expression, bind_of_done hx, peek_bind, if_neg hf.choice, pure_apply]
  | @choice ts us vs question colon e x y h hq hx hcolon hy =>
      simp only [List.length_append, List.length_cons] at hn
      obtain ⟨e', c₁, run, hp, rfl⟩ := ih.assignment h (by omega)
        (hc.cut (by rw [hq]; exact endsAssignment_question))
      have hc₁ := hc.passes hp
      have hc₂ := hc₁.tail
      obtain ⟨x', c₂, run₂, hp₂, rfl⟩ := ih.assignment hx (by omega)
        (hc₂.cut (by rw [hcolon]; exact endsAssignment_colon))
      have hc₃ := hc₂.passes hp₂
      obtain ⟨y', c₃, run₃, hp₃, rfl⟩ := ih.assignment hy (by omega)
        (hc₃.tail.mono fun _ h => h.assignment)
      refine ⟨.ternary ⟨c₃.supply.expr, e'.span.through y'.span⟩ e' question.span x' y',
        c₃.numbered, ?_, ?_, rfl⟩
      · rw [expression, bind_of_done run, peek_bind, hc₁.next, if_pos hq, advance_bind,
          bind_of_done run₂, accept_bind, hc₃.next, if_pos hcolon, if_pos rfl, bind_of_done run₃,
          mark_bind, pure_apply]
      · exact (hp.trans (hc₁.advance.trans (hp₂.trans (hc₃.advance.trans hp₃)))).numbered

theorem finds_assignment (ih : FindsExpressions n) (h : Grammar.Assignment ts e)
    (hn : 20 * ts.length + 10 ≤ n + 1) :
    Finds (assignment (n + 1)) ts EndsAssignment (·.bare = e) := by
  intro c hc
  cases h with
  | plain h =>
      obtain ⟨x, c₁, run, hp, he⟩ := ih.operand h (by simp only [looseness]; omega)
        (hc.mono fun _ h => h.operand)
      have hf := hc.done hp
      refine ⟨x, c₁, ?_, hp, he⟩
      rw [assignment, bind_of_done run, peek_bind, if_neg hf.assignment, pure_apply]
  | @name ts us equals name e h hq hv =>
      simp only [List.length_append, List.length_cons] at hn
      obtain ⟨x, c₁, run, hp, hbx⟩ := ih.operand h (by simp only [looseness]; omega)
        (hc.cut (by rw [hq]; exact ends_equal))
      obtain ⟨m, rfl⟩ := bare_eq_variable hbx
      have hc₁ := hc.passes hp
      obtain ⟨v, c₂, run₂, hp₂, rfl⟩ := ih.assignment hv (by omega) hc₁.tail
      refine ⟨.assign ⟨c₂.supply.expr, m.span.through v.span⟩ name v, c₂.numbered, ?_,
        (hp.trans (hc₁.advance.trans hp₂)).numbered, rfl⟩
      rw [assignment, bind_of_done run, peek_bind, hc₁.next, if_pos hq, advance_bind,
        bind_of_done run₂]
      rfl
  | @property ts us equals object e name h hq hv =>
      simp only [List.length_append, List.length_cons] at hn
      obtain ⟨x, c₁, run, hp, hbx⟩ := ih.operand h (by simp only [looseness]; omega)
        (hc.cut (by rw [hq]; exact ends_equal))
      obtain ⟨m, object, rfl, rfl⟩ := bare_eq_get hbx
      have hc₁ := hc.passes hp
      obtain ⟨v, c₂, run₂, hp₂, rfl⟩ := ih.assignment hv (by omega) hc₁.tail
      refine ⟨.set ⟨c₂.supply.expr, m.span.through v.span⟩ object name v, c₂.numbered, ?_,
        (hp.trans (hc₁.advance.trans hp₂)).numbered, rfl⟩
      rw [assignment, bind_of_done run, peek_bind, hc₁.next, if_pos hq, advance_bind,
        bind_of_done run₂]
      rfl

theorem finds_operand (ih : FindsExpressions n) {level : Option Level}
    (h : Grammar.Operand level ts e) (hn : 20 * ts.length + 3 + looseness level ≤ n + 1) :
    Finds (operand (n + 1) level) ts (Ends level) (·.bare = e) := by
  intro c hc
  cases h with
  | unary h =>
      simp only [looseness] at hn
      rw [operand]
      exact ih.unary h (by omega) hc
  | @level level tighter ts us left e ho h hj =>
      obtain rfl := Grammar.operands_iff.1 ho
      have hts := h.starts.length_pos
      have hl := looseness_tighter level
      rw [List.length_append] at hn
      -- the looser operators behind the first operand cannot go on with it
      obtain ⟨x, c₁, hx, hp, rfl⟩ := ih.operand h (by omega)
        (hc.split (fun _ h => h.tighter) (fun t vs h => by rw [h] at hj; exact hj.ends))
      obtain ⟨y, c₂, hy, hp₂, hby⟩ := ih.joins hj (by omega) (hc.passes hp)
      refine ⟨y, c₂, ?_, hp.trans hp₂, hby⟩
      rw [operand, bind_of_done hx, hy]

theorem finds_joins (ih : FindsExpressions n) {level : Level} {left : Expr}
    (h : Grammar.Joins level left.bare ts e) (hn : 20 * ts.length + 1 ≤ n + 1) :
    Finds (joins (n + 1) level left) ts (Ends (some level)) (·.bare = e) := by
  intro c hc
  generalize hleft : left.bare = x at h
  cases h with
  | nil =>
      refine ⟨left, c, ?_, .refl c, hleft⟩
      rw [joins, peek_bind]
      simp only [hc.follow.operator level (Nat.le_refl _)]
      rfl
  | @cons _ tighter join operator ts us _ right e ho htighter hr hj =>
      obtain rfl := Grammar.operands_iff.1 htighter
      rw [Grammar.operator_iff] at ho
      have hts := hr.starts.length_pos
      have hl := looseness_tighter level
      have hbound : looseness (some level) ≤ 6 := by cases level <;> decide
      simp only [List.length_append, List.length_cons] at hn
      have hc₁ := hc.tail
      obtain ⟨y, c₁, hy, hp, rfl⟩ := ih.operand hr (by omega)
        (hc₁.split (fun _ h => h.tighter) (fun t vs h => by rw [h] at hj; exact hj.ends))
      -- the grammar goes on from the joined bare tree, the parser from the numbered one
      rw [← hleft, ← Phrase.bare_join join ⟨c₁.supply.expr, left.span.through y.span⟩ left y
        operator.span] at hj
      obtain ⟨z, c₂, hz, hp₂, hbz⟩ := ih.joins hj (by omega) (hc₁.passes hp).numbered
      refine ⟨z, c₂, ?_, hc.advance.trans (hp.numbered.trans hp₂), hbz⟩
      rw [joins, peek_bind, hc.next]
      simp only [ho]
      rw [advance_bind, bind_of_done hy, mark_bind, hz]

theorem finds_unary (ih : FindsExpressions n) (h : Grammar.Unary ts e)
    (hn : 20 * ts.length + 2 ≤ n + 1) : Finds (unary (n + 1)) ts (Ends none) (·.bare = e) := by
  intro c hc
  cases h with
  | @not operator ts e hk h =>
      rw [List.length_cons] at hn
      obtain ⟨x, c₁, run, hp, rfl⟩ := ih.unary h (by omega) hc.tail
      refine ⟨.unary ⟨c₁.supply.expr, operator.span.through x.span⟩ .not x, c₁.numbered, ?_,
        (hc.advance.trans hp).numbered, rfl⟩
      rw [unary, peek_bind, hc.next]
      simp only [hk, UnaryOp.ofKind?]
      rw [advance_bind, bind_of_done run, mark_bind, pure_apply]
  | @negate operator ts e hk h =>
      rw [List.length_cons] at hn
      obtain ⟨x, c₁, run, hp, rfl⟩ := ih.unary h (by omega) hc.tail
      refine ⟨.unary ⟨c₁.supply.expr, operator.span.through x.span⟩ .negate x, c₁.numbered, ?_,
        (hc.advance.trans hp).numbered, rfl⟩
      rw [unary, peek_bind, hc.next]
      simp only [hk, UnaryOp.ofKind?]
      rw [advance_bind, bind_of_done run, mark_bind, pure_apply]
  | @call ts us callee e h hs =>
      have hstart := h.starts
      have hts := hstart.length_pos
      rw [List.length_append] at hn
      obtain ⟨x, c₁, run, hp, rfl⟩ := ih.primary h (by omega)
        (hc.split (fun _ _ => trivial) (fun _ _ _ => trivial))
      obtain ⟨y, c₂, run₂, hp₂, hy⟩ := ih.suffixes hs (by omega) (hc.passes hp)
      refine ⟨y, c₂, ?_, hp.trans hp₂, hy⟩
      -- the first token is no operator, so the parser turns to the primary expression
      obtain ⟨t, vs, rfl, -⟩ := hstart
      rw [unary, peek_bind, hc.next]
      simp only [h.no_operator]
      rw [bind_of_done run, run₂]

theorem finds_suffixes (ih : FindsExpressions n) {callee : Expr}
    (h : Grammar.Suffixes callee.bare ts e) (hn : 20 * ts.length + 1 ≤ n + 1) :
    Finds (suffixes (n + 1) callee) ts (Ends none) (·.bare = e) := by
  intro c hc
  generalize hcallee : callee.bare = x at h
  cases h with
  | nil =>
      refine ⟨callee, c, ?_, .refl c, hcallee⟩
      rw [suffixes, accept_bind, if_neg hc.follow.call, if_neg (by decide), accept_bind,
        if_neg hc.follow.property, if_neg (by decide), pure_apply]
  | @call opening closing ts us _ e arguments ho ha hclose hs =>
      simp only [List.length_append, List.length_cons] at hn
      obtain ⟨xs, c₁, run, hp, rfl⟩ := ih.argumentList ha (by omega) (hc.tail.cut hclose)
      have hc₁ := hc.tail.passes hp
      obtain rfl := hcallee
      -- the rest is parsed with the call as its callee, whose bare tree is the one derived so far
      have hs : Grammar.Suffixes (Expr.call ⟨c₁.advance.supply.expr,
          callee.span.through closing.span⟩ callee xs closing.span).bare us e := hs
      obtain ⟨y, c₂, run₂, hp₂, hy⟩ := ih.suffixes hs (by omega) hc₁.tail.numbered
      refine ⟨y, c₂, ?_, hc.advance.trans (hp.trans (hc₁.advance.numbered.trans hp₂)), hy⟩
      rw [suffixes, accept_bind, hc.next, if_pos ho, if_pos rfl, bind_of_done run, expect_bind,
        hc₁.next, if_pos hclose, mark_bind, run₂]
  | @property dot name us _ e hd hname hs =>
      simp only [List.length_cons] at hn
      obtain rfl := hcallee
      have hc₁ := hc.tail
      have hs : Grammar.Suffixes (Expr.get ⟨c.advance.advance.supply.expr,
          callee.span.through name.span⟩ callee name.lexeme).bare us e := hs
      obtain ⟨y, c₂, run₂, hp₂, hy⟩ := ih.suffixes hs (by omega) hc₁.tail.numbered
      refine ⟨y, c₂, ?_, hc.advance.trans (hc₁.advance.numbered.trans hp₂), hy⟩
      rw [suffixes, accept_bind, hc.next, if_neg (by rw [hd]; decide), if_neg (by decide),
        accept_bind, hc.next, if_pos hd, if_pos rfl, expectName_bind, hc₁.next, if_pos hname]
      dsimp only
      rw [mark_bind, run₂]

theorem finds_argumentList (ih : FindsExpressions n) {es : List Expr}
    (h : Grammar.ArgumentList ts es) (hn : 20 * ts.length + 13 ≤ n + 1) :
    Finds (argumentList (n + 1)) ts (· = .rightParen) (Expr.allBare · = es) := by
  intro c hc
  cases h with
  | none =>
      refine ⟨[], c, ?_, .refl c, rfl⟩
      rw [argumentList, check_bind, hc.follow]
      rfl
  | some h hl =>
      obtain ⟨xs, c₁, run, hp, hxs⟩ :=
        ih.arguments 0 h (by simpa [arityLimit] using hl) (by omega) hc
      refine ⟨xs, c₁, ?_, hp, hxs⟩
      obtain ⟨t, us, rfl, ht⟩ := h.starts
      rw [argumentList, check_bind, hc.next, if_neg, run]
      intro hk
      rw [eq_of_beq hk] at ht
      cases ht

theorem finds_arguments (ih : FindsExpressions n) (count : Nat) {es : List Expr}
    (h : Grammar.Arguments ts es) (hl : count + es.length ≤ arityLimit)
    (hn : 20 * ts.length + 12 ≤ n + 1) :
    Finds (arguments (n + 1) count) ts (· = .rightParen) (Expr.allBare · = es) := by
  -- fuel bounds the tokens, `count` the arguments; the check against the limit never fires
  intro c hc
  cases h with
  | @last ts e h =>
      rw [List.length_singleton] at hl
      obtain ⟨x, c₁, run, hp, rfl⟩ := ih.expression h (by omega)
        (hc.mono (by rintro _ rfl; exact endsExpression_rightParen))
      have hf := hc.done hp
      refine ⟨[x], c₁, ?_, hp, rfl⟩
      rw [arguments, if_neg (by omega)]
      dsimp only
      rw [bind_of_done run, accept_bind, hf, if_neg (by decide), if_neg (by decide), pure_apply]
  | @more ts us comma e es h hcomma hs =>
      simp only [List.length_append, List.length_cons] at hn hl
      obtain ⟨x, c₁, run, hp, rfl⟩ := ih.expression h (by omega)
        (hc.cut (by rw [hcomma]; exact endsExpression_comma))
      have hc₁ := hc.passes hp
      obtain ⟨xs, c₂, run₂, hp₂, rfl⟩ := ih.arguments (count + 1) hs (by omega) (by omega) hc₁.tail
      refine ⟨x :: xs, c₂, ?_, hp.trans (hc₁.advance.trans hp₂), rfl⟩
      rw [arguments, if_neg (by omega)]
      dsimp only
      rw [bind_of_done run, accept_bind, hc₁.next, if_pos hcomma, if_pos rfl, bind_of_done run₂,
        pure_apply]

/-- A token with a value is a literal or a literal word. -/
theorem kind_of_constant {t : Token} {value : Constant} (h : Constant.ofToken? t = some value) :
    t.kind = .number ∨ t.kind = .string ∨ t.kind = .trueWord ∨ t.kind = .falseWord ∨
      t.kind = .nilWord := by
  unfold Constant.ofToken? at h
  split at h
  · exact .inl ‹_›
  · exact .inr (.inl ‹_›)
  · exact .inr (.inr (.inl ‹_›))
  · exact .inr (.inr (.inr (.inl ‹_›)))
  · exact .inr (.inr (.inr (.inr ‹_›)))
  · cases h

/-- A token with a value is passed, and its constant is the answer. -/
theorem finds_constant {t : Token} {value : Constant} (h : Constant.ofToken? t = some value) :
    Finds (primary (n + 1)) [t] (fun _ => True) (·.bare = .constant default value) := by
  intro c hc
  refine ⟨.constant ⟨c.supply.expr, t.span⟩ value, c.advance.numbered, ?_, hc.advance.numbered, rfl⟩
  rw [primary, peek_bind, hc.next]
  rcases kind_of_constant h with hk | hk | hk | hk | hk <;>
    (simp only [hk, h]
     rw [advance_bind, mark_bind, pure_apply, Cursor.advance_supply])

theorem finds_primary (ih : FindsExpressions n) (h : Grammar.Primary ts e)
    (hn : 20 * ts.length + 1 ≤ n + 1) :
    Finds (primary (n + 1)) ts (fun _ => True) (·.bare = e) := by
  cases h with
  | number hk hl =>
      refine finds_constant ?_
      rcases hk with hk | hk <;> simp only [Constant.ofToken?, hk, hl]
  | string hk hl =>
      refine finds_constant ?_
      rcases hk with hk | hk <;> simp only [Constant.ofToken?, hk, hl]
  | trueWord hk => exact finds_constant (by simp only [Constant.ofToken?, hk])
  | falseWord hk => exact finds_constant (by simp only [Constant.ofToken?, hk])
  | nilWord hk => exact finds_constant (by simp only [Constant.ofToken?, hk])
  | @thisWord t hk =>
      intro c hc
      refine ⟨.thisRef ⟨c.advance.supply.expr, t.span⟩, c.advance.numbered, ?_,
        hc.advance.numbered, rfl⟩
      rw [primary, peek_bind, hc.next]
      simp only [hk]
      rw [advance_bind, mark_bind, pure_apply]
  | @superWord t dot method hk hd hm =>
      intro c hc
      have hc₁ := hc.tail
      have hc₂ := hc₁.tail
      refine ⟨.superRef ⟨c.advance.advance.advance.supply.expr, t.span.through method.span⟩
        method.lexeme, c.advance.advance.advance.numbered, ?_,
        (hc.advance.trans (hc₁.advance.trans hc₂.advance)).numbered, rfl⟩
      rw [primary, peek_bind, hc.next]
      simp only [hk]
      rw [advance_bind, expect_bind, hc₁.next, if_pos hd, expectName_bind, hc₂.next, if_pos hm]
      dsimp only
      rw [mark_bind, pure_apply]
  | @name t hk =>
      intro c hc
      refine ⟨.variable ⟨c.advance.supply.expr, t.span⟩ t.lexeme, c.advance.numbered, ?_,
        hc.advance.numbered, rfl⟩
      rw [primary, peek_bind, hc.next]
      simp only [hk]
      rw [advance_bind, mark_bind, pure_apply]
  | @grouping opening closing ts e hk h hclose =>
      intro c hc
      simp only [List.length_append, List.length_cons, List.length_nil] at hn
      obtain ⟨x, c₁, run, hp, rfl⟩ := ih.expression h (by omega)
        (hc.tail.cut (by rw [hclose]; exact endsExpression_rightParen))
      have hc₁ := hc.tail.passes hp
      refine ⟨.grouping ⟨c₁.advance.supply.expr, opening.span.through closing.span⟩ x,
        c₁.advance.numbered, ?_, (hc.advance.trans (hp.trans hc₁.advance)).numbered, rfl⟩
      rw [primary, peek_bind, hc.next]
      simp only [hk]
      rw [advance_bind, bind_of_done run, expect_bind, hc₁.next, if_pos hclose, mark_bind,
        pure_apply]

/-- **The parsers of expressions pass the tokens of each phrase of their productions**, if there is
fuel enough. -/
theorem findsExpressions (n : Nat) : FindsExpressions n := by
  induction n with
  | zero => constructor <;> intros <;> omega
  | succ n ih =>
      exact ⟨finds_expression ih, finds_assignment ih, finds_operand ih, finds_joins ih,
        finds_unary ih, finds_suffixes ih, finds_argumentList ih,
        fun count => finds_arguments ih count, finds_primary ih⟩

end Expressions

/-! ### Parts of declarations and statements -/

section Parts

variable {n : Nat} {ts : List Token}

theorem finds_parameters (count : Nat) {ps : List Param} (h : Grammar.Parameters ts ps)
    (hl : count + ps.length ≤ arityLimit) (hn : ts.length ≤ n) :
    Finds (parameters n count) ts (· = .rightParen) (List.map Param.bare · = ps) := by
  -- induction on the fuel, one step for each parameter
  induction n generalizing count ts ps with
  | zero => cases h <;> cases hn
  | succ n ih =>
      intro c hc
      cases h with
      | @last t ht =>
          rw [List.length_singleton] at hl
          refine ⟨[⟨t.lexeme, t.span⟩], c.advance, ?_, hc.advance, rfl⟩
          rw [parameters, if_neg (by omega)]
          dsimp only
          rw [expectName_bind, hc.next, if_pos ht]
          dsimp only
          rw [accept_bind, hc.tail.follow, if_neg (by decide), if_neg (by decide), pure_apply]
      | @more t comma ts ps ht hcomma hs =>
          simp only [List.length_cons] at hl hn
          have hc₁ := hc.tail
          obtain ⟨qs, c₁, run, hp, rfl⟩ := ih (count + 1) hs (by omega) (by omega) hc₁.tail
          refine ⟨⟨t.lexeme, t.span⟩ :: qs, c₁, ?_, hc.advance.trans (hc₁.advance.trans hp), rfl⟩
          rw [parameters, if_neg (by omega)]
          dsimp only
          rw [expectName_bind, hc.next, if_pos ht]
          dsimp only
          rw [accept_bind, hc₁.next, if_pos hcomma, if_pos rfl, bind_of_done run, pure_apply]

theorem finds_parameterList {ps : List Param} (h : Grammar.ParameterList ts ps)
    (hn : ts.length ≤ n) :
    Finds (parameterList n) ts (· = .rightParen) (List.map Param.bare · = ps) := by
  intro c hc
  cases h with
  | none =>
      refine ⟨[], c, ?_, .refl c, rfl⟩
      rw [parameterList, check_bind, hc.follow]
      rfl
  | some h hl =>
      obtain ⟨qs, c₁, run, hp, hqs⟩ :=
        finds_parameters 0 h (by simpa [arityLimit] using hl) hn hc
      refine ⟨qs, c₁, ?_, hp, hqs⟩
      have ht : c.next.kind = .identifier := by
        cases h with
        | last ht => rw [hc.next, ht]
        | more ht _ _ => rw [hc.next, ht]
      rw [parameterList, check_bind, ht, if_neg (by decide), run]

theorem finds_superclass {p : Option Superclass} (h : Grammar.Parent ts p) :
    Finds superclass ts (· = .leftBrace) (Option.map Superclass.bare · = p) := by
  intro c hc
  cases h with
  | none =>
      refine ⟨none, c, ?_, .refl c, rfl⟩
      rw [superclass, accept_bind, hc.follow, if_neg (by decide), if_neg (by decide), pure_apply]
  | @some less name hless hname =>
      have hc₁ := hc.tail
      refine ⟨some ⟨⟨c.advance.advance.supply.expr, name.span⟩, name.lexeme⟩,
        c.advance.advance.numbered, ?_, (hc.advance.trans hc₁.advance).numbered, rfl⟩
      rw [superclass, accept_bind, hc.next, if_pos hless, if_pos rfl, expectName_bind, hc₁.next,
        if_pos hname]
      dsimp only
      rw [mark_bind, pure_apply]

theorem finds_variableDeclaration {d : Decl} (h : Grammar.Variable ts d)
    (hn : 20 * ts.length ≤ n) :
    Finds (variableDeclaration n) ts (fun _ => True) (·.bare = d) := by
  intro c hc
  obtain ⟨hk, hname, hi, hs⟩ := h
  rename_i keyword name semicolon ts initializer
  simp only [List.length_append, List.length_cons, List.length_nil] at hn
  have hc₁ := hc.tail
  have hc₂ := hc₁.tail
  cases hi with
  | none =>
      refine ⟨.varDecl name.lexeme name.span none
        (keyword.span.through c.advance.advance.advance.last.span), c.advance.advance.advance, ?_,
        hc.advance.trans (hc₁.advance.trans hc₂.advance), rfl⟩
      rw [variableDeclaration, advance_bind, expectName_bind, hc₁.next, if_pos hname, hc.next]
      dsimp only
      rw [accept_bind, hc₂.next, if_neg (by rw [hs]; decide), if_neg (by decide), answer_bind,
        expect_bind, hc₂.next, if_pos hs, spanFrom_bind, pure_apply]
  | @some equals ts e hq he =>
      simp only [List.length_cons] at hn
      obtain ⟨x, c₁, run, hp, rfl⟩ := (findsExpressions n).expression he (by omega)
        (hc₂.tail.cut (by rw [hs]; exact endsExpression_semicolon))
      have hc₃ := hc₂.tail.passes hp
      refine ⟨.varDecl name.lexeme name.span (some x)
        (keyword.span.through c₁.advance.last.span), c₁.advance, ?_,
        hc.advance.trans (hc₁.advance.trans (hc₂.advance.trans (hp.trans hc₃.advance))), rfl⟩
      rw [variableDeclaration, advance_bind, expectName_bind, hc₁.next, if_pos hname, hc.next]
      dsimp only
      rw [accept_bind, hc₂.next, if_pos hq, if_pos rfl, bind_of_done run, answer_bind,
        expect_bind, hc₃.next, if_pos hs, spanFrom_bind, pure_apply]

theorem finds_expressionStatement {e : Expr} {semicolon : Token} (h : Grammar.Expression ts e)
    (hs : semicolon.kind = .semicolon) (hn : 20 * ts.length + 11 ≤ n) :
    Finds (expressionStatement n) (ts ++ [semicolon]) (fun _ => True)
      (·.bare = .expression e default) := by
  intro c hc
  obtain ⟨x, c₁, run, hp, rfl⟩ := (findsExpressions n).expression h hn
    (hc.cut (by rw [hs]; exact endsExpression_semicolon))
  have hc₁ := hc.passes hp
  refine ⟨.expression x x.span, c₁.advance, ?_, hp.trans hc₁.advance, rfl⟩
  rw [expressionStatement, bind_of_done run, expect_bind, hc₁.next, if_pos hs, pure_apply]

/-- An expression does not begin with a token of another kind. -/
theorem not_check {c : Cursor} {kind : TokenKind} {Follow : TokenKind → Prop}
    (hc : c.Faces ts Follow) (h : Starts (TokenKind.startsExpression ·) ts)
    (hk : kind.startsExpression = false) : ¬(c.next.kind == kind) = true := by
  obtain ⟨t, us, rfl, ht⟩ := h
  rw [hc.next]
  intro h
  rw [eq_of_beq h, hk] at ht
  cases ht

theorem finds_printStatement {e : Expr} {keyword semicolon : Token}
    (h : Grammar.Expression ts e) (hs : semicolon.kind = .semicolon)
    (hn : 20 * ts.length + 11 ≤ n) :
    Finds (printStatement n) (keyword :: (ts ++ [semicolon])) (fun _ => True)
      (·.bare = .print e default) := by
  intro c hc
  obtain ⟨x, c₁, run, hp, rfl⟩ := (findsExpressions n).expression h hn
    (hc.tail.cut (by rw [hs]; exact endsExpression_semicolon))
  have hc₁ := hc.tail.passes hp
  refine ⟨.print x (keyword.span.through c₁.advance.last.span), c₁.advance, ?_,
    hc.advance.trans (hp.trans hc₁.advance), rfl⟩
  rw [printStatement, advance_bind, hc.next, bind_of_done run, expect_bind, hc₁.next, if_pos hs,
    spanFrom_bind, pure_apply]

theorem finds_returnStatement {value : Option Expr} {keyword semicolon : Token}
    (h : Grammar.Optional ts value) (hs : semicolon.kind = .semicolon)
    (hn : 20 * ts.length + 11 ≤ n) :
    Finds (returnStatement n) (keyword :: (ts ++ [semicolon])) (fun _ => True)
      (·.bare = .ret default value default) := by
  intro c hc
  have hc₁ := hc.tail
  cases h with
  | none =>
      refine ⟨.ret keyword.span none (keyword.span.through c.advance.advance.last.span),
        c.advance.advance, ?_, hc.advance.trans hc₁.advance, rfl⟩
      rw [returnStatement, advance_bind, hc.next, check_bind, hc₁.next, hs,
        if_pos (by decide), answer_bind]
      dsimp only
      rw [expect_bind, hc₁.next, if_pos hs, spanFrom_bind, pure_apply]
  | some h =>
      obtain ⟨x, c₁, run, hp, rfl⟩ := (findsExpressions n).expression h hn
        (hc₁.cut (by rw [hs]; exact endsExpression_semicolon))
      have hc₂ := hc₁.passes hp
      refine ⟨.ret keyword.span (some x) (keyword.span.through c₁.advance.last.span),
        c₁.advance, ?_, hc.advance.trans (hp.trans hc₂.advance), rfl⟩
      rw [returnStatement, advance_bind, hc.next, check_bind,
        if_neg (not_check hc₁ (h.starts.append _) rfl), bind_of_done run, answer_bind]
      dsimp only
      rw [expect_bind, hc₂.next, if_pos hs, spanFrom_bind, pure_apply]

theorem finds_loopInitializer {d : Option Decl} (h : Grammar.LoopInitializer ts d)
    (hn : 20 * ts.length ≤ n) :
    Finds (loopInitializer n) ts (fun _ => True) (Option.map Decl.bare · = d) := by
  intro c hc
  cases h with
  | none hs =>
      refine ⟨none, c.advance, ?_, hc.advance, rfl⟩
      rw [loopInitializer, accept_bind, hc.next, if_pos hs, if_pos rfl, pure_apply]
  | declaration h =>
      have hk : c.next.kind = .varWord := by
        cases h with
        | mk hk _ _ _ => rw [hc.next, hk]
      obtain ⟨d, c₁, run, hp, rfl⟩ := finds_variableDeclaration h hn hc
      refine ⟨some d, c₁, ?_, hp, rfl⟩
      rw [loopInitializer, accept_bind, if_neg (by rw [hk]; decide), if_neg (by decide),
        check_bind, hk, if_pos (by decide), bind_of_done run, pure_apply]
  | @expression semicolon ts e h hs =>
      rw [List.length_append, List.length_singleton] at hn
      obtain ⟨stmt, c₁, run, hp, hstmt⟩ := finds_expressionStatement (n := n) h hs (by omega) hc
      refine ⟨some (.statement stmt), c₁, ?_, hp, ?_⟩
      -- an expression begins with neither of the tokens that are looked for first
      · have hstart := h.starts.append [semicolon]
        have hno : ¬(c.next.kind == .semicolon) = true := not_check hc hstart rfl
        rw [loopInitializer, accept_bind, if_neg (by simpa using hno), if_neg (by decide),
          check_bind, if_neg (not_check hc hstart rfl), bind_of_done run, pure_apply]
      · simp only [Option.map_some, Decl.bare, hstmt]

theorem finds_loopCondition {e : Expr} {semicolon : Token} (h : Grammar.LoopCondition ts e)
    (hs : semicolon.kind = .semicolon) (hn : 20 * ts.length + 11 ≤ n) :
    Finds (loopCondition n) (ts ++ [semicolon]) (fun _ => True) (·.bare = e) := by
  intro c hc
  cases h with
  | none =>
      -- the condition left out stands at the semicolon, and takes a number, but no token
      have hc₁ : c.numbered.Faces [semicolon] fun _ => True := hc.numbered
      refine ⟨.constant ⟨c.supply.expr, semicolon.span⟩ (.bool true), c.numbered.advance, ?_,
        (Cursor.Passes.refl c).numbered.trans hc₁.advance, rfl⟩
      rw [loopCondition, check_bind, hc.next, hs, if_pos (by decide), peek_bind,
        mark_bind, answer_bind]
      dsimp only
      rw [expect_bind, hc₁.next, if_pos hs, pure_apply, hc.next]
  | some h =>
      obtain ⟨x, c₁, run, hp, rfl⟩ := (findsExpressions n).expression h hn
        (hc.cut (by rw [hs]; exact endsExpression_semicolon))
      have hc₁ := hc.passes hp
      refine ⟨x, c₁.advance, ?_, hp.trans hc₁.advance, rfl⟩
      rw [loopCondition, check_bind, if_neg (not_check hc (h.starts.append _) rfl),
        bind_of_done run]
      dsimp only
      rw [expect_bind, hc₁.next, if_pos hs, pure_apply]

theorem finds_loopIncrement {e : Option Expr} {closing : Token} (h : Grammar.Optional ts e)
    (hclose : closing.kind = .rightParen) (hn : 20 * ts.length + 11 ≤ n) :
    Finds (loopIncrement n) (ts ++ [closing]) (fun _ => True) (Option.map Expr.bare · = e) := by
  intro c hc
  cases h with
  | none =>
      refine ⟨none, c.advance, ?_, hc.advance, rfl⟩
      rw [loopIncrement, check_bind, hc.next, hclose, if_pos (by decide), answer_bind]
      dsimp only
      rw [expect_bind, hc.next, if_pos hclose, pure_apply]
  | some h =>
      obtain ⟨x, c₁, run, hp, rfl⟩ := (findsExpressions n).expression h hn
        (hc.cut (by rw [hclose]; exact endsExpression_rightParen))
      have hc₁ := hc.passes hp
      refine ⟨some x, c₁.advance, ?_, hp.trans hc₁.advance, rfl⟩
      rw [loopIncrement, check_bind, if_neg (not_check hc (h.starts.append _) rfl),
        bind_of_done run, answer_bind]
      dsimp only
      rw [expect_bind, hc₁.next, if_pos hclose, pure_apply]

end Parts

/-! ### Declarations and statements -/

/-- With some fuel, the parsers of declarations and statements pass the tokens of each phrase of
their productions that is short enough. -/
structure FindsStatements (fuel : Nat) : Prop where
  declaration : ∀ {ts d}, Grammar.Declaration ts d → 20 * ts.length + 3 ≤ fuel →
    Finds (declaration fuel) ts (· ≠ .elseWord) (Option.map Decl.bare · = some d)
  wholeDeclaration : ∀ {ts d}, Grammar.Declaration ts d → 20 * ts.length + 2 ≤ fuel →
    Finds (wholeDeclaration fuel) ts (· ≠ .elseWord) (·.bare = d)
  methods : ∀ {ts rs}, Grammar.Methods ts rs → 20 * ts.length + 2 ≤ fuel →
    Finds (methods fuel) ts (· = .rightBrace) (Routine.allBare · = rs)
  routine : ∀ {ts r} role, Grammar.Function ts r → 20 * ts.length + 1 ≤ fuel →
    Finds (routine fuel role) ts (fun _ => True) (·.bare = r)
  blockBody : ∀ {ts body closing}, Grammar.Declarations ts body → closing.kind = .rightBrace →
    20 * ts.length + 5 ≤ fuel →
    Finds (blockBody fuel) (ts ++ [closing]) (fun _ => True) (Decl.allBare · = body)
  inner : ∀ {ts ds}, Grammar.Declarations ts ds → 20 * ts.length + 4 ≤ fuel →
    Finds (declarations fuel true) ts (· = .rightBrace) (Decl.allBare · = ds)
  program : ∀ {ds c}, Grammar.Declarations c.ahead ds → c.finish.kind = .endOfSource →
    20 * c.ahead.length + 4 ≤ fuel →
    ∃ ds' c', declarations fuel false c = .done ds' c' ∧ c.Passes c.ahead c' ∧
      Decl.allBare ds' = ds
  statement : ∀ {dangling ts s}, Grammar.Statement dangling ts s → 20 * ts.length + 1 ≤ fuel →
    Finds (statement fuel) ts (fun k => dangling = true → k ≠ .elseWord) (·.bare = s)

section Statements

variable {n : Nat} {ts : List Token}

theorem finds_declaration (ih : FindsStatements n) {d : Decl} (h : Grammar.Declaration ts d)
    (hn : 20 * ts.length + 3 ≤ n + 1) :
    Finds (declaration (n + 1)) ts (· ≠ .elseWord) (Option.map Decl.bare · = some d) := by
  intro c hc
  obtain ⟨d, c₁, run, hp, rfl⟩ := ih.wholeDeclaration h (by omega) hc
  refine ⟨some d, c₁, ?_, hp, rfl⟩
  rw [declaration, recover, run]

theorem finds_wholeDeclaration (ih : FindsStatements n) {d : Decl} (h : Grammar.Declaration ts d)
    (hn : 20 * ts.length + 2 ≤ n + 1) :
    Finds (wholeDeclaration (n + 1)) ts (· ≠ .elseWord) (·.bare = d) := by
  intro c hc
  cases h with
  | @classDecl keyword name opening closing ts us superclass methods hk hname hp ho hm hclose =>
      simp only [List.length_append, List.length_cons, List.length_nil] at hn
      have hc₁ := hc.tail
      obtain ⟨parent, c₁, run, hpass, rfl⟩ := finds_superclass hp (hc₁.tail.cut ho)
      have hc₂ := hc₁.tail.passes hpass
      obtain ⟨rs, c₂, run₂, hp₂, rfl⟩ := ih.methods hm (by omega) (hc₂.tail.cut hclose)
      have hc₃ := hc₂.tail.passes hp₂
      refine ⟨.classDecl name.lexeme name.span parent rs
        (keyword.span.through c₂.advance.last.span), c₂.advance, ?_, ?_, ?_⟩
      · rw [wholeDeclaration, peek_bind, hc.next]
        simp only [hk]
        rw [advance_bind, expectName_bind, hc₁.next, if_pos hname]
        dsimp only
        rw [bind_of_done run, expect_bind, hc₂.next, if_pos ho, bind_of_done run₂, expect_bind,
          hc₃.next, if_pos hclose, spanFrom_bind, pure_apply]
      · exact hc.advance.trans (hc₁.advance.trans (hpass.trans
          (hc₂.advance.trans (hp₂.trans hc₃.advance))))
      · simp only [Decl.bare]
  | @funDecl keyword ts r hk h =>
      rw [List.length_cons] at hn
      obtain ⟨r, c₁, run, hp, rfl⟩ := ih.routine .function h (by omega)
        (hc.tail.mono fun _ _ => trivial)
      refine ⟨.funDecl r (keyword.span.through c₁.last.span), c₁, ?_, hc.advance.trans hp, ?_⟩
      · rw [wholeDeclaration, peek_bind, hc.next]
        simp only [hk]
        rw [advance_bind, bind_of_done run, spanFrom_bind, pure_apply]
      · simp only [Decl.bare]
  | varDecl h =>
      have hk : c.next.kind = .varWord := by
        cases h with
        | mk hk _ _ _ => rw [hc.next, hk]
      obtain ⟨d, c₁, run, hp, hd⟩ := finds_variableDeclaration (n := n) h (by omega)
        (hc.mono fun _ _ => trivial)
      refine ⟨d, c₁, ?_, hp, hd⟩
      rw [wholeDeclaration, peek_bind]
      simp only [hk]
      exact run
  | @statement dangling ts s h =>
      obtain ⟨stmt, c₁, run, hp, rfl⟩ := ih.statement h (by omega)
        (hc.mono fun _ hk _ => hk)
      refine ⟨.statement stmt, c₁, ?_, hp, ?_⟩
      -- the fallback is one branch for many kinds: its run is stated first, then the kinds tried
      · have hrun : (do
            let stmt ← statement n
            pure (.statement stmt) : Parser Decl) c = .done (.statement stmt) c₁ := by
          rw [bind_of_done run, pure_apply]
        obtain ⟨t, us, rfl, ht⟩ := h.starts
        rw [wholeDeclaration, peek_bind, hc.next, ← hrun]
        generalize t.kind = kind at ht
        cases kind <;> first | rfl | cases ht
      · simp only [Decl.bare]

theorem finds_methods (ih : FindsStatements n) {rs : List Routine} (h : Grammar.Methods ts rs)
    (hn : 20 * ts.length + 2 ≤ n + 1) :
    Finds (methods (n + 1)) ts (· = .rightBrace) (Routine.allBare · = rs) := by
  intro c hc
  cases h with
  | nil =>
      refine ⟨[], c, ?_, .refl c, rfl⟩
      rw [methods, check_bind, atEnd_bind, hc.follow]
      rfl
  | @cons ts us r rs h hs =>
      rw [List.length_append] at hn
      obtain ⟨t, vs, rfl, ht⟩ := h.starts
      obtain ⟨r, c₁, run, hp, rfl⟩ := ih.routine .method h (by omega)
        (hc.split (fun _ _ => trivial) (fun _ _ _ => trivial))
      rw [List.length_cons] at hn
      obtain ⟨rs, c₂, run₂, hp₂, rfl⟩ := ih.methods hs (by omega) (hc.passes hp)
      refine ⟨r :: rs, c₂, ?_, hp.trans hp₂, rfl⟩
      -- a method begins with a name, so the loop neither sees a brace nor the end
      have hahead : c.ahead.isEmpty = false := by rw [hp.ahead]; rfl
      rw [methods, check_bind, atEnd_bind, hc.next, ht, hahead, if_neg (by decide),
        bind_of_done run, bind_of_done run₂, pure_apply]

theorem finds_routine (ih : FindsStatements n) {r : Routine} (role : RoutineRole)
    (h : Grammar.Function ts r) (hn : 20 * ts.length + 1 ≤ n + 1) :
    Finds (routine (n + 1) role) ts (fun _ => True) (·.bare = r) := by
  intro c hc
  obtain ⟨hname, ho, hparams, hclose, hb, hbody, hbrace⟩ := h
  rename_i name opening closing ts params body brace us brace'
  simp only [List.length_append, List.length_cons, List.length_nil] at hn
  have hc₁ := hc.tail
  obtain ⟨ps, c₁, run, hp, rfl⟩ := finds_parameterList (n := n) hparams (by omega)
    (hc₁.tail.cut hclose)
  have hc₂ := hc₁.tail.passes hp
  have hc₃ := hc₂.tail
  obtain ⟨ds, c₂, run₂, hp₂, rfl⟩ := ih.blockBody hbody hbrace (by omega) hc₃.tail
  -- the label is taken after the body, and moves nothing
  have hts := hp.trans (hc₂.advance.trans (hc₃.advance.trans hp₂))
  have hts := hc.advance.trans (hc₁.advance.trans hts)
  refine ⟨.mk c₂.supply.routine name.lexeme ps ds (name.span.through c₂.last.span), c₂.labelled, ?_,
    ⟨hts.ahead, hts.last, hts.finish, hts.errors⟩, ?_⟩
  · rw [routine, expectName_bind, hc.next, if_pos hname]
    dsimp only
    rw [expect_bind, hc₁.next, if_pos ho, bind_of_done run, expect_bind, hc₂.next, if_pos hclose,
      expect_bind, hc₃.next, if_pos hb, bind_of_done run₂, spanFrom_bind, freshLabel_bind,
      pure_apply]
  · simp only [Routine.bare]

theorem finds_blockBody (ih : FindsStatements n) {body : List Decl} {closing : Token}
    (h : Grammar.Declarations ts body) (hclose : closing.kind = .rightBrace)
    (hn : 20 * ts.length + 5 ≤ n + 1) :
    Finds (blockBody (n + 1)) (ts ++ [closing]) (fun _ => True) (Decl.allBare · = body) := by
  intro c hc
  obtain ⟨ds, c₁, run, hp, hds⟩ := ih.inner h (by omega) (hc.cut hclose)
  have hc₁ := hc.passes hp
  refine ⟨ds, c₁.advance, ?_, hp.trans hc₁.advance, hds⟩
  rw [blockBody, bind_of_done run, expect_bind, hc₁.next, if_pos hclose, pure_apply]

/-- What opens a declaration is neither a closing brace nor an `else`. -/
theorem opensDeclaration_ne {kind : TokenKind} (h : kind.opensDeclaration = true) :
    kind ≠ .rightBrace ∧ kind ≠ .elseWord := by
  constructor <;> rintro rfl <;> cases h

theorem finds_inner (ih : FindsStatements n) {ds : List Decl} (h : Grammar.Declarations ts ds)
    (hn : 20 * ts.length + 4 ≤ n + 1) :
    Finds (declarations (n + 1) true) ts (· = .rightBrace) (Decl.allBare · = ds) := by
  intro c hc
  cases h with
  | nil =>
      refine ⟨[], c, ?_, .refl c, rfl⟩
      rw [declarations, check_bind, atEnd_bind, hc.follow]
      rfl
  | @cons ts us d ds h hs =>
      have hstart := h.starts
      have hts := hstart.length_pos
      rw [List.length_append] at hn
      -- behind a declaration stands the next one or the brace, and neither is an `else`
      obtain ⟨d', c₁, run, hp, hd⟩ := ih.declaration h (by omega)
        (hc.split (by rintro _ rfl; decide)
          (fun t vs h => by rw [h] at hs; exact (opensDeclaration_ne hs.starts).2))
      obtain ⟨ds, c₂, run₂, hp₂, rfl⟩ := ih.inner hs (by omega) (hc.passes hp)
      obtain ⟨d, rfl, rfl⟩ := Option.map_eq_some_iff.1 hd
      refine ⟨d :: ds, c₂, ?_, hp.trans hp₂, rfl⟩
      obtain ⟨t, vs, rfl, ht⟩ := hstart
      have hopen : (t.kind == .rightBrace) = false := beq_false_of_ne (opensDeclaration_ne ht).1
      have hahead : c.ahead.isEmpty = false := by rw [hp.ahead]; rfl
      rw [declarations, check_bind, atEnd_bind, hc.next, hopen, hahead, if_neg (by decide),
        bind_of_done run, bind_of_done run₂, pure_apply]
      rfl

/-- The declarations of a program go up to the end of the source. -/
theorem finds_program (ih : FindsStatements n) {ds : List Decl} {c : Cursor}
    (h : Grammar.Declarations c.ahead ds) (hc : c.finish.kind = .endOfSource)
    (hn : 20 * c.ahead.length + 4 ≤ n + 1) :
    ∃ ds' c', declarations (n + 1) false c = .done ds' c' ∧ c.Passes c.ahead c' ∧
      Decl.allBare ds' = ds := by
  generalize hahead : c.ahead = ts at h hn
  cases h with
  | nil =>
      refine ⟨[], c, ?_, ?_, rfl⟩
      · rw [declarations, check_bind, atEnd_bind, hahead]
        rfl
      · exact .refl c
  | @cons ts us d ds h hs =>
      have hstart := h.starts
      have hts := hstart.length_pos
      rw [List.length_append] at hn
      have hfaces : c.Faces (ts ++ us) (· = .endOfSource) :=
        ⟨[], by rw [hahead, List.append_nil], hc⟩
      obtain ⟨d', c₁, run, hp, hd⟩ := ih.declaration h (by omega)
        (hfaces.split (by rintro _ rfl; decide)
          (fun t vs h => by rw [h] at hs; exact (opensDeclaration_ne hs.starts).2))
      -- here the tokens ahead are all there are, so the others are exactly what is left
      have hus : c₁.ahead = us := by
        have := hp.ahead
        rw [hahead] at this
        exact (List.append_cancel_left this).symm
      rw [← hus] at hs
      obtain ⟨ds, c₂, run₂, hp₂, rfl⟩ := ih.program hs (by rw [hp.finish, hc])
        (by rw [hus]; omega)
      obtain ⟨d, rfl, rfl⟩ := Option.map_eq_some_iff.1 hd
      refine ⟨d :: ds, c₂, ?_, ?_, rfl⟩
      · obtain ⟨t, vs, rfl, ht⟩ := hstart
        have hahead : c.ahead.isEmpty = false := by rw [hp.ahead]; rfl
        rw [declarations, check_bind, atEnd_bind, hahead, Bool.false_and, if_neg (by decide),
          bind_of_done run, bind_of_done run₂, pure_apply]
        rfl
      · rw [← hus]
        exact hp.trans hp₂

theorem finds_forLoop (ih : FindsStatements n) {dangling : Bool}
    {keyword opening semicolon closing : Token} {ts us vs ws : List Token}
    {initializer : Option Decl} {condition : Expr} {increment : Option Expr} {body : Stmt}
    (hk : keyword.kind = .forWord) (ho : opening.kind = .leftParen)
    (hi : Grammar.LoopInitializer ts initializer) (hcond : Grammar.LoopCondition us condition)
    (hsemi : semicolon.kind = .semicolon) (hincr : Grammar.Optional vs increment)
    (hclose : closing.kind = .rightParen) (hbody : Grammar.Statement dangling ws body)
    (hn : 20 * (ts.length + us.length + vs.length + ws.length + 4) + 1 ≤ n + 1) :
    Finds (statement (n + 1))
      (keyword :: opening :: (ts ++ (us ++ semicolon :: (vs ++ closing :: ws))))
      (fun k => dangling = true → k ≠ .elseWord)
      (·.bare = Grammar.loopBlock initializer condition increment body) := by
  intro c hc
  have hc₁ := hc.tail
  obtain ⟨d, c₁, run, hp, rfl⟩ := finds_loopInitializer (n := n) hi (by omega)
    (hc₁.tail.split (fun _ _ => trivial) (fun _ _ _ => trivial))
  have hc₂ := hc₁.tail.passes hp
  -- the semicolon is passed with the condition, and the parenthesis with the increment
  rw [← List.singleton_append (l := vs ++ closing :: ws), ← List.append_assoc us] at hc₂
  obtain ⟨x, c₂, run₂, hp₂, rfl⟩ := finds_loopCondition (n := n) hcond hsemi (by omega)
    (hc₂.split (fun _ _ => trivial) (fun _ _ _ => trivial))
  have hc₃ := hc₂.passes hp₂
  rw [← List.singleton_append (l := ws), ← List.append_assoc vs] at hc₃
  obtain ⟨y, c₃, run₃, hp₃, rfl⟩ := finds_loopIncrement (n := n) hincr hclose (by omega)
    (hc₃.split (fun _ _ => trivial) (fun _ _ _ => trivial))
  obtain ⟨s, c₄, run₄, hp₄, rfl⟩ := ih.statement hbody (by omega) (hc₃.passes hp₃)
  refine ⟨forLoop d x y s (keyword.span.through c₄.last.span), c₄, ?_, ?_,
    Phrase.bare_forLoop d x y s _⟩
  · rw [statement, peek_bind, hc.next]
    simp only [hk]
    rw [advance_bind, expect_bind, hc₁.next, if_pos ho, bind_of_done run, bind_of_done run₂,
      bind_of_done run₃, bind_of_done run₄, spanFrom_bind, pure_apply]
  · have hpass := hp.trans (hp₂.trans (hp₃.trans hp₄))
    simp only [List.append_assoc, List.singleton_append] at hpass
    exact hc.advance.trans (hc₁.advance.trans hpass)

theorem finds_statement (ih : FindsStatements n) {dangling : Bool} {s : Stmt}
    (h : Grammar.Statement dangling ts s) (hn : 20 * ts.length + 1 ≤ n + 1) :
    Finds (statement (n + 1)) ts (fun k => dangling = true → k ≠ .elseWord) (·.bare = s) := by
  intro c hc
  cases h with
  | @expression semicolon ts e h hs =>
      rw [List.length_append, List.length_singleton] at hn
      have hstart := h.starts.append [semicolon]
      obtain ⟨stmt, c₁, run, hp, hstmt⟩ := finds_expressionStatement (n := n) h hs (by omega)
        (hc.mono fun _ _ => trivial)
      refine ⟨stmt, c₁, ?_, hp, hstmt⟩
      -- the kinds that an expression begins with all take the last branch
      obtain ⟨t, us, hts, ht⟩ := hstart
      rw [hts] at hc
      rw [statement, peek_bind, hc.next, ← run]
      generalize t.kind = kind at ht
      cases kind <;> first | rfl | cases ht
  | @print keyword semicolon ts e hk h hs =>
      simp only [List.length_append, List.length_cons, List.length_nil] at hn
      obtain ⟨stmt, c₁, run, hp, hstmt⟩ := finds_printStatement (n := n) h hs (by omega)
        (hc.mono fun _ _ => trivial)
      refine ⟨stmt, c₁, ?_, hp, hstmt⟩
      rw [statement, peek_bind, hc.next]
      simp only [hk]
      exact run
  | @ret keyword semicolon ts value hk h hs =>
      simp only [List.length_append, List.length_cons, List.length_nil] at hn
      obtain ⟨stmt, c₁, run, hp, hstmt⟩ := finds_returnStatement (n := n) h hs (by omega)
        (hc.mono fun _ _ => trivial)
      refine ⟨stmt, c₁, ?_, hp, hstmt⟩
      rw [statement, peek_bind, hc.next]
      simp only [hk]
      exact run
  | block h =>
      cases h with
      | @mk opening closing ts body ho hbody hclose =>
          simp only [List.length_append, List.length_cons, List.length_nil] at hn
          obtain ⟨ds, c₁, run, hp, rfl⟩ := ih.blockBody hbody hclose (by omega)
            (hc.tail.mono fun _ _ => trivial)
          refine ⟨.block ds (opening.span.through c₁.last.span), c₁, ?_, hc.advance.trans hp, ?_⟩
          · rw [statement, peek_bind, hc.next]
            simp only [ho]
            rw [advance_bind, bind_of_done run, spanFrom_bind, pure_apply]
          · simp only [Stmt.bare]
  | @ifThen inner keyword opening closing ts us e s hk ho he hclose hs =>
      simp only [List.length_append, List.length_cons] at hn
      have hc₁ := hc.tail
      obtain ⟨x, c₁, run, hp, rfl⟩ := (findsExpressions n).expression he (by omega)
        (hc₁.tail.cut (by rw [hclose]; exact endsExpression_rightParen))
      have hc₂ := hc₁.tail.passes hp
      obtain ⟨s, c₂, run₂, hp₂, rfl⟩ := ih.statement hs (by omega)
        (hc₂.tail.mono fun _ h _ => h rfl)
      -- no `else` follows: the phrase dangles, and this one stands at its end
      have hend := hc₂.tail.done hp₂
      refine ⟨.ifElse x s none (keyword.span.through c₂.last.span), c₂, ?_,
        hc.advance.trans (hc₁.advance.trans (hp.trans (hc₂.advance.trans hp₂))), ?_⟩
      · rw [statement, peek_bind, hc.next]
        simp only [hk]
        rw [advance_bind, expect_bind, hc₁.next, if_pos ho, bind_of_done run, expect_bind,
          hc₂.next, if_pos hclose, bind_of_done run₂, accept_bind, if_neg (hend rfl),
          if_neg (by decide), answer_bind,
          spanFrom_bind, pure_apply]
      · simp only [Stmt.bare]
  | @ifElse _ keyword opening closing otherwise ts us vs e s s' hk ho he hclose hs helse hs' =>
      simp only [List.length_append, List.length_cons] at hn
      have hc₁ := hc.tail
      obtain ⟨x, c₁, run, hp, rfl⟩ := (findsExpressions n).expression he (by omega)
        (hc₁.tail.cut (by rw [hclose]; exact endsExpression_rightParen))
      have hc₂ := hc₁.tail.passes hp
      -- the branch in front of the `else` does not dangle, so the `else` may follow it
      obtain ⟨s, c₂, run₂, hp₂, rfl⟩ := ih.statement hs (by omega) 
        (hc₂.tail.cut fun h => absurd h Bool.false_ne_true)
      have hc₃ := hc₂.tail.passes hp₂
      obtain ⟨s', c₃, run₃, hp₃, rfl⟩ := ih.statement hs' (by omega) hc₃.tail
      refine ⟨.ifElse x s (some s') (keyword.span.through c₃.last.span), c₃, ?_, ?_, ?_⟩
      · rw [statement, peek_bind, hc.next]
        simp only [hk]
        rw [advance_bind, expect_bind, hc₁.next, if_pos ho, bind_of_done run, expect_bind,
          hc₂.next, if_pos hclose, bind_of_done run₂, accept_bind, hc₃.next, if_pos helse,
          if_pos rfl, bind_of_done run₃, answer_bind,
          spanFrom_bind, pure_apply]
      · exact hc.advance.trans (hc₁.advance.trans (hp.trans
          (hc₂.advance.trans (hp₂.trans (hc₃.advance.trans hp₃)))))
      · simp only [Stmt.bare]
  | @whileLoop _ keyword opening closing ts us e s hk ho he hclose hs =>
      simp only [List.length_append, List.length_cons] at hn
      have hc₁ := hc.tail
      obtain ⟨x, c₁, run, hp, rfl⟩ := (findsExpressions n).expression he (by omega)
        (hc₁.tail.cut (by rw [hclose]; exact endsExpression_rightParen))
      have hc₂ := hc₁.tail.passes hp
      obtain ⟨s, c₂, run₂, hp₂, rfl⟩ := ih.statement hs (by omega) hc₂.tail
      refine ⟨.whileLoop x s (keyword.span.through c₂.last.span), c₂, ?_,
        hc.advance.trans (hc₁.advance.trans (hp.trans (hc₂.advance.trans hp₂))), ?_⟩
      · rw [statement, peek_bind, hc.next]
        simp only [hk]
        rw [advance_bind, expect_bind, hc₁.next, if_pos ho, bind_of_done run, expect_bind,
          hc₂.next, if_pos hclose, bind_of_done run₂, spanFrom_bind, pure_apply]
      · simp only [Stmt.bare]
  | forLoop hk ho hi hcond hsemi hincr hclose hbody =>
      simp only [List.length_append, List.length_cons] at hn
      exact finds_forLoop ih hk ho hi hcond hsemi hincr hclose hbody (by omega) hc

/-- **The parsers of declarations and statements pass the tokens of each phrase of their
productions**, if there is fuel enough. -/
theorem findsStatements (n : Nat) : FindsStatements n := by
  induction n with
  | zero => constructor <;> intros <;> omega
  | succ n ih =>
      exact ⟨finds_declaration ih, finds_wholeDeclaration ih, finds_methods ih,
        fun role => finds_routine ih role, finds_blockBody ih, finds_inner ih, finds_program ih,
        finds_statement ih⟩

end Statements

end Parser

/-! ### Programs -/

namespace Program

/-- **Every program of the grammar is accepted.** -/
theorem parse_of_derives {ts : List Token} {p : Program} (supply : Supply)
    (h : Grammar.Derives (ts.takeWhile Cursor.isInner) p) :
    ∃ p' supply', parse ts supply = (.ok p', supply') ∧ p'.bare = p := by
  have hfuel : 20 * (Cursor.ofTokens ts supply).ahead.length + 4 ≤ fuelFor ts := by
    have : (ts.takeWhile Cursor.isInner).length ≤ ts.length :=
      List.Sublist.length_le (List.takeWhile_sublist _)
    simp only [Cursor.ofTokens, fuelFor]
    omega
  obtain ⟨ds, c, run, hp, hds⟩ := (Parser.findsStatements (fuelFor ts)).program
    (c := Cursor.ofTokens ts supply) h (ofTokens_finish ts supply) hfuel
  refine ⟨⟨ds⟩, c.supply, ?_, ?_⟩
  -- tokens passed leave no report behind
  · have herrors : c.errors = [] := hp.errors
    unfold parse
    rw [run]
    simp only [herrors]
  · rw [bare, hds]

/-- **The parser accepts exactly the lists of tokens that derive a program.**  The bare trees of
its answers are those that the tokens before the first end of the source derive, and there is at
most one of them. -/
theorem parse_iff_derives (ts : List Token) (supply : Supply) :
    (∀ p, (∃ p' supply', parse ts supply = (.ok p', supply') ∧ p'.bare = p) ↔
      Grammar.Derives (ts.takeWhile Cursor.isInner) p) ∧
    ∀ p q, Grammar.Derives (ts.takeWhile Cursor.isInner) p →
      Grammar.Derives (ts.takeWhile Cursor.isInner) q → p = q := by
  constructor
  · intro p
    constructor
    · rintro ⟨p', supply', h, rfl⟩
      exact (parse_phrase h).derives
    · intro h
      exact parse_of_derives supply h
  · intro p q hp hq
    -- the parser answers with the tree of any derivation, and it answers once
    obtain ⟨p', s', run, rfl⟩ := parse_of_derives supply hp
    obtain ⟨q', s'', run', rfl⟩ := parse_of_derives supply hq
    rw [run] at run'
    cases run'
    rfl

end Program

end Scriptlet
