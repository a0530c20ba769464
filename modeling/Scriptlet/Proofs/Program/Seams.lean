/-
**What stands behind a semicolon.**

A semicolon of a program ends a declaration or a statement, or it parts the clauses of a `for`
loop.  The two are told apart by the parentheses in front of it: they are all closed in front of
the first kind, and one is open in front of the second.  Behind a semicolon of the first kind
stands another declaration, a closing brace, an `else`, or nothing.

Main definitions:

* `Scriptlet.Cursor.resumption` — the tokens that are left when reading goes on after an error;
* `Scriptlet.TokenKind.nesting`, `Scriptlet.depth` — the parentheses that are open behind tokens;
* `Scriptlet.Grammar.Lead` — tokens with closed parentheses and without a semicolon;
* `Scriptlet.headKind` — the kind of the first token of a list;
* `Scriptlet.Grammar.Seam` — what may stand behind the end of a statement.

Main results:

* `Scriptlet.Cursor.resumption_plainly` — no part of an expression is where reading goes on;
* `Scriptlet.Grammar.Expression.balanced`, `Scriptlet.Grammar.Declarations.balanced` — **every
  parenthesis is closed in the phrase that it is opened in**;
* `Scriptlet.Grammar.Declarations.seam` — **what stands behind a semicolon outside of
  parentheses**.
-/

import Mathlib
import Scriptlet.Proofs.Program.Edges

set_option relaxedAutoImplicit false
set_option autoImplicit false

namespace Scriptlet

/-! ### Where reading goes on -/

namespace Cursor

/-- The tokens that are left of those ahead when reading goes on after an error at the first. -/
def resumption : List Token → List Token
  | [] => []
  | t :: ts => (settle t ts).2

theorem resumption_suffix (ts : List Token) : resumption ts <:+ ts := by
  cases ts with
  | nil => exact List.suffix_rfl
  | cons t ts => exact (settle_suffix t ts).trans (List.suffix_cons t ts)

theorem synchronize_resumption (c : Cursor) : c.synchronize.ahead = resumption c.ahead := by
  unfold synchronize
  split
  · rename_i h
    rw [h]
    rfl
  · rename_i t ts h
    rw [h]
    rfl

theorem settle_semicolon {last : Token} (h : last.kind = .semicolon) (ts : List Token) :
    (settle last ts).2 = ts := by
  cases ts with
  | nil => rfl
  | cons t ts => rw [settle, if_pos h]

/-- A kind that may stand in an expression neither ends nor begins a statement. -/
theorem ne_of_not_structural {kind : TokenKind} (h : kind.isStructural = false) :
    kind ≠ .semicolon ∧ kind.startsStatement = false := by
  cases kind <;> first | exact ⟨by decide, rfl⟩ | cases h

theorem settle_plainly {last t : Token} {ts us : List Token} (hl : last.kind ≠ .semicolon)
    (h : Grammar.Plainly ts) (ht : t.kind.startsStatement = false) :
    (settle last (ts ++ t :: us)).2 = resumption (t :: us) := by
  induction ts generalizing last with
  | nil =>
      rw [List.nil_append, settle, if_neg hl, if_neg (by rw [ht]; decide)]
      rfl
  | cons t ts ih =>
      obtain ⟨ht, h⟩ := List.forall_mem_cons.1 h
      obtain ⟨hne, hstart⟩ := ne_of_not_structural ht
      rw [List.cons_append, settle, if_neg hl, if_neg (by rw [hstart]; decide)]
      exact ih hne h

/-- **No part of an expression is where reading goes on**: from there it goes on where it would go
on from the token behind, if that does not begin a statement. -/
theorem resumption_plainly {t : Token} {ts us : List Token} (h : Grammar.Plainly ts)
    (ht : t.kind.startsStatement = false) : resumption (ts ++ t :: us) = resumption (t :: us) := by
  cases ts with
  | nil => rfl
  | cons t' ts =>
      obtain ⟨ht', h⟩ := List.forall_mem_cons.1 h
      exact settle_plainly (ne_of_not_structural ht').1 h ht

/-- Behind a semicolon reading goes on. -/
theorem resumption_semicolon {semicolon : Token} {ts us : List Token} (h : Grammar.Plainly ts)
    (hs : semicolon.kind = .semicolon) : resumption (ts ++ semicolon :: us) = us := by
  rw [resumption_plainly h (by rw [hs]; rfl)]
  exact settle_semicolon hs us

end Cursor

/-! ### Open parentheses -/

/-- What a token adds to the number of open parentheses. -/
def TokenKind.nesting : TokenKind → Int
  | .leftParen => 1
  | .rightParen => -1
  | _ => 0

/-- The number of parentheses that are open behind tokens. -/
def depth (ts : List Token) : Int := (ts.map (·.kind.nesting)).sum

/-- The kinds of tokens that are neither parentheses nor semicolons. -/
def TokenKind.isNeutral : TokenKind → Bool
  | .semicolon | .leftParen | .rightParen => false
  | _ => true

theorem neutral {kind : TokenKind} (h : kind.isNeutral = true) :
    kind ≠ .semicolon ∧ kind.nesting = 0 := by
  cases kind <;> cases h <;> exact ⟨by decide, rfl⟩

@[simp] theorem depth_nil : depth [] = 0 := rfl

@[simp] theorem depth_cons (t : Token) (ts : List Token) :
    depth (t :: ts) = t.kind.nesting + depth ts := by
  simp [depth]

@[simp] theorem depth_append (ts us : List Token) : depth (ts ++ us) = depth ts + depth us := by
  simp [depth]

/-! ### First tokens -/

/-- The kind of the first token; behind the last one stands the end of the source. -/
def headKind : List Token → TokenKind
  | [] => .endOfSource
  | t :: _ => t.kind

/-- The kinds that stand in no expression, the semicolon apart. -/
def TokenKind.isBoundary : TokenKind → Bool
  | .semicolon => false
  | kind => kind.isStructural

theorem structural_of_boundary {kind : TokenKind} (h : kind.isBoundary = true) :
    kind.isStructural = true := by
  cases kind <;> first | exact h | cases h

namespace Grammar

theorem Operator.nesting {level : Level} {kind : TokenKind} {join : Join}
    (h : Operator level kind join) : kind.nesting = 0 := by
  cases h <;> rfl

mutual

/-- **Every parenthesis of an expression is closed in it.** -/
theorem Expression.balanced {ts : List Token} {e : Expr} : Expression ts e → depth ts = 0
  | .plain h => h.balanced
  | .choice h hq hx hc hy => by
      simp [hq, hc, TokenKind.nesting, h.balanced, hx.balanced, hy.balanced]

theorem Assignment.balanced {ts : List Token} {e : Expr} : Assignment ts e → depth ts = 0
  | .plain h => h.balanced
  | .name h hq he => by simp [hq, TokenKind.nesting, h.balanced, he.balanced]
  | .property h hq he => by simp [hq, TokenKind.nesting, h.balanced, he.balanced]

theorem Operand.balanced {level : Option Level} {ts : List Token} {e : Expr} :
    Operand level ts e → depth ts = 0
  | .level _ h hjoins => by simp [h.balanced, hjoins.balanced]
  | .unary h => h.balanced

theorem Joins.balanced {level : Level} {left e : Expr} {ts : List Token} :
    Joins level left ts e → depth ts = 0
  | .nil => rfl
  | .cons ho _ h hjoins => by simp [ho.nesting, h.balanced, hjoins.balanced]

theorem Unary.balanced {ts : List Token} {e : Expr} : Unary ts e → depth ts = 0
  | .not ho h => by simp [ho, TokenKind.nesting, h.balanced]
  | .negate ho h => by simp [ho, TokenKind.nesting, h.balanced]
  | .call h hs => by simp [h.balanced, hs.balanced]

theorem Suffixes.balanced {callee e : Expr} {ts : List Token} :
    Suffixes callee ts e → depth ts = 0
  | .nil => rfl
  | .call ho h hc hs => by simp [ho, hc, TokenKind.nesting, h.balanced, hs.balanced]
  | .property hd hn hs => by simp [hd, hn, TokenKind.nesting, hs.balanced]

theorem ArgumentList.balanced {ts : List Token} {es : List Expr} :
    ArgumentList ts es → depth ts = 0
  | .none => rfl
  | .some h _ => h.balanced

theorem Arguments.balanced {ts : List Token} {es : List Expr} : Arguments ts es → depth ts = 0
  | .last h => h.balanced
  | .more h hc hs => by simp [hc, TokenKind.nesting, h.balanced, hs.balanced]

theorem Primary.balanced {ts : List Token} {e : Expr} : Primary ts e → depth ts = 0
  | .number hk _ => by rcases hk with hk | hk <;> simp [hk, TokenKind.nesting]
  | .string hk _ => by rcases hk with hk | hk <;> simp [hk, TokenKind.nesting]
  | .trueWord hk => by simp [hk, TokenKind.nesting]
  | .falseWord hk => by simp [hk, TokenKind.nesting]
  | .nilWord hk => by simp [hk, TokenKind.nesting]
  | .thisWord hk => by simp [hk, TokenKind.nesting]
  | .superWord hk hd hm => by simp [hk, hd, hm, TokenKind.nesting]
  | .name hk => by simp [hk, TokenKind.nesting]
  | .grouping ho h hc => by simp [ho, hc, TokenKind.nesting, h.balanced]

end

/-! ### Phrases without a semicolon -/

/-- Tokens with closed parentheses and without a semicolon. -/
structure Lead (ts : List Token) : Prop where
  unbroken : ∀ t ∈ ts, t.kind ≠ .semicolon
  balanced : depth ts = 0

theorem lead_nil : Lead [] := ⟨fun _ h => absurd h List.not_mem_nil, rfl⟩

theorem Lead.append {ts us : List Token} (h : Lead ts) (h' : Lead us) : Lead (ts ++ us) :=
  ⟨List.forall_mem_append.2 ⟨h.unbroken, h'.unbroken⟩, by simp [h.balanced, h'.balanced]⟩

theorem Lead.cons {t : Token} {ts : List Token} {k : TokenKind} (ht : t.kind = k)
    (hk : k.isNeutral = true) (h : Lead ts) : Lead (t :: ts) := by
  obtain ⟨hne, hnesting⟩ := neutral hk
  rw [← ht] at hne hnesting
  exact ⟨List.forall_mem_cons.2 ⟨hne, h.unbroken⟩, by simp [hnesting, h.balanced]⟩

/-- Tokens in parentheses. -/
theorem Lead.parens {opening closing : Token} {ts : List Token} (ho : opening.kind = .leftParen)
    (h : Lead ts) (hc : closing.kind = .rightParen) : Lead (opening :: (ts ++ [closing])) := by
  constructor
  · simpa [ho, hc, or_imp, forall_and] using h.unbroken
  · simp [ho, hc, TokenKind.nesting, h.balanced]

theorem Expression.lead {ts : List Token} {e : Expr} (h : Expression ts e) : Lead ts :=
  ⟨fun t ht => (Cursor.ne_of_not_structural (h.not_structural t ht)).1, h.balanced⟩

theorem Optional.not_structural {ts : List Token} {e : Option Expr} : Optional ts e → Plainly ts
  | .none => plainly_nil
  | .some h => h.not_structural

theorem Optional.lead {ts : List Token} {e : Option Expr} : Optional ts e → Lead ts
  | .none => lead_nil
  | .some h => h.lead

theorem Parameters.lead {ts : List Token} {ps : List Param} : Parameters ts ps → Lead ts
  | .last ht => .cons ht rfl lead_nil
  | .more ht hc h => .cons ht rfl (.cons hc rfl h.lead)

theorem ParameterList.lead {ts : List Token} {ps : List Param} : ParameterList ts ps → Lead ts
  | .none => lead_nil
  | .some h _ => h.lead

theorem Parent.lead {ts : List Token} {s : Option Superclass} : Parent ts s → Lead ts
  | .none => lead_nil
  | .some hl hn => .cons hl rfl (.cons hn rfl lead_nil)

theorem Initializer.lead {ts : List Token} {e : Option Expr} : Initializer ts e → Lead ts
  | .none => lead_nil
  | .some hq h => .cons hq rfl h.lead

/-- A variable declaration up to its semicolon. -/
theorem Initializer.lead_names {keyword name : Token} {ts : List Token} {i : Option Expr}
    (hk : keyword.kind = .varWord) (hn : name.kind = .identifier) (h : Initializer ts i) :
    Lead (keyword :: name :: ts) :=
  .cons hk rfl (.cons hn rfl h.lead)

/-- A class up to its methods. -/
theorem Parent.lead_names {keyword name opening : Token} {ts : List Token}
    {s : Option Superclass} (hk : keyword.kind = .classWord) (hn : name.kind = .identifier)
    (h : Parent ts s) (ho : opening.kind = .leftBrace) :
    Lead (keyword :: name :: (ts ++ [opening])) :=
  .cons hk rfl (.cons hn rfl (h.lead.append (.cons ho rfl lead_nil)))

theorem LoopCondition.lead {ts : List Token} {e : Expr} : LoopCondition ts e → Lead ts
  | .none => lead_nil
  | .some h => h.lead

/-! ### Declarations and statements are balanced -/

theorem Variable.balanced {ts : List Token} {d : Decl} : Variable ts d → depth ts = 0
  | .mk hk hn hi hs => by simp [hk, hn, hs, TokenKind.nesting, hi.lead.balanced]

theorem LoopInitializer.balanced {ts : List Token} {d : Option Decl} :
    LoopInitializer ts d → depth ts = 0
  | .none hs => by simp [hs, TokenKind.nesting]
  | .declaration h => h.balanced
  | .expression h hs => by simp [hs, TokenKind.nesting, h.balanced]

mutual

/-- **Every parenthesis of a program is closed in the phrase that it is opened in.** -/
theorem Declarations.balanced {ts : List Token} {ds : List Decl} : Declarations ts ds → depth ts = 0
  | .nil => rfl
  | .cons h hs => by simp [h.balanced, hs.balanced]

theorem Declaration.balanced {ts : List Token} {d : Decl} : Declaration ts d → depth ts = 0
  | .classDecl hk hn hp ho hm hc => by
      simp [hk, hn, ho, hc, TokenKind.nesting, hp.lead.balanced, hm.balanced]
  | .funDecl hk h => by simp [hk, TokenKind.nesting, h.balanced]
  | .varDecl h => h.balanced
  | .statement h => h.balanced

theorem Methods.balanced {ts : List Token} {rs : List Routine} : Methods ts rs → depth ts = 0
  | .nil => rfl
  | .cons h hs => by simp [h.balanced, hs.balanced]

theorem Function.balanced {ts : List Token} {r : Routine} : Function ts r → depth ts = 0
  | .mk hn ho hp hc hb => by simp [hn, ho, hc, TokenKind.nesting, hp.lead.balanced, hb.balanced]

theorem Block.balanced {ts : List Token} {body : List Decl} : Block ts body → depth ts = 0
  | .mk ho h hc => by simp [ho, hc, TokenKind.nesting, h.balanced]

theorem Statement.balanced {dangling : Bool} {ts : List Token} {s : Stmt} :
    Statement dangling ts s → depth ts = 0
  | .expression h hs => by simp [hs, TokenKind.nesting, h.balanced]
  | .print hk h hs => by simp [hk, hs, TokenKind.nesting, h.balanced]
  | .ret hk h hs => by simp [hk, hs, TokenKind.nesting, h.lead.balanced]
  | .block h => h.balanced
  | .ifThen hk ho he hc h => by simp [hk, ho, hc, TokenKind.nesting, he.balanced, h.balanced]
  | .ifElse hk ho he hc h helse h' => by
      simp [hk, ho, hc, helse, TokenKind.nesting, he.balanced, h.balanced, h'.balanced]
  | .whileLoop hk ho he hc h => by simp [hk, ho, hc, TokenKind.nesting, he.balanced, h.balanced]
  | .forLoop hk ho hi hcond hs hincr hc h => by
      simp [hk, ho, hs, hc, TokenKind.nesting, hi.balanced, hcond.lead.balanced,
        hincr.lead.balanced, h.balanced]

end

/-! ### Last tokens -/

/-- The last token is a semicolon or a closing brace. -/
def Finished (ts : List Token) : Prop :=
  ∃ us t, ts = us ++ [t] ∧ (t.kind = .semicolon ∨ t.kind = .rightBrace)

theorem finished_snoc {us : List Token} {t : Token} :
    Finished (us ++ [t]) ↔ t.kind = .semicolon ∨ t.kind = .rightBrace := by
  constructor
  · rintro ⟨us', t', h, ht⟩
    obtain ⟨-, rfl⟩ := List.append_singleton_inj.1 h
    exact ht
  · exact fun ht => ⟨us, t, rfl, ht⟩

theorem Finished.append {ts : List Token} (h : Finished ts) (us : List Token) :
    Finished (us ++ ts) := by
  obtain ⟨vs, t, rfl, ht⟩ := h
  rw [← List.append_assoc]
  exact finished_snoc.2 ht

theorem Finished.cons {ts : List Token} (h : Finished ts) (t : Token) : Finished (t :: ts) :=
  h.append [t]

theorem Variable.finished {ts : List Token} {d : Decl} : Variable ts d → Finished ts
  | .mk _ _ _ hs => ((finished_snoc.2 (.inl hs)).cons _).cons _

mutual

theorem Declarations.finished {ts : List Token} {ds : List Decl} :
    Declarations ts ds → ts = [] ∨ Finished ts
  | .nil => .inl rfl
  | .cons h hs => by
      right
      rcases hs.finished with rfl | hs
      · rw [List.append_nil]
        exact h.finished
      · exact hs.append _

/-- **A declaration ends in a semicolon or a brace.** -/
theorem Declaration.finished {ts : List Token} {d : Decl} : Declaration ts d → Finished ts
  | .classDecl _ _ _ _ _ hc => by
      exact ((((finished_snoc.2 (.inr hc)).cons _).append _).cons _).cons _
  | .funDecl _ h => h.finished.cons _
  | .varDecl h => h.finished
  | .statement h => h.finished

theorem Methods.finished {ts : List Token} {rs : List Routine} :
    Methods ts rs → ts = [] ∨ Finished ts
  | .nil => .inl rfl
  | .cons h hs => by
      right
      rcases hs.finished with rfl | hs
      · rw [List.append_nil]
        exact h.finished
      · exact hs.append _

theorem Function.finished {ts : List Token} {r : Routine} : Function ts r → Finished ts
  | .mk _ _ _ _ hb => (((hb.finished.cons _).append _).cons _).cons _

theorem Block.finished {ts : List Token} {body : List Decl} : Block ts body → Finished ts
  | .mk _ _ hc => (finished_snoc.2 (.inr hc)).cons _

theorem Statement.finished {dangling : Bool} {ts : List Token} {s : Stmt} :
    Statement dangling ts s → Finished ts
  | .expression _ hs => finished_snoc.2 (.inl hs)
  | .print _ _ hs => (finished_snoc.2 (.inl hs)).cons _
  | .ret _ _ hs => (finished_snoc.2 (.inl hs)).cons _
  | .block h => h.finished
  | .ifThen _ _ _ _ h => (((h.finished.cons _).append _).cons _).cons _
  | .ifElse _ _ _ _ _ _ h => (((((h.finished.cons _).append _).cons _).append _).cons _).cons _
  | .whileLoop _ _ _ _ h => (((h.finished.cons _).append _).cons _).cons _
  | .forLoop _ _ _ _ _ _ _ h =>
      ((((((h.finished.cons _).append _).cons _).append _).append _).cons _).cons _

end

/-! ### First tokens of a phrase -/

/-- In front of a closing parenthesis, an expression has been left out. -/
theorem Optional.eq_nil {closing : Token} {ts us vs : List Token} {e : Option Expr}
    (h : Optional ts e) (hc : closing.kind = .rightParen) (heq : closing :: vs = ts ++ us) :
    ts = [] := by
  cases h with
  | none => rfl
  | some h =>
      obtain ⟨t, ts, rfl, ht⟩ := h.starts
      cases heq
      rw [hc] at ht
      cases ht

theorem LoopCondition.optional {ts : List Token} {e : Expr} (h : LoopCondition ts e) :
    ∃ x, Optional ts x := by
  cases h with
  | none => exact ⟨_, .none⟩
  | some h => exact ⟨_, .some h⟩

/-- A statement that begins with a brace is a block. -/
theorem Statement.block_of_brace {dangling : Bool} {opening : Token} {ts us : List Token}
    {s : Stmt} (h : Statement dangling ts s) (ho : opening.kind = .leftBrace)
    (heq : ts = opening :: us) : ∃ body, Block ts body := by
  cases h with
  | expression h _ =>
      obtain ⟨t, vs, rfl, ht⟩ := h.starts
      cases heq
      rw [ho] at ht
      cases ht
  | block h => exact ⟨_, h⟩
  | print hk | ret hk | ifThen hk | ifElse hk | whileLoop hk | forLoop hk =>
      cases heq
      rw [ho] at hk
      cases hk

/-- Braces with nothing between them are a whole statement. -/
theorem Statement.eq_nil {dangling : Bool} {opening closing : Token} {ts : List Token} {s : Stmt}
    (h : Statement dangling (opening :: closing :: ts) s) (ho : opening.kind = .leftBrace)
    (hc : closing.kind = .rightBrace) : ts = [] := by
  obtain ⟨body, h⟩ := h.block_of_brace ho rfl
  generalize hus : opening :: closing :: ts = us at h
  cases h with
  | mk _ h _ =>
      cases h with
      | nil =>
          cases hus
          rfl
      | cons h _ =>
          obtain ⟨t, vs, rfl, ht⟩ := h.starts
          cases hus
          rw [hc] at ht
          cases ht

/-! ### Finding a semicolon -/

section Find

variable {ts us vs ws : List Token} {semicolon : Token} {d : Int}

/-- A token in a list of two parts is in one of them. -/
theorem find_part (h : ts ++ us = vs ++ semicolon :: ws) :
    (∃ vs', vs = ts ++ vs' ∧ us = vs' ++ semicolon :: ws) ∨
      ∃ ws', ts = vs ++ semicolon :: ws' ∧ ws = ws' ++ us := by
  rcases List.append_eq_append_iff.1 h with ⟨vs', hvs, hus⟩ | ⟨ws', hts, hws⟩
  · exact .inl ⟨vs', hvs, hus⟩
  · cases ws' with
    | nil => exact .inl ⟨[], by simpa using hts.symm, hws.symm⟩
    | cons t ws' =>
        cases hws
        exact .inr ⟨ws', hts, rfl⟩

/-- A semicolon is behind a part without one. -/
theorem Lead.find (hlead : Lead ts) (hs : semicolon.kind = .semicolon) (hd : depth vs = d)
    (h : ts ++ us = vs ++ semicolon :: ws) :
    ∃ vs', vs = ts ++ vs' ∧ us = vs' ++ semicolon :: ws ∧ depth vs' = d := by
  rcases find_part h with ⟨vs', rfl, hus⟩ | ⟨ws', rfl, -⟩
  · rw [depth_append, hlead.balanced, Int.zero_add] at hd
    exact ⟨vs', rfl, hus, hd⟩
  · exact absurd hs (hlead.unbroken _ (by simp))

/-- Behind a part without a semicolon, the next token is the semicolon or in front of it. -/
theorem find_next {t : Token} (h : t :: us = vs ++ semicolon :: ws) :
    (vs = [] ∧ t = semicolon ∧ us = ws) ∨ ∃ vs', vs = t :: vs' ∧ us = vs' ++ semicolon :: ws := by
  cases vs with
  | nil =>
      cases h
      exact .inl ⟨rfl, rfl, rfl⟩
  | cons t' vs =>
      cases h
      exact .inr ⟨vs, rfl, rfl⟩

/-- A semicolon is behind a token of another kind. -/
theorem find_behind {t : Token} {k : TokenKind} (ht : t.kind = k) (hk : k ≠ .semicolon)
    (hs : semicolon.kind = .semicolon) (h : t :: us = vs ++ semicolon :: ws) :
    ∃ vs', vs = t :: vs' ∧ us = vs' ++ semicolon :: ws := by
  rcases find_next h with ⟨-, rfl, -⟩ | hbehind
  · rw [← ht, hs] at hk
    exact absurd rfl hk
  · exact hbehind

/-- A semicolon is in front of a last token of another kind. -/
theorem find_inside {t : Token} {k : TokenKind} (ht : t.kind = k) (hk : k ≠ .semicolon)
    (hs : semicolon.kind = .semicolon) (h : ts ++ [t] = vs ++ semicolon :: ws) :
    ∃ ws', ts = vs ++ semicolon :: ws' ∧ ws = ws' ++ [t] := by
  rcases find_part h with ⟨vs', -, h'⟩ | hinside
  · obtain ⟨vs'', -, h''⟩ := find_behind ht hk hs h'
    simp at h''
  · exact hinside

/-- The token behind a part without a semicolon is the one, if it is the last. -/
theorem Lead.find_last {t : Token} (hlead : Lead ts) (hs : semicolon.kind = .semicolon)
    (h : ts ++ [t] = vs ++ semicolon :: ws) : vs = ts ∧ t = semicolon ∧ ws = [] := by
  obtain ⟨vs', rfl, h, -⟩ := hlead.find hs rfl h
  rcases find_next h with ⟨rfl, rfl, rfl⟩ | ⟨vs', rfl, h⟩
  · exact ⟨List.append_nil ts, rfl, rfl⟩
  · simp at h

/-- The semicolon of an initialiser is its last token, behind closed parentheses. -/
theorem LoopInitializer.find {i : Option Decl} (h : LoopInitializer ts i)
    (hs : semicolon.kind = .semicolon) (hts : ts = vs ++ semicolon :: ws) :
    depth vs = 0 ∧ ws = [] := by
  cases h with
  | none _ =>
      obtain ⟨rfl, -, rfl⟩ := lead_nil.find_last hs hts
      exact ⟨rfl, rfl⟩
  | declaration h =>
      cases h with
      | mk hk hn hi _ =>
          have hlead := hi.lead_names hk hn
          obtain ⟨rfl, -, rfl⟩ := hlead.find_last hs hts
          exact ⟨hlead.balanced, rfl⟩
  | expression h _ =>
      obtain ⟨rfl, -, rfl⟩ := h.lead.find_last hs hts
      exact ⟨h.balanced, rfl⟩

section Loop

variable {keyword opening second closing : Token} {xs ys zs : List Token} {i : Option Decl}
  {condition : Expr} {increment : Option Expr}

/-- A semicolon of a `for` loop is one of the two between its clauses, or it is in the body. -/
theorem find_loop (hk : keyword.kind = .forWord) (ho : opening.kind = .leftParen)
    (hi : LoopInitializer xs i) (hc : LoopCondition ys condition) (hincr : Optional zs increment)
    (hclose : closing.kind = .rightParen) (hs : semicolon.kind = .semicolon)
    (h : keyword :: opening :: (xs ++ (ys ++ second :: (zs ++ closing :: us))) =
      vs ++ semicolon :: ws) :
    (depth vs = 1 ∧ ws = ys ++ second :: (zs ++ closing :: us)) ∨
    (vs = keyword :: opening :: (xs ++ ys) ∧ ws = zs ++ closing :: us) ∨
    ∃ vs', vs = keyword :: opening :: (xs ++ (ys ++ second :: (zs ++ closing :: vs'))) ∧
      us = vs' ++ semicolon :: ws := by
  obtain ⟨vs₁, rfl, h₁⟩ := find_behind hk (by decide) hs h
  obtain ⟨vs₂, rfl, h₂⟩ := find_behind ho (by decide) hs h₁
  rcases find_part h₂ with ⟨vs₃, rfl, h₃⟩ | ⟨_, hxs, rfl⟩
  · right
    obtain ⟨vs₄, rfl, h₄, -⟩ := hc.lead.find hs rfl h₃
    rcases find_next h₄ with ⟨rfl, -, rfl⟩ | ⟨vs₅, rfl, h₅⟩
    · rw [List.append_nil]
      exact .inl ⟨rfl, rfl⟩
    obtain ⟨vs₆, rfl, h₆, -⟩ := hincr.lead.find hs rfl h₅
    obtain ⟨vs₇, rfl, h₇⟩ := find_behind hclose (by decide) hs h₆
    exact .inr ⟨vs₇, rfl, h₇⟩
  · left
    obtain ⟨hd, rfl⟩ := hi.find hs hxs
    simp [hk, ho, TokenKind.nesting, hd]

/-- A semicolon outside of parentheses is behind the clauses of a `for` loop. -/
theorem find_body (hk : keyword.kind = .forWord) (ho : opening.kind = .leftParen)
    (hi : LoopInitializer xs i) (hc : LoopCondition ys condition) (hincr : Optional zs increment)
    (hclose : closing.kind = .rightParen) (hs : semicolon.kind = .semicolon) (hd : depth vs = 0)
    (h : keyword :: opening :: (xs ++ (ys ++ second :: (zs ++ closing :: us))) =
      vs ++ semicolon :: ws) :
    ∃ vs', vs = keyword :: opening :: (xs ++ (ys ++ second :: (zs ++ closing :: vs'))) ∧
      us = vs' ++ semicolon :: ws := by
  rcases find_loop hk ho hi hc hincr hclose hs h with ⟨hd', -⟩ | ⟨rfl, -⟩ | hbody
  · rw [hd] at hd'
    cases hd'
  · simp [hk, ho, TokenKind.nesting, hi.balanced, hc.lead.balanced] at hd
  · exact hbody

end Loop

end Find

/-! ### What stands behind the end of a statement -/

/-- What may stand behind the end of a statement: an expression with its semicolon, or a token that
stands in no expression, but not a semicolon. -/
inductive Seam : List Token → Prop
  | expression {ts us : List Token} {semicolon : Token} {e : Expr} : Expression ts e →
      semicolon.kind = .semicolon → Seam (ts ++ semicolon :: us)
  | boundary {ts : List Token} : (headKind ts).isBoundary = true → Seam ts

theorem seam_nil : Seam [] := .boundary rfl

theorem seam_cons {t : Token} {k : TokenKind} (ht : t.kind = k) (hk : k.isBoundary = true)
    (ts : List Token) : Seam (t :: ts) :=
  .boundary (by rw [headKind, ht, hk])

theorem Declaration.seam_front {ts : List Token} {d : Decl} (h : Declaration ts d)
    (us : List Token) : Seam (ts ++ us) := by
  cases h with
  | classDecl hk _ _ _ _ _ => exact seam_cons hk rfl _
  | funDecl hk _ => exact seam_cons hk rfl _
  | varDecl h =>
      cases h with
      | mk hk _ _ _ => exact seam_cons hk rfl _
  | statement h =>
      cases h with
      | expression h hs =>
          rw [List.append_assoc]
          exact .expression h hs
      | print hk _ _ => exact seam_cons hk rfl _
      | ret hk _ _ => exact seam_cons hk rfl _
      | block h =>
          cases h with
          | mk ho _ _ => exact seam_cons ho rfl _
      | ifThen hk _ _ _ _ => exact seam_cons hk rfl _
      | ifElse hk _ _ _ _ _ _ => exact seam_cons hk rfl _
      | whileLoop hk _ _ _ _ => exact seam_cons hk rfl _
      | forLoop hk _ _ _ _ _ _ _ => exact seam_cons hk rfl _

theorem Declarations.seam_front {ts us : List Token} {ds : List Decl} (h : Declarations ts ds)
    (hus : Seam us) : Seam (ts ++ us) := by
  cases h with
  | nil => exact hus
  | cons h _ =>
      rw [List.append_assoc]
      exact h.seam_front _

/-- The condition of a statement with the keyword in front of it. -/
theorem Expression.lead_parens {keyword opening closing : Token} {k : TokenKind} {ts : List Token}
    {e : Expr} (h : Expression ts e) (hk : keyword.kind = k)
    (hne : k.isNeutral = true) (ho : opening.kind = .leftParen)
    (hc : closing.kind = .rightParen) : Lead (keyword :: opening :: (ts ++ [closing])) :=
  .cons hk hne (.parens ho h.lead hc)

mutual

/-- **What stands behind a semicolon outside of parentheses.** -/
theorem Declarations.seam {semicolon : Token} (hs : semicolon.kind = .semicolon) {ts : List Token}
    {ds : List Decl} : Declarations ts ds →
    ∀ {vs ws us}, ts = vs ++ semicolon :: ws → depth vs = 0 → Seam us → Seam (ws ++ us)
  | .nil, _, _, _, heq, _, _ => by simp at heq
  | .cons h hds, vs, ws, us, heq, hd, hus => by
      rcases find_part heq with ⟨vs', rfl, heq'⟩ | ⟨ws', hts, rfl⟩
      · rw [depth_append, h.balanced, Int.zero_add] at hd
        exact hds.seam hs heq' hd hus
      · rw [List.append_assoc]
        exact h.seam hs hts hd (hds.seam_front hus)

theorem Declaration.seam {semicolon : Token} (hs : semicolon.kind = .semicolon) {ts : List Token}
    {d : Decl} : Declaration ts d →
    ∀ {vs ws us}, ts = vs ++ semicolon :: ws → depth vs = 0 → Seam us → Seam (ws ++ us)
  | .classDecl hk hn hp ho hm hc, vs, ws, us, heq, hd, _ => by
      obtain ⟨vs', rfl, heq, hd⟩ := (hp.lead_names hk hn ho).find hs hd (by simpa using heq)
      obtain ⟨ws', hms, rfl⟩ := find_inside hc (by decide) hs heq
      rw [List.append_assoc]
      exact hm.seam hs hms hd (seam_cons hc rfl us)
  | .funDecl hk h, vs, ws, us, heq, hd, _ => by
      obtain ⟨vs', rfl, heq, hd⟩ := (Lead.cons hk rfl lead_nil).find hs hd heq
      exact h.seam hs heq hd us
  | .varDecl (.mk hk hn hi _), _, _, _, heq, _, hus => by
      obtain ⟨-, -, rfl⟩ := (hi.lead_names hk hn).find_last hs heq
      exact hus
  | .statement h, _, _, _, heq, hd, hus => h.seam hs heq hd hus

/-- Behind a semicolon in a method stands something of the method. -/
theorem Methods.seam {semicolon : Token} (hs : semicolon.kind = .semicolon) {ts : List Token}
    {rs : List Routine} : Methods ts rs →
    ∀ {vs ws us}, ts = vs ++ semicolon :: ws → depth vs = 0 → Seam us → Seam (ws ++ us)
  | .nil, _, _, _, heq, _, _ => by simp at heq
  | .cons h hrs, vs, ws, us, heq, hd, hus => by
      rcases find_part heq with ⟨vs', rfl, heq'⟩ | ⟨ws', hts, rfl⟩
      · rw [depth_append, h.balanced, Int.zero_add] at hd
        exact hrs.seam hs heq' hd hus
      · rw [List.append_assoc]
        exact h.seam hs hts hd _

theorem Function.seam {semicolon : Token} (hs : semicolon.kind = .semicolon) {ts : List Token}
    {r : Routine} : Function ts r →
    ∀ {vs ws}, ts = vs ++ semicolon :: ws → depth vs = 0 → ∀ us, Seam (ws ++ us)
  | .mk hn ho hp hc hb, vs, ws, heq, hd, us => by
      have hlead := Lead.cons hn rfl (.parens ho hp.lead hc)
      obtain ⟨vs', rfl, heq, hd⟩ := hlead.find hs hd (by simpa using heq)
      exact hb.seam hs heq hd us

theorem Block.seam {semicolon : Token} (hs : semicolon.kind = .semicolon) {ts : List Token}
    {body : List Decl} : Block ts body →
    ∀ {vs ws}, ts = vs ++ semicolon :: ws → depth vs = 0 → ∀ us, Seam (ws ++ us)
  | .mk ho h hc, vs, ws, heq, hd, us => by
      obtain ⟨vs', rfl, heq, hd⟩ := (Lead.cons ho rfl lead_nil).find hs hd heq
      obtain ⟨ws', hts, rfl⟩ := find_inside hc (by decide) hs heq
      rw [List.append_assoc]
      exact h.seam hs hts hd (seam_cons hc rfl us)

theorem Statement.seam {semicolon : Token} (hs : semicolon.kind = .semicolon) {dangling : Bool}
    {ts : List Token} {s : Stmt} : Statement dangling ts s →
    ∀ {vs ws us}, ts = vs ++ semicolon :: ws → depth vs = 0 → Seam us → Seam (ws ++ us)
  | .expression h _, _, _, _, heq, _, hus => by
      obtain ⟨-, -, rfl⟩ := h.lead.find_last hs heq
      exact hus
  | .print hk h _, _, _, _, heq, _, hus => by
      obtain ⟨-, -, rfl⟩ := (Lead.cons hk rfl h.lead).find_last hs heq
      exact hus
  | .ret hk h _, _, _, _, heq, _, hus => by
      obtain ⟨-, -, rfl⟩ := (Lead.cons hk rfl h.lead).find_last hs heq
      exact hus
  | .block h, _, _, us, heq, hd, _ => h.seam hs heq hd us
  | .ifThen hk ho he hc h, _, _, _, heq, hd, hus => by
      have hlead := he.lead_parens hk rfl ho hc
      obtain ⟨vs', rfl, heq, hd⟩ := hlead.find hs hd (by simpa using heq)
      exact h.seam hs heq hd hus
  | .ifElse hk ho he hc h helse h', _, _, us, heq, hd, hus => by
      have hlead := he.lead_parens hk rfl ho hc
      obtain ⟨vs', rfl, heq, hd⟩ := hlead.find hs hd (by simpa using heq)
      rcases find_part heq with ⟨vs', rfl, heq'⟩ | ⟨ws', hts, rfl⟩
      · obtain ⟨vs', rfl, heq''⟩ := find_behind helse (by decide) hs heq'
        simp only [depth_append, depth_cons, h.balanced, helse, TokenKind.nesting,
          Int.zero_add] at hd
        exact h'.seam hs heq'' hd hus
      · rw [List.append_assoc]
        exact h.seam hs hts hd (seam_cons helse rfl _)
  | .whileLoop hk ho he hc h, _, _, _, heq, hd, hus => by
      have hlead := he.lead_parens hk rfl ho hc
      obtain ⟨vs', rfl, heq, hd⟩ := hlead.find hs hd (by simpa using heq)
      exact h.seam hs heq hd hus
  | .forLoop hk ho hi hcond hsemi hincr hc h, _, _, _, heq, hd, hus => by
      obtain ⟨vs', rfl, heq'⟩ := find_body hk ho hi hcond hincr hc hs hd heq
      simp only [depth_append, depth_cons, hk, ho, hsemi, hc, TokenKind.nesting, hi.balanced,
        hcond.lead.balanced, hincr.lead.balanced] at hd
      exact h.seam hs heq' (by omega) hus

end

end Grammar

end Scriptlet
