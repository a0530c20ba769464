/-
**What the parser accepts is a phrase.**

A parser that answers with a value at a cursor without errors has passed the tokens of a phrase of
its grammar, and its value is the tree of that phrase.  Errors are never taken back, so a cursor
without errors shows that none was reported on the way, and that no declaration was skipped.

Main definitions:

* `Scriptlet.Cursor.Clean` — a cursor without errors, in front of a proper end of the source;
* `Scriptlet.Cursor.Passes` — **one cursor stands some tokens behind another**;
* `Scriptlet.Parser.Reads` — a parser reads only phrases of a grammar.

Main results:

* `Scriptlet.Parser.bind_done` — an answer of two parsers in a row is put together from theirs;
* `Scriptlet.Parser.readsExpressions`, `Scriptlet.Parser.readsStatements` — every parser reads only
  phrases of its production, whatever the fuel;
* `Scriptlet.Program.parse_phrase` — **what the parser accepts is a phrase**.
-/

import Scriptlet.Proofs.Program.Phrase
import Scriptlet.Proofs.Program.Progress

set_option relaxedAutoImplicit false
set_option autoImplicit false

namespace Scriptlet

/-! ### Cursors -/

namespace Cursor

/-- The cursor behind an expression that took the next number. -/
def numbered (c : Cursor) : Cursor := { c with supply := c.supply.afterExpr }

/-- The cursor behind a routine that took the next label. -/
def labelled (c : Cursor) : Cursor := { c with supply := c.supply.afterRoutine }

theorem numbered_supply (c : Cursor) : c.numbered.supply = c.supply.afterExpr := rfl

/-- A cursor without errors, in front of a proper end of the source. -/
structure Clean (c : Cursor) : Prop where
  /-- The end of the source is no other token. -/
  finish : c.finish.kind = .endOfSource
  /-- No error was reported. -/
  errors : c.errors = []

/-- One cursor stands some tokens behind another, and no error was reported between them. -/
structure Passes (c : Cursor) (ts : List Token) (c' : Cursor) : Prop where
  /-- The tokens are those that are no longer ahead. -/
  ahead : c.ahead = ts ++ c'.ahead
  /-- The last of them is the token read last. -/
  last : c'.last = ts.getLastD c.last
  /-- The end of the source stays. -/
  finish : c'.finish = c.finish
  /-- The errors stay. -/
  errors : c'.errors = c.errors

theorem Passes.refl (c : Cursor) : c.Passes [] c := ⟨rfl, rfl, rfl, rfl⟩

theorem Passes.trans {c c₁ c₂ : Cursor} {ts us : List Token} (h : c.Passes ts c₁)
    (h' : c₁.Passes us c₂) : c.Passes (ts ++ us) c₂ := by
  refine ⟨?_, ?_, h'.finish.trans h.finish, h'.errors.trans h.errors⟩
  · rw [h.ahead, h'.ahead, List.append_assoc]
  · rw [h'.last, h.last]
    cases us with
    | nil => rw [List.append_nil, List.getLastD_nil]
    | cons u us => simp

theorem Passes.clean {c c' : Cursor} {ts : List Token} (h : c.Passes ts c') (hc : c'.Clean) :
    c.Clean :=
  ⟨by rw [← h.finish, hc.finish], by rw [← h.errors, hc.errors]⟩

/-- Taking a number passes no token. -/
theorem Passes.numbered {c c' : Cursor} {ts : List Token} (h : c.Passes ts c') :
    c.Passes ts c'.numbered :=
  ⟨h.ahead, h.last, h.finish, h.errors⟩

theorem clean_numbered {c : Cursor} : c.numbered.Clean ↔ c.Clean :=
  ⟨fun h => ⟨h.finish, h.errors⟩, fun h => ⟨h.finish, h.errors⟩⟩

theorem clean_labelled {c : Cursor} : c.labelled.Clean ↔ c.Clean :=
  ⟨fun h => ⟨h.finish, h.errors⟩, fun h => ⟨h.finish, h.errors⟩⟩

theorem advance_finish (c : Cursor) : c.advance.finish = c.finish := by
  unfold advance
  split <;> rfl

theorem advance_errors (c : Cursor) : c.advance.errors = c.errors := by
  unfold advance
  split <;> rfl

theorem advance_supply (c : Cursor) : c.advance.supply = c.supply := by
  unfold advance
  split <;> rfl

theorem synchronize_finish (c : Cursor) : c.synchronize.finish = c.finish := by
  unfold synchronize
  split <;> rfl

theorem synchronize_errors (c : Cursor) : c.synchronize.errors = c.errors := by
  unfold synchronize
  split <;> rfl

theorem clean_advance {c : Cursor} : c.advance.Clean ↔ c.Clean := by
  constructor
  · intro h
    exact ⟨by rw [← advance_finish, h.finish], by rw [← advance_errors, h.errors]⟩
  · intro h
    exact ⟨by rw [advance_finish, h.finish], by rw [advance_errors, h.errors]⟩

/-- A token that is not the end of the source is passed by going on; where its kind is known, it is
seen at once that it is not. -/
theorem Clean.advance {c : Cursor} {kind : TokenKind} (hc : c.Clean) (hk : c.next.kind = kind)
    (h : kind ≠ .endOfSource := by decide) : c.Passes [c.next] c.advance := by
  unfold next at hk ⊢
  unfold Cursor.advance
  split
  · rename_i t ts ha
    exact ⟨by rw [ha]; rfl, by simp, rfl, rfl⟩
  · rename_i ha
    rw [ha] at hk
    exact absurd (hk.symm.trans hc.finish) h

/-- Behind a token that is not the end of the source, that token is the last. -/
theorem Clean.advance_last {c : Cursor} {kind : TokenKind} (hc : c.Clean) (hk : c.next.kind = kind)
    (h : kind ≠ .endOfSource := by decide) : c.advance.last = c.next := by
  rw [(hc.advance hk h).last]
  rfl

end Cursor

/-! ### Answers -/

namespace Parser

variable {α β : Type}

/-- **An answer of two parsers in a row is put together from theirs.** -/
theorem bind_done {p : Parser α} {f : α → Parser β} {c c' : Cursor} {b : β}
    (h : (p >>= f) c = .done b c') : ∃ a c₁, p c = .done a c₁ ∧ f a c₁ = .done b c' := by
  rw [bind_apply] at h
  cases hp : p c with
  | done a c₁ =>
      rw [hp] at h
      exact ⟨a, c₁, rfl, h⟩
  | failed e c₁ =>
      rw [hp] at h
      cases h
  | starved =>
      rw [hp] at h
      cases h

theorem bind_of_done {p : Parser α} {f : α → Parser β} {c c₁ : Cursor} {a : α}
    (h : p c = .done a c₁) : (p >>= f) c = f a c₁ := by
  rw [bind_apply, h]

theorem answer_bind (a : α) (f : α → Parser β) (c : Cursor) :
    ((pure a : Parser α) >>= f) c = f a c := rfl

theorem peek_bind (f : Token → Parser β) (c : Cursor) : (peek >>= f) c = f c.next c := rfl

theorem advance_bind (f : Token → Parser β) (c : Cursor) :
    (advance >>= f) c = f c.next c.advance := rfl

theorem check_bind (kind : TokenKind) (f : Bool → Parser β) (c : Cursor) :
    (check kind >>= f) c = f (c.next.kind == kind) c := rfl

theorem atEnd_bind (f : Bool → Parser β) (c : Cursor) :
    (atEnd >>= f) c = f c.ahead.isEmpty c := rfl

theorem mark_bind (span : Span) (f : Mark → Parser β) (c : Cursor) :
    (mark span >>= f) c = f ⟨c.supply.expr, span⟩ c.numbered := rfl

theorem spanFrom_bind (start : Span) (f : Span → Parser β) (c : Cursor) :
    (spanFrom start >>= f) c = f (start.through c.last.span) c := rfl

theorem freshLabel_bind (f : Nat → Parser β) (c : Cursor) :
    (freshLabel >>= f) c = f c.supply.routine c.labelled := rfl

theorem accept_bind (kind : TokenKind) (f : Bool → Parser β) (c : Cursor) :
    (accept kind >>= f) c = if c.next.kind = kind then f true c.advance else f false c := by
  rw [bind_apply, accept]
  by_cases h : c.next.kind = kind <;> simp [h]

theorem expect_bind (kind : TokenKind) (place : Place) (f : Span → Parser β) (c : Cursor) :
    (expect kind place >>= f) c =
      if c.next.kind = kind then f c.next.span c.advance
      else .failed ⟨.expectedToken kind place, c.next⟩ c := by
  rw [bind_apply, expect]
  by_cases h : c.next.kind = kind <;> simp [h]

theorem expectName_bind (role : NameRole) (f : String × Span → Parser β) (c : Cursor) :
    (expectName role >>= f) c =
      if c.next.kind = .identifier then f (c.next.lexeme, c.next.span) c.advance
      else .failed ⟨.expectedName role, c.next⟩ c := by
  rw [bind_apply, expectName]
  by_cases h : c.next.kind = .identifier <;> simp [h]

theorem pure_done {a b : α} {c c' : Cursor} (h : (pure a : Parser α) c = .done b c') :
    a = b ∧ c = c' := by
  rw [pure_apply] at h
  exact ⟨(Reply.done.inj h).1, (Reply.done.inj h).2⟩

/-- A parser reads only phrases of a grammar: an answer at a cursor without errors stands behind
the tokens of a phrase. -/
def Reads (p : Parser α) (Phrase : List Token → Supply → α → Supply → Prop) : Prop :=
  ∀ ⦃c c' : Cursor⦄ ⦃a : α⦄, p c = .done a c' → c'.Clean →
    ∃ ts, c.Passes ts c' ∧ Phrase ts c.supply a c'.supply

/-- A parser behind the report of a list that is too long reads nothing at a cursor without errors:
the list was within its limit. -/
theorem Reads.limited {p : Parser α} {Phrase : List Token → Supply → α → Supply → Prop}
    {count : Nat} {fault : SyntaxFault}
    (h : Reads p fun ts s a s' => count < arityLimit → Phrase ts s a s') :
    Reads (if arityLimit ≤ count then (do report fault; p) else p) Phrase := by
  intro c c' a hp hc
  split at hp
  · obtain ⟨_, hpass, _⟩ := h hp hc
    have := hpass.errors.symm.trans hc.errors
    cases this
  · rename_i hcount
    obtain ⟨ts, hts, hp⟩ := h hp hc
    exact ⟨ts, hts, hp (by omega)⟩

/-! ### Expressions -/

/-- With some fuel, the parsers of expressions read only phrases of their productions. -/
structure ReadsExpressions (fuel : Nat) : Prop where
  expression : Reads (expression fuel) Phrase.Expression
  assignment : Reads (assignment fuel) Phrase.Assignment
  operand : ∀ level, Reads (operand fuel level) (Phrase.Operand level)
  joins : ∀ level left, Reads (joins fuel level left) (Phrase.Joins level left)
  unary : Reads (unary fuel) Phrase.Unary
  suffixes : ∀ callee, Reads (suffixes fuel callee) (Phrase.Suffixes callee)
  argumentList : Reads (argumentList fuel) Phrase.ArgumentList
  arguments : ∀ count, Reads (arguments fuel count) fun ts s es s' =>
    Phrase.Arguments ts s es s' ∧ count + es.length ≤ arityLimit
  primary : Reads (primary fuel) Phrase.Primary

section Expressions

variable {n : Nat}

theorem reads_expression (ih : ReadsExpressions n) :
    Reads (expression (n + 1)) Phrase.Expression := by
  intro c c' e h hc
  rw [expression] at h
  obtain ⟨x, c₁, hx, h⟩ := bind_done h
  rw [peek_bind] at h
  split at h
  · rename_i hq
    rw [advance_bind] at h
    obtain ⟨y, c₂, hy, h⟩ := bind_done h
    rw [accept_bind] at h
    split at h
    · rename_i hcolon
      rw [if_pos rfl] at h
      obtain ⟨z, c₃, hz, h⟩ := bind_done h
      rw [mark_bind] at h
      obtain ⟨rfl, rfl⟩ := pure_done h
      -- that no error was reported is known at the end only, so the parts are read from the back
      obtain ⟨vs, hvs, hz⟩ := ih.assignment hz (Cursor.clean_numbered.1 hc)
      have hc₂ := Cursor.clean_advance.1 (hvs.clean (Cursor.clean_numbered.1 hc))
      obtain ⟨us, hus, hy⟩ := ih.assignment hy hc₂
      have hc₁ := Cursor.clean_advance.1 (hus.clean hc₂)
      obtain ⟨ts, hts, hx⟩ := ih.assignment hx hc₁
      rw [Cursor.advance_supply] at hy hz
      have hus := (hc₁.advance hq).trans (hus.trans
        ((hc₂.advance hcolon).trans hvs))
      exact ⟨_, (hts.trans hus).numbered, .choice hx hq hy hcolon hz⟩
    · rw [if_neg (by decide)] at h
      cases h
  · obtain ⟨rfl, rfl⟩ := pure_done h
    obtain ⟨ts, hts, hx⟩ := ih.assignment hx hc
    exact ⟨ts, hts, .plain hx⟩

theorem reads_assignment (ih : ReadsExpressions n) :
    Reads (assignment (n + 1)) Phrase.Assignment := by
  intro c c' e h hc
  rw [assignment] at h
  obtain ⟨x, c₁, hx, h⟩ := bind_done h
  rw [peek_bind] at h
  split at h
  · rename_i hq
    rw [advance_bind] at h
    obtain ⟨y, c₂, hy, h⟩ := bind_done h
    split at h
    · rename_i m name
      rw [mark_bind] at h
      obtain ⟨rfl, rfl⟩ := pure_done h
      obtain ⟨us, hus, hy⟩ := ih.assignment hy (Cursor.clean_numbered.1 hc)
      have hc₁ := Cursor.clean_advance.1 (hus.clean (Cursor.clean_numbered.1 hc))
      obtain ⟨ts, hts, hx⟩ := ih.operand _ hx hc₁
      rw [Cursor.advance_supply] at hy
      have hus := (hc₁.advance hq).trans hus
      exact ⟨_, (hts.trans hus).numbered, .name hx hq hy⟩
    · rename_i m object name
      rw [mark_bind] at h
      obtain ⟨rfl, rfl⟩ := pure_done h
      obtain ⟨us, hus, hy⟩ := ih.assignment hy (Cursor.clean_numbered.1 hc)
      have hc₁ := Cursor.clean_advance.1 (hus.clean (Cursor.clean_numbered.1 hc))
      obtain ⟨ts, hts, hx⟩ := ih.operand _ hx hc₁
      rw [Cursor.advance_supply] at hy
      have hus := (hc₁.advance hq).trans hus
      exact ⟨_, (hts.trans hus).numbered, .property hx hq hy⟩
    · cases h
  · obtain ⟨rfl, rfl⟩ := pure_done h
    obtain ⟨ts, hts, hx⟩ := ih.operand _ hx hc
    exact ⟨ts, hts, .plain hx⟩

theorem reads_operand (ih : ReadsExpressions n) (level : Option Level) :
    Reads (operand (n + 1) level) (Phrase.Operand level) := by
  intro c c' e h hc
  cases level with
  | none =>
      rw [operand] at h
      obtain ⟨ts, hts, h⟩ := ih.unary h hc
      exact ⟨ts, hts, .unary h⟩
  | some level =>
      rw [operand] at h
      obtain ⟨left, c₁, hl, h⟩ := bind_done h
      obtain ⟨us, hus, h⟩ := ih.joins _ _ h hc
      obtain ⟨ts, hts, hl⟩ := ih.operand _ hl (hus.clean hc)
      exact ⟨_, hts.trans hus, .level hl h⟩

theorem join_ne_end {level : Level} {kind : TokenKind} {join : Join}
    (h : level.join? kind = some join) : kind ≠ .endOfSource := by
  rintro rfl
  cases level <;> cases h

theorem reads_joins (ih : ReadsExpressions n) (level : Level) (left : Expr) :
    Reads (joins (n + 1) level left) (Phrase.Joins level left) := by
  intro c c' e h hc
  rw [joins, peek_bind] at h
  cases hj : level.join? c.next.kind with
  | some join =>
      simp only [hj] at h
      rw [advance_bind] at h
      obtain ⟨right, c₁, hr, h⟩ := bind_done h
      rw [mark_bind] at h
      -- the others are read first: they say that nothing was reported before them
      obtain ⟨us, hus, h⟩ := ih.joins _ _ h hc
      have hc₁ := Cursor.clean_numbered.1 (hus.clean hc)
      obtain ⟨ts, hts, hr⟩ := ih.operand _ hr hc₁
      have hc := Cursor.clean_advance.1 (hts.clean hc₁)
      rw [Cursor.advance_supply] at hr
      exact ⟨c.next :: (ts ++ us), (hc.advance rfl (join_ne_end hj)).trans (hts.numbered.trans hus),
        .cons hj hr h⟩
  | none =>
      simp only [hj] at h
      obtain ⟨rfl, rfl⟩ := pure_done h
      exact ⟨[], .refl c, .nil⟩

theorem unary_ne_end {kind : TokenKind} {op : UnaryOp} (h : UnaryOp.ofKind? kind = some op) :
    kind ≠ .endOfSource := by
  rintro rfl
  cases h

theorem reads_unary (ih : ReadsExpressions n) : Reads (unary (n + 1)) Phrase.Unary := by
  intro c c' e h hc
  rw [unary, peek_bind] at h
  cases hop : UnaryOp.ofKind? c.next.kind with
  | some op =>
      simp only [hop] at h
      rw [advance_bind] at h
      obtain ⟨x, c₁, hx, h⟩ := bind_done h
      rw [mark_bind] at h
      obtain ⟨rfl, rfl⟩ := pure_done h
      obtain ⟨ts, hts, hx⟩ := ih.unary hx (Cursor.clean_numbered.1 hc)
      have hc := Cursor.clean_advance.1 (hts.clean (Cursor.clean_numbered.1 hc))
      rw [Cursor.advance_supply] at hx
      exact ⟨_, ((hc.advance rfl (unary_ne_end hop)).trans hts).numbered, .operator hop hx⟩
  | none =>
      simp only [hop] at h
      obtain ⟨callee, c₁, hx, h⟩ := bind_done h
      obtain ⟨us, hus, h⟩ := ih.suffixes _ h hc
      obtain ⟨ts, hts, hx⟩ := ih.primary hx (hus.clean hc)
      exact ⟨_, hts.trans hus, .call hx h⟩

theorem reads_suffixes (ih : ReadsExpressions n) (callee : Expr) :
    Reads (suffixes (n + 1) callee) (Phrase.Suffixes callee) := by
  intro c c' e h hc
  rw [suffixes, accept_bind] at h
  split at h
  · rename_i ho
    rw [if_pos rfl] at h
    obtain ⟨arguments, c₁, ha, h⟩ := bind_done h
    rw [expect_bind] at h
    split at h
    · rename_i hclose
      rw [mark_bind] at h
      obtain ⟨us, hus, h⟩ := ih.suffixes _ h hc
      have hc₁ := Cursor.clean_advance.1 (Cursor.clean_numbered.1 (hus.clean hc))
      obtain ⟨ts, hts, ha⟩ := ih.argumentList ha hc₁
      have hc := Cursor.clean_advance.1 (hts.clean hc₁)
      -- the number of the call is taken between its parenthesis and the other suffixes
      have hus := (hc₁.advance hclose).numbered.trans hus
      simp only [Cursor.numbered_supply, Cursor.advance_supply] at ha h
      exact ⟨_, (hc.advance ho).trans (hts.trans hus), .call ho ha hclose h⟩
    · cases h
  · rw [if_neg (by decide), accept_bind] at h
    split at h
    · rename_i hd
      rw [if_pos rfl, expectName_bind] at h
      split at h
      · rename_i hn
        dsimp only at h
        rw [mark_bind] at h
        obtain ⟨us, hus, h⟩ := ih.suffixes _ h hc
        have hc₁ := Cursor.clean_advance.1 (Cursor.clean_numbered.1 (hus.clean hc))
        have hc := Cursor.clean_advance.1 hc₁
        have hus := (hc₁.advance hn).numbered.trans hus
        simp only [Cursor.numbered_supply, Cursor.advance_supply] at h
        exact ⟨_, (hc.advance hd).trans hus, .property hd hn h⟩
      · cases h
    · rw [if_neg (by decide)] at h
      obtain ⟨rfl, rfl⟩ := pure_done h
      exact ⟨[], .refl c, .nil⟩

theorem reads_argumentList (ih : ReadsExpressions n) :
    Reads (argumentList (n + 1)) Phrase.ArgumentList := by
  intro c c' es h hc
  rw [argumentList, check_bind] at h
  split at h
  · obtain ⟨rfl, rfl⟩ := pure_done h
    exact ⟨[], .refl c, .none⟩
  · obtain ⟨ts, hts, h, hl⟩ := ih.arguments 0 h hc
    exact ⟨ts, hts, .some h (by omega)⟩

theorem reads_arguments (ih : ReadsExpressions n) (count : Nat) :
    Reads (arguments (n + 1) count) fun ts s es s' =>
      Phrase.Arguments ts s es s' ∧ count + es.length ≤ arityLimit := by
  -- an argument too many is reported, and a clean end thus tells that there were not
  rw [arguments]
  refine Reads.limited fun c c' es h hc => ?_
  obtain ⟨x, c₁, hx, h⟩ := bind_done h
  rw [accept_bind] at h
  split at h
  · rename_i hcomma
    rw [if_pos rfl] at h
    obtain ⟨xs, c₂, hxs, h⟩ := bind_done h
    obtain ⟨rfl, rfl⟩ := pure_done h
    obtain ⟨us, hus, hxs, hl⟩ := ih.arguments _ hxs hc
    have hc₁ := Cursor.clean_advance.1 (hus.clean hc)
    obtain ⟨ts, hts, hx⟩ := ih.expression hx hc₁
    rw [Cursor.advance_supply] at hxs
    refine ⟨_, hts.trans ((hc₁.advance hcomma).trans hus), fun _ => ?_⟩
    refine ⟨.more hx hcomma hxs, ?_⟩
    rw [List.length_cons]
    omega
  · rw [if_neg (by decide)] at h
    obtain ⟨rfl, rfl⟩ := pure_done h
    obtain ⟨ts, hts, hx⟩ := ih.expression hx hc
    refine ⟨ts, hts, fun _ => ⟨.last hx, ?_⟩⟩
    rw [List.length_singleton]
    omega

/-- A token that stands for a value is read as its constant. -/
theorem reads_constant {c c' : Cursor} {e : Expr} {kind : TokenKind} (hk : c.next.kind = kind)
    (hne : kind ≠ .endOfSource)
    (h : (match Constant.ofToken? c.next with
      | some value => do
          let _ ← advance
          let mark ← mark c.next.span
          pure (.constant mark value)
      | none => fail ⟨.malformedLiteral, c.next⟩ : Parser Expr) c = .done e c')
    (hc : c'.Clean) : ∃ ts, c.Passes ts c' ∧ Phrase.Primary ts c.supply e c'.supply := by
  cases hv : Constant.ofToken? c.next with
  | some value =>
      simp only [hv] at h
      rw [advance_bind, mark_bind] at h
      obtain ⟨rfl, rfl⟩ := pure_done h
      have hc := Cursor.clean_advance.1 (Cursor.clean_numbered.1 hc)
      simp only [Cursor.numbered_supply, Cursor.advance_supply]
      exact ⟨[c.next], (hc.advance hk hne).numbered, .constant hv⟩
  | none =>
      simp only [hv] at h
      cases h

theorem reads_primary (ih : ReadsExpressions n) : Reads (primary (n + 1)) Phrase.Primary := by
  intro c c' e h hc
  rw [primary, peek_bind] at h
  -- the kind is generalised, so that the cases are those of the parser
  generalize hk : c.next.kind = kind at h
  split at h
  · exact reads_constant hk (by decide) h hc
  · exact reads_constant hk (by decide) h hc
  · exact reads_constant hk (by decide) h hc
  · exact reads_constant hk (by decide) h hc
  · exact reads_constant hk (by decide) h hc
  · rw [advance_bind, mark_bind] at h
    obtain ⟨rfl, rfl⟩ := pure_done h
    have hc := Cursor.clean_advance.1 (Cursor.clean_numbered.1 hc)
    simp only [Cursor.numbered_supply, Cursor.advance_supply]
    exact ⟨[c.next], (hc.advance hk).numbered, .thisWord hk⟩
  · rw [advance_bind, expect_bind] at h
    split at h
    · rename_i hd
      rw [expectName_bind] at h
      split at h
      · rename_i hm
        dsimp only at h
        rw [mark_bind] at h
        obtain ⟨rfl, rfl⟩ := pure_done h
        have hc₂ := Cursor.clean_advance.1 (Cursor.clean_numbered.1 hc)
        have hc₁ := Cursor.clean_advance.1 hc₂
        have hc := Cursor.clean_advance.1 hc₁
        have hts := (hc₁.advance hd).trans (hc₂.advance hm)
        simp only [Cursor.numbered_supply, Cursor.advance_supply]
        exact ⟨_, ((hc.advance hk).trans hts).numbered, .superWord hk hd hm⟩
      · cases h
    · cases h
  · rw [advance_bind, mark_bind] at h
    obtain ⟨rfl, rfl⟩ := pure_done h
    have hc := Cursor.clean_advance.1 (Cursor.clean_numbered.1 hc)
    simp only [Cursor.numbered_supply, Cursor.advance_supply]
    exact ⟨[c.next], (hc.advance hk).numbered, .name hk⟩
  · rw [advance_bind] at h
    obtain ⟨x, c₁, hx, h⟩ := bind_done h
    rw [expect_bind] at h
    split at h
    · rename_i hclose
      rw [mark_bind] at h
      obtain ⟨rfl, rfl⟩ := pure_done h
      have hc₁ := Cursor.clean_advance.1 (Cursor.clean_numbered.1 hc)
      obtain ⟨ts, hts, hx⟩ := ih.expression hx hc₁
      have hc := Cursor.clean_advance.1 (hts.clean hc₁)
      have hts := hts.trans (hc₁.advance hclose)
      simp only [Cursor.numbered_supply, Cursor.advance_supply] at hx ⊢
      exact ⟨_, ((hc.advance hk).trans hts).numbered, .grouping hk hx hclose⟩
    · cases h
  · cases h

/-- **The parsers of expressions read only phrases of their productions**, whatever the fuel. -/
theorem readsExpressions (n : Nat) : ReadsExpressions n := by
  induction n with
  | zero =>
      constructor
      -- without fuel every parser starves; an operand is split on its level before it does
      case operand => rintro (_ | _) _ _ _ ⟨⟩
      all_goals
        intros
        intro _ _ _ h
        cases h
  | succ n ih =>
      exact ⟨reads_expression ih, reads_assignment ih, reads_operand ih, reads_joins ih,
        reads_unary ih, reads_suffixes ih, reads_argumentList ih, reads_arguments ih,
        reads_primary ih⟩

end Expressions

/-! ### Parts of declarations and statements -/

section Parts

variable {n : Nat}

theorem reads_parameters (n count : Nat) : Reads (parameters n count) fun ts s ps s' =>
    (Phrase.Parameters ts ps ∧ s' = s) ∧ count + ps.length ≤ arityLimit := by
  induction n generalizing count with
  | zero =>
      intro _ _ _ h
      cases h
  | succ n ih =>
      rw [parameters]
      refine Reads.limited fun c c' ps h hc => ?_
      rw [expectName_bind] at h
      split at h
      · rename_i hn
        dsimp only at h
        rw [accept_bind] at h
        split at h
        · rename_i hcomma
          rw [if_pos rfl] at h
          obtain ⟨others, c₁, hps, h⟩ := bind_done h
          obtain ⟨rfl, rfl⟩ := pure_done h
          obtain ⟨ts, hts, ⟨hps, hs⟩, hl⟩ := ih _ hps hc
          have hc₁ := Cursor.clean_advance.1 (hts.clean hc)
          have hc := Cursor.clean_advance.1 hc₁
          rw [Cursor.advance_supply, Cursor.advance_supply] at hs
          refine ⟨_, (hc.advance hn).trans ((hc₁.advance hcomma).trans hts),
            fun _ => ⟨⟨.more hn hcomma hps, hs⟩, ?_⟩⟩
          rw [List.length_cons]
          omega
        · rw [if_neg (by decide)] at h
          obtain ⟨rfl, rfl⟩ := pure_done h
          have hc := Cursor.clean_advance.1 hc
          refine ⟨_, hc.advance hn, fun _ => ⟨⟨.last hn, Cursor.advance_supply c⟩, ?_⟩⟩
          rw [List.length_singleton]
          omega
      · cases h

theorem reads_parameterList : Reads (parameterList n) fun ts s ps s' =>
    Phrase.ParameterList ts ps ∧ s' = s := by
  intro c c' ps h hc
  rw [parameterList, check_bind] at h
  split at h
  · obtain ⟨rfl, rfl⟩ := pure_done h
    exact ⟨[], .refl c, .none, rfl⟩
  · obtain ⟨ts, hts, ⟨h, hs⟩, hl⟩ := reads_parameters n 0 h hc
    exact ⟨ts, hts, .some h (by omega), hs⟩

theorem reads_superclass : Reads superclass Phrase.Parent := by
  intro c c' p h hc
  rw [superclass, accept_bind] at h
  split at h
  · rename_i hl
    rw [if_pos rfl, expectName_bind] at h
    split at h
    · rename_i hn
      dsimp only at h
      rw [mark_bind] at h
      obtain ⟨rfl, rfl⟩ := pure_done h
      have hc₁ := Cursor.clean_advance.1 (Cursor.clean_numbered.1 hc)
      have hc := Cursor.clean_advance.1 hc₁
      have hts := (hc.advance hl).trans (hc₁.advance hn)
      simp only [Cursor.numbered_supply, Cursor.advance_supply]
      exact ⟨_, hts.numbered, .some hl hn⟩
    · cases h
  · rw [if_neg (by decide)] at h
    obtain ⟨rfl, rfl⟩ := pure_done h
    exact ⟨[], .refl c, .none⟩

/-- A variable declaration is read where its keyword stands. -/
theorem reads_variableDeclaration {c c' : Cursor} {d : Decl} (hk : c.next.kind = .varWord)
    (h : variableDeclaration n c = .done d c') (hc : c'.Clean) :
    ∃ ts, c.Passes ts c' ∧ Phrase.Variable ts c.supply d c'.supply := by
  rw [variableDeclaration, advance_bind, expectName_bind] at h
  split at h
  · rename_i hn
    dsimp only at h
    rw [accept_bind] at h
    split at h
    · rename_i hq
      rw [if_pos rfl] at h
      obtain ⟨e, c₁, he, h⟩ := bind_done h
      rw [answer_bind, expect_bind] at h
      split at h
      · rename_i hs
        rw [spanFrom_bind] at h
        obtain ⟨rfl, rfl⟩ := pure_done h
        have hc₁ := Cursor.clean_advance.1 hc
        obtain ⟨ts, hts, he⟩ := (readsExpressions n).expression he hc₁
        have hc₂ := Cursor.clean_advance.1 (hts.clean hc₁)
        have hc₃ := Cursor.clean_advance.1 hc₂
        have hc := Cursor.clean_advance.1 hc₃
        have hts := (hc₂.advance hq).trans
          (hts.trans (hc₁.advance hs))
        simp only [Cursor.advance_supply] at he ⊢
        -- the span ends with the last token passed, which is the semicolon
        rw [hc₁.advance_last hs]
        exact ⟨_, (hc.advance hk).trans ((hc₃.advance hn).trans hts),
          .mk hk hn (.some hq he) hs⟩
      · cases h
    · rw [if_neg (by decide), answer_bind, expect_bind] at h
      split at h
      · rename_i hs
        rw [spanFrom_bind] at h
        obtain ⟨rfl, rfl⟩ := pure_done h
        have hc₁ := Cursor.clean_advance.1 hc
        have hc₂ := Cursor.clean_advance.1 hc₁
        have hc := Cursor.clean_advance.1 hc₂
        have hts := (hc₂.advance hn).trans (hc₁.advance hs)
        simp only [Cursor.advance_supply]
        rw [hc₁.advance_last hs]
        exact ⟨_, (hc.advance hk).trans hts, .mk hk hn .none hs⟩
      · cases h
  · cases h

/-- An expression that stands as a statement is read up to its semicolon. -/
theorem reads_expressionStatement : Reads (expressionStatement n) fun ts s stmt s' =>
    ∃ us semicolon e, ts = us ++ [semicolon] ∧ semicolon.kind = .semicolon ∧
      stmt = .expression e e.span ∧ Phrase.Expression us s e s' := by
  intro c c' stmt h hc
  rw [expressionStatement] at h
  obtain ⟨e, c₁, he, h⟩ := bind_done h
  rw [expect_bind] at h
  split at h
  · rename_i hs
    obtain ⟨rfl, rfl⟩ := pure_done h
    have hc₁ := Cursor.clean_advance.1 hc
    obtain ⟨ts, hts, he⟩ := (readsExpressions n).expression he hc₁
    rw [Cursor.advance_supply]
    exact ⟨_, hts.trans (hc₁.advance hs), ts, c₁.next, e, rfl, hs, rfl, he⟩
  · cases h

/-- A statement that prints is read where its keyword stands. -/
theorem reads_printStatement {c c' : Cursor} {stmt : Stmt} (hk : c.next.kind = .printWord)
    (h : printStatement n c = .done stmt c') (hc : c'.Clean) :
    ∃ ts, c.Passes ts c' ∧ Phrase.Statement false ts c.supply stmt c'.supply := by
  rw [printStatement, advance_bind] at h
  obtain ⟨e, c₁, he, h⟩ := bind_done h
  rw [expect_bind] at h
  split at h
  · rename_i hs
    rw [spanFrom_bind] at h
    obtain ⟨rfl, rfl⟩ := pure_done h
    have hc₁ := Cursor.clean_advance.1 hc
    obtain ⟨ts, hts, he⟩ := (readsExpressions n).expression he hc₁
    have hc := Cursor.clean_advance.1 (hts.clean hc₁)
    have hts := hts.trans (hc₁.advance hs)
    rw [Cursor.advance_supply] at he ⊢
    rw [hc₁.advance_last hs]
    exact ⟨_, (hc.advance hk).trans hts, .print hk he hs⟩
  · cases h

/-- A statement that ends a call is read where its keyword stands. -/
theorem reads_returnStatement {c c' : Cursor} {stmt : Stmt} (hk : c.next.kind = .returnWord)
    (h : returnStatement n c = .done stmt c') (hc : c'.Clean) :
    ∃ ts, c.Passes ts c' ∧ Phrase.Statement false ts c.supply stmt c'.supply := by
  rw [returnStatement, advance_bind, check_bind] at h
  split at h
  · rw [answer_bind] at h
    dsimp only at h
    rw [expect_bind] at h
    split at h
    · rename_i hs
      rw [spanFrom_bind] at h
      obtain ⟨rfl, rfl⟩ := pure_done h
      have hc₁ := Cursor.clean_advance.1 hc
      have hc := Cursor.clean_advance.1 hc₁
      simp only [Cursor.advance_supply]
      rw [hc₁.advance_last hs]
      exact ⟨_, (hc.advance hk).trans (hc₁.advance hs),
        .ret hk .none hs⟩
    · cases h
  · obtain ⟨e, c₁, he, h⟩ := bind_done h
    rw [answer_bind] at h
    dsimp only at h
    rw [expect_bind] at h
    split at h
    · rename_i hs
      rw [spanFrom_bind] at h
      obtain ⟨rfl, rfl⟩ := pure_done h
      have hc₁ := Cursor.clean_advance.1 hc
      obtain ⟨ts, hts, he⟩ := (readsExpressions n).expression he hc₁
      have hc := Cursor.clean_advance.1 (hts.clean hc₁)
      have hts := hts.trans (hc₁.advance hs)
      rw [Cursor.advance_supply] at he ⊢
      rw [hc₁.advance_last hs]
      exact ⟨_, (hc.advance hk).trans hts, .ret hk (.some he) hs⟩
    · cases h

theorem reads_loopInitializer : Reads (loopInitializer n) Phrase.LoopInitializer := by
  intro c c' d h hc
  rw [loopInitializer, accept_bind] at h
  split at h
  · rename_i hs
    rw [if_pos rfl] at h
    obtain ⟨rfl, rfl⟩ := pure_done h
    have hc := Cursor.clean_advance.1 hc
    rw [Cursor.advance_supply]
    exact ⟨_, hc.advance hs, .none hs⟩
  · rw [if_neg (by decide), check_bind] at h
    split at h
    · rename_i hk
      obtain ⟨d, c₁, hd, h⟩ := bind_done h
      obtain ⟨rfl, rfl⟩ := pure_done h
      obtain ⟨ts, hts, hd⟩ := reads_variableDeclaration (by simpa using hk) hd hc
      exact ⟨ts, hts, .declaration hd⟩
    · obtain ⟨stmt, c₁, hstmt, h⟩ := bind_done h
      obtain ⟨rfl, rfl⟩ := pure_done h
      obtain ⟨_, hts, us, semicolon, e, rfl, hs, rfl, he⟩ := reads_expressionStatement hstmt hc
      exact ⟨_, hts, .expression he hs⟩

theorem reads_loopCondition : Reads (loopCondition n) Phrase.LoopCondition := by
  intro c c' e h hc
  rw [loopCondition, check_bind] at h
  split at h
  · rename_i hs
    have hs : c.next.kind = .semicolon := by simpa using hs
    have hn : c.numbered.next.kind = .semicolon := hs
    rw [peek_bind, mark_bind, answer_bind] at h
    dsimp only at h
    rw [expect_bind, if_pos hn] at h
    obtain ⟨rfl, rfl⟩ := pure_done h
    have hc := Cursor.clean_advance.1 hc
    rw [Cursor.advance_supply]
    exact ⟨_, (Cursor.Passes.refl c).numbered.trans (hc.advance hn), .none hs⟩
  · obtain ⟨e, c₁, he, h⟩ := bind_done h
    dsimp only at h
    rw [expect_bind] at h
    split at h
    · rename_i hs
      obtain ⟨rfl, rfl⟩ := pure_done h
      have hc₁ := Cursor.clean_advance.1 hc
      obtain ⟨ts, hts, he⟩ := (readsExpressions n).expression he hc₁
      rw [Cursor.advance_supply]
      exact ⟨_, hts.trans (hc₁.advance hs), .some he hs⟩
    · cases h

/-- The increment of a `for` loop is an expression or nothing, in front of a parenthesis. -/
theorem reads_loopIncrement : Reads (loopIncrement n) fun ts s e s' =>
    ∃ us closing, ts = us ++ [closing] ∧ closing.kind = .rightParen ∧
      Phrase.Optional us s e s' := by
  intro c c' e h hc
  rw [loopIncrement, check_bind] at h
  split at h
  · rw [answer_bind] at h
    dsimp only at h
    rw [expect_bind] at h
    split at h
    · rename_i hp
      obtain ⟨rfl, rfl⟩ := pure_done h
      have hc := Cursor.clean_advance.1 hc
      rw [Cursor.advance_supply]
      exact ⟨_, hc.advance hp, [], c.next, rfl, hp, .none⟩
    · cases h
  · obtain ⟨e, c₁, he, h⟩ := bind_done h
    rw [answer_bind] at h
    dsimp only at h
    rw [expect_bind] at h
    split at h
    · rename_i hp
      obtain ⟨rfl, rfl⟩ := pure_done h
      have hc₁ := Cursor.clean_advance.1 hc
      obtain ⟨ts, hts, he⟩ := (readsExpressions n).expression he hc₁
      rw [Cursor.advance_supply]
      exact ⟨_, hts.trans (hc₁.advance hp), ts, c₁.next, rfl, hp, .some he⟩
    · cases h

end Parts

/-! ### Declarations and statements -/

/-- With some fuel, the parsers of declarations and statements read only phrases of their
productions.  Behind a statement that ends in an `if` without `else` there stands no `else`, and
the declarations of a program go on up to the end of the source. -/
structure ReadsStatements (fuel : Nat) : Prop where
  declaration : Reads (declaration fuel) fun ts s d s' =>
    ∃ d', d = some d' ∧ Phrase.Declaration ts s d' s'
  wholeDeclaration : Reads (wholeDeclaration fuel) Phrase.Declaration
  methods : Reads (methods fuel) Phrase.Methods
  routine : ∀ role, Reads (routine fuel role) Phrase.Function
  blockBody : Reads (blockBody fuel) fun ts s body s' =>
    ∃ us closing, ts = us ++ [closing] ∧ closing.kind = .rightBrace ∧
      Phrase.Declarations us s body s'
  declarations : ∀ ⦃inBlock c c' ds⦄, declarations fuel inBlock c = .done ds c' → c'.Clean →
    ∃ ts, c.Passes ts c' ∧ Phrase.Declarations ts c.supply ds c'.supply ∧
      (inBlock = false → c'.ahead = [])
  statement : ∀ ⦃c c' stmt⦄, statement fuel c = .done stmt c' → c'.Clean →
    ∃ ts dangling, c.Passes ts c' ∧ Phrase.Statement dangling ts c.supply stmt c'.supply ∧
      (dangling = true → c'.next.kind ≠ .elseWord)

section Statements

variable {n : Nat}

/-- A declaration that is skipped leaves an error. -/
theorem reads_declaration (ih : ReadsStatements n) : Reads (declaration (n + 1)) fun ts s d s' =>
    ∃ d', d = some d' ∧ Phrase.Declaration ts s d' s' := by
  intro c c' d h hc
  rw [declaration, recover] at h
  cases hd : wholeDeclaration n c with
  | done d' c₁ =>
      rw [hd] at h
      cases h
      obtain ⟨ts, hts, hd⟩ := ih.wholeDeclaration hd hc
      exact ⟨ts, hts, d', rfl, hd⟩
  | failed error c₁ =>
      rw [hd] at h
      cases h
      -- an error is recorded before anything is skipped, against the clean end
      have herrors := hc.errors
      unfold Cursor.synchronize at herrors
      split at herrors <;> cases herrors
  | starved =>
      rw [hd] at h
      cases h

theorem reads_wholeDeclaration (ih : ReadsStatements n) :
    Reads (wholeDeclaration (n + 1)) Phrase.Declaration := by
  intro c c' d h hc
  rw [wholeDeclaration, peek_bind] at h
  generalize hk : c.next.kind = kind at h
  split at h
  · rw [advance_bind, expectName_bind] at h
    split at h
    · rename_i hn
      dsimp only at h
      obtain ⟨parent, c₁, hp, h⟩ := bind_done h
      rw [expect_bind] at h
      split at h
      · rename_i ho
        obtain ⟨methods, c₂, hm, h⟩ := bind_done h
        rw [expect_bind] at h
        split at h
        · rename_i hclose
          rw [spanFrom_bind] at h
          obtain ⟨rfl, rfl⟩ := pure_done h
          have hc₂ := Cursor.clean_advance.1 hc
          obtain ⟨us, hus, hm⟩ := ih.methods hm hc₂
          have hc₁ := Cursor.clean_advance.1 (hus.clean hc₂)
          obtain ⟨ts, hts, hp⟩ := reads_superclass hp hc₁
          have hc₀ := Cursor.clean_advance.1 (hts.clean hc₁)
          have hc := Cursor.clean_advance.1 hc₀
          have hus := (hc₁.advance ho).trans
            (hus.trans (hc₂.advance hclose))
          simp only [Cursor.advance_supply] at hm hp ⊢
          rw [hc₂.advance_last hclose]
          exact ⟨_, (hc.advance hk).trans
            ((hc₀.advance hn).trans (hts.trans hus)), .classDecl hk hn hp ho hm hclose⟩
        · cases h
      · cases h
    · cases h
  · rw [advance_bind] at h
    obtain ⟨r, c₁, hr, h⟩ := bind_done h
    rw [spanFrom_bind] at h
    obtain ⟨rfl, rfl⟩ := pure_done h
    obtain ⟨ts, hts, hr⟩ := ih.routine _ hr hc
    have hc := Cursor.clean_advance.1 (hts.clean hc)
    rw [Cursor.advance_supply] at hr
    rw [hts.last, hc.advance_last hk]
    exact ⟨_, (hc.advance hk).trans hts, .funDecl hk hr⟩
  · obtain ⟨ts, hts, h⟩ := reads_variableDeclaration hk h hc
    exact ⟨ts, hts, .varDecl h⟩
  · obtain ⟨stmt, c₁, hs, h⟩ := bind_done h
    obtain ⟨rfl, rfl⟩ := pure_done h
    obtain ⟨ts, dangling, hts, hs, _⟩ := ih.statement hs hc
    exact ⟨ts, hts, .statement hs⟩

theorem reads_methods (ih : ReadsStatements n) : Reads (methods (n + 1)) Phrase.Methods := by
  intro c c' rs h hc
  rw [methods, check_bind, atEnd_bind] at h
  split at h
  · obtain ⟨rfl, rfl⟩ := pure_done h
    exact ⟨[], .refl c, .nil⟩
  · obtain ⟨r, c₁, hr, h⟩ := bind_done h
    obtain ⟨rs, c₂, hrs, h⟩ := bind_done h
    obtain ⟨rfl, rfl⟩ := pure_done h
    obtain ⟨us, hus, hrs⟩ := ih.methods hrs hc
    obtain ⟨ts, hts, hr⟩ := ih.routine _ hr (hus.clean hc)
    exact ⟨_, hts.trans hus, .cons hr hrs⟩

theorem reads_routine (ih : ReadsStatements n) (role : RoutineRole) :
    Reads (routine (n + 1) role) Phrase.Function := by
  intro c c' r h hc
  rw [routine, expectName_bind] at h
  split at h
  · rename_i hn
    dsimp only at h
    rw [expect_bind] at h
    split at h
    · rename_i ho
      obtain ⟨params, c₁, hp, h⟩ := bind_done h
      rw [expect_bind] at h
      split at h
      · rename_i hclose
        rw [expect_bind] at h
        split at h
        · rename_i hb
          obtain ⟨body, c₂, hbody, h⟩ := bind_done h
          rw [spanFrom_bind, freshLabel_bind] at h
          obtain ⟨rfl, rfl⟩ := pure_done h
          -- from here on backwards: body, parameters, name
          have hc₂ := Cursor.clean_labelled.1 hc
          obtain ⟨_, hus, us, closing, rfl, hbrace, hbody⟩ := ih.blockBody hbody hc₂
          have hc₃ := Cursor.clean_advance.1 (hus.clean hc₂)
          have hc₁ := Cursor.clean_advance.1 hc₃
          obtain ⟨ts, hts, hp, hsupply⟩ := reads_parameterList hp hc₁
          have hc₀ := Cursor.clean_advance.1 (hts.clean hc₁)
          have hc := Cursor.clean_advance.1 hc₀
          have hblock := (hc₃.advance hb).trans hus
          simp only [Cursor.advance_supply] at hbody hsupply
          rw [hsupply] at hbody
          rw [hblock.last, hc₁.advance_last hclose]
          have hts := hts.trans ((hc₁.advance hclose).trans hblock)
          have hts := (hc.advance hn).trans ((hc₀.advance ho).trans hts)
          exact ⟨_, ⟨hts.ahead, hts.last, hts.finish, hts.errors⟩,
            .mk hn ho hp hclose (.mk hb hbody hbrace)⟩
        · cases h
      · cases h
    · cases h
  · cases h

theorem reads_blockBody (ih : ReadsStatements n) : Reads (blockBody (n + 1)) fun ts s body s' =>
    ∃ us closing, ts = us ++ [closing] ∧ closing.kind = .rightBrace ∧
      Phrase.Declarations us s body s' := by
  intro c c' body h hc
  rw [blockBody] at h
  obtain ⟨body, c₁, hbody, h⟩ := bind_done h
  rw [expect_bind] at h
  split at h
  · rename_i hbrace
    obtain ⟨rfl, rfl⟩ := pure_done h
    have hc₁ := Cursor.clean_advance.1 hc
    obtain ⟨ts, hts, hbody, _⟩ := ih.declarations hbody hc₁
    rw [Cursor.advance_supply]
    exact ⟨_, hts.trans (hc₁.advance hbrace), ts, c₁.next, rfl, hbrace, hbody⟩
  · cases h

theorem reads_declarations (ih : ReadsStatements n) ⦃inBlock : Bool⦄ ⦃c c' : Cursor⦄
    ⦃ds : List Decl⦄ (h : declarations (n + 1) inBlock c = .done ds c') (hc : c'.Clean) :
    ∃ ts, c.Passes ts c' ∧ Phrase.Declarations ts c.supply ds c'.supply ∧
      (inBlock = false → c'.ahead = []) := by
  rw [declarations, check_bind, atEnd_bind] at h
  split at h
  · rename_i hend
    obtain ⟨rfl, rfl⟩ := pure_done h
    -- outside a block the loop stops nowhere but at the end of the source
    refine ⟨[], .refl c, .nil, ?_⟩
    rintro rfl
    simpa using hend
  · obtain ⟨d, c₁, hd, h⟩ := bind_done h
    obtain ⟨ds, c₂, hds, h⟩ := bind_done h
    obtain ⟨rfl, rfl⟩ := pure_done h
    obtain ⟨us, hus, hds, hend⟩ := ih.declarations hds hc
    obtain ⟨ts, hts, d', rfl, hd'⟩ := ih.declaration hd (hus.clean hc)
    exact ⟨_, hts.trans hus, .cons hd' hds, hend⟩

/-- A block is read where its brace stands. -/
theorem reads_block (ih : ReadsStatements n) {c c' : Cursor} {body : List Decl}
    (hk : c.next.kind = .leftBrace) (h : blockBody n c.advance = .done body c') (hc : c'.Clean) :
    ∃ ts, c.Passes (c.next :: ts) c' ∧ Phrase.Block (c.next :: ts) c.supply body c'.supply := by
  obtain ⟨_, hts, us, closing, rfl, hbrace, hbody⟩ := ih.blockBody h hc
  have hc := Cursor.clean_advance.1 (hts.clean hc)
  rw [Cursor.advance_supply] at hbody
  exact ⟨_, (hc.advance hk).trans hts, .mk hk hbody hbrace⟩

theorem reads_ifStatement (ih : ReadsStatements n) {c c' : Cursor} {stmt : Stmt}
    (hk : c.next.kind = .ifWord)
    (h : (do
      let _ ← advance
      let _ ← expect .leftParen .afterIf
      let condition ← expression n
      let _ ← expect .rightParen .afterIfCondition
      let thenBranch ← statement n
      let elseBranch ←
        if ← accept .elseWord then
          let stmt ← statement n
          pure (some stmt)
        else
          pure none
      let span ← spanFrom c.next.span
      pure (.ifElse condition thenBranch elseBranch span) : Parser Stmt) c = .done stmt c')
    (hc : c'.Clean) :
    ∃ ts dangling, c.Passes ts c' ∧ Phrase.Statement dangling ts c.supply stmt c'.supply ∧
      (dangling = true → c'.next.kind ≠ .elseWord) := by
  rw [advance_bind, expect_bind] at h
  split at h
  · rename_i ho
    obtain ⟨e, c₁, he, h⟩ := bind_done h
    rw [expect_bind] at h
    split at h
    · rename_i hclose
      obtain ⟨stmt₁, c₂, hs, h⟩ := bind_done h
      rw [accept_bind] at h
      split at h
      · rename_i helse
        rw [if_pos rfl] at h
        obtain ⟨stmt₂, c₃, hs', h⟩ := bind_done h
        rw [answer_bind] at h
        dsimp only at h
        rw [spanFrom_bind] at h
        obtain ⟨rfl, rfl⟩ := pure_done h
        obtain ⟨vs, dangling, hvs, hs', hnext⟩ := ih.statement hs' hc
        have hc₂ := Cursor.clean_advance.1 (hvs.clean hc)
        -- an `else` follows the branch, so the branch cannot dangle
        obtain ⟨us, _ | _, hus, hs, hno⟩ := ih.statement hs hc₂
        · have hc₁ := Cursor.clean_advance.1 (hus.clean hc₂)
          obtain ⟨ts, hts, he⟩ := (readsExpressions n).expression he hc₁
          have hc₀ := Cursor.clean_advance.1 (hts.clean hc₁)
          have hc := Cursor.clean_advance.1 hc₀
          simp only [Cursor.advance_supply] at he hs hs'
          rw [hvs.last, hc₂.advance_last helse]
          have hvs := hus.trans ((hc₂.advance helse).trans hvs)
          have hts := hts.trans ((hc₁.advance hclose).trans hvs)
          have hts := (hc.advance hk).trans ((hc₀.advance ho).trans hts)
          exact ⟨_, dangling, hts, .ifElse hk ho he hclose hs helse hs', hnext⟩
        · exact absurd helse (hno rfl)
      · rename_i helse
        rw [if_neg (by decide), answer_bind] at h
        dsimp only at h
        rw [spanFrom_bind] at h
        obtain ⟨rfl, rfl⟩ := pure_done h
        obtain ⟨us, dangling, hus, hs, _⟩ := ih.statement hs hc
        have hc₁ := Cursor.clean_advance.1 (hus.clean hc)
        obtain ⟨ts, hts, he⟩ := (readsExpressions n).expression he hc₁
        have hc₀ := Cursor.clean_advance.1 (hts.clean hc₁)
        have hc := Cursor.clean_advance.1 hc₀
        simp only [Cursor.advance_supply] at he hs
        rw [hus.last, hc₁.advance_last hclose]
        have hts := hts.trans ((hc₁.advance hclose).trans hus)
        have hts := (hc.advance hk).trans ((hc₀.advance ho).trans hts)
        -- the parser looked for an `else` here, and found none
        exact ⟨_, true, hts, .ifThen hk ho he hclose hs, fun _ => helse⟩
    · cases h
  · cases h

theorem reads_statement (ih : ReadsStatements n) ⦃c c' : Cursor⦄ ⦃stmt : Stmt⦄
    (h : statement (n + 1) c = .done stmt c') (hc : c'.Clean) :
    ∃ ts dangling, c.Passes ts c' ∧ Phrase.Statement dangling ts c.supply stmt c'.supply ∧
      (dangling = true → c'.next.kind ≠ .elseWord) := by
  rw [statement, peek_bind] at h
  -- one case for each keyword, in the order of the parser; an expression takes what is left
  generalize hk : c.next.kind = kind at h
  split at h
  · obtain ⟨ts, hts, h⟩ := reads_printStatement hk h hc
    exact ⟨ts, false, hts, h, fun h => absurd h Bool.false_ne_true⟩
  · obtain ⟨ts, hts, h⟩ := reads_returnStatement hk h hc
    exact ⟨ts, false, hts, h, fun h => absurd h Bool.false_ne_true⟩
  · rw [advance_bind] at h
    obtain ⟨body, c₁, hbody, h⟩ := bind_done h
    rw [spanFrom_bind] at h
    obtain ⟨rfl, rfl⟩ := pure_done h
    obtain ⟨ts, hts, hbody⟩ := reads_block ih hk hbody hc
    rw [hts.last, List.getLastD_cons]
    exact ⟨_, false, hts, .block hbody, fun h => absurd h Bool.false_ne_true⟩
  · exact reads_ifStatement ih hk h hc
  · rw [advance_bind, expect_bind] at h
    split at h
    · rename_i ho
      obtain ⟨e, c₁, he, h⟩ := bind_done h
      rw [expect_bind] at h
      split at h
      · rename_i hclose
        obtain ⟨stmt₁, c₂, hs, h⟩ := bind_done h
        rw [spanFrom_bind] at h
        obtain ⟨rfl, rfl⟩ := pure_done h
        obtain ⟨us, dangling, hus, hs, hnext⟩ := ih.statement hs hc
        have hc₁ := Cursor.clean_advance.1 (hus.clean hc)
        obtain ⟨ts, hts, he⟩ := (readsExpressions n).expression he hc₁
        have hc₀ := Cursor.clean_advance.1 (hts.clean hc₁)
        have hc := Cursor.clean_advance.1 hc₀
        simp only [Cursor.advance_supply] at he hs
        rw [hus.last, hc₁.advance_last hclose]
        have hts := hts.trans ((hc₁.advance hclose).trans hus)
        have hts := (hc.advance hk).trans ((hc₀.advance ho).trans hts)
        exact ⟨_, dangling, hts, .whileLoop hk ho he hclose hs, hnext⟩
      · cases h
    · cases h
  · rw [advance_bind, expect_bind] at h
    split at h
    · rename_i ho
      obtain ⟨initializer, c₁, hi, h⟩ := bind_done h
      obtain ⟨condition, c₂, hcond, h⟩ := bind_done h
      obtain ⟨increment, c₃, hincr, h⟩ := bind_done h
      obtain ⟨body, c₄, hbody, h⟩ := bind_done h
      rw [spanFrom_bind] at h
      obtain ⟨rfl, rfl⟩ := pure_done h
      obtain ⟨ws, dangling, hws, hbody, hnext⟩ := ih.statement hbody hc
      have hc₃ := hws.clean hc
      obtain ⟨_, hvs, vs, closing, rfl, hclose, hincr⟩ := reads_loopIncrement hincr hc₃
      have hc₂ := hvs.clean hc₃
      obtain ⟨us, hus, hcond⟩ := reads_loopCondition hcond hc₂
      have hc₁ := hus.clean hc₂
      obtain ⟨ts, hts, hi⟩ := reads_loopInitializer hi hc₁
      have hc₀ := Cursor.clean_advance.1 (hts.clean hc₁)
      have hc := Cursor.clean_advance.1 hc₀
      simp only [Cursor.advance_supply] at hi
      rw [hws.last, hvs.last, List.getLastD_concat]
      have hts := hts.trans (hus.trans (hvs.trans hws))
      rw [List.append_assoc] at hts
      have hts := (hc.advance hk).trans ((hc₀.advance ho).trans hts)
      exact ⟨_, dangling, hts, .forLoop hk ho hi hcond hincr hclose hbody, hnext⟩
    · cases h
  · obtain ⟨_, hts, us, semicolon, e, rfl, hs, rfl, he⟩ := reads_expressionStatement h hc
    exact ⟨_, false, hts, .expression he hs, fun h => absurd h Bool.false_ne_true⟩

/-- **The parsers of declarations and statements read only phrases of their productions**, whatever
the fuel. -/
theorem readsStatements (n : Nat) : ReadsStatements n := by
  induction n with
  | zero =>
      constructor
      all_goals
        intros
        first
        | rename_i h _
          cases h
        | intro _ _ _ h
          cases h
  | succ n ih =>
      exact ⟨reads_declaration ih, reads_wholeDeclaration ih, reads_methods ih, reads_routine ih,
        reads_blockBody ih, reads_declarations ih, reads_statement ih⟩

end Statements

end Parser

namespace Program

theorem ofTokens_finish (ts : List Token) (supply : Supply) :
    (Cursor.ofTokens ts supply).finish.kind = .endOfSource := by
  unfold Cursor.ofTokens Cursor.finishOf
  dsimp only
  split
  · rename_i t ht
    have := List.find?_some ht
    simpa [Cursor.isInner] using this
  · split <;> rfl

/-- **What the parser accepts is a phrase**: the tokens before the first end of the source are the
declarations of the program, with the numbers and labels that were free. -/
theorem parse_phrase {ts : List Token} {supply supply' : Supply} {p : Program}
    (h : parse ts supply = (.ok p, supply')) :
    Phrase.Declarations (ts.takeWhile Cursor.isInner) supply p.declarations supply' := by
  unfold parse at h
  split at h
  · rename_i ds c hd
    split at h
    · rename_i herrors
      cases h
      -- no parser moves the end of the source, so the cursor behind the program still has it
      have hreach := (Parser.forwardStatements (fuelFor ts)).declarations false
        (Cursor.ofTokens ts supply)
      rw [hd] at hreach
      have hfinish : c.finish.kind = .endOfSource := by
        rw [hreach.finish, ofTokens_finish]
      obtain ⟨us, hus, hds, hend⟩ :=
        (Parser.readsStatements _).declarations hd ⟨hfinish, herrors⟩
      have hts : ts.takeWhile Cursor.isInner = us := by
        have := hus.ahead
        rw [hend rfl, List.append_nil] at this
        exact this
      rw [hts]
      exact hds
    · cases h
  · cases h
  · cases h

end Program

end Scriptlet
