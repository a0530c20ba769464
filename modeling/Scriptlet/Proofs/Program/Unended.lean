/-
**Statements without their semicolon.**

A statement whose semicolon is missing is read up to the place where the semicolon should be, or
into the expression that stands there instead.  Either a later semicolon ends it, or the parser
fails, and then reading goes on behind the same semicolon, or wherever it would go on from the
place of the missing one.  Nothing is reported on the way, so there is one error at most.

Main definitions:

* `Scriptlet.Cursor.Holds` — the tokens ahead of a cursor, up to the end of the source;
* `Scriptlet.Parser.Clears`, `Scriptlet.Parser.Settles`, `Scriptlet.Parser.Breaks`,
  `Scriptlet.Parser.Copes` — what can become of a parser, and how many errors that takes.

Main results:

* `Scriptlet.Parser.expression_fails` — where no expression begins, the parser fails at once;
* `Scriptlet.Parser.expression_halts_between` — **where the parser stops that reads an expression
  with another one behind it**;
* `Scriptlet.Parser.copes_semicolon` — **a semicolon that is expected there is found, or reading
  goes on at the same place**;
* `Scriptlet.Parser.expressionStatement_copes`, `Scriptlet.Parser.printStatement_copes`,
  `Scriptlet.Parser.returnStatement_copes`, `Scriptlet.Parser.variableDeclaration_copes` — the four
  phrases that end in a semicolon, without it;
* `Scriptlet.Parser.forLoop_breaks` — the header of a `for` loop without its second semicolon.
-/

import Scriptlet.Proofs.Program.Fusion
import Scriptlet.Proofs.Program.Omission

set_option relaxedAutoImplicit false
set_option autoImplicit false

namespace Scriptlet

/-! ### The tokens of a cursor -/

/-- The tokens ahead of a cursor, up to the end of the source. -/
structure Cursor.Holds (c : Cursor) (ts : List Token) : Prop where
  ahead : c.ahead = ts
  finish : c.finish.kind = .endOfSource

namespace Cursor

variable {c c' : Cursor} {ts us : List Token} {t : Token}

theorem Holds.next_kind (h : c.Holds ts) : c.next.kind = headKind ts := by
  rw [next_eq, h.ahead]
  cases ts with
  | nil => exact h.finish
  | cons t ts => rfl

theorem Holds.next (h : c.Holds (t :: ts)) : c.next = t := by
  rw [next_eq, h.ahead, List.headD_cons]

theorem Passes.length (hp : c.Passes ts c') : c.ahead.length = ts.length + c'.ahead.length := by
  rw [hp.ahead, List.length_append]

theorem Holds.passes (h : c.Holds (ts ++ us)) (hp : c.Passes ts c') : c'.Holds us :=
  ⟨List.append_cancel_left (hp.ahead.symm.trans h.ahead), by rw [hp.finish, h.finish]⟩

theorem Holds.faces {Follow : TokenKind → Prop} (h : c.Holds (ts ++ us))
    (hf : Follow (headKind us)) : c.Faces ts Follow := by
  refine ⟨us, h.ahead, ?_⟩
  cases us with
  | nil => rwa [List.headD_nil, h.finish]
  | cons t us => exact hf

theorem Holds.advance (h : c.Holds (t :: ts)) : c.Passes [t] c.advance := by
  have hfaces : c.Faces [t] fun _ => True := ⟨ts, h.ahead, trivial⟩
  exact hfaces.advance

theorem Holds.tail (h : c.Holds (t :: ts)) : c.advance.Holds ts :=
  Holds.passes h h.advance

theorem Holds.length (h : c.Holds ts) : c.ahead.length = ts.length := by rw [h.ahead]

theorem Holds.tail_length (h : c.Holds (t :: ts)) :
    c.ahead.length = c.advance.ahead.length + 1 := by
  rw [h.length, h.tail.length, List.length_cons]

theorem Holds.synchronize (h : c.Holds ts) : c.synchronize.Holds (resumption ts) :=
  ⟨by rw [synchronize_resumption, h.ahead], by rw [synchronize_finish, h.finish]⟩

end Cursor

namespace Parser

variable {α β : Type} {n : Nat} {c c₁ c' : Cursor} {ts us vs : List Token}

/-! ### What can become of a parser -/

/-- A parser answers in front of the tokens and reports nothing. -/
def Clears (p : Parser α) (c : Cursor) (us : List Token) : Prop :=
  ∃ a c', p c = .done a c' ∧ c'.Holds us ∧ c'.errors = c.errors

/-- A parser answers in front of the tokens and reports one error at most. -/
def Settles (p : Parser α) (c : Cursor) (us : List Token) : Prop :=
  ∃ a c', p c = .done a c' ∧ c'.Holds us ∧ c'.errors.length ≤ c.errors.length + 1

/-- A parser fails, it has reported nothing, and reading goes on in front of the tokens. -/
def Breaks (p : Parser α) (c : Cursor) (us : List Token) : Prop :=
  ∃ e c', p c = .failed e c' ∧ c'.synchronize.Holds us ∧ c'.errors = c.errors

theorem Finds.clears {p : Parser α} {Follow : TokenKind → Prop} {Tree : α → Prop}
    (h : Finds p ts Follow Tree) (hc : c.Holds (ts ++ us)) (hf : Follow (headKind us)) :
    Clears p c us := by
  obtain ⟨a, c', run, hp, -⟩ := h (hc.faces hf)
  exact ⟨a, c', run, hc.passes hp, hp.errors⟩

theorem Clears.bind {p : Parser α} {f : α → Parser β} (h : Clears p c us)
    (hf : ∀ a c', c'.Holds us → Clears (f a) c' vs) : Clears (p >>= f) c vs := by
  obtain ⟨a, c₁, run, hc₁, he⟩ := h
  obtain ⟨b, c₂, run₂, hc₂, he₂⟩ := hf a c₁ hc₁
  exact ⟨b, c₂, by rw [bind_of_done run, run₂], hc₂, he₂.trans he⟩

/-- An error in the first part, and none in the second. -/
theorem Settles.bind {p : Parser α} {f : α → Parser β} (h : Settles p c us)
    (hf : ∀ a c', c'.Holds us → Clears (f a) c' vs) : Settles (p >>= f) c vs := by
  obtain ⟨a, c₁, run, hc₁, he⟩ := h
  obtain ⟨b, c₂, run₂, hc₂, he₂⟩ := hf a c₁ hc₁
  exact ⟨b, c₂, by rw [bind_of_done run, run₂], hc₂, by rw [he₂]; exact he⟩

theorem Breaks.bind {p : Parser α} {f : α → Parser β} (h : Breaks p c us) :
    Breaks (p >>= f) c us := by
  obtain ⟨e, c', run, hc', he⟩ := h
  exact ⟨e, c', bind_of_failed run, hc', he⟩

theorem Settles.of_passes {p q : Parser α} (hp : c.Passes ts c₁) (hrun : p c = q c₁)
    (h : Settles q c₁ us) : Settles p c us := by
  obtain ⟨a, c', run, hc', he⟩ := h
  exact ⟨a, c', hrun.trans run, hc', by rw [← hp.errors]; exact he⟩

theorem Breaks.of_passes {p q : Parser α} (hp : c.Passes ts c₁) (hrun : p c = q c₁)
    (h : Breaks q c₁ us) : Breaks p c us := by
  obtain ⟨e, c', run, hc', he⟩ := h
  exact ⟨e, c', hrun.trans run, hc', he.trans hp.errors⟩

/-- A parser either answers with one error at most, or it breaks off in front of the end of its
phrase. -/
def Copes (p : Parser α) (c : Cursor) (left us : List Token) : Prop :=
  Settles p c us ∨ left = [] ∧ Breaks p c us

theorem Copes.bind {p : Parser α} {f : α → Parser β} {left : List Token} (h : Copes p c left us)
    (hf : ∀ a c', c'.Holds us → Clears (f a) c' us) : Copes (p >>= f) c left us :=
  h.imp (·.bind hf) fun ⟨hleft, h⟩ => ⟨hleft, h.bind⟩

theorem Copes.of_passes {p q : Parser α} {left : List Token} (hp : c.Passes ts c₁)
    (hrun : p c = q c₁) (h : Copes q c₁ left us) : Copes p c left us :=
  h.imp (·.of_passes hp hrun) fun ⟨hleft, h⟩ => ⟨hleft, h.of_passes hp hrun⟩

/-! ### Where no expression begins -/

theorem primary_fails (hc : c.next.kind.startsExpression = false) :
    primary (n + 1) c = .failed ⟨.expectedExpression, c.next⟩ c := by
  rw [primary, peek_bind]
  generalize c.next = t at hc ⊢
  generalize t.kind = kind at hc ⊢
  cases kind <;> first | rfl | cases hc

theorem unary_fails (hc : c.next.kind.startsExpression = false) :
    unary (n + 2) c = .failed ⟨.expectedExpression, c.next⟩ c := by
  have hno : UnaryOp.ofKind? c.next.kind = none := by
    generalize c.next.kind = kind at hc
    cases kind <;> first | rfl | cases hc
  rw [unary, peek_bind]
  simp only [hno]
  exact bind_of_failed (primary_fails hc)

theorem operand_fails {level : Option Level} (hc : c.next.kind.startsExpression = false)
    (hn : looseness level + 3 ≤ n) :
    operand n level c = .failed ⟨.expectedExpression, c.next⟩ c := by
  induction n generalizing level with
  | zero => omega
  | succ n ih =>
      cases level with
      | none =>
          obtain ⟨n, rfl⟩ : ∃ m, n = m + 2 := ⟨n - 2, by omega⟩
          rw [operand]
          exact unary_fails hc
      | some level =>
          have hl := looseness_tighter level
          rw [operand]
          exact bind_of_failed (ih (by omega))

/-- **Where no expression begins, the parser fails at once.** -/
theorem expression_fails (hc : c.next.kind.startsExpression = false) (hn : 11 ≤ n) :
    expression n c = .failed ⟨.expectedExpression, c.next⟩ c := by
  obtain ⟨n, rfl⟩ : ∃ m, n = m + 2 := ⟨n - 2, by omega⟩
  have hoperand : operand n (some .disjunction) c = _ :=
    operand_fails hc (by simp only [looseness]; omega)
  rw [expression]
  refine bind_of_failed ?_
  rw [assignment]
  exact bind_of_failed hoperand

/-! ### Statements without their semicolon -/

/-- The kinds that stand in no expression end every expression. -/
theorem endsExpression_structural {kind : TokenKind} (h : kind.isStructural = true) :
    EndsExpression kind := by
  cases kind <;> cases h <;>
    exact ⟨⟨⟨by decide, by decide, fun l _ => by cases l <;> rfl⟩, by decide⟩, by decide⟩

/-- The kinds that only begin an expression end the one in front of it. -/
theorem endsExpression_start {kind : TokenKind} (h : kind.startsExpression = true)
    (ha : ¬Grammar.Ambiguous kind) : EndsExpression kind := by
  have hcall : kind ≠ .leftParen := fun hk => ha (.inl hk)
  have hminus : kind ≠ .minus := fun hk => ha (.inr hk)
  cases kind <;> cases h <;> first
    | exact absurd rfl hcall
    | exact absurd rfl hminus
    | exact ⟨⟨⟨by decide, by decide, fun l _ => by cases l <;> rfl⟩, by decide⟩, by decide⟩

section Simple

variable {behind : List Token} {e : Expr} {place : Place}

/-- A seam begins neither with a semicolon nor with an equals sign. -/
theorem seam_head (hseam : Grammar.Seam behind) :
    headKind behind ≠ .semicolon ∧ headKind behind ≠ .equal := by
  cases hseam with
  | expression h _ =>
      obtain ⟨t, ts, rfl, ht⟩ := h.starts
      rw [List.cons_append, headKind]
      constructor <;> intro hk <;> rw [hk] at ht <;> cases ht
  | boundary h => constructor <;> intro hk <;> rw [hk] at h <;> cases h

/-- Of two expressions, or one of them, the first is read to a place in front of the end of both
that nothing but a part of the second stands behind. -/
theorem expression_halts_between {x y : Option Expr} {last : Token} (h : Grammar.Optional ts x)
    (h' : Grammar.Optional us y) (hlast : EndsExpression last.kind)
    (hno : last.kind.startsExpression = false) (hc : c.Holds (ts ++ (us ++ last :: vs)))
    (hn : 20 * c.ahead.length + 11 ≤ n) :
    Halts (expression n) c fun ws => ∃ zs, Grammar.Plainly zs ∧ ws = zs ++ last :: vs := by
  simp only [hc.length, List.length_append, List.length_cons] at hn
  cases h with
  | none =>
      rw [List.nil_append] at hc
      cases h' with
      | none =>
          have hfails := expression_fails (n := n) (c := c) (by rw [hc.next]; exact hno) (by omega)
          exact ⟨c, .inr ⟨_, hfails⟩, ⟨[], Grammar.plainly_nil, hc.ahead⟩, rfl, rfl⟩
      | some h' =>
          obtain ⟨a, c', run, hp, -⟩ :=
            (findsExpressions n).expression h' (by omega) (hc.faces hlast)
          exact halts_of_passes hc.ahead hp (.inl ⟨a, run⟩) ⟨[], Grammar.plainly_nil, rfl⟩
  | some h =>
      have hplain (hends : EndsExpression (headKind (us ++ last :: vs)))
          (hus : Grammar.Plainly us) :
          Halts (expression n) c fun ws => ∃ zs, Grammar.Plainly zs ∧ ws = zs ++ last :: vs := by
        obtain ⟨a, c', run, hp, -⟩ := (findsExpressions n).expression h (by omega) (hc.faces hends)
        exact halts_of_passes hc.ahead hp (.inl ⟨a, run⟩) ⟨us, hus, rfl⟩
      cases h' with
      | none => exact hplain hlast Grammar.plainly_nil
      | some h' =>
          by_cases hstart : Starts Grammar.Ambiguous us
          · exact expression_fused h h' hstart hlast hc.ahead
              (by rw [List.length_append]; omega)
          · have hus := h'.not_structural
            obtain ⟨t, us, rfl, ht⟩ := h'.starts
            exact hplain (endsExpression_start ht fun ha => hstart ⟨t, us, rfl, ha⟩) hus

/-- An expression in front of a seam, or one that is missing there, is read to a place from which
reading goes on where it would go on from the seam. -/
theorem expression_halts {value : Option Expr} (h : Grammar.Optional ts value)
    (hseam : Grammar.Seam behind) (hc : c.Holds (ts ++ behind))
    (hn : 20 * c.ahead.length + 11 ≤ n) :
    Halts (expression n) c fun vs => Cursor.resumption vs = Cursor.resumption behind := by
  cases hseam with
  | @expression us ws semicolon x h' hs =>
      have hends : EndsExpression semicolon.kind := by
        rw [hs]
        exact endsExpression_semicolon
      obtain ⟨c', hreach, ⟨zs, hzs, hahead⟩, hfinish, herrors⟩ :=
        expression_halts_between h (.some h') hends (by rw [hs]; rfl) hc hn
      refine ⟨c', hreach, ?_, hfinish, herrors⟩
      dsimp only
      rw [hahead, Cursor.resumption_semicolon hzs hs,
        Cursor.resumption_semicolon h'.not_structural hs]
  | boundary hb =>
      cases h with
      | none =>
          rw [List.nil_append] at hc
          have hno : c.next.kind.startsExpression = false := by
            rw [hc.next_kind]
            generalize headKind behind = kind at hb
            cases kind <;> first | rfl | cases hb
          exact ⟨c, .inr ⟨_, expression_fails hno (by omega)⟩, by rw [hc.ahead], rfl, rfl⟩
      | some h =>
          rw [hc.length, List.length_append] at hn
          obtain ⟨a, c', run, hp, -⟩ := (findsExpressions n).expression h (by omega)
            (hc.faces (endsExpression_structural (structural_of_boundary hb)))
          exact halts_of_passes hc.ahead hp (.inl ⟨a, run⟩) rfl

/-- A semicolon that is expected there is found, or reading goes on at the same place. -/
theorem copes_semicolon {q : Parser α} {k : α → Span → Parser β}
    (h : Halts q c fun vs => Cursor.resumption vs = us) (hc : c.finish.kind = .endOfSource)
    (hk : ∀ a s c', ∃ b, k a s c' = .done b c') :
    Copes (q >>= fun a => expect .semicolon place >>= k a) c [] us := by
  obtain ⟨c₁, hreach, hahead, hfinish, herrors⟩ := h
  have hc₁ : c₁.Holds c₁.ahead := ⟨rfl, by rw [hfinish, hc]⟩
  have hbreak : c₁.synchronize.Holds us := by
    rw [← hahead]
    exact hc₁.synchronize
  rcases hreach with ⟨a, run⟩ | ⟨e, run⟩
  · by_cases hs : c₁.next.kind = .semicolon
    · obtain ⟨b, run₂⟩ := hk a c₁.next.span c₁.advance
      refine .inl ⟨b, c₁.advance, ?_, ?_, ?_⟩
      · rw [bind_of_done run, expect_bind, if_pos hs, run₂]
      · cases hts : c₁.ahead with
        | nil =>
            rw [hts] at hc₁
            rw [hc₁.next_kind] at hs
            cases hs
        | cons t ts =>
            rw [hts] at hc₁ hahead
            rw [hc₁.next] at hs
            rw [← hahead, Cursor.resumption, Cursor.settle_semicolon hs]
            exact hc₁.tail
      · rw [Cursor.advance_errors, herrors]
        omega
    · refine .inr ⟨rfl, ⟨.expectedToken .semicolon place, c₁.next⟩, c₁, ?_, hbreak, herrors⟩
      rw [bind_of_done run, expect_bind, if_neg hs]
  · exact .inr ⟨rfl, e, c₁, bind_of_failed run, hbreak, herrors⟩

theorem expressionStatement_copes (h : Grammar.Expression ts e) (hseam : Grammar.Seam behind)
    (hc : c.Holds (ts ++ behind)) (hn : 20 * c.ahead.length + 11 ≤ n) :
    Copes (expressionStatement n) c [] (Cursor.resumption behind) :=
  copes_semicolon (expression_halts (.some h) hseam hc hn) hc.finish fun _ _ _ => ⟨_, rfl⟩

theorem printStatement_copes {keyword : Token} (h : Grammar.Expression ts e)
    (hseam : Grammar.Seam behind) (hc : c.Holds (keyword :: (ts ++ behind)))
    (hn : 20 * c.ahead.length + 11 ≤ n) :
    Copes (printStatement n) c [] (Cursor.resumption behind) := by
  have hrun : printStatement n c = (expression n >>= fun x => expect .semicolon .afterPrinted >>=
      fun _ => spanFrom c.next.span >>= fun span => pure (.print x span)) c.advance := rfl
  have hlength := hc.tail_length
  exact .of_passes hc.advance hrun
    (copes_semicolon (expression_halts (.some h) hseam hc.tail (by omega)) hc.tail.finish
      fun _ _ _ => ⟨_, rfl⟩)

theorem returnStatement_copes {keyword : Token} {value : Option Expr}
    (h : Grammar.Optional ts value) (hseam : Grammar.Seam behind)
    (hc : c.Holds (keyword :: (ts ++ behind)))
    (hn : 20 * c.ahead.length + 11 ≤ n) :
    Copes (returnStatement n) c [] (Cursor.resumption behind) := by
  have hlength := hc.tail_length
  have hhalts := expression_halts (n := n) h hseam hc.tail (by omega)
  -- the value is left out only in front of a semicolon, and no semicolon is there
  have hno : (c.advance.next.kind == .semicolon) = false := by
    rw [hc.tail.next_kind]
    refine beq_false_of_ne ?_
    cases h with
    | none => exact (seam_head hseam).1
    | some h =>
        obtain ⟨t, us, rfl, ht⟩ := h.starts
        intro hk
        rw [List.cons_append, headKind] at hk
        rw [hk] at ht
        cases ht
  have hrun : returnStatement n c = (expression n >>= fun x => expect .semicolon .afterReturned >>=
      fun _ => spanFrom c.next.span >>= fun span =>
        pure (.ret c.next.span (some x) span)) c.advance := by
    rw [returnStatement, advance_bind, check_bind, hno]
    rfl
  exact .of_passes hc.advance hrun
    (copes_semicolon hhalts hc.tail.finish fun _ _ _ => ⟨_, rfl⟩)

theorem variableDeclaration_copes {keyword name : Token} {initializer : Option Expr}
    (hname : name.kind = .identifier) (h : Grammar.Initializer ts initializer)
    (hseam : Grammar.Seam behind) (hc : c.Holds (keyword :: name :: (ts ++ behind)))
    (hn : 20 * c.ahead.length + 11 ≤ n) :
    Copes (variableDeclaration n) c [] (Cursor.resumption behind) := by
  have hlength := hc.tail_length
  have hlength₁ := hc.tail.tail_length
  have hc₂ := hc.tail.tail
  have hp : c.Passes [keyword, name] c.advance.advance := hc.advance.trans hc.tail.advance
  have hnext : c.advance.next.kind = .identifier := by rw [hc.tail.next, hname]
  cases h with
  | none =>
      -- neither an equals sign nor a semicolon is there
      obtain ⟨hsemicolon, hequal⟩ := seam_head hseam
      rw [List.nil_append] at hc₂
      rw [← hc₂.next_kind] at hsemicolon hequal
      have hrun : variableDeclaration n c = .failed
          ⟨.expectedToken .semicolon .afterVariable, c.advance.advance.next⟩ c.advance.advance := by
        rw [variableDeclaration, advance_bind, expectName_bind, if_pos hnext]
        dsimp only
        rw [accept_bind, if_neg hequal, if_neg (by decide), answer_bind, expect_bind,
          if_neg hsemicolon]
      exact .inr ⟨rfl, _, _, hrun, hc₂.synchronize, hp.errors⟩
  | @some equals ts e hq he =>
      have hc₃ := hc₂.tail
      have hlength₂ := hc₂.tail_length
      have hequal : c.advance.advance.next.kind = .equal := by rw [hc₂.next, hq]
      have hrun : variableDeclaration n c = (expression n >>= fun x =>
          expect .semicolon .afterVariable >>= fun _ => spanFrom c.next.span >>= fun span =>
            pure (.varDecl c.advance.next.lexeme c.advance.next.span (some x) span))
              c.advance.advance.advance := by
        rw [variableDeclaration, advance_bind, expectName_bind, if_pos hnext]
        dsimp only
        rw [accept_bind, if_pos hequal, if_pos rfl]
        rfl
      exact .of_passes (hp.trans hc₂.advance) hrun
        (copes_semicolon (expression_halts (.some he) hseam hc₃ (by omega)) hc₃.finish
          fun _ _ _ => ⟨_, rfl⟩)

end Simple

/-! ### The header of a loop without its second semicolon -/

/-- **Behind a condition without its semicolon the parser fails**, wherever it stops in front of the
parenthesis that closes the header. -/
theorem loopCondition_breaks {e : Expr} {increment : Option Expr} {closing : Token}
    (h : Grammar.LoopCondition ts e) (h' : Grammar.Optional us increment)
    (hclose : closing.kind = .rightParen) (hc : c.Holds (ts ++ (us ++ closing :: vs)))
    (hn : 20 * c.ahead.length + 11 ≤ n) :
    Breaks (loopCondition n) c (Cursor.resumption (us ++ closing :: vs)) := by
  obtain ⟨x, h⟩ := h.optional
  have hstatement : closing.kind.startsStatement = false := by rw [hclose]; rfl
  have hends : EndsExpression closing.kind := by
    rw [hclose]
    exact endsExpression_rightParen
  obtain ⟨c₁, hreach, ⟨zs, hzs, hahead⟩, hfinish, herrors⟩ :=
    expression_halts_between h h' hends (by rw [hclose]; rfl) hc hn
  -- neither where the condition begins nor where the parser stops is a semicolon
  have hne {ts : List Token} (hts : Grammar.Plainly ts) :
      headKind (ts ++ closing :: vs) ≠ .semicolon := by
    cases ts with
    | nil => rw [List.nil_append, headKind, hclose]; decide
    | cons t ts => exact (Cursor.ne_of_not_structural (hts t List.mem_cons_self)).1
  have hstart : (c.next.kind == .semicolon) = false := by
    rw [hc.next_kind, ← List.append_assoc]
    exact beq_false_of_ne (hne (h.not_structural.append h'.not_structural))
  have hc₁ : c₁.Holds (zs ++ closing :: vs) := ⟨hahead, by rw [hfinish, hc.finish]⟩
  have hstop := hne hzs
  rw [← hc₁.next_kind] at hstop
  have hbreak := hc₁.synchronize
  rw [Cursor.resumption_plainly hzs hstatement,
    ← Cursor.resumption_plainly h'.not_structural hstatement] at hbreak
  have hrun : loopCondition n c = (expression n >>= fun x =>
      expect .semicolon .afterLoopCondition >>= fun _ => pure x) c := by
    rw [loopCondition, check_bind, hstart]
    rfl
  rcases hreach with ⟨a, run⟩ | ⟨e, run⟩
  · refine ⟨⟨.expectedToken .semicolon .afterLoopCondition, c₁.next⟩, c₁, ?_, hbreak, herrors⟩
    rw [hrun, bind_of_done run, expect_bind, if_neg hstop]
  · exact ⟨e, c₁, hrun.trans (bind_of_failed run), hbreak, herrors⟩

/-- A `for` loop without its second semicolon is read up to there. -/
theorem forLoop_breaks {keyword opening closing : Token} {xs ys : List Token}
    {initializer : Option Decl} {condition : Expr} {increment : Option Expr}
    (hk : keyword.kind = .forWord) (ho : opening.kind = .leftParen)
    (hi : Grammar.LoopInitializer xs initializer) (hcond : Grammar.LoopCondition ys condition)
    (hincr : Grammar.Optional us increment) (hclose : closing.kind = .rightParen)
    (hc : c.Holds (keyword :: opening :: (xs ++ (ys ++ (us ++ closing :: vs)))))
    (hn : 20 * c.ahead.length + 11 ≤ n) :
    Breaks (statement (n + 1)) c (Cursor.resumption (us ++ closing :: vs)) := by
  have hlength := hc.length
  simp only [List.length_cons, List.length_append] at hlength
  obtain ⟨i, c₁, run, hp, -⟩ := finds_loopInitializer (n := n) hi (by omega)
    (hc.tail.tail.faces trivial)
  have hpass := hc.advance.trans (hc.tail.advance.trans hp)
  have hlength₁ := hpass.length
  have hrun : statement (n + 1) c = (loopCondition n >>= fun condition =>
      loopIncrement n >>= fun increment => statement n >>= fun body => spanFrom keyword.span >>=
        fun span => pure (forLoop i condition increment body span)) c₁ := by
    rw [statement, peek_bind, hc.next]
    simp only [hk]
    rw [advance_bind, expect_bind, hc.tail.next, if_pos ho, bind_of_done run]
  exact .of_passes hpass hrun
    (loopCondition_breaks hcond hincr hclose (hc.tail.tail.passes hp) (by omega)).bind

end Parser

end Scriptlet
