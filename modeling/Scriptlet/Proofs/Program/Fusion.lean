/-
**Two expressions with nothing between them.**

Where an expression is followed at once by another one, the parser may read into the second: a
parenthesis is then taken for the arguments of a call, and a minus for an operator between two
operands.  The two phrases of operators make a longer phrase, an assignment at the end of the first
goes on into the second, and a choice at the end of the second belongs to what stands before it.
So the parser reads the second expression to its end, or stops inside of it at a place that it
knows: behind an assignment whose target is wrong, or in front of a second choice.

Main definitions:

* `Scriptlet.Grammar.Extends`, `Scriptlet.Grammar.Sequel` — what makes a phrase of operators longer;
* `Scriptlet.Grammar.Equated` — phrases of operators with equals signs between them;
* `Scriptlet.Parser.Reaches` — a parser goes as far as a cursor, with or without an error.

Main results:

* `Scriptlet.Grammar.Operand.fuse`, `Scriptlet.Grammar.Equated.fuse` — **two phrases make one**, if
  the second begins with a parenthesis or a minus;
* `Scriptlet.Parser.assignment_reaches` — phrases with equals signs between them are read to the
  end, with an error if a target is wrong;
* `Scriptlet.Parser.expression_fused` — **where the parser stops in the second expression**.
-/

import Mathlib
import Scriptlet.Proofs.Program.Edges

set_option relaxedAutoImplicit false
set_option autoImplicit false

namespace Scriptlet

namespace Grammar

/-! ### Induction over one production -/

/-- Induction over the operators that stand behind an operand. -/
theorem Joins.induct {level : Level} {motive : ∀ left ts e, Joins level left ts e → Prop}
    (nil : ∀ left, motive left [] left .nil)
    (cons : ∀ {tighter join operator ts us left right e} (ho : Operator level operator.kind join)
      (ht : Operands level tighter) (h : Operand tighter ts right)
      (hs : Joins level (join.expr default left default right) us e), motive _ us e hs →
      motive left (operator :: (ts ++ us)) e (.cons ho ht h hs))
    {left : Expr} {ts : List Token} {e : Expr} (h : Joins level left ts e) :
    motive left ts e h := by
  induction hlength : ts.length using Nat.strong_induction_on generalizing left ts with
  | _ n ih =>
      cases h with
      | nil => exact nil _
      | cons ho ht h hs => exact cons ho ht h hs (ih _ (by grind) hs rfl)

/-- Induction over the calls and properties that stand behind an operand. -/
theorem Suffixes.induct {motive : ∀ callee ts e, Suffixes callee ts e → Prop}
    (nil : ∀ callee, motive callee [] callee .nil)
    (call : ∀ {opening closing ts us callee arguments e} (ho : opening.kind = .leftParen)
      (ha : ArgumentList ts arguments) (hc : closing.kind = .rightParen)
      (hs : Suffixes (.call default callee arguments default) us e), motive _ us e hs →
      motive callee (opening :: (ts ++ closing :: us)) e (.call ho ha hc hs))
    (property : ∀ {dot name us callee e} (hd : dot.kind = .dot) (hn : name.kind = .identifier)
      (hs : Suffixes (.get default callee name.lexeme) us e), motive _ us e hs →
      motive callee (dot :: name :: us) e (.property hd hn hs))
    {callee : Expr} {ts : List Token} {e : Expr} (h : Suffixes callee ts e) :
    motive callee ts e h := by
  induction hlength : ts.length using Nat.strong_induction_on generalizing callee ts with
  | _ n ih =>
      cases h with
      | nil => exact nil _
      | call ho ha hc hs => exact call ho ha hc hs (ih _ (by grind) hs rfl)
      | property hd hn hs => exact property hd hn hs (ih _ (by grind) hs rfl)

/-! ### Longer phrases of operators -/

/-- The tokens make every phrase of the level longer that they are put behind. -/
def Extends (level : Option Level) (zs : List Token) : Prop :=
  ∀ ⦃ts : List Token⦄ ⦃e : Expr⦄, Operand level ts e → ∃ e', Operand level (ts ++ zs) e'

/-- Calls and properties, whatever they stand behind. -/
def AnySuffixes (zs : List Token) : Prop := ∀ callee, ∃ e, Suffixes callee zs e

theorem Suffixes.any {callee e : Expr} {ts : List Token} (h : Suffixes callee ts e) :
    AnySuffixes ts := by
  induction h using Suffixes.induct with
  | nil => exact fun callee' => ⟨callee', .nil⟩
  | call ho ha hc _ ih =>
      intro callee'
      obtain ⟨e', hs'⟩ := ih (.call default callee' _ default)
      exact ⟨e', .call ho ha hc hs'⟩
  | property hd hn _ ih =>
      intro callee'
      obtain ⟨e', hs'⟩ := ih (.get default callee' _)
      exact ⟨e', .property hd hn hs'⟩

theorem Suffixes.append {callee e e' : Expr} {ts us : List Token} (h : Suffixes callee ts e)
    (h' : Suffixes e us e') : Suffixes callee (ts ++ us) e' := by
  induction h using Suffixes.induct with
  | nil => exact h'
  | call ho ha hc _ ih =>
      rw [List.cons_append, List.append_assoc]
      exact .call ho ha hc (ih h')
  | property hd hn _ ih => exact .property hd hn (ih h')

/-- Behind operators in front, the suffixes go to the operand. -/
theorem Unary.extend {ts zs : List Token} (hz : AnySuffixes zs) : ∀ {e : Expr}, Unary ts e →
    ∃ e', Unary (ts ++ zs) e' := by
  intro e h
  cases h with
  | not ho h =>
      obtain ⟨e', h'⟩ := Unary.extend hz h
      exact ⟨_, .not ho h'⟩
  | negate ho h =>
      obtain ⟨e', h'⟩ := Unary.extend hz h
      exact ⟨_, .negate ho h'⟩
  | call h hs =>
      obtain ⟨e', hs'⟩ := hz e
      have hmore := Unary.call h (hs.append hs')
      rw [← List.append_assoc] at hmore
      exact ⟨e', hmore⟩
termination_by ts.length
decreasing_by all_goals grind

theorem extends_suffixes {zs : List Token} (hz : AnySuffixes zs) : Extends none zs := by
  intro ts e h
  cases h with
  | unary h =>
      obtain ⟨e', h'⟩ := h.extend hz
      exact ⟨e', .unary h'⟩

/-- Operators may stand behind another operand. -/
theorem Joins.any {level : Level} {left e : Expr} {ts : List Token} (h : Joins level left ts e)
    (left' : Expr) : ∃ e', Joins level left' ts e' := by
  induction h using Joins.induct generalizing left' with
  | nil => exact ⟨left', .nil⟩
  | cons ho ht h _ ih =>
      obtain ⟨e', hs'⟩ := ih _
      exact ⟨e', .cons ho ht h hs'⟩

theorem Joins.one {level : Level} {tighter : Option Level} {join : Join} {operator : Token}
    {left right : Expr} {ts : List Token} (ho : Operator level operator.kind join)
    (ht : Operands level tighter) (h : Operand tighter ts right) :
    ∃ e, Joins level left (operator :: ts) e := by
  have hone : Joins level left _ _ := .cons ho ht h .nil
  rw [List.append_nil] at hone
  exact ⟨_, hone⟩

/-- One operator more, with its operand. -/
theorem Joins.snoc {level : Level} {tighter : Option Level} {join : Join} {operator : Token}
    {left e right : Expr} {ts us : List Token} (hs : Joins level left ts e)
    (ho : Operator level operator.kind join) (ht : Operands level tighter)
    (h : Operand tighter us right) : ∃ e', Joins level left (ts ++ operator :: us) e' := by
  induction hs using Joins.induct with
  | nil => exact Joins.one ho ht h
  | cons ho' ht' h' _ ih =>
      obtain ⟨e', hs'⟩ := ih
      have hmore := Joins.cons ho' ht' h' hs'
      rw [← List.append_assoc, ← List.cons_append] at hmore
      exact ⟨e', hmore⟩

/-- What makes an operand longer makes the last one longer. -/
theorem Joins.extend {level : Level} {tighter : Option Level} {left e : Expr} {ts zs : List Token}
    (hs : Joins level left ts e) (ht : Operands level tighter) (hz : Extends tighter zs) :
    ts = [] ∨ ∃ e', Joins level left (ts ++ zs) e' := by
  induction hs using Joins.induct with
  | nil => exact .inl rfl
  | cons ho ht' h _ ih =>
      obtain rfl : _ = tighter := (operands_iff.1 ht').trans (operands_iff.1 ht).symm
      right
      rcases ih with rfl | ⟨e', hs'⟩
      · obtain ⟨r, h'⟩ := hz h
        rw [List.append_nil]
        exact Joins.one ho ht h'
      · have hmore := Joins.cons ho ht h hs'
        rw [← List.append_assoc, ← List.cons_append] at hmore
        exact ⟨e', hmore⟩

/-- What makes the operands of a level longer makes the phrases of the level longer. -/
theorem Extends.lift {level : Level} {tighter : Option Level} {zs : List Token}
    (h : Extends tighter zs) (ht : Operands level tighter) : Extends (some level) zs := by
  intro ts e hts
  cases hts with
  | @level _ _ ts us left e ht' hleft hjoins =>
      obtain rfl : _ = tighter := (operands_iff.1 ht').trans (operands_iff.1 ht).symm
      rcases hjoins.extend ht h with rfl | ⟨e', hjoins'⟩
      · obtain ⟨left', hleft'⟩ := h hleft
        obtain ⟨e', hjoins'⟩ := hjoins.any left'
        have hlonger := Operand.level ht hleft' hjoins'
        rw [List.append_nil] at hlonger ⊢
        exact ⟨e', hlonger⟩
      · have hlonger := Operand.level ht hleft hjoins'
        rw [← List.append_assoc] at hlonger
        exact ⟨e', hlonger⟩

/-- What makes the phrases of any level longer makes those of the loosest longer. -/
theorem Extends.disjunction {level : Option Level} {zs : List Token} (h : Extends level zs) :
    Extends (some .disjunction) zs := by
  have fromConjunction (h : Extends (some .conjunction) zs) := h.lift .disjunction
  have fromEquality (h : Extends (some .equality) zs) := fromConjunction (h.lift .conjunction)
  have fromComparison (h : Extends (some .comparison) zs) := fromEquality (h.lift .equality)
  have fromSum (h : Extends (some .sum) zs) := fromComparison (h.lift .comparison)
  have fromProduct (h : Extends (some .product) zs) := fromSum (h.lift .sum)
  match level with
  | none => exact fromProduct (h.lift .product)
  | some .product => exact fromProduct h
  | some .sum => exact fromSum h
  | some .comparison => exact fromComparison h
  | some .equality => exact fromEquality h
  | some .conjunction => exact fromConjunction h
  | some .disjunction => exact h

/-- An operator with an operand makes a phrase of its level longer. -/
theorem extends_join {level : Level} {join : Join} {operator : Token} {us : List Token}
    {right : Expr} (ho : Operator level operator.kind join) (h : Unary us right) :
    Extends (some level) (operator :: us) := by
  intro ts e hts
  cases hts with
  | @level _ tighter ts vs left e ht hleft hjoins =>
      have hright : Operand tighter us right := by
        cases tighter with
        | none => exact .unary h
        | some tighter => exact h.operand tighter
      obtain ⟨e', hjoins'⟩ := hjoins.snoc ho ht hright
      have hlonger := Operand.level ht hleft hjoins'
      rw [← List.append_assoc] at hlonger
      exact ⟨e', hlonger⟩

/-! ### What a phrase of operators may go on with -/

/-- Calls, properties, and operators with operands. -/
inductive Sequel : List Token → Prop
  | nil : Sequel []
  | suffixes {ts us : List Token} : AnySuffixes ts → Sequel us → Sequel (ts ++ us)
  | join {level : Level} {join : Join} {operator : Token} {ts us : List Token} {e : Expr} :
      Operator level operator.kind join → Unary ts e → Sequel us → Sequel (operator :: (ts ++ us))

theorem Sequel.append {ts us : List Token} (h : Sequel ts) (h' : Sequel us) :
    Sequel (ts ++ us) := by
  induction h with
  | nil => exact h'
  | suffixes hz _ ih =>
      rw [List.append_assoc]
      exact .suffixes hz ih
  | join ho hu _ ih =>
      rw [List.cons_append, List.append_assoc]
      exact .join ho hu ih

theorem Sequel.extends {zs : List Token} (h : Sequel zs) : Extends (some .disjunction) zs := by
  induction h with
  | nil =>
      intro ts e hts
      rw [List.append_nil]
      exact ⟨e, hts⟩
  | suffixes hz _ ih =>
      intro ts e hts
      obtain ⟨e', hts'⟩ := (extends_suffixes hz).disjunction hts
      rw [← List.append_assoc]
      exact ih hts'
  | join ho hu _ ih =>
      intro ts e hts
      obtain ⟨e', hts'⟩ := (extends_join ho hu).disjunction hts
      rw [← List.cons_append, ← List.append_assoc]
      exact ih hts'

mutual

/-- An operator and the operands behind it may go on with a phrase, whatever the levels. -/
theorem Operand.sequel_behind {level : Level} {join : Join} {operator : Token}
    (ho : Operator level operator.kind join) {inner : Option Level} {ts : List Token} {e : Expr} :
    Operand inner ts e → Sequel (operator :: ts)
  | .level _ h hs => (h.sequel_behind ho).append hs.sequel
  | .unary h => by simpa using Sequel.join ho h .nil

theorem Joins.sequel {level : Level} {left e : Expr} {ts : List Token} :
    Joins level left ts e → Sequel ts
  | .nil => .nil
  | .cons ho _ h hs => (h.sequel_behind ho).append hs.sequel

end

/-- The kinds that begin an expression, but may also go on with one. -/
abbrev Ambiguous (kind : TokenKind) : Prop := kind = .leftParen ∨ kind = .minus

@[simp] theorem starts_cons {First : TokenKind → Prop} {t : Token} {ts : List Token} :
    Starts First (t :: ts) ↔ First t.kind := by
  constructor
  · rintro ⟨_, _, h, ht⟩
    cases h
    exact ht
  · exact fun ht => ⟨t, ts, rfl, ht⟩

/-- The parenthesis makes a call with one argument. -/
theorem Primary.sequel {ts : List Token} {e : Expr} (h : Primary ts e)
    (hstart : Starts Ambiguous ts) : Sequel ts := by
  cases h with
  | grouping ho h hc =>
      have hcall : AnySuffixes _ := fun _ =>
        ⟨_, .call ho (.some (.last h) (Nat.le_add_left 1 254)) hc .nil⟩
      simpa using Sequel.suffixes hcall .nil
  | number hk _ => rcases hk with hk | hk <;> simp [Ambiguous, hk] at hstart
  | string hk _ => rcases hk with hk | hk <;> simp [Ambiguous, hk] at hstart
  | trueWord hk => simp [Ambiguous, hk] at hstart
  | falseWord hk => simp [Ambiguous, hk] at hstart
  | nilWord hk => simp [Ambiguous, hk] at hstart
  | thisWord hk => simp [Ambiguous, hk] at hstart
  | superWord hk _ _ => simp [Ambiguous, hk] at hstart
  | name hk => simp [Ambiguous, hk] at hstart

/-- The first of two parts that follow one another begins like both. -/
theorem starts_left {First : TokenKind → Prop} {First' : TokenKind → Prop} {ts us : List Token}
    (h : Starts First (ts ++ us)) (hts : Starts First' ts) : Starts First ts := by
  obtain ⟨t, vs, rfl, -⟩ := hts
  rw [List.cons_append, starts_cons] at h
  exact starts_cons.2 h

theorem Unary.sequel {ts : List Token} {e : Expr} (h : Unary ts e)
    (hstart : Starts Ambiguous ts) : Sequel ts := by
  cases h with
  | not ho _ => simp [Ambiguous, ho] at hstart
  | negate ho h =>
      have hjoin : Operator .sum _ _ := ho ▸ Operator.subtract
      simpa using Sequel.join hjoin h .nil
  | call h hs =>
      refine (h.sequel (starts_left hstart h.starts)).append ?_
      simpa using Sequel.suffixes hs.any .nil

/-- A phrase that begins with a parenthesis or a minus may go on with another one. -/
theorem Operand.sequel {level : Option Level} {ts : List Token} {e : Expr} :
    Operand level ts e → Starts Ambiguous ts → Sequel ts
  | .level _ h hs, hstart => (h.sequel (starts_left hstart h.starts)).append hs.sequel
  | .unary h, hstart => h.sequel hstart

/-- **Two phrases of operators make one**, if the second begins with a parenthesis or a minus. -/
theorem Operand.fuse {ts us : List Token} {e e' : Expr} (h : Operand (some .disjunction) ts e)
    (h' : Operand (some .disjunction) us e') (hstart : Starts Ambiguous us) :
    ∃ x, Operand (some .disjunction) (ts ++ us) x :=
  (h'.sequel hstart).extends h

/-! ### Assignments -/

/-- Phrases of operators with equals signs between them, whatever their targets. -/
inductive Equated : List Token → Prop
  | last {ts : List Token} {e : Expr} : Operand (some .disjunction) ts e → Equated ts
  | more {ts us : List Token} {equals : Token} {e : Expr} : Operand (some .disjunction) ts e →
      equals.kind = .equal → Equated us → Equated (ts ++ equals :: us)

theorem Assignment.equated {ts : List Token} : ∀ {e : Expr}, Assignment ts e → Equated ts := by
  intro e h
  cases h with
  | plain h => exact .last h
  | name h hq he => exact .more h hq he.equated
  | property h hq he => exact .more h hq he.equated
termination_by ts.length
decreasing_by all_goals grind

theorem Equated.fuse {ts us : List Token} (h : Equated ts) (h' : Equated us)
    (hstart : Starts Ambiguous us) : Equated (ts ++ us) := by
  induction h with
  | last h =>
      cases h' with
      | last h' =>
          obtain ⟨x, hx⟩ := h.fuse h' hstart
          exact .last hx
      | more h' hq hs =>
          obtain ⟨x, hx⟩ := h.fuse h' (starts_left hstart h'.starts)
          rw [← List.append_assoc]
          exact .more hx hq hs
  | more h hq _ ih =>
      rw [List.append_assoc, List.cons_append]
      exact .more h hq ih

/-- What stands behind the first assignment of an expression: the two branches of a choice, or
nothing. -/
inductive Branches : List Token → Prop
  | none : Branches []
  | choice {ts us : List Token} {question colon : Token} {x y : Expr} :
      question.kind = .question → Assignment ts x → colon.kind = .colon → Assignment us y →
      Branches (question :: (ts ++ colon :: us))

theorem Expression.split {ts : List Token} {e : Expr} (h : Expression ts e) :
    ∃ us vs x, ts = us ++ vs ∧ Assignment us x ∧ Branches vs := by
  cases h with
  | plain h => exact ⟨ts, [], e, (List.append_nil ts).symm, h, .none⟩
  | choice h hq hx hc hy => exact ⟨_, _, _, rfl, h, .choice hq hx hc hy⟩

theorem Branches.not_structural {ts : List Token} (h : Branches ts) : Plainly ts := by
  cases h with
  | none => exact plainly_nil
  | choice hq hx hc hy =>
      exact .cons hq rfl (hx.not_structural.append (.cons hc rfl hy.not_structural))

end Grammar

namespace Parser

variable {α β : Type}

/-! ### Reading to a place -/

/-- A parser goes as far as a cursor, with or without an error. -/
def Reaches (p : Parser α) (c c' : Cursor) : Prop :=
  (∃ a, p c = .done a c') ∨ ∃ e, p c = .failed e c'

theorem bind_of_failed {p : Parser α} {f : α → Parser β} {c c' : Cursor} {e : SyntaxError}
    (h : p c = .failed e c') : (p >>= f) c = .failed e c' := by
  rw [bind_apply, h]

/-- **Phrases with equals signs between them are read to the end**, with an error if a target is
wrong. -/
theorem assignment_reaches {n : Nat} {ts : List Token} (h : Grammar.Equated ts)
    (hn : 20 * ts.length + 10 ≤ n) {c : Cursor} (hc : c.Faces ts EndsAssignment) :
    ∃ c', c.Passes ts c' ∧ Reaches (assignment n) c c' := by
  induction h generalizing n c with
  | last h =>
      obtain ⟨a, c', run, hp, -⟩ := (findsExpressions n).assignment (.plain h) hn hc
      exact ⟨c', hp, .inl ⟨a, run⟩⟩
  | @more ts us equals e h hq _ ih =>
      simp only [List.length_append, List.length_cons] at hn
      obtain ⟨n, rfl⟩ : ∃ m, n = m + 1 := ⟨n - 1, by omega⟩
      obtain ⟨x, c₁, run, hp, -⟩ := (findsExpressions n).operand h (by simp only [looseness]; omega)
        (hc.cut (by rw [hq]; exact ends_equal))
      have hc₁ := hc.passes hp
      obtain ⟨c₂, hp₂, hvalue⟩ := ih (n := n) (by omega) hc₁.tail
      have hpass := hp.trans (hc₁.advance.trans hp₂)
      unfold Reaches
      rw [assignment, bind_of_done run, peek_bind, hc₁.next, if_pos hq, advance_bind]
      rcases hvalue with ⟨v, run₂⟩ | ⟨e, run₂⟩
      · -- the value is read before the target is looked at
        rw [bind_of_done run₂]
        cases x
        case «variable» => exact ⟨c₂.numbered, hpass.numbered, .inl ⟨_, rfl⟩⟩
        case get => exact ⟨c₂.numbered, hpass.numbered, .inl ⟨_, rfl⟩⟩
        all_goals exact ⟨c₂, hpass, .inr ⟨_, rfl⟩⟩
      · exact ⟨c₂, hpass, .inr ⟨e, bind_of_failed run₂⟩⟩

/-- A parser stops, with or without an error, in front of tokens of some sort, and reports
nothing. -/
def Halts (p : Parser α) (c : Cursor) (Ahead : List Token → Prop) : Prop :=
  ∃ c', Reaches p c c' ∧ Ahead c'.ahead ∧ c'.finish = c.finish ∧ c'.errors = c.errors

theorem halts_of_passes {p : Parser α} {c c' : Cursor} {ts us : List Token}
    {Ahead : List Token → Prop} (hahead : c.ahead = ts ++ us) (hp : c.Passes ts c')
    (hr : Reaches p c c') (h : Ahead us) : Halts p c Ahead := by
  rw [hp.ahead] at hahead
  rw [← List.append_cancel_left hahead] at h
  exact ⟨c', hr, h, hp.finish, hp.errors⟩

section Fused

variable {n : Nat} {c c₁ : Cursor} {ts us ws : List Token} {last : Token} {e : Expr}

/-- Behind the first assignment, the branches of a choice are read up to their end. -/
theorem expression_branches (h : Grammar.Branches us) (hlast : EndsExpression last.kind)
    (hn : 20 * us.length + 10 ≤ n) (run : assignment n c = .done e c₁)
    (hc₁ : c₁.ahead = us ++ last :: ws) :
    ∃ c₂, c₁.Passes us c₂ ∧ Reaches (expression (n + 1)) c c₂ := by
  have hfaces : c₁.Faces us EndsExpression := ⟨last :: ws, hc₁, hlast⟩
  cases h with
  | none =>
      refine ⟨c₁, .refl c₁, .inl ⟨e, ?_⟩⟩
      rw [expression, bind_of_done run, peek_bind, if_neg hfaces.follow.choice, pure_apply]
  | @choice ts us question colon x y hq hx hcolon hy =>
      simp only [List.length_append, List.length_cons] at hn
      have hc₂ := hfaces.tail
      obtain ⟨x', c₂, run₂, hp₂, -⟩ := (findsExpressions n).assignment hx (by omega)
        (hc₂.cut (by rw [hcolon]; exact endsAssignment_colon))
      have hc₃ := hc₂.passes hp₂
      obtain ⟨y', c₃, run₃, hp₃, -⟩ := (findsExpressions n).assignment hy (by omega)
        (hc₃.tail.mono fun _ h => h.assignment)
      refine ⟨c₃.numbered, ?_, .inl ⟨.ternary ⟨c₃.supply.expr, e.span.through y'.span⟩ e
        question.span x' y', ?_⟩⟩
      · exact (hfaces.advance.trans (hp₂.trans (hc₃.advance.trans hp₃))).numbered
      · rw [expression, bind_of_done run, peek_bind, hfaces.next, if_pos hq, advance_bind,
          bind_of_done run₂, accept_bind, hc₃.next, if_pos hcolon, if_pos rfl, bind_of_done run₃,
          mark_bind, pure_apply]

/-- **Where the parser stops in the second expression**: of two expressions without a semicolon
between them, no token is left in front of the end of both that recovery would not drop. -/
theorem expression_fused {x y : Expr} (h : Grammar.Expression ts x) (h' : Grammar.Expression us y)
    (hstart : Starts Grammar.Ambiguous us) (hlast : EndsExpression last.kind)
    (hc : c.ahead = ts ++ (us ++ last :: ws)) (hn : 20 * (ts ++ us).length + 11 ≤ n) :
    Halts (expression n) c fun vs => ∃ zs, Grammar.Plainly zs ∧ vs = zs ++ last :: ws := by
  obtain ⟨us, vs, y, rfl, hy, hvs⟩ := h'.split
  have hstart := Grammar.starts_left hstart hy.starts
  simp only [List.length_append] at hn
  obtain ⟨n, rfl⟩ : ∃ m, n = m + 1 := ⟨n - 1, by omega⟩
  -- what follows both assignments is the end or the question mark of a choice
  have hfollow (f : Token) : EndsAssignment ((vs ++ last :: ws).headD f).kind := by
    cases hvs with
    | none => exact hlast.assignment
    | choice hq _ _ _ =>
        rw [List.cons_append, List.headD_cons, hq]
        exact endsAssignment_question
  cases h with
  | plain h =>
      have hahead : c.ahead = (ts ++ us) ++ (vs ++ last :: ws) := by
        simpa only [List.append_assoc] using hc
      obtain ⟨c₁, hp, hreach⟩ := assignment_reaches (n := n) (h.equated.fuse hy.equated hstart)
        (by rw [List.length_append]; omega) ⟨_, hahead, hfollow _⟩
      have hc₁ : c₁.ahead = vs ++ last :: ws :=
        List.append_cancel_left (hp.ahead.symm.trans hahead)
      rcases hreach with ⟨a, run⟩ | ⟨e, run⟩
      · obtain ⟨c₂, hp₂, hreach⟩ := expression_branches hvs hlast (by omega) run hc₁
        refine halts_of_passes ?_ (hp.trans hp₂) hreach ⟨[], Grammar.plainly_nil, rfl⟩
        rw [hahead, List.nil_append, List.append_assoc (ts ++ us)]
      · refine halts_of_passes hahead hp (.inr ⟨e, ?_⟩) ⟨vs, hvs.not_structural, rfl⟩
        rw [expression]
        exact bind_of_failed run
  | @choice ts ts₁ ts₂ question colon e x y' h hq hx hcolon hy' =>
      simp only [List.length_append, List.length_cons] at hn
      have hahead : c.ahead = (ts ++ question :: (ts₁ ++ colon :: (ts₂ ++ us))) ++
          (vs ++ last :: ws) := by
        simpa only [List.append_assoc, List.cons_append] using hc
      have hc : c.Faces _ EndsAssignment := ⟨_, hahead, hfollow _⟩
      obtain ⟨e', c₁, run, hp, -⟩ := (findsExpressions n).assignment h (by omega)
        (hc.cut (by rw [hq]; exact endsAssignment_question))
      have hc₁ := hc.passes hp
      have hc₂ := hc₁.tail
      obtain ⟨x', c₂, run₂, hp₂, -⟩ := (findsExpressions n).assignment hx (by omega)
        (hc₂.cut (by rw [hcolon]; exact endsAssignment_colon))
      have hc₃ := hc₂.passes hp₂
      obtain ⟨c₃, hp₃, hreach⟩ := assignment_reaches (n := n) (hy'.equated.fuse hy.equated hstart)
        (by rw [List.length_append]; omega) hc₃.tail
      have hpass := hp.trans (hc₁.advance.trans (hp₂.trans (hc₃.advance.trans hp₃)))
      refine Exists.elim (p := fun c' => c.Passes _ c' ∧ Reaches (expression (n + 1)) c c') ?_
        fun c' h => halts_of_passes hahead h.1 h.2 ⟨vs, hvs.not_structural, rfl⟩
      -- the second expression ends the choice, so a question mark behind it is not read
      unfold Reaches
      rw [expression, bind_of_done run, peek_bind, hc₁.next, if_pos hq, advance_bind,
        bind_of_done run₂, accept_bind, hc₃.next, if_pos hcolon, if_pos rfl]
      rcases hreach with ⟨a, run₃⟩ | ⟨e, run₃⟩
      · exact ⟨c₃.numbered, hpass.numbered, .inl ⟨_, by rw [bind_of_done run₃]; rfl⟩⟩
      · exact ⟨c₃, hpass, .inr ⟨e, bind_of_failed run₃⟩⟩

end Fused

end Parser

end Scriptlet
