/-
**Reading tokens that have moved, and tokens that others follow.**

Two cursors are compared.  The tokens ahead of the second are those ahead of the first, moved by a
relocation, and perhaps more of them follow.  If none follow and the ends of the two sources belong
together, a parser answers the same at both, whatever its answer is, up to the relocation.  If more
tokens follow, the answers agree as long as the first cursor is left without errors and the parser
has not looked at what stands behind the tokens it passed; but where a parser looks for an `else`
only, it may look there, since what follows begins with none.  The first parser numbers expressions
without end; the second may use any counter that the relocation takes these numbers to.

Main definitions:

* `Scriptlet.Cursor.Follows` — **a cursor, and one in front of the same tokens**, moved and perhaps
  followed by others;
* `Scriptlet.Parser.Sight` — whether a parser looks at the token behind those that it passes;
* `Scriptlet.Parser.Tracks` — **two parsers answer alike** at cursors that follow one another.

Main results:

* `Scriptlet.Parser.Tracks.bind` — two parsers in a row answer alike if both do;
* `Scriptlet.Parser.tracksExpressions`, `Scriptlet.Parser.tracksStatements` — every parser answers
  like itself, also with more fuel.
-/

import Scriptlet.Proofs.Joined.Relocation
import Scriptlet.Proofs.Program.Ample

set_option relaxedAutoImplicit false
set_option autoImplicit false

namespace Scriptlet

variable {φ : Relocation} {rest : List Token} {closed : Prop}

/-! ### Cursors that follow one another -/

namespace Cursor

/-- **A cursor, and one in front of the same tokens**, which have been moved and which others may
follow.  `closed` says that none follow and that the ends of the sources belong together, and `seen`
says that the tokens read last do. -/
structure Follows (φ : Relocation) (rest : List Token) (closed seen : Prop) (c c' : Cursor) :
    Prop where
  /-- The tokens ahead are the same, and others may follow. -/
  ahead : c'.ahead = c.ahead.map (Token.relocate φ) ++ rest
  /-- The end of the first source is no other token. -/
  finish : c.finish.kind = .endOfSource
  /-- What stands behind the tokens is no `else`. -/
  behind : (rest.headD c'.finish).kind ≠ .elseWord
  /-- If nothing follows, the ends of the sources belong together. -/
  ends : closed → rest = [] ∧ c'.finish = c.finish.relocate φ
  /-- The same numbers are free. -/
  supply : c'.supply = c.supply.relocate φ
  /-- The same errors have been reported. -/
  errors : c'.errors = c.errors.map (SyntaxError.relocate φ)
  /-- The tokens read last belong together. -/
  last : seen → c'.last = c.last.relocate φ

namespace Follows

variable {seen seen' : Prop} {c c' : Cursor}

theorem mono (h : Follows φ rest closed seen c c') (hseen : seen' → seen) :
    Follows φ rest closed seen' c c' :=
  { h with last := fun hs => h.last (hseen hs) }

/-- Where a token of the first source or nothing else is ahead, the next tokens belong together. -/
theorem next (h : Follows φ rest closed seen c c') (hc : closed ∨ c.ahead ≠ []) :
    c'.next = c.next.relocate φ := by
  rw [next_eq, next_eq, h.ahead]
  cases hahead : c.ahead with
  | cons t ts => rfl
  | nil =>
      obtain ⟨rfl, hfinish⟩ := h.ends (hc.resolve_right (not_not_intro hahead))
      exact hfinish

/-- Behind a token, the tokens read last belong together. -/
theorem advance_seen (h : Follows φ rest closed seen c c') (hne : c.ahead ≠ []) :
    Follows φ rest closed True c.advance c'.advance := by
  obtain ⟨t, ts, hts⟩ := List.exists_cons_of_ne_nil hne
  have hahead := h.ahead
  rw [hts, List.map_cons, List.cons_append] at hahead
  unfold advance
  rw [hts, hahead]
  exact ⟨rfl, h.finish, h.behind, h.ends, h.supply, h.errors, fun _ => rfl⟩

theorem advance (h : Follows φ rest closed seen c c') (hc : closed ∨ c.ahead ≠ []) :
    Follows φ rest closed seen c.advance c'.advance := by
  by_cases hne : c.ahead = []
  · obtain ⟨rfl, hfinish⟩ := h.ends (hc.resolve_right (not_not_intro hne))
    have hahead := h.ahead
    rw [hne] at hahead
    unfold Cursor.advance
    rw [hne, hahead]
    exact h
  · exact (h.advance_seen hne).mono fun _ => trivial

end Follows

/-- Recovery stops at the same token. -/
theorem settle_relocate (φ : Relocation) (last : Token) (ts : List Token) :
    settle (last.relocate φ) (ts.map (Token.relocate φ)) =
      ((settle last ts).1.relocate φ, (settle last ts).2.map (Token.relocate φ)) := by
  induction ts generalizing last with
  | nil => rfl
  | cons t ts ih =>
      by_cases hlast : last.kind = .semicolon
      · simp [settle, hlast]
      · by_cases hstart : t.kind.startsStatement = true
        · simp [settle, hstart]
        · simpa [settle, hlast, hstart] using ih t

theorem Follows.synchronize {seen : Prop} {c c' : Cursor} (h : Follows φ rest closed seen c c')
    (hclosed : closed) : Follows φ rest closed seen c.synchronize c'.synchronize := by
  obtain ⟨rfl, hfinish⟩ := h.ends hclosed
  have hahead := h.ahead
  rw [List.append_nil] at hahead
  unfold Cursor.synchronize
  cases hts : c.ahead with
  | nil =>
      rw [hts, List.map_nil] at hahead
      rw [hahead]
      exact h
  | cons t ts =>
      rw [hts, List.map_cons] at hahead
      rw [hahead]
      simp only [settle_relocate]
      exact ⟨(List.append_nil _).symm, h.finish, h.behind, h.ends, h.supply, h.errors,
        fun _ => rfl⟩

end Cursor

namespace Parser

variable {α β γ δ : Type}

/-! ### Parsers that answer alike -/

/-- How far a parser looks. -/
inductive Sight
  /-- It may look at the token behind those that it passes. -/
  | beyond
  /-- It looks at the tokens that it passes, and asks of the one behind only if it is an `else`. -/
  | within
  /-- It also passes at least one. -/
  | passing
deriving DecidableEq

/-- Where a parser may be followed by another one, and the two together look no farther than the
second: the second passes a token or may look beyond its own, or the first looks at none beyond. -/
class Sight.Before (sight₁ sight₂ : Sight) : Prop where
  before : sight₁ ≠ .beyond ∨ sight₂ ≠ .within

instance {sight : Sight} : sight.Before .beyond := ⟨.inr nofun⟩

instance {sight : Sight} : sight.Before .passing := ⟨.inr nofun⟩

instance {sight : Sight} : Sight.within.Before sight := ⟨.inl nofun⟩

instance {sight : Sight} : Sight.passing.Before sight := ⟨.inl nofun⟩

/-- An answer counts if nothing follows, or if no error was reported and what the parser has looked
at is a token of its own source. -/
def Sight.Counts (sight : Sight) (closed : Prop) (c : Cursor) : Prop :=
  closed ∨ (c.errors = [] ∧ (sight = .beyond → c.ahead ≠ []))

/-- **Two parsers answer alike** at cursors that follow one another. -/
structure Tracks (φ : Relocation) (rest : List Token) (closed : Prop) (sight : Sight)
    (seen seen' : Prop) (g : α → β) (p : Parser α) (p' : Parser β) : Prop where
  /-- The first parser only goes forward. -/
  forward : Forward p
  /-- A parser that passes a token does so. -/
  eats : sight = .passing → Eats p
  /-- Answers that count are the same. -/
  done : ∀ {c c' c₁ : Cursor} {a : α}, c.Follows φ rest closed seen c' → p c = .done a c₁ →
    sight.Counts closed c₁ → ∃ c₁', p' c' = .done (g a) c₁' ∧ c₁.Follows φ rest closed seen' c₁'
  /-- So are failures, if nothing follows; then the tokens read last do not matter. -/
  failed : ∀ {c c' c₁ : Cursor} {e : SyntaxError}, c.Follows φ rest closed seen c' →
    p c = .failed e c₁ → closed →
    ∃ c₁', p' c' = .failed (e.relocate φ) c₁' ∧ c₁.Follows φ rest closed False c₁'

namespace Tracks

variable {sight sight₁ sight₂ : Sight} {seen seen₁ seen₂ : Prop} {g : α → β} {k : γ → δ}

/-- A parser that looks less far may be said to look farther. -/
theorem beyond {p : Parser α} {p' : Parser β} (h : Tracks φ rest closed sight seen seen₁ g p p') :
    Tracks φ rest closed .beyond seen seen₁ g p p' where
  forward := h.forward
  eats := nofun
  done hc hp hcounts := h.done hc hp (hcounts.imp_right fun ⟨he, ha⟩ => ⟨he, fun _ => ha rfl⟩)
  failed := h.failed

/-- Less may be said of the tokens read last. -/
theorem weaken {p : Parser α} {p' : Parser β} (h : Tracks φ rest closed sight seen seen₁ g p p')
    (hseen : seen₂ → seen₁) : Tracks φ rest closed sight seen seen₂ g p p' where
  forward := h.forward
  eats := h.eats
  done hc hp hcounts := by
    obtain ⟨c₁', hp', hc₁⟩ := h.done hc hp hcounts
    exact ⟨c₁', hp', hc₁.mono hseen⟩
  failed := h.failed

/-- That the tokens read last belong together may be forgotten. -/
theorem forget {p : Parser α} {p' : Parser β} (h : Tracks φ rest closed sight seen True g p p') :
    Tracks φ rest closed sight seen seen g p p' :=
  h.weaken fun _ => trivial

theorem starve (p' : Parser β) :
    Tracks φ rest closed sight seen seen₁ g (Parser.starve : Parser α) p' where
  forward := .starve
  eats _ := .starve
  done _ h _ := by cases h
  failed _ h _ := by cases h

/-- **Two parsers in a row answer alike if both do.**  The second one either passes a token, or
looks no farther than allowed for the whole. -/
theorem bind {p : Parser α} {p' : Parser β} {f : α → Parser γ} {f' : β → Parser δ}
    (hp : Tracks φ rest closed sight₁ seen seen₁ g p p')
    [hsight : sight₁.Before sight₂]
    (hf : ∀ a, Tracks φ rest closed sight₂ seen₁ seen₂ k (f a) (f' (g a))) :
    Tracks φ rest closed sight₂ seen seen₂ k (p >>= f) (p' >>= f') where
  forward := hp.forward.bind fun a => (hf a).forward
  eats h := .bind_right hp.forward fun a => (hf a).eats h
  done := by
    intro c c' c₂ b hc h hcounts
    obtain ⟨a, c₁, hp₁, hf₁⟩ := bind_done h
    have hreach := (hf a).forward c₁
    rw [hf₁] at hreach
    have hfinish := hp.forward c
    rw [hp₁] at hfinish
    -- errors are never taken back, and a token left at the end was ahead before
    have hcounts₁ : sight₁.Counts closed c₁ := by
      refine hcounts.imp_right fun ⟨herrors, hahead⟩ => ⟨?_, fun hs hnil => ?_⟩
      · exact List.suffix_nil.1 (herrors ▸ hreach.errors)
      · have hsuffix := hreach.ahead
        rw [hnil, List.suffix_nil] at hsuffix
        cases hsight₂ : sight₂ with
        | beyond => exact hahead hsight₂ hsuffix
        | within => exact hsight.before.elim (· hs) (· hsight₂)
        | passing =>
            have hlt := (hf a).eats hsight₂ (by rw [hfinish.finish, hc.finish]) hf₁
            rw [hnil] at hlt
            exact absurd hlt (Nat.not_lt_zero _)
    obtain ⟨c₁', hp₁', hc₁⟩ := hp.done hc hp₁ hcounts₁
    obtain ⟨c₂', hf₁', hc₂⟩ := (hf a).done hc₁ hf₁ hcounts
    exact ⟨c₂', by rw [bind_of_done hp₁', hf₁'], hc₂⟩
  failed := by
    intro c c' c₂ e hc h hclosed
    rw [bind_apply] at h
    cases hp₁ : p c with
    | done a c₁ =>
        rw [hp₁] at h
        obtain ⟨c₁', hp₁', hc₁⟩ := hp.done hc hp₁ (.inl hclosed)
        obtain ⟨c₂', hf₁', hc₂⟩ := (hf a).failed hc₁ h hclosed
        exact ⟨c₂', by rw [bind_of_done hp₁', hf₁'], hc₂⟩
    | failed e₁ c₁ =>
        rw [hp₁] at h
        cases h
        obtain ⟨c₁', hp₁', hc₁⟩ := hp.failed hc hp₁ hclosed
        exact ⟨c₁', by rw [bind_apply, hp₁'], hc₁⟩
    | starved =>
        rw [hp₁] at h
        cases h

/-- Two parsers in a row pass a token if the first one does. -/
theorem passing_bind {p : Parser α} {p' : Parser β} {f : α → Parser γ} {f' : β → Parser δ}
    (hp : Tracks φ rest closed .passing seen seen₁ g p p')
    (hf : ∀ a, Tracks φ rest closed .within seen₁ seen₂ k (f a) (f' (g a))) :
    Tracks φ rest closed .passing seen seen₂ k (p >>= f) (p' >>= f') :=
  let hbind := hp.bind hf
  { forward := hbind.forward
    eats := fun _ => .bind_left (hp.eats rfl) fun a => (hf a).forward
    done := fun hc h hcounts => hbind.done hc h (hcounts.imp_right fun ⟨he, _⟩ => ⟨he, nofun⟩)
    failed := hbind.failed }

/-! ### Single steps -/

section Steps

theorem pure (g : α → β) (a : α) :
    Tracks φ rest closed .within seen seen g (Parser.pure a) (Parser.pure (g a)) where
  forward := .pure a
  eats := nofun
  done hc h _ := by
    cases h
    exact ⟨_, rfl, hc⟩
  failed _ h _ := by cases h

theorem fail (g : α → β) (e : SyntaxError) :
    Tracks φ rest closed .within seen seen g (Parser.fail e) (Parser.fail (e.relocate φ)) where
  forward := .fail e
  eats := nofun
  done _ h _ := by cases h
  failed hc h _ := by
    cases h
    exact ⟨_, rfl, hc.mono False.elim⟩

theorem peek :
    Tracks φ rest closed .beyond seen seen (Token.relocate φ) Parser.peek Parser.peek where
  forward := .peek
  eats := nofun
  done hc h hcounts := by
    cases h
    refine ⟨_, ?_, hc⟩
    rw [Parser.peek, hc.next (hcounts.imp_right fun ⟨_, ha⟩ => ha rfl)]
  failed _ h _ := by cases h

theorem advance :
    Tracks φ rest closed .beyond seen seen (Token.relocate φ) Parser.advance Parser.advance where
  forward := .advance
  eats := nofun
  done {c c' c₁ a} hc h hcounts := by
    cases h
    have hahead : closed ∨ c.ahead ≠ [] := hcounts.imp_right fun ⟨_, ha⟩ hnil => by
      refine ha rfl ?_
      unfold Cursor.advance
      rw [hnil]
      exact hnil
    refine ⟨_, ?_, hc.advance hahead⟩
    rw [Parser.advance, hc.next hahead]
  failed _ h _ := by cases h

theorem check (kind : TokenKind) :
    Tracks φ rest closed .beyond seen seen id (Parser.check kind) (Parser.check kind) where
  forward := .check kind
  eats := nofun
  done hc h hcounts := by
    cases h
    refine ⟨_, ?_, hc⟩
    rw [Parser.check, hc.next (hcounts.imp_right fun ⟨_, ha⟩ => ha rfl)]
    rfl
  failed _ h _ := by cases h

theorem atEnd : Tracks φ rest closed .beyond seen seen id Parser.atEnd Parser.atEnd where
  forward := .atEnd
  eats := nofun
  done {c c' c₁ a} hc h hcounts := by
    cases h
    refine ⟨_, ?_, hc⟩
    have hahead := hc.ahead
    cases hts : c.ahead with
    | cons t ts =>
        rw [hts] at hahead
        rw [Parser.atEnd, hahead]
        rfl
    | nil =>
        obtain ⟨rfl, -⟩ := hc.ends (hcounts.resolve_right fun ⟨_, ha⟩ => ha rfl hts)
        rw [hts] at hahead
        rw [Parser.atEnd, hahead]
        rfl
  failed _ h _ := by cases h

theorem accept {kind : TokenKind} (h : kind ≠ .endOfSource) :
    Tracks φ rest closed .beyond seen seen id (Parser.accept kind) (Parser.accept kind) where
  forward := .accept kind
  eats := nofun
  done {c c' c₁ a} hc hp hcounts := by
    unfold Parser.accept at hp ⊢
    split at hp
    · rename_i hk
      cases hp
      have hne := Cursor.ahead_ne_nil hc.finish hk h
      have hnext := hc.next (.inr hne)
      rw [hnext, if_pos (by simpa using hk)]
      exact ⟨_, rfl, hc.advance (.inr hne)⟩
    · rename_i hk
      cases hp
      have hnext := hc.next (hcounts.imp_right fun ⟨_, ha⟩ => ha rfl)
      rw [hnext, if_neg (by simpa using hk)]
      exact ⟨_, rfl, hc⟩
  failed {c c' c₁ e} hc hp _ := by
    unfold Parser.accept at hp
    split at hp <;> cases hp

/-- A parser may look for an `else` behind the tokens that it passes, for there is none. -/
theorem acceptElse :
    Tracks φ rest closed .within seen seen id (Parser.accept .elseWord)
      (Parser.accept .elseWord) where
  forward := .accept _
  eats := nofun
  done {c c' c₁ a} hc hp hcounts := by
    unfold Parser.accept at hp ⊢
    split at hp
    · rename_i hk
      cases hp
      have hne := Cursor.ahead_ne_nil hc.finish hk nofun
      have hnext := hc.next (.inr hne)
      rw [hnext, if_pos (by simpa using hk)]
      exact ⟨_, rfl, hc.advance (.inr hne)⟩
    · rename_i hk
      cases hp
      have hno : ¬c'.next.kind = .elseWord := by
        by_cases hne : c.ahead = []
        · rw [Cursor.next_eq, hc.ahead, hne]
          exact hc.behind
        · rw [hc.next (.inr hne)]
          simpa using hk
      rw [if_neg hno]
      exact ⟨_, rfl, hc⟩
  failed {c c' c₁ e} hc hp _ := by
    unfold Parser.accept at hp
    split at hp <;> cases hp

theorem expect {kind : TokenKind} {place : Place} (h : kind ≠ .endOfSource) :
    Tracks φ rest closed .passing seen True φ.span (Parser.expect kind place)
      (Parser.expect kind place) where
  forward := .expect kind place
  eats _ := .expect place h
  done {c c' c₁ a} hc hp _ := by
    unfold Parser.expect at hp ⊢
    split at hp
    · rename_i hk
      cases hp
      have hne := Cursor.ahead_ne_nil hc.finish hk h
      have hnext := hc.next (.inr hne)
      rw [hnext, if_pos (by simpa using hk)]
      exact ⟨_, rfl, hc.advance_seen hne⟩
    · cases hp
  failed {c c' c₁ e} hc hp hclosed := by
    unfold Parser.expect at hp ⊢
    split at hp
    · cases hp
    · rename_i hk
      cases hp
      rw [hc.next (.inl hclosed), if_neg (by simpa using hk)]
      exact ⟨_, rfl, hc.mono False.elim⟩

theorem expectName (role : NameRole) :
    Tracks φ rest closed .passing seen True (Prod.map id φ.span) (Parser.expectName role)
      (Parser.expectName role) where
  forward := .expectName role
  eats _ := .expectName role
  done {c c' c₁ a} hc hp _ := by
    unfold Parser.expectName at hp ⊢
    split at hp
    · rename_i hk
      cases hp
      have hne := Cursor.ahead_ne_nil hc.finish hk nofun
      have hnext := hc.next (.inr hne)
      rw [hnext, if_pos (by simpa using hk)]
      exact ⟨_, rfl, hc.advance_seen hne⟩
    · cases hp
  failed {c c' c₁ e} hc hp hclosed := by
    unfold Parser.expectName at hp ⊢
    split at hp
    · cases hp
    · rename_i hk
      cases hp
      rw [hc.next (.inl hclosed), if_neg (by simpa using hk)]
      exact ⟨_, rfl, hc.mono False.elim⟩

theorem mark [Counter] (hφ : φ.Rigid) {span span' : Span} (h : span' = φ.span span) :
    Tracks φ rest closed .within seen seen (Mark.relocate φ) (Parser.mark (W := .endless) span)
      (Parser.mark span') where
  forward := .mark span
  eats := nofun
  done {c c' c₁ a} hc hp _ := by
    cases hp
    subst h
    have hsupply := hc.supply
    refine ⟨{ c' with supply := { c'.supply with expr := Counter.next c'.supply.expr } }, ?_, ?_⟩
    · change Reply.done (Mark.mk c'.supply.expr (φ.span span)) _ = _
      rw [hsupply]
      rfl
    · refine ⟨hc.ahead, hc.finish, hc.behind, hc.ends, ?_, hc.errors, hc.last⟩
      simp only [hsupply, Supply.relocate, Counter.next_endless, hφ.expr]
  failed _ h _ := by cases h

theorem spanFrom [Counter] (hφ : φ.Rigid) (start : Span) :
    Tracks φ rest closed .within True True φ.span (Parser.spanFrom start)
      (Parser.spanFrom (φ.span start)) where
  forward := .spanFrom start
  eats := nofun
  done {c c' c₁ a} hc hp _ := by
    cases hp
    refine ⟨c', ?_, hc⟩
    change Reply.done ((φ.span start).through c'.last.span) c' = _
    rw [hc.last trivial, Token.span_relocate, hφ.through]
  failed _ h _ := by cases h

theorem freshLabel [Counter] (hφ : φ.Rigid) :
    Tracks φ rest closed .within seen seen φ.routine Parser.freshLabel Parser.freshLabel where
  forward := .freshLabel
  eats := nofun
  done {c c' c₁ a} hc hp _ := by
    cases hp
    have hsupply := hc.supply
    refine ⟨{ c' with supply := { c'.supply with routine := c'.supply.routine + 1 } }, ?_, ?_⟩
    · change Reply.done c'.supply.routine _ = _
      rw [hsupply]
      rfl
    · refine ⟨hc.ahead, hc.finish, hc.behind, hc.ends, ?_, hc.errors, hc.last⟩
      simp only [hsupply, Supply.relocate, hφ.routine]
  failed _ h _ := by cases h

/-- Reports agree if nothing follows; otherwise no answer counts behind one. -/
theorem report (fault : SyntaxFault) :
    Tracks φ rest closed .within seen seen id (Parser.report fault) (Parser.report fault) where
  forward := .report fault
  eats := nofun
  done {c c' c₁ a} hc hp hcounts := by
    cases hp
    have hclosed : closed := hcounts.resolve_right fun ⟨he, _⟩ => by cases he
    refine ⟨_, rfl, hc.ahead, hc.finish, hc.behind, hc.ends, hc.supply, ?_, hc.last⟩
    rw [hc.next (.inl hclosed), hc.errors]
    rfl
  failed _ h _ := by cases h

/-- A parser behind the report of a list that is too long. -/
theorem limited {p : Parser α} {p' : Parser β} {count : Nat} {fault : SyntaxFault}
    (hp : Tracks φ rest closed sight seen seen₁ g p p') :
    Tracks φ rest closed sight seen seen₁ g
      (if arityLimit ≤ count then (do Parser.report fault; p) else p)
      (if arityLimit ≤ count then (do Parser.report fault; p') else p') := by
  by_cases h : arityLimit ≤ count
  · rw [if_pos h, if_pos h]
    exact (report fault).bind fun _ => hp
  · rw [if_neg h, if_neg h]
    exact hp

/-- Parsers between which a truth value decides. -/
theorem ite {p q : Parser α} {p' q' : Parser β} {b : Bool}
    (hp : Tracks φ rest closed sight seen seen₁ g p p')
    (hq : Tracks φ rest closed sight seen seen₁ g q q') :
    Tracks φ rest closed sight seen seen₁ g (if b = true then p else q)
      (if b = true then p' else q') := by
  cases b
  · exact hq
  · exact hp

/-- **Recovery from an error** leads to the same place. -/
theorem recover {p : Parser α} {p' : Parser β}
    (hp : Tracks φ rest closed .passing seen True g p p') :
    Tracks φ rest closed .within seen False (Option.map g) (Parser.recover p)
      (Parser.recover p') where
  forward := hp.forward.recover
  eats := nofun
  done {c c' c₁ a} hc h hcounts := by
    unfold Parser.recover at h ⊢
    cases hp₁ : p c with
    | done b c₂ =>
        rw [hp₁] at h
        cases h
        obtain ⟨c₂', hp₁', hc₂⟩ := hp.done hc hp₁ (hcounts.imp_right fun ⟨he, _⟩ => ⟨he, nofun⟩)
        rw [hp₁']
        exact ⟨c₂', rfl, hc₂.mono False.elim⟩
    | failed e c₂ =>
        rw [hp₁] at h
        cases h
        -- behind an error, an answer counts only if nothing follows
        have herrors : { c₂ with errors := e :: c₂.errors }.synchronize.errors = e :: c₂.errors :=
          Cursor.synchronize_errors _
        have hclosed : closed := hcounts.resolve_right fun ⟨he, _⟩ => by
          rw [herrors] at he
          cases he
        obtain ⟨c₂', hp₁', hc₂⟩ := hp.failed hc hp₁ hclosed
        rw [hp₁']
        have hreport : Cursor.Follows φ rest closed False { c₂ with errors := e :: c₂.errors }
            { c₂' with errors := e.relocate φ :: c₂'.errors } := by
          refine ⟨hc₂.ahead, hc₂.finish, hc₂.behind, hc₂.ends, hc₂.supply, ?_, hc₂.last⟩
          rw [hc₂.errors]
          rfl
        exact ⟨_, rfl, hreport.synchronize hclosed⟩
    | starved =>
        rw [hp₁] at h
        cases h
  failed {c c' c₁ e} hc h _ := by
    unfold Parser.recover at h
    cases hp₁ : p c with
    | done b c₂ =>
        rw [hp₁] at h
        cases h
    | failed e c₂ =>
        rw [hp₁] at h
        cases h
    | starved =>
        rw [hp₁] at h
        cases h

end Steps

end Tracks

/-! ### Trees that have moved -/

theorem relocate_join (join : Join) (mark : Mark) (left right : Expr) (opSpan : Span) :
    (join.expr mark left opSpan right).relocate φ =
      join.expr (mark.relocate φ) (left.relocate φ) (φ.span opSpan) (right.relocate φ) := by
  cases join <;> rfl

theorem relocate_forLoop (initializer : Option Decl) (condition : Expr) (increment : Option Expr)
    (body : Stmt) (span : Span) :
    (forLoop initializer condition increment body span).relocate φ =
      forLoop (initializer.map (Decl.relocate φ)) (condition.relocate φ)
        (increment.map (Expr.relocate φ)) (body.relocate φ) (φ.span span) := by
  cases initializer <;> cases increment <;>
    simp [forLoop, Stmt.relocate, Decl.relocate]

theorem relocate_toList_append (d : Option Decl) (ds : List Decl) :
    Decl.allRelocate φ (d.toList ++ ds) =
      (d.map (Decl.relocate φ)).toList ++ Decl.allRelocate φ ds := by
  cases d <;> rfl

/-! ### Expressions -/

/-- With some fuel and with more, the parsers of expressions answer alike. -/
structure TracksExpressions [Counter] (φ : Relocation) (rest : List Token) (closed : Prop)
    (fuel fuel' : Nat) : Prop where
  expression : ∀ seen, Tracks φ rest closed .beyond seen seen (Expr.relocate φ)
    (expression (W := .endless) fuel) (expression fuel')
  assignment : ∀ seen, Tracks φ rest closed .beyond seen seen (Expr.relocate φ)
    (assignment (W := .endless) fuel) (assignment fuel')
  operand : ∀ seen level, Tracks φ rest closed .beyond seen seen (Expr.relocate φ)
    (operand (W := .endless) fuel level) (operand fuel' level)
  joins : ∀ seen level left, Tracks φ rest closed .beyond seen seen (Expr.relocate φ)
    (joins (W := .endless) fuel level left) (joins fuel' level (left.relocate φ))
  unary : ∀ seen, Tracks φ rest closed .beyond seen seen (Expr.relocate φ)
    (unary (W := .endless) fuel) (unary fuel')
  suffixes : ∀ seen callee, Tracks φ rest closed .beyond seen seen (Expr.relocate φ)
    (suffixes (W := .endless) fuel callee) (suffixes fuel' (callee.relocate φ))
  argumentList : ∀ seen, Tracks φ rest closed .beyond seen seen (Expr.allRelocate φ)
    (argumentList (W := .endless) fuel) (argumentList fuel')
  arguments : ∀ seen count, Tracks φ rest closed .beyond seen seen (Expr.allRelocate φ)
    (arguments (W := .endless) fuel count) (arguments fuel' count)
  primary : ∀ seen, Tracks φ rest closed .beyond seen seen (Expr.relocate φ)
    (primary (W := .endless) fuel) (primary fuel')

section Expressions

variable [Counter] {n n' : Nat} {seen : Prop}

theorem tracks_expression (hφ : φ.Rigid) (ih : TracksExpressions φ rest closed n n') :
    Tracks φ rest closed .beyond seen seen (Expr.relocate φ) (expression (W := .endless) (n + 1))
      (expression (n' + 1)) := by
  unfold expression
  refine (ih.assignment _).bind fun condition => Tracks.peek.bind fun question => ?_
  rw [Token.kind_relocate]
  by_cases hq : question.kind = .question
  · rw [if_pos hq, if_pos hq]
    refine Tracks.advance.bind fun _ => (ih.assignment _).bind fun thenBranch =>
      (Tracks.accept (by decide)).bind fun colon => .ite ?_ ?_
    · refine (ih.assignment _).bind fun elseBranch => (Tracks.mark hφ ?_).bind fun mark =>
        (Tracks.pure _ _).beyond
      simp only [Expr.span_relocate, hφ.through]
    · exact (Tracks.fail _ ⟨.ternaryWithoutColon, question⟩).beyond
  · rw [if_neg hq, if_neg hq]
    exact (Tracks.pure _ condition).beyond

theorem tracks_assignment (hφ : φ.Rigid) (ih : TracksExpressions φ rest closed n n') :
    Tracks φ rest closed .beyond seen seen (Expr.relocate φ) (assignment (W := .endless) (n + 1))
      (assignment (n' + 1)) := by
  unfold assignment
  refine (ih.operand _ _).bind fun target => Tracks.peek.bind fun equals => ?_
  rw [Token.kind_relocate]
  by_cases hq : equals.kind = .equal
  · rw [if_pos hq, if_pos hq]
    refine Tracks.advance.bind fun _ => (ih.assignment _).bind fun value => ?_
    have hspan : (target.relocate φ).span.through (value.relocate φ).span =
        φ.span (target.span.through value.span) := by
      simp only [Expr.span_relocate, hφ.through]
    -- only a variable and a property can be assigned to
    cases target with
    | «variable» m name =>
        exact (Tracks.mark hφ hspan).bind fun _ => (Tracks.pure _ _).beyond
    | get m object name =>
        exact (Tracks.mark hφ hspan).bind fun _ => (Tracks.pure _ _).beyond
    | _ => exact (Tracks.fail _ ⟨.invalidAssignmentTarget, equals⟩).beyond
  · rw [if_neg hq, if_neg hq]
    exact (Tracks.pure _ target).beyond

theorem tracks_operand (ih : TracksExpressions φ rest closed n n') (level : Option Level) :
    Tracks φ rest closed .beyond seen seen (Expr.relocate φ) (operand (W := .endless) (n + 1) level)
      (operand (n' + 1) level) := by
  cases level with
  | none => exact ih.unary _
  | some level =>
      unfold operand
      exact (ih.operand _ _).bind fun left => ih.joins _ level left

theorem tracks_joins (hφ : φ.Rigid) (ih : TracksExpressions φ rest closed n n') (level : Level)
    (left : Expr) :
    Tracks φ rest closed .beyond seen seen (Expr.relocate φ)
      (joins (W := .endless) (n + 1) level left) (joins (n' + 1) level (left.relocate φ)) := by
  unfold joins
  refine Tracks.peek.bind fun operator => ?_
  rw [Token.kind_relocate]
  cases hj : level.join? operator.kind with
  | some join =>
      refine Tracks.advance.bind fun _ => (ih.operand _ _).bind fun right =>
        (Tracks.mark hφ ?_).bind fun mark => ?_
      · simp only [Expr.span_relocate, hφ.through]
      · have h := ih.joins seen level (join.expr mark left operator.span right)
        rwa [relocate_join] at h
  | none => exact (Tracks.pure _ left).beyond

theorem tracks_unary (hφ : φ.Rigid) (ih : TracksExpressions φ rest closed n n') :
    Tracks φ rest closed .beyond seen seen (Expr.relocate φ)
      (unary (W := .endless) (n + 1)) (unary (n' + 1)) := by
  unfold unary
  refine Tracks.peek.bind fun operator => ?_
  rw [Token.kind_relocate]
  cases hop : UnaryOp.ofKind? operator.kind with
  | some op =>
      refine Tracks.advance.bind fun _ => (ih.unary _).bind fun operand =>
        (Tracks.mark hφ ?_).bind fun mark => (Tracks.pure _ _).beyond
      simp only [Expr.span_relocate, Token.span_relocate, hφ.through]
  | none => exact (ih.primary _).bind fun callee => ih.suffixes _ callee

theorem tracks_suffixes (hφ : φ.Rigid) (ih : TracksExpressions φ rest closed n n')
    (callee : Expr) :
    Tracks φ rest closed .beyond seen seen (Expr.relocate φ)
      (suffixes (W := .endless) (n + 1) callee) (suffixes (n' + 1) (callee.relocate φ)) := by
  unfold suffixes
  refine (Tracks.accept (by decide)).bind fun opening => .ite ?_ ?_
  · refine (ih.argumentList _).bind fun arguments =>
      (Tracks.expect (by decide)).forget.bind fun paren => (Tracks.mark hφ ?_).bind fun mark =>
      ih.suffixes _ (.call mark callee arguments paren)
    simp only [Expr.span_relocate, hφ.through]
  · refine (Tracks.accept (by decide)).bind fun dot => .ite ?_ (Tracks.pure _ callee).beyond
    refine (Tracks.expectName _).forget.bind ?_
    rintro ⟨name, nameSpan⟩
    refine (Tracks.mark hφ ?_).bind fun mark => ih.suffixes _ (.get mark callee name)
    simp only [Expr.span_relocate, hφ.through]

theorem tracks_argumentList (ih : TracksExpressions φ rest closed n n') :
    Tracks φ rest closed .beyond seen seen (Expr.allRelocate φ)
      (argumentList (W := .endless) (n + 1)) (argumentList (n' + 1)) := by
  unfold argumentList
  exact (Tracks.check _).bind fun closing => .ite (Tracks.pure _ []).beyond (ih.arguments _ 0)

theorem tracks_arguments (ih : TracksExpressions φ rest closed n n') (count : Nat) :
    Tracks φ rest closed .beyond seen seen (Expr.allRelocate φ)
      (arguments (W := .endless) (n + 1) count) (arguments (n' + 1) count) := by
  unfold arguments
  refine .limited ((ih.expression _).bind fun argument =>
    (Tracks.accept (by decide)).bind fun comma => .ite ?_ (Tracks.pure _ [argument]).beyond)
  exact (ih.arguments _ _).bind fun others => (Tracks.pure _ (argument :: others)).beyond

theorem tracks_constant (hφ : φ.Rigid) (token : Token) :
    Tracks φ rest closed .beyond seen seen (Expr.relocate φ)
      (match Constant.ofToken? token with
        | some value => do
            let _ ← advance
            let mark ← mark (W := .endless) token.span
            pure (.constant mark value)
        | none => fail ⟨.malformedLiteral, token⟩ : Parser Expr)
      (match Constant.ofToken? (token.relocate φ) with
        | some value => do
            let _ ← advance
            let mark ← mark (token.relocate φ).span
            pure (.constant mark value)
        | none => fail ⟨.malformedLiteral, token.relocate φ⟩ : Parser Expr) := by
  have hvalue : Constant.ofToken? (token.relocate φ) = Constant.ofToken? token := rfl
  rw [hvalue]
  cases Constant.ofToken? token with
  | some value =>
      exact Tracks.advance.bind fun _ => (Tracks.mark hφ rfl).bind fun mark =>
        (Tracks.pure _ (Expr.constant mark value)).beyond
  | none => exact (Tracks.fail _ ⟨.malformedLiteral, token⟩).beyond

theorem tracks_primary (hφ : φ.Rigid) (ih : TracksExpressions φ rest closed n n') :
    Tracks φ rest closed .beyond seen seen (Expr.relocate φ) (primary (W := .endless) (n + 1))
      (primary (n' + 1)) := by
  unfold primary
  refine Tracks.peek.bind fun token => ?_
  rw [Token.kind_relocate]
  split
  · exact tracks_constant hφ token
  · exact tracks_constant hφ token
  · exact tracks_constant hφ token
  · exact tracks_constant hφ token
  · exact tracks_constant hφ token
  · exact Tracks.advance.bind fun _ => (Tracks.mark hφ rfl).bind fun mark =>
      (Tracks.pure _ (Expr.thisRef mark)).beyond
  · refine Tracks.advance.bind fun _ => (Tracks.expect (by decide)).forget.bind fun _ =>
      (Tracks.expectName _).forget.bind ?_
    rintro ⟨method, methodSpan⟩
    refine (Tracks.mark hφ ?_).bind fun mark => (Tracks.pure _ (Expr.superRef mark method)).beyond
    exact (hφ.through _ _).symm
  · exact Tracks.advance.bind fun _ => (Tracks.mark hφ rfl).bind fun mark =>
      (Tracks.pure _ (Expr.variable mark token.lexeme)).beyond
  · refine Tracks.advance.bind fun _ => (ih.expression _).bind fun inner =>
      (Tracks.expect (by decide)).forget.bind fun close => (Tracks.mark hφ ?_).bind fun mark =>
        (Tracks.pure _ (Expr.grouping mark inner)).beyond
    exact (hφ.through _ _).symm
  · exact (Tracks.fail _ ⟨.expectedExpression, token⟩).beyond

/-- **The parsers of expressions answer alike**, also with more fuel. -/
theorem tracksExpressions (hφ : φ.Rigid) {n n' : Nat} (hn : n ≤ n') :
    TracksExpressions φ rest closed n n' := by
  induction n generalizing n' with
  | zero =>
      exact ⟨fun _ => .starve _, fun _ => .starve _,
        fun _ level => by cases level <;> exact .starve _, fun _ _ _ => .starve _,
        fun _ => .starve _, fun _ _ => .starve _, fun _ => .starve _, fun _ _ => .starve _,
        fun _ => .starve _⟩
  | succ n ih =>
      obtain ⟨m, rfl⟩ : ∃ m, n' = m + 1 := ⟨n' - 1, by omega⟩
      have ih := ih (Nat.le_of_succ_le_succ hn)
      exact ⟨fun _ => tracks_expression hφ ih, fun _ => tracks_assignment hφ ih,
        fun _ => tracks_operand ih, fun _ => tracks_joins hφ ih, fun _ => tracks_unary hφ ih,
        fun _ => tracks_suffixes hφ ih, fun _ => tracks_argumentList ih,
        fun _ => tracks_arguments ih, fun _ => tracks_primary hφ ih⟩

end Expressions

/-! ### Parts of declarations and statements -/

section Parts

variable {n n' : Nat} {seen : Prop}

theorem tracks_parameters (hn : n ≤ n') (count : Nat) :
    Tracks φ rest closed .beyond seen seen (List.map (Param.relocate φ)) (parameters n count)
      (parameters n' count) := by
  induction n generalizing n' count with
  | zero => exact .starve _
  | succ n ih =>
      obtain ⟨m, rfl⟩ : ∃ m, n' = m + 1 := ⟨n' - 1, by omega⟩
      rw [parameters, parameters]
      refine .limited ((Tracks.expectName _).forget.bind ?_)
      rintro ⟨name, span⟩
      refine (Tracks.accept (by decide)).bind fun comma =>
        .ite ?_ (Tracks.pure _ [Param.mk name span]).beyond
      exact (ih (Nat.le_of_succ_le_succ hn) _).bind fun others =>
        (Tracks.pure _ (Param.mk name span :: others)).beyond

theorem tracks_parameterList (hn : n ≤ n') :
    Tracks φ rest closed .beyond seen seen (List.map (Param.relocate φ)) (parameterList n)
      (parameterList n') := by
  rw [parameterList, parameterList]
  exact (Tracks.check _).bind fun closing => .ite (Tracks.pure _ []).beyond (tracks_parameters hn 0)

variable [Counter]

theorem tracks_superclass (hφ : φ.Rigid) :
    Tracks φ rest closed .beyond seen seen (Option.map (Superclass.relocate φ))
      (superclass (W := .endless)) superclass := by
  unfold superclass
  refine (Tracks.accept (by decide)).bind fun less => .ite ?_ (Tracks.pure _ none).beyond
  refine (Tracks.expectName _).forget.bind ?_
  rintro ⟨name, span⟩
  exact (Tracks.mark hφ rfl).bind fun mark =>
    (Tracks.pure _ (some (Superclass.mk mark name))).beyond

theorem tracks_variableDeclaration (hφ : φ.Rigid) (hn : n ≤ n') :
    Tracks φ rest closed .passing seen True (Decl.relocate φ)
      (variableDeclaration (W := .endless) n) (variableDeclaration n') := by
  unfold variableDeclaration
  refine Tracks.advance.bind fun keyword => (Tracks.expectName _).bind ?_
  rintro ⟨name, nameSpan⟩
  refine (Tracks.accept (by decide)).bind fun equals => ?_
  have hend : ∀ initializer : Option Expr, Tracks φ rest closed .passing True True
      (Decl.relocate φ) (do
        let _ ← expect .semicolon .afterVariable
        let span ← spanFrom keyword.span
        pure (.varDecl name nameSpan initializer span))
      (do
        let _ ← expect .semicolon .afterVariable
        let span ← spanFrom (φ.span keyword.span)
        pure (.varDecl name (φ.span nameSpan) (initializer.map (Expr.relocate φ)) span)) :=
    fun initializer => (Tracks.expect (by decide)).passing_bind fun _ => (Tracks.spanFrom hφ _).bind
      fun span => Tracks.pure _ (Decl.varDecl name nameSpan initializer span)
  refine .ite ?_ ?_
  · exact ((tracksExpressions hφ hn).expression _).bind fun value =>
      (Tracks.pure (Option.map (Expr.relocate φ)) (some value)).bind hend
  · exact (Tracks.pure (Option.map (Expr.relocate φ)) none).bind hend

theorem tracks_expressionStatement (hφ : φ.Rigid) (hn : n ≤ n') :
    Tracks φ rest closed .passing seen True (Stmt.relocate φ)
      (expressionStatement (W := .endless) n) (expressionStatement n') := by
  unfold expressionStatement
  refine ((tracksExpressions hφ hn).expression _).bind fun e =>
    (Tracks.expect (by decide)).passing_bind fun _ => ?_
  rw [Expr.span_relocate]
  exact Tracks.pure _ (Stmt.expression e e.span)

theorem tracks_printStatement (hφ : φ.Rigid) (hn : n ≤ n') :
    Tracks φ rest closed .passing seen True (Stmt.relocate φ) (printStatement (W := .endless) n)
      (printStatement n') := by
  unfold printStatement
  exact Tracks.advance.bind fun keyword => ((tracksExpressions hφ hn).expression _).bind fun e =>
    (Tracks.expect (by decide)).passing_bind fun _ => (Tracks.spanFrom hφ _).bind fun span =>
    Tracks.pure _ (Stmt.print e span)

theorem tracks_returnStatement (hφ : φ.Rigid) (hn : n ≤ n') :
    Tracks φ rest closed .passing seen True (Stmt.relocate φ) (returnStatement (W := .endless) n)
      (returnStatement n') := by
  unfold returnStatement
  refine Tracks.advance.bind fun keyword => (Tracks.check _).bind fun closing => ?_
  have hend : ∀ value : Option Expr, Tracks φ rest closed .passing seen True
      (Stmt.relocate φ) (do
        let _ ← expect .semicolon .afterReturned
        let span ← spanFrom keyword.span
        pure (.ret keyword.span value span))
      (do
        let _ ← expect .semicolon .afterReturned
        let span ← spanFrom (φ.span keyword.span)
        pure (.ret (φ.span keyword.span) (value.map (Expr.relocate φ)) span)) :=
    fun value => (Tracks.expect (by decide)).passing_bind fun _ => (Tracks.spanFrom hφ _).bind
      fun span => Tracks.pure _ (Stmt.ret keyword.span value span)
  refine .ite ?_ ?_
  · exact (Tracks.pure (Option.map (Expr.relocate φ)) none).bind hend
  · exact ((tracksExpressions hφ hn).expression _).bind fun value =>
      (Tracks.pure (Option.map (Expr.relocate φ)) (some value)).bind hend

theorem tracks_loopInitializer (hφ : φ.Rigid) (hn : n ≤ n') :
    Tracks φ rest closed .beyond seen seen (Option.map (Decl.relocate φ))
      (loopInitializer (W := .endless) n) (loopInitializer n') := by
  unfold loopInitializer
  refine (Tracks.accept (by decide)).bind fun semicolon => .ite (Tracks.pure _ none).beyond ?_
  refine (Tracks.check _).bind fun keyword => .ite ?_ ?_
  · exact (tracks_variableDeclaration hφ hn).forget.bind fun d => (Tracks.pure _ (some d)).beyond
  · exact (tracks_expressionStatement hφ hn).forget.bind fun stmt =>
      (Tracks.pure _ (some (Decl.statement stmt))).beyond

theorem tracks_loopCondition (hφ : φ.Rigid) (hn : n ≤ n') :
    Tracks φ rest closed .beyond seen seen (Expr.relocate φ) (loopCondition (W := .endless) n)
      (loopCondition n') := by
  unfold loopCondition
  refine (Tracks.check _).bind fun closing => ?_
  have hend : ∀ condition : Expr, Tracks φ rest closed .beyond seen seen (Expr.relocate φ)
      (do
        let _ ← expect .semicolon .afterLoopCondition
        pure condition)
      (do
        let _ ← expect .semicolon .afterLoopCondition
        pure (condition.relocate φ)) :=
    fun condition => (Tracks.expect (by decide)).forget.bind fun _ =>
      (Tracks.pure _ condition).beyond
  refine .ite ?_ ?_
  · exact Tracks.peek.bind fun token => (Tracks.mark hφ rfl).bind fun mark =>
      (Tracks.pure (Expr.relocate φ) (.constant mark (.bool true))).bind hend
  · exact ((tracksExpressions hφ hn).expression _).bind hend

theorem tracks_loopIncrement (hφ : φ.Rigid) (hn : n ≤ n') :
    Tracks φ rest closed .beyond seen seen (Option.map (Expr.relocate φ))
      (loopIncrement (W := .endless) n) (loopIncrement n') := by
  unfold loopIncrement
  refine (Tracks.check _).bind fun closing => ?_
  have hend : ∀ increment : Option Expr, Tracks φ rest closed .beyond seen seen
      (Option.map (Expr.relocate φ))
      (do
        let _ ← expect .rightParen .afterForClauses
        pure increment)
      (do
        let _ ← expect .rightParen .afterForClauses
        pure (increment.map (Expr.relocate φ))) :=
    fun increment => (Tracks.expect (by decide)).forget.bind fun _ =>
      (Tracks.pure _ increment).beyond
  refine .ite ?_ ?_
  · exact (Tracks.pure (Option.map (Expr.relocate φ)) none).bind hend
  · exact ((tracksExpressions hφ hn).expression _).bind fun e =>
      (Tracks.pure (Option.map (Expr.relocate φ)) (some e)).bind hend

end Parts

/-! ### Declarations and statements -/

/-- With some fuel and with more, the parsers of declarations and statements answer alike. -/
structure TracksStatements [Counter] (φ : Relocation) (rest : List Token) (closed : Prop)
    (fuel fuel' : Nat) : Prop where
  declaration : ∀ seen, Tracks φ rest closed .within seen False (Option.map (Decl.relocate φ))
    (declaration (W := .endless) fuel) (declaration fuel')
  wholeDeclaration : ∀ seen, Tracks φ rest closed .passing seen True (Decl.relocate φ)
    (wholeDeclaration (W := .endless) fuel) (wholeDeclaration fuel')
  methods : ∀ seen, Tracks φ rest closed .beyond seen seen (Routine.allRelocate φ)
    (methods (W := .endless) fuel) (methods fuel')
  routine : ∀ seen role, Tracks φ rest closed .passing seen True (Routine.relocate φ)
    (routine (W := .endless) fuel role) (routine fuel' role)
  blockBody : ∀ seen, Tracks φ rest closed .passing seen True (Decl.allRelocate φ)
    (blockBody (W := .endless) fuel) (blockBody fuel')
  declarations : ∀ seen inBlock, Tracks φ rest closed .beyond seen False (Decl.allRelocate φ)
    (declarations (W := .endless) fuel inBlock) (declarations fuel' inBlock)
  statement : ∀ seen, Tracks φ rest closed .passing seen True (Stmt.relocate φ)
    (statement (W := .endless) fuel) (statement fuel')

section Statements

variable [Counter] {n n' : Nat} {seen : Prop}

theorem tracks_wholeDeclaration (hφ : φ.Rigid) (hn : n ≤ n')
    (ih : TracksStatements φ rest closed n n') :
    Tracks φ rest closed .passing seen True (Decl.relocate φ)
      (wholeDeclaration (W := .endless) (n + 1)) (wholeDeclaration (n' + 1)) := by
  unfold wholeDeclaration
  refine Tracks.peek.bind fun token => ?_
  rw [Token.kind_relocate]
  split
  · refine Tracks.advance.bind fun _ => (Tracks.expectName _).bind ?_
    rintro ⟨name, nameSpan⟩
    exact (tracks_superclass hφ).bind fun parent => (Tracks.expect (by decide)).bind fun _ =>
      (ih.methods _).bind fun methods => (Tracks.expect (by decide)).passing_bind fun _ =>
      (Tracks.spanFrom hφ _).bind fun span =>
      Tracks.pure _ (Decl.classDecl name nameSpan parent methods span)
  · exact Tracks.advance.bind fun _ => (ih.routine _ _).passing_bind fun r =>
      (Tracks.spanFrom hφ _).bind fun span => Tracks.pure _ (Decl.funDecl r span)
  · exact tracks_variableDeclaration hφ hn
  · exact (ih.statement _).passing_bind fun stmt => Tracks.pure _ (Decl.statement stmt)

theorem tracks_methods (ih : TracksStatements φ rest closed n n') :
    Tracks φ rest closed .beyond seen seen (Routine.allRelocate φ) (methods (W := .endless) (n + 1))
      (methods (n' + 1)) := by
  unfold methods
  refine (Tracks.check _).bind fun closing => Tracks.atEnd.bind fun finished =>
    .ite (Tracks.pure _ []).beyond ?_
  exact (ih.routine _ _).forget.bind fun method => (ih.methods _).bind fun others =>
    (Tracks.pure _ (method :: others)).beyond

theorem tracks_routine (hφ : φ.Rigid) (hn : n ≤ n') (ih : TracksStatements φ rest closed n n')
    (role : RoutineRole) :
    Tracks φ rest closed .passing seen True (Routine.relocate φ)
      (routine (W := .endless) (n + 1) role) (routine (n' + 1) role) := by
  unfold routine
  refine (Tracks.expectName _).bind ?_
  rintro ⟨name, nameSpan⟩
  exact (Tracks.expect (by decide)).bind fun _ => (tracks_parameterList hn).bind fun params =>
    (Tracks.expect (by decide)).bind fun _ => (Tracks.expect (by decide)).bind fun _ =>
    (ih.blockBody _).passing_bind fun body => (Tracks.spanFrom hφ _).bind fun span =>
    (Tracks.freshLabel hφ).bind fun label => Tracks.pure _ (Routine.mk label name params body span)

theorem tracks_blockBody (ih : TracksStatements φ rest closed n n') :
    Tracks φ rest closed .passing seen True (Decl.allRelocate φ) (blockBody (W := .endless) (n + 1))
      (blockBody (n' + 1)) := by
  unfold blockBody
  exact (ih.declarations _ _).bind fun body => (Tracks.expect (by decide)).passing_bind fun _ =>
    Tracks.pure _ body

theorem tracks_declarations (ih : TracksStatements φ rest closed n n') (inBlock : Bool) :
    Tracks φ rest closed .beyond seen False (Decl.allRelocate φ)
      (declarations (W := .endless) (n + 1) inBlock) (declarations (n' + 1) inBlock) := by
  unfold declarations
  refine (Tracks.check _).bind fun closing => Tracks.atEnd.bind fun finished =>
    .ite ((Tracks.pure _ []).beyond.weaken False.elim) ?_
  refine (ih.declaration _).bind fun d => (ih.declarations _ _).bind fun others => ?_
  rw [← relocate_toList_append]
  exact (Tracks.pure _ (d.toList ++ others)).beyond

theorem tracks_statement (hφ : φ.Rigid) (hn : n ≤ n') (ih : TracksStatements φ rest closed n n') :
    Tracks φ rest closed .passing seen True (Stmt.relocate φ) (statement (W := .endless) (n + 1))
      (statement (n' + 1)) := by
  unfold statement
  refine Tracks.peek.bind fun token => ?_
  rw [Token.kind_relocate]
  split
  · exact tracks_printStatement hφ hn
  · exact tracks_returnStatement hφ hn
  · exact Tracks.advance.bind fun _ => (ih.blockBody _).passing_bind fun body =>
      (Tracks.spanFrom hφ _).bind fun span => Tracks.pure _ (Stmt.block body span)
  · refine Tracks.advance.bind fun _ => (Tracks.expect (by decide)).bind fun _ =>
      ((tracksExpressions hφ hn).expression _).bind fun condition =>
      (Tracks.expect (by decide)).bind fun _ => (ih.statement _).passing_bind fun thenBranch =>
      Tracks.acceptElse.bind fun otherwise => ?_
    have hend : ∀ elseBranch : Option Stmt, Tracks φ rest closed .within True True
        (Stmt.relocate φ) (do
          let span ← spanFrom token.span
          pure (.ifElse condition thenBranch elseBranch span))
        (do
          let span ← spanFrom (φ.span token.span)
          pure (.ifElse (condition.relocate φ) (thenBranch.relocate φ)
            (elseBranch.map (Stmt.relocate φ)) span)) := by
      intro elseBranch
      refine (Tracks.spanFrom hφ _).bind fun span => ?_
      cases elseBranch with
      | none => exact Tracks.pure _ (Stmt.ifElse condition thenBranch none span)
      | some stmt => exact Tracks.pure _ (Stmt.ifElse condition thenBranch (some stmt) span)
    refine .ite ?_ ?_
    · exact (ih.statement _).bind (fun stmt =>
        (Tracks.pure (Option.map (Stmt.relocate φ)) (some stmt)).bind hend)
    · exact (Tracks.pure (Option.map (Stmt.relocate φ)) none).bind hend
  · exact Tracks.advance.bind fun _ => (Tracks.expect (by decide)).bind fun _ =>
      ((tracksExpressions hφ hn).expression _).bind fun condition =>
      (Tracks.expect (by decide)).bind fun _ => (ih.statement _).passing_bind fun body =>
      (Tracks.spanFrom hφ _).bind fun span => Tracks.pure _ (Stmt.whileLoop condition body span)
  · refine Tracks.advance.bind fun _ => (Tracks.expect (by decide)).bind fun _ =>
      (tracks_loopInitializer hφ hn).bind fun initializer =>
      (tracks_loopCondition hφ hn).bind fun condition =>
      (tracks_loopIncrement hφ hn).bind fun increment =>
      (ih.statement _).passing_bind fun body => (Tracks.spanFrom hφ _).bind fun span => ?_
    rw [← relocate_forLoop]
    exact Tracks.pure _ (forLoop initializer condition increment body span)
  · exact tracks_expressionStatement hφ hn

/-- **The parsers of declarations and statements answer alike**, also with more fuel. -/
theorem tracksStatements (hφ : φ.Rigid) {n n' : Nat} (hn : n ≤ n') :
    TracksStatements φ rest closed n n' := by
  induction n generalizing n' with
  | zero =>
      exact ⟨fun _ => .starve _, fun _ => .starve _, fun _ => .starve _,
        fun _ _ => .starve _, fun _ => .starve _, fun _ _ => .starve _,
        fun _ => .starve _⟩
  | succ n ih =>
      obtain ⟨m, rfl⟩ : ∃ m, n' = m + 1 := ⟨n' - 1, by omega⟩
      have hn := Nat.le_of_succ_le_succ hn
      have ih := ih hn
      exact ⟨fun _ => (ih.wholeDeclaration _).recover, fun _ => tracks_wholeDeclaration hφ hn ih,
        fun _ => tracks_methods ih, fun _ => tracks_routine hφ hn ih, fun _ => tracks_blockBody ih,
        fun _ => tracks_declarations ih, fun _ => tracks_statement hφ hn ih⟩

end Statements

end Parser

end Scriptlet
