/-
**Leaving out a statement.**

Behind a semicolon that ends a statement, a brief declaration may be left out of a program: an
expression with its semicolon, a `print`, a `return` or a variable declaration.  These are the ones
that recovery passes in full, since no token of them but the first begins a statement and none but
the last ends one.

Main definitions:

* `Scriptlet.Grammar.Brief` — the tokens of a brief declaration.

Main results:

* `Scriptlet.Grammar.Brief.resumption` — behind a brief declaration reading goes on;
* `Scriptlet.Grammar.Declaration.eq_brief` — a declaration that begins like a brief one is it;
* `Scriptlet.Grammar.Declarations.leave_out` — **a program stays a program when a brief declaration
  behind a semicolon is left out**, and no `else` follows.
-/

import Scriptlet.Proofs.Program.Seams

set_option relaxedAutoImplicit false
set_option autoImplicit false

namespace Scriptlet

/-- The kinds that a declaration without braces and without other statements in it begins with. -/
def TokenKind.beginsBriefly : TokenKind → Bool
  | .printWord | .returnWord | .varWord => true
  | kind => !kind.isStructural

namespace Grammar

/-! ### Brief declarations -/

/-- Tokens up to a semicolon that have nothing structural in them, but perhaps the word in front of
a `print`, a `return` or a variable declaration. -/
inductive Brief : List Token → Prop
  | mk {t semicolon : Token} {ts : List Token} : t.kind.beginsBriefly = true → Plainly ts →
      semicolon.kind = .semicolon → Brief (t :: (ts ++ [semicolon]))

theorem ne_of_beginsBriefly {kind : TokenKind} (h : kind.beginsBriefly = true) :
    kind ≠ .semicolon := by
  rintro rfl
  cases h

/-- Behind a brief declaration reading goes on. -/
theorem Brief.resumption {ts : List Token} (h : Brief ts) (us : List Token) :
    Cursor.resumption (ts ++ us) = us := by
  cases h with
  | mk ht h hs =>
      rw [List.cons_append, List.append_assoc]
      exact (Cursor.settle_plainly (ne_of_beginsBriefly ht) h (by rw [hs]; rfl)).trans
        (Cursor.settle_semicolon hs us)

/-- Only its last token is a semicolon. -/
theorem Brief.split {ts : List Token} (h : Brief ts) :
    ∃ us semicolon, ts = us ++ [semicolon] ∧ (∀ t ∈ us, t.kind ≠ .semicolon) ∧
      semicolon.kind = .semicolon := by
  cases h with
  | @mk t semicolon ts ht h hs =>
      refine ⟨t :: ts, semicolon, rfl, List.forall_mem_cons.2 ⟨ne_of_beginsBriefly ht, ?_⟩, hs⟩
      exact fun t ht => (Cursor.ne_of_not_structural (h t ht)).1

/-- A token of another kind does not begin a brief declaration. -/
theorem Brief.ne_cons {t : Token} {ts us vs : List Token} {k : TokenKind} (h : Brief us)
    (ht : t.kind = k) (hk : k.beginsBriefly = false) : t :: ts ≠ us ++ vs := by
  cases h with
  | mk hbegins _ _ =>
      rintro heq
      cases heq
      rw [ht, hk] at hbegins
      cases hbegins

/-- What stands up to the first semicolon is determined. -/
theorem eq_of_first_semicolon {ts us vs ws : List Token} {s s' : Token}
    (hts : ∀ t ∈ ts, t.kind ≠ .semicolon) (hs : s.kind = .semicolon)
    (hus : ∀ t ∈ us, t.kind ≠ .semicolon) (hs' : s'.kind = .semicolon)
    (h : ts ++ s :: vs = us ++ s' :: ws) : ts ++ [s] = us ++ [s'] := by
  rcases find_part h with ⟨us', rfl, h'⟩ | ⟨_, rfl, -⟩
  · rcases find_next h' with ⟨rfl, rfl, -⟩ | ⟨_, rfl, -⟩
    · rw [List.append_nil]
    · exact absurd hs (hus s (by simp))
  · exact absurd hs' (hts s' (by simp))

theorem Brief.eq_lead {ts us vs ws : List Token} {s : Token} (h : Brief us) (hts : Lead ts)
    (hs : s.kind = .semicolon) (heq : ts ++ [s] ++ vs = us ++ ws) : ts ++ [s] = us := by
  obtain ⟨us, s', rfl, hus, hs'⟩ := h.split
  rw [List.append_assoc, List.append_assoc] at heq
  exact eq_of_first_semicolon hts.unbroken hs hus hs' heq

/-- **A declaration that begins like a brief one is it.** -/
theorem Declaration.eq_brief {ts us vs ws : List Token} {d : Decl} (h : Declaration ts d)
    (hbrief : Brief us) (heq : ts ++ vs = us ++ ws) : ts = us := by
  cases h with
  | classDecl hk _ _ _ _ _ => exact absurd heq (hbrief.ne_cons hk rfl)
  | funDecl hk _ => exact absurd heq (hbrief.ne_cons hk rfl)
  | varDecl h =>
      cases h with
      | mk hk hn hi hs =>
          exact hbrief.eq_lead (hi.lead_names hk hn) hs heq
  | statement h =>
      cases h with
      | expression h hs => exact hbrief.eq_lead h.lead hs heq
      | print hk h hs => exact hbrief.eq_lead (.cons hk rfl h.lead) hs heq
      | ret hk h hs => exact hbrief.eq_lead (.cons hk rfl h.lead) hs heq
      | block h =>
          cases h with
          | mk ho _ _ => exact absurd heq (hbrief.ne_cons ho rfl)
      | ifThen hk _ _ _ _ => exact absurd heq (hbrief.ne_cons hk rfl)
      | ifElse hk _ _ _ _ _ _ => exact absurd heq (hbrief.ne_cons hk rfl)
      | whileLoop hk _ _ _ _ => exact absurd heq (hbrief.ne_cons hk rfl)
      | forLoop hk _ _ _ _ _ _ _ => exact absurd heq (hbrief.ne_cons hk rfl)

/-! ### Leaving one out -/

/-- Tokens that do not begin with an `else`. -/
abbrev NotElse (ts : List Token) : Prop := Starts (· ≠ .elseWord) ts

theorem notElse_append_cons {t : Token} {ts us : List Token} {k : TokenKind}
    (h : headKind ts ≠ .elseWord) (ht : t.kind = k) (hk : k ≠ .elseWord) :
    NotElse (ts ++ t :: us) := by
  cases ts with
  | nil => exact ⟨t, us, rfl, by rw [ht]; exact hk⟩
  | cons t' ts => exact ⟨t', ts ++ t :: us, rfl, h⟩

theorem Declarations.headKind_ne {ts : List Token} {ds : List Decl} (h : Declarations ts ds) :
    headKind ts ≠ .elseWord := by
  cases ts with
  | nil => decide
  | cons t ts =>
      have ht := h.starts
      rintro hk
      rw [headKind] at hk
      rw [hk] at ht
      cases ht

mutual

/-- **A program stays a program when a brief declaration behind a semicolon is left out**, and no
`else` follows, if the semicolon is outside of parentheses and not the last token. -/
theorem Declarations.leave_out {semicolon : Token} (hs : semicolon.kind = .semicolon)
    {xs ys : List Token} (hbrief : Brief xs) {ts : List Token} {ds : List Decl} :
    Declarations ts ds → ∀ {vs ws us}, ts = vs ++ semicolon :: ws → depth vs = 0 →
      ws ++ us = xs ++ ys → ws = [] ∨ ∃ ws' ds', ws = xs ++ ws' ∧
        Declarations (vs ++ semicolon :: ws') ds' ∧ headKind ws' ≠ .elseWord
  | .nil, _, _, _, heq, _, _ => by simp at heq
  | .cons h hds, vs, ws, us, heq, hd, hws => by
      rcases find_part heq with ⟨vs', rfl, heq'⟩ | ⟨ws₁, hts, rfl⟩
      · rw [depth_append, h.balanced, Int.zero_add] at hd
        refine (hds.leave_out hs hbrief heq' hd hws).imp_right ?_
        rintro ⟨ws', ds', hws', hds', helse⟩
        have hmore := Declarations.cons h hds'
        rw [← List.append_assoc] at hmore
        exact ⟨ws', _, hws', hmore, helse⟩
      · rw [List.append_assoc] at hws
        rcases h.leave_out hs hbrief hts hd hws with rfl | ⟨ws', d', rfl, h', helse⟩
        · cases hds with
          | nil => exact .inl rfl
          | cons h₁ hds₁ =>
              -- the declaration behind the one that ends at the semicolon is left out
              rw [List.nil_append, List.append_assoc] at hws
              obtain rfl := h₁.eq_brief hbrief hws
              have hmore := Declarations.cons h hds₁
              rw [hts, List.append_assoc] at hmore
              exact .inr ⟨_, _, rfl, hmore, hds₁.headKind_ne⟩
        · have hmore := Declarations.cons h' hds
          rw [List.append_assoc] at hmore
          obtain ⟨t, us', rfl, ht⟩ := helse
          exact .inr ⟨_, _, List.append_assoc _ _ _, hmore, ht⟩

theorem Declaration.leave_out {semicolon : Token} (hs : semicolon.kind = .semicolon)
    {xs ys : List Token} (hbrief : Brief xs) {ts : List Token} {d : Decl} :
    Declaration ts d → ∀ {vs ws us}, ts = vs ++ semicolon :: ws → depth vs = 0 →
      ws ++ us = xs ++ ys → ws = [] ∨ ∃ ws' d', ws = xs ++ ws' ∧
        Declaration (vs ++ semicolon :: ws') d' ∧ NotElse ws'
  | .classDecl hk hn hp ho hm hc, vs, ws, us, heq, hd, hws => by
      obtain ⟨vs', rfl, heq, hd⟩ := (hp.lead_names hk hn ho).find hs hd (by simpa using heq)
      obtain ⟨ws₁, hms, rfl⟩ := find_inside hc (by decide) hs heq
      rw [List.append_assoc] at hws
      obtain ⟨ws', rs, rfl, hm', helse⟩ := hm.leave_out hs hbrief hms hd hws
      have hmore := Declaration.classDecl hk hn hp ho hm' hc
      exact .inr ⟨ws' ++ [_], _, List.append_assoc _ _ _, by simpa using hmore, helse.append _⟩
  | .funDecl hk h, vs, ws, us, heq, hd, hws => by
      obtain ⟨vs', rfl, heq, hd⟩ := (Lead.cons hk rfl lead_nil).find hs hd heq
      obtain ⟨ws', r, hws', h', helse⟩ := h.leave_out hs hbrief heq hd hws
      exact .inr ⟨ws', _, hws', .funDecl hk h', helse⟩
  | .varDecl (.mk hk hn hi _), _, _, _, heq, _, _ => by
      exact .inl ((hi.lead_names hk hn).find_last hs heq).2.2
  | .statement h, _, _, _, heq, hd, hws =>
      (h.leave_out hs hbrief heq hd hws).imp_right fun ⟨ws', _, hws', h', helse⟩ =>
        ⟨ws', _, hws', .statement h', helse⟩

theorem Methods.leave_out {semicolon : Token} (hs : semicolon.kind = .semicolon)
    {xs ys : List Token} (hbrief : Brief xs) {ts : List Token} {rs : List Routine} :
    Methods ts rs → ∀ {vs ws us}, ts = vs ++ semicolon :: ws → depth vs = 0 →
      ws ++ us = xs ++ ys → ∃ ws' rs', ws = xs ++ ws' ∧
        Methods (vs ++ semicolon :: ws') rs' ∧ NotElse ws'
  | .nil, _, _, _, heq, _, _ => by simp at heq
  | .cons h hrs, vs, ws, us, heq, hd, hws => by
      rcases find_part heq with ⟨vs', rfl, heq'⟩ | ⟨ws₁, hts, rfl⟩
      · rw [depth_append, h.balanced, Int.zero_add] at hd
        obtain ⟨ws', rs', hws', hrs', helse⟩ := hrs.leave_out hs hbrief heq' hd hws
        have hmore := Methods.cons h hrs'
        rw [← List.append_assoc] at hmore
        exact ⟨ws', _, hws', hmore, helse⟩
      · rw [List.append_assoc] at hws
        obtain ⟨ws', r, rfl, h', helse⟩ := h.leave_out hs hbrief hts hd hws
        have hmore := Methods.cons h' hrs
        rw [List.append_assoc] at hmore
        exact ⟨_, _, List.append_assoc _ _ _, hmore, helse.append _⟩

theorem Function.leave_out {semicolon : Token} (hs : semicolon.kind = .semicolon)
    {xs ys : List Token} (hbrief : Brief xs) {ts : List Token} {r : Routine} :
    Function ts r → ∀ {vs ws us}, ts = vs ++ semicolon :: ws → depth vs = 0 →
      ws ++ us = xs ++ ys → ∃ ws' r', ws = xs ++ ws' ∧
        Function (vs ++ semicolon :: ws') r' ∧ NotElse ws'
  | .mk hn ho hp hc hb, vs, ws, us, heq, hd, hws => by
      have hlead := Lead.cons hn rfl (.parens ho hp.lead hc)
      obtain ⟨vs', rfl, heq, hd⟩ := hlead.find hs hd (by simpa using heq)
      obtain ⟨ws', body, hws', hb', helse⟩ := hb.leave_out hs hbrief heq hd hws
      have hmore := Function.mk hn ho hp hc hb'
      exact ⟨ws', _, hws', by simpa using hmore, helse⟩

theorem Block.leave_out {semicolon : Token} (hs : semicolon.kind = .semicolon)
    {xs ys : List Token} (hbrief : Brief xs) {ts : List Token} {body : List Decl} :
    Block ts body → ∀ {vs ws us}, ts = vs ++ semicolon :: ws → depth vs = 0 →
      ws ++ us = xs ++ ys → ∃ ws' body', ws = xs ++ ws' ∧
        Block (vs ++ semicolon :: ws') body' ∧ NotElse ws'
  | .mk ho h hc, vs, ws, us, heq, hd, hws => by
      obtain ⟨vs', rfl, heq, hd⟩ := (Lead.cons ho rfl lead_nil).find hs hd heq
      obtain ⟨ws₁, hts, rfl⟩ := find_inside hc (by decide) hs heq
      rw [List.append_assoc] at hws
      rcases h.leave_out hs hbrief hts hd hws with rfl | ⟨ws', ds', rfl, h', helse⟩
      · exact absurd hws (hbrief.ne_cons hc rfl)
      · have hmore := Block.mk ho h' hc
        exact ⟨ws' ++ [_], _, List.append_assoc _ _ _, by simpa using hmore,
          notElse_append_cons helse hc (by decide)⟩

theorem Statement.leave_out {semicolon : Token} (hs : semicolon.kind = .semicolon)
    {xs ys : List Token} (hbrief : Brief xs) {dangling : Bool} {ts : List Token} {s : Stmt} :
    Statement dangling ts s → ∀ {vs ws us}, ts = vs ++ semicolon :: ws → depth vs = 0 →
      ws ++ us = xs ++ ys → ws = [] ∨ ∃ ws' s', ws = xs ++ ws' ∧
        Statement dangling (vs ++ semicolon :: ws') s' ∧ NotElse ws'
  | .expression h _, _, _, _, heq, _, _ => .inl (h.lead.find_last hs heq).2.2
  | .print hk h _, _, _, _, heq, _, _ =>
      .inl ((Lead.cons hk rfl h.lead).find_last hs heq).2.2
  | .ret hk h _, _, _, _, heq, _, _ =>
      .inl ((Lead.cons hk rfl h.lead).find_last hs heq).2.2
  | .block h, _, _, us, heq, hd, hws => by
      obtain ⟨ws', body, hws', h', helse⟩ := h.leave_out hs hbrief heq hd hws
      exact .inr ⟨ws', _, hws', .block h', helse⟩
  | .ifThen hk ho he hc h, _, _, _, heq, hd, hws => by
      have hlead := he.lead_parens hk rfl ho hc
      obtain ⟨vs', rfl, heq, hd⟩ := hlead.find hs hd (by simpa using heq)
      refine (h.leave_out hs hbrief heq hd hws).imp_right ?_
      rintro ⟨ws', s', hws', h', helse⟩
      have hmore := Statement.ifThen hk ho he hc h'
      exact ⟨ws', _, hws', by simpa using hmore, helse⟩
  | .ifElse hk ho he hc h helse h', _, _, us, heq, hd, hws => by
      have hlead := he.lead_parens hk rfl ho hc
      obtain ⟨vs', rfl, heq, hd⟩ := hlead.find hs hd (by simpa using heq)
      rcases find_part heq with ⟨vs', rfl, heq'⟩ | ⟨ws₁, hts, rfl⟩
      · obtain ⟨vs', rfl, heq''⟩ := find_behind helse (by decide) hs heq'
        simp only [depth_append, depth_cons, h.balanced, helse, TokenKind.nesting,
          Int.zero_add] at hd
        refine (h'.leave_out hs hbrief heq'' hd hws).imp_right ?_
        rintro ⟨ws', s', hws', h'', hnot⟩
        have hmore := Statement.ifElse hk ho he hc h helse h''
        exact ⟨ws', _, hws', by simpa using hmore, hnot⟩
      · rw [List.append_assoc] at hws
        rcases h.leave_out hs hbrief hts hd hws with rfl | ⟨ws', s', rfl, h'', hnot⟩
        · exact absurd hws (hbrief.ne_cons helse rfl)
        · have hmore := Statement.ifElse hk ho he hc h'' helse h'
          exact .inr ⟨_, _, List.append_assoc _ _ _, by simpa using hmore, hnot.append _⟩
  | .whileLoop hk ho he hc h, _, _, _, heq, hd, hws => by
      have hlead := he.lead_parens hk rfl ho hc
      obtain ⟨vs', rfl, heq, hd⟩ := hlead.find hs hd (by simpa using heq)
      refine (h.leave_out hs hbrief heq hd hws).imp_right ?_
      rintro ⟨ws', s', hws', h', helse⟩
      have hmore := Statement.whileLoop hk ho he hc h'
      exact ⟨ws', _, hws', by simpa using hmore, helse⟩
  | .forLoop hk ho hi hcond hsemi hincr hc h, _, _, _, heq, hd, hws => by
      obtain ⟨vs', rfl, heq'⟩ := find_body hk ho hi hcond hincr hc hs hd heq
      simp only [depth_append, depth_cons, hk, ho, hsemi, hc, TokenKind.nesting, hi.balanced,
        hcond.lead.balanced, hincr.lead.balanced] at hd
      refine (h.leave_out hs hbrief heq' (by omega) hws).imp_right ?_
      rintro ⟨ws', s', hws', h', helse⟩
      have hmore := Statement.forLoop hk ho hi hcond hsemi hincr hc h'
      exact ⟨ws', _, hws', by simpa using hmore, helse⟩

end

end Grammar

end Scriptlet
