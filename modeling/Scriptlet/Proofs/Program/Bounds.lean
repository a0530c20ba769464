/-
**A parser stays within its tokens.**

A reader goes through its tokens by number.  It stands where the parser of the same name stands: at
any time the tokens ahead of the parser are those from the next number on up to the first end of the
source.  So there is always a token of the number that is looked for, no token behind the first end
of the source is looked at, the number never gets smaller, and what stands behind the first end
makes no difference.  Each call for a declaration passes a token, for otherwise an error is found,
and recovery passes one.

Main definitions:

* `Scriptlet.Layout` — the tokens up to the first end of the source;
* `Scriptlet.Tape.Shows` — **a tape that stands where a cursor stands**;
* `Scriptlet.Reader.Agree`, `Scriptlet.Reader.Simulates` — **a reader that answers as a parser
  does**, whatever stands behind the first end of the source.

Main results:

* `Scriptlet.Reader.Simulates.bind` — two readers in a row answer as two parsers do;
* `Scriptlet.Reader.simulatesExpressions`, `Scriptlet.Reader.simulatesStatements` — every reader
  answers as the parser of the same name;
* `Scriptlet.Reader.program_in_bounds` — **every list of tokens is read within its bounds**.
-/

import Mathlib.Data.List.TakeWhile
import Scriptlet.Proofs.Joined.Parse
import Scriptlet.Proofs.Program.Tape

set_option relaxedAutoImplicit false
set_option autoImplicit false

namespace Scriptlet

/-! ### Tapes and cursors -/

/-- The tokens before the first end of the source, and that end. -/
structure Layout where
  /-- The tokens before the end. -/
  inner : List Token
  /-- The first end of the source. -/
  finish : Token
  isInner : ∀ t ∈ inner, Cursor.isInner t = true
  finish_kind : finish.kind = .endOfSource

/-- The tokens up to and including the first end of the source. -/
def Layout.read (l : Layout) : List Token := l.inner ++ [l.finish]

theorem Layout.length_read (l : Layout) : l.read.length = l.inner.length + 1 := by
  simp [read]

namespace Tape

/-- The tape with other tokens. -/
def on (t : Tape) (us : List Token) : Tape := { t with tokens := us }

/-- The tape behind a look at a token. -/
def looked (t : Tape) : Tape := { t with trail := t.current :: t.trail }

/-- The tape at the next number. -/
def stepped (t : Tape) : Tape := { t with current := t.current + 1 }

/-- **A tape that stands where a cursor stands**, and whose reader has always gone forward, never
behind the first end of the source. -/
structure Shows (l : Layout) (c : Cursor) (t : Tape) : Prop where
  tokens : l.read <+: t.tokens
  current : t.current ≤ l.inner.length
  ahead : c.ahead = l.inner.drop t.current
  finish : c.finish = l.finish
  last : l.read[t.current - 1]? = some c.last
  supply : c.supply = t.supply
  errors : c.errors = t.errors
  trail : ∀ i ∈ t.trail, i ≤ t.current
  sorted : t.trail.Pairwise (· ≥ ·)
  calls : ∀ call ∈ t.calls, call.1 < call.2 ∧ call.2 ≤ t.current

namespace Shows

variable {l : Layout} {c : Cursor} {t : Tape} {us : List Token}

theorem on (h : t.Shows l c) (hus : l.read <+: us) : (t.on us).Shows l c :=
  { h with tokens := hus }

theorem looked (h : t.Shows l c) : t.looked.Shows l c :=
  { h with
    trail := List.forall_mem_cons.2 ⟨Nat.le_refl _, h.trail⟩
    sorted := .cons h.trail h.sorted }

/-- Where tokens are ahead, the next number is that of an inner token. -/
theorem lt (h : t.Shows l c) (hne : c.ahead ≠ []) : t.current < l.inner.length := by
  rw [h.ahead, ne_eq, List.drop_eq_nil_iff] at hne
  omega

/-- A tape goes on with a cursor. -/
theorem stepped (h : t.Shows l c) (hne : c.ahead ≠ []) : t.stepped.Shows l c.advance := by
  have hlt := h.lt hne
  have hahead := h.ahead
  rw [List.drop_eq_getElem_cons hlt] at hahead
  unfold Cursor.advance
  rw [hahead]
  exact
    { tokens := h.tokens
      current := hlt
      ahead := rfl
      finish := h.finish
      last := by
        have hread : l.read[t.current]? = some l.inner[t.current] := by
          rw [Layout.read, List.getElem?_append_left hlt, List.getElem?_eq_getElem hlt]
        exact hread
      supply := h.supply
      errors := h.errors
      trail := fun i hi => Nat.le_succ_of_le (h.trail i hi)
      sorted := h.sorted
      calls := fun call hcall => ⟨(h.calls call hcall).1,
        Nat.le_succ_of_le (h.calls call hcall).2⟩ }

/-- The next token has the next number. -/
theorem next (h : t.Shows l c) : l.read[t.current]? = some c.next := by
  unfold Cursor.next Layout.read
  rw [h.ahead]
  by_cases hlt : t.current < l.inner.length
  · rw [List.drop_eq_getElem_cons hlt, List.getElem?_append_left hlt,
      List.getElem?_eq_getElem hlt]
  · have hend : t.current = l.inner.length := Nat.le_antisymm h.current (Nat.le_of_not_lt hlt)
    rw [hend, List.drop_length, h.finish]
    simp

/-- Only the first end of the source is of its kind. -/
theorem next_kind (h : t.Shows l c) : (c.next.kind == .endOfSource) = c.ahead.isEmpty := by
  unfold Cursor.next
  cases hahead : c.ahead with
  | nil => simp [h.finish, l.finish_kind]
  | cons token ts =>
      have hmem : token ∈ l.inner := List.mem_of_mem_drop (h.ahead ▸ hahead ▸ List.mem_cons_self)
      simpa [Cursor.isInner] using l.isInner token hmem

/-- Where the next token is not the end of the source, tokens are ahead. -/
theorem ahead_ne_nil (h : t.Shows l c) {kind : TokenKind} (hk : c.next.kind = kind)
    (hne : kind ≠ .endOfSource) : c.ahead ≠ [] :=
  Cursor.ahead_ne_nil (by rw [h.finish, l.finish_kind]) hk hne

end Shows

end Tape

open Tape

/-! ### Parsers that look before they pass -/

namespace Parser

variable {α : Type}

theorem check_ite (kind : TokenKind) (p q : Parser α) :
    (do if ← check kind then p else q : Parser α) =
      fun c => if c.next.kind = kind then p c else q c := by
  funext c
  rw [check_bind]
  by_cases h : c.next.kind = kind <;> simp [h]

theorem accept_eq (kind : TokenKind) : accept kind = (do
    if ← check kind then
      let _ ← advance
      pure true
    else
      pure false) :=
  (check_ite kind _ _).symm

theorem expect_eq (kind : TokenKind) (place : Place) : expect kind place = (do
    if ← check kind then
      let token ← advance
      pure token.span
    else
      failHere (.expectedToken kind place)) :=
  (check_ite kind _ _).symm

theorem expectName_eq (role : NameRole) : expectName role = (do
    if ← check .identifier then
      let token ← advance
      pure (token.lexeme, token.span)
    else
      failHere (.expectedName role)) :=
  (check_ite .identifier _ _).symm

end Parser

namespace Reader

variable {α β : Type} {l : Layout} {c : Cursor} {t : Tape}

/-! ### Single steps, by number -/

theorem bind_of_done {r : Reader α} {f : α → Reader β} {t t' : Tape} {a : α}
    (h : r t = .done a t') : (r >>= f) t = f a t' := by
  rw [bind_apply, h]

/-- **A token that is read is on the tape.** -/
theorem look_eq {back : Nat} {token : Token} (h : l.read <+: t.tokens)
    (htoken : l.read[t.current - back]? = some token) : look back t = .done token t.looked := by
  obtain ⟨behind, hbehind⟩ := h
  have htape : t.tokens[t.current - back]? = some token := by
    rw [← hbehind, List.getElem?_append_left (List.getElem?_eq_some_iff.1 htoken).1, htoken]
  rw [look, htape]
  rfl

theorem peek_eq (h : t.Shows l c) : peek t = .done c.next t.looked := look_eq h.tokens h.next

theorem previous_eq (h : t.Shows l c) : previous t = .done c.last t.looked :=
  look_eq h.tokens h.last

theorem check_eq (h : t.Shows l c) (kind : TokenKind) :
    check kind t = .done (c.next.kind == kind) t.looked :=
  bind_of_done (peek_eq h)

theorem isAtEnd_eq (h : t.Shows l c) : isAtEnd t = .done c.ahead.isEmpty t.looked :=
  (check_eq h .endOfSource).trans (by rw [h.next_kind])

/-- At the end of the source a reader does not move. -/
theorem advance_eq_of_nil (h : t.Shows l c) (hnil : c.ahead = []) :
    advance t = .done c.last t.looked.looked := by
  rw [advance, bind_of_done (isAtEnd_eq h), if_pos (by rw [hnil]; rfl), previous_eq h.looked]

/-- **A token that is passed is the one that a reader answers with.** -/
theorem advance_eq (h : t.Shows l c) (hne : c.ahead ≠ []) :
    advance t = .done c.next t.looked.stepped.looked := by
  have hlast : c.advance.last = c.next := by
    obtain ⟨token, ts, hts⟩ := List.exists_cons_of_ne_nil hne
    simp [Cursor.advance, Cursor.next, hts]
  rw [advance, bind_of_done (isAtEnd_eq h), if_neg (by simp [hne]), ← hlast]
  exact (bind_of_done rfl).trans (previous_eq (h.looked.stepped hne))

/-! ### Readers and parsers -/

/-- **What a reader answers and what a parser does**: the same, and a reader of other tokens that
begin with those that are read has done the same. -/
inductive Agree (l : Layout) (us : List Token) : Reply α → Answer α → Answer α → Prop
  | done {a : α} {c : Cursor} {t : Tape} : t.Shows l c →
      Agree l us (.done a c) (.done a t) (.done a (t.on us))
  | failed {e : SyntaxError} {c : Cursor} {t : Tape} : t.Shows l c →
      Agree l us (.failed e c) (.failed e t) (.failed e (t.on us))
  | starved : Agree l us .starved .starved .starved

/-- **A reader that answers as a parser does**, where their tape and cursor stand at one place,
whatever stands behind the first end of the source. -/
def Simulates (p : Parser α) (r : Reader α) : Prop :=
  ∀ ⦃l : Layout⦄ ⦃us : List Token⦄ ⦃c : Cursor⦄ ⦃t : Tape⦄, l.read <+: us → t.Shows l c →
    Agree l us (p c) (r t) (r (t.on us))

/-- What two readers in a row answer, where the first one has answered as a parser did. -/
theorem Agree.bind {us : List Token} {p : Parser α} {r : Reader α} {f : α → Parser β}
    {g : α → Reader β} {c : Cursor} {t : Tape} (hagree : Agree l us (p c) (r t) (r (t.on us)))
    (hus : l.read <+: us) (hf : ∀ a, Simulates (f a) (g a)) :
    Agree l us ((p >>= f) c) ((r >>= g) t) ((r >>= g) (t.on us)) := by
  rw [Parser.bind_apply, bind_apply, bind_apply]
  generalize p c = reply, r t = answer, r (t.on us) = answer' at hagree
  cases hagree with
  | done h => exact hf _ hus h
  | failed h => exact .failed h
  | starved => exact .starved

namespace Simulates

theorem pure (a : α) : Simulates (Parser.pure a) (Reader.pure a) := fun _ _ _ _ _ h => .done h

/-- **Two readers in a row answer as two parsers do.** -/
theorem bind {p : Parser α} {r : Reader α} {f : α → Parser β} {g : α → Reader β}
    (hp : Simulates p r) (hf : ∀ a, Simulates (f a) (g a)) : Simulates (p >>= f) (r >>= g) :=
  fun _ _ _ _ hus h => (hp hus h).bind hus hf

theorem starve : Simulates (Parser.starve : Parser α) Reader.starve := fun _ _ _ _ _ _ => .starved

theorem fail (e : SyntaxError) : Simulates (Parser.fail e : Parser α) (Reader.fail e) :=
  fun _ _ _ _ _ h => .failed h

theorem peek : Simulates Parser.peek Reader.peek := by
  intro l us c t hus h
  rw [peek_eq h, peek_eq (h.on hus)]
  exact .done h.looked

theorem lastSpan : Simulates Parser.lastSpan (do
    let last ← previous
    Reader.pure last.span) := by
  intro l us c t hus h
  rw [bind_of_done (previous_eq h), bind_of_done (previous_eq (h.on hus))]
  exact .done h.looked

theorem check (kind : TokenKind) : Simulates (Parser.check kind) (Reader.check kind) := by
  intro l us c t hus h
  rw [check_eq h, check_eq (h.on hus)]
  exact .done h.looked

theorem atEnd : Simulates Parser.atEnd isAtEnd := by
  intro l us c t hus h
  rw [isAtEnd_eq h, isAtEnd_eq (h.on hus)]
  exact .done h.looked

/-- Where the answer does not matter, going on is the same at the end of the source, too. -/
theorem advance {p : Parser β} {r : Reader β} (hp : Simulates p r) :
    Simulates (do let _ ← Parser.advance; p) (do let _ ← Reader.advance; r) := by
  intro l us c t hus h
  rw [Parser.advance_bind]
  by_cases hnil : c.ahead = []
  · have hstay : c.advance = c := by
      rw [Cursor.advance, hnil]
    rw [hstay, bind_of_done (advance_eq_of_nil h hnil),
      bind_of_done (advance_eq_of_nil (h.on hus) hnil)]
    exact hp hus h.looked.looked
  · rw [bind_of_done (advance_eq h hnil), bind_of_done (advance_eq (h.on hus) hnil)]
    exact hp hus (h.looked.stepped hnil).looked

/-- A token that is looked at and passed. -/
theorem passing {f : Token → Parser β} {g : Token → Reader β}
    (hf : ∀ token, Simulates (f token) (g token)) :
    Simulates (do let token ← Parser.advance; f token)
      (do let token ← Reader.peek; let _ ← Reader.advance; g token) := by
  intro l us c t hus h
  rw [bind_of_done (peek_eq h), bind_of_done (peek_eq (h.on hus))]
  exact (hf c.next).advance hus h.looked

/-- A token that is passed if it has a kind. -/
theorem taking {kind : TokenKind} (hk : kind ≠ .endOfSource) {f : Token → Parser β}
    {g : Token → Reader β} {p : Parser β} {r : Reader β}
    (hf : ∀ token, Simulates (f token) (g token)) (hp : Simulates p r) :
    Simulates
      (do if ← Parser.check kind then let token ← Parser.advance; f token else p)
      (do if ← Reader.check kind then let token ← Reader.advance; g token else r) := by
  intro l us c t hus h
  rw [Parser.check_bind, bind_of_done (check_eq h _), bind_of_done (check_eq (h.on hus) _)]
  by_cases hnext : c.next.kind = kind
  · have hne := h.ahead_ne_nil hnext hk
    rw [if_pos (beq_iff_eq.2 hnext), if_pos (beq_iff_eq.2 hnext), Parser.advance_bind,
      bind_of_done (advance_eq h.looked hne), bind_of_done (advance_eq (h.on hus).looked hne)]
    exact hf c.next hus (h.looked.looked.stepped hne).looked
  · rw [if_neg (by simpa using hnext), if_neg (by simpa using hnext)]
    exact hp hus h.looked

theorem accept {kind : TokenKind} (hk : kind ≠ .endOfSource) :
    Simulates (Parser.accept kind) (Reader.accept kind) := by
  rw [Parser.accept_eq]
  exact .taking hk (fun _ => .pure true) (.pure false)

theorem failHere (fault : SyntaxFault) :
    Simulates (Parser.failHere fault : Parser α) (Reader.failHere fault) :=
  .bind .peek fun token => .fail ⟨fault, token⟩

theorem expect {kind : TokenKind} {place : Place} (hk : kind ≠ .endOfSource) :
    Simulates (Parser.expect kind place) (Reader.expect kind place) := by
  rw [Parser.expect_eq]
  exact .taking hk (fun token => .pure token.span) (.failHere _)

theorem expectName (role : NameRole) :
    Simulates (Parser.expectName role) (Reader.expectName role) := by
  rw [Parser.expectName_eq]
  exact .taking (by decide) (fun token => .pure (token.lexeme, token.span)) (.failHere _)

theorem report (fault : SyntaxFault) : Simulates (Parser.report fault) (Reader.report fault) := by
  intro l us c t hus h
  rw [Reader.report, bind_of_done (peek_eq h), bind_of_done (peek_eq (h.on hus))]
  exact .done { h.looked with errors := congrArg _ h.errors }

theorem mark (span : Span) : Simulates (Parser.mark span) (Reader.mark span) := by
  intro l us c t hus h
  obtain ⟨tokens, current, supply, errors, trail, calls⟩ := t
  obtain rfl : c.supply = supply := h.supply
  exact .done { h with supply := rfl }

theorem freshLabel : Simulates Parser.freshLabel Reader.freshLabel := by
  intro l us c t hus h
  obtain ⟨tokens, current, supply, errors, trail, calls⟩ := t
  obtain rfl : c.supply = supply := h.supply
  exact .done { h with supply := rfl }

theorem spanFrom (start : Span) : Simulates (Parser.spanFrom start) (Reader.spanFrom start) := by
  intro l us c t hus h
  rw [Reader.spanFrom, bind_of_done (previous_eq h), bind_of_done (previous_eq (h.on hus))]
  exact .done h.looked

/-- A list that may be too long. -/
theorem limited {p : Parser α} {r : Reader α} {count : Nat} {fault : SyntaxFault}
    (hp : Simulates p r) :
    Simulates (if arityLimit ≤ count then (do Parser.report fault; p) else p)
      (if arityLimit ≤ count then (do Reader.report fault; r) else r) := by
  split
  · exact (report fault).bind fun _ => hp
  · exact hp

end Simulates

/-! ### Recovery -/

/-- **A reader settles where a cursor does**, with fuel for the tokens ahead. -/
theorem settle_eq {us : List Token} (hus : l.read <+: us) (h : t.Shows l c) {n m : Nat}
    (hn : c.ahead.length < n) (hm : c.ahead.length < m) :
    ∃ t', settle n t = .done () t' ∧ settle m (t.on us) = .done () (t'.on us) ∧
      t'.Shows l { c with
        last := (Cursor.settle c.last c.ahead).1, ahead := (Cursor.settle c.last c.ahead).2 } := by
  induction n generalizing m c t with
  | zero => exact absurd hn (Nat.not_lt_zero _)
  | succ n ih =>
      obtain ⟨k, rfl⟩ : ∃ k, m = k + 1 := ⟨m - 1, by omega⟩
      rw [settle, settle, bind_of_done (isAtEnd_eq h), bind_of_done (isAtEnd_eq (h.on hus))]
      by_cases hnil : c.ahead = []
      · rw [if_pos (by rw [hnil]; rfl), if_pos (by rw [hnil]; rfl)]
        refine ⟨t.looked, rfl, rfl, ?_⟩
        rw [hnil, Cursor.settle]
        exact { h.looked with ahead := hnil ▸ h.ahead }
      have hopen : ¬c.ahead.isEmpty = true := by simp [hnil]
      rw [if_neg hopen, if_neg hopen, bind_of_done (previous_eq h.looked),
        bind_of_done (previous_eq (h.on hus).looked)]
      obtain ⟨token, ts, hts⟩ := List.exists_cons_of_ne_nil hnil
      by_cases hlast : c.last.kind = .semicolon
      · rw [if_pos hlast, if_pos hlast]
        refine ⟨t.looked.looked, rfl, rfl, ?_⟩
        rw [hts, Cursor.settle, if_pos hlast]
        exact { h.looked.looked with ahead := hts ▸ h.ahead }
      rw [if_neg hlast, if_neg hlast, bind_of_done (peek_eq h.looked.looked),
        bind_of_done (peek_eq (h.on hus).looked.looked)]
      have hnext : c.next = token := by rw [Cursor.next, hts]
      by_cases hstart : c.next.kind.startsStatement = true
      · rw [if_pos hstart, if_pos hstart]
        refine ⟨t.looked.looked.looked, rfl, rfl, ?_⟩
        rw [hts, Cursor.settle, if_neg hlast, if_pos (hnext ▸ hstart)]
        exact { h.looked.looked.looked with ahead := hts ▸ h.ahead }
      · rw [if_neg hstart, if_neg hstart, bind_of_done (advance_eq h.looked.looked.looked hnil),
          bind_of_done (advance_eq (h.on hus).looked.looked.looked hnil)]
        -- behind the token that is passed, the rest is settled
        have hadvance : c.advance = { c with ahead := ts, last := token } := by
          rw [Cursor.advance, hts]
        have hrest := (h.looked.looked.looked.looked.stepped hnil).looked
        rw [hadvance] at hrest
        rw [hts, List.length_cons] at hn hm
        obtain ⟨t', ht, ht', hshows⟩ := ih hrest (m := k) (Nat.lt_of_succ_lt_succ hn)
          (Nat.lt_of_succ_lt_succ hm)
        refine ⟨t', ht, ht', ?_⟩
        rw [hts, Cursor.settle, if_neg hlast, if_neg (hnext ▸ hstart)]
        exact hshows

/-- **Recovery stops where that of a cursor does.** -/
theorem synchronize_eq {us : List Token} (hus : l.read <+: us) (h : t.Shows l c) :
    ∃ t', synchronize t = .done () t' ∧ synchronize (t.on us) = .done () (t'.on us) ∧
      t'.Shows l c.synchronize := by
  have hlength : ∀ {vs : List Token}, l.read <+: vs → c.ahead.length < vs.length := by
    intro vs hvs
    have hread := hvs.length_le
    rw [Layout.length_read] at hread
    rw [h.ahead, List.length_drop]
    omega
  rw [synchronize]
  by_cases hnil : c.ahead = []
  · rw [bind_of_done (advance_eq_of_nil h hnil), bind_of_done (advance_eq_of_nil (h.on hus) hnil)]
    obtain ⟨t', ht, ht', hshows⟩ := settle_eq hus h.looked.looked
      (hlength h.tokens) (hlength hus)
    refine ⟨t', ht, ht', ?_⟩
    rw [hnil] at hshows
    rw [Cursor.synchronize, hnil]
    exact { hshows with ahead := hnil.trans hshows.ahead }
  · obtain ⟨token, ts, hts⟩ := List.exists_cons_of_ne_nil hnil
    have hadvance : c.advance = { c with ahead := ts, last := token } := by
      rw [Cursor.advance, hts]
    rw [bind_of_done (advance_eq h hnil), bind_of_done (advance_eq (h.on hus) hnil)]
    have hrest := (h.looked.stepped hnil).looked
    rw [hadvance] at hrest
    have hless : ts.length < c.ahead.length := by simp [hts]
    obtain ⟨t', ht, ht', hshows⟩ := settle_eq hus hrest
      (Nat.lt_trans hless (hlength h.tokens)) (Nat.lt_trans hless (hlength hus))
    refine ⟨t', ht, ht', ?_⟩
    rw [Cursor.synchronize, hts]
    exact hshows

theorem recovered_eq {e : SyntaxError} {t t' : Tape}
    (h : synchronize { t with errors := e :: t.errors } = .done () t') :
    (do
      let _ ← record e
      let _ ← synchronize
      pure none : Reader (Option α)) t = .done none t' :=
  (bind_of_done rfl).trans (bind_of_done h)

/-- A reader recovers from an error as a parser does. -/
theorem Simulates.recover {p : Parser α} {r : Reader α} (hp : Simulates p r) :
    Simulates (Parser.recover p) (Reader.recover r) := by
  intro l us c t hus h
  have hagree := hp hus h
  unfold Parser.recover Reader.recover
  generalize p c = reply, r t = answer, r (t.on us) = answer' at hagree
  cases hagree with
  | done h => exact .done h
  | @failed e c t h =>
      have hrecorded : Shows l { c with errors := e :: c.errors }
          { t with errors := e :: t.errors } :=
        { h with errors := congrArg _ h.errors }
      obtain ⟨t', ht, ht', hshows⟩ := synchronize_eq hus hrecorded
      dsimp only
      rw [recovered_eq ht, recovered_eq (t := t.on us) ht']
      exact .done hshows
  | starved => exact .starved

/-! ### Expressions -/

/-- With the same fuel, the readers of expressions answer as the parsers do. -/
structure SimulatesExpressions (fuel : Nat) : Prop where
  expression : Simulates (Parser.expression fuel) (expression fuel)
  assignment : Simulates (Parser.assignment fuel) (assignment fuel)
  operand : ∀ level, Simulates (Parser.operand fuel level) (operand fuel level)
  joins : ∀ level left, Simulates (Parser.joins fuel level left) (joins fuel level left)
  unary : Simulates (Parser.unary fuel) (unary fuel)
  suffixes : ∀ callee, Simulates (Parser.suffixes fuel callee) (suffixes fuel callee)
  argumentList : Simulates (Parser.argumentList fuel) (argumentList fuel)
  arguments : ∀ count, Simulates (Parser.arguments fuel count) (arguments fuel count)
  primary : Simulates (Parser.primary fuel) (primary fuel)

section Expressions

variable {n : Nat}

theorem simulates_expression (ih : SimulatesExpressions n) :
    Simulates (Parser.expression (n + 1)) (expression (n + 1)) := by
  rw [Parser.expression, expression]
  refine ih.assignment.bind fun condition => Simulates.peek.bind fun question => ?_
  split
  · refine .advance (ih.assignment.bind fun thenBranch =>
      (Simulates.accept (by decide)).bind fun colon => ?_)
    split
    · exact ih.assignment.bind fun _ => (Simulates.mark _).bind fun _ => .pure _
    · exact .fail _
  · exact .pure _

theorem simulates_assignment (ih : SimulatesExpressions n) :
    Simulates (Parser.assignment (n + 1)) (assignment (n + 1)) := by
  rw [Parser.assignment, assignment]
  refine (ih.operand _).bind fun target => Simulates.peek.bind fun equals => ?_
  split
  · refine .advance (ih.assignment.bind fun value => ?_)
    cases target
    case «variable» => exact (Simulates.mark _).bind fun _ => .pure _
    case get => exact (Simulates.mark _).bind fun _ => .pure _
    all_goals exact .fail _
  · exact .pure _

theorem simulates_operand (ih : SimulatesExpressions n) (level : Option Level) :
    Simulates (Parser.operand (n + 1) level) (operand (n + 1) level) := by
  cases level with
  | none => exact ih.unary
  | some level =>
      rw [Parser.operand, operand]
      exact (ih.operand _).bind fun _ => ih.joins _ _

theorem simulates_joins (ih : SimulatesExpressions n) (level : Level) (left : Expr) :
    Simulates (Parser.joins (n + 1) level left) (joins (n + 1) level left) := by
  rw [Parser.joins, joins]
  refine Simulates.peek.bind fun operator => ?_
  cases level.join? operator.kind with
  | some join =>
      exact .advance ((ih.operand _).bind fun _ => (Simulates.mark _).bind fun _ => ih.joins _ _)
  | none => exact .pure _

theorem simulates_unary (ih : SimulatesExpressions n) :
    Simulates (Parser.unary (n + 1)) (unary (n + 1)) := by
  rw [Parser.unary, unary]
  refine Simulates.peek.bind fun operator => ?_
  cases UnaryOp.ofKind? operator.kind with
  | some op =>
      exact .advance (ih.unary.bind fun _ => (Simulates.mark _).bind fun _ => .pure _)
  | none => exact ih.primary.bind fun _ => ih.suffixes _

theorem simulates_suffixes (ih : SimulatesExpressions n) (callee : Expr) :
    Simulates (Parser.suffixes (n + 1) callee) (suffixes (n + 1) callee) := by
  rw [Parser.suffixes, suffixes]
  refine (Simulates.accept (by decide)).bind fun opening => ?_
  split
  · exact ih.argumentList.bind fun _ => (Simulates.expect (by decide)).bind fun _ =>
      (Simulates.mark _).bind fun _ => ih.suffixes _
  · refine (Simulates.accept (by decide)).bind fun dot => ?_
    split
    · exact (Simulates.expectName _).bind fun _ => (Simulates.mark _).bind fun _ => ih.suffixes _
    · exact .pure _

theorem simulates_argumentList (ih : SimulatesExpressions n) :
    Simulates (Parser.argumentList (n + 1)) (argumentList (n + 1)) := by
  rw [Parser.argumentList, argumentList]
  refine (Simulates.check _).bind fun closing => ?_
  split
  · exact .pure _
  · exact ih.arguments 0

theorem simulates_arguments (ih : SimulatesExpressions n) (count : Nat) :
    Simulates (Parser.arguments (n + 1) count) (arguments (n + 1) count) := by
  rw [Parser.arguments, arguments]
  refine .limited (ih.expression.bind fun argument =>
    (Simulates.accept (by decide)).bind fun comma => ?_)
  split
  · exact (ih.arguments _).bind fun _ => .pure _
  · exact .pure _

theorem simulates_constant (token : Token) :
    Simulates
      (match Constant.ofToken? token with
        | some value => do
            let _ ← Parser.advance
            let mark ← Parser.mark token.span
            pure (.constant mark value)
        | none => Parser.fail ⟨.malformedLiteral, token⟩ : Parser Expr)
      (match Constant.ofToken? token with
        | some value => do
            let _ ← advance
            let mark ← mark token.span
            pure (.constant mark value)
        | none => fail ⟨.malformedLiteral, token⟩) := by
  cases Constant.ofToken? token with
  | some value => exact .advance ((Simulates.mark _).bind fun _ => .pure _)
  | none => exact .fail _

theorem simulates_primary (ih : SimulatesExpressions n) :
    Simulates (Parser.primary (n + 1)) (primary (n + 1)) := by
  rw [Parser.primary, primary]
  refine Simulates.peek.bind fun token => ?_
  cases token.kind
  case number => exact simulates_constant token
  case string => exact simulates_constant token
  case trueWord => exact simulates_constant token
  case falseWord => exact simulates_constant token
  case nilWord => exact simulates_constant token
  case thisWord => exact .advance ((Simulates.mark _).bind fun _ => .pure _)
  case superWord =>
      exact .advance ((Simulates.expect (by decide)).bind fun _ =>
        (Simulates.expectName _).bind fun _ => (Simulates.mark _).bind fun _ => .pure _)
  case identifier => exact .advance ((Simulates.mark _).bind fun _ => .pure _)
  case leftParen =>
      exact .advance (ih.expression.bind fun _ => (Simulates.expect (by decide)).bind fun _ =>
        (Simulates.mark _).bind fun _ => .pure _)
  all_goals exact .fail _

/-- **The readers of expressions answer as the parsers do**, whatever the fuel. -/
theorem simulatesExpressions (n : Nat) : SimulatesExpressions n := by
  induction n with
  | zero =>
      exact ⟨.starve, .starve, fun level => by cases level <;> exact .starve, fun _ _ => .starve,
        .starve, fun _ => .starve, .starve, fun _ => .starve, .starve⟩
  | succ n ih =>
      exact ⟨simulates_expression ih, simulates_assignment ih, simulates_operand ih,
        simulates_joins ih, simulates_unary ih, simulates_suffixes ih, simulates_argumentList ih,
        simulates_arguments ih, simulates_primary ih⟩

end Expressions

/-! ### Parts of declarations and statements -/

theorem simulates_parameters (n count : Nat) :
    Simulates (Parser.parameters n count) (parameters n count) := by
  induction n generalizing count with
  | zero => exact .starve
  | succ n ih =>
      rw [Parser.parameters, parameters]
      refine .limited ((Simulates.expectName _).bind ?_)
      rintro ⟨name, span⟩
      refine (Simulates.accept (by decide)).bind fun comma => ?_
      split
      · exact (ih _).bind fun _ => .pure _
      · exact .pure _

section Parts

variable (n : Nat)

theorem simulates_parameterList : Simulates (Parser.parameterList n) (parameterList n) := by
  refine (Simulates.check _).bind fun closing => ?_
  split
  · exact .pure _
  · exact simulates_parameters n 0

theorem simulates_superclass : Simulates Parser.superclass superclass := by
  refine (Simulates.accept (by decide)).bind fun less => ?_
  split
  · exact (Simulates.expectName _).bind fun _ => (Simulates.mark _).bind fun _ => .pure _
  · exact .pure _

theorem simulates_variableDeclaration :
    Simulates (Parser.variableDeclaration n) (variableDeclaration n) := by
  refine .passing fun keyword => (Simulates.expectName _).bind ?_
  rintro ⟨name, nameSpan⟩
  have hend : ∀ initializer : Option Expr, Simulates
      (do
        let _ ← Parser.expect .semicolon .afterVariable
        let span ← Parser.spanFrom keyword.span
        pure (.varDecl name nameSpan initializer span) : Parser Decl)
      (do
        let _ ← expect .semicolon .afterVariable
        let span ← spanFrom keyword.span
        pure (.varDecl name nameSpan initializer span)) := fun _ =>
    (Simulates.expect (by decide)).bind fun _ => (Simulates.spanFrom _).bind fun _ => .pure _
  refine (Simulates.accept (by decide)).bind fun equals => ?_
  split
  · exact (simulatesExpressions n).expression.bind fun _ => (Simulates.pure _).bind hend
  · exact (Simulates.pure _).bind hend

theorem simulates_expressionStatement :
    Simulates (Parser.expressionStatement n) (expressionStatement n) :=
  (simulatesExpressions n).expression.bind fun _ => (Simulates.expect (by decide)).bind fun _ =>
    .pure _

theorem simulates_printStatement : Simulates (Parser.printStatement n) (printStatement n) :=
  .passing fun _ => (simulatesExpressions n).expression.bind fun _ =>
    (Simulates.expect (by decide)).bind fun _ => (Simulates.spanFrom _).bind fun _ => .pure _

theorem simulates_returnStatement : Simulates (Parser.returnStatement n) (returnStatement n) := by
  refine .passing fun keyword => (Simulates.check _).bind fun closing => ?_
  have hend : ∀ value : Option Expr, Simulates
      (do
        let _ ← Parser.expect .semicolon .afterReturned
        let span ← Parser.spanFrom keyword.span
        pure (.ret keyword.span value span) : Parser Stmt)
      (do
        let _ ← expect .semicolon .afterReturned
        let span ← spanFrom keyword.span
        pure (.ret keyword.span value span)) := fun _ =>
    (Simulates.expect (by decide)).bind fun _ => (Simulates.spanFrom _).bind fun _ => .pure _
  split
  · exact (Simulates.pure _).bind hend
  · exact (simulatesExpressions n).expression.bind fun _ => (Simulates.pure _).bind hend

theorem simulates_loopInitializer : Simulates (Parser.loopInitializer n) (loopInitializer n) := by
  refine (Simulates.accept (by decide)).bind fun semicolon => ?_
  split
  · exact .pure _
  · refine (Simulates.check _).bind fun keyword => ?_
    split
    · exact (simulates_variableDeclaration n).bind fun _ => .pure _
    · exact (simulates_expressionStatement n).bind fun _ => .pure _

theorem simulates_loopCondition : Simulates (Parser.loopCondition n) (loopCondition n) := by
  refine (Simulates.check _).bind fun closing => ?_
  have hend : ∀ condition : Expr, Simulates
      (do
        let _ ← Parser.expect .semicolon .afterLoopCondition
        pure condition : Parser Expr)
      (do
        let _ ← expect .semicolon .afterLoopCondition
        pure condition) := fun _ => (Simulates.expect (by decide)).bind fun _ => .pure _
  split
  · exact Simulates.peek.bind fun _ => (Simulates.mark _).bind fun _ => (Simulates.pure _).bind hend
  · exact (simulatesExpressions n).expression.bind hend

theorem simulates_loopIncrement : Simulates (Parser.loopIncrement n) (loopIncrement n) := by
  refine (Simulates.check _).bind fun closing => ?_
  have hend : ∀ increment : Option Expr, Simulates
      (do
        let _ ← Parser.expect .rightParen .afterForClauses
        pure increment : Parser (Option Expr))
      (do
        let _ ← expect .rightParen .afterForClauses
        pure increment) := fun _ => (Simulates.expect (by decide)).bind fun _ => .pure _
  split
  · exact (Simulates.pure _).bind hend
  · exact (simulatesExpressions n).expression.bind fun _ => (Simulates.pure _).bind hend

end Parts

/-! ### Declarations and statements -/

/-- With the same fuel, the readers of declarations and statements answer as the parsers do. -/
structure SimulatesStatements (fuel : Nat) : Prop where
  declaration : Simulates (Parser.declaration fuel) (declaration fuel)
  wholeDeclaration : Simulates (Parser.wholeDeclaration fuel) (wholeDeclaration fuel)
  methods : Simulates (Parser.methods fuel) (methods fuel)
  routine : ∀ role, Simulates (Parser.routine fuel role) (routine fuel role)
  blockBody : Simulates (Parser.blockBody fuel) (blockBody fuel)
  declarations : ∀ inBlock, Simulates (Parser.declarations fuel inBlock) (declarations fuel inBlock)
  statement : Simulates (Parser.statement fuel) (statement fuel)

section Statements

variable {n : Nat}

theorem simulates_wholeDeclaration (ih : SimulatesStatements n) :
    Simulates (Parser.wholeDeclaration (n + 1)) (wholeDeclaration (n + 1)) := by
  rw [Parser.wholeDeclaration, wholeDeclaration]
  refine Simulates.peek.bind fun token => ?_
  cases token.kind
  case classWord =>
      exact .advance ((Simulates.expectName _).bind fun _ => simulates_superclass.bind fun _ =>
        (Simulates.expect (by decide)).bind fun _ => ih.methods.bind fun _ =>
        (Simulates.expect (by decide)).bind fun _ => (Simulates.spanFrom _).bind fun _ => .pure _)
  case funWord =>
      exact .advance ((ih.routine _).bind fun _ => (Simulates.spanFrom _).bind fun _ => .pure _)
  case varWord => exact simulates_variableDeclaration n
  all_goals exact ih.statement.bind fun _ => .pure _

theorem simulates_methods (ih : SimulatesStatements n) :
    Simulates (Parser.methods (n + 1)) (methods (n + 1)) := by
  rw [Parser.methods, methods]
  refine (Simulates.check _).bind fun closing => Simulates.atEnd.bind fun finished => ?_
  split
  · exact .pure _
  · exact (ih.routine _).bind fun _ => ih.methods.bind fun _ => .pure _

theorem simulates_routine (ih : SimulatesStatements n) (role : RoutineRole) :
    Simulates (Parser.routine (n + 1) role) (routine (n + 1) role) := by
  rw [Parser.routine, routine]
  exact (Simulates.expectName _).bind fun _ => (Simulates.expect (by decide)).bind fun _ =>
    (simulates_parameterList n).bind fun _ => (Simulates.expect (by decide)).bind fun _ =>
    (Simulates.expect (by decide)).bind fun _ => ih.blockBody.bind fun _ =>
    (Simulates.spanFrom _).bind fun _ => Simulates.freshLabel.bind fun _ => .pure _

theorem simulates_blockBody (ih : SimulatesStatements n) :
    Simulates (Parser.blockBody (n + 1)) (blockBody (n + 1)) := by
  rw [Parser.blockBody, blockBody]
  exact (ih.declarations _).bind fun _ => (Simulates.expect (by decide)).bind fun _ => .pure _

theorem simulates_statement (ih : SimulatesStatements n) :
    Simulates (Parser.statement (n + 1)) (statement (n + 1)) := by
  rw [Parser.statement, statement]
  refine Simulates.peek.bind fun token => ?_
  cases token.kind
  case printWord => exact simulates_printStatement n
  case returnWord => exact simulates_returnStatement n
  case leftBrace =>
      exact .advance (ih.blockBody.bind fun _ => (Simulates.spanFrom _).bind fun _ => .pure _)
  case ifWord =>
      refine .advance ((Simulates.expect (by decide)).bind fun _ =>
        (simulatesExpressions n).expression.bind fun condition =>
        (Simulates.expect (by decide)).bind fun _ => ih.statement.bind fun thenBranch =>
        (Simulates.accept (by decide)).bind fun otherwise => ?_)
      have hend : ∀ elseBranch : Option Stmt, Simulates
          (do
            let span ← Parser.spanFrom token.span
            pure (.ifElse condition thenBranch elseBranch span) : Parser Stmt)
          (do
            let span ← spanFrom token.span
            pure (.ifElse condition thenBranch elseBranch span)) := fun _ =>
        (Simulates.spanFrom _).bind fun _ => .pure _
      split
      · exact ih.statement.bind fun _ => (Simulates.pure _).bind hend
      · exact (Simulates.pure _).bind hend
  case whileWord =>
      exact .advance ((Simulates.expect (by decide)).bind fun _ =>
        (simulatesExpressions n).expression.bind fun _ =>
        (Simulates.expect (by decide)).bind fun _ => ih.statement.bind fun _ =>
        (Simulates.spanFrom _).bind fun _ => .pure _)
  case forWord =>
      exact .advance ((Simulates.expect (by decide)).bind fun _ =>
        (simulates_loopInitializer n).bind fun _ => (simulates_loopCondition n).bind fun _ =>
        (simulates_loopIncrement n).bind fun _ => ih.statement.bind fun _ =>
        (Simulates.spanFrom _).bind fun _ => .pure _)
  all_goals exact simulates_expressionStatement n

/-- **A call for a declaration passes a token**, whether the declaration can be read or not. -/
theorem counted_declaration {us : List Token}
    (hd : Simulates (Parser.declaration n) (declaration n)) (hus : l.read <+: us)
    (h : t.Shows l c) (hne : c.ahead ≠ []) :
    Agree l us (Parser.declaration n c) (counted (declaration n) t)
      (counted (declaration n) (t.on us)) := by
  have hagree := hd hus h
  have hfinish : c.finish.kind = .endOfSource := by rw [h.finish, l.finish_kind]
  have hlength := fun d c' => @Parser.declaration_length n c c' d hfinish
  unfold counted
  generalize Parser.declaration n c = reply, declaration n t = answer,
    declaration n (t.on us) = answer' at hagree hlength
  cases hagree with
  | @done d c' t' h' =>
      have hless := hlength d c' rfl hne
      rw [h'.ahead, h.ahead, List.length_drop, List.length_drop] at hless
      have hcurrent := h'.current
      have hcalls : ∀ call ∈ (t.current, t'.current) :: t'.calls,
          call.1 < call.2 ∧ call.2 ≤ t'.current :=
        List.forall_mem_cons.2 ⟨⟨by dsimp only; omega, Nat.le_refl _⟩, h'.calls⟩
      exact .done { h' with calls := hcalls }
  | failed h' => exact .failed h'
  | starved => exact .starved

theorem simulates_declarations (ih : SimulatesStatements n) (inBlock : Bool) :
    Simulates (Parser.declarations (n + 1) inBlock) (declarations (n + 1) inBlock) := by
  rw [Parser.declarations, declarations]
  refine (Simulates.check _).bind fun closing => ?_
  intro l us c t hus h
  rw [Parser.atEnd_bind, bind_of_done (isAtEnd_eq h), bind_of_done (isAtEnd_eq (h.on hus))]
  split
  · exact .done h.looked
  · rename_i hopen
    have hne : c.ahead ≠ [] := by
      intro hnil
      simp [hnil] at hopen
    have hcall := counted_declaration ih.declaration hus h.looked hne
    exact hcall.bind hus fun _ => (ih.declarations _).bind fun _ => .pure _

/-- **The readers of declarations and statements answer as the parsers do**, whatever the fuel. -/
theorem simulatesStatements (n : Nat) : SimulatesStatements n := by
  induction n with
  | zero =>
      exact ⟨.starve, .starve, .starve, fun _ => .starve, .starve, fun _ => .starve, .starve⟩
  | succ n ih =>
      exact ⟨ih.wholeDeclaration.recover, simulates_wholeDeclaration ih, simulates_methods ih,
        simulates_routine ih, simulates_blockBody ih, simulates_declarations ih,
        simulates_statement ih⟩

end Statements

end Reader

/-! ### Lists of tokens -/

/-- The tokens up to and including the first end of the source stand at the front of the tape, also
if that is the one put behind them. -/
theorem takeWhile_withEnd (ts : List Token) :
    ts.takeWhile Cursor.isInner ++ [Cursor.finishOf ts] <+: withEnd ts := by
  cases hfind : ts.find? fun t => !Cursor.isInner t with
  | some finish =>
      obtain ⟨hfinish, inner, behind, rfl, hinner⟩ := List.find?_eq_some_iff_append.1 hfind
      have hread : (inner ++ finish :: behind).takeWhile Cursor.isInner ++
          [Cursor.finishOf (inner ++ finish :: behind)] <+: inner ++ finish :: behind := by
        rw [List.takeWhile_append_of_pos (by simpa using hinner),
          List.takeWhile_cons_of_neg (by simpa using hfinish), Cursor.finishOf, hfind]
        exact ⟨behind, by simp⟩
      unfold withEnd
      split
      · split
        · exact hread
        · exact hread.trans (List.prefix_append _ _)
      · rename_i hnone
        simp at hnone
  | none =>
      have hinner : ∀ t ∈ ts, Cursor.isInner t = true := by
        simpa using List.find?_eq_none.1 hfind
      rw [List.takeWhile_eq_self_iff.2 hinner, Cursor.finishOf, hfind, withEnd]
      cases hlast : ts.getLast? with
      | some t =>
          have ht := hinner t (List.mem_of_getLast? hlast)
          rw [Cursor.isInner, bne_iff_ne] at ht
          dsimp only
          split
          · exact absurd ‹_› ht
          · exact List.prefix_rfl
      | none =>
          rw [List.getLast?_eq_none_iff.1 hlast]
          exact List.prefix_rfl

/-- **The layout of a list of tokens.** -/
def layout (ts : List Token) : Layout where
  inner := ts.takeWhile Cursor.isInner
  finish := Cursor.finishOf ts
  isInner := fun _ ht => List.mem_takeWhile_imp ht
  finish_kind := Program.ofTokens_finish ts .full

theorem read_layout (ts : List Token) : (layout ts).read <+: withEnd ts := takeWhile_withEnd ts

theorem length_inner (ts : List Token) : (layout ts).inner.length = endIndex ts := by
  obtain ⟨behind, hbehind⟩ := read_layout ts
  have hinner : (layout ts).inner.findIdx (fun t => !Cursor.isInner t) =
      (layout ts).inner.length :=
    List.findIdx_eq_length_of_false fun t ht => by simp [(layout ts).isInner t ht]
  have hfinish : Cursor.isInner (layout ts).finish = false := by
    simp [Cursor.isInner, (layout ts).finish_kind]
  rw [endIndex, ← hbehind, Layout.read, List.append_assoc, List.findIdx_append, hinner]
  simp [List.findIdx_cons, hfinish]

/-- The first end of the source is on the tape. -/
theorem endIndex_lt (ts : List Token) : endIndex ts < (withEnd ts).length := by
  have hlength := (read_layout ts).length_le
  rw [Layout.length_read, length_inner] at hlength
  exact hlength

/-- Tokens that are the same up to and including the first end of the source. -/
theorem read_of_take {ts us : List Token}
    (h : us.take (endIndex ts + 1) = (withEnd ts).take (endIndex ts + 1)) :
    (layout ts).read <+: us := by
  have hread := List.prefix_iff_eq_take.1 (read_layout ts)
  rw [Layout.length_read, length_inner, ← h] at hread
  rw [hread]
  exact List.take_prefix _ _

/-! ### Programs -/

theorem Parser.declaration_ne_failed (n : Nat) (c c' : Cursor) (e : SyntaxError) :
    declaration n c ≠ .failed e c' := by
  cases n with
  | zero => rintro ⟨⟩
  | succ n =>
      rw [declaration, recover]
      split <;> rintro ⟨⟩

/-- Declarations never fail: what cannot be read has been reported. -/
theorem Parser.declarations_ne_failed (n : Nat) (inBlock : Bool) (c c' : Cursor)
    (e : SyntaxError) : declarations n inBlock c ≠ .failed e c' := by
  induction n generalizing c c' e with
  | zero => rintro ⟨⟩
  | succ n ih =>
      rw [declarations, check_bind, atEnd_bind]
      split
      · rintro ⟨⟩
      · rw [bind_apply]
        cases hd : declaration n c with
        | done d c₁ =>
            dsimp only
            rw [bind_apply]
            cases hds : declarations n inBlock c₁ with
            | done ds c₂ => rintro ⟨⟩
            | failed e' c₂ => exact absurd hds (ih c₁ c₂ e')
            | starved => rintro ⟨⟩
        | failed e' c₁ => exact absurd hd (declaration_ne_failed n c c₁ e')
        | starved => rintro ⟨⟩

namespace Program

/-- An answer that stays where it is. -/
theorem answerBehind_id (r : Except (List SyntaxError) Program × Supply) :
    answerBehind .id [] r = r := by
  obtain ⟨result, s⟩ := r
  cases result with
  | ok p =>
      obtain ⟨ds⟩ := p
      rw [answerBehind, List.nil_append, Decl.allRelocate_id]
      rfl
  | error errors =>
      have herrors : errors.map (SyntaxError.relocate .id) = errors := List.map_id errors
      rw [answerBehind, herrors]
      rfl

end Program

namespace Reader

/-- The reader in front of a list of tokens stands where a parser does that has read nothing, but
for the token read last, which matters to none of them. -/
theorem shows_start (ts : List Token) (supply : Supply) :
    ∃ c, (Cursor.ofTokens ts supply).Follows .id [] True False c ∧
      (Tape.start ts supply).Shows (layout ts) c := by
  have hpos : 0 < (layout ts).read.length := by
    rw [Layout.length_read]
    exact Nat.succ_pos _
  refine ⟨{ Cursor.ofTokens ts supply with last := (layout ts).read[0] }, ?_, ?_⟩
  · have hfinish := Program.ofTokens_finish ts supply
    exact
      { ahead := by
          rw [List.append_nil]
          exact (List.map_id _).symm
        finish := hfinish
        behind := Token.kind_ne_elseWord hfinish
        ends := fun _ => ⟨rfl, rfl⟩
        supply := rfl
        errors := rfl
        last := False.elim }
  · exact
      { tokens := read_layout ts
        current := Nat.zero_le _
        ahead := rfl
        finish := rfl
        last := List.getElem?_eq_getElem hpos
        supply := rfl
        errors := rfl
        trail := nofun
        sorted := .nil
        calls := nofun }

theorem Agree.of_done {α : Type} {l : Layout} {us : List Token} {a : α} {c : Cursor}
    {answer answer' : Answer α} (h : Agree l us (.done a c) answer answer') :
    ∃ t, answer = .done a t ∧ answer' = .done a (t.on us) ∧ t.Shows l c := by
  cases h with
  | done h => exact ⟨_, rfl, rfl, h⟩

/-- **A reader comes to an end with what the parser answers**, and so it does on every tape that
begins with the same tokens up to and including the first end of the source. -/
theorem program_eq {ts : List Token} {n : Nat} (hn : Program.fuelFor ts ≤ n) (supply : Supply) :
    ∃ (result : Except (List SyntaxError) Program) (t : Tape),
      Program.parse ts supply = (result, t.supply) ∧ (∃ c, t.Shows (layout ts) c) ∧
      ∀ us, (layout ts).read <+: us →
        program n ((Tape.start ts supply).on us) = .done result (t.on us) := by
  obtain ⟨c₀, hfollows, hstart⟩ := shows_start ts supply
  have hfed : Parser.declarations n false c₀ ≠ .starved := by
    refine (Parser.fedStatements n).declarations ts.length false ?_ ⟨?_, ?_⟩
    · unfold Program.fuelFor at hn
      omega
    · rw [hstart.finish, (layout ts).finish_kind]
    · rw [hstart.ahead]
      exact (List.takeWhile_sublist _).length_le
  have hparse := Program.answer_behind Relocation.rigid_id hn hfollows
    (Program.declarations_ne_starved ts supply) [] supply supply
  rw [Parser.declarationsBehind_nil, Program.answerBehind_id, ← Program.parse_eq_answer] at hparse
  have hagree := fun us (hus : (layout ts).read <+: us) =>
    (simulatesStatements n).declarations false hus hstart
  cases hdecls : Parser.declarations n false c₀ with
  | done ds c =>
      rw [hdecls] at hagree hparse
      obtain ⟨t, ht, -, hshows⟩ := (hagree _ (read_layout ts)).of_done
      refine ⟨if t.errors.isEmpty then .ok ⟨ds⟩ else .error t.errors.reverse, t, ?_,
        ⟨c, hshows⟩, fun us hus => ?_⟩
      · rw [← hparse, Program.answer, hshows.errors, hshows.supply]
        cases t.errors <;> rfl
      · obtain ⟨t', ht', hus', -⟩ := (hagree us hus).of_done
        rw [ht] at ht'
        cases ht'
        rw [program, bind_of_done hus']
        rfl
  | failed e c => exact absurd hdecls (Parser.declarations_ne_failed n false c₀ c e)
  | starved => exact absurd hdecls hfed

/-- Tokens behind the first end of the source make no difference to the parser. -/
theorem parse_eq_of_take {ts us : List Token}
    (h : (withEnd us).take (endIndex ts + 1) = (withEnd ts).take (endIndex ts + 1))
    (supply : Supply) : Program.parse us supply = Program.parse ts supply := by
  obtain ⟨result, t, hparse, -, hrun⟩ :=
    @program_eq ts _ (Nat.le_max_left _ (Program.fuelFor us)) supply
  obtain ⟨result', t', hparse', -, hrun'⟩ :=
    @program_eq us _ (Nat.le_max_right (Program.fuelFor ts) _) supply
  obtain ⟨rfl, ht⟩ := Answer.done.inj
    ((hrun _ (read_of_take h)).symm.trans (hrun' _ (read_layout us)))
  have hsupply : (t.on (withEnd us)).supply = (t'.on (withEnd us)).supply := by rw [ht]
  rw [hparse, hparse']
  exact congrArg (result, ·) hsupply.symm

/-- **Every list of tokens is read within its bounds.**  With fuel enough, the reader comes to an
end with what the parser answers, and is never lost.  Whenever it looked at a token, it had not come
farther than to the first end of the source, and not as far as later.  Each call for a declaration
has passed a token.  And what stands behind the first end of the source makes no difference. -/
theorem program_in_bounds {ts : List Token} {n : Nat} (hn : Program.fuelFor ts ≤ n)
    (supply : Supply) :
    ∃ result t, program n (Tape.start ts supply) = .done result t ∧
      Program.parse ts supply = (result, t.supply) ∧
      endIndex ts < (withEnd ts).length ∧ (∀ i ∈ t.trail, i ≤ endIndex ts) ∧
      t.trail.Pairwise (fun later earlier => earlier ≤ later) ∧
      (∀ call ∈ t.calls, call.1 < call.2 ∧ call.2 ≤ endIndex ts) ∧
      ∀ us, (withEnd us).take (endIndex ts + 1) = (withEnd ts).take (endIndex ts + 1) →
        program n (Tape.start us supply) = .done result { t with tokens := withEnd us } ∧
          Program.parse us supply = Program.parse ts supply := by
  obtain ⟨result, t, hparse, ⟨c, hshows⟩, hrun⟩ := program_eq hn supply
  have hcurrent := hshows.current
  rw [length_inner] at hcurrent
  refine ⟨result, t.on (withEnd ts), hrun _ (read_layout ts), hparse, endIndex_lt ts, ?_,
    hshows.sorted, ?_, fun us hus => ⟨hrun _ (read_of_take hus), parse_eq_of_take hus supply⟩⟩
  · exact fun i hi => Nat.le_trans (hshows.trail i hi) hcurrent
  · exact fun call hcall => ⟨(hshows.calls call hcall).1,
      Nat.le_trans (hshows.calls call hcall).2 hcurrent⟩

/-- A list of tokens with an error in front and the end of the source inside. -/
def endInside : List Token :=
  [⟨.rightParen, ")", none, ⟨0, 1, 1⟩⟩, ⟨.semicolon, ";", none, ⟨1, 1, 1⟩⟩, .finish ⟨2, 0, 1⟩,
    ⟨.printWord, "print", none, ⟨2, 5, 1⟩⟩]

/-- The call for a declaration that cannot be read passes two tokens, and nothing is read behind the
end inside. -/
theorem program_in_bounds_endInside :
    ∃ result t, program 120 (Tape.start endInside .full) = .done result t ∧ t.calls = [(0, 2)] ∧
      (∀ i ∈ t.trail, i ≤ 2) ∧
      Program.parse (endInside.take 3) .full = Program.parse endInside .full := by
  obtain ⟨result, t, hrun, -, -, htrail, -, -, hbehind⟩ :=
    @program_in_bounds endInside 120 (by decide) .full
  have hcalls : (program 120 (Tape.start endInside .full)).tape?.map Tape.calls =
      some [(0, 2)] := by
    decide +kernel
  rw [hrun] at hcalls
  have hend : endIndex endInside = 2 := by decide +kernel
  rw [hend] at htrail hbehind
  exact ⟨result, t, hrun, Option.some.inj hcalls, htrail,
    (hbehind (endInside.take 3) (by decide +kernel)).2⟩

end Reader

end Scriptlet
