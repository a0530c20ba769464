/-
**What a missing semicolon costs.**

Where a semicolon is missing, the declaration around it cannot be read, and recovery skips tokens
by a rule that looks at semicolons and at the words in front of statements, but not at braces.  So
it may get out of step with the blocks: then there are more errors than one.  If it stays in step,
there is one error at most.  This is shown for each production by the way a phrase of it is read
that has the semicolon, while other tokens stand in front of the parser from that place on.

Main definitions:

* `Scriptlet.Parser.Gap` — a phrase, and the tokens that stand there instead of its end;
* `Scriptlet.Parser.Recovers` — the parsers of declarations and statements get over a gap;
* `Scriptlet.Program.Accepts`, `Scriptlet.Program.InStep` — tokens that are read without an error,
  and a missing semicolon behind which recovery is in step with the program.

Main results:

* `Scriptlet.Parser.recovers` — **the parsers get over a gap with one error at most**;
* `Scriptlet.Program.one_error_of_missing_semicolon` — **a missing semicolon costs one error at
  most**, if recovery is in step with the program;
* `Scriptlet.Program.two_errors_of_missing_semicolon` — it may cost more than one, if it is not.
-/

import Scriptlet.Proofs.Program.Unended

set_option relaxedAutoImplicit false
set_option autoImplicit false

namespace Scriptlet

namespace Parser

variable {n : Nat} {c c' c₁ : Cursor} {ts us vs : List Token}

/-! ### A gap in a phrase -/

/-- What else of a statement is missing behind a missing semicolon, and what stands there instead:
nothing is missing behind the end of a statement, and behind the second semicolon in the header of a
loop the header has to be closed, and an empty block stands for the body. -/
inductive Tear : List Token → List Token → Prop
  | ending {behind : List Token} : Grammar.Seam behind → Tear [] behind
  | header {closing opening brace : Token} {us vs : List Token} {increment : Option Expr} :
      Grammar.Optional us increment → closing.kind = .rightParen → opening.kind = .leftBrace →
      brace.kind = .rightBrace → Tear [closing, opening, brace] (us ++ closing :: vs)

theorem Tear.seam {behind : List Token} (h : Tear [] behind) : Grammar.Seam behind := by
  cases h with
  | ending h => exact h

/-- A tear does not go on behind the end of a phrase that it begins in. -/
theorem Tear.within {semicolon : Token} {cut behind xs ys front left left' : List Token}
    (h : Tear cut behind) (hclosed : depth front + depth cut = 0)
    (hs : semicolon.kind = .semicolon) (hd : depth xs = 0) (hlast : Grammar.Finished xs)
    (hxs : xs = front ++ semicolon :: left') (heq : cut ++ left = left' ++ ys) :
    ∃ left₁, left' = cut ++ left₁ ∧ left = left₁ ++ ys := by
  cases h with
  | ending _ => exact ⟨left', rfl, heq⟩
  | @header closing opening brace us vs increment _ hc ho hb =>
      subst hxs
      simp only [depth_append, depth_cons, depth_nil, hs, hc, ho, hb, TokenKind.nesting]
        at hclosed hd
      rcases left' with _ | ⟨t, _ | ⟨t', _ | ⟨t'', left₁⟩⟩⟩
      · -- the parenthesis of the header is still open
        rw [depth_nil] at hd
        omega
      · cases heq
        rw [List.append_cons, Grammar.finished_snoc, hc] at hlast
        rcases hlast with h | h <;> cases h
      · cases heq
        rw [List.append_cons, List.append_cons, Grammar.finished_snoc, ho] at hlast
        rcases hlast with h | h <;> cases h
      · cases heq
        exact ⟨left₁, rfl, rfl⟩

/-- A phrase stands in front of a cursor, but from one of its semicolons on there is something
else: `front` is what stands in front of that semicolon, `cut` is what else is missing there, and
`left` is what stands behind that in the phrase, in front of `us`.  Reading would go on from there
behind `cut`. -/
structure Gap (semicolon : Token) (cut behind : List Token) (c : Cursor)
    (ts front left us : List Token) : Prop where
  phrase : ts = front ++ semicolon :: (cut ++ left)
  closed : depth front + depth cut = 0
  holds : c.Holds (front ++ behind)
  resumes : Cursor.resumption behind = left ++ us

section Gap

variable {semicolon t : Token} {cut behind front left xs ys : List Token}

/-- What is ahead is longer than what is left of the phrase and what stands behind it. -/
theorem Gap.length (h : Gap semicolon cut behind c ts front left us) :
    front.length + left.length + us.length ≤ c.ahead.length := by
  have hlength := h.holds.length
  have hresumes := congrArg List.length h.resumes
  have hle := (Cursor.resumption_suffix behind).length_le
  rw [List.length_append] at hlength hresumes
  omega

/-- The gap is behind a part without a semicolon. -/
theorem Gap.lead (hs : semicolon.kind = .semicolon) (hlead : Grammar.Lead xs)
    (h : Gap semicolon cut behind c (xs ++ ys) front left us) :
    ∃ front', front = xs ++ front' ∧ ∀ c', c.Passes xs c' →
      Gap semicolon cut behind c' ys front' left us := by
  obtain ⟨front', rfl, hys, hd⟩ := hlead.find hs rfl h.phrase
  have hc := h.holds
  have hclosed := h.closed
  rw [List.append_assoc] at hc
  rw [← hd] at hclosed
  exact ⟨front', rfl, fun c' hp => ⟨hys, hclosed, hc.passes hp, h.resumes⟩⟩

/-- The gap is in one of two parts. -/
theorem Gap.part (htear : Tear cut behind) (hs : semicolon.kind = .semicolon) (hd : depth xs = 0)
    (hlast : Grammar.Finished xs) (h : Gap semicolon cut behind c (xs ++ ys) front left us) :
    (∃ front', front = xs ++ front' ∧ ys = front' ++ semicolon :: (cut ++ left) ∧
      ∀ c', c.Passes xs c' → Gap semicolon cut behind c' ys front' left us) ∨
    ∃ left', left = left' ++ ys ∧ Gap semicolon cut behind c xs front left' (ys ++ us) := by
  rcases Grammar.find_part h.phrase with ⟨front', rfl, hys⟩ | ⟨left', hxs, hleft⟩
  · have hc := h.holds
    have hdepth := h.closed
    rw [List.append_assoc] at hc
    rw [depth_append, hd, Int.zero_add] at hdepth
    exact .inl ⟨front', rfl, hys, fun c' hp => ⟨hys, hdepth, hc.passes hp, h.resumes⟩⟩
  · obtain ⟨left', rfl, rfl⟩ := htear.within h.closed hs hd hlast hxs hleft
    have hresumes := h.resumes
    rw [List.append_assoc] at hresumes
    exact .inr ⟨left', rfl, hxs, h.closed, h.holds, hresumes⟩

/-- The gap is in front of a last token of another kind. -/
theorem Gap.inside {k : TokenKind} (htear : Tear cut behind) (hs : semicolon.kind = .semicolon)
    (hd : depth ts = 0) (hlast : ts = [] ∨ Grammar.Finished ts) (ht : t.kind = k)
    (hk : k ≠ .semicolon) (h : Gap semicolon cut behind c (ts ++ [t]) front left us) :
    ∃ left', left = left' ++ [t] ∧ Gap semicolon cut behind c ts front left' (t :: us) := by
  obtain ⟨left', hts, hleft⟩ := Grammar.find_inside ht hk hs h.phrase
  have hlast : Grammar.Finished ts := hlast.resolve_left (by rw [hts]; simp)
  obtain ⟨left', rfl, rfl⟩ := htear.within h.closed hs hd hlast hts hleft
  have hresumes := h.resumes
  rw [List.append_assoc] at hresumes
  exact ⟨left', rfl, hts, h.closed, h.holds, hresumes⟩

/-- The gap in a phrase with a semicolon at its end only: nothing else is missing, and reading goes
on behind the phrase. -/
theorem Gap.last (hs : semicolon.kind = .semicolon) (hlead : Grammar.Lead xs)
    (h : Gap semicolon cut behind c (xs ++ [t]) front left us) :
    front = xs ∧ cut = [] ∧ left = [] ∧ us = Cursor.resumption behind := by
  obtain ⟨hfront, -, hrest⟩ := hlead.find_last hs h.phrase
  obtain ⟨rfl, rfl⟩ := List.append_eq_nil_iff.1 hrest
  exact ⟨hfront, rfl, rfl, h.resumes.symm⟩

/-- If the first token of the phrase is not a semicolon, it is the next one. -/
theorem Gap.holds_cons (hs : semicolon.kind = .semicolon) (ht : t.kind ≠ .semicolon)
    (h : Gap semicolon cut behind c (t :: ts) front left us) : ∃ vs, c.Holds (t :: vs) := by
  obtain ⟨front', rfl, -⟩ := Grammar.find_behind rfl ht hs h.phrase
  exact ⟨_, h.holds⟩

end Gap

/-! ### Declarations and statements with a gap -/

/-- Where declarations end: in a block at its brace, and else at the end of the source. -/
def Closed (inBlock : Bool) (us : List Token) : Prop :=
  inBlock = true ∧ headKind us = .rightBrace ∨ inBlock = false ∧ us = []

theorem clears_declarations {ds : List Decl} {inBlock : Bool} (h : Grammar.Declarations ts ds)
    (hclosed : Closed inBlock us) (hc : c.Holds (ts ++ us)) (hn : 20 * ts.length + 4 ≤ n) :
    Clears (declarations n inBlock) c us := by
  rcases hclosed with ⟨rfl, hbrace⟩ | ⟨rfl, rfl⟩
  · exact ((findsStatements n).inner h hn).clears hc hbrace
  · rw [List.append_nil] at hc
    obtain ⟨ds', c', run, hp, -⟩ := (findsStatements n).program (by rw [hc.ahead]; exact h)
      hc.finish (by rw [hc.ahead]; exact hn)
    refine ⟨ds', c', run, ⟨?_, by rw [hp.finish, hc.finish]⟩, hp.errors⟩
    have hahead := hp.ahead
    rwa [List.self_eq_append_right] at hahead

/-- With some fuel, the parsers of declarations and statements get over a gap in each phrase of
their productions that is short enough, and report one error at most.  The parsers below a
declaration may also break off where the phrase does. -/
structure Recovers (semicolon : Token) (cut behind : List Token) (n : Nat) : Prop where
  declaration : ∀ {ts d c front left us}, Grammar.Declaration ts d →
    Gap semicolon cut behind c ts front left us → headKind us ≠ .elseWord →
    20 * (c.ahead.length + 1) + 3 ≤ n → Settles (declaration n) c us
  wholeDeclaration : ∀ {ts d c front left us}, Grammar.Declaration ts d →
    Gap semicolon cut behind c ts front left us → headKind us ≠ .elseWord →
    20 * (c.ahead.length + 1) + 2 ≤ n → Copes (wholeDeclaration n) c left us
  methods : ∀ {ts rs c front left us}, Grammar.Methods ts rs →
    Gap semicolon cut behind c ts front left us → headKind us = .rightBrace →
    20 * (c.ahead.length + 1) + 2 ≤ n → Settles (methods n) c us
  routine : ∀ {ts r c front left us} role, Grammar.Function ts r →
    Gap semicolon cut behind c ts front left us → 20 * (c.ahead.length + 1) + 1 ≤ n →
    Settles (routine n role) c us
  blockBody : ∀ {ts body closing c front left us}, Grammar.Declarations ts body →
    closing.kind = .rightBrace → Gap semicolon cut behind c (ts ++ [closing]) front left us →
    20 * (c.ahead.length + 1) + 5 ≤ n → Settles (blockBody n) c us
  declarations : ∀ {inBlock ts ds c front left us}, Grammar.Declarations ts ds →
    Gap semicolon cut behind c ts front left us → Closed inBlock us →
    20 * (c.ahead.length + 1) + 4 ≤ n → Settles (declarations n inBlock) c us
  statement : ∀ {dangling ts s c front left us}, Grammar.Statement dangling ts s →
    Gap semicolon cut behind c ts front left us → (dangling = true → headKind us ≠ .elseWord) →
    20 * (c.ahead.length + 1) + 1 ≤ n → Copes (statement n) c left us

section Recovers

variable {semicolon : Token} {cut behind front left : List Token}

theorem recovers_declaration (ih : Recovers semicolon cut behind n) {d : Decl}
    (h : Grammar.Declaration ts d) (gap : Gap semicolon cut behind c ts front left us)
    (hus : headKind us ≠ .elseWord) (hn : 20 * (c.ahead.length + 1) + 3 ≤ n + 1) :
    Settles (declaration (n + 1)) c us := by
  rcases ih.wholeDeclaration h gap hus (by omega) with
    ⟨a, c', run, hc', he⟩ | ⟨-, e, c', run, hc', he⟩
  · exact ⟨some a, c', by rw [declaration, recover, run], hc', he⟩
  · refine ⟨none, { c' with errors := e :: c'.errors }.synchronize, ?_, ?_, ?_⟩
    · rw [declaration, recover, run]
    · have hfinish := hc'.finish
      rw [Cursor.synchronize_finish] at hfinish
      rw [← hc'.ahead, Cursor.synchronize_resumption]
      exact Cursor.Holds.synchronize ⟨rfl, hfinish⟩
    · refine Nat.le_of_eq ?_
      rw [Cursor.synchronize_errors, List.length_cons, he]

theorem recovers_methods (ih : Recovers semicolon cut behind n) (htear : Tear cut behind)
    (hs : semicolon.kind = .semicolon) {rs : List Routine} (h : Grammar.Methods ts rs)
    (gap : Gap semicolon cut behind c ts front left us)
    (hus : headKind us = .rightBrace) (hn : 20 * (c.ahead.length + 1) + 2 ≤ n + 1) :
    Settles (methods (n + 1)) c us := by
  cases h with
  | nil =>
      have hphrase := gap.phrase
      simp at hphrase
  | @cons ts₁ ts₂ r rs h hrs =>
      have hlength := gap.length
      obtain ⟨t, vs, rfl, ht⟩ := h.starts
      obtain ⟨_, hstart⟩ := gap.holds_cons hs (by rw [ht]; decide)
      have hahead : c.ahead.isEmpty = false := by rw [hstart.ahead]; rfl
      -- a method begins with a name, so the loop neither sees a brace nor the end
      have hrun : methods (n + 1) c = (routine n .method >>= fun r => methods n >>= fun rs =>
          pure (r :: rs)) c := by
        rw [methods, check_bind, atEnd_bind, hstart.next, ht, hahead, if_neg (by decide)]
      rcases gap.part htear hs h.balanced h.finished with
        ⟨front', rfl, hphrase, hgap⟩ | ⟨left', rfl, hgap⟩
      · have hc := gap.holds
        rw [List.append_assoc] at hc
        obtain ⟨r, c₁, run, hp, -⟩ := (findsStatements n).routine .method h
          (by simp only [List.length_append] at hlength; omega) (hc.faces trivial)
        have hlength₁ := hp.length
        have hmore := ih.methods hrs (hgap c₁ hp) hus (by rw [List.length_cons] at hlength₁; omega)
        exact .of_passes hp (hrun.trans (bind_of_done run))
          (hmore.bind fun rs c' hc' => ⟨r :: rs, c', rfl, hc', rfl⟩)
      · refine Settles.of_passes (.refl c) hrun ?_
        refine (ih.routine .method h hgap (by omega)).bind fun r c' hc' => ?_
        rw [List.length_append] at hlength
        refine (((findsStatements n).methods hrs (by omega)).clears hc' hus).bind ?_
        exact fun rs c' hc' => ⟨r :: rs, c', rfl, hc', rfl⟩

theorem recovers_blockBody (ih : Recovers semicolon cut behind n) (htear : Tear cut behind)
    (hs : semicolon.kind = .semicolon) {body : List Decl} {closing : Token}
    (h : Grammar.Declarations ts body) (hclose : closing.kind = .rightBrace)
    (gap : Gap semicolon cut behind c (ts ++ [closing]) front left us)
    (hn : 20 * (c.ahead.length + 1) + 5 ≤ n + 1) : Settles (blockBody (n + 1)) c us := by
  obtain ⟨left', rfl, hgap⟩ := gap.inside htear hs h.balanced h.finished hclose (by decide)
  have hinner : Settles (declarations n true) c (closing :: us) :=
    ih.declarations h hgap (.inl ⟨rfl, hclose⟩) (by omega)
  rw [blockBody]
  refine hinner.bind fun ds c' hc' => ⟨ds, c'.advance, ?_, hc'.tail, hc'.advance.errors⟩
  rw [expect_bind, hc'.next, if_pos hclose, pure_apply]

theorem recovers_routine (ih : Recovers semicolon cut behind n) (hs : semicolon.kind = .semicolon)
    (role : RoutineRole) {r : Routine} (h : Grammar.Function ts r)
    (gap : Gap semicolon cut behind c ts front left us)
    (hn : 20 * (c.ahead.length + 1) + 1 ≤ n + 1) :
    Settles (routine (n + 1) role) c us := by
  obtain ⟨hname, ho, hparams, hclose, hb, hbody, hbrace⟩ := h
  rename_i name opening closing ts params body brace brace' us'
  have hlead := Grammar.Lead.cons hname rfl ((Grammar.Lead.parens ho hparams.lead
    hclose).append (.cons hb rfl Grammar.lead_nil))
  have hgap : Gap semicolon cut behind c (name :: (opening :: (ts ++ [closing]) ++ [brace]) ++
      (us' ++ [brace'])) front left us := by
    simpa using gap
  obtain ⟨front', rfl, hmore⟩ := hgap.lead hs hlead
  have hlength := gap.length
  have hc : c.Holds (name :: opening :: (ts ++ closing :: brace :: (front' ++ behind))) := by
    simpa using gap.holds
  obtain ⟨ps, c₁, run, hp, -⟩ := finds_parameterList (n := n) hparams
    (by simp only [List.length_append, List.length_cons] at hlength; omega)
    (hc.tail.tail.faces hclose)
  have hc₁ := hc.tail.tail.passes hp
  have hpass : c.Passes (name :: (opening :: (ts ++ [closing]) ++ [brace]))
      c₁.advance.advance := by
    simpa using hc.advance.trans (hc.tail.advance.trans (hp.trans
      (hc₁.advance.trans hc₁.tail.advance)))
  have hbody := ih.blockBody hbody hbrace (hmore _ hpass) (by
    have hlength := hpass.length
    simp only [List.length_append, List.length_cons] at hlength
    omega)
  have hrun : routine (n + 1) role c = (blockBody n >>= fun body =>
      spanFrom name.span >>= fun span => freshLabel >>= fun label =>
        pure (.mk label name.lexeme ps body span)) c₁.advance.advance := by
    rw [routine, expectName_bind, hc.next, if_pos hname]
    dsimp only
    rw [expect_bind, hc.tail.next, if_pos ho, bind_of_done run, expect_bind, hc₁.next,
      if_pos hclose, expect_bind, hc₁.tail.next, if_pos hb]
  exact .of_passes hpass hrun
    (hbody.bind fun ds c' hc' => ⟨_, c'.labelled, rfl, ⟨hc'.ahead, hc'.finish⟩, rfl⟩)

theorem recovers_declarations (ih : Recovers semicolon cut behind n) (htear : Tear cut behind)
    (hs : semicolon.kind = .semicolon) {inBlock : Bool} {ds : List Decl}
    (h : Grammar.Declarations ts ds)
    (gap : Gap semicolon cut behind c ts front left us) (hclosed : Closed inBlock us)
    (hn : 20 * (c.ahead.length + 1) + 4 ≤ n + 1) :
    Settles (declarations (n + 1) inBlock) c us := by
  cases h with
  | nil =>
      have hphrase := gap.phrase
      simp at hphrase
  | @cons ts₁ ts₂ d ds h hds =>
      have hlength := gap.length
      obtain ⟨t, vs, rfl, ht⟩ := h.starts
      obtain ⟨_, hstart⟩ := gap.holds_cons hs (by rintro hk; rw [hk] at ht; cases ht)
      have hahead : c.ahead.isEmpty = false := by rw [hstart.ahead]; rfl
      have hrun : declarations (n + 1) inBlock c = (declaration n >>= fun d =>
          declarations n inBlock >>= fun ds => pure (d.toList ++ ds)) c := by
        have hopen : (t.kind == .rightBrace) = false := beq_false_of_ne (opensDeclaration_ne ht).1
        rw [declarations, check_bind, atEnd_bind, hstart.next, hopen, hahead, Bool.and_false,
          if_neg (by decide)]
      rcases gap.part htear hs h.balanced h.finished with
        ⟨front', rfl, hphrase, hgap⟩ | ⟨left', rfl, hgap⟩
      · have hc := gap.holds
        rw [List.append_assoc] at hc
        -- the next declaration stands in front of the gap, and does not begin with an `else`
        have hfollow : headKind (front' ++ behind) ≠ .elseWord := by
          rw [hphrase] at hds
          cases front' with
          | nil =>
              have hstart := hds.starts
              rw [hs] at hstart
              cases hstart
          | cons t' vs' => exact (opensDeclaration_ne hds.starts).2
        obtain ⟨d, c₁, run, hp, -⟩ := (findsStatements n).declaration h
          (by simp only [List.length_append] at hlength; omega) (hc.faces hfollow)
        have hlength₁ := hp.length
        have hmore := ih.declarations hds (hgap c₁ hp) hclosed
          (by rw [List.length_cons] at hlength₁; omega)
        exact .of_passes hp (hrun.trans (bind_of_done run))
          (hmore.bind fun ds c' hc' => ⟨d.toList ++ ds, c', rfl, hc', rfl⟩)
      · have hfollow : headKind (ts₂ ++ us) ≠ .elseWord := by
          cases ts₂ with
          | nil =>
              rcases hclosed with ⟨-, hbrace⟩ | ⟨-, rfl⟩
              · rw [List.nil_append, hbrace]
                decide
              · decide
          | cons t' vs' => exact (opensDeclaration_ne hds.starts).2
        refine Settles.of_passes (.refl c) hrun ?_
        refine (ih.declaration h hgap hfollow (by omega)).bind fun d c' hc' => ?_
        rw [List.length_append] at hlength
        exact (clears_declarations hds hclosed hc' (by omega)).bind
          fun ds c' hc' => ⟨d.toList ++ ds, c', rfl, hc', rfl⟩

theorem recovers_wholeDeclaration (ih : Recovers semicolon cut behind n) (htear : Tear cut behind)
    (hs : semicolon.kind = .semicolon) {d : Decl}
    (h : Grammar.Declaration ts d) (gap : Gap semicolon cut behind c ts front left us)
    (hus : headKind us ≠ .elseWord) (hn : 20 * (c.ahead.length + 1) + 2 ≤ n + 1) :
    Copes (wholeDeclaration (n + 1)) c left us := by
  cases h with
  | @classDecl keyword name opening closing ts us' superclass methods hk hname hp ho hm hclose =>
      have hlead := hp.lead_names hk hname ho
      have hgap : Gap semicolon cut behind c
          (keyword :: name :: (ts ++ [opening]) ++ (us' ++ [closing])) front left us := by
        simpa using gap
      obtain ⟨front', rfl, hmore⟩ := hgap.lead hs hlead
      have hc : c.Holds (keyword :: name :: (ts ++ opening :: (front' ++ behind))) := by
        simpa using gap.holds
      obtain ⟨parent, c₁, run, hpass, -⟩ := finds_superclass hp (hc.tail.tail.faces ho)
      have hc₁ := hc.tail.tail.passes hpass
      have hpass : c.Passes (keyword :: name :: (ts ++ [opening])) c₁.advance :=
        hc.advance.trans (hc.tail.advance.trans (hpass.trans hc₁.advance))
      have hlength := hpass.length
      rw [List.length_cons, List.length_cons] at hlength
      -- the gap is in the methods, not at the brace behind them
      obtain ⟨left', rfl, hgap'⟩ := (hmore _ hpass).inside htear hs hm.balanced hm.finished
        hclose (by decide)
      have hmethods : Settles (Parser.methods n) c₁.advance (closing :: us) :=
        ih.methods hm hgap' hclose (by omega)
      have hrun : wholeDeclaration (n + 1) c = (Parser.methods n >>= fun methods =>
          expect .rightBrace .afterClassBody >>= fun _ => spanFrom keyword.span >>= fun span =>
            pure (.classDecl name.lexeme name.span parent methods span)) c₁.advance := by
        rw [wholeDeclaration, peek_bind, hc.next]
        simp only [hk]
        rw [advance_bind, expectName_bind, hc.tail.next, if_pos hname]
        dsimp only
        rw [bind_of_done run, expect_bind, hc₁.next, if_pos ho]
      refine .inl (.of_passes hpass hrun (hmethods.bind fun rs c' hc' =>
        ⟨.classDecl name.lexeme name.span parent rs (keyword.span.through c'.advance.last.span),
          c'.advance, ?_, hc'.tail, hc'.advance.errors⟩))
      rw [expect_bind, hc'.next, if_pos hclose, spanFrom_bind, pure_apply]
  | @funDecl keyword ts r hk h =>
      obtain ⟨_, hc⟩ := gap.holds_cons hs (by rw [hk]; decide)
      have hp := hc.advance
      have hgap : Gap semicolon cut behind c ([keyword] ++ ts) front left us := gap
      obtain ⟨front', -, hmore⟩ := hgap.lead hs (.cons hk rfl Grammar.lead_nil)
      have hlength := hp.length
      rw [List.length_singleton] at hlength
      have hrun : wholeDeclaration (n + 1) c = (routine n .function >>= fun r =>
          spanFrom keyword.span >>= fun span => pure (.funDecl r span)) c.advance := by
        rw [wholeDeclaration, peek_bind, hc.next]
        simp only [hk]
        rw [advance_bind]
      exact .inl (.of_passes hp hrun ((ih.routine .function h (hmore _ hp) (by omega)).bind
        fun r c' hc' => ⟨_, c', rfl, hc', rfl⟩))
  | varDecl h =>
      cases h with
      | @mk keyword name _ ts initializer hk hname hi _ =>
          obtain ⟨rfl, rfl, rfl, rfl⟩ := gap.last hs (hi.lead_names hk hname)
          have hc := gap.holds
          have hrun : wholeDeclaration (n + 1) c = variableDeclaration n c := by
            rw [wholeDeclaration, peek_bind, hc.next]
            simp only [hk]
          exact .of_passes (.refl c) hrun (variableDeclaration_copes hname hi htear.seam hc
            (by omega))
  | @statement dangling ts s h =>
      obtain ⟨t, vs, rfl, ht⟩ := h.starts
      obtain ⟨_, hc⟩ := gap.holds_cons hs (by rintro hk; rw [hk] at ht; cases ht)
      have hrun : wholeDeclaration (n + 1) c = (statement n >>= fun s =>
          pure (.statement s)) c := by
        rw [wholeDeclaration, peek_bind, hc.next]
        generalize t.kind = kind at ht
        cases kind <;> first | rfl | cases ht
      exact .of_passes (.refl c) hrun ((ih.statement h gap (fun _ => hus) (by omega)).bind
        fun s c' hc' => ⟨_, c', rfl, hc', rfl⟩)

/-- A condition in parentheses is read, and the gap is behind it. -/
theorem Gap.condition {keyword opening closing : Token} {k : TokenKind} {xs ys : List Token}
    {e : Expr} (hs : semicolon.kind = .semicolon) (hk : keyword.kind = k)
    (hne : k.isNeutral = true) (ho : opening.kind = .leftParen)
    (he : Grammar.Expression xs e) (hclose : closing.kind = .rightParen)
    (gap : Gap semicolon cut behind c (keyword :: opening :: (xs ++ closing :: ys)) front left us)
    (hn : 20 * c.ahead.length ≤ n) :
    c.next = keyword ∧ ∃ x c₁ front', Gap semicolon cut behind c₁ ys front' left us ∧
      c.Passes (keyword :: opening :: (xs ++ [closing])) c₁ ∧
      ∀ {γ : Type} (place place' : Place) (f : Expr → Parser γ),
        (expect .leftParen place >>= fun _ => expression n >>= fun x =>
          expect .rightParen place' >>= fun _ => f x) c.advance = f x c₁ := by
  have hgap : Gap semicolon cut behind c (keyword :: opening :: (xs ++ [closing]) ++ ys) front left
      us := by
    simpa using gap
  obtain ⟨front', rfl, hmore⟩ := hgap.lead hs (he.lead_parens hk hne ho hclose)
  have hc : c.Holds (keyword :: opening :: (xs ++ closing :: (front' ++ behind))) := by
    simpa using gap.holds
  have hlength := hc.length
  simp only [List.length_cons, List.length_append] at hlength
  obtain ⟨x, c₁, run, hp, -⟩ := (findsExpressions n).expression he (by omega)
    (hc.tail.tail.faces (by rw [headKind, hclose]; exact endsExpression_rightParen))
  have hc₁ := hc.tail.tail.passes hp
  have hpass := hc.advance.trans (hc.tail.advance.trans (hp.trans hc₁.advance))
  refine ⟨hc.next, x, c₁.advance, front', hmore _ hpass, hpass, fun place place' f => ?_⟩
  rw [expect_bind, hc.tail.next, if_pos ho, bind_of_done run, expect_bind, hc₁.next, if_pos hclose]

/-- How an `if` is read behind its condition. -/
theorem statement_if {x : Expr} (hnext : c.next.kind = .ifWord)
    (hcondition : ∀ {γ : Type} (place place' : Place) (f : Expr → Parser γ),
      (expect .leftParen place >>= fun _ => expression n >>= fun x =>
        expect .rightParen place' >>= fun _ => f x) c.advance = f x c₁) :
    ∃ f : Stmt → Parser Stmt, statement (n + 1) c = (statement n >>= f) c₁ ∧
      (∀ s c', c'.next.kind ≠ .elseWord → ∃ b, f s c' = .done b c') ∧
      ∀ s c', c'.next.kind = .elseWord → ∃ g : Stmt → Parser Stmt,
        f s c' = (statement n >>= g) c'.advance ∧ ∀ s' c'', ∃ b, g s' c'' = .done b c'' := by
  rw [statement, peek_bind]
  simp only [hnext]
  rw [advance_bind, hcondition]
  refine ⟨_, rfl, fun s c' hne => ?_, fun s c' heq => ?_⟩
  · rw [accept_bind, if_neg hne, if_neg (by decide)]
    exact ⟨_, rfl⟩
  · rw [accept_bind, if_pos heq, if_pos rfl]
    exact ⟨_, rfl, fun _ _ => ⟨_, rfl⟩⟩

/-- The gap is in the body of a `for` loop. -/
theorem recovers_loopBody (ih : Recovers semicolon cut behind n) {dangling : Bool}
    {keyword opening second closing : Token} {xs ys zs ws front' : List Token}
    {initializer : Option Decl} {condition : Expr} {increment : Option Expr} {body : Stmt}
    (hk : keyword.kind = .forWord) (ho : opening.kind = .leftParen)
    (hi : Grammar.LoopInitializer xs initializer) (hcond : Grammar.LoopCondition ys condition)
    (hsecond : second.kind = .semicolon) (hincr : Grammar.Optional zs increment)
    (hclose : closing.kind = .rightParen) (hbody : Grammar.Statement dangling ws body)
    (gap : Gap semicolon cut behind c
      (keyword :: opening :: (xs ++ (ys ++ second :: (zs ++ closing :: ws))))
      (keyword :: opening :: (xs ++ (ys ++ second :: (zs ++ closing :: front')))) left us)
    (hphrase : ws = front' ++ semicolon :: (cut ++ left))
    (hus : dangling = true → headKind us ≠ .elseWord)
    (hn : 20 * (c.ahead.length + 1) + 1 ≤ n + 1) : Copes (statement (n + 1)) c left us := by
  have hclosed := gap.closed
  simp only [depth_append, depth_cons, hk, ho, hsecond, hclose, TokenKind.nesting, hi.balanced,
    hcond.lead.balanced, hincr.lead.balanced] at hclosed
  have hc : c.Holds (keyword :: opening :: (xs ++ ((ys ++ [second]) ++ ((zs ++ [closing]) ++
      (front' ++ behind))))) := by
    simpa using gap.holds
  have hlength := hc.length
  simp only [List.length_cons, List.length_append, List.length_nil] at hlength
  obtain ⟨i, c₁, run, hp, -⟩ := finds_loopInitializer (n := n) hi (by omega)
    (hc.tail.tail.faces trivial)
  have hc₁ := hc.tail.tail.passes hp
  obtain ⟨x, c₂, run₂, hp₂, -⟩ := finds_loopCondition (n := n) hcond hsecond (by omega)
    (hc₁.faces trivial)
  have hc₂ := hc₁.passes hp₂
  obtain ⟨y, c₃, run₃, hp₃, -⟩ := finds_loopIncrement (n := n) hincr hclose (by omega)
    (hc₂.faces trivial)
  have hpass := hc.advance.trans (hc.tail.advance.trans (hp.trans (hp₂.trans hp₃)))
  have hgap : Gap semicolon cut behind c₃ ws front' left us :=
    ⟨hphrase, by omega, hc₂.passes hp₃, gap.resumes⟩
  have hlength₃ := hpass.length
  simp only [List.length_append, List.length_cons] at hlength₃
  have hrun : statement (n + 1) c = (statement n >>= fun body => spanFrom keyword.span >>=
      fun span => pure (forLoop i x y body span)) c₃ := by
    rw [statement, peek_bind, hc.next]
    simp only [hk]
    rw [advance_bind, expect_bind, hc.tail.next, if_pos ho, bind_of_done run, bind_of_done run₂,
      bind_of_done run₃]
  exact .of_passes hpass hrun ((ih.statement hbody hgap hus (by omega)).bind
    fun s c' hc' => ⟨_, c', rfl, hc', rfl⟩)

theorem recovers_forLoop (ih : Recovers semicolon cut behind n) (htear : Tear cut behind)
    (hs : semicolon.kind = .semicolon) {dangling : Bool}
    {keyword opening second closing : Token} {xs ys zs ws : List Token}
    {initializer : Option Decl} {condition : Expr} {increment : Option Expr} {body : Stmt}
    (hk : keyword.kind = .forWord) (ho : opening.kind = .leftParen)
    (hi : Grammar.LoopInitializer xs initializer) (hcond : Grammar.LoopCondition ys condition)
    (hsecond : second.kind = .semicolon) (hincr : Grammar.Optional zs increment)
    (hclose : closing.kind = .rightParen) (hbody : Grammar.Statement dangling ws body)
    (gap : Gap semicolon cut behind c
      (keyword :: opening :: (xs ++ (ys ++ second :: (zs ++ closing :: ws)))) front left us)
    (hus : dangling = true → headKind us ≠ .elseWord)
    (hn : 20 * (c.ahead.length + 1) + 1 ≤ n + 1) : Copes (statement (n + 1)) c left us := by
  have hclosed := gap.closed
  rcases Grammar.find_loop hk ho hi hcond hincr hclose hs gap.phrase with
    ⟨hd, hrest⟩ | ⟨rfl, hrest⟩ | ⟨front', rfl, hphrase⟩
  · -- the header is not closed behind its first semicolon
    rw [hd] at hclosed
    cases htear with
    | ending _ => cases hclosed
    | header _ hc' _ _ =>
        obtain ⟨x, hx⟩ := hcond.optional
        obtain rfl := hx.eq_nil hc' hrest
        obtain ⟨rfl, -⟩ := List.cons.inj hrest
        rw [hsecond] at hc'
        cases hc'
  · cases htear with
    | ending _ =>
        simp [hk, ho, TokenKind.nesting, hi.balanced, hcond.lead.balanced] at hclosed
    | header hincr' hc' ho' hb' =>
        obtain rfl := hincr.eq_nil hc' hrest
        cases hrest
        obtain rfl := hbody.eq_nil ho' hb'
        have hc := gap.holds
        rw [List.cons_append, List.cons_append, List.append_assoc] at hc
        rw [← List.nil_append us, ← gap.resumes]
        exact .inr ⟨rfl, forLoop_breaks hk ho hi hcond hincr' hc' hc (by omega)⟩
  · exact recovers_loopBody ih hk ho hi hcond hsecond hincr hclose hbody gap hphrase hus hn

/-- The gap is in one of the two branches of an `if`. -/
theorem recovers_ifElse (ih : Recovers semicolon cut behind n) (htear : Tear cut behind)
    (hs : semicolon.kind = .semicolon) (helse : headKind (Cursor.resumption behind) ≠ .elseWord)
    {dangling : Bool} {keyword opening closing otherwise : Token} {xs ys zs : List Token}
    {e : Expr} {s s' : Stmt} (hk : keyword.kind = .ifWord) (ho : opening.kind = .leftParen)
    (he : Grammar.Expression xs e) (hclose : closing.kind = .rightParen)
    (h : Grammar.Statement false ys s) (hother : otherwise.kind = .elseWord)
    (h' : Grammar.Statement dangling zs s')
    (gap : Gap semicolon cut behind c
      (keyword :: opening :: (xs ++ closing :: (ys ++ otherwise :: zs))) front left us)
    (hus : dangling = true → headKind us ≠ .elseWord)
    (hn : 20 * (c.ahead.length + 1) + 1 ≤ n + 1) : Copes (statement (n + 1)) c left us := by
  obtain ⟨rfl, x, c₁, front', hgap, hp, run⟩ :=
    gap.condition (n := n) hs hk rfl ho he hclose (by omega)
  obtain ⟨f, hrun, -, hotherwise⟩ := statement_if hk run
  have hlength := hp.length
  have hlength₁ := hgap.length
  rw [List.length_cons] at hlength
  rcases hgap.part htear hs h.balanced h.finished with
    ⟨front'', rfl, hphrase, hgap'⟩ | ⟨left', rfl, hgap'⟩
  · -- the gap is behind the `else`
    obtain ⟨front₁, rfl, -⟩ := Grammar.find_behind hother (by decide) hs hphrase
    have hc := hgap.holds
    rw [List.append_assoc] at hc
    obtain ⟨s, c₂, run₂, hp₂, -⟩ := (findsStatements n).statement h
      (by simp only [List.length_append] at hlength₁; omega)
      (hc.faces fun h => absurd h Bool.false_ne_true)
    have hc₂ := hc.passes hp₂
    obtain ⟨g, hg, hdone⟩ := hotherwise s c₂ (by rw [hc₂.next_kind]; exact hother)
    have hgap'' : Gap semicolon cut behind c₂ ([otherwise] ++ zs) (otherwise :: front₁) left us :=
      hgap' c₂ hp₂
    obtain ⟨front₂, -, hmore⟩ := hgap''.lead hs (.cons hother rfl Grammar.lead_nil)
    have hlength₂ := hp₂.length
    have hlength₃ := hc₂.tail_length
    refine .of_passes (hp.trans (hp₂.trans hc₂.advance))
      (hrun.trans ((bind_of_done run₂).trans hg)) ?_
    refine (ih.statement h' (hmore _ hc₂.advance) hus (by omega)).bind fun s' c' hc' => ?_
    obtain ⟨b, hb⟩ := hdone s' c'
    exact ⟨b, c', hb, hc', rfl⟩
  · -- the gap is in front of the `else`, and reading does not go on there
    rcases ih.statement h hgap' (fun h => absurd h Bool.false_ne_true) (by omega) with
      hsettles | ⟨rfl, -⟩
    · refine .inl (.of_passes hp hrun (hsettles.bind fun s c₂ hc₂ => ?_))
      obtain ⟨g, hg, hdone⟩ := hotherwise s c₂ (by rw [hc₂.next_kind]; exact hother)
      simp only [List.length_append, List.length_cons] at hlength₁
      obtain ⟨s', c₃, run₃, hp₃, -⟩ := (findsStatements n).statement h' (by omega)
        (hc₂.tail.faces hus)
      obtain ⟨b, hb⟩ := hdone s' c₃
      refine ⟨b, c₃, ?_, hc₂.tail.passes hp₃, hp₃.errors.trans hc₂.advance.errors⟩
      rw [hg, bind_of_done run₃, hb]
    · rw [hgap'.resumes] at helse
      exact absurd hother helse

theorem recovers_statement (ih : Recovers semicolon cut behind n) (htear : Tear cut behind)
    (hs : semicolon.kind = .semicolon) (helse : headKind (Cursor.resumption behind) ≠ .elseWord)
    {dangling : Bool} {s : Stmt} (h : Grammar.Statement dangling ts s)
    (gap : Gap semicolon cut behind c ts front left us)
    (hus : dangling = true → headKind us ≠ .elseWord)
    (hn : 20 * (c.ahead.length + 1) + 1 ≤ n + 1) : Copes (statement (n + 1)) c left us := by
  cases h with
  | @expression _ ts e h _ =>
      obtain ⟨rfl, rfl, rfl, rfl⟩ := gap.last hs h.lead
      have hc := gap.holds
      have hrun : statement (n + 1) c = expressionStatement n c := by
        obtain ⟨t, vs, rfl, ht⟩ := h.starts
        rw [statement, peek_bind, hc.next]
        generalize t.kind = kind at ht
        cases kind <;> first | rfl | cases ht
      exact .of_passes (.refl c) hrun (expressionStatement_copes h htear.seam hc (by omega))
  | @print keyword _ ts e hk h _ =>
      obtain ⟨rfl, rfl, rfl, rfl⟩ := gap.last hs (.cons hk rfl h.lead)
      have hc := gap.holds
      have hrun : statement (n + 1) c = printStatement n c := by
        rw [statement, peek_bind, hc.next]
        simp only [hk]
      exact .of_passes (.refl c) hrun (printStatement_copes h htear.seam hc (by omega))
  | @ret keyword _ ts value hk h _ =>
      obtain ⟨rfl, rfl, rfl, rfl⟩ := gap.last hs (.cons hk rfl h.lead)
      have hc := gap.holds
      have hrun : statement (n + 1) c = returnStatement n c := by
        rw [statement, peek_bind, hc.next]
        simp only [hk]
      exact .of_passes (.refl c) hrun (returnStatement_copes h htear.seam hc (by omega))
  | block h =>
      cases h with
      | @mk opening closing ts body ho h hclose =>
          obtain ⟨_, hc⟩ := gap.holds_cons hs (by rw [ho]; decide)
          have hp := hc.advance
          have hgap : Gap semicolon cut behind c ([opening] ++ (ts ++ [closing])) front left us :=
            gap
          obtain ⟨front', -, hmore⟩ := hgap.lead hs (.cons ho rfl Grammar.lead_nil)
          have hlength := hp.length
          rw [List.length_singleton] at hlength
          have hrun : statement (n + 1) c = (blockBody n >>= fun body =>
              spanFrom opening.span >>= fun span => pure (.block body span)) c.advance := by
            rw [statement, peek_bind, hc.next]
            simp only [ho]
            rw [advance_bind]
          exact .inl (.of_passes hp hrun ((ih.blockBody h hclose (hmore _ hp) (by omega)).bind
            fun ds c' hc' => ⟨_, c', rfl, hc', rfl⟩))
  | @ifThen inner keyword opening closing ts us' e s hk ho he hclose h =>
      obtain ⟨rfl, x, c₁, front', hgap, hp, run⟩ :=
        gap.condition (n := n) hs hk rfl ho he hclose (by omega)
      obtain ⟨f, hrun, hthen, -⟩ := statement_if hk run
      have hlength := hp.length
      rw [List.length_cons] at hlength
      refine .of_passes hp hrun ((ih.statement h hgap (fun _ => hus rfl) (by omega)).bind ?_)
      intro s c' hc'
      obtain ⟨b, hb⟩ := hthen s c' (by rw [hc'.next_kind]; exact hus rfl)
      exact ⟨b, c', hb, hc', rfl⟩
  | ifElse hk ho he hclose h hother h' =>
      exact recovers_ifElse ih htear hs helse hk ho he hclose h hother h' gap hus hn
  | @whileLoop _ keyword opening closing ts us' e s hk ho he hclose h =>
      obtain ⟨rfl, x, c₁, front', hgap, hp, run⟩ :=
        gap.condition (n := n) hs hk rfl ho he hclose (by omega)
      have hlength := hp.length
      rw [List.length_cons] at hlength
      have hrun : statement (n + 1) c = (statement n >>= fun body => spanFrom c.next.span >>=
          fun span => pure (.whileLoop x body span)) c₁ := by
        rw [statement, peek_bind]
        simp only [hk]
        rw [advance_bind, run]
      exact .of_passes hp hrun ((ih.statement h hgap hus (by omega)).bind
        fun s c' hc' => ⟨_, c', rfl, hc', rfl⟩)
  | forLoop hk ho hi hcond hsecond hincr hclose hbody =>
      exact recovers_forLoop ih htear hs hk ho hi hcond hsecond hincr hclose hbody gap hus hn

/-- **The parsers of declarations and statements get over a gap**, if there is fuel enough. -/
theorem recovers (htear : Tear cut behind) (hs : semicolon.kind = .semicolon)
    (helse : headKind (Cursor.resumption behind) ≠ .elseWord) (n : Nat) :
    Recovers semicolon cut behind n := by
  induction n with
  | zero => constructor <;> intros <;> omega
  | succ n ih =>
      exact ⟨recovers_declaration ih, recovers_wholeDeclaration ih htear hs,
        recovers_methods ih htear hs, fun role => recovers_routine ih hs role,
        recovers_blockBody ih htear hs, recovers_declarations ih htear hs,
        recovers_statement ih htear hs helse⟩

end Recovers

end Parser

/-! ### Programs -/

namespace Program

/-- The tokens are read without an error. -/
def Accepts (ts : List Token) (supply : Supply) : Prop := ∃ p, (parse ts supply).1 = .ok p

theorem accepts_iff {ts : List Token} {supply : Supply} :
    Accepts ts supply ↔ ∃ p, Grammar.Derives (ts.takeWhile Cursor.isInner) p := by
  constructor
  · rintro ⟨p, h⟩
    exact ⟨p.bare, ((parse_iff_derives ts supply).1 p.bare).1 ⟨p, _, Prod.ext h rfl, rfl⟩⟩
  · rintro ⟨p, h⟩
    obtain ⟨p', supply', h, -⟩ := parse_of_derives supply h
    exact ⟨p', by rw [h]⟩

theorem accepts_iff_of_inner {ts : List Token} {supply : Supply}
    (h : ∀ t ∈ ts, Cursor.isInner t = true) : Accepts ts supply ↔ ∃ p, Grammar.Derives ts p := by
  rw [accepts_iff, List.takeWhile_eq_self_iff.2 h]

/-- Declarations that are read up to the end with one error at most make a program, or one error. -/
theorem accepts_or_one_error {ts : List Token} {supply : Supply}
    (h : Parser.Settles (Parser.declarations (fuelFor ts) false) (Cursor.ofTokens ts supply) []) :
    Accepts ts supply ∨ ∃ e, (parse ts supply).1 = .error [e] := by
  obtain ⟨ds, c, run, -, herrors⟩ := h
  unfold Accepts parse
  rw [run]
  dsimp only
  match hc : c.errors with
  | [] => exact .inl ⟨⟨ds⟩, rfl⟩
  | [e] => exact .inr ⟨e, rfl⟩
  | _ :: _ :: _ =>
      rw [hc] at herrors
      simp [Cursor.ofTokens] at herrors

/-- A program with a gap is read with one error at most, if reading goes on where the program
does. -/
theorem one_error_of_tear {ts front cut behind : List Token} {semicolon : Token} {ds : List Decl}
    {supply : Supply} (hs : semicolon.kind = .semicolon) (htear : Parser.Tear cut behind)
    (hclosed : depth front + depth cut = 0) (hts : ts.takeWhile Cursor.isInner = front ++ behind)
    (hds : Grammar.Declarations (front ++ semicolon :: (cut ++ Cursor.resumption behind)) ds)
    (helse : headKind (Cursor.resumption behind) ≠ .elseWord) :
    Accepts ts supply ∨ ∃ e, (parse ts supply).1 = .error [e] := by
  have hholds : (Cursor.ofTokens ts supply).Holds (front ++ behind) :=
    ⟨by rw [Cursor.ofTokens, hts], ofTokens_finish _ _⟩
  refine accepts_or_one_error ((Parser.recovers htear hs helse _).declarations hds
    ⟨rfl, hclosed, hholds, (List.append_nil _).symm⟩ (.inr ⟨rfl, rfl⟩) ?_)
  have hlength := (List.takeWhile_sublist Cursor.isInner (l := ts)).length_le
  rw [hts] at hlength
  rw [hholds.length, fuelFor]
  omega

/-- What stands behind a missing semicolon lets recovery get back in step with the program, and not
at an `else`:

* a brief declaration follows;
* or reading goes on where, behind the semicolon, the program would go on;
* or the semicolon is in the header of a loop, and reading goes on where the program would go on if
  the semicolon parted the last two clauses of the header, nothing were left of the last one, and an
  empty block were the body. -/
inductive InStep (front : List Token) (semicolon : Token) (back : List Token) (supply : Supply) :
    Prop
  | brief {us vs : List Token} : depth front = 0 → back = us ++ vs → Grammar.Brief us →
      InStep front semicolon back supply
  | ending : depth front = 0 → Accepts (front ++ semicolon :: Cursor.resumption back) supply →
      headKind (Cursor.resumption back) ≠ .elseWord → InStep front semicolon back supply
  | header {us vs ws : List Token} {closing opening brace : Token} {increment : Option Expr} :
      depth (front ++ us) = 1 → back = us ++ (vs ++ closing :: ws) →
      Grammar.Optional vs increment → closing.kind = .rightParen → opening.kind = .leftBrace →
      brace.kind = .rightBrace →
      Accepts (front ++ us ++ semicolon :: closing :: opening :: brace ::
        Cursor.resumption (vs ++ closing :: ws)) supply →
      headKind (Cursor.resumption (vs ++ closing :: ws)) ≠ .elseWord →
      InStep front semicolon back supply

theorem inner_of_kind {t : Token} {k : TokenKind} (ht : t.kind = k) (hk : k ≠ .endOfSource) :
    Cursor.isInner t = true := by
  simp [Cursor.isInner, ht, hk]

/-- The end of the source apart, a missing semicolon costs one error at most. -/
theorem one_error_of_inner {ts front back : List Token} {semicolon : Token} {ds : List Decl}
    {supply : Supply} (hs : semicolon.kind = .semicolon)
    (hfront : ∀ t ∈ front, Cursor.isInner t = true) (hback : ∀ t ∈ back, Cursor.isInner t = true)
    (hts : ts.takeWhile Cursor.isInner = front ++ back)
    (hds : Grammar.Declarations (front ++ semicolon :: back) ds)
    (hstep : InStep front semicolon back supply) :
    Accepts ts supply ∨ ∃ e, (parse ts supply).1 = .error [e] := by
  have hsemicolon := inner_of_kind hs (by decide)
  have hseam (hdepth : depth front = 0) : Parser.Tear [] back := by
    have hseam := hds.seam hs rfl hdepth Grammar.seam_nil
    rw [List.append_nil] at hseam
    exact .ending hseam
  cases hstep with
  | @brief us vs hdepth hus hbrief =>
      -- without the brief declaration, the tokens still derive a program
      have htear := hseam hdepth
      rw [hus] at hds
      rcases hds.leave_out hs hbrief rfl hdepth (List.append_nil _) with h | ⟨ws, ds, h, hds, he⟩
      · cases hbrief
        cases h
      · obtain rfl := List.append_cancel_left h
        have hresumption := hbrief.resumption vs
        rw [← hus] at hresumption
        rw [← hresumption] at hds he
        exact one_error_of_tear hs htear (by rw [hdepth]; rfl) hts hds he
  | ending hdepth hstep helse =>
      have hrest : ∀ t ∈ Cursor.resumption back, Cursor.isInner t = true :=
        fun t ht => hback t ((Cursor.resumption_suffix _).mem ht)
      obtain ⟨q, hq⟩ := (accepts_iff_of_inner (by simp_all [or_imp])).1 hstep
      exact one_error_of_tear hs (hseam hdepth) (by rw [hdepth]; rfl) hts hq helse
  | @header us vs ws closing opening brace increment hdepth hus hincr hc ho hb hstep helse =>
      have hrest : ∀ t ∈ Cursor.resumption (vs ++ closing :: ws), Cursor.isInner t = true :=
        fun t ht => hback t (by
          rw [hus]
          exact List.mem_append_right _ ((Cursor.resumption_suffix _).mem ht))
      obtain ⟨q, hq⟩ := (accepts_iff_of_inner (by
        have hclosing := inner_of_kind hc (by decide)
        have hopening := inner_of_kind ho (by decide)
        have hbrace := inner_of_kind hb (by decide)
        simp_all [or_imp, forall_and])).1 hstep
      rw [hus, ← List.append_assoc] at hts
      exact one_error_of_tear hs (.header hincr hc ho hb)
        (by simp [hdepth, hc, ho, hb, TokenKind.nesting]) hts hq helse

/-- **A missing semicolon costs one error at most**, if recovery gets back in step with the program
behind it. -/
theorem one_error_of_missing_semicolon {front back : List Token} {semicolon : Token}
    {supply : Supply} (hs : semicolon.kind = .semicolon)
    (hparse : Accepts (front ++ semicolon :: back) supply)
    (hstep : InStep front semicolon (back.takeWhile Cursor.isInner) supply) :
    Accepts (front ++ back) supply ∨ ∃ e, (parse (front ++ back) supply).1 = .error [e] := by
  by_cases hinner : (front.takeWhile Cursor.isInner).length = front.length
  case neg =>
    -- the semicolon stands behind the end of the source, and is not read
    rw [accepts_iff, List.takeWhile_append, if_neg hinner] at hparse ⊢
    exact .inl hparse
  case pos =>
    have hall (ts : List Token) : ∀ t ∈ ts.takeWhile Cursor.isInner, Cursor.isInner t = true :=
      fun t ht => List.all_eq_true.1 List.all_takeWhile t ht
    have hfront := hall front
    rw [(List.takeWhile_prefix Cursor.isInner).eq_of_length hinner] at hfront
    obtain ⟨p, hp⟩ := accepts_iff.1 hparse
    rw [List.takeWhile_append_of_pos hfront,
      List.takeWhile_cons_of_pos (inner_of_kind hs (by decide))] at hp
    exact one_error_of_inner hs hfront (hall back) (List.takeWhile_append_of_pos hfront) hp hstep

/-- A token of which only the kind and the text matter. -/
def unplaced (kind : TokenKind) (lexeme : String) : Token := ⟨kind, lexeme, none, ⟨0, 1, 1⟩⟩

/-- A function with a variable declaration, up to the semicolon of the declaration. -/
def functionFront : List Token :=
  [unplaced .funWord "fun", unplaced .identifier "f", unplaced .leftParen "(",
    unplaced .rightParen ")", unplaced .leftBrace "\x7b", unplaced .varWord "var",
    unplaced .identifier "x", unplaced .equal "=", unplaced .trueWord "true"]

/-- What stands behind this semicolon: a `print` in the function, and one behind it. -/
def functionBack : List Token :=
  [unplaced .printWord "print", unplaced .identifier "x", unplaced .semicolon ";",
    unplaced .rightBrace "\x7d", unplaced .printWord "print", unplaced .nilWord "nil",
    unplaced .semicolon ";"]

/-- A loop and a statement behind it. -/
def whileBack : List Token :=
  [unplaced .whileWord "while", unplaced .leftParen "(", unplaced .identifier "x",
    unplaced .rightParen ")", unplaced .identifier "y", unplaced .semicolon ";",
    unplaced .identifier "z", unplaced .semicolon ";"]

/-- A `for` loop up to its first semicolon. -/
def loopFront : List Token :=
  [unplaced .forWord "for", unplaced .leftParen "(", unplaced .identifier "x"]

/-- The second clause of a loop, in parentheses, and its semicolon. -/
def callClause : List Token :=
  [unplaced .leftParen "(", unplaced .identifier "y", unplaced .rightParen ")",
    unplaced .semicolon ";"]

/-- The end of the header, without a last clause, and the body of the loop. -/
def printBack : List Token :=
  [unplaced .rightParen ")", unplaced .printWord "print", unplaced .identifier "x",
    unplaced .semicolon ";"]

/-- In the body of a function, the `print` behind the missing semicolon is skipped, and the brace
behind it still ends the body.  A loop behind the missing semicolon is skipped up to the end of its
body.  In the header of a loop, two clauses are read as a call, and the body is read as a statement
behind the loop. -/
theorem one_error_of_missing_semicolon_function :
    (Accepts (functionFront ++ unplaced .semicolon ";" :: functionBack) .full ∧
      ∃ e, (parse (functionFront ++ functionBack) .full).1 = .error [e]) ∧
    (Accepts (unplaced .identifier "x" :: unplaced .semicolon ";" :: whileBack) .full ∧
      ∃ e, (parse (unplaced .identifier "x" :: whileBack) .full).1 = .error [e]) ∧
    (Accepts (loopFront ++ unplaced .semicolon ";" :: (callClause ++ printBack)) .full ∧
      ∃ e, (parse (loopFront ++ (callClause ++ printBack)) .full).1 = .error [e]) := by
  refine ⟨?function, ?whileLoop, ?forLoop⟩
  case function =>
    have hparse : Accepts (functionFront ++ unplaced .semicolon ";" :: functionBack) .full :=
      ⟨_, rfl⟩
    have hback : functionBack = functionBack.take 3 ++ functionBack.drop 3 := rfl
    have hbrief : Grammar.Brief (functionBack.take 3) :=
      .mk rfl (List.forall_mem_singleton.2 rfl) rfl
    have hstep : InStep functionFront (unplaced .semicolon ";") functionBack .full :=
      .brief rfl hback hbrief
    refine ⟨hparse, (one_error_of_missing_semicolon rfl hparse hstep).resolve_left ?_⟩
    rintro ⟨p, hp⟩
    cases hp
  case whileLoop =>
    have hparse : Accepts ([unplaced .identifier "x"] ++ unplaced .semicolon ";" :: whileBack)
        .full := ⟨_, rfl⟩
    have hstep : InStep [unplaced .identifier "x"] (unplaced .semicolon ";") whileBack .full :=
      .ending rfl ⟨_, rfl⟩ (by decide)
    refine ⟨hparse, (one_error_of_missing_semicolon rfl hparse hstep).resolve_left ?_⟩
    rintro ⟨p, hp⟩
    cases hp
  case forLoop =>
    have hparse : Accepts (loopFront ++ unplaced .semicolon ";" :: (callClause ++ printBack))
        .full := ⟨_, rfl⟩
    have hback : callClause ++ printBack = callClause ++ ([] ++ printBack) := rfl
    have hstep : InStep loopFront (unplaced .semicolon ";") (callClause ++ printBack) .full :=
      .header rfl hback .none rfl (rfl : (unplaced .leftBrace "\x7b").kind = _)
        (rfl : (unplaced .rightBrace "\x7d").kind = _) ⟨_, rfl⟩ (by decide)
    refine ⟨hparse, (one_error_of_missing_semicolon rfl hparse hstep).resolve_left ?_⟩
    rintro ⟨p, hp⟩
    cases hp

/-- A block with one expression, without its last semicolon and brace. -/
def blockFront : List Token := [unplaced .leftBrace "\x7b", unplaced .identifier "x"]

/-- The rest of a loop of which each clause is one name. -/
def loopBack : List Token :=
  [unplaced .identifier "x", unplaced .semicolon ";", unplaced .identifier "x",
    unplaced .rightParen ")", unplaced .identifier "x", unplaced .semicolon ";"]

/-- **Not every missing semicolon costs one error only**: without the last semicolon of a block, the
brace behind it is skipped, and without the first semicolon of a loop, what is left of its clauses
is read as a statement. -/
theorem two_errors_of_missing_semicolon :
    (Accepts (blockFront ++ unplaced .semicolon ";" :: [unplaced .rightBrace "\x7d"]) .full ∧
      ∃ e e', (parse (blockFront ++ [unplaced .rightBrace "\x7d"]) .full).1 = .error [e, e']) ∧
    (Accepts (loopFront ++ unplaced .semicolon ";" :: loopBack) .full ∧
      ∃ e e', (parse (loopFront ++ loopBack) .full).1 = .error [e, e']) :=
  ⟨⟨⟨_, rfl⟩, _, _, rfl⟩, ⟨_, rfl⟩, _, _, rfl⟩

end Program

end Scriptlet
