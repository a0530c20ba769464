/-
**Lexemes do not look far.**

Where a lexeme ends depends on little of what follows it.  Only a string has a blank inside, and a
string ends at its closing quote, so no lexeme goes on over a blank behind it.  And a text that
begins with a longest lexeme has that lexeme for its first piece, unless it opens a comment.  So what
follows a lexeme may be changed: if it is blanked out or cut off, the lexeme stays what it was.

Main definitions:

* `Scriptlet.Lexeme.OpensComment` — texts that open a comment.

Main results:

* `Scriptlet.Lexeme.piece_of_longest` — **a longest lexeme is the first piece of its text**;
* `Scriptlet.Lexeme.piece_of_trivia` — trivia that fits what follows is the first piece;
* `Scriptlet.Lexeme.IsLexeme.eq_or_solid` — a lexeme that goes on from another has no blank;
* `Scriptlet.Lexeme.IsLexeme.longest_append` — no lexeme goes on over a blank;
* `Scriptlet.scan_isLexeme`, `Scriptlet.isLexeme_of_scan` — **the texts that are a token alone**.
-/

import Scriptlet.Proofs.Token.Segmentation

set_option relaxedAutoImplicit false
set_option autoImplicit false

namespace Scriptlet

namespace Lexeme

/-! ### What begins no lexeme -/

/-- Texts that open a comment. -/
def OpensComment (text : List Char) : Prop := ['/', '/'] <+: text ∨ ['/', '*'] <+: text

/-- A character that is no piece of its own begins no lexeme. -/
theorem piece_eq_unexpected {c : Char} {cs : List Char} (h : piece c cs = .unexpected) :
    isSpace c = false ∧ ∀ ds, IsLexeme (c :: ds) → ¬ c :: ds <+: c :: cs := by
  unfold piece at h
  split at h
  · cases h
  · rename_i hspace
    split at h
    · split at h <;> cases h
    · rename_i hquote
      split at h
      · cases h
      · rename_i hdigit
        split at h
        · cases h
        · rename_i hname
          refine ⟨by simpa using hspace, fun ds hds hpre => ?_⟩
          obtain ⟨kind, hkind⟩ := hds.of_other (by simpa using hquote) (by simpa using hdigit)
            (by simpa using hname)
          have htail := (List.cons_prefix_cons.1 hpre).2
          split at h
          · cases h
          · split at h <;> cases h
          · -- neither the one nor the two characters in front are a symbol
            unfold symbolPiece at h
            rcases symbol?_length hkind with hlen | hlen
            · obtain rfl : ds = [] := by simpa using hlen
              split at h
              · split at h
                · cases h
                · simp [hkind] at h
              · simp [hkind] at h
            · obtain ⟨d, rfl⟩ := List.length_eq_one_iff.1 (Nat.succ.inj hlen)
              obtain ⟨rest, rfl⟩ := htail
              simp [hkind] at h

/-- A string that is not closed begins with a quote. -/
theorem piece_eq_openString {c : Char} {cs : List Char} (h : piece c cs = .openString) :
    isQuote c = true ∧ stringTail c cs = none := by
  unfold piece at h
  split at h
  · cases h
  · split at h
    · rename_i hquote
      split at h
      · cases h
      · rename_i htail
        exact ⟨hquote, htail⟩
    · split at h
      · cases h
      · split at h
        · cases h
        · split at h
          · cases h
          · split at h <;> cases h
          · unfold symbolPiece at h
            split at h
            · split at h
              · cases h
              · split at h <;> cases h
            · split at h <;> cases h

/-- A block comment that is not closed begins with its two characters. -/
theorem piece_eq_openComment {c : Char} {cs : List Char} (h : piece c cs = .openComment) :
    c = '/' ∧ ∃ ds, cs = '*' :: ds ∧ commentTail ds = none := by
  unfold piece at h
  split at h
  · cases h
  · split at h
    · split at h <;> cases h
    · split at h
      · cases h
      · split at h
        · cases h
        · split at h
          · cases h
          · split at h
            · cases h
            · exact ⟨rfl, _, rfl, ‹_›⟩
          · unfold symbolPiece at h
            split at h
            · split at h
              · cases h
              · split at h <;> cases h
            · split at h <;> cases h

/-- A quote behind the text of a string closes it. -/
theorem stringTail_of_stringBody {quote : Char} (hq : quote ≠ '\\') {body : List Char}
    (h : StringBody quote body) (rest : List Char) :
    stringTail quote (body ++ quote :: rest) = some (body ++ [quote], rest) := by
  induction h with
  | nil =>
      rw [List.nil_append, stringTail.eq_def]
      simp
  | @plain c cs hne hslash _ ih =>
      rw [List.cons_append, stringTail.eq_def]
      simp [hne, hslash, ih]
  | @escaped c cs _ ih =>
      have hne : ¬ '\\' = quote := fun e => hq e.symm
      rw [List.cons_append, List.cons_append, stringTail.eq_def]
      simp [hne, ih]

/-! ### Longest lexemes are pieces -/

/-- No lexeme begins with a blank. -/
theorem IsLexeme.not_isSpace {c : Char} {cs : List Char} (h : IsLexeme (c :: cs)) :
    isSpace c = false := by
  by_contra hspace
  simp only [isSpace, Bool.not_eq_false, Bool.or_eq_true, beq_iff_eq] at hspace
  have hother : isQuote c = false ∧ isDigit c = false ∧ startsName c = false ∧
      ∀ cs, symbol? (c :: cs) = none := by
    rcases hspace with ((rfl | rfl) | rfl) | rfl
    all_goals exact ⟨by decide, by decide, by decide, fun _ => rfl⟩
  obtain ⟨kind, hkind⟩ := h.of_other hother.1 hother.2.1 hother.2.2.1
  rw [hother.2.2.2] at hkind
  cases hkind

/-- **A longest lexeme is the first piece of its text**, unless the text opens a comment. -/
theorem piece_of_longest {c : Char} {cs rest : List Char}
    (h : Longest (c :: cs) (c :: (cs ++ rest))) (hcomment : ¬ OpensComment (c :: (cs ++ rest))) :
    piece c (cs ++ rest) = .lexeme (c :: cs) rest := by
  cases hpiece : piece c (cs ++ rest) with
  | trivia taken after =>
      have happ := (piece_trivia hpiece).1
      cases trivia_of_piece hpiece with
      | blank following hspace =>
          obtain rfl : _ = c := (List.cons.inj happ).1
          rw [h.isLexeme.not_isSpace] at hspace
          cases hspace
      | lineComment _ _ => exact absurd (.inl ⟨_, happ⟩) hcomment
      | blockComment following _ => exact absurd (.inr ⟨_, happ⟩) hcomment
  | lexeme taken after =>
      have hlongest := longest_of_piece hpiece
      have happ := (piece_lexeme hpiece).1
      -- both are the longest with which the text begins
      have htaken : taken = c :: cs := by
        have hle := h.length_le taken hlongest.isLexeme hlongest.isPrefix
        have hge := hlongest.length_le (c :: cs) h.isLexeme h.isPrefix
        exact (List.prefix_of_prefix_length_le hlongest.isPrefix h.isPrefix hle).eq_of_length
          (Nat.le_antisymm hle hge)
      subst htaken
      have hrest : c :: cs ++ after = c :: cs ++ rest := happ
      rw [List.append_cancel_left hrest]
  | unexpected => exact absurd h.isPrefix ((piece_eq_unexpected hpiece).2 cs h.isLexeme)
  | openString =>
      obtain ⟨hquote, htail⟩ := piece_eq_openString hpiece
      obtain ⟨body, rfl, hbody⟩ := h.isLexeme.of_isQuote hquote
      have hclosed := stringTail_of_stringBody (isQuote_ne_backslash hquote) hbody rest
      rw [List.append_assoc, List.singleton_append, hclosed] at htail
      cases htail
  | openComment =>
      obtain ⟨rfl, ds, hds, -⟩ := piece_eq_openComment hpiece
      exact absurd (.inr ⟨ds, by rw [hds]; rfl⟩) hcomment

/-! ### Trivia is a piece -/

/-- A block comment goes up to the closing behind a body that has none. -/
theorem commentTail_of_body {body : List Char} (h : ¬ ['*', '/'] <:+: body)
    (rest : List Char) :
    commentTail (body ++ '*' :: '/' :: rest) = some (body ++ ['*', '/'], rest) := by
  induction body with
  | nil => simp [commentTail]
  | cons c body ih =>
      rw [List.infix_cons_iff, not_or] at h
      -- the body is not closed at its start, nor does its start close together with its end
      have hopen : ∀ more, c = '*' → body ++ '*' :: '/' :: rest = '/' :: more → False := by
        rintro more rfl hmore
        cases body with
        | nil => simp at hmore
        | cons d body =>
            obtain ⟨rfl, -⟩ := List.cons.inj hmore
            exact h.1 ⟨body, rfl⟩
      rw [List.cons_append, commentTail.eq_3 _ _ hopen, ih h.2]
      rfl

/-- What is left of a block comment decides what piece its two characters begin. -/
theorem piece_blockComment (cs : List Char) :
    piece '/' ('*' :: cs) =
      (commentTail cs).elim .openComment fun (taken, rest) =>
        .trivia ('/' :: '*' :: taken) rest := by
  cases h : commentTail cs with
  | none => simp [piece, h, isSpace, isQuote, isDigit, startsName]
  | some parts => simp [piece, h, isSpace, isQuote, isDigit, startsName]

/-- Trivia is not empty. -/
theorem Trivia.ne_nil {taken rest : List Char} (h : Trivia taken rest) : taken ≠ [] := by
  cases h <;> exact List.cons_ne_nil _ _

/-- **Trivia is the first piece of its text**, if it fits what follows. -/
theorem piece_of_trivia {c : Char} {cs rest : List Char} (h : Trivia (c :: cs) rest) :
    piece c (cs ++ rest) = .trivia (c :: cs) rest := by
  cases h with
  | blank _ hspace =>
      unfold piece
      exact if_pos hspace
  | @lineComment body _ hbody hend =>
      have hline : ∀ d ∈ body, (d != '\n') = true := fun d hd =>
        bne_iff_ne.2 fun heq => hbody (heq ▸ hd)
      show Piece.trivia ('/' :: '/' :: (body ++ rest).takeWhile (· != '\n'))
        ((body ++ rest).dropWhile (· != '\n')) = _
      rw [List.takeWhile_append_of_pos hline, List.dropWhile_append_of_pos hline]
      rcases hend with rfl | ⟨rest, rfl⟩ <;> simp
  | @blockComment body _ hbody =>
      rw [List.cons_append, piece_blockComment, List.append_assoc, List.cons_append,
        List.singleton_append, commentTail_of_body hbody]
      rfl

/-! ### Blanks end lexemes -/

/-- A lexeme that does not begin with a quote has no blank inside. -/
theorem IsLexeme.solid {c : Char} {cs : List Char} (h : IsLexeme (c :: cs))
    (hquote : isQuote c = false) : ∀ d ∈ c :: cs, isSpace d = false := by
  have hdigit : ∀ d, isDigit d = true → isSpace d = false := fun d hd =>
    (IsLexeme.integer (List.cons_ne_nil d []) (List.forall_mem_singleton.2 hd)).not_isSpace
  have hname : ∀ d, startsName d = true → isSpace d = false := fun d hd =>
    (IsLexeme.name hd (List.forall_mem_nil _)).not_isSpace
  have hfirst := h.not_isSpace
  refine List.forall_mem_cons.2 ⟨hfirst, ?_⟩
  rcases h.sort with ⟨hq, -⟩ | ⟨-, hdigits | ⟨whole, places, rfl, hwhole, -, hplaces⟩⟩ |
    ⟨-, hrest⟩ | ⟨kind, hkind⟩
  · rw [hquote] at hq
    cases hq
  · exact fun d hd => hdigit d (hdigits d hd)
  · refine List.forall_mem_append.2 ⟨fun d hd => hdigit d (hwhole d hd), ?_⟩
    exact List.forall_mem_cons.2 ⟨by decide, fun d hd => hdigit d (hplaces d hd)⟩
  · intro d hd
    have hcontinues := hrest d hd
    rw [continuesName, Bool.or_eq_true] at hcontinues
    exact hcontinues.elim (hname d) (hdigit d)
  · -- the second character of a symbol is `=`
    unfold symbol? at hkind
    split at hkind
    all_goals
      rename_i heq
      first
        | cases heq <;> simp [isSpace]
        | cases hkind

/-- **A lexeme that goes on from another has no blank inside**, for a string ends where it is
closed. -/
theorem IsLexeme.eq_or_solid {lexeme other : List Char} (h : IsLexeme lexeme)
    (hother : IsLexeme other) (hpre : lexeme <+: other) :
    other = lexeme ∨ ∀ d ∈ other, isSpace d = false := by
  obtain ⟨c, cs, rfl⟩ := List.exists_cons_of_ne_nil h.ne_nil
  obtain ⟨rest, rfl⟩ := hpre
  by_cases hquote : isQuote c = true
  · obtain ⟨body, rfl, hbody⟩ := h.of_isQuote hquote
    obtain ⟨body', hbody', hstring⟩ := hother.of_isQuote hquote
    have hsame : body ++ c :: rest = body' ++ c :: [] := by simpa using hbody'
    obtain rfl := stringBody_unique (isQuote_ne_backslash hquote) hbody hstring hsame
    exact .inl (congrArg (c :: ·) hbody')
  · exact .inr (hother.solid (by simpa using hquote))

/-- What may follow a lexeme so that no longer one fits: nothing or a blank. -/
def BlankAhead (following : List Char) : Prop := ∀ d ∈ following.head?, isSpace d = true

/-- **No lexeme goes on over a blank.** -/
theorem IsLexeme.longest_append {lexeme following : List Char} (h : IsLexeme lexeme)
    (hblank : BlankAhead following) : Longest lexeme (lexeme ++ following) := by
  refine ⟨h, List.prefix_append _ _, fun other hother hpre => ?_⟩
  by_contra hlt
  have hle : lexeme.length ≤ other.length := by omega
  have hextends := List.prefix_of_prefix_length_le (List.prefix_append lexeme following) hpre hle
  rcases h.eq_or_solid hother hextends with rfl | hsolid
  · exact hlt (Nat.le_refl _)
  · obtain ⟨more, rfl⟩ := hextends
    obtain ⟨rest, hrest⟩ := hpre
    rw [List.append_assoc] at hrest
    obtain rfl := List.append_cancel_left hrest
    cases more with
    | nil => simp at hlt
    | cons d more =>
        have hspace := hblank d rfl
        rw [hsolid d (by simp)] at hspace
        cases hspace

/-- A text of a lexeme and a blank behind it opens no comment. -/
theorem IsLexeme.not_opensComment {lexeme following : List Char} (h : IsLexeme lexeme)
    (hblank : BlankAhead following) : ¬ OpensComment (lexeme ++ following) := by
  -- no symbol of two characters opens a comment, and no blank does
  obtain ⟨c, cs, rfl⟩ := List.exists_cons_of_ne_nil h.ne_nil
  have hopens : ∀ d, d = '/' ∨ d = '*' → ¬ ['/', d] <+: c :: (cs ++ following) := by
    intro d hd hpre
    obtain ⟨rfl, htail⟩ := List.cons_prefix_cons.1 hpre
    obtain ⟨kind, hkind⟩ := h.of_other (by decide) (by decide) (by decide)
    cases cs with
    | nil =>
        cases following with
        | nil => simp at htail
        | cons e following =>
            obtain ⟨rfl, -⟩ := List.cons_prefix_cons.1 htail
            have hspace := hblank d rfl
            rcases hd with rfl | rfl <;> cases hspace
    | cons e cs =>
        obtain ⟨rfl, -⟩ := List.cons_prefix_cons.1 htail
        rcases hd with rfl | rfl
        all_goals
          unfold symbol? at hkind
          split at hkind <;> first | (rename_i heq; cases heq) | cases hkind
  exact not_or.2 ⟨hopens '/' (.inl rfl), hopens '*' (.inr rfl)⟩

/-- A text whose first piece is a lexeme opens no comment. -/
theorem not_opensComment_of_piece {c : Char} {cs taken rest : List Char}
    (h : piece c cs = .lexeme taken rest) : ¬ OpensComment (c :: cs) := by
  rintro (⟨ds, hds⟩ | ⟨ds, hds⟩)
  · obtain ⟨rfl, rfl⟩ := List.cons.inj hds
    cases h
  · obtain ⟨rfl, rfl⟩ := List.cons.inj hds
    have hblock := (piece_blockComment ds).symm.trans h
    cases htail : commentTail ds with
    | none => simp [htail] at hblock
    | some parts => simp [htail] at hblock

/-- A lexeme in front of a blank is a piece. -/
theorem IsLexeme.piece_eq {c : Char} {cs following : List Char} (h : IsLexeme (c :: cs))
    (hblank : BlankAhead following) : piece c (cs ++ following) = .lexeme (c :: cs) following :=
  piece_of_longest (h.longest_append hblank) (h.not_opensComment hblank)

end Lexeme

open Lexeme

/-! ### One piece at a time -/

/-- A scan passes over trivia that fits what follows. -/
theorem scanFrom_of_trivia {p : Position} {taken rest : List Char} (h : Trivia taken rest) :
    scanFrom p (taken ++ rest) = scanFrom (p.after taken) rest := by
  obtain ⟨c, cs, rfl⟩ := List.exists_cons_of_ne_nil h.ne_nil
  exact scanFrom_trivia (piece_of_trivia h)

/-! ### Texts that are a token alone -/

/-- A lexeme in front of a blank becomes a token. -/
theorem scanFrom_isLexeme {p : Position} {lexeme following : List Char} (h : IsLexeme lexeme)
    (hblank : BlankAhead following) :
    scanFrom p (lexeme ++ following) =
      { scanFrom (p.after lexeme) following with
        tokens := token p lexeme :: (scanFrom (p.after lexeme) following).tokens } := by
  obtain ⟨c, cs, rfl⟩ := List.exists_cons_of_ne_nil h.ne_nil
  exact scanFrom_lexeme (h.piece_eq hblank)

/-- A text without errors has no line in front of it that names an interpreter: `#` begins
nothing. -/
theorem shebang_of_errors_eq_nil {p : Position} {text : List Char}
    (h : (scanFrom p text).errors = []) : shebang text = ([], text) := by
  unfold shebang
  split
  · rename_i cs
    have hpiece : piece '#' ('!' :: cs) = .unexpected := rfl
    rw [scanFrom_unexpected hpiece] at h
    cases h
  · rfl

/-- A text without errors that stands at the start of a source is the source. -/
theorem scan_of_errors_eq_nil {text : List Char} (h : (scanFrom .start text).errors = []) :
    scan (String.ofList text) = .ok ((scanFrom .start text).tokens ++ [endToken text]) := by
  have hline := shebang_of_errors_eq_nil h
  simp only [scan, String.toList_ofList, hline, Position.after_nil, h]

/-- **A lexeme alone is a source with one token.** -/
theorem scan_isLexeme {lexeme : List Char} (h : IsLexeme lexeme) :
    scan (String.ofList lexeme) = .ok [token .start lexeme, endToken lexeme] := by
  have hblank : BlankAhead [] := nofun
  have hscan := scanFrom_isLexeme (p := .start) h hblank
  rw [List.append_nil, scanFrom_nil] at hscan
  have herrors : (scanFrom .start lexeme).errors = [] := by rw [hscan]
  rw [scan_of_errors_eq_nil herrors, hscan]
  rfl

/-- **A source with one token that is all of it is a lexeme.** -/
theorem isLexeme_of_scan {t e : Token} (h : scan t.lexeme = .ok [t, e]) :
    IsLexeme t.lexeme.toList := by
  obtain ⟨inner, hinner, -, -, hmem⟩ := scan_segmentation h
  have hdrop := congrArg List.dropLast hinner
  rw [List.dropLast_concat] at hdrop
  subst hdrop
  obtain ⟨-, -, -, before, rest, -, -, hlongest⟩ := hmem t (List.mem_cons_self ..)
  exact hlongest.isLexeme

end Scriptlet
