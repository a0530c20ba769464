/-
**How a text ends.**

A text that scans without errors ends in a lexeme or in trivia.  A semicolon behind it becomes one
more token: it makes no lexeme longer, and it is swallowed only by a line comment that the text ends
in.

Main definitions:

* `Scriptlet.Lexeme.lastPiece?` — the last piece of a text;
* `Scriptlet.Lexeme.EndsInLexeme`, `Scriptlet.Lexeme.EndsInLineComment` — texts with nothing behind
  their last lexeme, and texts that leave a line comment open.

Main results:

* `Scriptlet.Lexeme.lastPiece?_cases` — the last piece ends the text, and a lexeme there is that of
  the last token;
* `Scriptlet.Lexeme.IsLexeme.eq_nil_of_mark`, `Scriptlet.Lexeme.Longest.semicolon` — a lexeme that
  ends in a semicolon is one, so no lexeme goes on over it;
* `Scriptlet.scanFrom_semicolon` — **a semicolon behind a text that ends in no line comment is one
  more token**.
-/

import Scriptlet.Proofs.Joined.Scan
import Scriptlet.Proofs.Token.Locality

set_option relaxedAutoImplicit false
set_option autoImplicit false

namespace Scriptlet

namespace Lexeme

/-! ### The last piece of a text -/

/-- The last piece of a text. -/
def lastPiece? : List Char → Option Piece
  | [] => none
  | c :: cs =>
      match h : piece c cs with
      | .trivia taken rest =>
          have := length_lt_of_piece_trivia h
          (lastPiece? rest).or (some (.trivia taken rest))
      | .lexeme taken rest =>
          have := length_lt_of_piece_lexeme h
          (lastPiece? rest).or (some (.lexeme taken rest))
      | .unexpected => (lastPiece? cs).or (some .unexpected)
      | .openString => some .openString
      | .openComment => some .openComment
termination_by text => text.length

/-- A text with nothing behind its last lexeme. -/
def EndsInLexeme (text : List Char) : Prop := ∃ lexeme, lastPiece? text = some (.lexeme lexeme [])

/-- A text that leaves a line comment open. -/
def EndsInLineComment (text : List Char) : Prop :=
  ∃ body, lastPiece? text = some (.trivia ('/' :: '/' :: body) [])

@[simp] theorem lastPiece?_nil : lastPiece? [] = none := by
  rw [lastPiece?]

section Pieces

variable {c : Char} {cs taken rest : List Char}

theorem lastPiece?_trivia (h : piece c cs = .trivia taken rest) :
    lastPiece? (c :: cs) = (lastPiece? rest).or (some (.trivia taken rest)) := by
  rw [lastPiece?]
  split <;> simp_all

theorem lastPiece?_lexeme (h : piece c cs = .lexeme taken rest) :
    lastPiece? (c :: cs) = (lastPiece? rest).or (some (.lexeme taken rest)) := by
  rw [lastPiece?]
  split <;> simp_all

end Pieces

end Lexeme

open Lexeme

/-- **Induction over a text without errors**, from its end on, one piece at a time. -/
theorem pieces_induction {motive : List Char → Prop} (nil : motive [])
    (trivia : ∀ c cs taken rest, piece c cs = .trivia taken rest → motive rest → motive (c :: cs))
    (lexeme : ∀ c cs taken rest, piece c cs = .lexeme taken rest → motive rest → motive (c :: cs))
    {p : Position} {text : List Char} (h : (scanFrom p text).errors = []) : motive text := by
  induction hlen : text.length using Nat.strong_induction_on generalizing p text with
  | _ n ih =>
      subst hlen
      cases text with
      | nil => exact nil
      | cons c cs =>
          cases hpiece : piece c cs with
          | trivia taken rest =>
              rw [scanFrom_trivia hpiece] at h
              exact trivia c cs taken rest hpiece
                (ih _ (length_lt_of_piece_trivia hpiece) h rfl)
          | lexeme taken rest =>
              rw [scanFrom_lexeme hpiece] at h
              exact lexeme c cs taken rest hpiece
                (ih _ (length_lt_of_piece_lexeme hpiece) h rfl)
          | unexpected => simp [scanFrom_unexpected hpiece] at h
          | openString => simp [scanFrom_openString hpiece] at h
          | openComment => simp [scanFrom_openComment hpiece] at h

namespace Lexeme

/-- What the last piece of a text is: a lexeme, which is that of the last token, or trivia. -/
def EndsIn (text taken : List Char) : Prop :=
  (lastPiece? text = some (.lexeme taken []) ∧ IsLexeme taken ∧
    ∀ p, ∃ p', (scanFrom p text).tokens.getLast? = some (token p' taken)) ∨
  (lastPiece? text = some (.trivia taken []) ∧ Trivia taken [])

/-- The last piece of what stands behind a piece is the last piece of the whole. -/
theorem EndsIn.behind {c : Char} {cs rest taken : List Char} (h : EndsIn rest taken)
    (hlast : ∀ q, lastPiece? rest = some q → lastPiece? (c :: cs) = some q)
    (htokens : ∀ p, ∃ p' ts, (scanFrom p (c :: cs)).tokens = ts ++ (scanFrom p' rest).tokens) :
    EndsIn (c :: cs) taken := by
  rcases h with ⟨hpiece, hlexeme, htoken⟩ | ⟨hpiece, htrivia⟩
  · refine .inl ⟨hlast _ hpiece, hlexeme, fun p => ?_⟩
    obtain ⟨p', ts, hts⟩ := htokens p
    obtain ⟨p'', hp''⟩ := htoken p'
    exact ⟨p'', by rw [hts, List.getLast?_append, hp'', Option.some_or]⟩
  · exact .inr ⟨hlast _ hpiece, htrivia⟩

/-- **The last piece ends the text**, and a lexeme there is that of the last token. -/
theorem lastPiece?_cases {p : Position} {text : List Char} (h : (scanFrom p text).errors = [])
    (hne : text ≠ []) : ∃ taken, taken ≠ [] ∧ taken <:+ text ∧ EndsIn text taken := by
  revert hne
  refine pieces_induction (motive := fun text => text ≠ [] →
    ∃ taken, taken ≠ [] ∧ taken <:+ text ∧ EndsIn text taken) ?nil ?trivia ?lexeme h
  case nil => exact fun h => absurd rfl h
  case trivia =>
      intro c cs taken rest hpiece ih _
      obtain ⟨happ, hne⟩ := piece_trivia hpiece
      by_cases hrest : rest = []
      · subst hrest
        refine ⟨taken, hne, ⟨[], by simpa using happ⟩, .inr ⟨?_, trivia_of_piece hpiece⟩⟩
        rw [lastPiece?_trivia hpiece, lastPiece?_nil, Option.none_or]
      · obtain ⟨last, hlast, hsuffix, hends⟩ := ih hrest
        refine ⟨last, hlast, hsuffix.trans ⟨taken, happ⟩, hends.behind (fun q hq => ?_)
          fun p => ⟨p.after taken, [], by rw [scanFrom_trivia hpiece, List.nil_append]⟩⟩
        rw [lastPiece?_trivia hpiece, hq, Option.some_or]
  case lexeme =>
      intro c cs taken rest hpiece ih _
      obtain ⟨happ, hne⟩ := piece_lexeme hpiece
      by_cases hrest : rest = []
      · subst hrest
        refine ⟨taken, hne, ⟨[], by simpa using happ⟩,
          .inl ⟨?_, (longest_of_piece hpiece).isLexeme, fun p => ⟨p, ?_⟩⟩⟩
        · rw [lastPiece?_lexeme hpiece, lastPiece?_nil, Option.none_or]
        · rw [scanFrom_lexeme hpiece, scanFrom_nil]
          rfl
      · obtain ⟨last, hlast, hsuffix, hends⟩ := ih hrest
        refine ⟨last, hlast, hsuffix.trans ⟨taken, happ⟩, hends.behind (fun q hq => ?_)
          fun p => ⟨p.after taken, [token p taken], by rw [scanFrom_lexeme hpiece]; rfl⟩⟩
        rw [lastPiece?_lexeme hpiece, hq, Option.some_or]

/-! ### A semicolon behind a text -/

/-- A lexeme that ends in a semicolon or a closing brace is nothing else. -/
theorem IsLexeme.eq_nil_of_mark {front : List Char} {d : Char} (hd : d = ';' ∨ d = '}')
    (h : IsLexeme (front ++ [d])) : front = [] := by
  have hclass : isQuote d = false ∧ isDigit d = false ∧ continuesName d = false ∧ d ≠ '=' := by
    rcases hd with rfl | rfl <;> decide
  obtain ⟨hquote, hdigit, hname, hequal⟩ := hclass
  cases front with
  | nil => rfl
  | cons c cs =>
      have hmem : d ∈ cs ++ [d] := by simp
      rcases h.sort with ⟨hopen, body, hbody, -⟩ |
        ⟨-, hdigits | ⟨whole, places, hwhole, -, hne, hplaces⟩⟩ | ⟨-, hnames⟩ | ⟨kind, hkind⟩
      · obtain rfl := (List.concat_inj.1 (by simpa using hbody)).2
        rw [hquote] at hopen
        cases hopen
      · rw [hdigits _ hmem] at hdigit
        cases hdigit
      · -- the last of the decimal places is a digit
        obtain ⟨places, e, rfl⟩ := (List.eq_nil_or_concat places).resolve_left hne
        have hlast : cs ++ [d] = (whole ++ '.' :: places) ++ [e] := by simpa using hwhole
        obtain rfl := List.singleton_inj.1 (List.append_inj_right' hlast rfl)
        rw [hplaces d (by simp)] at hdigit
        cases hdigit
      · rw [hnames _ hmem] at hname
        cases hname
      · cases cs with
        | nil => exact absurd (symbol?_second hkind) hequal
        | cons e cs => cases cs <;> simp [symbol?] at hkind

/-- **No lexeme goes on over a semicolon.** -/
theorem Longest.semicolon {lexeme text : List Char} (h : Longest lexeme text) :
    Longest lexeme (text ++ [';']) := by
  refine ⟨h.isLexeme, h.isPrefix.trans (List.prefix_append ..), fun other hother hpre => ?_⟩
  rcases List.prefix_concat_iff.1 hpre with rfl | hpre
  · -- a lexeme that takes the semicolon is nothing else
    obtain rfl := hother.eq_nil_of_mark (.inl rfl)
    exact List.length_pos_iff.2 h.isLexeme.ne_nil
  · exact h.length_le other hother hpre

section Semicolon

variable {c : Char} {cs taken rest : List Char}

theorem piece_lexeme_semicolon (h : piece c cs = .lexeme taken rest) :
    piece c (cs ++ [';']) = .lexeme taken (rest ++ [';']) := by
  obtain ⟨happ, hne⟩ := piece_lexeme h
  have hlongest := (longest_of_piece h).semicolon
  have hopens : ¬ OpensComment ((c :: cs) ++ [';']) := by
    refine mt (Or.imp ?_ ?_) (not_opensComment_of_piece h)
    all_goals
      intro hpre
      rcases List.prefix_concat_iff.1 hpre with heq | hpre
      · cases cs with
        | nil => cases heq
        | cons d ds => cases ds <;> cases heq
      · exact hpre
  obtain ⟨d, ds, rfl⟩ := List.exists_cons_of_ne_nil hne
  obtain ⟨rfl, rfl⟩ := List.cons.inj happ
  rw [List.append_eq, List.append_assoc]
  exact piece_of_longest (by simpa using hlongest) (by simpa using hopens)

theorem piece_trivia_semicolon (h : piece c cs = .trivia taken rest)
    (hopen : rest = [] → ¬['/', '/'] <+: taken) :
    piece c (cs ++ [';']) = .trivia taken (rest ++ [';']) := by
  obtain ⟨happ, hne⟩ := piece_trivia h
  have htrivia : Trivia taken (rest ++ [';']) := by
    cases trivia_of_piece h with
    | blank _ hspace => exact .blank _ hspace
    | blockComment _ hbody => exact .blockComment _ hbody
    | lineComment hbody hend =>
        refine .lineComment hbody (.inr ?_)
        rcases hend with rfl | ⟨more, rfl⟩
        · exact absurd ⟨_, rfl⟩ (hopen rfl)
        · exact ⟨_, rfl⟩
  obtain ⟨d, ds, rfl⟩ := List.exists_cons_of_ne_nil hne
  obtain ⟨rfl, rfl⟩ := List.cons.inj happ
  rw [List.append_eq, List.append_assoc]
  exact piece_of_trivia htrivia

end Semicolon

end Lexeme

/-- **A semicolon behind a text that ends in no line comment is one more token.** -/
theorem scanFrom_semicolon {p : Position} {text : List Char} (h : (scanFrom p text).errors = [])
    (hopen : ¬EndsInLineComment text) (q : Position) :
    scanFrom q (text ++ [';']) =
      ⟨(scanFrom q text).tokens ++ [token (q.after text) [';']], []⟩ := by
  revert hopen q
  refine pieces_induction (motive := fun text => ¬EndsInLineComment text → ∀ q,
    scanFrom q (text ++ [';']) = ⟨(scanFrom q text).tokens ++ [token (q.after text) [';']], []⟩)
    ?nil ?trivia ?lexeme h
  case nil =>
      intro _ q
      have hpiece : piece ';' [] = .lexeme [';'] [] := rfl
      rw [List.nil_append, scanFrom_lexeme hpiece, scanFrom_nil, scanFrom_nil, Position.after_nil]
      rfl
  case trivia =>
      intro c cs taken rest hpiece ih hopen q
      have hbehind : ¬EndsInLineComment rest := fun ⟨body, hbody⟩ =>
        hopen ⟨body, by rw [lastPiece?_trivia hpiece, hbody, Option.some_or]⟩
      have hsemicolon := piece_trivia_semicolon hpiece fun hrest hpre => by
        obtain ⟨body, rfl⟩ := hpre
        subst hrest
        exact hopen ⟨body, by rw [lastPiece?_trivia hpiece, lastPiece?_nil, Option.none_or]; rfl⟩
      rw [List.cons_append, scanFrom_trivia hsemicolon, ih hbehind, scanFrom_trivia hpiece,
        ← Position.after_append, (piece_trivia hpiece).1]
  case lexeme =>
      intro c cs taken rest hpiece ih hopen q
      have hbehind : ¬EndsInLineComment rest := fun ⟨body, hbody⟩ =>
        hopen ⟨body, by rw [lastPiece?_lexeme hpiece, hbody, Option.some_or]⟩
      rw [List.cons_append, scanFrom_lexeme (piece_lexeme_semicolon hpiece), ih hbehind,
        scanFrom_lexeme hpiece, ← Position.after_append, (piece_lexeme hpiece).1]
      rfl

end Scriptlet
