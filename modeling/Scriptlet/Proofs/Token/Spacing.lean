/-
**Printing tokens and scanning again.**

Lexemes that are written down with gaps between them are the lexemes that a scan finds, if every gap
begins with a blank and goes on with trivia that is closed: blanks, line comments with their line
end and block comments with their closing.  A blank ends every lexeme in front of it, and closed
trivia is passed over whatever follows, so the scan stands at the start of each lexeme in turn.

Main definitions:

* `Scriptlet.Lexeme.ClosedTrivia`, `Scriptlet.Lexeme.Separator` — what may stand between lexemes;
* `Scriptlet.Lexeme.Spaced` — lexemes, written down with separators between them;
* `Scriptlet.Token.content` — what a token says, apart from its place.

Main results:

* `Scriptlet.scanFrom_closedTrivia` — closed trivia is passed over whatever follows;
* `Scriptlet.scanFrom_spaced` — the tokens of spaced lexemes;
* `Scriptlet.scan_printed` — **scanning printed tokens gives the tokens again**.
-/

import Scriptlet.Proofs.Token.Locality

set_option relaxedAutoImplicit false
set_option autoImplicit false

namespace Scriptlet

/-- What a token says, apart from its place: its kind, its lexeme and its literal. -/
def Token.content (t : Token) : TokenKind × String × Option Literal := (t.kind, t.lexeme, t.literal)

namespace Lexeme

/-! ### Gaps that are closed -/

/-- Trivia that ends where it ends, whatever follows: a line comment has its line end with it, and
a block comment its closing. -/
inductive ClosedTrivia : List Char → Prop
  | nil : ClosedTrivia []
  | blank {c : Char} {more : List Char} : isSpace c = true → ClosedTrivia more →
      ClosedTrivia (c :: more)
  | lineComment {body more : List Char} : '\n' ∉ body → ClosedTrivia more →
      ClosedTrivia ('/' :: '/' :: (body ++ '\n' :: more))
  | blockComment {body more : List Char} : ¬ ['*', '/'] <:+: body → ClosedTrivia more →
      ClosedTrivia ('/' :: '*' :: (body ++ '*' :: '/' :: more))

/-- What may stand between two lexemes: a blank, and closed trivia behind it. -/
def Separator (gap : List Char) : Prop :=
  ∃ c more, gap = c :: more ∧ isSpace c = true ∧ ClosedTrivia more

/-- `Spaced lexemes text` says that the text is the lexemes in their order with separators between
them, and maybe one more behind the last. -/
inductive Spaced : List String → List Char → Prop
  | nil : Spaced [] []
  | last (lexeme : String) : Spaced [lexeme] lexeme.toList
  | cons (lexeme : String) {gap text : List Char} {lexemes : List String} : Separator gap →
      Spaced lexemes text → Spaced (lexeme :: lexemes) (lexeme.toList ++ (gap ++ text))

/-- A single space is a separator. -/
theorem separator_space : Separator [' '] := ⟨' ', [], rfl, rfl, .nil⟩

/-- A separator is closed trivia. -/
theorem Separator.closedTrivia {gap : List Char} (h : Separator gap) : ClosedTrivia gap := by
  obtain ⟨c, more, rfl, hspace, hmore⟩ := h
  exact .blank hspace hmore

/-- A lexeme ends in front of a separator. -/
theorem Separator.ends {gap : List Char} (h : Separator gap) (text : List Char) :
    BlankAhead (gap ++ text) := by
  obtain ⟨c, more, rfl, hspace, -⟩ := h
  intro d hd
  obtain rfl : c = d := by simpa using hd
  exact hspace

/-- Lexemes with single spaces between them are spaced. -/
theorem spaced_intercalate (lexemes : List String) :
    Spaced lexemes (" ".intercalate lexemes).toList := by
  induction lexemes with
  | nil => simpa using Spaced.nil
  | cons lexeme lexemes ih =>
      cases lexemes with
      | nil => simpa using Spaced.last lexeme
      | cons second lexemes =>
          have hcons := Spaced.cons lexeme separator_space ih
          simpa using hcons

/-- An empty text behind the last lexeme adds a separator at most. -/
theorem spaced_intercalate_concat (lexemes : List String) :
    Spaced lexemes (" ".intercalate (lexemes ++ [""])).toList := by
  induction lexemes with
  | nil => simpa using Spaced.nil
  | cons lexeme lexemes ih =>
      obtain ⟨second, more, hmore⟩ := List.exists_cons_of_ne_nil
        (List.append_ne_nil_of_right_ne_nil lexemes (List.cons_ne_nil "" []))
      rw [List.cons_append, hmore]
      rw [hmore] at ih
      have hcons := Spaced.cons lexeme separator_space ih
      simpa using hcons

end Lexeme

open Lexeme

/-! ### Closed trivia is passed over -/

/-- **Closed trivia is passed over**, whatever follows. -/
theorem scanFrom_closedTrivia {gap : List Char} (h : ClosedTrivia gap) (p : Position)
    (text : List Char) : scanFrom p (gap ++ text) = scanFrom (p.after gap) text := by
  induction h generalizing p with
  | nil => rfl
  | @blank c more hspace _ ih =>
      have hblank : Trivia [c] (more ++ text) := .blank _ hspace
      show scanFrom p ([c] ++ (more ++ text)) = _
      rw [scanFrom_of_trivia hblank, ih]
      rfl
  | @lineComment body more hbody _ ih =>
      have hline : Trivia ('/' :: '/' :: body) (['\n'] ++ (more ++ text)) :=
        .lineComment hbody (.inr ⟨_, rfl⟩)
      have hend : Trivia ['\n'] (more ++ text) := .blank _ rfl
      have hgap : '/' :: '/' :: (body ++ '\n' :: more) ++ text =
          ('/' :: '/' :: body) ++ (['\n'] ++ (more ++ text)) := by simp
      rw [hgap, scanFrom_of_trivia hline, scanFrom_of_trivia hend, ih]
      simp
  | @blockComment body more hbody _ ih =>
      have hblock : Trivia ('/' :: '*' :: (body ++ ['*', '/'])) (more ++ text) :=
        .blockComment _ hbody
      have hgap : '/' :: '*' :: (body ++ '*' :: '/' :: more) ++ text =
          ('/' :: '*' :: (body ++ ['*', '/'])) ++ (more ++ text) := by simp
      rw [hgap, scanFrom_of_trivia hblock, ih]
      simp

/-! ### Printing and scanning -/

/-- **The tokens of spaced lexemes** are those of the lexemes, wherever the text stands. -/
theorem scanFrom_spaced {lexemes : List String} {text : List Char} (h : Spaced lexemes text)
    (hlexemes : ∀ lexeme ∈ lexemes, IsLexeme lexeme.toList) (p : Position) :
    (scanFrom p text).errors = [] ∧
      (scanFrom p text).tokens.map Token.content =
        lexemes.map fun lexeme => (token .start lexeme.toList).content := by
  induction h generalizing p with
  | nil => simp
  | last lexeme =>
      have hblank : BlankAhead [] := nofun
      have hscan := scanFrom_isLexeme (p := p) (hlexemes lexeme (by simp)) hblank
      rw [List.append_nil] at hscan
      rw [hscan, scanFrom_nil]
      exact ⟨rfl, rfl⟩
  | @cons lexeme gap text lexemes hgap _ ih =>
      obtain ⟨hlexeme, hrest⟩ := List.forall_mem_cons.1 hlexemes
      rw [scanFrom_isLexeme hlexeme (hgap.ends text), scanFrom_closedTrivia hgap.closedTrivia]
      obtain ⟨herrors, htokens⟩ := ih hrest ((p.after lexeme.toList).after gap)
      refine ⟨herrors, ?_⟩
      rw [List.map_cons, htokens]
      rfl

/-- What a token says that is the only one of its lexeme. -/
theorem content_of_scan {t e : Token} (h : scan t.lexeme = .ok [t, e]) :
    (token .start t.lexeme.toList).content = t.content := by
  have halone := scan_isLexeme (isLexeme_of_scan h)
  rw [String.ofList_toList, h] at halone
  exact (congrArg Token.content (List.cons.inj (Except.ok.inj halone)).1).symm

/-- A token of a scan, apart from the last, says what its lexeme alone says. -/
theorem content_of_mem {source : String} {inner : List Token} {e : Token}
    (h : scan source = .ok (inner ++ [e])) {t : Token} (ht : t ∈ inner) :
    IsLexeme t.lexeme.toList ∧ (token .start t.lexeme.toList).content = t.content := by
  obtain ⟨_, hinner, -, -, hmem⟩ := scan_segmentation h
  obtain rfl := (List.concat_inj.1 (by simpa using hinner)).1
  obtain ⟨-, hkind, hliteral, before, rest, -, -, hlongest⟩ := hmem t ht
  refine ⟨hlongest.isLexeme, ?_⟩
  simp only [Token.content, token, String.ofList_toList, hkind, hliteral]

/-- The source of closed trivia and spaced lexemes behind it. -/
theorem scan_spaced {front text : List Char} {ts : List Token} (hfront : ClosedTrivia front)
    (h : Spaced (ts.map Token.lexeme) text)
    (hts : ∀ t ∈ ts, IsLexeme t.lexeme.toList ∧
      (token .start t.lexeme.toList).content = t.content) :
    ∃ us, scan (String.ofList (front ++ text)) = .ok (us ++ [endToken (front ++ text)]) ∧
      us.map Token.content = ts.map Token.content := by
  have hlexemes : ∀ lexeme ∈ ts.map Token.lexeme, IsLexeme lexeme.toList :=
    List.forall_mem_map.2 fun t ht => (hts t ht).1
  obtain ⟨herrors, htokens⟩ := scanFrom_spaced h hlexemes (Position.start.after front)
  rw [← scanFrom_closedTrivia hfront] at herrors htokens
  refine ⟨_, scan_of_errors_eq_nil herrors, htokens.trans ?_⟩
  rw [List.map_map]
  exact List.map_congr_left fun t ht => (hts t ht).2

/-- **Scanning printed tokens gives the tokens again.**  If each of the tokens is the only one of
its lexeme, then the lexemes with separators between them and closed trivia in front scan to tokens
of the same kinds, lexemes and literals in the same order, and the end of the source.  The tokens of
any scan are such, so their lexemes with single spaces between them, with or without the empty one
at the end, scan to the same kinds, lexemes and literals. -/
theorem scan_printed :
    (∀ (front text : List Char) (ts : List Token), ClosedTrivia front →
      (∀ t ∈ ts, ∃ e, scan t.lexeme = .ok [t, e]) → Spaced (ts.map Token.lexeme) text →
      ∃ us, scan (String.ofList (front ++ text)) = .ok (us ++ [endToken (front ++ text)]) ∧
        us.map Token.content = ts.map Token.content) ∧
    ∀ (source : String) (ts : List Token), scan source = .ok ts →
      ∀ printed, printed = ts ∨ printed = ts.dropLast →
        ∃ us, scan (" ".intercalate (printed.map Token.lexeme)) = .ok us ∧
          us.map Token.content = ts.map Token.content := by
  refine ⟨fun front text ts hfront hts htext => ?_, fun source ts hscan printed hprinted => ?_⟩
  · refine scan_spaced hfront htext fun t ht => ?_
    obtain ⟨e, he⟩ := hts t ht
    exact ⟨isLexeme_of_scan he, content_of_scan he⟩
  · obtain ⟨inner, rfl, -⟩ := scan_segmentation hscan
    have hspaced : Spaced (inner.map Token.lexeme)
        (" ".intercalate (printed.map Token.lexeme)).toList := by
      rcases hprinted with rfl | rfl
      · rw [List.map_append]
        exact spaced_intercalate_concat _
      · rw [List.dropLast_concat]
        exact spaced_intercalate _
    obtain ⟨us, hus, hcontent⟩ := scan_spaced .nil hspaced fun t ht => content_of_mem hscan ht
    rw [List.nil_append, String.ofList_toList] at hus
    refine ⟨_, hus, ?_⟩
    rw [List.map_append, List.map_append, hcontent]
    rfl

/-- A string with comment openings and a line feed in it, a number in front of a dot and a slash in
front of a block comment, printed with gaps of each sort; and the tokens of a source without
blanks, printed with spaces. -/
theorem scan_printed_markers :
    (∃ us, scan "// 'front\n'// /*\n'\t1.5 /*'*/.\r// /*\n\n/ /**/=\n=" =
        .ok (us ++ [.finish ⟨46, 0, 6⟩]) ∧
      us.map Token.content = [(.string, "'// /*\n'", some (.string "// /*\n")),
        (.number, "1.5", some (.number 1.5)), (.dot, ".", none), (.slash, "/", none),
        (.equal, "=", none), (.equal, "=", none)]) ∧
    ∃ us, scan "x = 1.5 . y " = .ok us ∧
      us.map Token.content = [(.identifier, "x", none), (.equal, "=", none),
        (.number, "1.5", some (.number 1.5)), (.dot, ".", none), (.identifier, "y", none),
        (.endOfSource, "", none)] := by
  have hblank : ∀ c, isSpace c = true → Separator [c] := fun c hc => ⟨c, [], rfl, hc, .nil⟩
  have hfront : ClosedTrivia "// 'front\n".toList :=
    @ClosedTrivia.lineComment " 'front".toList [] (by decide) .nil
  have hblock : Separator " /*'*/".toList :=
    ⟨' ', "/*'*/".toList, rfl, rfl, @ClosedTrivia.blockComment ['\x27'] [] (by decide) .nil⟩
  have hline : Separator "\r// /*\n\n".toList :=
    ⟨'\r', "// /*\n\n".toList, rfl, rfl,
      @ClosedTrivia.lineComment " /*".toList ['\n'] (by decide) (.blank rfl .nil)⟩
  have hempty : Separator " /**/".toList :=
    ⟨' ', "/**/".toList, rfl, rfl, @ClosedTrivia.blockComment [] [] (by decide) .nil⟩
  have htext := Spaced.cons "'// /*\n'" (hblank '\t' rfl) (.cons "1.5" hblock (.cons "." hline
    (.cons "/" hempty (.cons "=" (hblank '\n' rfl) (.last "=")))))
  have hts : ∀ t ∈ ["'// /*\n'", "1.5", ".", "/", "=", "="].map fun lexeme =>
      token .start lexeme.toList, scan t.lexeme = .ok [t, endToken t.lexeme.toList] := by
    decide +kernel
  have hscan : scan "x=1.5./**/y" = .ok [⟨.identifier, "x", none, ⟨0, 1, 1⟩⟩,
      ⟨.equal, "=", none, ⟨1, 1, 1⟩⟩, ⟨.number, "1.5", some (.number 1.5), ⟨2, 3, 1⟩⟩,
      ⟨.dot, ".", none, ⟨5, 1, 1⟩⟩, ⟨.identifier, "y", none, ⟨10, 1, 1⟩⟩,
      .finish ⟨11, 0, 1⟩] := by
    decide +kernel
  refine ⟨?_, ?_⟩
  · obtain ⟨us, hus, hcontent⟩ := scan_printed.1 _ _ _ hfront (fun t ht => ⟨_, hts t ht⟩) htext
    exact ⟨us, hus, hcontent.trans (by decide +kernel)⟩
  · exact scan_printed.2 _ _ hscan _ (.inl rfl)

end Scriptlet
