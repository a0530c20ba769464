/-
**A scan cuts the source without loss.**

A source that scans without errors falls into lexemes and gaps: the lexemes are those of its
tokens, each the longest with which the text from there on begins, and the gaps hold trivia only.
Every token knows where its lexeme stands, so that the lexemes and the gaps, put together again,
are the source.

Main definitions:

* `Scriptlet.Lexeme.Gap` — trivia, one piece after the other, in front of a text;
* `Scriptlet.Lexeme.ShebangLine` — the line in front of a script, or nothing;
* `Scriptlet.Lexeme.placed` — the token of a lexeme behind a text;
* `Scriptlet.Lexeme.Segments` — a text, cut into gaps and the lexemes of a list of tokens.

Main results:

* `Scriptlet.segments_scanFrom` — the tokens of a text without errors cut it into segments;
* `Scriptlet.Lexeme.Segments.mem`, `Scriptlet.Lexeme.Segments.pairwise` — what segments say about
  one token, and about two of them;
* `Scriptlet.scan_segmentation` — **a scan without errors is a segmentation of the source**.
-/

import Scriptlet.Proofs.Token.Lexicon
import Scriptlet.Token.Scan

set_option relaxedAutoImplicit false
set_option autoImplicit false

namespace Scriptlet

namespace Lexeme

/-! ### Segments -/

/-- A gap between lexemes, in front of the text that follows it. -/
inductive Gap : List Char → List Char → Prop
  | nil (following : List Char) : Gap [] following
  | cons {piece gap following : List Char} : Trivia piece (gap ++ following) → Gap gap following →
      Gap (piece ++ gap) following

/-- The line in front of a script, with its line end if it has one, or nothing. -/
inductive ShebangLine : List Char → List Char → Prop
  | absent (text : List Char) : ShebangLine [] text
  | ended {body : List Char} (text : List Char) : '\n' ∉ body →
      ShebangLine ('#' :: '!' :: (body ++ ['\n'])) text
  | unended {body : List Char} : '\n' ∉ body → ShebangLine ('#' :: '!' :: body) []

/-- The token of a lexeme that stands behind a text: its kind and its literal are read off the
lexeme, its place off the text. -/
def placed (before lexeme : List Char) : Token :=
  ⟨kind lexeme, String.ofList lexeme, literal? lexeme,
    ⟨byteLength before, byteLength lexeme, 1 + before.count '\n'⟩⟩

/-- `Segments before text tokens` says that the text behind `before` falls into gaps and the lexemes
of the tokens, each the longest that fits. -/
inductive Segments : List Char → List Char → List Token → Prop
  | last {before gap : List Char} : Gap gap [] → Segments before gap []
  | token {before gap lexeme rest : List Char} {tokens : List Token} : Gap gap (lexeme ++ rest) →
      Longest lexeme (lexeme ++ rest) → Segments (before ++ gap ++ lexeme) rest tokens →
      Segments before (gap ++ (lexeme ++ rest)) (placed (before ++ gap) lexeme :: tokens)

/-- Trivia in front of a segmented text belongs to its first gap. -/
theorem Segments.trivia {before piece text : List Char} {tokens : List Token}
    (hpiece : Trivia piece text) (h : Segments (before ++ piece) text tokens) :
    Segments before (piece ++ text) tokens := by
  generalize hbefore : before ++ piece = behind at h
  cases h with
  | last hgap => exact .last (.cons (by simpa using hpiece) hgap)
  | @token _ gap lexeme rest tokens hgap hlongest hrest =>
      subst hbefore
      have hsegments : Segments before (piece ++ gap ++ (lexeme ++ rest))
          (placed (before ++ (piece ++ gap)) lexeme :: tokens) :=
        .token (.cons hpiece hgap) hlongest (by simpa using hrest)
      simpa using hsegments

/-- The token that a scan makes of a lexeme is the placed one. -/
theorem token_eq_placed (before lexeme : List Char) :
    token (Position.start.after before) lexeme = placed before lexeme := by
  simp [token, placed, Position.span, Position.after_offset, Position.after_line, Position.start]

/-! ### What segments say about their tokens -/

/-- What a segmentation says about one of its tokens. -/
theorem Segments.mem {before text : List Char} {tokens : List Token}
    (h : Segments before text tokens) {t : Token} (ht : t ∈ tokens) :
    ∃ gap lexeme rest, text = gap ++ (lexeme ++ rest) ∧ t = placed (before ++ gap) lexeme ∧
      Longest lexeme (lexeme ++ rest) := by
  induction h with
  | last => simp at ht
  | @token before gap lexeme rest tokens hgap hlongest _ ih =>
      rcases List.mem_cons.1 ht with rfl | ht
      · exact ⟨gap, lexeme, rest, rfl, rfl, hlongest⟩
      · obtain ⟨gap', lexeme', rest', rfl, rfl, hlongest'⟩ := ih ht
        exact ⟨gap ++ (lexeme ++ gap'), lexeme', rest', by simp, by simp, hlongest'⟩

/-- The lexemes of a segmentation follow one another without overlap. -/
theorem Segments.pairwise {before text : List Char} {tokens : List Token}
    (h : Segments before text tokens) :
    tokens.Pairwise fun t u => t.span.stop ≤ u.span.offset := by
  induction h with
  | last => exact .nil
  | @token before gap lexeme rest tokens _ _ hrest ih =>
      refine .cons (fun u hu => ?_) ih
      obtain ⟨gap', lexeme', rest', -, rfl, -⟩ := hrest.mem hu
      simp only [placed, Span.stop, byteLength_append]
      omega

/-- A lexeme that is one has a byte at least. -/
theorem byteLength_pos {cs : List Char} (h : cs ≠ []) : 0 < byteLength cs := by
  obtain ⟨c, cs, rfl⟩ := List.exists_cons_of_ne_nil h
  have := Char.utf8Size_pos c
  rw [byteLength_cons]
  omega

/-- The bytes of a list of characters are those of its text. -/
theorem utf8ByteSize_ofList (cs : List Char) :
    (String.ofList cs).utf8ByteSize = byteLength cs := by
  induction cs with
  | nil => rfl
  | cons c cs ih =>
      rw [← List.singleton_append, String.ofList_append, String.utf8ByteSize_append, ih,
        ← String.singleton_eq_ofList, String.utf8ByteSize_singleton]
      simp

/-- The line in front of a script is a shebang line. -/
theorem shebangLine_shebang (cs : List Char) : ShebangLine (shebang cs).1 (shebang cs).2 := by
  unfold shebang
  split
  · rename_i cs
    have hbody : '\n' ∉ cs.takeWhile (· != '\n') := fun hmem => by
      simpa using List.mem_takeWhile_imp hmem
    split
    · rename_i hdrop
      have htake := List.takeWhile_append_dropWhile (p := (· != '\n')) (l := cs)
      rw [hdrop, List.append_nil] at htake
      exact .unended (htake ▸ hbody)
    · rename_i c rest hdrop
      have hc := List.head?_dropWhile_not (· != '\n') cs
      rw [hdrop] at hc
      simp only [List.head?_cons, bne_eq_false_iff_eq] at hc
      subst hc
      exact .ended rest hbody
  · exact .absent cs

end Lexeme

open Lexeme

/-! ### Scans -/

/-- The tokens of a text without errors cut it into segments. -/
theorem segments_scanFrom {before text : List Char}
    (h : (scanFrom (Position.start.after before) text).errors = []) :
    Segments before text (scanFrom (Position.start.after before) text).tokens := by
  -- each piece leaves a shorter text
  induction hlen : text.length using Nat.strong_induction_on generalizing before text with
  | _ n ih =>
      subst hlen
      cases text with
      | nil => simpa using Segments.last (.nil [])
      | cons c cs =>
          cases hpiece : piece c cs with
          | trivia taken rest =>
              rw [scanFrom_trivia hpiece, ← Position.after_append] at h ⊢
              have hsegments := ih _ (length_lt_of_piece_trivia hpiece) h rfl
              rw [← (piece_trivia hpiece).1]
              exact hsegments.trivia (trivia_of_piece hpiece)
          | lexeme taken rest =>
              rw [scanFrom_lexeme hpiece, ← Position.after_append] at h ⊢
              have hsegments := ih _ (length_lt_of_piece_lexeme hpiece) h rfl
              have hlongest := longest_of_piece hpiece
              rw [← (piece_lexeme hpiece).1] at hlongest ⊢
              rw [token_eq_placed]
              have hfirst : Segments before ([] ++ (taken ++ rest))
                  (placed (before ++ []) taken :: _) :=
                .token (.nil _) hlongest (by simpa using hsegments)
              simpa using hfirst
          | unexpected => simp [scanFrom_unexpected hpiece] at h
          | openString => simp [scanFrom_openString hpiece] at h
          | openComment => simp [scanFrom_openComment hpiece] at h

/-- The last token of a scan stands at the end of the source and is empty. -/
theorem endToken_eq (source : String) :
    endToken source.toList =
      .finish ⟨source.utf8ByteSize, 0, 1 + source.toList.count '\n'⟩ := by
  rw [← String.ofList_toList (s := source), utf8ByteSize_ofList]
  simp [endToken, Position.span, Position.after_offset, Position.after_line, Position.start]

/-- What a segmentation of a source says about one of its tokens. -/
theorem placed_mem {source : String} {line text : List Char} {tokens : List Token}
    (hsource : source.toList = line ++ text) (hsegments : Segments line text tokens) {t : Token}
    (ht : t ∈ tokens) :
    0 < t.span.len ∧ t.kind = kind t.lexeme.toList ∧ t.literal = literal? t.lexeme.toList ∧
      ∃ before rest : String, source = before ++ t.lexeme ++ rest ∧
        t.span = ⟨before.utf8ByteSize, t.lexeme.utf8ByteSize, 1 + before.toList.count '\n'⟩ ∧
        Longest t.lexeme.toList (t.lexeme.toList ++ rest.toList) := by
  obtain ⟨gap, lexeme, rest, rfl, rfl, hlongest⟩ := hsegments.mem ht
  refine ⟨byteLength_pos hlongest.isLexeme.ne_nil, ?_, ?_,
    String.ofList (line ++ gap), String.ofList rest, ?_, ?_, ?_⟩
  · simp [placed]
  · simp [placed]
  · rw [← String.ofList_toList (s := source), hsource]
    simp [placed, ← String.ofList_append]
  · simp only [placed, utf8ByteSize_ofList, String.toList_ofList]
  · simpa [placed] using hlongest

/-- **A scan without errors is a segmentation of the source.**  The last token stands at the end.
The others have lexemes that stand where the tokens say, in order and without overlap; a kind and a
literal are those of the lexeme, and a lexeme is the longest with which the text from there on
begins.  The line in front of a script apart, only trivia stands between them. -/
theorem scan_segmentation {source : String} {tokens : List Token}
    (h : scan source = .ok tokens) :
    ∃ inner, tokens =
        inner ++ [Token.finish ⟨source.utf8ByteSize, 0, 1 + source.toList.count '\n'⟩] ∧
      (∃ line text, source.toList = line ++ text ∧ ShebangLine line text ∧
        Segments line text inner) ∧
      inner.Pairwise (fun t u => t.span.stop ≤ u.span.offset) ∧
      ∀ t ∈ inner, 0 < t.span.len ∧ t.kind = kind t.lexeme.toList ∧
        t.literal = literal? t.lexeme.toList ∧
        ∃ before rest : String, source = before ++ t.lexeme ++ rest ∧
          t.span = ⟨before.utf8ByteSize, t.lexeme.utf8ByteSize, 1 + before.toList.count '\n'⟩ ∧
          Longest t.lexeme.toList (t.lexeme.toList ++ rest.toList) := by
  have hsource := shebang_append source.toList
  simp only [scan] at h
  split at h
  · rename_i herrors
    have hsegments := segments_scanFrom herrors
    obtain rfl := Except.ok.inj h
    refine ⟨_, by rw [endToken_eq], ⟨_, _, hsource.symm, shebangLine_shebang _, hsegments⟩,
      hsegments.pairwise, ?_⟩
    exact fun t ht => placed_mem hsource.symm hsegments ht
  · simp at h

/-- A script of two lines, with a symbol of two characters and a character of two bytes. -/
theorem scan_segmentation_script :
    scan "#!tl\nx <= 'é'" =
        .ok [⟨.identifier, "x", none, ⟨5, 1, 2⟩⟩, ⟨.lessEqual, "<=", none, ⟨7, 2, 2⟩⟩,
          ⟨.string, "'é'", some (.string "é"), ⟨10, 4, 2⟩⟩, .finish ⟨14, 0, 2⟩] ∧
      ∃ line text, "#!tl\nx <= 'é'".toList = line ++ text ∧ ShebangLine line text ∧
        Segments line text [⟨.identifier, "x", none, ⟨5, 1, 2⟩⟩,
          ⟨.lessEqual, "<=", none, ⟨7, 2, 2⟩⟩,
          ⟨.string, "'é'", some (.string "é"), ⟨10, 4, 2⟩⟩] := by
  have hscan : scan "#!tl\nx <= 'é'" =
      .ok [⟨.identifier, "x", none, ⟨5, 1, 2⟩⟩, ⟨.lessEqual, "<=", none, ⟨7, 2, 2⟩⟩,
        ⟨.string, "'é'", some (.string "é"), ⟨10, 4, 2⟩⟩, .finish ⟨14, 0, 2⟩] := by
    decide +kernel
  obtain ⟨inner, hinner, hsegments, -⟩ := scan_segmentation hscan
  have hdrop := congrArg List.dropLast hinner
  rw [List.dropLast_concat] at hdrop
  subst hdrop
  exact ⟨hscan, hsegments⟩

end Scriptlet
