/-
**Spelling a text as a string.**

A text can be written between quotes in many ways.  A backslash and the quote that closes the string
must be escaped; a line feed, a tab and the other quote may be; every other character stands for
itself.  Each of these spellings is the text of one string lexeme, since no quote that could close it
stands in it unescaped, and its value is the text, since an escape is read back as the character
that it was written for.  Without the quote behind it the same spelling is a string that is never
closed.

Main definitions:

* `Scriptlet.Lexeme.SpelledAs` — **the spellings of a text** between two quotes.

Main results:

* `Scriptlet.Lexeme.exists_spelling` — every text has a spelling;
* `Scriptlet.Lexeme.SpelledAs.stringBody`, `Scriptlet.Lexeme.SpelledAs.decode_eq` — a spelling is
  the text between the quotes of a string, and its value is what it spells;
* `Scriptlet.Lexeme.StringBody.stringTail_eq_none` — nothing but a quote behind it closes it;
* `Scriptlet.scan_spelled` — **a spelling scans to one string**, or to an open one.
-/

import Scriptlet.Proofs.Token.Locality

set_option relaxedAutoImplicit false
set_option autoImplicit false

namespace Scriptlet

namespace Lexeme

/-! ### Spellings -/

/-- `SpelledAs quote value spelling` says that `spelling` may be written for `value` in a string
that `quote` opens and closes. -/
inductive SpelledAs (quote : Char) : List Char → List Char → Prop
  | nil : SpelledAs quote [] []
  /-- A backslash is doubled. -/
  | backslash {value spelling : List Char} : SpelledAs quote value spelling →
      SpelledAs quote ('\\' :: value) ('\\' :: '\\' :: spelling)
  /-- A quote of either sort has a backslash in front. -/
  | escaped {c : Char} {value spelling : List Char} : isQuote c = true →
      SpelledAs quote value spelling → SpelledAs quote (c :: value) ('\\' :: c :: spelling)
  | newline {value spelling : List Char} : SpelledAs quote value spelling →
      SpelledAs quote ('\n' :: value) ('\\' :: 'n' :: spelling)
  | tab {value spelling : List Char} : SpelledAs quote value spelling →
      SpelledAs quote ('\t' :: value) ('\\' :: 't' :: spelling)
  /-- All that neither closes the string nor escapes may stand for itself. -/
  | raw {c : Char} {value spelling : List Char} : c ≠ quote → c ≠ '\\' →
      SpelledAs quote value spelling → SpelledAs quote (c :: value) (c :: spelling)

/-- A spelling between its quotes. -/
def quoted (quote : Char) (spelling : String) : String :=
  quote.toString ++ spelling ++ quote.toString

theorem toList_quoted (quote : Char) (spelling : String) :
    (quoted quote spelling).toList = quote :: (spelling.toList ++ [quote]) := by
  simp [quoted]

/-- Every text has a spelling. -/
theorem exists_spelling {quote : Char} (hquote : isQuote quote = true) (value : List Char) :
    ∃ spelling, SpelledAs quote value spelling := by
  induction value with
  | nil => exact ⟨[], .nil⟩
  | cons c value ih =>
      obtain ⟨spelling, hspelling⟩ := ih
      by_cases hc : c = quote
      · subst hc
        exact ⟨_, .escaped hquote hspelling⟩
      · by_cases hslash : c = '\\'
        · subst hslash
          exact ⟨_, .backslash hspelling⟩
        · exact ⟨_, .raw hc hslash hspelling⟩

namespace SpelledAs

variable {quote : Char} {value spelling : List Char}

/-- A spelling is the text between the quotes of a string. -/
theorem stringBody (h : SpelledAs quote value spelling) : StringBody quote spelling := by
  induction h with
  | nil => exact .nil
  | backslash _ ih => exact .escaped _ ih
  | escaped _ _ ih => exact .escaped _ ih
  | newline _ ih => exact .escaped _ ih
  | tab _ ih => exact .escaped _ ih
  | raw hne hslash _ ih => exact .plain hne hslash ih

/-- A backslash and a quote stand for the quote. -/
theorem escapeValue_of_isQuote {c : Char} (h : isQuote c = true) : escapeValue c = [c] := by
  rw [isQuote, Bool.or_eq_true, beq_iff_eq, beq_iff_eq] at h
  rcases h with rfl | rfl
  · rfl
  · rfl

theorem decode_escape (c : Char) (cs : List Char) :
    decode ('\\' :: c :: cs) = escapeValue c ++ decode cs := by
  rw [decode.eq_def]
  simp only [if_true]

theorem decode_raw {c : Char} (h : c ≠ '\\') (cs : List Char) :
    decode (c :: cs) = c :: decode cs := by
  rw [decode.eq_def]
  simp only [if_neg h]

/-- **The value of a spelling is what it spells.** -/
theorem decode_eq (h : SpelledAs quote value spelling) : decode spelling = value := by
  induction h with
  | nil => rfl
  | backslash _ ih =>
      rw [decode_escape, ih]
      rfl
  | escaped hc _ ih =>
      rw [decode_escape, escapeValue_of_isQuote hc, ih]
      rfl
  | newline _ ih =>
      rw [decode_escape, ih]
      rfl
  | tab _ ih =>
      rw [decode_escape, ih]
      rfl
  | raw _ hslash _ ih => rw [decode_raw hslash, ih]

end SpelledAs

/-! ### Strings that are not closed -/

/-- Nothing closes a string whose text is all that is left. -/
theorem StringBody.stringTail_eq_none {quote : Char} (hquote : quote ≠ '\\') {body : List Char}
    (h : StringBody quote body) : stringTail quote body = none := by
  induction h with
  | nil => rfl
  | plain hne hslash _ ih =>
      rw [stringTail.eq_def]
      simp only [if_neg hne, if_neg hslash, ih, Option.map_none]
  | escaped c _ ih =>
      rw [stringTail.eq_def]
      simp only [if_neg (Ne.symm hquote), if_true, ih, Option.map_none]

/-- Such a string is an open one. -/
theorem StringBody.piece_eq_openString {quote : Char} (hquote : isQuote quote = true)
    {body : List Char} (h : StringBody quote body) : piece quote body = .openString := by
  have hspace : isSpace quote = false := (IsLexeme.string hquote .nil).not_isSpace
  have htail := h.stringTail_eq_none (isQuote_ne_backslash hquote)
  unfold piece
  simp only [hspace, hquote, htail, Bool.false_eq_true, if_false, if_true]

/-- A text that begins with a quote has no line in front of it that names an interpreter. -/
theorem shebang_of_isQuote {c : Char} (h : isQuote c = true) (cs : List Char) :
    shebang (c :: cs) = ([], c :: cs) := by
  have hne : c ≠ '#' := by
    rintro rfl
    exact absurd h (by decide)
  unfold shebang
  split
  · rename_i heq
    exact absurd (List.cons.inj heq).1 hne
  · rfl

end Lexeme

open Lexeme

/-! ### Scanning a spelling -/

/-- The token of a string alone. -/
theorem token_string {quote : Char} (hquote : isQuote quote = true) (body : List Char) :
    token .start (quote :: (body ++ [quote])) =
      ⟨.string, String.ofList (quote :: (body ++ [quote])),
        some (.string (String.ofList (decode body))),
        ⟨0, byteLength (quote :: (body ++ [quote])), 1⟩⟩ := by
  have hkind : kind (quote :: (body ++ [quote])) = .string := if_pos hquote
  have hliteral : literal? (quote :: (body ++ [quote])) =
      some (.string (String.ofList (decode body))) := by
    unfold literal?
    simp only [hquote, if_true, List.dropLast_concat]
  rw [token, hkind, hliteral]
  rfl

/-- A string that is never closed is the only error of its source. -/
theorem scan_openString {quote : Char} (hquote : isQuote quote = true) {body : List Char}
    (h : StringBody quote body) :
    scan (String.ofList (quote :: body)) = .error [ScanFault.unterminatedString.found .start] := by
  have hscanned : scanFrom (Position.start.after []) (quote :: body) =
      ⟨[], [ScanFault.unterminatedString.found .start]⟩ :=
    scanFrom_openString (h.piece_eq_openString hquote)
  simp only [scan, String.toList_ofList, shebang_of_isQuote hquote, hscanned]

/-- **A spelling of a text scans to one string with this text for its value**, the lexeme of which is
the whole source, and then the end of the source.  Without the closing quote the source fails, and
its only error is that the string at its start is not closed.  Every text has a spelling. -/
theorem scan_spelled {quote : Char} (hquote : isQuote quote = true) (value : String) :
    (∃ spelling, SpelledAs quote value.toList spelling) ∧
    ∀ spelling : String, SpelledAs quote value.toList spelling.toList →
      scan (quoted quote spelling) =
        .ok [⟨.string, quoted quote spelling, some (.string value),
            ⟨0, (quoted quote spelling).utf8ByteSize, 1⟩⟩,
          .finish ⟨(quoted quote spelling).utf8ByteSize, 0,
            1 + (quoted quote spelling).toList.count '\n'⟩] ∧
      ∃ error, scan (quote.toString ++ spelling) = .error [error] ∧
        error.fault.message = "unterminated string" ∧ error.span = ⟨0, 1, 1⟩ := by
  refine ⟨exists_spelling hquote value.toList, fun spelling h => ⟨?_, ?_⟩⟩
  · have hvalue : String.ofList (decode spelling.toList) = value := by
      rw [h.decode_eq, String.ofList_toList]
    have hlexeme := toList_quoted quote spelling
    have hscan := scan_isLexeme (.string hquote h.stringBody)
    rw [token_string hquote, hvalue, ← hlexeme, String.ofList_toList, endToken_eq] at hscan
    rw [hscan, ← utf8ByteSize_ofList, String.ofList_toList]
  · have hsource : quote.toString ++ spelling = String.ofList (quote :: spelling.toList) := by
      apply String.toList_injective
      simp
    rw [hsource, scan_openString hquote h.stringBody]
    exact ⟨_, rfl, rfl, rfl⟩

/-- A text with a backslash in front of a quote, both quotes, a line feed and a tab: the second
quote, the line feed and the tab are written raw and escaped in turn. -/
theorem scan_spelled_mixed :
    scan "'\\\\\\'\"\\\"\\n\n\\t\té'" =
        .ok [⟨.string, "'\\\\\\'\"\\\"\\n\n\\t\té'", some (.string "\\'\"\"\n\n\t\té"), ⟨0, 17, 1⟩⟩,
          .finish ⟨17, 0, 2⟩] ∧
      ∃ error, scan "'\\\\\\'\"\\\"\\n\n\\t\té" = .error [error] ∧
        error.fault.message = "unterminated string" ∧ error.span = ⟨0, 1, 1⟩ := by
  have hspells : SpelledAs '\x27' "\\'\"\"\n\n\t\té".toList "\\\\\\'\"\\\"\\n\n\\t\té".toList :=
    .backslash (.escaped rfl (.raw (by decide) (by decide) (.escaped rfl (.newline
      (.raw (by decide) (by decide) (.tab (.raw (by decide) (by decide)
        (.raw (by decide) (by decide) .nil))))))))
  obtain ⟨hclosed, hopen⟩ := (scan_spelled rfl "\\'\"\"\n\n\t\té").2 _ hspells
  exact ⟨hclosed, hopen⟩

end Scriptlet
