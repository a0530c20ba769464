/-
**The errors of a scan, and a source without them.**

A scan goes on behind a character that begins nothing, and stops at a string or a comment that is
not closed.  So its errors come in the order of the source, and each tells what stands at its place.
Nothing else is lost: if the characters that were reported are replaced by spaces, byte for byte,
and the source is cut where the open string or comment begins, then the scan finds the tokens that it
found before, at the places where they were.  No lexeme goes on over a space, and what is left behind
it is what stood there, so a lexeme stays the longest that fits.

Main definitions:

* `Scriptlet.Opens` — what stands in a source at the place of a fault;
* `Scriptlet.mend` — a text without the faults that were reported.

Main results:

* `Scriptlet.errors_scanFrom` — the errors of a text: their order, their places, what stands there;
* `Scriptlet.prefix_of_mend` — what has no blank and begins a mended text began the text;
* `Scriptlet.scanFrom_mend` — the scan of a mended text, one piece at a time;
* `Scriptlet.scan_mended` — **a source without its errors scans to the tokens found before**.
-/

import Scriptlet.Proofs.Joined.Scan
import Scriptlet.Proofs.Token.Spacing

set_option relaxedAutoImplicit false
set_option autoImplicit false

namespace Scriptlet

open Lexeme

/-! ### The errors of a text -/

/-- What stands in a source at the place of a fault: the character that begins nothing and is
named, the quote of a string without an end, or a block comment without one. -/
inductive Opens : ScanFault → List Char → Prop
  | unexpectedCharacter {c : Char} {cs : List Char} : piece c cs = .unexpected →
      Opens (.unexpectedCharacter c) (c :: cs)
  | unterminatedString {c : Char} {cs : List Char} : isQuote c = true → stringTail c cs = none →
      Opens .unterminatedString (c :: cs)
  | unterminatedComment {cs : List Char} : commentTail cs = none →
      Opens .unterminatedComment ('/' :: '*' :: cs)

/-- Errors as a scan from a position reports them: each but the last is a character that begins
nothing, their places are in order, and at each stands what it names. -/
structure Reported (p : Position) (text : List Char) (errors : List ScanError) : Prop where
  /-- Each stands behind a part of the text. -/
  place : ∀ e ∈ errors, ∃ before rest, text = before ++ rest ∧ e = e.fault.found (p.after before) ∧
    Opens e.fault rest
  /-- Their offsets increase. -/
  ordered : errors.Pairwise fun e f => e.span.offset < f.span.offset
  /-- Only the last may be a string or a comment that is not closed. -/
  fatal_last : ∀ e ∈ errors.dropLast, ∃ c, e.fault = .unexpectedCharacter c

/-- No error stands in front of the text. -/
theorem Reported.offset_le {p : Position} {text : List Char} {errors : List ScanError}
    (h : Reported p text errors) {e : ScanError} (he : e ∈ errors) : p.offset ≤ e.span.offset := by
  obtain ⟨before, rest, -, hplace, -⟩ := h.place e he
  rw [hplace]
  show p.offset ≤ (p.after before).offset
  rw [Position.after_offset]
  exact Nat.le_add_right _ _

/-- The errors of a text are those of the text behind a piece without errors. -/
theorem Reported.behind {p : Position} {taken rest : List Char} {errors : List ScanError}
    (h : Reported (p.after taken) rest errors) : Reported p (taken ++ rest) errors := by
  refine ⟨fun e he => ?_, h.ordered, h.fatal_last⟩
  obtain ⟨before, following, rfl, hplace, hopens⟩ := h.place e he
  exact ⟨taken ++ before, following, (List.append_assoc ..).symm,
    by rw [Position.after_append]; exact hplace, hopens⟩

/-- A fault with which a text begins and that ends the scan. -/
theorem Reported.fatal {p : Position} {text : List Char} {fault : ScanFault}
    (h : Opens fault text) : Reported p text [fault.found p] := by
  refine ⟨?_, List.pairwise_singleton .., nofun⟩
  rw [List.forall_mem_singleton]
  exact ⟨[], text, rfl, rfl, h⟩

/-- A character that begins nothing is reported in front of what comes behind. -/
theorem Reported.unexpected {p : Position} {c : Char} {cs : List Char} {errors : List ScanError}
    (hpiece : piece c cs = .unexpected) (h : Reported (p.next c) cs errors) :
    Reported p (c :: cs) ((ScanFault.unexpectedCharacter c).found p :: errors) := by
  have hbehind : Reported p ([c] ++ cs) errors := Reported.behind h
  refine ⟨?_, ?_, ?_⟩
  · rw [List.forall_mem_cons]
    exact ⟨⟨[], c :: cs, rfl, rfl, .unexpectedCharacter hpiece⟩, hbehind.place⟩
  · refine List.pairwise_cons.2 ⟨fun e he => ?_, h.ordered⟩
    have hnext : p.offset + c.utf8Size ≤ e.span.offset := h.offset_le he
    have hsize := c.utf8Size_pos
    show p.offset < e.span.offset
    omega
  · cases errors with
    | nil => exact nofun
    | cons e errors =>
        rw [List.dropLast_cons_cons, List.forall_mem_cons]
        exact ⟨⟨c, rfl⟩, h.fatal_last⟩

/-- **The errors of a text** stand in order, each where it says, and only the last ends the scan. -/
theorem errors_scanFrom (p : Position) (text : List Char) :
    Reported p text (scanFrom p text).errors := by
  -- each piece leaves a shorter text
  induction hlen : text.length using Nat.strong_induction_on generalizing p text with
  | _ n ih =>
      subst hlen
      cases text with
      | nil =>
          rw [scanFrom_nil]
          exact ⟨nofun, .nil, nofun⟩
      | cons c cs =>
          cases hpiece : piece c cs with
          | trivia taken rest =>
              rw [scanFrom_trivia hpiece, ← (piece_trivia hpiece).1]
              exact (ih _ (length_lt_of_piece_trivia hpiece) _ _ rfl).behind
          | lexeme taken rest =>
              rw [scanFrom_lexeme hpiece, ← (piece_lexeme hpiece).1]
              exact (ih _ (length_lt_of_piece_lexeme hpiece) _ _ rfl).behind
          | unexpected =>
              rw [scanFrom_unexpected hpiece]
              exact .unexpected hpiece (ih _ (Nat.lt_succ_self _) _ _ rfl)
          | openString =>
              rw [scanFrom_openString hpiece]
              obtain ⟨hquote, htail⟩ := piece_eq_openString hpiece
              exact .fatal (.unterminatedString hquote htail)
          | openComment =>
              rw [scanFrom_openComment hpiece]
              obtain ⟨rfl, ds, rfl, htail⟩ := piece_eq_openComment hpiece
              exact .fatal (.unterminatedComment htail)

/-! ### Mending -/

/-- A text that begins at an offset, without the faults that were reported: a character that begins
nothing becomes as many spaces as it has bytes, and the text is cut where a string or a comment is
not closed. -/
def mend (errors : List ScanError) : Nat → List Char → List Char
  | _, [] => []
  | offset, c :: cs =>
      match errors.find? (·.span.offset == offset) with
      | none => c :: mend errors (offset + c.utf8Size) cs
      | some ⟨.unexpectedCharacter _, _⟩ =>
          List.replicate c.utf8Size ' ' ++ mend errors (offset + c.utf8Size) cs
      | some _ => []

section Equations

variable {errors : List ScanError} {offset : Nat} {c : Char} {e : ScanError}

theorem mend_kept (h : errors.find? (·.span.offset == offset) = none) (cs : List Char) :
    mend errors offset (c :: cs) = c :: mend errors (offset + c.utf8Size) cs := by
  rw [mend, h]

theorem mend_replaced (h : errors.find? (·.span.offset == offset) = some e) {d : Char}
    (hfault : e.fault = .unexpectedCharacter d) (cs : List Char) :
    mend errors offset (c :: cs) =
      List.replicate c.utf8Size ' ' ++ mend errors (offset + c.utf8Size) cs := by
  obtain ⟨_, _⟩ := e
  obtain rfl := hfault
  rw [mend, h]

theorem mend_cut (h : errors.find? (·.span.offset == offset) = some e)
    (hfault : ∀ d, e.fault ≠ .unexpectedCharacter d) (cs : List Char) :
    mend errors offset (c :: cs) = [] := by
  obtain ⟨fault, _⟩ := e
  rw [mend, h]
  cases fault with
  | unexpectedCharacter d => exact absurd rfl (hfault d)
  | unterminatedString => rfl
  | unterminatedComment => rfl

end Equations

/-- Where no error is reported, the text stays. -/
theorem mend_append {errors : List ScanError} {offset : Nat} {taken : List Char}
    (h : ∀ e ∈ errors, e.span.offset < offset ∨ offset + byteLength taken ≤ e.span.offset)
    (rest : List Char) :
    mend errors offset (taken ++ rest) =
      taken ++ mend errors (offset + byteLength taken) rest := by
  induction taken generalizing offset with
  | nil => rfl
  | cons c cs ih =>
      have hsize := c.utf8Size_pos
      have hnone : errors.find? (·.span.offset == offset) = none := by
        rw [List.find?_eq_none]
        intro e he heq
        have hoffset : e.span.offset = offset := by simpa using heq
        rcases h e he with hlt | hle
        · omega
        · rw [byteLength_cons] at hle
          omega
      have hrest : ∀ e ∈ errors, e.span.offset < offset + c.utf8Size ∨
          offset + c.utf8Size + byteLength cs ≤ e.span.offset := by
        intro e he
        have hlt := h e he
        rw [byteLength_cons] at hlt
        omega
      rw [List.cons_append, mend_kept hnone, ih hrest, byteLength_cons, Nat.add_assoc]
      rfl

/-- **What has no blank and begins a mended text began the text**, for only blanks are put in. -/
theorem prefix_of_mend {errors : List ScanError} {offset : Nat} {rest some : List Char}
    (hsolid : ∀ d ∈ some, isSpace d = false) (h : some <+: mend errors offset rest) :
    some <+: rest := by
  induction rest generalizing offset some with
  | nil => exact h
  | cons c cs ih =>
      cases some with
      | nil => exact List.nil_prefix
      | cons d ds =>
          unfold mend at h
          split at h
          · obtain ⟨rfl, htail⟩ := List.cons_prefix_cons.1 h
            exact List.cons_prefix_cons.2
              ⟨rfl, ih (fun e he => hsolid e (List.mem_cons_of_mem _ he)) htail⟩
          · obtain ⟨n, hn⟩ := Nat.exists_eq_add_one_of_ne_zero (Nat.pos_iff_ne_zero.1 c.utf8Size_pos)
            rw [hn, List.replicate_succ, List.cons_append] at h
            obtain ⟨rfl, -⟩ := List.cons_prefix_cons.1 h
            exact absurd (hsolid ' ' (List.mem_cons_self ..)) (by decide)
          · simp at h

/-- The same behind a lexeme or any other text. -/
theorem prefix_of_append_mend {errors : List ScanError} {offset : Nat} {taken rest some : List Char}
    (hsolid : ∀ d ∈ some, isSpace d = false) (h : some <+: taken ++ mend errors offset rest) :
    some <+: taken ++ rest := by
  rcases List.prefix_or_prefix_of_prefix h (List.prefix_append taken _) with hshort | ⟨more, rfl⟩
  · exact hshort.trans (List.prefix_append ..)
  · have hmore : ∀ d ∈ more, isSpace d = false := fun d hd =>
      hsolid d (List.mem_append_right _ hd)
    rw [List.prefix_append_right_inj] at h ⊢
    exact prefix_of_mend hmore h

/-- **The longest lexeme stays the longest** when the text behind it is mended. -/
theorem longest_mend {errors : List ScanError} {offset : Nat} {lexeme rest : List Char}
    (h : Longest lexeme (lexeme ++ rest)) :
    Longest lexeme (lexeme ++ mend errors offset rest) := by
  refine ⟨h.isLexeme, List.prefix_append .., fun other hother hpre => ?_⟩
  by_contra hlt
  have hextends := List.prefix_of_prefix_length_le (List.prefix_append lexeme _) hpre (by omega)
  rcases h.isLexeme.eq_or_solid hother hextends with rfl | hsolid
  · exact hlt (Nat.le_refl _)
  · exact hlt (h.length_le other hother (prefix_of_append_mend hsolid hpre))

/-- What opens no comment opens none when the text behind its first part is mended. -/
theorem not_opensComment_mend {errors : List ScanError} {offset : Nat} {taken rest : List Char}
    (h : ¬ OpensComment (taken ++ rest)) : ¬ OpensComment (taken ++ mend errors offset rest) :=
  mt (Or.imp (prefix_of_append_mend (by simp [isSpace]))
    (prefix_of_append_mend (by simp [isSpace]))) h

/-- A lexeme is the first piece of its text when the text behind it is mended. -/
theorem piece_lexeme_mend {c : Char} {cs taken rest : List Char} (errors : List ScanError)
    (offset : Nat) (h : piece c cs = .lexeme (c :: taken) rest) :
    piece c (taken ++ mend errors offset rest) =
      .lexeme (c :: taken) (mend errors offset rest) := by
  have happ := (piece_lexeme h).1
  have hlongest := longest_of_piece h
  rw [← happ] at hlongest
  have hopens : ¬ OpensComment (c :: taken ++ rest) := happ ▸ not_opensComment_of_piece h
  exact piece_of_longest (longest_mend hlongest) (not_opensComment_mend hopens)

/-- Trivia in front of a text fits it when the text is mended, if no blank is reported. -/
theorem trivia_mend {errors : List ScanError} {offset : Nat} {taken rest : List Char}
    (h : Trivia taken rest)
    (hblank : ∀ cs, rest = '\n' :: cs → ∀ e ∈ errors, e.span.offset ≠ offset) :
    Trivia taken (mend errors offset rest) := by
  cases h with
  | blank _ hspace => exact .blank _ hspace
  | blockComment _ hbody => exact .blockComment _ hbody
  | lineComment hbody hend =>
      refine .lineComment hbody ?_
      rcases hend with rfl | ⟨cs, rfl⟩
      · exact .inl rfl
      · have hnone : errors.find? (·.span.offset == offset) = none :=
          List.find?_eq_none.2 fun e he => by simpa using hblank cs rfl e he
        exact .inr ⟨_, mend_kept hnone cs⟩

/-! ### The scan of a mended text -/

/-- A scan passes over spaces. -/
theorem scanFrom_spaces (p : Position) (n : Nat) (text : List Char) :
    scanFrom p (List.replicate n ' ' ++ text) = scanFrom ⟨p.offset + n, p.line⟩ text := by
  induction n generalizing p with
  | zero => rfl
  | succ n ih =>
      have hspace : Trivia [' '] (List.replicate n ' ' ++ text) := .blank _ rfl
      show scanFrom p ([' '] ++ (List.replicate n ' ' ++ text)) = _
      rw [scanFrom_of_trivia hspace, ih, Nat.add_comm n 1, ← Nat.add_assoc]
      rfl

section Scan

variable {p : Position} {earlier : List ScanError}

/-- A text without errors in front of the text that is scanned stays. -/
theorem mend_behind (hearlier : ∀ e ∈ earlier, e.span.offset < p.offset) (taken rest : List Char) :
    mend (earlier ++ (scanFrom (p.after taken) rest).errors) p.offset (taken ++ rest) =
      taken ++ mend (earlier ++ (scanFrom (p.after taken) rest).errors) (p.after taken).offset
        rest := by
  have hoffset := Position.after_offset p taken
  rw [hoffset]
  refine mend_append (fun e he => ?_) rest
  rcases List.mem_append.1 he with he | he
  · exact .inl (hearlier e he)
  · exact .inr (hoffset ▸ (errors_scanFrom (p.after taken) rest).offset_le he)

/-- No error is reported at a line feed. -/
theorem offset_ne_of_newline (hearlier : ∀ e ∈ earlier, e.span.offset < p.offset) (cs : List Char) :
    ∀ e ∈ earlier ++ (scanFrom p ('\n' :: cs)).errors, e.span.offset ≠ p.offset := by
  intro e he
  rcases List.mem_append.1 he with he | he
  · exact Nat.ne_of_lt (hearlier e he)
  · rw [scanFrom_newline] at he
    exact Nat.ne_of_gt ((errors_scanFrom (p.next '\n') cs).offset_le he)

/-- What is reported at the position of the scan. -/
theorem find?_found (hearlier : ∀ e ∈ earlier, e.span.offset < p.offset) (fault : ScanFault)
    (later : List ScanError) :
    (earlier ++ fault.found p :: later).find? (·.span.offset == p.offset) =
      some (fault.found p) := by
  have hnone : earlier.find? (·.span.offset == p.offset) = none :=
    List.find?_eq_none.2 fun e he => by simpa using Nat.ne_of_lt (hearlier e he)
  rw [List.find?_append, hnone]
  simp [ScanFault.found, Position.span]

/-- **The scan of a mended text**: its tokens are those of the text, and it has no errors.  Errors
that were reported in front of it do not matter. -/
theorem scanFrom_mend (hearlier : ∀ e ∈ earlier, e.span.offset < p.offset) (text : List Char) :
    scanFrom p (mend (earlier ++ (scanFrom p text).errors) p.offset text) =
      ⟨(scanFrom p text).tokens, []⟩ := by
  -- each piece leaves a shorter text
  induction hlen : text.length using Nat.strong_induction_on generalizing p earlier text with
  | _ n ih =>
      subst hlen
      have hbehind : ∀ taken, ∀ e ∈ earlier, e.span.offset < (p.after taken).offset := by
        intro taken e he
        rw [Position.after_offset]
        exact Nat.lt_add_right _ (hearlier e he)
      cases text with
      | nil => simp [mend]
      | cons c cs =>
          cases hpiece : piece c cs with
          | trivia taken rest =>
              have hrest := ih _ (length_lt_of_piece_trivia hpiece) (hbehind taken) rest rfl
              have htrivia := trivia_mend (trivia_of_piece hpiece) fun cs hcs =>
                hcs ▸ offset_ne_of_newline (hbehind taken) cs
              rw [scanFrom_trivia hpiece, ← (piece_trivia hpiece).1, mend_behind hearlier,
                scanFrom_of_trivia htrivia, hrest]
          | lexeme taken rest =>
              have hrest := ih _ (length_lt_of_piece_lexeme hpiece) (hbehind taken) rest rfl
              obtain ⟨happ, hne⟩ := piece_lexeme hpiece
              obtain ⟨d, ds, rfl⟩ := List.exists_cons_of_ne_nil hne
              obtain ⟨rfl, -⟩ := List.cons.inj happ
              rw [scanFrom_lexeme hpiece]
              show scanFrom p (mend (earlier ++ (scanFrom (p.after _) rest).errors) _ _) = _
              rw [← happ, mend_behind hearlier, List.cons_append,
                scanFrom_lexeme (piece_lexeme_mend _ _ hpiece), hrest]
          | unexpected =>
              have hnext : ∀ e ∈ earlier ++ [(ScanFault.unexpectedCharacter c).found p],
                  e.span.offset < (p.next c).offset := by
                have hsize := c.utf8Size_pos
                refine List.forall_mem_append.2 ⟨hbehind [c], List.forall_mem_singleton.2 ?_⟩
                show p.offset < p.offset + c.utf8Size
                omega
              have hrest := ih _ (Nat.lt_succ_self _) hnext cs rfl
              have hline : p.next c = ⟨p.offset + c.utf8Size, p.line⟩ := by
                have hspace := (piece_eq_unexpected hpiece).1
                unfold Position.next
                rw [if_neg]
                rintro rfl
                exact absurd hspace (by decide)
              rw [scanFrom_unexpected hpiece, mend_replaced (find?_found hearlier _ _) rfl,
                scanFrom_spaces, ← hline]
              rw [List.append_assoc] at hrest
              exact hrest
          | openString =>
              rw [scanFrom_openString hpiece]
              rw [mend_cut (find?_found hearlier _ _) (fun d hd => by cases hd), scanFrom_nil]
          | openComment =>
              rw [scanFrom_openComment hpiece]
              rw [mend_cut (find?_found hearlier _ _) (fun d hd => by cases hd), scanFrom_nil]

end Scan

/-! ### Sources -/

/-- The line in front of a script stays when the text behind it is mended. -/
theorem scanned_line {line text mended : List Char} (hline : ShebangLine line text)
    (hend : text = [] → mended = [])
    (herrors : (scanFrom (Position.start.after line) mended).errors = []) :
    scanned (line ++ mended) = scanFrom (Position.start.after line) mended := by
  have hshebang : shebang (line ++ mended) = (line, mended) := by
    cases hline with
    | absent => exact shebang_of_errors_eq_nil herrors
    | @ended body _ hbody =>
        have hstop : ∀ d ∈ body, (d != '\n') = true := fun d hd =>
          bne_iff_ne.2 fun heq => hbody (heq ▸ hd)
        simp [shebang, List.takeWhile_append_of_pos hstop, List.dropWhile_append_of_pos hstop]
    | @unended body hbody =>
        have hstop : ∀ d ∈ body, (d != '\n') = true := fun d hd =>
          bne_iff_ne.2 fun heq => hbody (heq ▸ hd)
        rw [hend rfl, List.append_nil]
        simp [shebang, List.dropWhile_eq_nil_iff.2 hstop]
  rw [scanned, hshebang]

/-- **A mended source** has the tokens of the source, and no errors. -/
theorem scanned_mend (source : List Char) :
    scanned (mend (scanned source).errors 0 source) = ⟨(scanned source).tokens, []⟩ := by
  have hsource := shebang_append source
  have hnone : ∀ p : Position, ∀ e ∈ ([] : List ScanError), e.span.offset < p.offset := nofun
  have hmend := mend_behind (hnone .start) (shebang source).1 (shebang source).2
  have hscan := scanFrom_mend (hnone (Position.start.after (shebang source).1)) (shebang source).2
  rw [hsource, List.nil_append] at hmend
  rw [List.nil_append] at hscan
  have hline := scanned_line (shebangLine_shebang source) (fun hnil => by rw [hnil]; rfl)
    (congrArg Scanned.errors hscan)
  rw [← hmend] at hline
  exact hline.trans hscan

/-- The errors of a source that does not scan. -/
theorem scan_error {source : String} {errors : List ScanError} (h : scan source = .error errors) :
    errors = (scanned source.toList).errors ∧ errors ≠ [] := by
  rw [scan_eq] at h
  split at h
  · cases h
  · rename_i hne
    obtain rfl := Except.error.inj h
    exact ⟨rfl, hne⟩

/-- **A source without its errors scans to the tokens found before.**  The errors of a source stand
at increasing offsets, and each names what stands at its place.  All but the last are characters
that begin nothing.  With spaces in the place of these characters, and cut off where the last error
is a string or a comment without an end, the source scans without errors to the tokens that the
scan found, each as it was and where it was, and the end of the source. -/
theorem scan_mended {source : String} {errors : List ScanError} (h : scan source = .error errors) :
    errors ≠ [] ∧ errors.Pairwise (fun e f => e.span.offset < f.span.offset) ∧
      (∀ e ∈ errors, ∃ before rest, source.toList = before ++ rest ∧
        e.span = ⟨byteLength before, e.fault.reach, 1 + before.count '\n'⟩ ∧ Opens e.fault rest) ∧
      (∀ e ∈ errors.dropLast, ∃ c, e.fault = .unexpectedCharacter c) ∧
      scan (String.ofList (mend errors 0 source.toList)) =
        .ok ((scanned source.toList).tokens ++ [endToken (mend errors 0 source.toList)]) := by
  obtain ⟨rfl, hne⟩ := scan_error h
  have hsource := shebang_append source.toList
  have hreported := errors_scanFrom (Position.start.after (shebang source.toList).1)
    (shebang source.toList).2
  have hall : Reported .start source.toList (scanned source.toList).errors := by
    have hbehind := hreported.behind
    rwa [hsource] at hbehind
  refine ⟨hne, hall.ordered, fun e he => ?_, hall.fatal_last, ?_⟩
  · obtain ⟨before, rest, htext, hplace, hopens⟩ := hall.place e he
    refine ⟨before, rest, htext, ?_, hopens⟩
    rw [hplace]
    simp [ScanFault.found, Position.span, Position.after_offset, Position.after_line,
      Position.start]
  · rw [scan_eq, String.toList_ofList, scanned_mend]

/-- Neighbours that the reported characters keep apart, one of them of three bytes, and a string
without an end behind them. -/
theorem scan_mended_between :
    ∃ errors, scan "1.☃5 <@=/#/ 'x\n" = .error errors ∧
      mend errors 0 "1.☃5 <@=/#/ 'x\n".toList = "1.   5 < =/ / ".toList ∧
      scan "1.   5 < =/ / " = .ok [⟨.number, "1", some (.number 1.0), ⟨0, 1, 1⟩⟩,
        ⟨.dot, ".", none, ⟨1, 1, 1⟩⟩, ⟨.number, "5", some (.number 5.0), ⟨5, 1, 1⟩⟩,
        ⟨.less, "<", none, ⟨7, 1, 1⟩⟩, ⟨.equal, "=", none, ⟨9, 1, 1⟩⟩,
        ⟨.slash, "/", none, ⟨10, 1, 1⟩⟩, ⟨.slash, "/", none, ⟨12, 1, 1⟩⟩,
        .finish ⟨14, 0, 1⟩] := by
  have hscan : scan "1.☃5 <@=/#/ 'x\n" = .error [⟨.unexpectedCharacter '☃', ⟨2, 1, 1⟩⟩,
      ⟨.unexpectedCharacter '@', ⟨8, 1, 1⟩⟩, ⟨.unexpectedCharacter '#', ⟨11, 1, 1⟩⟩,
      ⟨.unterminatedString, ⟨14, 1, 1⟩⟩] := by
    decide +kernel
  have hmend : mend [⟨.unexpectedCharacter '☃', ⟨2, 1, 1⟩⟩, ⟨.unexpectedCharacter '@', ⟨8, 1, 1⟩⟩,
      ⟨.unexpectedCharacter '#', ⟨11, 1, 1⟩⟩, ⟨.unterminatedString, ⟨14, 1, 1⟩⟩] 0
      "1.☃5 <@=/#/ 'x\n".toList = "1.   5 < =/ / ".toList := by
    decide +kernel
  obtain ⟨-, -, -, -, hmended⟩ := scan_mended hscan
  rw [hmend, String.ofList_toList] at hmended
  exact ⟨_, hscan, hmend, hmended.trans (by decide +kernel)⟩

end Scriptlet
