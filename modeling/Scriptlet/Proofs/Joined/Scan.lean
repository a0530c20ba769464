/-
**Scanning two sources in one.**

A line feed ends every lexeme and every bit of trivia in front of it, unless it stands in a string
or in a block comment that is still open.  So a source that scans without errors leaves nothing open
that a text behind it on a new line could go on with: the scan of the two is the scan of the first,
and then that of the second, moved to its new place.

Main definitions:

* `Scriptlet.Lexeme.Piece.before` — a piece in front of more text;
* `Scriptlet.Position.behind` — a position in a text that has moved behind another.

Main results:

* `Scriptlet.Lexeme.piece_append` — **a piece that is closed does not change when a new line
  follows**;
* `Scriptlet.scanFrom_append`, `Scriptlet.scanFrom_behind` — a scan goes on behind a text without
  errors, and a text that has moved is scanned alike;
* `Scriptlet.scan_inner` — only the last token of a scan ends the source, and all stand within it;
* `Scriptlet.scan_joined` — **the scan of two sources in one**.
-/

import Scriptlet.Proofs.Joined.Relocation
import Scriptlet.Proofs.Token.Segmentation

set_option relaxedAutoImplicit false
set_option autoImplicit false

namespace Scriptlet

/-! ### Pieces in front of a new line -/

namespace Lexeme

theorem takeWhile_append_stop {p : Char → Bool} (hp : p '\n' = false) (cs more : List Char) :
    (cs ++ '\n' :: more).takeWhile p = cs.takeWhile p := by
  induction cs with
  | nil => simp [hp]
  | cons c cs ih => cases h : p c <;> simp [h, ih]

theorem dropWhile_append_stop {p : Char → Bool} (hp : p '\n' = false) (cs more : List Char) :
    (cs ++ '\n' :: more).dropWhile p = cs.dropWhile p ++ '\n' :: more := by
  induction cs with
  | nil => simp [hp]
  | cons c cs ih => cases h : p c <;> simp [h, ih]

/-- A string that is closed ends where it ended, whatever follows. -/
theorem stringTail_append_right {quote : Char} {cs taken rest : List Char}
    (h : stringTail quote cs = some (taken, rest)) (more : List Char) :
    stringTail quote (cs ++ more) = some (taken, rest ++ more) := by
  fun_induction stringTail quote cs generalizing taken rest with
  | case1 => simp at h
  | case2 cs =>
      obtain ⟨rfl, rfl⟩ := Prod.mk.inj (Option.some.inj h)
      rw [List.cons_append, stringTail.eq_def]
      simp
  | case3 => simp at h
  | case4 e cs hquote ih =>
      simp only [Option.map_eq_some_iff, Prod.mk.injEq, Prod.exists] at h
      obtain ⟨t, r, ht, rfl, rfl⟩ := h
      simp [stringTail, hquote, ih ht]
  | case5 c cs hquote hescape ih =>
      simp only [Option.map_eq_some_iff, Prod.mk.injEq, Prod.exists] at h
      obtain ⟨t, r, ht, rfl, rfl⟩ := h
      rw [List.cons_append, stringTail.eq_def]
      simp [hquote, hescape, ih ht]

/-- A block comment that is closed ends where it ended, whatever follows. -/
theorem commentTail_append_right {cs taken rest : List Char}
    (h : commentTail cs = some (taken, rest)) (more : List Char) :
    commentTail (cs ++ more) = some (taken, rest ++ more) := by
  fun_induction commentTail cs generalizing taken rest with
  | case1 => simp at h
  | case2 rest' =>
      obtain ⟨rfl, rfl⟩ := Prod.mk.inj (Option.some.inj h)
      simp [commentTail]
  | case3 c cs hopen ih =>
      simp only [Option.map_eq_some_iff, Prod.mk.injEq, Prod.exists] at h
      obtain ⟨t, r, ht, rfl, rfl⟩ := h
      have hnone : ∀ rest', c = '*' → cs ++ more = '/' :: rest' → False := by
        rintro rest' rfl hcs
        cases cs with
        | nil => simp [commentTail] at ht
        | cons d ds =>
            obtain ⟨rfl, -⟩ := List.cons.inj hcs
            exact hopen ds rfl rfl
      rw [List.cons_append, commentTail.eq_3 _ _ hnone, ih ht]
      rfl

/-- A line feed is no digit, so a point in front of it is not taken. -/
theorem decimals_append_stop (cs more : List Char) :
    decimals (cs ++ '\n' :: more) = ((decimals cs).1, (decimals cs).2 ++ '\n' :: more) := by
  fun_cases decimals cs with
  | case1 d cs hd =>
      simp [decimals, hd, takeWhile_append_stop (p := isDigit) rfl,
        dropWhile_append_stop (p := isDigit) rfl]
  | case2 d cs hd => simp [decimals, hd]
  | case3 cs hpoint =>
      cases cs with
      | nil => simp [decimals]
      | cons c cs =>
          by_cases hc : c = '.'
          · subst hc
            cases cs with
            | nil =>
                have hd : isDigit '\n' = false := rfl
                simp [decimals, hd]
            | cons d cs => exact absurd rfl (hpoint d cs)
          · simp [decimals, hc]

/-- A piece in front of more text. -/
def Piece.before (more : List Char) : Piece → Piece
  | .trivia taken rest => .trivia taken (rest ++ more)
  | .lexeme taken rest => .lexeme taken (rest ++ more)
  | .unexpected => .unexpected
  | .openString => .openString
  | .openComment => .openComment

/-- The second character of a symbol of two is `=`. -/
theorem symbol?_second {c d : Char} {kind : TokenKind} (h : symbol? [c, d] = some kind) :
    d = '=' := by
  unfold symbol? at h
  split at h
  all_goals
    rename_i heq
    first
      | cases heq <;> rfl
      | cases h

/-- No bracket or operator has a line feed in it. -/
theorem symbolPiece_append (c : Char) (cs more : List Char) :
    symbolPiece c (cs ++ '\n' :: more) = (symbolPiece c cs).before ('\n' :: more) := by
  cases cs with
  | nil =>
      have hnone : symbol? [c, '\n'] = none :=
        Option.eq_none_iff_forall_ne_some.2 fun kind h => absurd (symbol?_second h) (by decide)
      simp only [List.nil_append, symbolPiece, hnone, Option.isSome_none]
      split
      · rename_i h
        cases h
      · split <;> rfl
  | cons d ds =>
      simp only [List.cons_append, symbolPiece]
      split
      · rfl
      · split <;> rfl

/-- **A piece that is closed does not change when a new line follows.** -/
theorem piece_append (c : Char) (cs more : List Char) (hstring : piece c cs ≠ .openString)
    (hcomment : piece c cs ≠ .openComment) :
    piece c (cs ++ '\n' :: more) = (piece c cs).before ('\n' :: more) := by
  unfold piece at hstring hcomment ⊢
  by_cases hspace : isSpace c
  · simp [hspace, Piece.before]
  by_cases hquote : isQuote c
  · simp only [hspace, hquote, if_true, Bool.false_eq_true, if_false] at hstring ⊢
    cases ht : stringTail c cs with
    | none => simp [ht] at hstring
    | some parts =>
        obtain ⟨taken, rest⟩ := parts
        rw [stringTail_append_right ht]
        rfl
  by_cases hdigit : isDigit c
  · simp only [hspace, hquote, hdigit, if_true, Bool.false_eq_true, if_false]
    rw [takeWhile_append_stop rfl, dropWhile_append_stop rfl, decimals_append_stop]
    rfl
  by_cases hname : startsName c
  · simp only [hspace, hquote, hdigit, hname, if_true, Bool.false_eq_true, if_false]
    rw [takeWhile_append_stop rfl, dropWhile_append_stop rfl]
    rfl
  simp only [hspace, hquote, hdigit, hname, Bool.false_eq_true, if_false] at hcomment ⊢
  -- what is left is a comment or a symbol, and a slash may open either
  split at hcomment
  · rename_i cs
    simp only [List.cons_append]
    rw [takeWhile_append_stop rfl, dropWhile_append_stop rfl]
    rfl
  · rename_i cs
    cases ht : commentTail cs with
    | none => simp [ht] at hcomment
    | some parts =>
        obtain ⟨taken, rest⟩ := parts
        simp only [List.cons_append]
        rw [commentTail_append_right ht]
        rfl
  · rename_i hline hblock
    split
    · rename_i heq
      cases cs with
      | nil => simp at heq
      | cons d ds =>
          obtain ⟨rfl, -⟩ := List.cons.inj heq
          exact absurd rfl (hline ds rfl)
    · rename_i heq
      cases cs with
      | nil => simp at heq
      | cons d ds =>
          obtain ⟨rfl, -⟩ := List.cons.inj heq
          exact absurd rfl (hblock ds rfl)
    · exact symbolPiece_append _ _ _

/-- No lexeme is of the kind that ends a source. -/
theorem IsLexeme.kind_ne {cs : List Char} (h : IsLexeme cs) : kind cs ≠ .endOfSource := by
  obtain ⟨c, cs, rfl⟩ := List.exists_cons_of_ne_nil h.ne_nil
  rcases h.sort with ⟨hquote, -⟩ | ⟨hdigit, -⟩ | ⟨hname, -⟩ | ⟨k, hk⟩
  · simp [kind, hquote]
  · have hquote : isQuote c = false := by
      by_contra hquote
      simp [not_isDigit_of_isQuote (by simpa using hquote)] at hdigit
    simp [kind, hquote, hdigit]
  · have hquote : isQuote c = false := by
      by_contra hquote
      simp [not_startsName_of_isQuote (by simpa using hquote)] at hname
    have hdigit : isDigit c = false := by
      by_contra hdigit
      simp [not_startsName_of_isDigit (by simpa using hdigit)] at hname
    simp only [kind, hquote, hdigit, hname, if_true, Bool.false_eq_true, if_false]
    -- a reserved word is of the kind of a keyword, and any other name is an identifier
    cases hword : keyword? _ with
    | none => decide
    | some k =>
        have hk := (keyword?_eq_some_iff.1 hword).1
        rintro rfl
        revert hk
        decide
  · obtain ⟨hquote, hdigit, hname⟩ := symbol?_head hk
    simp only [kind, hquote, hdigit, hname, hk, Bool.false_eq_true, if_false, Option.getD_some]
    rintro rfl
    unfold symbol? at hk
    split at hk <;> cases hk

/-- A text that does not begin with `#!` has no line in front of it. -/
theorem shebang_of_not {cs : List Char} (h : ¬['#', '!'] <+: cs) : shebang cs = ([], cs) := by
  unfold shebang
  split
  · exact absurd (List.prefix_append ['#', '!'] _) h
  · rfl

end Lexeme

/-! ### Positions behind a text -/

/-- A position in a text that has moved behind another. -/
def Position.behind (text : List Char) (p : Position) : Position :=
  ⟨p.offset + byteLength text, p.line + text.count '\n'⟩

theorem Position.behind_next (text : List Char) (p : Position) (c : Char) :
    (p.next c).behind text = (p.behind text).next c := by
  unfold next behind
  congr 1
  · exact Nat.add_right_comm ..
  · split
    · exact Nat.add_right_comm ..
    · rfl

theorem Position.behind_after (text : List Char) (p : Position) (cs : List Char) :
    (p.after cs).behind text = (p.behind text).after cs := by
  induction cs generalizing p with
  | nil => rfl
  | cons c cs ih => rw [after_cons, after_cons, ih, behind_next]

/-- The end of a text is where a text behind it starts. -/
theorem Position.start_behind (text : List Char) : start.behind text = start.after text := by
  have hoffset := after_offset start text
  have hline := after_line start text
  rw [behind, ← hoffset, ← hline]

section Scan

variable (text : List Char) (exprs routines : Nat)

/-! ### Scans -/

/-- **A text that has moved is scanned alike.** -/
theorem scanFrom_behind (p : Position) (cs : List Char) :
    scanFrom (p.behind text) cs =
      ⟨(scanFrom p cs).tokens.map (Token.relocate (.behind text exprs routines)),
        (scanFrom p cs).errors.map (ScanError.relocate (.behind text exprs routines))⟩ := by
  -- each piece leaves a shorter text
  induction hlen : cs.length using Nat.strong_induction_on generalizing p cs with
  | _ n ih =>
      subst hlen
      cases cs with
      | nil => simp
      | cons c cs =>
          cases hpiece : Lexeme.piece c cs with
          | trivia taken rest =>
              rw [scanFrom_trivia hpiece, scanFrom_trivia hpiece, ← Position.behind_after]
              exact ih _ (Lexeme.length_lt_of_piece_trivia hpiece) _ _ rfl
          | lexeme taken rest =>
              rw [scanFrom_lexeme hpiece, scanFrom_lexeme hpiece, ← Position.behind_after,
                ih _ (Lexeme.length_lt_of_piece_lexeme hpiece) _ _ rfl]
              rfl
          | unexpected =>
              rw [scanFrom_unexpected hpiece, scanFrom_unexpected hpiece, ← Position.behind_next,
                ih _ (Nat.lt_succ_self _) _ _ rfl]
              rfl
          | openString =>
              rw [scanFrom_openString hpiece, scanFrom_openString hpiece]
              rfl
          | openComment =>
              rw [scanFrom_openComment hpiece, scanFrom_openComment hpiece]
              rfl

end Scan

/-- A line feed in front of a text is passed over. -/
theorem scanFrom_newline (p : Position) (cs : List Char) :
    scanFrom p ('\n' :: cs) = scanFrom (p.next '\n') cs := by
  have hpiece : Lexeme.piece '\n' cs = .trivia ['\n'] cs := rfl
  exact scanFrom_trivia hpiece

/-- **A scan goes on behind a text without errors** as if nothing stood before. -/
theorem scanFrom_append {p : Position} {cs : List Char} (h : (scanFrom p cs).errors = [])
    (more : List Char) :
    scanFrom p (cs ++ '\n' :: more) =
      ⟨(scanFrom p cs).tokens ++ (scanFrom ((p.after cs).next '\n') more).tokens,
        (scanFrom ((p.after cs).next '\n') more).errors⟩ := by
  induction hlen : cs.length using Nat.strong_induction_on generalizing p cs with
  | _ n ih =>
      subst hlen
      cases cs with
      | nil => rw [List.nil_append, scanFrom_newline, scanFrom_nil, Position.after_nil]; rfl
      | cons c cs =>
          cases hpiece : Lexeme.piece c cs with
          | trivia taken rest =>
              have happend := Lexeme.piece_append c cs more (by simp [hpiece]) (by simp [hpiece])
              rw [hpiece] at happend
              rw [scanFrom_trivia hpiece] at h ⊢
              rw [List.cons_append, scanFrom_trivia happend,
                ih _ (Lexeme.length_lt_of_piece_trivia hpiece) h rfl, ← Position.after_append,
                (Lexeme.piece_trivia hpiece).1]
          | lexeme taken rest =>
              have happend := Lexeme.piece_append c cs more (by simp [hpiece]) (by simp [hpiece])
              rw [hpiece] at happend
              rw [scanFrom_lexeme hpiece] at h ⊢
              rw [List.cons_append, scanFrom_lexeme happend,
                ih _ (Lexeme.length_lt_of_piece_lexeme hpiece) h rfl, ← Position.after_append,
                (Lexeme.piece_lexeme hpiece).1]
              rfl
          | unexpected => simp [scanFrom_unexpected hpiece] at h
          | openString => simp [scanFrom_openString hpiece] at h
          | openComment => simp [scanFrom_openComment hpiece] at h

/-! ### Sources -/

/-- The tokens and errors of a source behind the line in front of it. -/
def scanned (cs : List Char) : Scanned :=
  scanFrom (Position.start.after (Lexeme.shebang cs).1) (Lexeme.shebang cs).2

theorem scan_eq (source : String) :
    scan source =
      match (scanned source.toList).errors with
      | [] => .ok ((scanned source.toList).tokens ++ [endToken source.toList])
      | errors => .error errors := rfl

theorem scanned_of_not {cs : List Char} (h : ¬['#', '!'] <+: cs) :
    scanned cs = scanFrom .start cs := by
  rw [scanned, Lexeme.shebang_of_not h]
  rfl

/-- The line in front of a source stays what it is when a new line follows, but if the source ends
with it, the line feed belongs to it. -/
theorem scanned_append {cs : List Char} (h : (scanned cs).errors = []) (more : List Char) :
    scanned (cs ++ '\n' :: more) =
      ⟨(scanned cs).tokens ++ (scanFrom (Position.start.after (cs ++ ['\n'])) more).tokens,
        (scanFrom (Position.start.after (cs ++ ['\n'])) more).errors⟩ := by
  have happ := Lexeme.shebang_append cs
  unfold scanned at h ⊢
  by_cases hline : ['#', '!'] <+: cs
  · obtain ⟨cs, rfl⟩ := hline
    have htake := List.takeWhile_append_dropWhile (p := (· != '\n')) (l := cs)
    simp only [List.cons_append, List.nil_append, Lexeme.shebang,
      Lexeme.dropWhile_append_stop (p := (· != '\n')) rfl,
      Lexeme.takeWhile_append_stop (p := (· != '\n')) rfl] at h happ ⊢
    cases hdrop : cs.dropWhile (· != '\n') with
    | nil =>
        rw [hdrop, List.append_nil] at htake
        simp [htake]
    | cons c rest =>
        simp only [hdrop, List.cons_append] at h happ ⊢
        rw [scanFrom_append h, ← Position.after_append, List.cons_append, List.cons_append, happ]
        simp
  · rw [Lexeme.shebang_of_not hline] at h ⊢
    have hlines : ¬['#', '!'] <+: cs ++ '\n' :: more := by
      intro hprefix
      rcases cs with _ | ⟨c, _ | ⟨d, cs⟩⟩
      · simp at hprefix
      · simp at hprefix
      · exact hline (by simpa using hprefix)
    rw [Lexeme.shebang_of_not hlines, scanFrom_append h, Position.after_append]
    rfl

/-- Only the last token of a scan ends the source, and the others stand within it. -/
theorem scan_inner {source : String} {ts : List Token} (h : scan source = .ok ts) :
    ∃ inner, ts = inner ++ [endToken source.toList] ∧
      ∀ t ∈ inner, Cursor.isInner t = true ∧ t.span.stop ≤ byteLength source.toList := by
  rw [scan_eq] at h
  split at h
  · rename_i herrors
    refine ⟨_, (Except.ok.inj h).symm, fun t ht => ?_⟩
    have hsource := Lexeme.shebang_append source.toList
    obtain ⟨-, hkind, -, before, rest, htext, hspan, hlongest⟩ :=
      placed_mem hsource.symm (segments_scanFrom herrors) ht
    refine ⟨by rw [Cursor.isInner, hkind]; exact bne_iff_ne.2 hlongest.isLexeme.kind_ne, ?_⟩
    have hsize := congrArg String.utf8ByteSize htext
    rw [← String.ofList_toList (s := source), Lexeme.utf8ByteSize_ofList] at hsize
    simp only [String.utf8ByteSize_append] at hsize
    rw [hspan, Span.stop, hsize]
    exact Nat.le_add_right _ _
  · cases h

/-- **The scan of two sources in one.**  If the first scans without errors, its tokens come first,
and those of the second come behind them, or its errors do, at their new places. -/
theorem scan_joined {A B : String} {ts : List Token} (hA : scan A = .ok ts)
    (hB : ¬['#', '!'] <+: B.toList) (exprs routines : Nat) :
    ∃ inner, ts = inner ++ [endToken A.toList] ∧
      scan (A ++ "\n" ++ B) =
        match scan B with
        | .ok us => .ok (inner ++
            us.map (Token.relocate (.behind (A.toList ++ ['\n']) exprs routines)))
        | .error errors => .error
            (errors.map (ScanError.relocate (.behind (A.toList ++ ['\n']) exprs routines))) := by
  have htext : (A ++ "\n" ++ B).toList = A.toList ++ '\n' :: B.toList := by simp
  rw [scan_eq] at hA
  split at hA
  · rename_i herrors
    refine ⟨_, (Except.ok.inj hA).symm, ?_⟩
    have hscanned := scanned_append herrors B.toList
    rw [← Position.start_behind, scanFrom_behind _ exprs routines] at hscanned
    have hend : endToken (A.toList ++ '\n' :: B.toList) = (endToken B.toList).relocate
        (.behind (A.toList ++ ['\n']) exprs routines) := by
      have happ : A.toList ++ '\n' :: B.toList = (A.toList ++ ['\n']) ++ B.toList := by simp
      rw [happ, endToken, Position.after_append .start, ← Position.start_behind,
        ← Position.behind_after]
      rfl
    rw [scan_eq, scan_eq, htext, hscanned, scanned_of_not hB, hend]
    cases (scanFrom .start B.toList).errors with
    | nil => simp
    | cons e es => rfl
  · cases hA

end Scriptlet
