/-
**What a line at the console stands for.**

A line that looks like an expression is run as a statement that prints it.  Whether it does is told
by its last character and its first word, and the scanner and the parser know better: a line that
ends in a comment looks like an expression although its tokens are a program.  Apart from such lines
the console gets it right.  A program with nothing behind its last token is run as it stands, since
it ends in a semicolon or a closing brace.  An expression that leaves no comment open is printed: it
ends in neither of the two, it begins with no word of a statement, and the semicolon that is put
behind it is one more token.

Main results:

* `Scriptlet.Program.ofSource_of_derives` — a source whose tokens say what those of a program say is
  that program;
* `Scriptlet.Console.not_bare_of_program`, `Scriptlet.Console.bare_of_expression` — how the two
  sorts of lines look;
* `Scriptlet.Console.scan_print` — the tokens of a line that is printed;
* `Scriptlet.Console.ofSource_of_program`, `Scriptlet.Console.ofSource_of_expression` — what the two
  sorts of lines are run as;
* `Scriptlet.Console.source_of_line` — **what a line stands for**.
-/

import Scriptlet.Console
import Scriptlet.Proofs.Joined.Content
import Scriptlet.Proofs.Program.Edges
import Scriptlet.Proofs.Token.Ending

set_option relaxedAutoImplicit false
set_option autoImplicit false

namespace Scriptlet

/-! ### Programs of sources -/

namespace Program

variable {source : String} {ts : List Token} {s s' : Supply} {p : Program}

/-- What a source with a program consists of. -/
theorem derives_of_ofSource (h : ofSource source s = (.ok p, s')) :
    ∃ ts, scan source = .ok ts ∧ Grammar.Derives (ts.takeWhile Cursor.isInner) p.bare := by
  unfold ofSource at h
  cases hscan : scan source with
  | error errors =>
      rw [hscan] at h
      cases h
  | ok ts =>
      rw [hscan] at h
      refine ⟨ts, rfl, ((parse_iff_derives ts s).1 p.bare).1 ?_⟩
      cases hparse : parse ts s with
      | mk answer s₁ =>
          cases answer with
          | error errors =>
              simp only [hparse] at h
              cases h
          | ok q =>
              simp only [hparse] at h
              cases h
              exact ⟨p, s', rfl, rfl⟩

/-- A source whose tokens derive a program is that program. -/
theorem ofSource_of_derives (hscan : scan source = .ok ts)
    (h : Grammar.Derives (ts.takeWhile Cursor.isInner) p) (s : Supply) :
    ∃ q s', ofSource source s = (.ok q, s') ∧ q.bare = p := by
  obtain ⟨q, s', hparse, hq⟩ := parse_of_derives s h
  exact ⟨q, s', by simp only [ofSource, hscan, hparse], hq⟩

end Program

/-! ### Words and marks -/

namespace Lexeme

/-- No blank goes on a name. -/
theorem not_continuesName_of_isBlank {c : Char} (h : Text.isBlank c = true) :
    continuesName c = false := by
  have hrange : ∀ a b c : Char, (decide (a ≤ c) && decide (c ≤ b)) = true →
      a.toNat ≤ c.toNat ∧ c.toNat ≤ b.toNat := fun a b c h => by
    rw [Bool.and_eq_true, decide_eq_true_eq, decide_eq_true_eq] at h
    exact ⟨UInt32.le_iff_toNat_le.1 h.1, UInt32.le_iff_toNat_le.1 h.2⟩
  by_contra hname
  simp only [Bool.not_eq_false, continuesName, startsName, isDigit, Bool.or_eq_true,
    beq_iff_eq] at hname
  simp only [Text.isBlank, Text.blankRanges, List.any_cons, List.any_nil, Bool.or_false,
    Bool.or_eq_true, Bool.and_eq_true, decide_eq_true_eq] at h
  rcases hname with ((hname | hname) | rfl) | hname
  · have := hrange _ _ _ hname
    simp only [Char.reduceToNat] at this
    omega
  · have := hrange _ _ _ hname
    simp only [Char.reduceToNat] at this
    omega
  · revert h
    decide
  · have := hrange _ _ _ hname
    simp only [Char.reduceToNat] at this
    omega

/-- A word in front of a blank is the first piece of its text. -/
theorem piece_word {c : Char} {cs rest : List Char} (hc : startsName c = true)
    (hcs : ∀ d ∈ cs, continuesName d = true) (hrest : ∀ d ∈ rest.head?, continuesName d = false) :
    piece c (cs ++ rest) = .lexeme (c :: cs) rest := by
  have hquote : isQuote c = false := by
    by_contra hquote
    simp [not_startsName_of_isQuote (by simpa using hquote)] at hc
  have hdigit : isDigit c = false := by
    by_contra hdigit
    simp [not_startsName_of_isDigit (by simpa using hdigit)] at hc
  have hspace : isSpace c = false := (IsLexeme.name hc (List.forall_mem_nil _)).not_isSpace
  have htake : (cs ++ rest).takeWhile continuesName = cs := by
    rw [List.takeWhile_append_of_pos hcs]
    cases rest with
    | nil => simp
    | cons d rest => simp [hrest d rfl]
  have hdrop : (cs ++ rest).dropWhile continuesName = rest := by
    rw [List.dropWhile_append_of_pos hcs]
    cases rest with
    | nil => simp
    | cons d rest => simp [hrest d rfl]
  simp [piece, hspace, hquote, hdigit, hc, htake, hdrop]

/-- The lexeme of a semicolon or a closing brace. -/
theorem IsLexeme.of_kind {cs : List Char} (h : IsLexeme cs)
    (hk : kind cs = .semicolon ∨ kind cs = .rightBrace) : cs = [';'] ∨ cs = ['}'] := by
  obtain ⟨c, cs, rfl⟩ := List.exists_cons_of_ne_nil h.ne_nil
  simp only [kind] at hk
  split at hk
  · rcases hk with hk | hk <;> cases hk
  · split at hk
    · rcases hk with hk | hk <;> cases hk
    · split at hk
      · -- a reserved word is of the kind of a keyword, and any other name is an identifier
        cases hword : keyword? (String.ofList (c :: cs)) with
        | none =>
            rw [hword] at hk
            rcases hk with hk | hk <;> cases hk
        | some k =>
            have hkey := (keyword?_eq_some_iff.1 hword).1
            rw [hword, Option.getD_some] at hk
            rcases hk with rfl | rfl <;> exact absurd hkey (by decide)
      · unfold symbol? at hk
        split at hk
        all_goals
          rename_i heq
          first
            | (cases heq <;> simp at hk ⊢)
            | simp at hk

/-- Nothing stands behind the line in front of a script in a text of one line. -/
theorem shebang_single {cs : List Char} (hline : '\n' ∉ cs) (h : ['#', '!'] <+: cs) :
    (shebang cs).2 = [] := by
  obtain ⟨cs, rfl⟩ := h
  have hdrop : cs.dropWhile (· != '\n') = [] := by
    refine List.dropWhile_eq_nil_iff.2 fun c hc => bne_iff_ne.2 ?_
    rintro rfl
    exact hline (List.mem_append_right _ hc)
  simp [shebang, hdrop]

end Lexeme

open Lexeme

/-- The tokens of a source in front of its end. -/
theorem tokens_of_scan {source : String} {ts : List Token} (h : scan source = .ok ts) :
    (scanned source.toList).errors = [] ∧
      ts.takeWhile Cursor.isInner = (scanned source.toList).tokens ∧
      ∀ t ∈ (scanned source.toList).tokens, Cursor.isInner t = true := by
  obtain ⟨inner, hts, hinner⟩ := scan_inner h
  have htokens : ∀ t ∈ inner, Cursor.isInner t = true := fun t ht => (hinner t ht).1
  rw [scan_eq] at h
  split at h
  · rename_i herrors
    have hsame : (scanned source.toList).tokens = inner :=
      List.append_cancel_right ((Except.ok.inj h).trans hts)
    exact ⟨herrors, by rw [hts, hsame, Cursor.takeWhile_isInner htokens rfl], hsame ▸ htokens⟩
  · cases h

namespace Console

variable {line : List Char} {ts : List Token}

/-! ### How programs look -/

/-- A program with nothing behind its last token does not look like an expression. -/
theorem not_bare_of_program {p : Program} {s s' : Supply}
    (h : Program.ofSource (String.ofList line) s = (.ok p, s'))
    (hends : EndsInLexeme (shebang line).2) : isBareExpression line = false := by
  obtain ⟨ts, hscan, hderives⟩ := Program.derives_of_ofSource h
  obtain ⟨herrors, htokens, -⟩ := tokens_of_scan hscan
  rw [String.toList_ofList] at herrors htokens
  rw [htokens] at hderives
  obtain ⟨lexeme, hlast⟩ := hends
  have hne : (shebang line).2 ≠ [] := by
    intro hnil
    rw [hnil, lastPiece?_nil] at hlast
    cases hlast
  obtain ⟨taken, -, hsuffix, ⟨hpiece, hlexeme, htoken⟩ | ⟨hpiece, -⟩⟩ :=
    lastPiece?_cases herrors hne
  · -- the last token of a program is a mark, and the line ends with it
    obtain ⟨p', hp'⟩ := htoken (Position.start.after (shebang line).1)
    have hkind : kind taken = .semicolon ∨ kind taken = .rightBrace := by
      rcases Grammar.Declarations.closes hderives with hnil | ⟨t, ht, hk⟩
      · rw [scanned] at hnil
        rw [hnil] at hp'
        cases hp'
      · rw [scanned, hp'] at ht
        cases ht
        exact hk
    obtain ⟨front, hfront⟩ : taken <:+ line :=
      hsuffix.trans ⟨(shebang line).1, shebang_append line⟩
    rcases hlexeme.of_kind hkind with rfl | rfl
    all_goals simp [isBareExpression, ← hfront]
  · rw [hlast] at hpiece
    cases hpiece

/-! ### How expressions look -/

/-- A word that begins a statement is the first piece of its text in front of a blank. -/
theorem piece_statementWord {word : String} (hword : word ∈ statementWords) {rest : List Char}
    (hrest : ∀ d ∈ rest.head?, Text.isBlank d = true) :
    ∃ c cs, word.toList ++ rest = c :: cs ∧ piece c cs = .lexeme word.toList rest := by
  have hwords : ∀ word ∈ statementWords, word.toList = ['{'] ∨
      (word.toList.head?.any startsName && word.toList.tail.all continuesName) = true := by
    decide
  rcases hwords word hword with hbrace | hname
  · rw [hbrace]
    refine ⟨'{', rest, rfl, ?_⟩
    cases rest <;> simp [piece, isSpace, isQuote, isDigit, startsName, symbolPiece, symbol?]
  · obtain ⟨c, cs, hcs⟩ : ∃ c cs, word.toList = c :: cs := by
      cases hlist : word.toList with
      | nil => simp [hlist] at hname
      | cons c cs => exact ⟨c, cs, rfl⟩
    rw [hcs] at hname ⊢
    simp only [List.head?_cons, Option.any_some, List.tail_cons, Bool.and_eq_true,
      List.all_eq_true] at hname
    exact ⟨c, cs ++ rest, rfl, piece_word hname.1 hname.2 fun d hd =>
      not_continuesName_of_isBlank (hrest d hd)⟩

/-- The first word of a line that begins with no blank, and what stands behind it. -/
theorem firstWord_append (hhead : ∀ c ∈ line.head?, Text.isBlank c = false) :
    ∃ rest, line = Text.firstWord line ++ rest ∧ ∀ d ∈ rest.head?, Text.isBlank d = true := by
  have hdrop : line.dropWhile Text.isBlank = line := by
    cases line with
    | nil => rfl
    | cons c cs => simp [hhead c rfl]
  refine ⟨line.dropWhile fun c => !Text.isBlank c, ?_, fun d hd => ?_⟩
  · rw [Text.firstWord, hdrop, List.takeWhile_append_dropWhile]
  · have hnot := List.head?_dropWhile_not (fun c => !Text.isBlank c) line
    rw [Option.mem_def.1 hd] at hnot
    simpa using hnot

/-- The first word of an expression begins no statement. -/
theorem firstWord_of_expression {p : Position}
    (hhead : ∀ c ∈ line.head?, Text.isBlank c = false)
    (hplain : Grammar.Plainly (scanFrom p line).tokens) :
    String.ofList (Text.firstWord line) ∉ statementWords := by
  intro hword
  obtain ⟨rest, hline, hrest⟩ := firstWord_append hhead
  obtain ⟨c, cs, hcs, hpiece⟩ := piece_statementWord hword hrest
  rw [String.toList_ofList] at hcs hpiece
  rw [hline, hcs, scanFrom_lexeme hpiece] at hplain
  have hkinds : ∀ word ∈ statementWords, (kind word.toList).isStructural = true := by decide
  have hfirst := hkinds _ hword
  rw [String.toList_ofList] at hfirst
  have hkind : (kind (Text.firstWord line)).isStructural = false :=
    hplain _ (List.mem_cons_self ..)
  rw [hfirst] at hkind
  cases hkind

/-- An expression that leaves no comment open ends in neither a semicolon nor a closing brace. -/
theorem getLast?_of_expression {p : Position} (herrors : (scanFrom p line).errors = [])
    (hplain : Grammar.Plainly (scanFrom p line).tokens) (hopen : ¬EndsInLineComment line) {d : Char}
    (hd : d = ';' ∨ d = '}') : line.getLast? ≠ some d := by
  intro hlast
  have hne : line ≠ [] := by
    rintro rfl
    cases hlast
  obtain ⟨taken, htaken, ⟨front, hfront⟩, hends⟩ := lastPiece?_cases herrors hne
  obtain ⟨before, rfl⟩ : ∃ before, taken = before ++ [d] := by
    obtain ⟨before, e, rfl⟩ := (List.eq_nil_or_concat taken).resolve_left htaken
    refine ⟨before, ?_⟩
    rw [← hfront, List.concat_eq_append, ← List.append_assoc, List.getLast?_concat] at hlast
    rw [List.concat_eq_append, Option.some.inj hlast]
  rcases hends with ⟨-, hlexeme, htoken⟩ | ⟨hpiece, htrivia⟩
  · -- a lexeme that ends in a mark is the mark, which no expression has in it
    obtain ⟨p', hp'⟩ := htoken p
    have hkind : (kind (before ++ [d])).isStructural = false :=
      hplain _ (List.mem_of_getLast? hp')
    obtain rfl := hlexeme.eq_nil_of_mark hd
    rcases hd with rfl | rfl <;> cases hkind
  · have hmark : (before ++ [d]).getLast? = some d := List.getLast?_concat
    generalize before ++ [d] = text at hpiece htrivia hmark
    cases htrivia with
    | blank _ hspace =>
        obtain rfl := Option.some.inj hmark
        rcases hd with rfl | rfl <;> cases hspace
    | lineComment _ _ => exact hopen ⟨_, hpiece⟩
    | @blockComment body _ _ =>
        have hslash : ('/' :: '*' :: (body ++ ['*', '/'])).getLast? = some '/' := by
          have happ : '/' :: '*' :: (body ++ ['*', '/']) =
              ('/' :: '*' :: (body ++ ['*'])) ++ ['/'] := by simp
          rw [happ, List.getLast?_concat]
        rw [hslash] at hmark
        rcases hd with rfl | rfl <;> cases hmark

/-- An expression that leaves no comment open looks like one. -/
theorem bare_of_expression {p : Position} (hhead : ∀ c ∈ line.head?, Text.isBlank c = false)
    (herrors : (scanFrom p line).errors = []) (hplain : Grammar.Plainly (scanFrom p line).tokens)
    (hopen : ¬EndsInLineComment line) : isBareExpression line = true := by
  have hword := firstWord_of_expression hhead hplain
  have hsemicolon := getLast?_of_expression herrors hplain hopen (.inl rfl)
  have hbrace := getLast?_of_expression herrors hplain hopen (.inr rfl)
  simp [isBareExpression, hword, hsemicolon, hbrace]

/-! ### The tokens of a line that is printed -/

/-- **The tokens of a line that is printed** are the word, those of the line, and a semicolon. -/
theorem scan_print (herrors : (scanFrom .start line).errors = [])
    (hopen : ¬EndsInLineComment line) :
    ∃ us finish, scan ("print " ++ String.ofList line ++ ";") = .ok (us ++ [finish]) ∧
      finish.kind = .endOfSource ∧
      us.map Token.content = (token .start "print".toList :: ((scanFrom .start line).tokens ++
        [token .start [';']])).map Token.content := by
  have hword : IsLexeme "print".toList := .name rfl (List.all_eq_true.1 rfl)
  have hspace : Trivia [' '] (line ++ [';']) := .blank _ rfl
  have hsource : "print " ++ String.ofList line ++ ";" =
      String.ofList ("print".toList ++ ([' '] ++ (line ++ [';']))) := by
    rw [← String.toList_inj]
    simp
  -- behind the word and the blank the line is scanned as it is at the start of a source
  have hmoved := scanFrom_behind ("print".toList ++ [' ']) 0 0 .start line
  rw [Position.start_behind, Position.after_append] at hmoved
  have hscan : scanFrom .start ("print".toList ++ ([' '] ++ (line ++ [';']))) =
      ⟨token .start "print".toList ::
        ((scanFrom ((Position.start.after "print".toList).after [' ']) line).tokens ++
          [token (((Position.start.after "print".toList).after [' ']).after line) [';']]), []⟩ := by
    rw [scanFrom_isLexeme hword (fun d hd => by cases hd; rfl), scanFrom_of_trivia hspace,
      scanFrom_semicolon herrors hopen]
  have hnone : (scanFrom .start ("print".toList ++ ([' '] ++ (line ++ [';'])))).errors = [] := by
    rw [hscan]
  refine ⟨_, _, by rw [hsource]; exact scan_of_errors_eq_nil hnone, rfl, ?_⟩
  rw [hscan, hmoved]
  simp only [List.map_cons, List.map_append, List.map_map]
  rfl

/-- The word, an expression and a semicolon are the statement that prints the expression. -/
theorem derives_print {word mark : Token} (hword : word.kind = .printWord)
    (hmark : mark.kind = .semicolon) {e : Expr} (he : Grammar.Expression ts e) :
    Grammar.Derives (word :: (ts ++ [mark])) ⟨[.statement (.print e default)]⟩ := by
  have hprint : Grammar.Statement false (word :: (ts ++ [mark])) (.print e default) :=
    .print hword he hmark
  have hprogram := Grammar.Declarations.cons (.statement hprint) .nil
  rwa [List.append_nil] at hprogram

/-! ### What a line stands for -/

/-- A program with nothing behind its last token, or one that does not look like an expression, is
run as it is. -/
theorem ofSource_of_program {p : Program} {s s' : Supply}
    (hp : Program.ofSource (String.ofList line) s = (.ok p, s'))
    (hlook : EndsInLexeme (shebang line).2 ∨ line.getLast? = some ';' ∨ line.getLast? = some '}' ∨
      String.ofList (Text.firstWord line) ∈ statementWords) (t : Supply) :
    ∃ q t', Program.ofSource (sourceOf line) t = (.ok q, t') ∧ q.bare = p.bare := by
  have hbare : isBareExpression line = false := by
    rcases hlook with hends | hlast | hlast | hword
    · exact not_bare_of_program hp hends
    · simp [isBareExpression, hlast]
    · simp [isBareExpression, hlast]
    · simp [isBareExpression, hword]
  obtain ⟨ts, hscan, hderives⟩ := Program.derives_of_ofSource hp
  rw [sourceOf, hbare]
  exact Program.ofSource_of_derives hscan hderives t

/-- An expression is no line in front of a script, unless it has several lines. -/
theorem not_script_of_expression {e : Expr}
    (he : Grammar.Expression (scanned line).tokens e)
    (hscript : '\n' ∈ line → ¬['#', '!'] <+: line) : ¬['#', '!'] <+: line := by
  intro hpre
  by_cases hmem : '\n' ∈ line
  · exact hscript hmem hpre
  · -- a single line in front of a script has no tokens
    obtain ⟨t, us, htokens, -⟩ := he.starts
    rw [scanned, shebang_single hmem hpre, scanFrom_nil] at htokens
    cases htokens

/-- An expression that leaves no line comment open is run as the statement that prints it. -/
theorem ofSource_of_expression (hhead : ∀ c ∈ line.head?, Text.isBlank c = false)
    (hscan : scan (String.ofList line) = .ok ts) {e : Expr}
    (he : Grammar.Expression (ts.takeWhile Cursor.isInner) e) (hopen : ¬EndsInLineComment line)
    (hscript : '\n' ∈ line → ¬['#', '!'] <+: line) (t : Supply) :
    ∃ q t', Program.ofSource (sourceOf line) t = (.ok q, t') ∧
      q.bare = ⟨[.statement (.print e default)]⟩ := by
  obtain ⟨herrors, htokens, hinner⟩ := tokens_of_scan hscan
  rw [String.toList_ofList] at herrors htokens hinner
  rw [htokens] at he
  have hnot := not_script_of_expression he hscript
  rw [scanned_of_not hnot] at herrors he hinner
  have hbare := bare_of_expression hhead herrors he.not_structural hopen
  obtain ⟨us, finish, husscan, hfinish, hcontent⟩ := scan_print herrors hopen
  have hus : ∀ u ∈ us, Cursor.isInner u = true := by
    obtain ⟨inner, hsplit, hall⟩ := scan_inner husscan
    obtain rfl := (List.concat_inj.1 (by simpa using hsplit)).1
    exact fun u hu => (hall u hu).1
  have hderives : Grammar.Derives (token .start "print".toList ::
      ((scanFrom .start line).tokens ++ [token .start [';']])) ⟨[.statement (.print e default)]⟩ :=
    derives_print (by decide) rfl he
  rw [sourceOf, hbare]
  refine Program.ofSource_of_derives husscan ?_ t
  rw [Cursor.takeWhile_isInner hus hfinish]
  refine hderives.of_content (fun u hu => ?_) hus hcontent.symm
  rcases List.mem_cons.1 hu with rfl | hu
  · decide
  · rcases List.mem_append.1 hu with hu | hu
    · exact hinner u hu
    · obtain rfl := List.mem_singleton.1 hu
      rfl

/-- **What a line stands for.**  The line is run as a source of its own.  If it is a program by
itself, and nothing stands behind its last token or it does not look like an expression, then the
source is that program.  If its tokens are an expression and it leaves no line comment open, then
the source is the statement that prints the expression; in a text of several lines, none of them is
a line in front of a script. -/
theorem source_of_line {typed : String} {line : List Char} (hline : Text.trim typed.toList = line)
    (hne : line ≠ []) : ∃ source, source? typed = some source ∧
      (∀ p s s', Program.ofSource (String.ofList line) s = (.ok p, s') →
        (EndsInLexeme (shebang line).2 ∨ line.getLast? = some ';' ∨ line.getLast? = some '}' ∨
          String.ofList (Text.firstWord line) ∈ statementWords) →
        ∀ t, ∃ q t', Program.ofSource source t = (.ok q, t') ∧ q.bare = p.bare) ∧
      ∀ ts e, scan (String.ofList line) = .ok ts →
        Grammar.Expression (ts.takeWhile Cursor.isInner) e → ¬EndsInLineComment line →
        ('\n' ∈ line → ¬['#', '!'] <+: line) →
        ∀ t, ∃ q t', Program.ofSource source t = (.ok q, t') ∧
          q.bare = ⟨[.statement (.print e default)]⟩ := by
  have hsource : source? typed = some (sourceOf line) := by
    rw [source?, hline]
    cases line with
    | nil => exact absurd rfl hne
    | cons c cs => rfl
  have hhead : ∀ c ∈ line.head?, Text.isBlank c = false := fun c hc =>
    Text.head?_trim (hline ▸ hc)
  exact ⟨sourceOf line, hsource, fun p s s' hp hlook => ofSource_of_program hp hlook,
    fun ts e hscan he hopen hscript => ofSource_of_expression hhead hscan he hopen hscript⟩

/-- A name with a closed comment behind it, in which a semicolon stands. -/
theorem source_of_line_comment : ∃ source, source? " x /*;*/ " = some source ∧
    ∀ t, ∃ q t', Program.ofSource source t = (.ok q, t') ∧
      q.bare = ⟨[.statement (.print (.variable default "x") default)]⟩ := by
  have htrim : Text.trim " x /*;*/ ".toList = "x /*;*/".toList := by decide +kernel
  have hscan : scan (String.ofList "x /*;*/".toList) =
      .ok [⟨.identifier, "x", none, ⟨0, 1, 1⟩⟩, .finish ⟨7, 0, 1⟩] := by decide +kernel
  have hlast : lastPiece? "x /*;*/".toList = some (.trivia "/*;*/".toList []) := by
    have hname : piece 'x' [' ', '/', '*', ';', '*', '/'] =
        .lexeme ['x'] [' ', '/', '*', ';', '*', '/'] := rfl
    have hspace : piece ' ' ['/', '*', ';', '*', '/'] =
        .trivia [' '] ['/', '*', ';', '*', '/'] := rfl
    have hcomment : piece '/' ['*', ';', '*', '/'] =
        .trivia ['/', '*', ';', '*', '/'] [] := rfl
    have htext : "x /*;*/".toList = ['x', ' ', '/', '*', ';', '*', '/'] := rfl
    rw [htext, lastPiece?_lexeme hname, lastPiece?_trivia hspace, lastPiece?_trivia hcomment,
      lastPiece?_nil]
    rfl
  have hopen : ¬EndsInLineComment "x /*;*/".toList := by
    rintro ⟨body, hbody⟩
    rw [hlast] at hbody
    cases hbody
  obtain ⟨source, hsource, -, hprint⟩ := source_of_line htrim (by decide)
  exact ⟨source, hsource, hprint _ _ hscan (Grammar.Primary.name rfl).expression hopen
    fun h => absurd h (by decide)⟩

/-- **A comment hides the end of a line.**  A statement with a comment behind it is a program, but
it is run as one that prints, and an expression with a comment behind it is run as what is no
program. -/
theorem comment_hides_end :
    (source? "x; // c" = some "print x; // c;" ∧
      (∃ p s, Program.ofSource "x; // c" default = (.ok p, s) ∧
        p.bare = ⟨[.statement (.expression (.variable default "x") default)]⟩) ∧
      ∃ q s, Program.ofSource "print x; // c;" default = (.ok q, s) ∧
        q.bare = ⟨[.statement (.print (.variable default "x") default)]⟩) ∧
    source? "x // c" = some "print x // c;" ∧
      (∃ t e, scan "x // c" = .ok [t, e] ∧
        Grammar.Expression [t] (.variable default "x")) ∧
      ∀ q s, Program.ofSource "print x // c;" default ≠ (.ok q, s) := by
  have hname : ∀ span, Grammar.Expression [⟨.identifier, "x", none, span⟩]
      (.variable default "x") := fun _ => (Grammar.Primary.name rfl).expression
  refine ⟨⟨by decide +kernel, ?_, ?_⟩, by decide +kernel, ?_, fun q s h => ?_⟩
  · have hscan : scan "x; // c" = .ok [⟨.identifier, "x", none, ⟨0, 1, 1⟩⟩,
        ⟨.semicolon, ";", none, ⟨1, 1, 1⟩⟩, .finish ⟨7, 0, 1⟩] := by decide +kernel
    refine Program.ofSource_of_derives hscan ?_ default
    exact Grammar.Declarations.cons (.statement (.expression (hname _) rfl)) .nil
  · have hscan : scan "print x; // c;" = .ok [⟨.printWord, "print", none, ⟨0, 5, 1⟩⟩,
        ⟨.identifier, "x", none, ⟨6, 1, 1⟩⟩, ⟨.semicolon, ";", none, ⟨7, 1, 1⟩⟩,
        .finish ⟨14, 0, 1⟩] := by decide +kernel
    refine Program.ofSource_of_derives hscan ?_ default
    exact Grammar.Declarations.cons (.statement (.print rfl (hname _) rfl)) .nil
  · have hscan : scan "x // c" = .ok [⟨.identifier, "x", none, ⟨0, 1, 1⟩⟩,
        .finish ⟨6, 0, 1⟩] := by decide +kernel
    exact ⟨_, _, hscan, hname _⟩
  · have hscan : scan "print x // c;" = .ok [⟨.printWord, "print", none, ⟨0, 5, 1⟩⟩,
        ⟨.identifier, "x", none, ⟨6, 1, 1⟩⟩, .finish ⟨13, 0, 1⟩] := by decide +kernel
    obtain ⟨ts, hts, hderives⟩ := Program.derives_of_ofSource h
    rw [hscan] at hts
    cases hts
    -- the last token is neither a semicolon nor a closing brace
    rcases Grammar.Declarations.closes hderives with hnil | ⟨t, ht, hk⟩
    · cases hnil
    · obtain rfl := Option.some.inj ht
      rcases hk with hk | hk <;> cases hk

end Console

end Scriptlet
