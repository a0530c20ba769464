/-
**What a lexeme is, and what may stand between lexemes.**

`Scriptlet/Token/Lexeme.lean` cuts a text into pieces by looking ahead.  This module says without
any looking ahead which lists of characters are lexemes and which are trivia, and proves that a
piece is the longest lexeme with which the text begins.

Main definitions:

* `Scriptlet.Lexeme.StringBody` — the text between the quotes of a string: no quote stands in it
  unless a backslash stands in front;
* `Scriptlet.Lexeme.IsLexeme` — strings, numbers, names and symbols;
* `Scriptlet.Lexeme.Longest` — the longest lexeme with which a text begins;
* `Scriptlet.Lexeme.Trivia` — blanks, line comments up to the end of their line, and block comments
  up to the first closing.

Main results:

* `Scriptlet.Lexeme.stringBody_unique` — a string is closed by its first quote that is not escaped;
* `Scriptlet.Lexeme.longest_of_piece` — **the lexeme of a piece is the longest one**;
* `Scriptlet.Lexeme.trivia_of_piece` — the trivia of a piece is trivia.
-/

import Mathlib.Data.List.Infix
import Mathlib.Data.List.TakeWhile
import Scriptlet.Token.Lexeme

set_option relaxedAutoImplicit false
set_option autoImplicit false

namespace Scriptlet.Lexeme

/-! ### Lexemes -/

/-- The text between the quotes of a string.  A backslash and the character behind it stand
together, and a quote of the kind that opened the string stands only behind a backslash. -/
inductive StringBody (quote : Char) : List Char → Prop
  | nil : StringBody quote []
  | plain {c : Char} {cs : List Char} : c ≠ quote → c ≠ '\\' → StringBody quote cs →
      StringBody quote (c :: cs)
  | escaped (c : Char) {cs : List Char} : StringBody quote cs → StringBody quote ('\\' :: c :: cs)

/-- A lexeme of the language. -/
inductive IsLexeme : List Char → Prop
  | string {quote : Char} {body : List Char} : isQuote quote = true → StringBody quote body →
      IsLexeme (quote :: (body ++ [quote]))
  | integer {digits : List Char} : digits ≠ [] → (∀ d ∈ digits, isDigit d = true) →
      IsLexeme digits
  | fraction {whole places : List Char} : whole ≠ [] → (∀ d ∈ whole, isDigit d = true) →
      places ≠ [] → (∀ d ∈ places, isDigit d = true) → IsLexeme (whole ++ '.' :: places)
  | name {c : Char} {cs : List Char} : startsName c = true →
      (∀ d ∈ cs, continuesName d = true) → IsLexeme (c :: cs)
  | symbol {cs : List Char} {kind : TokenKind} : symbol? cs = some kind → IsLexeme cs

/-- The longest lexeme with which a text begins. -/
structure Longest (lexeme text : List Char) : Prop where
  /-- It is a lexeme. -/
  isLexeme : IsLexeme lexeme
  /-- The text begins with it. -/
  isPrefix : lexeme <+: text
  /-- No lexeme with which the text begins is longer. -/
  length_le : ∀ other, IsLexeme other → other <+: text → other.length ≤ lexeme.length

/-! ### Trivia -/

/-- What stands between lexemes, in front of the text that follows it: a blank, a line comment up
to the end of its line, or a block comment up to the first closing. -/
inductive Trivia : List Char → List Char → Prop
  | blank {c : Char} (following : List Char) : isSpace c = true → Trivia [c] following
  | lineComment {body following : List Char} : '\n' ∉ body →
      (following = [] ∨ ∃ rest, following = '\n' :: rest) → Trivia ('/' :: '/' :: body) following
  | blockComment {body : List Char} (following : List Char) : ¬ ['*', '/'] <:+: body →
      Trivia ('/' :: '*' :: (body ++ ['*', '/'])) following

/-! ### Character classes do not overlap -/

theorem not_isDigit_of_isQuote {c : Char} (h : isQuote c = true) : isDigit c = false := by
  simp only [isQuote, Bool.or_eq_true, beq_iff_eq] at h
  rcases h with rfl | rfl <;> decide

theorem not_startsName_of_isQuote {c : Char} (h : isQuote c = true) : startsName c = false := by
  simp only [isQuote, Bool.or_eq_true, beq_iff_eq] at h
  rcases h with rfl | rfl <;> decide

theorem not_startsName_of_isDigit {c : Char} (h : isDigit c = true) : startsName c = false := by
  simp only [isDigit, Bool.and_eq_true, decide_eq_true_eq, Char.le_def] at h
  simp only [startsName, Bool.or_eq_false_iff, Bool.and_eq_false_iff, decide_eq_false_iff_not,
    Char.le_def, beq_eq_false_iff_ne]
  obtain ⟨hlow, hhigh⟩ := h
  refine ⟨⟨Or.inl ?_, Or.inl ?_⟩, ?_⟩
  · intro ha
    exact absurd (UInt32.le_trans ha hhigh) (by decide)
  · intro hA
    exact absurd (UInt32.le_trans hA hhigh) (by decide)
  · rintro rfl
    exact absurd hhigh (by decide)

/-- The first character of a symbol is neither a quote nor a digit and begins no name. -/
theorem symbol?_head {c : Char} {cs : List Char} {kind : TokenKind}
    (h : symbol? (c :: cs) = some kind) :
    isQuote c = false ∧ isDigit c = false ∧ startsName c = false := by
  unfold symbol? at h
  split at h <;> first | (obtain ⟨rfl, -⟩ := List.cons.inj ‹_›; decide) | simp at h

/-- A symbol has one or two characters. -/
theorem symbol?_length {cs : List Char} {kind : TokenKind} (h : symbol? cs = some kind) :
    cs.length = 1 ∨ cs.length = 2 := by
  unfold symbol? at h
  split at h <;> simp at h <;> simp

/-! ### The lexemes with which a text begins -/

/-- **A string is closed by its first quote that is not escaped**, so no text begins with two
strings. -/
theorem stringBody_unique {quote : Char} (hq : quote ≠ '\\') {body₁ body₂ rest₁ rest₂ : List Char}
    (h₁ : StringBody quote body₁) (h₂ : StringBody quote body₂)
    (h : body₁ ++ quote :: rest₁ = body₂ ++ quote :: rest₂) : body₁ = body₂ := by
  induction h₁ generalizing body₂ with
  | nil =>
      cases h₂ with
      | nil => rfl
      | plain hne _ _ => exact absurd (List.cons.inj h).1.symm hne
      | escaped c _ => exact absurd (List.cons.inj h).1 hq
  | plain hne hslash _ ih =>
      cases h₂ with
      | nil => exact absurd (List.cons.inj h).1 hne
      | plain _ _ h₂ =>
          simp only [List.cons_append, List.cons.injEq] at h
          rw [h.1, ih h₂ h.2]
      | escaped c _ => exact absurd (List.cons.inj h).1 hslash
  | escaped c _ ih =>
      cases h₂ with
      | nil => exact absurd (List.cons.inj h).1.symm hq
      | plain _ hslash _ => exact absurd (List.cons.inj h).1.symm hslash
      | escaped d h₂ =>
          simp only [List.cons_append, List.cons.injEq] at h
          rw [h.2.1, ih h₂ h.2.2]

theorem isQuote_ne_backslash {c : Char} (h : isQuote c = true) : c ≠ '\\' := by
  rintro rfl
  exact absurd h (by decide)

/-- The first character of a lexeme tells what sort of lexeme it is. -/
theorem IsLexeme.sort {c : Char} {cs : List Char} (h : IsLexeme (c :: cs)) :
    (isQuote c = true ∧ ∃ body, cs = body ++ [c] ∧ StringBody c body) ∨
    (isDigit c = true ∧ ((∀ d ∈ cs, isDigit d = true) ∨
      ∃ whole places, cs = whole ++ '.' :: places ∧ (∀ d ∈ whole, isDigit d = true) ∧
        places ≠ [] ∧ ∀ d ∈ places, isDigit d = true)) ∨
    (startsName c = true ∧ ∀ d ∈ cs, continuesName d = true) ∨
    ∃ kind, symbol? (c :: cs) = some kind := by
  generalize htext : c :: cs = text at h
  cases h with
  | string hquote hbody =>
      obtain ⟨rfl, rfl⟩ := List.cons.inj htext
      exact Or.inl ⟨hquote, _, rfl, hbody⟩
  | integer _ hdigits =>
      subst htext
      exact Or.inr (Or.inl ⟨hdigits c (by simp), Or.inl fun d hd => hdigits d (by simp [hd])⟩)
  | @fraction whole places hne hdigits hsome hplaces =>
      obtain ⟨d, ds, rfl⟩ := List.exists_cons_of_ne_nil hne
      obtain ⟨rfl, rfl⟩ := List.cons.inj htext
      refine Or.inr (Or.inl ⟨hdigits c (by simp), Or.inr ⟨ds, places, rfl, ?_, hsome, hplaces⟩⟩)
      exact fun d hd => hdigits d (by simp [hd])
  | name hstart hrest =>
      obtain ⟨rfl, rfl⟩ := List.cons.inj htext
      exact Or.inr (Or.inr (Or.inl ⟨hstart, hrest⟩))
  | symbol hsymbol =>
      subst htext
      exact Or.inr (Or.inr (Or.inr ⟨_, hsymbol⟩))

/-- A lexeme that begins with a quote is a string. -/
theorem IsLexeme.of_isQuote {c : Char} {cs : List Char} (hc : isQuote c = true)
    (h : IsLexeme (c :: cs)) : ∃ body, cs = body ++ [c] ∧ StringBody c body := by
  rcases h.sort with ⟨-, hstring⟩ | ⟨hdigit, -⟩ | ⟨hname, -⟩ | ⟨kind, hsymbol⟩
  · exact hstring
  · simp [not_isDigit_of_isQuote hc] at hdigit
  · simp [not_startsName_of_isQuote hc] at hname
  · simp [(symbol?_head hsymbol).1] at hc

/-- A lexeme that begins with a digit is a number. -/
theorem IsLexeme.of_isDigit {c : Char} {cs : List Char} (hc : isDigit c = true)
    (h : IsLexeme (c :: cs)) : (∀ d ∈ cs, isDigit d = true) ∨
      ∃ whole places, cs = whole ++ '.' :: places ∧ (∀ d ∈ whole, isDigit d = true) ∧
        places ≠ [] ∧ ∀ d ∈ places, isDigit d = true := by
  rcases h.sort with ⟨hquote, -⟩ | ⟨-, hnumber⟩ | ⟨hname, -⟩ | ⟨kind, hsymbol⟩
  · simp [not_isDigit_of_isQuote hquote] at hc
  · exact hnumber
  · simp [not_startsName_of_isDigit hc] at hname
  · simp [(symbol?_head hsymbol).2.1] at hc

/-- A lexeme that begins like a name is a name. -/
theorem IsLexeme.of_startsName {c : Char} {cs : List Char} (hc : startsName c = true)
    (h : IsLexeme (c :: cs)) : ∀ d ∈ cs, continuesName d = true := by
  rcases h.sort with ⟨hquote, -⟩ | ⟨hdigit, -⟩ | ⟨-, hname⟩ | ⟨kind, hsymbol⟩
  · simp [not_startsName_of_isQuote hquote] at hc
  · simp [not_startsName_of_isDigit hdigit] at hc
  · exact hname
  · simp [(symbol?_head hsymbol).2.2] at hc

/-- A lexeme that begins with any other character is a symbol. -/
theorem IsLexeme.of_other {c : Char} {cs : List Char} (hquote : isQuote c = false)
    (hdigit : isDigit c = false) (hname : startsName c = false) (h : IsLexeme (c :: cs)) :
    ∃ kind, symbol? (c :: cs) = some kind := by
  rcases h.sort with ⟨hq, -⟩ | ⟨hd, -⟩ | ⟨hn, -⟩ | hsymbol
  · simp [hquote] at hq
  · simp [hdigit] at hd
  · simp [hname] at hn
  · exact hsymbol

/-- A lexeme is not empty. -/
theorem IsLexeme.ne_nil {cs : List Char} (h : IsLexeme cs) : cs ≠ [] := by
  cases h with
  | string _ _ => simp
  | integer hne _ => exact hne
  | fraction _ _ _ _ => simp
  | name _ _ => simp
  | symbol hsymbol =>
      rintro rfl
      simp [symbol?] at hsymbol

/-! ### The lexeme of a piece is the longest -/

/-- The tail of a string is its body and the closing quote. -/
theorem stringBody_of_stringTail {quote : Char} {cs taken rest : List Char}
    (h : stringTail quote cs = some (taken, rest)) :
    ∃ body, taken = body ++ [quote] ∧ StringBody quote body := by
  fun_induction stringTail quote cs generalizing taken rest with
  | case1 => simp at h
  | case2 cs =>
      obtain ⟨rfl, rfl⟩ := Prod.mk.inj (Option.some.inj h)
      exact ⟨[], rfl, .nil⟩
  | case3 => simp at h
  | case4 e cs _ ih =>
      simp only [Option.map_eq_some_iff, Prod.mk.injEq, Prod.exists] at h
      obtain ⟨t, r, ht, rfl, rfl⟩ := h
      obtain ⟨body, rfl, hbody⟩ := ih ht
      exact ⟨'\\' :: e :: body, rfl, .escaped e hbody⟩
  | case5 c cs hquote hslash ih =>
      simp only [Option.map_eq_some_iff, Prod.mk.injEq, Prod.exists] at h
      obtain ⟨t, r, ht, rfl, rfl⟩ := h
      obtain ⟨body, rfl, hbody⟩ := ih ht
      exact ⟨c :: body, rfl, .plain hquote hslash hbody⟩

/-- A prefix whose elements all satisfy a condition is no longer than the longest such prefix. -/
theorem length_le_takeWhile {p : Char → Bool} {cs ds : List Char} (hds : ∀ d ∈ ds, p d = true)
    (h : ds <+: cs) : ds.length ≤ (cs.takeWhile p).length := by
  obtain ⟨rest, rfl⟩ := h
  rw [List.takeWhile_append_of_pos hds]
  simp

/-- The string with which a text begins is its longest lexeme. -/
theorem longest_string {c : Char} {cs taken rest : List Char} (hc : isQuote c = true)
    (h : stringTail c cs = some (taken, rest)) : Longest (c :: taken) (c :: cs) := by
  obtain ⟨body, rfl, hbody⟩ := stringBody_of_stringTail h
  have happ := stringTail_append h
  refine ⟨.string hc hbody, ⟨rest, by rw [← happ]; rfl⟩, ?_⟩
  intro other hother hprefix
  obtain ⟨d, ds, rfl⟩ := List.exists_cons_of_ne_nil hother.ne_nil
  obtain ⟨rfl, htail⟩ := List.cons_prefix_cons.1 hprefix
  obtain ⟨body', rfl, hbody'⟩ := hother.of_isQuote hc
  obtain ⟨rest', hrest'⟩ := htail
  have hsame : body ++ d :: rest = body' ++ d :: rest' := by
    simpa using happ.trans hrest'.symm
  rw [stringBody_unique (isQuote_ne_backslash hc) hbody hbody' hsame]

/-- The decimal places of a text are empty, or a point and at least one digit. -/
theorem decimals_cases (cs : List Char) :
    (decimals cs).1 = [] ∨ ∃ places, (decimals cs).1 = '.' :: places ∧ places ≠ [] ∧
      ∀ d ∈ places, isDigit d = true := by
  unfold decimals
  split
  · rename_i d cs
    split
    · rename_i hd
      refine Or.inr ⟨d :: cs.takeWhile isDigit, rfl, by simp, ?_⟩
      intro e he
      rcases List.mem_cons.1 he with rfl | he
      · exact hd
      · exact List.mem_takeWhile_imp he
    · exact Or.inl rfl
  · exact Or.inl rfl

/-- A point and digits behind it are no longer than the decimal places of the text. -/
theorem length_le_decimals {places : List Char} (rest : List Char) (hne : places ≠ [])
    (hplaces : ∀ d ∈ places, isDigit d = true) :
    ('.' :: places).length ≤ (decimals ('.' :: (places ++ rest))).1.length := by
  obtain ⟨d, ds, rfl⟩ := List.exists_cons_of_ne_nil hne
  have hd : isDigit d = true := hplaces d (by simp)
  have hds : ∀ e ∈ ds, isDigit e = true := fun e he => hplaces e (by simp [he])
  simp [decimals, hd, List.takeWhile_append_of_pos hds]

/-- Digits up to a point are all the digits with which a text begins. -/
theorem span_digits_point {whole : List Char} (rest : List Char)
    (hwhole : ∀ d ∈ whole, isDigit d = true) :
    (whole ++ '.' :: rest).takeWhile isDigit = whole ∧
      (whole ++ '.' :: rest).dropWhile isDigit = '.' :: rest := by
  have hpoint : isDigit '.' = false := by decide
  rw [List.takeWhile_append_of_pos hwhole, List.dropWhile_append_of_pos hwhole]
  simp [hpoint]

/-- The number with which a text begins is its longest lexeme. -/
theorem longest_number {c : Char} {cs : List Char} (hc : isDigit c = true) :
    Longest (c :: cs.takeWhile isDigit ++ (decimals (cs.dropWhile isDigit)).1) (c :: cs) := by
  have hdigits : ∀ d ∈ c :: cs.takeWhile isDigit, isDigit d = true := by
    intro d hd
    rcases List.mem_cons.1 hd with rfl | hd
    · exact hc
    · exact List.mem_takeWhile_imp hd
  refine ⟨?_, ⟨(decimals (cs.dropWhile isDigit)).2, ?_⟩, ?_⟩
  · rcases decimals_cases (cs.dropWhile isDigit) with hnone | ⟨places, hsome, hne, hplaces⟩
    · rw [hnone, List.append_nil]
      exact .integer (by simp) hdigits
    · rw [hsome]
      exact .fraction (by simp) hdigits hne hplaces
  · rw [List.append_assoc, decimals_append, List.cons_append, List.takeWhile_append_dropWhile]
  · intro other hother hprefix
    obtain ⟨d, ds, rfl⟩ := List.exists_cons_of_ne_nil hother.ne_nil
    obtain ⟨rfl, htail⟩ := List.cons_prefix_cons.1 hprefix
    rcases hother.of_isDigit hc with hall | ⟨whole, places, rfl, hwhole, hne, hplaces⟩
    · have := length_le_takeWhile hall htail
      simp only [List.length_cons, List.length_append]
      omega
    · obtain ⟨rest, rfl⟩ := htail
      obtain ⟨htake, hdrop⟩ := span_digits_point (places ++ rest) hwhole
      have hlen := length_le_decimals rest hne hplaces
      have hassoc : whole ++ '.' :: places ++ rest = whole ++ '.' :: (places ++ rest) := by simp
      rw [hassoc, htake, hdrop]
      simp only [List.length_cons, List.length_append] at hlen ⊢
      omega

/-- The name with which a text begins is its longest lexeme. -/
theorem longest_name {c : Char} {cs : List Char} (hc : startsName c = true) :
    Longest (c :: cs.takeWhile continuesName) (c :: cs) := by
  refine ⟨.name hc fun d hd => List.mem_takeWhile_imp hd, ?_, ?_⟩
  · rw [List.cons_prefix_cons]
    exact ⟨rfl, List.takeWhile_prefix continuesName⟩
  · intro other hother hprefix
    obtain ⟨d, ds, rfl⟩ := List.exists_cons_of_ne_nil hother.ne_nil
    obtain ⟨rfl, htail⟩ := List.cons_prefix_cons.1 hprefix
    have := length_le_takeWhile (hother.of_startsName hc) htail
    simpa using this

/-- The piece of a text that begins with a symbol: two characters if they are a symbol, else
one. -/
theorem symbolPiece_cases {c : Char} {cs taken rest : List Char}
    (h : symbolPiece c cs = .lexeme taken rest) :
    (∃ d, cs = d :: rest ∧ taken = [c, d] ∧ ∃ kind, symbol? [c, d] = some kind) ∨
    (taken = [c] ∧ (∃ kind, symbol? [c] = some kind) ∧
      ∀ d ds, cs = d :: ds → symbol? [c, d] = none) := by
  unfold symbolPiece at h
  split at h
  · rename_i d ds
    split at h
    · rename_i htwo
      obtain ⟨rfl, rfl⟩ := Piece.lexeme.inj h
      exact Or.inl ⟨d, rfl, rfl, Option.isSome_iff_exists.1 htwo⟩
    · rename_i htwo
      split at h
      · rename_i hone
        obtain ⟨rfl, rfl⟩ := Piece.lexeme.inj h
        refine Or.inr ⟨rfl, Option.isSome_iff_exists.1 hone, ?_⟩
        intro e es he
        obtain ⟨rfl, rfl⟩ := List.cons.inj he
        simpa using htwo
      · simp at h
  · split at h
    · rename_i hone
      obtain ⟨rfl, rfl⟩ := Piece.lexeme.inj h
      exact Or.inr ⟨rfl, Option.isSome_iff_exists.1 hone, by simp⟩
    · simp at h

/-- The symbol with which a text begins is its longest lexeme. -/
theorem longest_symbol {c : Char} {cs taken rest : List Char} (hquote : isQuote c = false)
    (hdigit : isDigit c = false) (hname : startsName c = false)
    (h : symbolPiece c cs = .lexeme taken rest) : Longest taken (c :: cs) := by
  have hprefix : taken <+: c :: cs := ⟨rest, (symbolPiece_lexeme h).1⟩
  rcases symbolPiece_cases h with ⟨d, rfl, rfl, kind, hkind⟩ | ⟨rfl, ⟨kind, hkind⟩, hnone⟩
  · refine ⟨.symbol hkind, hprefix, ?_⟩
    intro other hother hpre
    obtain ⟨e, es, rfl⟩ := List.exists_cons_of_ne_nil hother.ne_nil
    obtain ⟨rfl, -⟩ := List.cons_prefix_cons.1 hpre
    obtain ⟨k, hk⟩ := hother.of_other hquote hdigit hname
    rcases symbol?_length hk with hlen | hlen
    · simp [hlen]
    · simp [hlen]
  · refine ⟨.symbol hkind, hprefix, ?_⟩
    intro other hother hpre
    obtain ⟨e, es, rfl⟩ := List.exists_cons_of_ne_nil hother.ne_nil
    obtain ⟨rfl, htail⟩ := List.cons_prefix_cons.1 hpre
    obtain ⟨k, hk⟩ := hother.of_other hquote hdigit hname
    rcases symbol?_length hk with hlen | hlen
    · simp [hlen]
    · -- a symbol of two characters would have been taken
      obtain ⟨d, rfl⟩ := List.length_eq_one_iff.1 (Nat.succ.inj hlen)
      obtain ⟨ds, rfl⟩ := htail
      rw [hnone d ds rfl] at hk
      simp at hk

/-- **The lexeme of a piece is the longest one.** -/
theorem longest_of_piece {c : Char} {cs taken rest : List Char}
    (h : piece c cs = .lexeme taken rest) : Longest taken (c :: cs) := by
  unfold piece at h
  split at h
  · simp at h
  · split at h
    · rename_i hquote
      split at h
      · rename_i htail
        obtain ⟨rfl, rfl⟩ := Piece.lexeme.inj h
        exact longest_string hquote htail
      · simp at h
    · rename_i hquote
      split at h
      · rename_i hdigit
        obtain ⟨rfl, rfl⟩ := Piece.lexeme.inj h
        exact longest_number hdigit
      · rename_i hdigit
        split at h
        · rename_i hname
          obtain ⟨rfl, rfl⟩ := Piece.lexeme.inj h
          exact longest_name hname
        · rename_i hname
          split at h
          · simp at h
          · split at h <;> simp at h
          · exact longest_symbol (by simpa using hquote) (by simpa using hdigit)
              (by simpa using hname) h

/-! ### The trivia of a piece -/

/-- The tail of a block comment is a body without closing, and then the closing. -/
theorem body_of_commentTail {cs taken rest : List Char} (h : commentTail cs = some (taken, rest)) :
    ∃ body, taken = body ++ ['*', '/'] ∧ ¬ ['*', '/'] <:+: body := by
  induction cs generalizing taken rest with
  | nil => simp [commentTail] at h
  | cons c cs ih =>
      unfold commentTail at h
      split at h
      · obtain ⟨rfl, rfl⟩ := Prod.mk.inj (Option.some.inj h)
        exact ⟨[], rfl, by simp⟩
      · rename_i hopen
        simp only [Option.map_eq_some_iff, Prod.mk.injEq, Prod.exists] at h
        obtain ⟨t, r, ht, rfl, rfl⟩ := h
        obtain ⟨body, rfl, hbody⟩ := ih ht
        refine ⟨c :: body, rfl, ?_⟩
        rw [List.infix_cons_iff, not_or]
        refine ⟨?_, hbody⟩
        -- a closing at the very start would have been taken
        intro hprefix
        obtain ⟨rfl, hslash⟩ := List.cons_prefix_cons.1 hprefix
        obtain ⟨ds, rfl⟩ := hslash
        exact hopen _ rfl (commentTail_append ht).symm

/-- The trivia of a piece is trivia in front of the rest. -/
theorem trivia_of_piece {c : Char} {cs taken rest : List Char}
    (h : piece c cs = .trivia taken rest) : Trivia taken rest := by
  unfold piece at h
  split at h
  · rename_i hspace
    obtain ⟨rfl, rfl⟩ := Piece.trivia.inj h
    exact .blank _ hspace
  · split at h
    · split at h <;> simp at h
    · split at h
      · simp at h
      · split at h
        · simp at h
        · split at h
          · rename_i cs _ _ _ _
            obtain ⟨rfl, rfl⟩ := Piece.trivia.inj h
            refine .lineComment (fun hmem => ?_) ?_
            · simpa using List.mem_takeWhile_imp hmem
            · cases hrest : cs.dropWhile (· != '\n') with
              | nil => exact Or.inl rfl
              | cons d ds =>
                  have := List.head?_dropWhile_not (· != '\n') cs
                  rw [hrest] at this
                  simp only [List.head?_cons, bne_eq_false_iff_eq] at this
                  exact Or.inr ⟨ds, by rw [this]⟩
          · split at h
            · rename_i ht
              obtain ⟨rfl, rfl⟩ := Piece.trivia.inj h
              obtain ⟨body, rfl, hbody⟩ := body_of_commentTail ht
              exact .blockComment _ hbody
            · simp at h
          · exact absurd h symbolPiece_ne_trivia

end Scriptlet.Lexeme
