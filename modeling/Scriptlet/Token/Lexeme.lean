/-
**Cutting a source into pieces.**

The text that is still to be read begins with one piece: a bit of trivia (a blank, a line comment,
a closed block comment), a lexeme, a character that begins neither, or a string or a block comment
that is never closed.  `piece` finds it; the longest lexeme is taken, so `<=` is one lexeme and
`1.5` is one number, while `1.` is a number and a dot.  What a lexeme means, its kind and its
literal, depends on its characters alone.

Main definitions:

* `Scriptlet.Lexeme.Piece`, `Scriptlet.Lexeme.piece` — the first piece of a text;
* `Scriptlet.Lexeme.kind`, `Scriptlet.Lexeme.literal?` — what a lexeme means;
* `Scriptlet.Lexeme.decode` — the value of the text between the quotes of a string;
* `Scriptlet.Lexeme.shebang` — the line in front of a script that names its interpreter.

Main results:

* `Scriptlet.Lexeme.piece_trivia`, `Scriptlet.Lexeme.piece_lexeme` — **a piece and the rest make
  up the text, and the piece is not empty**.
-/

import Scriptlet.Token

set_option relaxedAutoImplicit false
set_option autoImplicit false

namespace Scriptlet.Lexeme

/-! ### Character classes -/

/-- A character that may stand between lexemes. -/
def isSpace (c : Char) : Bool := c == ' ' || c == '\t' || c == '\r' || c == '\n'

/-- A character that opens and closes a string. -/
def isQuote (c : Char) : Bool := c == '"' || c == '\x27'

/-- A decimal digit. -/
def isDigit (c : Char) : Bool := decide ('0' ≤ c) && decide (c ≤ '9')

/-- A letter of the ASCII alphabet or the underscore, with which a name begins. -/
def startsName (c : Char) : Bool :=
  (decide ('a' ≤ c) && decide (c ≤ 'z')) || (decide ('A' ≤ c) && decide (c ≤ 'Z')) || c == '_'

/-- A character with which a name goes on. -/
def continuesName (c : Char) : Bool := startsName c || isDigit c

/-! ### Brackets and operators -/

/-- The kind of a bracket or operator. -/
def symbol? : List Char → Option TokenKind
  | ['('] => some .leftParen
  | [')'] => some .rightParen
  | ['{'] => some .leftBrace
  | ['}'] => some .rightBrace
  | [','] => some .comma
  | ['.'] => some .dot
  | ['-'] => some .minus
  | ['+'] => some .plus
  | [';'] => some .semicolon
  | ['/'] => some .slash
  | ['*'] => some .star
  | ['?'] => some .question
  | [':'] => some .colon
  | ['!'] => some .bang
  | ['='] => some .equal
  | ['>'] => some .greater
  | ['<'] => some .less
  | ['!', '='] => some .bangEqual
  | ['=', '='] => some .equalEqual
  | ['>', '='] => some .greaterEqual
  | ['<', '='] => some .lessEqual
  | _ => none

/-! ### The parts of longer pieces -/

/-- What is left of a string behind its opening quote, up to and with the closing one, and the text
behind it.  A backslash and the character behind it stand together, so an escaped quote does not
close. -/
def stringTail (quote : Char) : List Char → Option (List Char × List Char)
  | [] => none
  | c :: cs =>
      if c = quote then some ([c], cs)
      else if c = '\\' then
        match cs with
        | [] => none
        | e :: cs => (stringTail quote cs).map fun (taken, rest) => (c :: e :: taken, rest)
      else (stringTail quote cs).map fun (taken, rest) => (c :: taken, rest)

/-- What is left of a block comment behind its opening, up to and with the closing, and the text
behind it. -/
def commentTail : List Char → Option (List Char × List Char)
  | [] => none
  | c :: cs =>
      match c, cs with
      | '*', '/' :: rest => some (['*', '/'], rest)
      | _, _ => (commentTail cs).map fun (taken, rest) => (c :: taken, rest)

/-- The point and the decimal places with which a text begins, and the text behind them.  A point
without a digit behind it is not taken. -/
def decimals : List Char → List Char × List Char
  | '.' :: d :: cs =>
      if isDigit d then ('.' :: d :: cs.takeWhile isDigit, cs.dropWhile isDigit)
      else ([], '.' :: d :: cs)
  | cs => ([], cs)

/-! ### Pieces -/

/-- The first piece of a text, and the text behind it. -/
inductive Piece
  /-- A blank, a line comment without its line end, or a closed block comment. -/
  | trivia (taken rest : List Char)
  /-- A lexeme. -/
  | lexeme (taken rest : List Char)
  /-- A single character that begins nothing. -/
  | unexpected
  /-- A string that is not closed. -/
  | openString
  /-- A block comment that is not closed. -/
  | openComment

/-- The bracket or operator with which the text `c :: cs` begins, the longer one if two fit. -/
def symbolPiece (c : Char) (cs : List Char) : Piece :=
  match cs with
  | d :: rest =>
      if (symbol? [c, d]).isSome then .lexeme [c, d] rest
      else if (symbol? [c]).isSome then .lexeme [c] cs
      else .unexpected
  | [] => if (symbol? [c]).isSome then .lexeme [c] cs else .unexpected

/-- The first piece of the text `c :: cs`. -/
def piece (c : Char) (cs : List Char) : Piece :=
  if isSpace c then .trivia [c] cs
  else if isQuote c then
    match stringTail c cs with
    | some (taken, rest) => .lexeme (c :: taken) rest
    | none => .openString
  else if isDigit c then
    let places := decimals (cs.dropWhile isDigit)
    .lexeme (c :: cs.takeWhile isDigit ++ places.1) places.2
  else if startsName c then
    .lexeme (c :: cs.takeWhile continuesName) (cs.dropWhile continuesName)
  else
    match c, cs with
    | '/', '/' :: cs =>
        .trivia ('/' :: '/' :: cs.takeWhile (· != '\n')) (cs.dropWhile (· != '\n'))
    | '/', '*' :: cs =>
        match commentTail cs with
        | some (taken, rest) => .trivia ('/' :: '*' :: taken) rest
        | none => .openComment
    | c, cs => symbolPiece c cs

/-- The line in front of a script that names its interpreter, with its line end, and the text
behind it. -/
def shebang : List Char → List Char × List Char
  | '#' :: '!' :: cs =>
      match cs.dropWhile (· != '\n') with
      | [] => ('#' :: '!' :: cs, [])
      | c :: rest => ('#' :: '!' :: cs.takeWhile (· != '\n') ++ [c], rest)
  | cs => ([], cs)

/-! ### What a lexeme means -/

/-- The characters that a backslash and a character behind it stand for. -/
def escapeValue : Char → List Char
  | 'n' => ['\n']
  | 't' => ['\t']
  | '\\' => ['\\']
  | '"' => ['"']
  | '\x27' => ['\x27']
  | c => ['\\', c]

/-- The value of the text between the quotes of a string. -/
def decode : List Char → List Char
  | [] => []
  | c :: cs =>
      if c = '\\' then
        match cs with
        | [] => [c]
        | e :: cs => escapeValue e ++ decode cs
      else c :: decode cs

/-- The number that a list of digits denotes. -/
def natValue (digits : List Char) : Nat :=
  digits.foldl (fun n d => 10 * n + (d.toNat - 48)) 0

/-- The double nearest to the number that a number lexeme denotes. -/
def numberValue (lexeme : List Char) : Float :=
  let places := (lexeme.dropWhile isDigit).drop 1
  Float.ofScientific (natValue (lexeme.takeWhile isDigit ++ places)) true places.length

/-- The kind of a lexeme. -/
def kind : List Char → TokenKind
  | [] => .endOfSource
  | c :: cs =>
      if isQuote c then .string
      else if isDigit c then .number
      else if startsName c then (keyword? (String.ofList (c :: cs))).getD .identifier
      else (symbol? (c :: cs)).getD .endOfSource

/-- The value of a lexeme that denotes one. -/
def literal? : List Char → Option Literal
  | [] => none
  | c :: cs =>
      if isQuote c then some (.string (String.ofList (decode cs.dropLast)))
      else if isDigit c then some (.number (numberValue (c :: cs)))
      else none

/-- The token of a lexeme that stands at a position. -/
def token (p : Position) (lexeme : List Char) : Token :=
  ⟨kind lexeme, String.ofList lexeme, literal? lexeme, p.span (byteLength lexeme)⟩

/-! ### A piece and the rest make up the text -/

theorem stringTail_append {quote : Char} {cs taken rest : List Char}
    (h : stringTail quote cs = some (taken, rest)) : taken ++ rest = cs := by
  fun_induction stringTail quote cs generalizing taken rest with
  | case1 => simp at h
  | case2 cs =>
      obtain ⟨rfl, rfl⟩ := Prod.mk.inj (Option.some.inj h)
      rfl
  | case3 => simp at h
  | case4 e cs _ ih =>
      simp only [Option.map_eq_some_iff, Prod.mk.injEq, Prod.exists] at h
      obtain ⟨t, r, ht, rfl, rfl⟩ := h
      simp [ih ht]
  | case5 c cs _ _ ih =>
      simp only [Option.map_eq_some_iff, Prod.mk.injEq, Prod.exists] at h
      obtain ⟨t, r, ht, rfl, rfl⟩ := h
      simp [ih ht]

theorem commentTail_append {cs taken rest : List Char}
    (h : commentTail cs = some (taken, rest)) : taken ++ rest = cs := by
  induction cs generalizing taken rest with
  | nil => simp [commentTail] at h
  | cons c cs ih =>
      unfold commentTail at h
      split at h
      · obtain ⟨rfl, rfl⟩ := Prod.mk.inj (Option.some.inj h)
        rfl
      · simp only [Option.map_eq_some_iff, Prod.mk.injEq, Prod.exists] at h
        obtain ⟨t, r, ht, rfl, rfl⟩ := h
        simp [ih ht]

theorem decimals_append (cs : List Char) : (decimals cs).1 ++ (decimals cs).2 = cs := by
  unfold decimals
  split
  · split <;> simp [List.takeWhile_append_dropWhile]
  · rfl

theorem symbolPiece_lexeme {c : Char} {cs taken rest : List Char}
    (h : symbolPiece c cs = .lexeme taken rest) : taken ++ rest = c :: cs ∧ taken ≠ [] := by
  unfold symbolPiece at h
  split at h
  · split at h
    · obtain ⟨rfl, rfl⟩ := Piece.lexeme.inj h
      simp
    · split at h
      · obtain ⟨rfl, rfl⟩ := Piece.lexeme.inj h
        simp
      · simp at h
  · split at h
    · obtain ⟨rfl, rfl⟩ := Piece.lexeme.inj h
      simp
    · simp at h

theorem symbolPiece_ne_trivia {c : Char} {cs taken rest : List Char} :
    symbolPiece c cs ≠ .trivia taken rest := by
  unfold symbolPiece
  split
  · split
    · simp
    · split <;> simp
  · split <;> simp

/-- **A lexeme and the rest make up the text**, and a lexeme is not empty. -/
theorem piece_lexeme {c : Char} {cs taken rest : List Char} (h : piece c cs = .lexeme taken rest) :
    taken ++ rest = c :: cs ∧ taken ≠ [] := by
  unfold piece at h
  split at h
  · simp at h
  · split at h
    · split at h
      · rename_i ht
        obtain ⟨rfl, rfl⟩ := Piece.lexeme.inj h
        simp [stringTail_append ht]
      · simp at h
    · split at h
      · obtain ⟨rfl, rfl⟩ := Piece.lexeme.inj h
        simp [decimals_append]
      · split at h
        · obtain ⟨rfl, rfl⟩ := Piece.lexeme.inj h
          simp [List.takeWhile_append_dropWhile]
        · split at h
          · simp at h
          · split at h <;> simp at h
          · exact symbolPiece_lexeme h

/-- **Trivia and the rest make up the text**, and trivia is not empty. -/
theorem piece_trivia {c : Char} {cs taken rest : List Char} (h : piece c cs = .trivia taken rest) :
    taken ++ rest = c :: cs ∧ taken ≠ [] := by
  unfold piece at h
  split at h
  · obtain ⟨rfl, rfl⟩ := Piece.trivia.inj h
    simp
  · split at h
    · split at h <;> simp at h
    · split at h
      · simp at h
      · split at h
        · simp at h
        · split at h
          · obtain ⟨rfl, rfl⟩ := Piece.trivia.inj h
            simp [List.takeWhile_append_dropWhile]
          · split at h
            · rename_i ht
              obtain ⟨rfl, rfl⟩ := Piece.trivia.inj h
              simp [commentTail_append ht]
            · simp at h
          · exact absurd h symbolPiece_ne_trivia

/-- The text behind a lexeme is shorter. -/
theorem length_lt_of_piece_lexeme {c : Char} {cs taken rest : List Char}
    (h : piece c cs = .lexeme taken rest) : rest.length < cs.length + 1 := by
  obtain ⟨happ, hne⟩ := piece_lexeme h
  have hlen := congrArg List.length happ
  have := List.length_pos_iff.2 hne
  simp only [List.length_append, List.length_cons] at hlen
  omega

/-- The text behind trivia is shorter. -/
theorem length_lt_of_piece_trivia {c : Char} {cs taken rest : List Char}
    (h : piece c cs = .trivia taken rest) : rest.length < cs.length + 1 := by
  obtain ⟨happ, hne⟩ := piece_trivia h
  have hlen := congrArg List.length happ
  have := List.length_pos_iff.2 hne
  simp only [List.length_append, List.length_cons] at hlen
  omega

theorem shebang_append (cs : List Char) : (shebang cs).1 ++ (shebang cs).2 = cs := by
  unfold shebang
  split
  · rename_i cs
    split
    · simp
    · rename_i c rest h
      have := List.takeWhile_append_dropWhile (p := (· != '\n')) (l := cs)
      rw [h] at this
      simp [this]
  · rfl

end Scriptlet.Lexeme
