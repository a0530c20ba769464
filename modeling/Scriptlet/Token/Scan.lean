/-
**Scanning a source.**

The source is cut into pieces from the left.  Lexemes become tokens, trivia is passed over, and a
character that begins nothing is reported and passed over.  A string or a block comment that is
never closed is reported where it opens and ends the scan.  A scan without errors yields the tokens
and one more at the end of the source.

Main definitions:

* `Scriptlet.ScanFault`, `Scriptlet.ScanError` — what can go wrong, and where it did;
* `Scriptlet.scanFrom` — the tokens and errors of the text behind a position;
* `Scriptlet.scan` — the tokens of a source, or all its errors.

Main results:

* `Scriptlet.scanFrom_lexeme`, `Scriptlet.scanFrom_trivia`, … — the scan, one piece at a time.
-/

import Scriptlet.Token.Lexeme

set_option relaxedAutoImplicit false
set_option autoImplicit false

namespace Scriptlet

/-! ### Errors -/

/-- What can go wrong in a scan. -/
inductive ScanFault
  /-- A character begins neither trivia nor a lexeme. -/
  | unexpectedCharacter (c : Char)
  /-- A string is not closed. -/
  | unterminatedString
  /-- A block comment is not closed. -/
  | unterminatedComment
deriving DecidableEq, Repr

namespace ScanFault

/-- The wording of a fault. -/
def message : ScanFault → String
  | .unexpectedCharacter c => "unexpected character '" ++ c.toString ++ "'"
  | .unterminatedString => "unterminated string"
  | .unterminatedComment => "unterminated block comment"

/-- The number of bytes that a report of a fault points at. -/
def reach : ScanFault → Nat
  | .unexpectedCharacter _ => 1
  | .unterminatedString => 1
  | .unterminatedComment => 2

end ScanFault

/-- A fault and its place. -/
structure ScanError where
  /-- What went wrong. -/
  fault : ScanFault
  /-- Where it went wrong. -/
  span : Span
deriving DecidableEq, Repr

/-- The report of a fault found at a position. -/
def ScanFault.found (fault : ScanFault) (p : Position) : ScanError := ⟨fault, p.span fault.reach⟩

/-! ### Scanning -/

/-- The tokens and the errors of a text, each in the order of the source. -/
structure Scanned where
  /-- The tokens. -/
  tokens : List Token
  /-- The errors. -/
  errors : List ScanError
deriving DecidableEq

/-- The tokens and errors of the text behind a position. -/
def scanFrom (p : Position) : List Char → Scanned
  | [] => ⟨[], []⟩
  | c :: cs =>
      match h : Lexeme.piece c cs with
      | .trivia taken rest =>
          have := Lexeme.length_lt_of_piece_trivia h
          scanFrom (p.after taken) rest
      | .lexeme taken rest =>
          have := Lexeme.length_lt_of_piece_lexeme h
          let later := scanFrom (p.after taken) rest
          { later with tokens := Lexeme.token p taken :: later.tokens }
      | .unexpected =>
          let later := scanFrom (p.next c) cs
          { later with errors := (ScanFault.unexpectedCharacter c).found p :: later.errors }
      | .openString => ⟨[], [ScanFault.unterminatedString.found p]⟩
      | .openComment => ⟨[], [ScanFault.unterminatedComment.found p]⟩
termination_by cs => cs.length

/-- The token at the end of a source. -/
def endToken (source : List Char) : Token := .finish ((Position.start.after source).span 0)

/-- **The tokens of a source**, the last at its end, or all the errors of the source. -/
def scan (source : String) : Except (List ScanError) (List Token) :=
  let (line, text) := Lexeme.shebang source.toList
  let scanned := scanFrom (Position.start.after line) text
  match scanned.errors with
  | [] => .ok (scanned.tokens ++ [endToken source.toList])
  | errors => .error errors

/-! ### One piece at a time -/

@[simp] theorem scanFrom_nil (p : Position) : scanFrom p [] = ⟨[], []⟩ := by
  rw [scanFrom]

theorem scanFrom_trivia {p : Position} {c : Char} {cs taken rest : List Char}
    (h : Lexeme.piece c cs = .trivia taken rest) :
    scanFrom p (c :: cs) = scanFrom (p.after taken) rest := by
  rw [scanFrom]
  split <;> simp_all

theorem scanFrom_lexeme {p : Position} {c : Char} {cs taken rest : List Char}
    (h : Lexeme.piece c cs = .lexeme taken rest) :
    scanFrom p (c :: cs) =
      { scanFrom (p.after taken) rest with
        tokens := Lexeme.token p taken :: (scanFrom (p.after taken) rest).tokens } := by
  rw [scanFrom]
  split <;> simp_all

theorem scanFrom_unexpected {p : Position} {c : Char} {cs : List Char}
    (h : Lexeme.piece c cs = .unexpected) :
    scanFrom p (c :: cs) =
      { scanFrom (p.next c) cs with
        errors := (ScanFault.unexpectedCharacter c).found p ::
          (scanFrom (p.next c) cs).errors } := by
  rw [scanFrom]
  split <;> simp_all

theorem scanFrom_openString {p : Position} {c : Char} {cs : List Char}
    (h : Lexeme.piece c cs = .openString) :
    scanFrom p (c :: cs) = ⟨[], [ScanFault.unterminatedString.found p]⟩ := by
  rw [scanFrom]
  split <;> simp_all

theorem scanFrom_openComment {p : Position} {c : Char} {cs : List Char}
    (h : Lexeme.piece c cs = .openComment) :
    scanFrom p (c :: cs) = ⟨[], [ScanFault.unterminatedComment.found p]⟩ := by
  rw [scanFrom]
  split <;> simp_all

end Scriptlet
