/-
**Interactive lines.**

A line typed at the console is trimmed; a blank line does nothing.  A line that looks like an
expression is run as a statement that prints it, every other line as it stands.

Main definitions:

* `Scriptlet.Console.isBareExpression` — whether a trimmed line looks like an expression;
* `Scriptlet.Console.source?` — the source that is run for a line;
* `Scriptlet.Console.Answer`, `Scriptlet.Console.answer` — what a line prints and what it reports.
-/

import Scriptlet.Session
import Scriptlet.Text.Blank

set_option relaxedAutoImplicit false
set_option autoImplicit false

namespace Scriptlet

/-- The reports of the errors with which a source ended. -/
def Ending.reports : Ending → List String
  | .success => []
  | .rejected errors => errors.map CompileError.text
  | .failed e => [e.text]

namespace Console

/-- The first words of lines that are not expressions. -/
def statementWords : List String :=
  ["var", "fun", "class", "if", "while", "for", "print", "return", "\x7b"]

/-- Whether a trimmed line looks like an expression: it ends in neither a semicolon nor a closing
brace, and its first word begins no statement. -/
def isBareExpression (line : List Char) : Bool :=
  line.getLast? != some ';' && line.getLast? != some '}'
    && !statementWords.contains (String.ofList (Text.firstWord line))

/-- The source that is run for a trimmed line. -/
def sourceOf (line : List Char) : String :=
  if isBareExpression line then "print " ++ String.ofList line ++ ";" else String.ofList line

/-- The source that is run for a line, if the line is not blank. -/
def source? (line : String) : Option String :=
  match Text.trim line.toList with
  | [] => none
  | trimmed => some (sourceOf trimmed)

/-- What a line prints and what it reports. -/
structure Answer where
  /-- The printed texts, in order. -/
  printed : List String
  /-- The reports of its errors. -/
  reports : List String

/-- The text on the standard output: each printed text with a line end. -/
def Answer.stdout (a : Answer) : String := String.join (a.printed.map fun line => line ++ "\n")

/-- Runs a line, and answers with what it printed and reported. -/
def answer (fuel : Nat) (line : String) (s : Session) : Option (Answer × Session) :=
  match source? line with
  | none => some (⟨[], []⟩, s)
  | some source =>
      match s.enter fuel source with
      | some (ending, later) =>
          some (⟨later.printed.drop s.printed.length, ending.reports⟩, later)
      | none => none

end Console

end Scriptlet
