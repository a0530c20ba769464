/-
**The program.**

Reads files and lines, asks the clock for the time, and prints.  Everything else is decided by
`Scriptlet.Command` and `Scriptlet.Console`.

Main definitions:

* `Scriptlet.Command.readSource` — the text of a file;
* `Scriptlet.Command.converse` — the console, up to the end of the input;
* `main` — the program.
-/

import Scriptlet.Command
import Std.Time.DateTime

set_option relaxedAutoImplicit false
set_option autoImplicit false

namespace Scriptlet.Command

/-- The seconds since the epoch. -/
def now : IO Float := do
  let stamp ← Std.Time.Timestamp.now
  pure (Float.ofInt stamp.toNanosecondsSinceUnixEpoch.val / 1000000000)

/-- The clock of a run that begins now: each reading is a microsecond later than the one before. -/
def clockFrom (start : Float) (reading : Nat) : Float :=
  start + Float.ofNat reading / 1000000

/-- The text of a file. -/
def readSource (file : String) : IO (Except ReadFailure String) := do
  try
    let bytes ← IO.FS.readBinFile file
    pure (textOfBytes bytes)
  catch
    | .noFileOrDirectory .. => pure (.error .notFound)
    | .inappropriateType _ 21 _ => pure (.error .isDirectory)
    | .inappropriateType _ 20 _ => pure (.error .notDirectory)
    | e => pure (.error (.other (toString e)))

/-- Prints the lines of a report. -/
def report (lines : List String) : IO Unit := do
  for line in lines do
    IO.eprintln line

/-- The console: runs line after line, up to the end of the input. -/
partial def converse (s : Session) : IO Unit := do
  let line ← (← IO.getStdin).getLine
  if line.isEmpty then
    pure ()
  else
    match Console.answer ampleFuel line s with
    | some (answer, s) => do
        IO.print answer.stdout
        report answer.reports
        converse s
    | none => pure ()

/-- Shows a result and answers with its exit status. -/
def finish (result : Result) : IO UInt32 := do
  IO.print result.stdout
  report result.reports
  pure (UInt32.ofNat result.status.code)

/-- Does what the options ask for. -/
def act (o : Options) : IO UInt32 := do
  let start ← now
  match o.file with
  | none => do
      converse (Session.start (.lines #[]) (clockFrom start))
      pure 0
  | some file => do
      match ← readSource file with
      | .error failure => finish (unreadable file failure)
      | .ok source =>
          match runSource ampleFuel (clockFrom start) o source with
          | some result => finish result
          | none => pure 1

end Scriptlet.Command

open Scriptlet.Command in
/-- Runs the command. -/
def main (args : List String) : IO UInt32 :=
  match parse args with
  | .act options => act options
  | .version => finish ⟨.success, versionText, []⟩
  | .help => finish ⟨.success, helpText, []⟩
  | .misuse => finish ⟨.misuse, "", ["error: invalid arguments\n\n" ++ helpText]⟩
