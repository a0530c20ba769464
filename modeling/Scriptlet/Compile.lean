/-
**From a source to a resolved program.**

A source is scanned, its tokens are parsed, and the names of the program are resolved.  A stage
that fails ends the compilation with all the errors it found.

Main definitions:

* `Scriptlet.CompileError` — an error of one of the three stages;
* `Scriptlet.CompileError.message`, `Scriptlet.CompileError.span`, `Scriptlet.CompileError.text`,
  `Scriptlet.CompileError.summary` — its wording, its place, the line that reports it, and the line
  that counts several;
* `Scriptlet.Program.ofSource` — the program of a source, its names not resolved;
* `Scriptlet.Compiled`, `Scriptlet.compile` — a program with its resolutions.
-/

import Scriptlet.Program.Parse
import Scriptlet.Scope
import Scriptlet.Token.Scan

set_option relaxedAutoImplicit false
set_option autoImplicit false

namespace Scriptlet

/-! ### Errors -/

/-- An error that keeps a source from being run. -/
inductive CompileError
  /-- The source cannot be cut into tokens. -/
  | scan (error : ScanError)
  /-- The tokens are no program. -/
  | parse (error : SyntaxError)
  /-- A name of the program is at fault. -/
  | resolve (error : ScopeError)
deriving DecidableEq

namespace CompileError

/-- The name of the stage that found an error. -/
def stage : CompileError → String
  | .scan _ => "scan"
  | .parse _ => "syntax"
  | .resolve _ => "resolve"

/-- The code under which the errors of a stage are known. -/
def code (e : CompileError) : String := "tl::" ++ e.stage

/-- The wording of an error. -/
def message : CompileError → String
  | .scan e => e.fault.message
  | .parse e => e.fault.message
  | .resolve e => e.message

/-- The place of an error. -/
def span : CompileError → Span
  | .scan e => e.span
  | .parse e => e.span
  | .resolve e => e.span

/-- What an error is about, between the line and the wording of its report. -/
def subject : CompileError → String
  | .scan _ => "scan error"
  | .parse e => "syntax error at " ++ e.location
  | .resolve e => "resolution error at '" ++ e.name ++ "'"

/-- The report of an error. -/
def text (e : CompileError) : String :=
  "[line " ++ toString e.span.line ++ "] " ++ e.subject ++ ": " ++ e.message

/-- How many errors keep a source from being run, in words. -/
def summary (errors : List CompileError) : String :=
  toString errors.length ++ " compile error(s)"

end CompileError

/-! ### Stages -/

/-- The program of a source, its names not resolved, and the numbers still free. -/
def Program.ofSource [W : Counter] (source : String) (supply : Supply) :
    Except (List CompileError) Program × Supply :=
  match scan source with
  | .error errors => (.error (errors.map .scan), supply)
  | .ok tokens =>
      match Program.parse tokens supply with
      | (.ok program, supply) => (.ok program, supply)
      | (.error errors, supply) => (.error (errors.map .parse), supply)

/-- A program with the resolutions of its names. -/
structure Compiled where
  /-- The program. -/
  program : Program
  /-- Its resolutions, in the order of the program. -/
  resolutions : List Resolution

/-- A program with its resolutions, if its names are in order. -/
def Program.compile (p : Program) : Except (List CompileError) Compiled :=
  match p.resolve with
  | .ok resolutions => .ok ⟨p, resolutions⟩
  | .error errors => .error (errors.map .resolve)

/-- **A source, compiled**, and the numbers still free. -/
def compile (source : String) (supply : Supply) : Except (List CompileError) Compiled × Supply :=
  match Program.ofSource source supply with
  | (.ok program, supply) => (program.compile, supply)
  | (.error errors, supply) => (.error errors, supply)

end Scriptlet
