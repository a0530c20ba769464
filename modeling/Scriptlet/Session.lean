/-
**Sessions.**

A session runs one source after another on one machine.  What a source defines stays, and so do
the resolutions of its names, for its functions may be called later.  A source can be run in two
ways: `run` keeps all its resolutions, and `enter`, the way of an interactive line, keeps only those
inside routines and gives up the others when the run ends.  A source that does not compile runs
nothing, and a runtime error ends a source and leaves the session usable.

Numbers of expressions are never given away twice in a session, whatever fails.

Main definitions:

* `Scriptlet.Session`, `Scriptlet.Session.start` — sessions;
* `Scriptlet.Session.handOver` — the resolutions of a program, handed over before its run;
* `Scriptlet.Session.interpret` — a program, run on the machine of the session;
* `Scriptlet.Ending`, `Scriptlet.Session.run`, `Scriptlet.Session.enter` — a source, run to its end;
* `Scriptlet.ampleFuel` — more fuel than a run that ends will ever spend.
-/

import Scriptlet.Compile
import Scriptlet.Eval

set_option relaxedAutoImplicit false
set_option autoImplicit false

namespace Scriptlet

/-- A machine on which sources run one after another. -/
structure Session where
  /-- The machine. -/
  machine : Machine
  /-- The distances of the references to local names that later runs may need. -/
  distances : ResolutionMap
  /-- The references whose distances are given up at the end of the next run. -/
  pending : List ExprId
  /-- The numbers still free. -/
  supply : Supply
  /-- The readings of the clock. -/
  clock : Nat → Float

/-- How a source ends. -/
inductive Ending
  /-- Without an error. -/
  | success
  /-- It did not compile, and nothing ran. -/
  | rejected (errors : List CompileError)
  /-- With a runtime error. -/
  | failed (error : RuntimeError)
deriving DecidableEq

/-- More fuel than a run that ends in a lifetime will spend. -/
def ampleFuel : Nat := Nat.pow 2 62

namespace Session

/-- A session in which nothing has run. -/
def start (output : Output) (clock : Nat → Float) : Session :=
  ⟨.initial output, ∅, [], .full, clock⟩

/-- What a run of the session consults. -/
def setting (s : Session) : Setting := ⟨s.distances, s.clock⟩

/-! ### Resolutions -/

/-- Takes over one resolution; outside routines it is only kept for the next run. -/
def record (s : Session) (r : Resolution) : Session :=
  { s with
    distances := s.distances.insert r.id r.distance
    pending := if r.inRoutine then s.pending else r.id :: s.pending }

/-- Takes over the resolutions of a program. -/
def recordAll (s : Session) (rs : List Resolution) : Session := rs.foldl record s

/-- Resolves a program and takes over its resolutions; a program at fault hands over nothing. -/
def handOver (s : Session) (p : Program) : Except (List CompileError) Session :=
  match p.compile with
  | .ok compiled => .ok (s.recordAll compiled.resolutions)
  | .error errors => .error errors

/-- Keeps distances for good. -/
def keep (s : Session) (distances : List (ExprId × Nat)) : Session :=
  { s with distances := distances.foldl (fun map d => map.insert d.1 d.2) s.distances }

/-- Gives up the distances that were kept for one run only. -/
def giveUp (s : Session) : Session :=
  { s with distances := s.pending.foldl (fun map id => map.erase id) s.distances, pending := [] }

/-! ### Runs -/

/-- Runs a program; the given distances are kept for good, and those that were handed over are
given up at the end, whatever it is.  There is no answer if the fuel does not suffice. -/
def interpret (fuel : Nat) (p : Program) (distances : List (ExprId × Nat)) (s : Session) :
    Option (Ending × Session) :=
  let s := s.keep distances
  match runDeclarations s.setting fuel p.declarations s.machine with
  | .done _ machine => some (.success, { s with machine := machine }.giveUp)
  | .failed e machine => some (.failed e, { s with machine := machine }.giveUp)
  | .starved => none

/-- Compiles a source with the numbers still free in the session. -/
def compile (source : String) (s : Session) : Except (List CompileError) Compiled × Session :=
  let (compiled, supply) := Scriptlet.compile source s.supply
  (compiled, { s with supply := supply })

/-- **Runs a source** and keeps all its resolutions. -/
def run (fuel : Nat) (source : String) (s : Session) : Option (Ending × Session) :=
  match s.compile source with
  | (.ok c, s) => s.interpret fuel c.program (c.resolutions.map fun r => (r.id, r.distance))
  | (.error errors, s) => some (.rejected errors, s)

/-- **Runs an interactive line**: its resolutions outside routines are given up at the end. -/
def enter (fuel : Nat) (source : String) (s : Session) : Option (Ending × Session) :=
  match s.compile source with
  | (.ok c, s) => (s.recordAll c.resolutions).interpret fuel c.program []
  | (.error errors, s) => some (.rejected errors, s)

/-- The lines printed so far. -/
def printed (s : Session) : List String := s.machine.output.toList

end Session

end Scriptlet
