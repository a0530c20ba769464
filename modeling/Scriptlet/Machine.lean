/-
**Machines and what they can do.**

A machine holds a store, the environment it is in, the number of calls that are open, and what has
been printed.  An `Action` runs on a machine and ends in one of three ways: with a value, with a
runtime error, each on the machine it leaves behind, or without fuel.  Errors leave the machine as
it is at that point, so what was printed and assigned before stays.

Main definitions:

* `Scriptlet.RuntimeFault`, `Scriptlet.RuntimeError` — what can go wrong in a run, and where;
* `Scriptlet.Output`, `Scriptlet.Output.emit` — printed lines, kept as lines or written to a sink
  of limited capacity;
* `Scriptlet.ResolutionMap`, `Scriptlet.Setting` — what a run consults and does not change;
* `Scriptlet.Machine`, `Scriptlet.Machine.initial`, `Scriptlet.Machine.entering` — machines;
* `Scriptlet.Outcome`, `Scriptlet.Action` — runs and their ends;
* `Scriptlet.Action.within`, `Scriptlet.Action.framed` — an action in another environment, and an
  action inside one more call.

Main results:

* `Scriptlet.Action.bind_apply`, `Scriptlet.Action.within_apply`, `Scriptlet.Action.framed_apply` —
  how actions run.
-/

import Scriptlet.Store
import Std.Data.TreeMap

set_option relaxedAutoImplicit false
set_option autoImplicit false

namespace Scriptlet

/-! ### Errors -/

/-- What can go wrong in a run. -/
inductive RuntimeFault
  /-- A global name that is not bound. -/
  | undefinedVariable (name : String)
  /-- A local name that is not bound in the frame at which its resolution points. -/
  | unboundLocal (name : String)
  | undefinedProperty (name : String)
  | propertyOfNonObject
  | fieldOfNonObject
  | operandNotNumber
  | operandsNotNumbers
  | operandsNotAddable
  | divisionByZero
  | notCallable
  | wrongArity (expected got : Nat)
  | superclassNotClass
  | unresolvedSuper
  | initializerWithoutReceiver
  | returnAtTopLevel
  | stackOverflow
  | sinkFull
deriving DecidableEq, Repr

/-- The wording of a fault.  It does not tell global names from local ones. -/
def RuntimeFault.message : RuntimeFault → String
  | .undefinedVariable name | .unboundLocal name => "undefined variable '" ++ name ++ "'"
  | .undefinedProperty name => "undefined property '" ++ name ++ "'"
  | .propertyOfNonObject => "only instances have properties"
  | .fieldOfNonObject => "only instances have fields"
  | .operandNotNumber => "operand must be a number"
  | .operandsNotNumbers => "operands must be numbers"
  | .operandsNotAddable => "operands must be two numbers or two strings"
  | .divisionByZero => "division by zero"
  | .notCallable => "can only call functions and classes"
  | .wrongArity expected got =>
      "expected " ++ toString expected ++ " arguments but got " ++ toString got
  | .superclassNotClass => "superclass must be a class"
  | .unresolvedSuper => "unresolved 'super'"
  | .initializerWithoutReceiver => "initializer has no 'this'"
  | .returnAtTopLevel => "can't return from top-level code"
  | .stackOverflow => "stack overflow"
  | .sinkFull => "failed to write output: sink full"

/-- A fault and its place. -/
structure RuntimeError where
  /-- What went wrong. -/
  fault : RuntimeFault
  /-- Where it went wrong. -/
  span : Span
deriving DecidableEq, Repr

namespace RuntimeError

/-- The wording of an error. -/
def message (e : RuntimeError) : String := e.fault.message

/-- The report of an error: its wording, and its line below. -/
def text (e : RuntimeError) : String := e.message ++ "\n[line " ++ toString e.span.line ++ "]"

end RuntimeError

/-! ### Output -/

/-- What has been printed. -/
inductive Output
  /-- The printed texts, in order. -/
  | lines (printed : Array String)
  /-- The bytes that a sink of limited capacity has taken, as a text. -/
  | sink (capacity : Nat) (written : String)
deriving Inhabited

namespace Output

/-- Writes a piece of text, and tells whether it was taken.  A sink takes a piece in full or not at
all. -/
def write (text : String) (capacity : Nat) (written : String) : Bool × String :=
  if written.utf8ByteSize + text.utf8ByteSize ≤ capacity then (true, written ++ text)
  else (false, written)

/-- Prints a text and tells whether it could be printed.  Lines take every text; to a sink the text
and its line end are written one after the other. -/
def emit (text : String) : Output → Bool × Output
  | .lines printed => (true, .lines (printed.push text))
  | .sink capacity written =>
      match write text capacity written with
      | (false, written) => (false, .sink capacity written)
      | (true, written) =>
          let (taken, written) := write "\n" capacity written
          (taken, .sink capacity written)

/-- The texts printed so far, if they are kept as lines. -/
def toList : Output → List String
  | .lines printed => printed.toList
  | .sink _ _ => []

/-- The text that a sink has taken. -/
def written : Output → String
  | .lines _ => ""
  | .sink _ written => written

end Output

/-! ### Settings -/

/-- How far out the references to local names look. -/
abbrev ResolutionMap := Std.TreeMap ExprId Nat

/-- What a run consults and does not change. -/
structure Setting where
  /-- The distances of the references to local names; the others are global. -/
  distances : ResolutionMap
  /-- The readings of the clock, in seconds, in the order in which they are taken. -/
  clock : Nat → Float

/-! ### Machines -/

/-- The greatest number of calls that can be open at once. -/
def callLimit : Nat := 1000

/-- A machine that runs programs. -/
structure Machine where
  /-- The frames and objects. -/
  store : Store
  /-- The environment of the globals. -/
  globals : Environment
  /-- The environment the machine is in. -/
  scope : Environment
  /-- The number of open calls of functions and initialisers. -/
  depth : Nat
  /-- What has been printed. -/
  output : Output
  /-- The number of clock readings taken. -/
  readings : Nat
deriving Inhabited

namespace Machine

/-- A machine at the start: the native functions are its only globals. -/
def initial (output : Output) : Machine :=
  let (globals, store) := Store.empty.newEnvironment
  let store := Native.all.foldl (fun s f => s.define globals f.name (.native f)) store
  ⟨store, globals, globals, 0, output, 0⟩

/-- A machine in a fresh frame in front of an environment. -/
def entering (m : Machine) (environment : Environment) : Machine :=
  { m with store := (m.store.child environment).2, scope := (m.store.child environment).1 }

end Machine

/-! ### Actions -/

/-- The end of an action. -/
inductive Outcome (α : Type)
  /-- A value, and the machine that is left. -/
  | done (value : α) (machine : Machine)
  /-- A runtime error, and the machine that is left. -/
  | failed (error : RuntimeError) (machine : Machine)
  /-- The fuel ran out. -/
  | starved

/-- What runs on a machine. -/
def Action (α : Type) : Type := Machine → Outcome α

namespace Action

variable {α β : Type}

/-- Leaves the machine as it is and ends with a value. -/
@[inline] protected def pure (a : α) : Action α := fun m => .done a m

/-- Runs one action and goes on with another. -/
@[inline] protected def bind (x : Action α) (f : α → Action β) : Action β := fun m =>
  match x m with
  | .done a m => f a m
  | .failed e m => .failed e m
  | .starved => .starved

instance : Monad Action where
  pure := Action.pure
  bind := Action.bind

@[simp] theorem pure_apply (a : α) (m : Machine) : (pure a : Action α) m = .done a m := rfl

theorem bind_apply (x : Action α) (f : α → Action β) (m : Machine) :
    (x >>= f) m =
      match x m with
      | .done a m => f a m
      | .failed e m => .failed e m
      | .starved => .starved := rfl

/-- The end of an action without fuel. -/
@[inline] def starve : Action α := fun _ => .starved

/-- Ends with a runtime error. -/
@[inline] def fail (fault : RuntimeFault) (span : Span) : Action α := fun m =>
  .failed ⟨fault, span⟩ m

/-- Ends with a value, or with a runtime error if there is none. -/
@[inline] def require (value : Option α) (fault : RuntimeFault) (span : Span) : Action α :=
  match value with
  | some a => pure a
  | none => fail fault span

/-- Reads something off the machine. -/
@[inline] def read (f : Machine → α) : Action α := fun m => .done (f m) m

/-- Changes the store and ends with what the change answers. -/
@[inline] def onStore (f : Store → α × Store) : Action α := fun m =>
  let (a, store) := f m.store
  .done a { m with store := store }

/-- Changes the store. -/
@[inline] def changeStore (f : Store → Store) : Action Unit := fun m =>
  .done () { m with store := f m.store }

/-- Prints a text; the place is that of the error if it cannot be printed. -/
def emit (text : String) (span : Span) : Action Unit := fun m =>
  match m.output.emit text with
  | (true, output) => .done () { m with output := output }
  | (false, output) => .failed ⟨.sinkFull, span⟩ { m with output := output }

/-- The next reading of the clock. -/
def readClock (setting : Setting) : Action Float := fun m =>
  .done (setting.clock m.readings) { m with readings := m.readings + 1 }

/-- **An action in another environment.**  The machine returns to its own environment however the
action ends. -/
@[inline] def within (environment : Environment) (x : Action α) : Action α := fun m =>
  let outer := m.scope
  match x { m with scope := environment } with
  | .done a m => .done a { m with scope := outer }
  | .failed e m => .failed e { m with scope := outer }
  | .starved => .starved

/-- **An action inside one more call.**  The call is closed however the action ends. -/
@[inline] def framed (x : Action α) : Action α := fun m =>
  match x { m with depth := m.depth + 1 } with
  | .done a m => .done a { m with depth := m.depth - 1 }
  | .failed e m => .failed e { m with depth := m.depth - 1 }
  | .starved => .starved

theorem within_apply (environment : Environment) (x : Action α) (m : Machine) :
    within environment x m =
      match x { m with scope := environment } with
      | .done a m' => .done a { m' with scope := m.scope }
      | .failed e m' => .failed e { m' with scope := m.scope }
      | .starved => .starved := rfl

theorem framed_apply (x : Action α) (m : Machine) :
    framed x m =
      match x { m with depth := m.depth + 1 } with
      | .done a m' => .done a { m' with depth := m'.depth - 1 }
      | .failed e m' => .failed e { m' with depth := m'.depth - 1 }
      | .starved => .starved := rfl

end Action

end Scriptlet
