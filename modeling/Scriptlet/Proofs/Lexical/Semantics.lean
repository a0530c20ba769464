/-
**Lexical scoping: programs run without resolutions.**

Here names are looked up by name and nothing is resolved.  A *location* is a frame that holds one
name.  Every execution of a local declaration — of a variable, a function, a class or a parameter —
makes a fresh location, and the environment of a place is the list of the locations of the local
declarations in force, the newest first, followed by the table of the globals.  A function or method
captures the environment of its declaration, which says for each name where it lives.  Later
declarations are put in front of that list and never into it, so nothing that is declared later
changes the meaning of a captured name.

A location is there before the initialiser of its variable, the closure of its function or the
methods of its class are evaluated.  A block and a call have no frame of their own; they end by
forgetting the locations made in them.  Outside blocks and routines a declaration binds its name in
the table of the globals.

Everything else is as in `Scriptlet.evaluate` and `Scriptlet.execute`, and the fuel is spent in the
same way.

Main definitions:

* `Scriptlet.Store.allot` — a fresh location;
* `Scriptlet.Lexical.lookUp`, `Scriptlet.Lexical.assign` — names, looked up by name;
* `Scriptlet.Lexical.evaluate`, `Scriptlet.Lexical.call`, `Scriptlet.Lexical.execute`,
  `Scriptlet.Lexical.perform` — expressions, calls, declarations and statements;
* `Scriptlet.Lexical.run` — **a program, run to its end**.
-/

import Scriptlet.Session

set_option relaxedAutoImplicit false
set_option autoImplicit false

namespace Scriptlet

/-- A fresh location for a name, in front of an environment. -/
def Store.allot (s : Store) (e : Environment) (name : String) (v : Value) : Environment × Store :=
  let (inner, s) := s.child e
  (inner, s.define inner name v)

namespace Lexical

open Scriptlet.Action (starve fail require read onStore changeStore emit readClock within framed
  ofExcept define)

/-! ### Names -/

/-- The value of a name. -/
def lookUp (name : String) (span : Span) : Action Value := do
  let found ← read fun m => m.store.get? m.scope name
  require found (.undefinedVariable name) span

/-- Gives a value to a name. -/
def assign (name : String) (v : Value) (span : Span) : Action Unit := do
  let scope ← read (·.scope)
  let assigned ← onStore fun s => s.assign scope name v
  if assigned then pure () else fail (.undefinedVariable name) span

/-- Makes a location for a name, which is in force from here on. -/
def declare (name : String) (v : Value) : Action Unit := fun m =>
  let (scope, store) := m.store.allot m.scope name v
  .done () { m with scope := scope, store := store }

/-- Makes a location for a name if the declaration is local; a global needs none. -/
def announce (isLocal : Bool) (name : String) : Action Unit :=
  if isLocal then declare name .nil else pure ()

/-- Makes a location for each parameter of a routine. -/
def bindArguments : List Param → List Value → Action Unit
  | p :: ps, v :: vs => do
      declare p.name v
      bindArguments ps vs
  | _, _ => pure ()

/-- The method `super.method` of the receiver around. -/
def superMethod (method : String) (span : Span) : Action Value := do
  let parent ← read fun m => m.store.get? m.scope "super"
  let receiver ← read fun m => m.store.get? m.scope "this"
  match parent, receiver with
  | some (.cls parent), some (.object id cls) => do
      let found ← require (parent.findMethod? method) (.undefinedProperty method) span
      let bound ← onStore fun s => s.bind found (.object id cls)
      pure (.closure bound)
  | _, _ => fail .unresolvedSuper span

/-- The class of a class declaration, its superclass looked up. -/
def makeClass (name : String) (superclass : Option Superclass) (methods : List Routine) :
    Action Class := do
  let scope ← read (·.scope)
  match superclass with
  | none => onStore fun s => s.newClass name (Class.methodTable scope methods) none
  | some parent => do
      match ← lookUp parent.name parent.mark.span with
      | .cls ancestor => do
          let inner ← onStore fun s => s.allot scope "super" (.cls ancestor)
          onStore fun s => s.newClass name (Class.methodTable inner methods) (some ancestor)
      | _ => fail .superclassNotClass parent.mark.span

/-! ### Expressions, calls, declarations and statements -/

mutual

/-- The value of an expression. -/
def evaluate (clock : Nat → Float) : Nat → Expr → Action Value
  | 0, _ => starve
  | _ + 1, .constant _ value => pure value.value
  | fuel + 1, .grouping _ inner => evaluate clock fuel inner
  | fuel + 1, .unary mark op operand => do
      let v ← evaluate clock fuel operand
      ofExcept (op.apply v) mark.span
  | fuel + 1, .binary _ left op opSpan right => do
      let v ← evaluate clock fuel left
      let w ← evaluate clock fuel right
      ofExcept (op.apply v w) opSpan
  | fuel + 1, .logical _ left op right => do
      let v ← evaluate clock fuel left
      if op.decides v then pure v else evaluate clock fuel right
  | fuel + 1, .ternary _ condition question thenBranch elseBranch => do
      let v ← evaluate clock fuel condition
      match ← evaluate clock fuel (if v.isTruthy then thenBranch else elseBranch) with
      | .number x => pure (.number x)
      | _ => fail .operandNotNumber question
  | _ + 1, .variable mark name => lookUp name mark.span
  | fuel + 1, .assign mark name value => do
      let v ← evaluate clock fuel value
      assign name v mark.span
      pure v
  | fuel + 1, .call _ callee arguments paren => do
      let f ← evaluate clock fuel callee
      let vs ← evaluateAll clock fuel arguments
      apply clock fuel f vs paren
  | fuel + 1, .get mark object name => do
      match ← evaluate clock fuel object with
      | .object id cls => do
          let found ← onStore fun s => s.property id cls name
          require found (.undefinedProperty name) mark.span
      | _ => fail .propertyOfNonObject mark.span
  | fuel + 1, .set mark object name value => do
      match ← evaluate clock fuel object with
      | .object id _ => do
          let v ← evaluate clock fuel value
          changeStore fun s => s.setField id name v
          pure v
      | _ => fail .fieldOfNonObject mark.span
  | _ + 1, .thisRef mark => lookUp "this" mark.span
  | _ + 1, .superRef mark method => superMethod method mark.span

/-- The values of expressions, from left to right. -/
def evaluateAll (clock : Nat → Float) : Nat → List Expr → Action (List Value)
  | 0, _ => starve
  | _ + 1, [] => pure []
  | fuel + 1, e :: es => do
      let v ← evaluate clock fuel e
      let vs ← evaluateAll clock fuel es
      pure (v :: vs)

/-- The value of a call; `site` is its closing parenthesis. -/
def apply (clock : Nat → Float) : Nat → Value → List Value → Span → Action Value
  | 0, _, _, _ => starve
  | _ + 1, .native .clock, arguments, site =>
      if arguments.length = Native.clock.arity then do
        let x ← readClock ⟨∅, clock⟩
        pure (.number x)
      else fail (.wrongArity Native.clock.arity arguments.length) site
  | fuel + 1, .closure f, arguments, site =>
      if arguments.length = f.arity then call clock fuel f arguments site
      else fail (.wrongArity f.arity arguments.length) site
  | fuel + 1, .cls c, arguments, site =>
      if arguments.length = c.arity then do
        let object ← onStore fun s => s.newObject c
        match c.findMethod? "init" with
        | some method => do
            let bound ← onStore fun s => s.bind method object
            let _ ← call clock fuel bound arguments site
            pure object
        | none => pure object
      else fail (.wrongArity c.arity arguments.length) site
  | _ + 1, _, _, site => fail .notCallable site

/-- The value of a call of a closure with as many arguments as it takes. -/
def call (clock : Nat → Float) : Nat → Closure → List Value → Span → Action Value
  | 0, _, _, _ => starve
  | fuel + 1, f, arguments, site => do
      let depth ← read (·.depth)
      if callLimit ≤ depth then
        fail .stackOverflow site
      else
        let completion ← framed (within f.environment do
          bindArguments f.routine.params arguments
          executeAll clock fuel f.routine.body)
        if f.isInitializer then do
          let receiver ← read fun m => m.store.get? f.environment "this"
          require receiver .initializerWithoutReceiver site
        else pure completion.value

/-- Executes a declaration, which is local or global. -/
def execute (clock : Nat → Float) (isLocal : Bool) : Nat → Decl → Action Completion
  | 0, _ => starve
  | fuel + 1, .varDecl name _ initializer _ => do
      announce isLocal name
      let v ← match initializer with
        | some value => evaluate clock fuel value
        | none => pure .nil
      define name v
      pure .normal
  | _ + 1, .funDecl routine _ => do
      announce isLocal routine.name
      let scope ← read (·.scope)
      define routine.name (.closure (.ofFunction routine scope))
      pure .normal
  | _ + 1, .classDecl name _ superclass methods _ => do
      announce isLocal name
      let cls ← makeClass name superclass methods
      define name (.cls cls)
      pure .normal
  | fuel + 1, .statement stmt => perform clock fuel stmt

/-- Executes local declarations up to the first that returns. -/
def executeAll (clock : Nat → Float) : Nat → List Decl → Action Completion
  | 0, _ => starve
  | _ + 1, [] => pure .normal
  | fuel + 1, d :: ds => do
      match ← execute clock true fuel d with
      | .normal => executeAll clock fuel ds
      | .returned v => pure (.returned v)

/-- Executes a statement. -/
def perform (clock : Nat → Float) : Nat → Stmt → Action Completion
  | 0, _ => starve
  | fuel + 1, .expression e _ => do
      let _ ← evaluate clock fuel e
      pure .normal
  | fuel + 1, .print e span => do
      let v ← evaluate clock fuel e
      emit v.text span
      pure .normal
  | _ + 1, .ret _ none _ => pure (.returned .nil)
  | fuel + 1, .ret _ (some value) _ => do
      let v ← evaluate clock fuel value
      pure (.returned v)
  | fuel + 1, .block body _ => do
      let scope ← read (·.scope)
      within scope (executeAll clock fuel body)
  | fuel + 1, .ifElse condition thenBranch elseBranch _ => do
      let v ← evaluate clock fuel condition
      if v.isTruthy then perform clock fuel thenBranch
      else
        match elseBranch with
        | some stmt => perform clock fuel stmt
        | none => pure .normal
  | fuel + 1, .whileLoop condition body span => do
      let v ← evaluate clock fuel condition
      if v.isTruthy then
        match ← perform clock fuel body with
        | .normal => perform clock fuel (.whileLoop condition body span)
        | .returned v => pure (.returned v)
      else pure .normal

end

/-! ### Programs -/

/-- Runs the declarations of a program, up to the first error. -/
def runDeclarations (clock : Nat → Float) (fuel : Nat) : List Decl → Action Unit
  | [] => pure ()
  | d :: ds => do
      match ← execute clock false fuel d with
      | .normal => runDeclarations clock fuel ds
      | .returned _ => fail .returnAtTopLevel d.span

/-- **A program, run to its end** on a machine at the start: how it ends, and what it has printed.
There is no answer if the fuel does not suffice. -/
def run (clock : Nat → Float) (fuel : Nat) (p : Program) (output : Output) :
    Option (Ending × Output) :=
  match runDeclarations clock fuel p.declarations (.initial output) with
  | .done _ m => some (.success, m.output)
  | .failed e m => some (.failed e, m.output)
  | .starved => none

end Lexical

end Scriptlet
