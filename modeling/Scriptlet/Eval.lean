/-
**Running programs.**

Expressions are evaluated and declarations and statements executed on a machine, from left to right
and from top to bottom.  A statement completes normally or returns a value, which ends the call
around it.  Fuel bounds the depth of the recursion; loops spend it one unit for each turn.

A local name is looked up as many frames out as its resolution says, a global name in the globals.
Every block and every call makes a fresh frame.  At most `callLimit` calls of functions and
initialisers are open at once.

Main definitions:

* `Scriptlet.UnaryOp.apply`, `Scriptlet.BinaryOp.apply`, `Scriptlet.LogicalOp.decides` — what
  operators do with values;
* `Scriptlet.Completion` — how a statement completes;
* `Scriptlet.Action.lookUp`, `Scriptlet.Action.assign` — names;
* `Scriptlet.evaluate`, `Scriptlet.call`, `Scriptlet.execute`, `Scriptlet.perform` — expressions,
  calls, declarations and statements;
* `Scriptlet.runDeclarations` — the declarations of a program.
-/

import Scriptlet.Machine

set_option relaxedAutoImplicit false
set_option autoImplicit false

namespace Scriptlet

/-! ### Operators -/

/-- What an operator does with its operand. -/
def UnaryOp.apply : UnaryOp → Value → Except RuntimeFault Value
  | .negate, .number x => .ok (.number (-x))
  | .negate, _ => .error .operandNotNumber
  | .not, v => .ok (.bool !v.isTruthy)

/-- The result of an operator on two numbers; anything else is at fault. -/
def onNumbers (f : Float → Float → Value) : Value → Value → Except RuntimeFault Value
  | .number x, .number y => .ok (f x y)
  | _, _ => .error .operandsNotNumbers

/-- What an operator does with its operands.  Numbers add up; strings are joined, and a number
beside a string is joined as its text. -/
def BinaryOp.apply : BinaryOp → Value → Value → Except RuntimeFault Value
  | .add, .number x, .number y => .ok (.number (x + y))
  | .add, .string s, .string t => .ok (.string (s ++ t))
  | .add, .string s, .number y => .ok (.string (s ++ Decimal.plainText y))
  | .add, .number x, .string t => .ok (.string (Decimal.plainText x ++ t))
  | .add, _, _ => .error .operandsNotAddable
  | .subtract, v, w => onNumbers (fun x y => .number (x - y)) v w
  | .multiply, v, w => onNumbers (fun x y => .number (x * y)) v w
  | .divide, .number x, .number y =>
      if y == 0 then .error .divisionByZero else .ok (.number (x / y))
  | .divide, _, _ => .error .operandsNotNumbers
  | .less, v, w => onNumbers (fun x y => .bool (decide (x < y))) v w
  | .lessEqual, v, w => onNumbers (fun x y => .bool (decide (x ≤ y))) v w
  | .greater, v, w => onNumbers (fun x y => .bool (decide (y < x))) v w
  | .greaterEqual, v, w => onNumbers (fun x y => .bool (decide (y ≤ x))) v w
  | .equal, v, w => .ok (.bool (v.same w))
  | .notEqual, v, w => .ok (.bool !v.same w)

/-- Whether the left operand decides alone. -/
def LogicalOp.decides (op : LogicalOp) (left : Value) : Bool :=
  match op with
  | .or => left.isTruthy
  | .and => !left.isTruthy

/-! ### Completions -/

/-- How a statement completes. -/
inductive Completion
  /-- The next statement follows. -/
  | normal
  /-- The call around the statement ends with a value. -/
  | returned (value : Value)

/-- The value of a call whose body has completed. -/
def Completion.value : Completion → Value
  | .normal => .nil
  | .returned v => v

/-! ### Names -/

namespace Action

/-- The result of an operator; a fault is at the given place. -/
@[inline] def ofExcept {α : Type} (result : Except RuntimeFault α) (span : Span) : Action α :=
  match result with
  | .ok a => pure a
  | .error fault => fail fault span

/-- The value of the name that the expression `mark` refers to. -/
def lookUp (setting : Setting) (mark : Mark) (name : String) : Action Value :=
  match setting.distances[mark.id]? with
  | some distance => do
      let found ← read fun m => m.store.getAt? m.scope distance name
      require found (.unboundLocal name) mark.span
  | none => do
      let found ← read fun m => m.store.get? m.globals name
      require found (.undefinedVariable name) mark.span

/-- Gives a value to the name that the expression `mark` refers to. -/
def assign (setting : Setting) (mark : Mark) (name : String) (v : Value) : Action Unit :=
  match setting.distances[mark.id]? with
  | some distance => do
      let scope ← read (·.scope)
      let assigned ← onStore fun s => s.assignAt scope distance name v
      if assigned then pure () else fail (.unboundLocal name) mark.span
  | none => do
      let globals ← read (·.globals)
      let assigned ← onStore fun s => s.assign globals name v
      if assigned then pure () else fail (.undefinedVariable name) mark.span

/-- Binds a name in the innermost frame. -/
def define (name : String) (v : Value) : Action Unit := do
  let scope ← read (·.scope)
  changeStore fun s => s.define scope name v

/-- An action in a fresh frame in front of an environment. -/
def inChildOf {α : Type} (environment : Environment) (x : Action α) : Action α := do
  let inner ← onStore fun s => s.child environment
  within inner x

theorem inChildOf_apply {α : Type} (environment : Environment) (x : Action α) (m : Machine) :
    inChildOf environment x m =
      match x (m.entering environment) with
      | .done a m' => .done a { m' with scope := m.scope }
      | .failed e m' => .failed e { m' with scope := m.scope }
      | .starved => .starved := rfl

/-- Binds the parameters of a routine to the arguments of a call. -/
def bindArguments : List Param → List Value → Action Unit
  | p :: ps, v :: vs => do
      define p.name v
      bindArguments ps vs
  | _, _ => pure ()

/-- The method `super.method` of the receiver around: the receiver lives one frame further in than
the superclass. -/
def superMethod (setting : Setting) (mark : Mark) (method : String) : Action Value := do
  let distance ← require setting.distances[mark.id]? .unresolvedSuper mark.span
  let parent ← read fun m => m.store.getAt? m.scope distance "super"
  let receiver ← read fun m =>
    match distance with
    | 0 => none
    | inner + 1 => m.store.getAt? m.scope inner "this"
  match parent, receiver with
  | some (.cls parent), some (.object id cls) => do
      let found ← require (parent.findMethod? method) (.undefinedProperty method) mark.span
      let bound ← onStore fun s => s.bind found (.object id cls)
      pure (.closure bound)
  | _, _ => fail .unresolvedSuper mark.span

/-- The class of a class declaration, its superclass looked up. -/
def makeClass (setting : Setting) (name : String) (superclass : Option Superclass)
    (methods : List Routine) : Action Class := do
  let scope ← read (·.scope)
  match superclass with
  | none => onStore fun s => s.newClass name (Class.methodTable scope methods) none
  | some parent => do
      match ← lookUp setting parent.mark parent.name with
      | .cls ancestor => do
          let inner ← onStore fun s => s.child scope
          changeStore fun s => s.define inner "super" (.cls ancestor)
          onStore fun s => s.newClass name (Class.methodTable inner methods) (some ancestor)
      | _ => fail .superclassNotClass parent.mark.span

end Action

open Scriptlet.Action

/-! ### Expressions, calls, declarations and statements -/

mutual

/-- The value of an expression. -/
def evaluate (setting : Setting) : Nat → Expr → Action Value
  | 0, _ => starve
  | _ + 1, .constant _ value => pure value.value
  | fuel + 1, .grouping _ inner => evaluate setting fuel inner
  | fuel + 1, .unary mark op operand => do
      let v ← evaluate setting fuel operand
      ofExcept (op.apply v) mark.span
  | fuel + 1, .binary _ left op opSpan right => do
      let v ← evaluate setting fuel left
      let w ← evaluate setting fuel right
      ofExcept (op.apply v w) opSpan
  | fuel + 1, .logical _ left op right => do
      let v ← evaluate setting fuel left
      if op.decides v then pure v else evaluate setting fuel right
  | fuel + 1, .ternary _ condition question thenBranch elseBranch => do
      let v ← evaluate setting fuel condition
      match ← evaluate setting fuel (if v.isTruthy then thenBranch else elseBranch) with
      | .number x => pure (.number x)
      | _ => fail .operandNotNumber question
  | _ + 1, .variable mark name => lookUp setting mark name
  | fuel + 1, .assign mark name value => do
      let v ← evaluate setting fuel value
      assign setting mark name v
      pure v
  | fuel + 1, .call _ callee arguments paren => do
      let f ← evaluate setting fuel callee
      let vs ← evaluateAll setting fuel arguments
      apply setting fuel f vs paren
  | fuel + 1, .get mark object name => do
      match ← evaluate setting fuel object with
      | .object id cls => do
          let found ← onStore fun s => s.property id cls name
          require found (.undefinedProperty name) mark.span
      | _ => fail .propertyOfNonObject mark.span
  | fuel + 1, .set mark object name value => do
      match ← evaluate setting fuel object with
      | .object id _ => do
          let v ← evaluate setting fuel value
          changeStore fun s => s.setField id name v
          pure v
      | _ => fail .fieldOfNonObject mark.span
  | _ + 1, .thisRef mark => lookUp setting mark "this"
  | _ + 1, .superRef mark method => superMethod setting mark method

/-- The values of expressions, from left to right. -/
def evaluateAll (setting : Setting) : Nat → List Expr → Action (List Value)
  | 0, _ => starve
  | _ + 1, [] => pure []
  | fuel + 1, e :: es => do
      let v ← evaluate setting fuel e
      let vs ← evaluateAll setting fuel es
      pure (v :: vs)

/-- The value of a call; `site` is its closing parenthesis. -/
def apply (setting : Setting) : Nat → Value → List Value → Span → Action Value
  | 0, _, _, _ => starve
  | _ + 1, .native .clock, arguments, site =>
      if arguments.length = Native.clock.arity then do
        let x ← readClock setting
        pure (.number x)
      else fail (.wrongArity Native.clock.arity arguments.length) site
  | fuel + 1, .closure f, arguments, site =>
      if arguments.length = f.arity then call setting fuel f arguments site
      else fail (.wrongArity f.arity arguments.length) site
  | fuel + 1, .cls c, arguments, site =>
      if arguments.length = c.arity then do
        let object ← onStore fun s => s.newObject c
        match c.findMethod? "init" with
        | some method => do
            let bound ← onStore fun s => s.bind method object
            let _ ← call setting fuel bound arguments site
            pure object
        | none => pure object
      else fail (.wrongArity c.arity arguments.length) site
  | _ + 1, _, _, site => fail .notCallable site

/-- The value of a call of a closure with as many arguments as it takes. -/
def call (setting : Setting) : Nat → Closure → List Value → Span → Action Value
  | 0, _, _, _ => starve
  | fuel + 1, f, arguments, site => do
      let depth ← read (·.depth)
      if callLimit ≤ depth then
        fail .stackOverflow site
      else
        let completion ← framed (inChildOf f.environment do
          bindArguments f.routine.params arguments
          executeAll setting fuel f.routine.body)
        if f.isInitializer then do
          let receiver ← read fun m => m.store.getAt? f.environment 0 "this"
          require receiver .initializerWithoutReceiver site
        else pure completion.value

/-- Executes a declaration. -/
def execute (setting : Setting) : Nat → Decl → Action Completion
  | 0, _ => starve
  | fuel + 1, .varDecl name _ initializer _ => do
      let v ← match initializer with
        | some value => evaluate setting fuel value
        | none => pure .nil
      define name v
      pure .normal
  | _ + 1, .funDecl routine _ => do
      let scope ← read (·.scope)
      define routine.name (.closure (.ofFunction routine scope))
      pure .normal
  | _ + 1, .classDecl name _ superclass methods _ => do
      let cls ← makeClass setting name superclass methods
      define name (.cls cls)
      pure .normal
  | fuel + 1, .statement stmt => perform setting fuel stmt

/-- Executes declarations up to the first that returns. -/
def executeAll (setting : Setting) : Nat → List Decl → Action Completion
  | 0, _ => starve
  | _ + 1, [] => pure .normal
  | fuel + 1, d :: ds => do
      match ← execute setting fuel d with
      | .normal => executeAll setting fuel ds
      | .returned v => pure (.returned v)

/-- Executes a statement. -/
def perform (setting : Setting) : Nat → Stmt → Action Completion
  | 0, _ => starve
  | fuel + 1, .expression e _ => do
      let _ ← evaluate setting fuel e
      pure .normal
  | fuel + 1, .print e span => do
      let v ← evaluate setting fuel e
      emit v.text span
      pure .normal
  | _ + 1, .ret _ none _ => pure (.returned .nil)
  | fuel + 1, .ret _ (some value) _ => do
      let v ← evaluate setting fuel value
      pure (.returned v)
  | fuel + 1, .block body _ => do
      let scope ← read (·.scope)
      inChildOf scope (executeAll setting fuel body)
  | fuel + 1, .ifElse condition thenBranch elseBranch _ => do
      let v ← evaluate setting fuel condition
      if v.isTruthy then perform setting fuel thenBranch
      else
        match elseBranch with
        | some stmt => perform setting fuel stmt
        | none => pure .normal
  | fuel + 1, .whileLoop condition body span => do
      let v ← evaluate setting fuel condition
      if v.isTruthy then
        match ← perform setting fuel body with
        | .normal => perform setting fuel (.whileLoop condition body span)
        | .returned v => pure (.returned v)
      else pure .normal

end

/-! ### Programs -/

/-- Runs the declarations of a program, up to the first error.  Nothing returns from outside a
routine. -/
def runDeclarations (setting : Setting) (fuel : Nat) : List Decl → Action Unit
  | [] => pure ()
  | d :: ds => do
      match ← execute setting fuel d with
      | .normal => runDeclarations setting fuel ds
      | .returned _ => fail .returnAtTopLevel d.span

end Scriptlet
