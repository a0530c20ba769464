/-
**Values.**

A value is a number, a string, a truth value, `nil`, a function, a class or an object.  Functions,
classes and objects have an identity: a function is the declaration it comes from together with the
environment it closes over, and a class or an object is known by the number it was made with.

Main definitions:

* `Scriptlet.Environment` — the frames that a place of a running program can see;
* `Scriptlet.Closure`, `Scriptlet.Class`, `Scriptlet.Value` — functions, classes, values;
* `Scriptlet.Class.findMethod?` — the method that a class has under a name, its own or inherited;
* `Scriptlet.Value.isTruthy`, `Scriptlet.Value.same`, `Scriptlet.Value.text` — what a condition
  sees, what `==` compares, and what is printed.

Main results:

* `Scriptlet.Class.findMethod?_derived` — **an own method hides an inherited one**.
-/

import Scriptlet.Bindings
import Scriptlet.Decimal.Layout
import Scriptlet.Program

set_option relaxedAutoImplicit false
set_option autoImplicit false

namespace Scriptlet

/-! ### Functions -/

/-- The number that names a frame. -/
abbrev FrameId := Nat

/-- What a place of a running program can see: a chain of frames, the innermost first. -/
structure Environment where
  /-- The frames of the chain. -/
  chain : List FrameId
deriving DecidableEq, Repr, Inhabited

/-- A function that is part of the language. -/
inductive Native
  /-- The time in seconds. -/
  | clock
deriving DecidableEq, Repr

namespace Native

/-- Every native function. -/
def all : List Native := [.clock]

/-- The name of a native function. -/
def name : Native → String
  | .clock => "clock"

/-- The number of arguments a native function takes. -/
def arity : Native → Nat
  | .clock => 0

end Native

/-- A routine together with the environment it closes over. -/
structure Closure where
  /-- The declaration of the function. -/
  routine : Routine
  /-- The environment in which its body sees the names around it. -/
  environment : Environment
  /-- Whether a call answers with the receiver, whatever the body returns. -/
  isInitializer : Bool

namespace Closure

/-- The closure of a function declaration. -/
def ofFunction (routine : Routine) (environment : Environment) : Closure :=
  ⟨routine, environment, false⟩

/-- The closure of a method declaration; the method `init` initialises. -/
def ofMethod (routine : Routine) (environment : Environment) : Closure :=
  ⟨routine, environment, routine.name == "init"⟩

/-- Whether two closures are the same function: the same declaration over the same environment. -/
def same (f g : Closure) : Bool :=
  f.routine.label == g.routine.label && f.environment == g.environment

/-- The number of arguments a closure takes. -/
def arity (f : Closure) : Nat := f.routine.arity

end Closure

/-! ### Classes -/

/-- A class. -/
inductive Class
  /-- A class without superclass: its number, its name and its methods. -/
  | base (id : Nat) (name : String) (methods : Bindings Closure)
  /-- A class with a superclass. -/
  | derived (id : Nat) (name : String) (methods : Bindings Closure) (parent : Class)

namespace Class

/-- The number a class was made with. -/
def id : Class → Nat
  | .base id _ _ => id
  | .derived id _ _ _ => id

/-- The name of a class. -/
def name : Class → String
  | .base _ name _ => name
  | .derived _ name _ _ => name

/-- The class with the given number, name and methods, and perhaps a superclass. -/
def make (id : Nat) (name : String) (methods : Bindings Closure) : Option Class → Class
  | none => .base id name methods
  | some parent => .derived id name methods parent

/-- The method that a class has under a name: its own, or else that of its superclass. -/
def findMethod? (name : String) : Class → Option Closure
  | .base _ _ methods => methods.get? name
  | .derived _ _ methods parent => (methods.get? name).or (parent.findMethod? name)

/-- The number of arguments a call of a class takes: those of its initialiser, or none. -/
def arity (c : Class) : Nat :=
  match c.findMethod? "init" with
  | some f => f.arity
  | none => 0

@[simp] theorem findMethod?_base (i : Nat) (n name : String) (methods : Bindings Closure) :
    (Class.base i n methods).findMethod? name = methods.get? name := rfl

/-- **An own method hides an inherited one.** -/
@[simp] theorem findMethod?_derived (i : Nat) (n name : String) (methods : Bindings Closure)
    (parent : Class) :
    (Class.derived i n methods parent).findMethod? name =
      (methods.get? name).or (parent.findMethod? name) := rfl

/-- The methods of a class declaration; of two methods of one name the later counts. -/
def methodTable (environment : Environment) (methods : List Routine) : Bindings Closure :=
  methods.foldl (fun table r => table.set r.name (.ofMethod r environment)) ∅

end Class

/-! ### Values -/

/-- The number that names an object. -/
abbrev ObjectId := Nat

/-- A value. -/
inductive Value
  | number (value : Float)
  | string (value : String)
  | bool (value : Bool)
  | nil
  | native (function : Native)
  | closure (function : Closure)
  | cls (cls : Class)
  /-- An object, known by its number, and the class it was made by. -/
  | object (id : ObjectId) (cls : Class)

instance : Inhabited Value := ⟨.nil⟩

/-- The value that a constant stands for. -/
def Constant.value : Constant → Value
  | .number x => .number x
  | .string s => .string s
  | .bool b => .bool b
  | .nil => .nil

namespace Value

/-- Whether a condition holds of a value: `nil`, `false` and zero do not hold. -/
def isTruthy : Value → Bool
  | .nil => false
  | .bool b => b
  | .number x => x != 0
  | _ => true

/-- Whether two values are equal.  Numbers, strings and truth values are compared, functions,
classes and objects are equal if they are the same; values of different types are not equal. -/
def same : Value → Value → Bool
  | .nil, .nil => true
  | .bool a, .bool b => a == b
  | .number x, .number y => x == y
  | .string s, .string t => s == t
  | .native f, .native g => f == g
  | .closure f, .closure g => f.same g
  | .cls c, .cls d => c.id == d.id
  | .object i _, .object j _ => i == j
  | _, _ => false

/-- What is printed for a value. -/
def text : Value → String
  | .number x => Decimal.plainText x
  | .string s => s
  | .bool true => "true"
  | .bool false => "false"
  | .nil => "nil"
  | .native _ => "<native fn>"
  | .closure f => "<fn " ++ f.routine.name ++ ">"
  | .cls c => c.name
  | .object _ c => c.name ++ " instance"

end Value

end Scriptlet
