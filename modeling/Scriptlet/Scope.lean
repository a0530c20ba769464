/-
**Scopes: where names live.**

A block, a routine and the body of a class open scopes; outside all of them names are global.  A
reference to a name is resolved to the number of scopes between it and the innermost scope that
has declared the name before, and it stays global if there is none.  Resolution passes through a
program once, from top to bottom, and finds two sorts of things: resolved references and faults.
A program with a fault is rejected; otherwise its resolutions are handed on, each with a word on
whether it stands inside a routine.

A name is declared before its initialiser is read and ready after it, so that a variable cannot be
read in its own initialiser.

Main definitions:

* `Scriptlet.ScopeFault`, `Scriptlet.ScopeError` — what can be wrong with a name, and where;
* `Scriptlet.Resolution`, `Scriptlet.Finding` — a resolved reference, and what resolution finds;
* `Scriptlet.Scope`, `Scriptlet.Context` — the names that are in force at a place of a program;
* `Scriptlet.Expr.findings`, `Scriptlet.Stmt.findings`, `Scriptlet.Decl.findings`,
  `Scriptlet.Routine.findings` — what resolution finds in a node;
* `Scriptlet.Program.resolve` — **the resolutions of a program, or all its faults**.
-/

import Scriptlet.Program

set_option relaxedAutoImplicit false
set_option autoImplicit false

namespace Scriptlet

/-! ### Faults -/

/-- What can be wrong with a name. -/
inductive ScopeFault
  /-- The scope has declared the name already. -/
  | alreadyDeclared
  /-- A variable is read in its own initialiser. -/
  | ownInitializer
  /-- A class is its own superclass. -/
  | ownSuperclass
  /-- `return` stands outside every routine. -/
  | returnOutsideRoutine
  /-- `this` stands outside every class. -/
  | thisOutsideClass
  /-- `super` stands outside every class. -/
  | superOutsideClass
  /-- `super` stands in a class without superclass. -/
  | superWithoutSuperclass
deriving DecidableEq, Repr

/-- A fault, the name it is about, and its place. -/
structure ScopeError where
  /-- What is wrong. -/
  fault : ScopeFault
  /-- The name or word it is about. -/
  name : String
  /-- Where it is wrong. -/
  span : Span
deriving DecidableEq, Repr

/-- The wording of a fault. -/
def ScopeError.message (e : ScopeError) : String :=
  match e.fault with
  | .alreadyDeclared => "already a variable with this name in this scope"
  | .ownInitializer =>
      "can't read local variable '" ++ e.name ++ "': used in its own initializer"
  | .ownSuperclass => "a class can't inherit from itself"
  | .returnOutsideRoutine => "can't return from top-level code"
  | .thisOutsideClass => "can't use 'this' outside of a class"
  | .superOutsideClass => "can't use 'super' outside of a class"
  | .superWithoutSuperclass => "can't use 'super' in a class with no superclass"

/-! ### Findings -/

/-- A reference to a local name. -/
structure Resolution where
  /-- The expression that refers to the name. -/
  id : ExprId
  /-- The number of scopes between the reference and the scope of the name. -/
  distance : Nat
  /-- Whether the reference stands inside a routine. -/
  inRoutine : Bool
deriving DecidableEq, Repr

/-- What resolution finds. -/
inductive Finding
  /-- A reference to a local name. -/
  | resolved (resolution : Resolution)
  /-- A fault. -/
  | faulty (error : ScopeError)
deriving DecidableEq, Repr

namespace Finding

/-- The resolution in a finding. -/
def resolution? : Finding → Option Resolution
  | .resolved r => some r
  | .faulty _ => none

/-- The fault in a finding. -/
def error? : Finding → Option ScopeError
  | .resolved _ => none
  | .faulty e => some e

end Finding

/-! ### Scopes and contexts -/

/-- The names that a scope has declared, the newest first, each with a word on whether it is
ready. -/
abbrev Scope := List (String × Bool)

namespace Scope

/-- Whether a scope has declared a name. -/
def declares (s : Scope) (name : String) : Bool := (s.lookup name).isSome

/-- Whether a scope has declared a name that is not ready. -/
def awaits (s : Scope) (name : String) : Bool := s.lookup name == some false

@[simp] theorem declares_nil (name : String) : Scope.declares [] name = false := rfl

@[simp] theorem declares_cons (s : Scope) (x name : String) (ready : Bool) :
    Scope.declares ((x, ready) :: s) name = (name == x || s.declares name) := by
  simp only [declares, List.lookup_cons]
  cases name == x <;> rfl

end Scope

/-- What a place of a program has around it as far as classes go. -/
inductive ClassAround
  /-- No class. -/
  | none
  /-- A class without superclass. -/
  | plain
  /-- A class with a superclass. -/
  | derived
deriving DecidableEq, Repr

/-- What resolution knows at a place of a program. -/
structure Context where
  /-- The open scopes, the innermost first. -/
  scopes : List Scope
  /-- Whether the place is inside a routine. -/
  inRoutine : Bool
  /-- The class around the place. -/
  classAround : ClassAround
  /-- The variable whose initialiser is being read. -/
  initializing : Option String
deriving DecidableEq, Repr

namespace Context

/-- The context at the start of a program. -/
def global : Context := ⟨[], false, .none, none⟩

/-- Enters a name into the innermost scope, if one is open. -/
def enter (ctx : Context) (name : String) (ready : Bool) : Context :=
  match ctx.scopes with
  | [] => ctx
  | s :: ss => { ctx with scopes := ((name, ready) :: s) :: ss }

/-- Declares a name that is not ready yet. -/
def declare (ctx : Context) (name : String) : Context := ctx.enter name false

/-- Declares a name that is ready. -/
def define (ctx : Context) (name : String) : Context := ctx.enter name true

/-- Opens a scope that has declared the given names, all ready. -/
def opening (ctx : Context) (names : List String) : Context :=
  { ctx with scopes := names.map (fun n => (n, true)) :: ctx.scopes }

/-- The fault of declaring a name that the innermost scope has declared already. -/
def clash (ctx : Context) (name : String) (span : Span) : List Finding :=
  match ctx.scopes with
  | [] => []
  | s :: _ => if s.declares name then [.faulty ⟨.alreadyDeclared, name, span⟩] else []

/-- The number of scopes between a place and the innermost scope that has declared a name. -/
def distance? (ctx : Context) (name : String) : Option Nat :=
  ctx.scopes.findIdx? fun s => s.declares name

/-- The resolution of a reference, if the name is local. -/
def resolve (ctx : Context) (id : ExprId) (name : String) : List Finding :=
  match ctx.distance? name with
  | some distance => [.resolved ⟨id, distance, ctx.inRoutine⟩]
  | none => []

/-- Whether reading a name here reads a variable in its own initialiser: the innermost scope awaits
it, or no scope is open and the initialiser is that of the global of this name. -/
def inOwnInitializer (ctx : Context) (name : String) : Bool :=
  match ctx.scopes with
  | s :: _ => s.awaits name
  | [] => ctx.initializing == some name

end Context

/-! ### Expressions -/

mutual

/-- What resolution finds in an expression.  An assignment resolves its value before its own name,
and so does an assignment to a property with its object. -/
def Expr.findings (ctx : Context) : Expr → List Finding
  | .constant _ _ => []
  | .grouping _ inner => inner.findings ctx
  | .unary _ _ operand => operand.findings ctx
  | .binary _ left _ _ right => left.findings ctx ++ right.findings ctx
  | .logical _ left _ right => left.findings ctx ++ right.findings ctx
  | .ternary _ condition _ thenBranch elseBranch =>
      condition.findings ctx ++ thenBranch.findings ctx ++ elseBranch.findings ctx
  | .variable mark name =>
      (if ctx.inOwnInitializer name then [.faulty ⟨.ownInitializer, name, mark.span⟩] else [])
        ++ ctx.resolve mark.id name
  | .assign mark name value => value.findings ctx ++ ctx.resolve mark.id name
  | .call _ callee arguments _ => callee.findings ctx ++ Expr.allFindings ctx arguments
  | .get _ object _ => object.findings ctx
  | .set _ object _ value => value.findings ctx ++ object.findings ctx
  | .thisRef mark =>
      if ctx.classAround = .none then [.faulty ⟨.thisOutsideClass, "this", mark.span⟩]
      else ctx.resolve mark.id "this"
  | .superRef mark _ =>
      match ctx.classAround with
      | .none => [.faulty ⟨.superOutsideClass, "super", mark.span⟩]
      | .plain => [.faulty ⟨.superWithoutSuperclass, "super", mark.span⟩]
      | .derived => ctx.resolve mark.id "super"
termination_by structural e => e

/-- What resolution finds in expressions. -/
def Expr.allFindings (ctx : Context) : List Expr → List Finding
  | [] => []
  | e :: es => e.findings ctx ++ Expr.allFindings ctx es
termination_by structural es => es

end

/-! ### Declarations and statements -/

/-- The faults of the parameters of a routine, whose scope has just been opened. -/
def Param.allFindings (ctx : Context) : List Param → List Finding
  | [] => []
  | p :: ps => ctx.clash p.name p.span ++ Param.allFindings (ctx.define p.name) ps

/-- The context behind a declaration: the name it declares is ready. -/
def Decl.after (ctx : Context) : Decl → Context
  | .classDecl name _ _ _ _ => ctx.define name
  | .funDecl routine _ => ctx.define routine.name
  | .varDecl name _ _ _ => ctx.define name
  | .statement _ => ctx

/-- The context in the body of a class: a scope for `super` if there is a superclass, and in it a
scope for `this`. -/
def Context.inClass (ctx : Context) (superclass : Option Superclass) : Context :=
  match superclass with
  | some _ => { (ctx.opening ["super"]).opening ["this"] with classAround := .derived }
  | none => { ctx.opening ["this"] with classAround := .plain }

/-- The context at the start of the body of a routine: a scope that has declared the parameters. -/
def Context.inRoutineOf (ctx : Context) (params : List Param) : Context :=
  params.foldl (fun ctx p => ctx.define p.name) { ctx.opening [] with inRoutine := true }

/-- What resolution finds in the head of a class declaration. -/
def Superclass.findings (ctx : Context) (className : String) : Option Superclass → List Finding
  | none => []
  | some parent =>
      (if parent.name = className then [.faulty ⟨.ownSuperclass, parent.name, parent.mark.span⟩]
        else [])
        ++ ctx.resolve parent.mark.id parent.name

mutual

/-- What resolution finds in a routine. -/
def Routine.findings (ctx : Context) : Routine → List Finding
  | .mk _ _ params body _ =>
      Param.allFindings { ctx.opening [] with inRoutine := true } params
        ++ Decl.allFindings (ctx.inRoutineOf params) body
termination_by structural r => r

/-- What resolution finds in routines that stand side by side. -/
def Routine.allFindings (ctx : Context) : List Routine → List Finding
  | [] => []
  | r :: rs => r.findings ctx ++ Routine.allFindings ctx rs
termination_by structural rs => rs

/-- What resolution finds in a declaration.  A routine is ready in its own body; a class is
declared in its own body. -/
def Decl.findings (ctx : Context) : Decl → List Finding
  | .classDecl name nameSpan superclass methods _ =>
      ctx.clash name nameSpan
        ++ Superclass.findings (ctx.declare name) name superclass
        ++ Routine.allFindings ((ctx.declare name).inClass superclass) methods
  | .funDecl routine _ =>
      ctx.clash routine.name routine.span ++ routine.findings (ctx.define routine.name)
  | .varDecl name nameSpan none _ => ctx.clash name nameSpan
  | .varDecl name nameSpan (some value) _ =>
      ctx.clash name nameSpan
        ++ value.findings { ctx.declare name with initializing := some name }
  | .statement stmt => stmt.findings ctx
termination_by structural d => d

/-- What resolution finds in declarations that follow one another. -/
def Decl.allFindings (ctx : Context) : List Decl → List Finding
  | [] => []
  | d :: ds => d.findings ctx ++ Decl.allFindings (d.after ctx) ds
termination_by structural ds => ds

/-- What resolution finds in a statement. -/
def Stmt.findings (ctx : Context) : Stmt → List Finding
  | .expression e _ => e.findings ctx
  | .print e _ => e.findings ctx
  | .ret keyword value _ =>
      (if ctx.inRoutine then [] else [.faulty ⟨.returnOutsideRoutine, "return", keyword⟩])
        ++ value.toList.flatMap fun e => e.findings ctx
  | .block body _ => Decl.allFindings (ctx.opening []) body
  | .ifElse condition thenBranch none _ => condition.findings ctx ++ thenBranch.findings ctx
  | .ifElse condition thenBranch (some elseBranch) _ =>
      condition.findings ctx ++ thenBranch.findings ctx ++ elseBranch.findings ctx
  | .whileLoop condition body _ => condition.findings ctx ++ body.findings ctx
termination_by structural s => s

end

/-! ### Programs -/

namespace Program

/-- What resolution finds in a program. -/
def findings (p : Program) : List Finding := Decl.allFindings .global p.declarations

/-- The faults of a program. -/
def scopeErrors (p : Program) : List ScopeError := p.findings.filterMap Finding.error?

/-- The resolved references of a program. -/
def resolutions (p : Program) : List Resolution := p.findings.filterMap Finding.resolution?

/-- **The resolutions of a program, or all its faults.** -/
def resolve (p : Program) : Except (List ScopeError) (List Resolution) :=
  match p.scopeErrors with
  | [] => .ok p.resolutions
  | errors => .error errors

end Program

end Scriptlet
