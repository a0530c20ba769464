/-
**Programs.**

A program is a list of declarations; declarations, statements and expressions are trees.  Every
expression carries a `Mark`: the number that names it, by which the resolution of names refers to
it, and its place in the source.  A function or method is a `Routine`; every routine carries a
label, and two function values come from the same declaration exactly if their labels agree.

A `for` loop has no node of its own: it is a block that holds the initialiser and a `while` loop.

Main definitions:

* `Scriptlet.Mark`, `Scriptlet.Constant`, `Scriptlet.UnaryOp`, `Scriptlet.BinaryOp`,
  `Scriptlet.LogicalOp` — the leaves of the trees;
* `Scriptlet.Expr`, `Scriptlet.Stmt`, `Scriptlet.Decl`, `Scriptlet.Routine`, `Scriptlet.Program` —
  the trees;
* `Scriptlet.Expr.mark`, `Scriptlet.Stmt.span`, `Scriptlet.Decl.span` — the place of a node.
-/

import Scriptlet.Span

set_option relaxedAutoImplicit false
set_option autoImplicit false

namespace Scriptlet

/-! ### Leaves -/

/-- The number that names an expression.  How many numbers there are is a matter of the counter that
gives them away. -/
abbrev ExprId := Nat

/-- The number and the place of an expression. -/
structure Mark where
  /-- The number that names the expression. -/
  id : ExprId
  /-- The place of the expression. -/
  span : Span
deriving DecidableEq, Repr, Inhabited

/-- A value written in a program. -/
inductive Constant
  | number (value : Float)
  | string (value : String)
  | bool (value : Bool)
  | nil
deriving DecidableEq

/-- An operator in front of its operand. -/
inductive UnaryOp
  | negate
  | not
deriving DecidableEq, Repr

/-- An operator between two operands that are both evaluated. -/
inductive BinaryOp
  | add
  | subtract
  | multiply
  | divide
  | equal
  | notEqual
  | less
  | lessEqual
  | greater
  | greaterEqual
deriving DecidableEq, Repr

/-- An operator whose left operand may decide alone. -/
inductive LogicalOp
  | and
  | or
deriving DecidableEq, Repr

/-- The symbol of an operator. -/
def UnaryOp.symbol : UnaryOp → String
  | .negate => "-"
  | .not => "!"

/-- The name under which an operator is listed. -/
def UnaryOp.name : UnaryOp → String
  | .negate => "Negate"
  | .not => "Not"

/-- The symbol of an operator. -/
def BinaryOp.symbol : BinaryOp → String
  | .add => "+"
  | .subtract => "-"
  | .multiply => "*"
  | .divide => "/"
  | .equal => "=="
  | .notEqual => "!="
  | .less => "<"
  | .lessEqual => "<="
  | .greater => ">"
  | .greaterEqual => ">="

/-- The name under which an operator is listed. -/
def BinaryOp.name : BinaryOp → String
  | .add => "Add"
  | .subtract => "Subtract"
  | .multiply => "Multiply"
  | .divide => "Divide"
  | .equal => "Equal"
  | .notEqual => "NotEqual"
  | .less => "Less"
  | .lessEqual => "LessEqual"
  | .greater => "Greater"
  | .greaterEqual => "GreaterEqual"

/-- The symbol of an operator. -/
def LogicalOp.symbol : LogicalOp → String
  | .and => "and"
  | .or => "or"

/-- The name under which an operator is listed. -/
def LogicalOp.name : LogicalOp → String
  | .and => "And"
  | .or => "Or"

/-! ### Expressions -/

/-- An expression. -/
inductive Expr
  /-- A literal or a literal word. -/
  | constant (mark : Mark) (value : Constant)
  /-- An expression in parentheses. -/
  | grouping (mark : Mark) (inner : Expr)
  /-- An operator and its operand. -/
  | unary (mark : Mark) (op : UnaryOp) (operand : Expr)
  /-- Two operands and the operator between them. -/
  | binary (mark : Mark) (left : Expr) (op : BinaryOp) (opSpan : Span) (right : Expr)
  /-- Two operands, the second of which may be skipped. -/
  | logical (mark : Mark) (left : Expr) (op : LogicalOp) (right : Expr)
  /-- A condition and the two expressions it chooses from. -/
  | ternary (mark : Mark) (condition : Expr) (question : Span) (thenBranch elseBranch : Expr)
  /-- The value of a variable. -/
  | variable (mark : Mark) (name : String)
  /-- A variable and the value it gets. -/
  | assign (mark : Mark) (name : String) (value : Expr)
  /-- A callee and its arguments, with the place of the closing parenthesis. -/
  | call (mark : Mark) (callee : Expr) (arguments : List Expr) (paren : Span)
  /-- A property of an object. -/
  | get (mark : Mark) (object : Expr) (name : String)
  /-- A field of an object and the value it gets. -/
  | set (mark : Mark) (object : Expr) (name : String) (value : Expr)
  /-- The receiver of the method around. -/
  | thisRef (mark : Mark)
  /-- A method of the superclass. -/
  | superRef (mark : Mark) (method : String)
deriving Inhabited

namespace Expr

/-- The number and the place of an expression. -/
def mark : Expr → Mark
  | .constant m _ | .grouping m _ | .unary m _ _ | .binary m _ _ _ _ | .logical m _ _ _
  | .ternary m _ _ _ _ | .variable m _ | .assign m _ _ | .call m _ _ _ | .get m _ _ | .set m _ _ _
  | .thisRef m | .superRef m _ => m

/-- The place of an expression. -/
def span (e : Expr) : Span := e.mark.span

end Expr

/-! ### Declarations and statements -/

/-- The name of the superclass in a class declaration. -/
structure Superclass where
  /-- The number and the place of the name. -/
  mark : Mark
  /-- The name. -/
  name : String
deriving DecidableEq, Repr

/-- A parameter of a function. -/
structure Param where
  /-- The name of the parameter. -/
  name : String
  /-- The place of the name. -/
  span : Span
deriving DecidableEq, Repr

mutual

/-- A routine: a function or a method. -/
inductive Routine
  /-- A label, a name, parameters, the declarations of the body, and a place. -/
  | mk (label : Nat) (name : String) (params : List Param) (body : List Decl) (span : Span)

/-- A declaration. -/
inductive Decl
  /-- A class with its methods. -/
  | classDecl (name : String) (nameSpan : Span) (superclass : Option Superclass)
      (methods : List Routine) (span : Span)
  /-- A function. -/
  | funDecl (routine : Routine) (span : Span)
  /-- A variable, perhaps with an initialiser. -/
  | varDecl (name : String) (nameSpan : Span) (initializer : Option Expr) (span : Span)
  /-- A statement. -/
  | statement (stmt : Stmt)

/-- A statement. -/
inductive Stmt
  /-- An expression, evaluated for its effect. -/
  | expression (expr : Expr) (span : Span)
  /-- An expression whose value is printed. -/
  | print (expr : Expr) (span : Span)
  /-- The end of a call, perhaps with a value, and the place of the keyword. -/
  | ret (keyword : Span) (value : Option Expr) (span : Span)
  /-- Declarations with a scope of their own. -/
  | block (body : List Decl) (span : Span)
  /-- A choice between two statements. -/
  | ifElse (condition : Expr) (thenBranch : Stmt) (elseBranch : Option Stmt) (span : Span)
  /-- A statement that is repeated while a condition holds. -/
  | whileLoop (condition : Expr) (body : Stmt) (span : Span)

end

instance : Inhabited Stmt := ⟨.block [] default⟩

instance : Inhabited Decl := ⟨.statement default⟩

instance : Inhabited Routine := ⟨.mk 0 "" [] [] default⟩

namespace Routine

/-- The label of a function. -/
def label : Routine → Nat
  | .mk label _ _ _ _ => label

/-- The name of a function. -/
def name : Routine → String
  | .mk _ name _ _ _ => name

/-- The parameters of a function. -/
def params : Routine → List Param
  | .mk _ _ params _ _ => params

/-- The body of a function. -/
def body : Routine → List Decl
  | .mk _ _ _ body _ => body

/-- The place of a function, from its name to the end of its body. -/
def span : Routine → Span
  | .mk _ _ _ _ span => span

/-- The number of arguments a function takes. -/
def arity (f : Routine) : Nat := f.params.length

end Routine

/-- The place of a statement. -/
def Stmt.span : Stmt → Span
  | .expression _ s | .print _ s | .ret _ _ s | .block _ s | .ifElse _ _ _ s
  | .whileLoop _ _ s => s

/-- The place of a declaration. -/
def Decl.span : Decl → Span
  | .classDecl _ _ _ _ s | .funDecl _ s | .varDecl _ _ _ s => s
  | .statement stmt => stmt.span

/-- A program. -/
structure Program where
  /-- The declarations of the program, in order. -/
  declarations : List Decl
deriving Inhabited

end Scriptlet
