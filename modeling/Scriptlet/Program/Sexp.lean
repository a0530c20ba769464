/-
**Programs as nested lists.**

A program is listed with one line for each declaration.  A node is written between parentheses, an
operator or a word first and its parts behind it; names, numbers and literal words stand alone, and
a string stands between quotes as it is, without escapes.

Main definitions:

* `Scriptlet.Constant.sexp`, `Scriptlet.Expr.sexp`, `Scriptlet.Stmt.sexp`, `Scriptlet.Decl.sexp`,
  `Scriptlet.Routine.sexp` — the text of a node;
* `Scriptlet.Program.sexp` — the lines of a program.
-/

import Scriptlet.Decimal.Layout
import Scriptlet.Program

set_option relaxedAutoImplicit false
set_option autoImplicit false

namespace Scriptlet

/-- Parts in parentheses, a blank between each two. -/
def inParens (parts : List String) : String := "(" ++ " ".intercalate parts ++ ")"

/-- The text of a written value. -/
def Constant.sexp : Constant → String
  | .number x => Decimal.plainText x
  | .string s => "\"" ++ s ++ "\""
  | .bool true => "true"
  | .bool false => "false"
  | .nil => "nil"

mutual

/-- The text of an expression. -/
def Expr.sexp : Expr → String
  | .constant _ value => value.sexp
  | .grouping _ inner => inParens ["group", inner.sexp]
  | .unary _ op operand => inParens [op.symbol, operand.sexp]
  | .binary _ left op _ right => inParens [op.symbol, left.sexp, right.sexp]
  | .logical _ left op right => inParens [op.symbol, left.sexp, right.sexp]
  | .ternary _ condition _ thenBranch elseBranch =>
      inParens ["?:", condition.sexp, thenBranch.sexp, elseBranch.sexp]
  | .variable _ name => name
  | .assign _ name value => inParens ["=", name, value.sexp]
  | .call _ callee arguments _ => inParens ("call" :: callee.sexp :: Expr.sexps arguments)
  | .get _ object name => inParens [".", object.sexp, name]
  | .set _ object name value => inParens [".=", object.sexp, name, value.sexp]
  | .thisRef _ => "this"
  | .superRef _ method => inParens ["super", method]
termination_by structural e => e

/-- The texts of expressions. -/
def Expr.sexps : List Expr → List String
  | [] => []
  | e :: es => e.sexp :: Expr.sexps es
termination_by structural es => es

end

mutual

/-- The text of a routine. -/
def Routine.sexp : Routine → String
  | .mk _ name params body _ =>
      inParens ("fun" :: name :: inParens (params.map (·.name)) :: Decl.sexps body)
termination_by structural r => r

/-- The texts of routines. -/
def Routine.sexps : List Routine → List String
  | [] => []
  | r :: rs => r.sexp :: Routine.sexps rs
termination_by structural rs => rs

/-- The text of a declaration. -/
def Decl.sexp : Decl → String
  | .classDecl name _ superclass methods _ =>
      let parent := match superclass with
        | some parent => ["<", parent.name]
        | none => []
      inParens ("class" :: name :: parent ++ Routine.sexps methods)
  | .funDecl routine _ => routine.sexp
  | .varDecl name _ initializer _ => inParens ("var" :: name :: initializer.toList.map Expr.sexp)
  | .statement stmt => stmt.sexp
termination_by structural d => d

/-- The texts of declarations. -/
def Decl.sexps : List Decl → List String
  | [] => []
  | d :: ds => d.sexp :: Decl.sexps ds
termination_by structural ds => ds

/-- The text of a statement. -/
def Stmt.sexp : Stmt → String
  | .expression e _ => e.sexp
  | .print e _ => inParens ["print", e.sexp]
  | .ret _ value _ => inParens ("return" :: value.toList.map Expr.sexp)
  | .block body _ => inParens ("block" :: Decl.sexps body)
  | .ifElse condition thenBranch none _ => inParens ["if", condition.sexp, thenBranch.sexp]
  | .ifElse condition thenBranch (some elseBranch) _ =>
      inParens ["if", condition.sexp, thenBranch.sexp, elseBranch.sexp]
  | .whileLoop condition body _ => inParens ["while", condition.sexp, body.sexp]
termination_by structural s => s

end

/-- The lines of a program, one for each declaration. -/
def Program.sexp (p : Program) : String :=
  String.join (p.declarations.map fun d => d.sexp ++ "\n")

end Scriptlet
