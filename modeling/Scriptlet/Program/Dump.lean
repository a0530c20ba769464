/-
**Programs as JSON.**

Every node becomes an object.  Its members stand in a fixed order: a declaration or expression
begins with its type, a statement with its kind, an expression goes on with its number, and every
node ends with its place.  The labels of routines are not shown.

Main definitions:

* `Scriptlet.Span.json`, `Scriptlet.Constant.json` — the leaves;
* `Scriptlet.Expr.json`, `Scriptlet.Stmt.members`, `Scriptlet.Decl.json`, `Scriptlet.Routine.json` —
  the nodes;
* `Scriptlet.Program.json`, `Scriptlet.Program.dump` — a program, and its indented text.
-/

import Scriptlet.Decimal.Layout
import Scriptlet.Json
import Scriptlet.Program

set_option relaxedAutoImplicit false
set_option autoImplicit false

namespace Scriptlet

/-- A place as JSON. -/
def Span.json (s : Span) : Json :=
  .object [("offset", .nat s.offset), ("len", .nat s.len), ("line", .nat s.line)]

/-- A double as JSON: a number if it is finite, and otherwise `null`. -/
def Json.float (x : Float) : Json :=
  match Decimal.exchangeText? x with
  | some written => .number written
  | none => .null

/-- What JSON has for a part that may be missing. -/
def Json.optional : Option Json → Json
  | some j => j
  | none => .null

/-- A written value as JSON. -/
def Constant.json : Constant → Json
  | .number x => .object [("Number", .float x)]
  | .string s => .object [("String", .string s)]
  | .bool b => .object [("Bool", .bool b)]
  | .nil => .string "Nil"

/-- An expression as JSON: its type, its number, its own members, its place. -/
def Mark.node (mark : Mark) (type : String) (members : List (String × Json)) : Json :=
  .object (("type", .string type) :: ("id", .nat mark.id) :: members ++ [("span", mark.span.json)])

mutual

/-- An expression as JSON. -/
def Expr.json : Expr → Json
  | .constant mark value => mark.node "Literal" [("value", value.json)]
  | .grouping mark inner => mark.node "Grouping" [("expression", inner.json)]
  | .unary mark op operand =>
      mark.node "Unary" [("operator", .string op.name), ("operand", operand.json)]
  | .binary mark left op opSpan right =>
      mark.node "Binary" [("left", left.json), ("operator", .string op.name),
        ("operator_span", opSpan.json), ("right", right.json)]
  | .logical mark left op right =>
      mark.node "Logical" [("left", left.json), ("operator", .string op.name),
        ("right", right.json)]
  | .ternary mark condition question thenBranch elseBranch =>
      mark.node "Ternary" [("condition", condition.json), ("then_branch", thenBranch.json),
        ("else_branch", elseBranch.json), ("question", question.json)]
  | .variable mark name => mark.node "Variable" [("name", .string name)]
  | .assign mark name value =>
      mark.node "Assign" [("name", .string name), ("value", value.json)]
  | .call mark callee arguments paren =>
      mark.node "Call" [("callee", callee.json), ("paren", paren.json),
        ("arguments", .array (Expr.jsons arguments))]
  | .get mark object name =>
      mark.node "Get" [("object", object.json), ("name", .string name)]
  | .set mark object name value =>
      mark.node "Set" [("object", object.json), ("name", .string name), ("value", value.json)]
  | .thisRef mark => mark.node "This" []
  | .superRef mark method => mark.node "Super" [("method", .string method)]
termination_by structural e => e

/-- Expressions as JSON. -/
def Expr.jsons : List Expr → List Json
  | [] => []
  | e :: es => e.json :: Expr.jsons es
termination_by structural es => es

end

/-- The superclass in a class declaration as JSON; it has no type. -/
def Superclass.json (parent : Superclass) : Json :=
  .object [("id", .nat parent.mark.id), ("name", .string parent.name),
    ("span", parent.mark.span.json)]

/-- A parameter as JSON. -/
def Param.json (p : Param) : Json := .object [("name", .string p.name), ("span", p.span.json)]

mutual

/-- A routine as JSON. -/
def Routine.json : Routine → Json
  | .mk _ name params body span =>
      .object [("name", .string name), ("params", .array (params.map Param.json)),
        ("body", .array (Decl.jsons body)), ("span", span.json)]
termination_by structural r => r

/-- Routines as JSON. -/
def Routine.jsons : List Routine → List Json
  | [] => []
  | r :: rs => r.json :: Routine.jsons rs
termination_by structural rs => rs

/-- A declaration as JSON.  A statement that stands as a declaration has both a type and a kind. -/
def Decl.json : Decl → Json
  | .classDecl name nameSpan superclass methods span =>
      .object [("type", .string "Class"), ("name", .string name), ("name_span", nameSpan.json),
        ("superclass", .optional (superclass.map Superclass.json)),
        ("methods", .array (Routine.jsons methods)), ("span", span.json)]
  | .funDecl routine span =>
      .object [("type", .string "Fun"), ("function", routine.json), ("span", span.json)]
  | .varDecl name nameSpan initializer span =>
      .object [("type", .string "Var"), ("name", .string name), ("name_span", nameSpan.json),
        ("initializer", .optional (initializer.map Expr.json)), ("span", span.json)]
  | .statement stmt => .object (("type", .string "Statement") :: stmt.members)
termination_by structural d => d

/-- Declarations as JSON. -/
def Decl.jsons : List Decl → List Json
  | [] => []
  | d :: ds => d.json :: Decl.jsons ds
termination_by structural ds => ds

/-- The members of a statement, its kind first. -/
def Stmt.members : Stmt → List (String × Json)
  | .expression e span =>
      [("kind", .string "Expression"), ("expression", e.json), ("span", span.json)]
  | .print e span => [("kind", .string "Print"), ("expression", e.json), ("span", span.json)]
  | .ret keyword value span =>
      [("kind", .string "Return"), ("keyword", keyword.json),
        ("value", .optional (value.map Expr.json)), ("span", span.json)]
  | .block body span =>
      [("kind", .string "Block"), ("declarations", .array (Decl.jsons body)), ("span", span.json)]
  | .ifElse condition thenBranch none span =>
      [("kind", .string "If"), ("condition", condition.json),
        ("then_branch", .object thenBranch.members), ("else_branch", .null), ("span", span.json)]
  | .ifElse condition thenBranch (some elseBranch) span =>
      [("kind", .string "If"), ("condition", condition.json),
        ("then_branch", .object thenBranch.members), ("else_branch", .object elseBranch.members),
        ("span", span.json)]
  | .whileLoop condition body span =>
      [("kind", .string "While"), ("condition", condition.json), ("body", .object body.members),
        ("span", span.json)]
termination_by structural s => s

end

namespace Program

/-- A program as JSON. -/
def json (p : Program) : Json := .object [("declarations", .array (Decl.jsons p.declarations))]

/-- The indented text of a program as JSON. -/
def dump (p : Program) : String := p.json.text

end Program

end Scriptlet
