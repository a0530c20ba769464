/-
**The nodes of a program.**

Declarations, routines, statements and expressions are the nodes of a program, and so are the
parameters of a routine and the name of a superclass.  The parts of a node are its children, and
what is below a node are its children, their children, and so on.

Besides its own place a node may point at further places in the source: those of a name, of an
operator, of a keyword or of a bracket.

Main definitions:

* `Scriptlet.Node`, `Scriptlet.Node.children` — nodes, and how they are put together;
* `Scriptlet.Node.span`, `Scriptlet.Node.landmarks` — the place of a node, and the further places
  at which it points;
* `Scriptlet.Node.Below`, `Scriptlet.Program.Contains` — the nodes below a node and those of a
  program;
* `Scriptlet.Node.All` — what holds of a node and of everything below it.

Main results:

* `Scriptlet.Node.all_iff` — **what holds of a whole tree holds of its root and of the trees of its
  children**.
-/

import Mathlib.Logic.Relation
import Scriptlet.Program

set_option relaxedAutoImplicit false
set_option autoImplicit false

namespace Scriptlet

/-! ### Nodes and their children -/

/-- A node of a program. -/
inductive Node
  | decl (d : Decl)
  | routine (r : Routine)
  | param (p : Param)
  | superclass (parent : Superclass)
  | stmt (s : Stmt)
  | expr (e : Expr)

/-- The expressions of which an expression is made. -/
def Expr.children : Expr → List Expr
  | .constant _ _ | .variable _ _ | .thisRef _ | .superRef _ _ => []
  | .grouping _ inner => [inner]
  | .unary _ _ operand => [operand]
  | .binary _ left _ _ right => [left, right]
  | .logical _ left _ right => [left, right]
  | .ternary _ condition _ thenBranch elseBranch => [condition, thenBranch, elseBranch]
  | .assign _ _ value => [value]
  | .call _ callee arguments _ => callee :: arguments
  | .get _ object _ => [object]
  | .set _ object _ value => [object, value]

namespace Node

/-- The nodes of which a node is made. -/
def children : Node → List Node
  | .decl (.classDecl _ _ parent methods _) =>
      parent.toList.map .superclass ++ methods.map .routine
  | .decl (.funDecl r _) => [.routine r]
  | .decl (.varDecl _ _ initializer _) => initializer.toList.map .expr
  | .decl (.statement s) => [.stmt s]
  | .routine r => r.params.map .param ++ r.body.map .decl
  | .param _ | .superclass _ => []
  | .stmt (.expression e _) | .stmt (.print e _) => [.expr e]
  | .stmt (.ret _ value _) => value.toList.map .expr
  | .stmt (.block body _) => body.map .decl
  | .stmt (.ifElse condition thenBranch elseBranch _) =>
      .expr condition :: .stmt thenBranch :: elseBranch.toList.map .stmt
  | .stmt (.whileLoop condition body _) => [.expr condition, .stmt body]
  | .expr e => e.children.map .expr

/-- The place of a node. -/
def span : Node → Span
  | .decl d => d.span
  | .routine r => r.span
  | .param p => p.span
  | .superclass parent => parent.mark.span
  | .stmt s => s.span
  | .expr e => e.span

/-- The further places at which a node points: that of a declared name, of the keyword of a return,
of an operator, of the question mark of a choice, of the closing parenthesis of a call. -/
def landmarks : Node → List Span
  | .decl (.classDecl _ nameSpan _ _ _) | .decl (.varDecl _ nameSpan _ _) => [nameSpan]
  | .stmt (.ret keyword _ _) => [keyword]
  | .expr (.binary _ _ _ opSpan _) => [opSpan]
  | .expr (.ternary _ _ question _ _) => [question]
  | .expr (.call _ _ _ paren) => [paren]
  | _ => []

/-- The number of a node that has one. -/
def id? : Node → Option ExprId
  | .superclass parent => some parent.mark.id
  | .expr e => some e.mark.id
  | _ => none

/-! ### What is below a node -/

/-- How one node is below another, or is that node. -/
def Below : Node → Node → Prop := Relation.ReflTransGen fun n c => c ∈ n.children

/-- What holds of a node and of everything below it. -/
def All (P : Node → Prop) (n : Node) : Prop := ∀ ⦃m⦄, n.Below m → P m

section All

variable {P Q : Node → Prop} {n : Node}

/-- **What holds of a whole tree holds of its root and of the trees of its children.** -/
theorem all_iff : n.All P ↔ P n ∧ ∀ c ∈ n.children, c.All P := by
  constructor
  · intro h
    exact ⟨h .refl, fun c hc m hm => h (.head hc hm)⟩
  · rintro ⟨hn, hchildren⟩ m hm
    rcases Relation.ReflTransGen.cases_head hm with rfl | ⟨c, hc, hcm⟩
    · exact hn
    · exact hchildren c hc hcm

theorem All.imp (h : n.All P) (hPQ : ∀ m, P m → Q m) : n.All Q := fun m hm => hPQ m (h hm)

end All

end Node

/-- The nodes of a program. -/
def Program.Contains (p : Program) (n : Node) : Prop := ∃ d ∈ p.declarations, (Node.decl d).Below n

end Scriptlet
