/-
**The numbers of a program ascend.**

An expression takes its number when its last part has been read, so its number is larger than all
numbers below it, also where an assignment takes over the parts of the expression on its left, and
where a `for` loop puts its clauses in another order.  No number is taken twice.

Main definitions:

* `Scriptlet.Node.ids`, `Scriptlet.Program.ids` — the numbers in a node and in a program;
* `Scriptlet.Node.Ascending` — a node with a larger number than what it is made of.

Main results:

* `Scriptlet.Node.mem_ids` — the numbers in a node are its own and those in its children;
* `Scriptlet.Phrase.Declarations.ascends` — **the numbers of a phrase ascend**;
* `Scriptlet.Program.ids_of_parse` — **the numbers of a program are all different and ascend**.
-/

import Mathlib.Logic.Basic
import Scriptlet.Proofs.Program.Nodes
import Scriptlet.Proofs.Program.Numbering
import Scriptlet.Proofs.Program.Soundness

set_option relaxedAutoImplicit false
set_option autoImplicit false

namespace Scriptlet

/-! ### The numbers in a node -/

/-- The numbers in a node. -/
def Node.ids : Node → List ExprId
  | .decl d => d.ids
  | .routine r => r.ids
  | .param _ => []
  | .superclass parent => [parent.mark.id]
  | .stmt s => s.ids
  | .expr e => e.ids

@[simp] theorem Node.ids_decl (d : Decl) : (Node.decl d).ids = d.ids := rfl

@[simp] theorem Node.ids_routine (r : Routine) : (Node.routine r).ids = r.ids := rfl

@[simp] theorem Node.ids_param (p : Param) : (Node.param p).ids = [] := rfl

@[simp] theorem Node.ids_superclass (parent : Superclass) :
    (Node.superclass parent).ids = [parent.mark.id] := rfl

@[simp] theorem Node.ids_stmt (s : Stmt) : (Node.stmt s).ids = s.ids := rfl

@[simp] theorem Node.ids_expr (e : Expr) : (Node.expr e).ids = e.ids := rfl

/-- The numbers in a program. -/
def Program.ids (p : Program) : List ExprId := Decl.allIds p.declarations

section Members

variable {i : ExprId}

theorem Expr.mem_allIds {es : List Expr} : i ∈ Expr.allIds es ↔ ∃ e ∈ es, i ∈ e.ids := by
  induction es with
  | nil => simp [Expr.allIds]
  | cons e es ih => simp [Expr.allIds, ih]

theorem Routine.mem_allIds {rs : List Routine} :
    i ∈ Routine.allIds rs ↔ ∃ r ∈ rs, i ∈ r.ids := by
  induction rs with
  | nil => simp [Routine.allIds]
  | cons r rs ih => simp [Routine.allIds, ih]

theorem Decl.mem_allIds {ds : List Decl} : i ∈ Decl.allIds ds ↔ ∃ d ∈ ds, i ∈ d.ids := by
  induction ds with
  | nil => simp [Decl.allIds]
  | cons d ds ih => simp [Decl.allIds, ih]

/-- The numbers in an expression are its own and those in the expressions of which it is made. -/
theorem Expr.mem_ids {e : Expr} : i ∈ e.ids ↔ i = e.mark.id ∨ ∃ c ∈ e.children, i ∈ c.ids := by
  cases e <;> simp [Expr.ids, Expr.mark, Expr.children, Expr.mem_allIds] <;> grind

/-- **The numbers in a node are its own and those in its children.** -/
theorem Node.mem_ids {n : Node} : i ∈ n.ids ↔ n.id? = some i ∨ ∃ c ∈ n.children, i ∈ c.ids := by
  cases n with
  | decl d =>
      cases d with
      | classDecl name nameSpan parent methods span =>
          cases parent <;>
            simp [id?, children, Decl.ids, Superclass.ids, Routine.mem_allIds,
              eq_comm (a := i)]
      | funDecl r span => simp [id?, children, Decl.ids]
      | varDecl name nameSpan initializer span =>
          cases initializer <;> simp [id?, children, Decl.ids]
      | statement s => simp [id?, children, Decl.ids]
  | routine r =>
      obtain ⟨label, name, params, body, span⟩ := r
      simp [id?, children, Routine.ids, Routine.params, Routine.body, Decl.mem_allIds, or_and_right,
        exists_or]
  | param p => simp [id?, children]
  | superclass parent => simp [id?, children, eq_comm]
  | stmt s =>
      cases s with
      | ret keyword value span => cases value <;> simp [id?, children, Stmt.ids]
      | ifElse condition thenBranch elseBranch span =>
          cases elseBranch <;> simp [id?, children, Stmt.ids]
      | _ => simp [id?, children, Stmt.ids, Decl.mem_allIds]
  | expr e =>
      rw [ids_expr, Expr.mem_ids]
      simp [id?, children, eq_comm (a := i)]

/-- The number of a node is in every node above it. -/
theorem Node.Below.id_mem {n m : Node} (h : n.Below m) (hi : m.id? = some i) : i ∈ n.ids := by
  induction h using Relation.ReflTransGen.head_induction_on with
  | refl => exact mem_ids.2 (.inl hi)
  | head hc _ ih => exact mem_ids.2 (.inr ⟨_, hc, ih⟩)

/-- The numbers of the nodes of a program are in it. -/
theorem Program.Contains.id_mem {p : Program} {n : Node} (h : p.Contains n)
    (hi : n.id? = some i) : i ∈ p.ids := by
  obtain ⟨d, hd, hbelow⟩ := h
  exact Decl.mem_allIds.2 ⟨d, hd, hbelow.id_mem hi⟩

end Members

/-! ### Nodes whose numbers ascend -/

/-- A node with a larger number than all that are in what it is made of, if it has a number. -/
def Node.Ascending (n : Node) : Prop :=
  ∀ i, n.id? = some i → ∀ c ∈ n.children, ∀ j ∈ c.ids, j < i

/-- An expression whose numbers ascend and are below a bound. -/
structure Expr.Ascends (e : Expr) (bound : ExprId) : Prop where
  all : (Node.expr e).All Node.Ascending
  lt : ∀ i ∈ e.ids, i < bound

namespace Expr.Ascends

variable {e : Expr} {n n' : ExprId}

theorem mono (h : e.Ascends n) (hn : n ≤ n') : e.Ascends n' :=
  ⟨h.all, fun i hi => Nat.lt_of_lt_of_le (h.lt i hi) hn⟩

/-- An expression that takes the next number when all its parts have been numbered. -/
theorem node (hid : e.mark.id = n) (h : ∀ c ∈ e.children, c.Ascends n) : e.Ascends (n + 1) := by
  refine ⟨Node.all_iff.2 ⟨fun i hi c hc j hj => ?_, fun c hc => ?_⟩, fun i hi => ?_⟩
  · obtain rfl := Option.some.inj hi
    obtain ⟨part, hpart, rfl⟩ := List.mem_map.1 hc
    exact hid ▸ (h part hpart).lt j hj
  · obtain ⟨part, hpart, rfl⟩ := List.mem_map.1 hc
    exact (h part hpart).all
  · rcases Expr.mem_ids.1 hi with rfl | ⟨c, hc, hi⟩
    · exact hid ▸ Nat.lt_succ_self _
    · exact Nat.lt_succ_of_lt ((h c hc).lt i hi)

end Expr.Ascends

/-- A node without a number ascends if its children do. -/
theorem Node.All.of_children {n : Node} (hid : n.id? = none)
    (h : ∀ c ∈ n.children, c.All Node.Ascending) : n.All Node.Ascending := by
  refine all_iff.2 ⟨fun i hi => ?_, h⟩
  rw [hid] at hi
  cases hi

/-! ### Phrases whose numbers ascend -/

/-- The numbers of a phrase of an expression are taken one after the other. -/
theorem Given.expr_le {s s' : Supply} {is : List ExprId} {ls : List Nat} (h : Given s is ls s') :
    s.expr ≤ s'.expr := h.ids.le

theorem join_children (join : Join) (mark : Mark) (left right : Expr) (opSpan : Span) :
    (join.expr mark left opSpan right).children = [left, right] := by
  cases join <;> rfl

theorem join_mark (join : Join) (mark : Mark) (left right : Expr) (opSpan : Span) :
    (join.expr mark left opSpan right).mark = mark := by
  cases join <;> rfl

namespace Phrase

open List (forall_mem_append forall_mem_cons forall_mem_map forall_mem_singleton)

mutual

theorem Expression.ascends {ts : List Token} {s s' : Supply} {e : Expr} :
    Expression ts s e s' → e.Ascends s'.expr
  | .plain h => h.ascends
  | .choice h _ hx _ hy => by
      have hx' := hx.given.expr_le
      have hy' := hy.given.expr_le
      exact .node rfl (forall_mem_cons.2 ⟨h.ascends.mono (Nat.le_trans hx' hy'),
        forall_mem_cons.2 ⟨hx.ascends.mono hy', forall_mem_singleton.2 hy.ascends⟩⟩)

theorem Assignment.ascends {ts : List Token} {s s' : Supply} {e : Expr} :
    Assignment ts s e s' → e.Ascends s'.expr
  | .plain h => h.ascends
  | .name _ _ hv => .node rfl (forall_mem_singleton.2 hv.ascends)
  | .property h _ hv => by
      -- the object is a part of the expression on the left, whose own number is lost
      have hobject := (Node.all_iff.1 h.ascends.all).2 _ (List.mem_singleton.2 rfl)
      refine .node rfl (forall_mem_cons.2 ⟨⟨hobject, fun i hi => ?_⟩,
        forall_mem_singleton.2 hv.ascends⟩)
      exact Nat.lt_of_lt_of_le (h.ascends.lt i (List.mem_append_left _ hi)) hv.given.expr_le

theorem Operand.ascends {level : Option Level} {ts : List Token} {s s' : Supply} {e : Expr} :
    Operand level ts s e s' → e.Ascends s'.expr
  | .level h hj => hj.ascends h.ascends
  | .unary h => h.ascends

theorem Joins.ascends {level : Level} {left : Expr} {ts : List Token} {s s' : Supply}
    {e : Expr} : Joins level left ts s e s' → left.Ascends s.expr → e.Ascends s'.expr
  | .nil, hl => hl
  | .cons _ h hj, hl => by
      refine hj.ascends (.node (congrArg Mark.id (join_mark ..)) ?_)
      rw [join_children]
      exact forall_mem_cons.2 ⟨hl.mono h.given.expr_le, forall_mem_singleton.2 h.ascends⟩

theorem Unary.ascends {ts : List Token} {s s' : Supply} {e : Expr} :
    Unary ts s e s' → e.Ascends s'.expr
  | .operator _ h => .node rfl (forall_mem_singleton.2 h.ascends)
  | .call h hs => hs.ascends h.ascends

theorem Suffixes.ascends {callee : Expr} {ts : List Token} {s s' : Supply} {e : Expr} :
    Suffixes callee ts s e s' → callee.Ascends s.expr → e.Ascends s'.expr
  | .nil, hc => hc
  | .call _ ha _ hs, hc =>
      hs.ascends (.node rfl (forall_mem_cons.2 ⟨hc.mono ha.given.expr_le, ha.ascends⟩))
  | .property _ _ hs, hc => hs.ascends (.node rfl (forall_mem_singleton.2 hc))

theorem ArgumentList.ascends {ts : List Token} {s s' : Supply} {es : List Expr} :
    ArgumentList ts s es s' → ∀ e ∈ es, e.Ascends s'.expr
  | .none => nofun
  | .some h _ => h.ascends

theorem Arguments.ascends {ts : List Token} {s s' : Supply} {es : List Expr} :
    Arguments ts s es s' → ∀ e ∈ es, e.Ascends s'.expr
  | .last h => forall_mem_singleton.2 h.ascends
  | .more h _ hs => forall_mem_cons.2 ⟨h.ascends.mono hs.given.expr_le, hs.ascends⟩

theorem Primary.ascends {ts : List Token} {s s' : Supply} {e : Expr} :
    Primary ts s e s' → e.Ascends s'.expr
  | .constant _ => .node rfl nofun
  | .thisWord _ => .node rfl nofun
  | .superWord _ _ _ => .node rfl nofun
  | .name _ => .node rfl nofun
  | .grouping _ h _ => .node rfl (forall_mem_singleton.2 h.ascends)

end

theorem Parent.ascends {ts : List Token} {s s' : Supply} {parent : Option Superclass} :
    Parent ts s parent s' → ∀ p ∈ parent.toList, (Node.superclass p).All Node.Ascending
  | .none => nofun
  | .some _ _ => forall_mem_singleton.2 (Node.all_iff.2 ⟨nofun, nofun⟩)

theorem Optional.ascends {ts : List Token} {s s' : Supply} {e : Option Expr} :
    Optional ts s e s' → ∀ x ∈ e.toList, (Node.expr x).All Node.Ascending
  | .none => nofun
  | .some h => forall_mem_singleton.2 h.ascends.all

theorem Initializer.ascends {ts : List Token} {s s' : Supply} {e : Option Expr} :
    Initializer ts s e s' → ∀ x ∈ e.toList, (Node.expr x).All Node.Ascending
  | .none => nofun
  | .some _ h => forall_mem_singleton.2 h.ascends.all

theorem Variable.ascends {ts : List Token} {s s' : Supply} {d : Decl} :
    Variable ts s d s' → (Node.decl d).All Node.Ascending
  | .mk _ _ hi _ => .of_children rfl (forall_mem_map.2 hi.ascends)

theorem expression_ascends {e : Expr} (span : Span) (h : (Node.expr e).All Node.Ascending) :
    (Node.decl (.statement (.expression e span))).All Node.Ascending :=
  .of_children rfl (forall_mem_singleton.2 (.of_children rfl (forall_mem_singleton.2 h)))

theorem LoopInitializer.ascends {ts : List Token} {s s' : Supply} {d : Option Decl} :
    LoopInitializer ts s d s' → ∀ x ∈ d.toList, (Node.decl x).All Node.Ascending
  | .none _ => nofun
  | .declaration h => forall_mem_singleton.2 h.ascends
  | .expression h _ => forall_mem_singleton.2 (expression_ascends _ h.ascends.all)

theorem LoopCondition.ascends {ts : List Token} {s s' : Supply} {e : Expr} :
    LoopCondition ts s e s' → (Node.expr e).All Node.Ascending
  | .none _ => Node.all_iff.2 ⟨fun _ _ => nofun, nofun⟩
  | .some h _ => h.ascends.all

/-- The block of a `for` loop has no numbers but those of its parts. -/
theorem forLoop_ascends {initializer : Option Decl} {condition : Expr} {increment : Option Expr}
    {body : Stmt} (span : Span)
    (hinitializer : ∀ d ∈ initializer.toList, (Node.decl d).All Node.Ascending)
    (hcondition : (Node.expr condition).All Node.Ascending)
    (hincrement : ∀ e ∈ increment.toList, (Node.expr e).All Node.Ascending)
    (hbody : (Node.stmt body).All Node.Ascending) :
    (Node.stmt (Parser.forLoop initializer condition increment body span)).All
      Node.Ascending := by
  have hsteps : ∀ c ∈ (increment.toList.map fun e => Decl.statement (.expression e e.span)).map
      Node.decl, c.All Node.Ascending :=
    forall_mem_map.2 (forall_mem_map.2 fun e he => expression_ascends _ (hincrement e he))
  have hround : (Node.stmt (.block (.statement body ::
      increment.toList.map fun e => Decl.statement (.expression e e.span)) span)).All
        Node.Ascending :=
    .of_children rfl
      (forall_mem_cons.2 ⟨.of_children rfl (forall_mem_singleton.2 hbody), hsteps⟩)
  have hloop : (Node.decl (.statement (.whileLoop condition (.block (.statement body ::
      increment.toList.map fun e => Decl.statement (.expression e e.span)) span) span))).All
        Node.Ascending :=
    .of_children rfl (forall_mem_singleton.2 (.of_children rfl
      (forall_mem_cons.2 ⟨hcondition, forall_mem_singleton.2 hround⟩)))
  exact .of_children rfl (forall_mem_map.2 (forall_mem_append.2
    ⟨hinitializer, forall_mem_singleton.2 hloop⟩))

mutual

/-- **The numbers of declarations ascend.** -/
theorem Declarations.ascends {ts : List Token} {s s' : Supply} {ds : List Decl} :
    Declarations ts s ds s' → ∀ d ∈ ds, (Node.decl d).All Node.Ascending
  | .nil => nofun
  | .cons h hs => forall_mem_cons.2 ⟨h.ascends, hs.ascends⟩

theorem Declaration.ascends {ts : List Token} {s s' : Supply} {d : Decl} :
    Declaration ts s d s' → (Node.decl d).All Node.Ascending
  | .classDecl _ _ hp _ hm _ =>
      .of_children rfl (forall_mem_append.2
        ⟨forall_mem_map.2 hp.ascends, forall_mem_map.2 hm.ascends⟩)
  | .funDecl _ h => .of_children rfl (forall_mem_singleton.2 h.ascends)
  | .varDecl h => h.ascends
  | .statement h => .of_children rfl (forall_mem_singleton.2 h.ascends)

theorem Methods.ascends {ts : List Token} {s s' : Supply} {rs : List Routine} :
    Methods ts s rs s' → ∀ r ∈ rs, (Node.routine r).All Node.Ascending
  | .nil => nofun
  | .cons h hs => forall_mem_cons.2 ⟨h.ascends, hs.ascends⟩

theorem Function.ascends {ts : List Token} {s s' : Supply} {r : Routine} :
    Function ts s r s' → (Node.routine r).All Node.Ascending
  | .mk _ _ _ _ hb =>
      .of_children rfl (forall_mem_append.2
        ⟨forall_mem_map.2 fun _ _ => .of_children rfl nofun, forall_mem_map.2 hb.ascends⟩)

theorem Block.ascends {ts : List Token} {s s' : Supply} {body : List Decl} :
    Block ts s body s' → ∀ d ∈ body, (Node.decl d).All Node.Ascending
  | .mk _ h _ => h.ascends

theorem Statement.ascends {dangling : Bool} {ts : List Token} {s s' : Supply} {stmt : Stmt} :
    Statement dangling ts s stmt s' → (Node.stmt stmt).All Node.Ascending
  | .expression h _ => .of_children rfl (forall_mem_singleton.2 h.ascends.all)
  | .print _ h _ => .of_children rfl (forall_mem_singleton.2 h.ascends.all)
  | .ret _ h _ => .of_children rfl (forall_mem_map.2 h.ascends)
  | .block h => .of_children rfl (forall_mem_map.2 h.ascends)
  | .ifThen _ _ h _ ht =>
      .of_children rfl (forall_mem_cons.2 ⟨h.ascends.all, forall_mem_singleton.2 ht.ascends⟩)
  | .ifElse _ _ h _ ht _ he =>
      .of_children rfl (forall_mem_cons.2 ⟨h.ascends.all,
        forall_mem_cons.2 ⟨ht.ascends, forall_mem_singleton.2 he.ascends⟩⟩)
  | .whileLoop _ _ h _ hb =>
      .of_children rfl (forall_mem_cons.2 ⟨h.ascends.all, forall_mem_singleton.2 hb.ascends⟩)
  | .forLoop _ _ hi hcond hincr _ hb =>
      forLoop_ascends _ hi.ascends hcond.ascends hincr.ascends hb.ascends

end

end Phrase

/-! ### Programs -/

/-- **The numbers of a program are all different, and they are those taken by its reading.**  A node
has a larger number than all that are in what it is made of. -/
theorem Program.ids_of_parse {ts : List Token} {s s' : Supply} {p : Program}
    (h : parse ts s = (.ok p, s')) :
    p.ids.Nodup ∧ (∀ i ∈ p.ids, s.expr ≤ i ∧ i < s'.expr) ∧
      ∀ n, p.Contains n → ∀ i, n.id? = some i → ∀ c ∈ n.children, ∀ j ∈ c.ids, j < i := by
  have hphrase := parse_phrase h
  have hids := hphrase.given.ids
  refine ⟨hids.nodup, hids.bounds, fun n hn i hi => ?_⟩
  obtain ⟨d, hd, hbelow⟩ := hn
  exact hphrase.ascends d hd hbelow i hi

end Scriptlet
