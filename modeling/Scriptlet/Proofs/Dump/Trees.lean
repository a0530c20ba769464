/-
**Trees as JSON.**

A node says what it is in its first member, and the names of the other members follow from it.  So a
node that is read off its JSON has the constructor that was shown, and the parts of the node are read
off the members: a part that is missing is `null`, which no node is.  Two things are not shown.  The
labels of routines are left out, and doubles without a decimal text are all `null`; the second makes no
difference where all numbers have the positive sign.

Main definitions:

* `Scriptlet.Expr.numbers`, `Scriptlet.Decl.numbers`, `Scriptlet.Stmt.numbers`, … — the numbers that
  are written in a tree;
* `Scriptlet.Relocation.unlabelled` — every routine gets the same label.

Main results:

* `Scriptlet.Expr.eq_of_json`, `Scriptlet.Decl.eq_of_json`, … — **trees with one JSON are equal up to
  labels**;
* `Scriptlet.Program.proper_json` — the JSON of a program repeats no name in an object.
-/

import Scriptlet.Proofs.Dump.Literals
import Scriptlet.Proofs.Dump.Written
import Scriptlet.Proofs.Joined.Relocation

set_option relaxedAutoImplicit false
set_option autoImplicit false

namespace Scriptlet

/-! ### The numbers in a tree -/

/-- The number that a value is. -/
def Constant.numbers : Constant → List Float
  | .number x => [x]
  | _ => []

mutual

/-- The numbers that are written in an expression. -/
def Expr.numbers : Expr → List Float
  | .constant _ value => value.numbers
  | .grouping _ inner => inner.numbers
  | .unary _ _ operand => operand.numbers
  | .binary _ left _ _ right => left.numbers ++ right.numbers
  | .logical _ left _ right => left.numbers ++ right.numbers
  | .ternary _ condition _ thenBranch elseBranch =>
      condition.numbers ++ thenBranch.numbers ++ elseBranch.numbers
  | .variable _ _ => []
  | .assign _ _ value => value.numbers
  | .call _ callee arguments _ => callee.numbers ++ Expr.allNumbers arguments
  | .get _ object _ => object.numbers
  | .set _ object _ value => object.numbers ++ value.numbers
  | .thisRef _ => []
  | .superRef _ _ => []
termination_by structural e => e

/-- The numbers that are written in expressions. -/
def Expr.allNumbers : List Expr → List Float
  | [] => []
  | e :: es => e.numbers ++ Expr.allNumbers es
termination_by structural es => es

end

mutual

/-- The numbers that are written in a routine. -/
def Routine.numbers : Routine → List Float
  | .mk _ _ _ body _ => Decl.allNumbers body
termination_by structural r => r

/-- The numbers that are written in routines. -/
def Routine.allNumbers : List Routine → List Float
  | [] => []
  | r :: rs => r.numbers ++ Routine.allNumbers rs
termination_by structural rs => rs

/-- The numbers that are written in a declaration. -/
def Decl.numbers : Decl → List Float
  | .classDecl _ _ _ methods _ => Routine.allNumbers methods
  | .funDecl routine _ => routine.numbers
  | .varDecl _ _ initializer _ => Expr.allNumbers initializer.toList
  | .statement stmt => stmt.numbers
termination_by structural d => d

/-- The numbers that are written in declarations. -/
def Decl.allNumbers : List Decl → List Float
  | [] => []
  | d :: ds => d.numbers ++ Decl.allNumbers ds
termination_by structural ds => ds

/-- The numbers that are written in a statement. -/
def Stmt.numbers : Stmt → List Float
  | .expression e _ => e.numbers
  | .print e _ => e.numbers
  | .ret _ value _ => Expr.allNumbers value.toList
  | .block body _ => Decl.allNumbers body
  | .ifElse condition thenBranch none _ => condition.numbers ++ thenBranch.numbers
  | .ifElse condition thenBranch (some elseBranch) _ =>
      condition.numbers ++ thenBranch.numbers ++ elseBranch.numbers
  | .whileLoop condition body _ => condition.numbers ++ body.numbers
termination_by structural s => s

end

/-- Numbers with the positive sign. -/
def AllPositive (xs : List Float) : Prop := ∀ x ∈ xs, (Decimal.shape x).Positive

theorem allPositive_append {xs ys : List Float} :
    AllPositive (xs ++ ys) ↔ AllPositive xs ∧ AllPositive ys :=
  List.forall_mem_append

/-! ### Leaves -/

theorem Span.json_inj {s s' : Span} : s.json = s'.json ↔ s = s' := by
  refine ⟨fun h => ?_, congrArg _⟩
  simp only [Span.json, Json.object.injEq, List.cons.injEq, Prod.mk.injEq, true_and, and_true] at h
  obtain ⟨hoffset, hlen, hline⟩ := h
  cases s
  cases s'
  cases Json.nat_injective hoffset
  cases Json.nat_injective hlen
  cases Json.nat_injective hline
  rfl

theorem UnaryOp.name_inj {op op' : UnaryOp} : op.name = op'.name ↔ op = op' := by
  refine ⟨?_, congrArg _⟩
  cases op <;> cases op' <;> decide

theorem BinaryOp.name_inj {op op' : BinaryOp} : op.name = op'.name ↔ op = op' := by
  refine ⟨?_, congrArg _⟩
  cases op <;> cases op' <;> decide

theorem LogicalOp.name_inj {op op' : LogicalOp} : op.name = op'.name ↔ op = op' := by
  refine ⟨?_, congrArg _⟩
  cases op <;> cases op' <;> decide

/-- A value, its numbers with the positive sign, is determined by its JSON. -/
theorem Constant.eq_of_json {c c' : Constant} (hc : AllPositive c.numbers)
    (hc' : AllPositive c'.numbers) (h : c.json = c'.json) : c = c' := by
  cases c <;> cases c' <;>
    simp only [Constant.json, Json.object.injEq, Json.string.injEq, Json.bool.injEq,
      List.cons.injEq, Prod.mk.injEq, and_true, reduceCtorEq, String.reduceEq, false_and,
      true_and] at h
  case number.number x y =>
    rw [Json.float_injective (hc x List.mem_cons_self) (hc' y List.mem_cons_self) h]
  case string.string => rw [h]
  case bool.bool => rw [h]
  case nil.nil => rfl

/-- The parts of a node are determined by its JSON. -/
theorem Mark.node_inj {m m' : Mark} {type type' : String} {members members' : List (String × Json)}
    (h : m.node type members = m'.node type' members') :
    type = type' ∧ m = m' ∧ members = members' := by
  have hlists := Json.object.inj h
  simp only [List.cons_append, List.cons.injEq, Prod.mk.injEq, Json.string.injEq, true_and] at hlists
  obtain ⟨htype, hid, hrest⟩ := hlists
  obtain ⟨hmembers, hspan⟩ := List.append_inj' hrest rfl
  simp only [List.cons.injEq, Prod.mk.injEq, true_and, and_true, Span.json_inj] at hspan
  cases m
  cases m'
  cases Json.nat_injective hid
  cases hspan
  exact ⟨htype, rfl, hmembers⟩

theorem Superclass.json_inj {p p' : Superclass} : p.json = p'.json ↔ p = p' := by
  refine ⟨fun h => ?_, congrArg _⟩
  simp only [Superclass.json, Json.object.injEq, List.cons.injEq, Prod.mk.injEq, Json.string.injEq,
    true_and, and_true, Span.json_inj] at h
  obtain ⟨hid, hname, hspan⟩ := h
  obtain ⟨⟨id, span⟩, name⟩ := p
  obtain ⟨⟨id', span'⟩, name'⟩ := p'
  cases Json.nat_injective hid
  cases hname
  cases hspan
  rfl

theorem Param.json_inj {p p' : Param} : p.json = p'.json ↔ p = p' := by
  refine ⟨fun h => ?_, congrArg _⟩
  simp only [Param.json, Json.object.injEq, List.cons.injEq, Prod.mk.injEq, Json.string.injEq,
    true_and, and_true, Span.json_inj] at h
  cases p
  cases p'
  cases h.1
  cases h.2
  rfl

/-! ### Expressions -/

theorem Mark.type_of_node {m m' : Mark} {type type' : String}
    {members members' : List (String × Json)} (h : m.node type members = m'.node type' members') :
    type = type' :=
  (Mark.node_inj h).1

mutual

/-- **An expression whose numbers have the positive sign is determined by its JSON.**  The cases
follow the first expression; the second has the same type, and so the same constructor. -/
theorem Expr.eq_of_json : ∀ {e e' : Expr}, AllPositive e.numbers → AllPositive e'.numbers →
    e.json = e'.json → e = e'
  | .constant _ _, e', hp, hp', h => by
      cases e' with
      | constant _ _ =>
          simp only [Expr.json] at h
          obtain ⟨-, rfl, hm⟩ := Mark.node_inj h
          simp only [List.cons.injEq, Prod.mk.injEq, true_and, and_true] at hm
          rw [Constant.eq_of_json hp hp' hm]
      | _ => exact absurd (Mark.type_of_node h) (by decide)
  | .grouping _ _, e', hp, hp', h => by
      cases e' with
      | grouping _ _ =>
          simp only [Expr.json] at h
          simp only [Expr.numbers] at hp hp'
          obtain ⟨-, rfl, hm⟩ := Mark.node_inj h
          simp only [List.cons.injEq, Prod.mk.injEq, true_and, and_true] at hm
          rw [Expr.eq_of_json hp hp' hm]
      | _ => exact absurd (Mark.type_of_node h) (by decide)
  | .unary _ _ _, e', hp, hp', h => by
      cases e' with
      | unary _ _ _ =>
          simp only [Expr.json] at h
          simp only [Expr.numbers] at hp hp'
          obtain ⟨-, rfl, hm⟩ := Mark.node_inj h
          simp only [List.cons.injEq, Prod.mk.injEq, true_and, and_true, Json.string.injEq,
            UnaryOp.name_inj] at hm
          rw [hm.1, Expr.eq_of_json hp hp' hm.2]
      | _ => exact absurd (Mark.type_of_node h) (by decide)
  | .binary _ _ _ _ _, e', hp, hp', h => by
      cases e' with
      | binary _ _ _ _ _ =>
          simp only [Expr.json] at h
          obtain ⟨-, rfl, hm⟩ := Mark.node_inj h
          simp only [List.cons.injEq, Prod.mk.injEq, true_and, and_true, Json.string.injEq,
            BinaryOp.name_inj, Span.json_inj] at hm
          simp only [Expr.numbers, allPositive_append] at hp hp'
          obtain ⟨hleft, rfl, rfl, hright⟩ := hm
          rw [Expr.eq_of_json hp.1 hp'.1 hleft, Expr.eq_of_json hp.2 hp'.2 hright]
      | _ => exact absurd (Mark.type_of_node h) (by decide)
  | .logical _ _ _ _, e', hp, hp', h => by
      cases e' with
      | logical _ _ _ _ =>
          simp only [Expr.json] at h
          obtain ⟨-, rfl, hm⟩ := Mark.node_inj h
          simp only [List.cons.injEq, Prod.mk.injEq, true_and, and_true, Json.string.injEq,
            LogicalOp.name_inj] at hm
          simp only [Expr.numbers, allPositive_append] at hp hp'
          obtain ⟨hleft, rfl, hright⟩ := hm
          rw [Expr.eq_of_json hp.1 hp'.1 hleft, Expr.eq_of_json hp.2 hp'.2 hright]
      | _ => exact absurd (Mark.type_of_node h) (by decide)
  | .ternary _ _ _ _ _, e', hp, hp', h => by
      cases e' with
      | ternary _ _ _ _ _ =>
          simp only [Expr.json] at h
          obtain ⟨-, rfl, hm⟩ := Mark.node_inj h
          simp only [List.cons.injEq, Prod.mk.injEq, true_and, and_true, Span.json_inj] at hm
          simp only [Expr.numbers, allPositive_append] at hp hp'
          obtain ⟨hcondition, hthen, helse, rfl⟩ := hm
          rw [Expr.eq_of_json hp.1.1 hp'.1.1 hcondition, Expr.eq_of_json hp.1.2 hp'.1.2 hthen,
            Expr.eq_of_json hp.2 hp'.2 helse]
      | _ => exact absurd (Mark.type_of_node h) (by decide)
  | .variable _ _, e', _, _, h => by
      cases e' with
      | «variable» _ _ =>
          simp only [Expr.json] at h
          obtain ⟨-, rfl, hm⟩ := Mark.node_inj h
          simp only [List.cons.injEq, Prod.mk.injEq, true_and, and_true, Json.string.injEq] at hm
          rw [hm]
      | _ => exact absurd (Mark.type_of_node h) (by decide)
  | .assign _ _ _, e', hp, hp', h => by
      cases e' with
      | assign _ _ _ =>
          simp only [Expr.json] at h
          simp only [Expr.numbers] at hp hp'
          obtain ⟨-, rfl, hm⟩ := Mark.node_inj h
          simp only [List.cons.injEq, Prod.mk.injEq, true_and, and_true, Json.string.injEq] at hm
          rw [hm.1, Expr.eq_of_json hp hp' hm.2]
      | _ => exact absurd (Mark.type_of_node h) (by decide)
  | .call _ _ _ _, e', hp, hp', h => by
      cases e' with
      | call _ _ _ _ =>
          simp only [Expr.json] at h
          obtain ⟨-, rfl, hm⟩ := Mark.node_inj h
          simp only [List.cons.injEq, Prod.mk.injEq, true_and, and_true, Json.array.injEq,
            Span.json_inj] at hm
          simp only [Expr.numbers, allPositive_append] at hp hp'
          obtain ⟨hcallee, rfl, harguments⟩ := hm
          rw [Expr.eq_of_json hp.1 hp'.1 hcallee, Expr.eq_of_jsons hp.2 hp'.2 harguments]
      | _ => exact absurd (Mark.type_of_node h) (by decide)
  | .get _ _ _, e', hp, hp', h => by
      cases e' with
      | get _ _ _ =>
          simp only [Expr.json] at h
          simp only [Expr.numbers] at hp hp'
          obtain ⟨-, rfl, hm⟩ := Mark.node_inj h
          simp only [List.cons.injEq, Prod.mk.injEq, true_and, and_true, Json.string.injEq] at hm
          rw [hm.2, Expr.eq_of_json hp hp' hm.1]
      | _ => exact absurd (Mark.type_of_node h) (by decide)
  | .set _ _ _ _, e', hp, hp', h => by
      cases e' with
      | set _ _ _ _ =>
          simp only [Expr.json] at h
          obtain ⟨-, rfl, hm⟩ := Mark.node_inj h
          simp only [List.cons.injEq, Prod.mk.injEq, true_and, and_true, Json.string.injEq] at hm
          simp only [Expr.numbers, allPositive_append] at hp hp'
          obtain ⟨hobject, rfl, hvalue⟩ := hm
          rw [Expr.eq_of_json hp.1 hp'.1 hobject, Expr.eq_of_json hp.2 hp'.2 hvalue]
      | _ => exact absurd (Mark.type_of_node h) (by decide)
  | .thisRef _, e', _, _, h => by
      cases e' with
      | thisRef _ =>
          obtain ⟨-, rfl, -⟩ := Mark.node_inj h
          rfl
      | _ => exact absurd (Mark.type_of_node h) (by decide)
  | .superRef _ _, e', _, _, h => by
      cases e' with
      | superRef _ _ =>
          simp only [Expr.json] at h
          obtain ⟨-, rfl, hm⟩ := Mark.node_inj h
          simp only [List.cons.injEq, Prod.mk.injEq, true_and, and_true, Json.string.injEq] at hm
          rw [hm]
      | _ => exact absurd (Mark.type_of_node h) (by decide)

theorem Expr.eq_of_jsons : ∀ {es es' : List Expr}, AllPositive (Expr.allNumbers es) →
    AllPositive (Expr.allNumbers es') → Expr.jsons es = Expr.jsons es' → es = es'
  | [], [], _, _, _ => rfl
  | e :: es, e' :: es', hp, hp', h => by
      simp only [Expr.allNumbers, allPositive_append] at hp hp'
      simp only [Expr.jsons, List.cons.injEq] at h
      rw [Expr.eq_of_json hp.1 hp'.1 h.1, Expr.eq_of_jsons hp.2 hp'.2 h.2]

end

/-! ### Parts that may be missing -/

theorem Expr.json_ne_null (e : Expr) : e.json ≠ .null := by
  cases e <;> exact nofun

/-- A part that may be missing is determined by its JSON if no part is shown as `null`. -/
theorem Json.optional_inj {α : Type} {f : α → Json} (hf : ∀ a, f a ≠ .null) {x y : Option α}
    (h : Json.optional (x.map f) = Json.optional (y.map f)) : x.map f = y.map f := by
  cases x with
  | none =>
      cases y with
      | none => rfl
      | some b => exact absurd h.symm (hf b)
  | some a =>
      cases y with
      | none => exact absurd h (hf a)
      | some b => exact congrArg some h

theorem Expr.eq_of_optional {x y : Option Expr} (hx : AllPositive (Expr.allNumbers x.toList))
    (hy : AllPositive (Expr.allNumbers y.toList))
    (h : Json.optional (x.map Expr.json) = Json.optional (y.map Expr.json)) : x = y := by
  have hmap := Json.optional_inj Expr.json_ne_null h
  cases x with
  | none =>
      cases y with
      | none => rfl
      | some _ => cases hmap
  | some a =>
      cases y with
      | none => cases hmap
      | some b =>
          simp only [Option.toList, Expr.allNumbers, List.append_nil] at hx hy
          rw [Expr.eq_of_json hx hy (Option.some.inj hmap)]

theorem Superclass.eq_of_optional {x y : Option Superclass}
    (h : Json.optional (x.map Superclass.json) = Json.optional (y.map Superclass.json)) : x = y := by
  have hne : ∀ p : Superclass, p.json ≠ .null := fun _ => nofun
  exact Option.map_injective (fun _ _ => Superclass.json_inj.1) (Json.optional_inj hne h)

/-! ### Declarations and statements -/

/-- The relocation that gives every routine the same label and moves nothing. -/
def Relocation.unlabelled : Relocation := ⟨fun s => s, fun n => n, fun _ => 0⟩

/-- What a statement is shown as. -/
def Stmt.kind : Stmt → String
  | .expression _ _ => "Expression"
  | .print _ _ => "Print"
  | .ret _ _ _ => "Return"
  | .block _ _ => "Block"
  | .ifElse _ _ _ _ => "If"
  | .whileLoop _ _ _ => "While"

theorem Stmt.members_eq (s : Stmt) : ∃ rest, s.members = ("kind", .string s.kind) :: rest := by
  cases s with
  | ifElse _ _ elseBranch _ => cases elseBranch <;> exact ⟨_, rfl⟩
  | _ => exact ⟨_, rfl⟩

theorem Stmt.kind_of_members {s s' : Stmt} (h : s.members = s'.members) : s.kind = s'.kind := by
  obtain ⟨rest, hs⟩ := s.members_eq
  obtain ⟨rest', hs'⟩ := s'.members_eq
  rw [hs, hs'] at h
  exact Json.string.inj (Prod.mk.inj (List.cons.inj h).1).2

mutual

theorem Routine.eq_of_json : ∀ {r r' : Routine}, AllPositive r.numbers → AllPositive r'.numbers →
    r.json = r'.json → r.relocate .unlabelled = r'.relocate .unlabelled
  | .mk _ _ _ _ _, .mk _ _ _ _ _, hp, hp', h => by
      simp only [Routine.numbers] at hp hp'
      simp only [Routine.json, Json.object.injEq, List.cons.injEq, Prod.mk.injEq, Json.string.injEq,
        Json.array.injEq, true_and, and_true, Span.json_inj] at h
      obtain ⟨rfl, hparams, hbody, rfl⟩ := h
      have hmap := Decl.eq_of_jsons hp hp' hbody
      cases List.map_injective_iff.2 (fun _ _ => Param.json_inj.1) hparams
      simp only [Routine.relocate, hmap]
      rfl

theorem Routine.eq_of_jsons : ∀ {rs rs' : List Routine}, AllPositive (Routine.allNumbers rs) →
    AllPositive (Routine.allNumbers rs') → Routine.jsons rs = Routine.jsons rs' →
    Routine.allRelocate .unlabelled rs = Routine.allRelocate .unlabelled rs'
  | [], [], _, _, _ => rfl
  | r :: rs, r' :: rs', hp, hp', h => by
      simp only [Routine.allNumbers, allPositive_append] at hp hp'
      simp only [Routine.jsons, List.cons.injEq] at h
      simp only [Routine.allRelocate, Routine.eq_of_json hp.1 hp'.1 h.1,
        Routine.eq_of_jsons hp.2 hp'.2 h.2]

/-- **A declaration whose numbers have the positive sign is determined by its JSON, up to labels.**
A statement that stands as a declaration has the type of a statement, whatever its kind is. -/
theorem Decl.eq_of_json : ∀ {d d' : Decl}, AllPositive d.numbers → AllPositive d'.numbers →
    d.json = d'.json → d.relocate .unlabelled = d'.relocate .unlabelled
  | .classDecl _ _ _ _ _, d', hp, hp', h => by
      cases d' <;> simp only [Decl.json, Json.object.injEq, List.cons.injEq, Prod.mk.injEq,
        Json.string.injEq, Json.array.injEq, String.reduceEq, true_and, and_true, false_and,
        and_false, Span.json_inj] at h
      simp only [Decl.numbers] at hp hp'
      obtain ⟨rfl, rfl, hsuperclass, hmethods, rfl⟩ := h
      cases Superclass.eq_of_optional hsuperclass
      simp only [Decl.relocate, Routine.eq_of_jsons hp hp' hmethods]
  | .funDecl _ _, d', hp, hp', h => by
      cases d' <;> simp only [Decl.json, Json.object.injEq, List.cons.injEq, Prod.mk.injEq,
        Json.string.injEq, String.reduceEq, true_and, and_true, false_and, and_false,
        Span.json_inj] at h
      simp only [Decl.numbers] at hp hp'
      obtain ⟨hroutine, rfl⟩ := h
      simp only [Decl.relocate, Routine.eq_of_json hp hp' hroutine]
  | .varDecl _ _ _ _, d', hp, hp', h => by
      cases d' <;> simp only [Decl.json, Json.object.injEq, List.cons.injEq, Prod.mk.injEq,
        Json.string.injEq, String.reduceEq, true_and, and_true, false_and, and_false,
        Span.json_inj] at h
      simp only [Decl.numbers] at hp hp'
      obtain ⟨rfl, rfl, hinitializer, rfl⟩ := h
      rw [Expr.eq_of_optional hp hp' hinitializer]
  | .statement _, d', hp, hp', h => by
      cases d' <;> simp only [Decl.json, Json.object.injEq, List.cons.injEq, Prod.mk.injEq,
        Json.string.injEq, String.reduceEq, true_and, false_and, and_false] at h
      simp only [Decl.numbers] at hp hp'
      simp only [Decl.relocate, Stmt.eq_of_members hp hp' h]

theorem Decl.eq_of_jsons : ∀ {ds ds' : List Decl}, AllPositive (Decl.allNumbers ds) →
    AllPositive (Decl.allNumbers ds') → Decl.jsons ds = Decl.jsons ds' →
    Decl.allRelocate .unlabelled ds = Decl.allRelocate .unlabelled ds'
  | [], [], _, _, _ => rfl
  | d :: ds, d' :: ds', hp, hp', h => by
      simp only [Decl.allNumbers, allPositive_append] at hp hp'
      simp only [Decl.jsons, List.cons.injEq] at h
      simp only [Decl.allRelocate, Decl.eq_of_json hp.1 hp'.1 h.1, Decl.eq_of_jsons hp.2 hp'.2 h.2]

/-- A statement whose numbers have the positive sign is determined by its members, up to labels. -/
theorem Stmt.eq_of_members : ∀ {s s' : Stmt}, AllPositive s.numbers → AllPositive s'.numbers →
    s.members = s'.members → s.relocate .unlabelled = s'.relocate .unlabelled
  | .expression _ _, s', hp, hp', h => by
      cases s' with
      | expression _ _ =>
          simp only [Stmt.numbers] at hp hp'
          simp only [Stmt.members, List.cons.injEq, Prod.mk.injEq, true_and, and_true,
            Span.json_inj] at h
          rw [Expr.eq_of_json hp hp' h.1, h.2]
      | _ => exact absurd (Stmt.kind_of_members h) (by simp [Stmt.kind])
  | .print _ _, s', hp, hp', h => by
      cases s' with
      | print _ _ =>
          simp only [Stmt.numbers] at hp hp'
          simp only [Stmt.members, List.cons.injEq, Prod.mk.injEq, true_and, and_true,
            Span.json_inj] at h
          rw [Expr.eq_of_json hp hp' h.1, h.2]
      | _ => exact absurd (Stmt.kind_of_members h) (by simp [Stmt.kind])
  | .ret _ _ _, s', hp, hp', h => by
      cases s' with
      | ret _ _ _ =>
          simp only [Stmt.numbers] at hp hp'
          simp only [Stmt.members, List.cons.injEq, Prod.mk.injEq, true_and, and_true,
            Span.json_inj] at h
          obtain ⟨rfl, hvalue, rfl⟩ := h
          rw [Expr.eq_of_optional hp hp' hvalue]
      | _ => exact absurd (Stmt.kind_of_members h) (by simp [Stmt.kind])
  | .block _ _, s', hp, hp', h => by
      cases s' with
      | block _ _ =>
          simp only [Stmt.numbers] at hp hp'
          simp only [Stmt.members, List.cons.injEq, Prod.mk.injEq, true_and, and_true,
            Json.array.injEq, Span.json_inj] at h
          obtain ⟨hbody, rfl⟩ := h
          simp only [Stmt.relocate, Decl.eq_of_jsons hp hp' hbody]
      | _ => exact absurd (Stmt.kind_of_members h) (by simp [Stmt.kind])
  | .ifElse _ _ none _, s', hp, hp', h => by
      cases s' with
      | ifElse _ _ elseBranch _ =>
          cases elseBranch <;> simp only [Stmt.members, List.cons.injEq, Prod.mk.injEq, true_and,
            and_true, Json.object.injEq, Span.json_inj, reduceCtorEq, false_and, and_false] at h
          simp only [Stmt.numbers, allPositive_append] at hp hp'
          obtain ⟨hcondition, hthen, rfl⟩ := h
          simp only [Stmt.relocate, Expr.eq_of_json hp.1 hp'.1 hcondition,
            Stmt.eq_of_members hp.2 hp'.2 hthen]
      | _ => exact absurd (Stmt.kind_of_members h) (by simp [Stmt.kind])
  | .ifElse _ _ (some _) _, s', hp, hp', h => by
      cases s' with
      | ifElse _ _ elseBranch _ =>
          cases elseBranch <;> simp only [Stmt.members, List.cons.injEq, Prod.mk.injEq, true_and,
            and_true, Json.object.injEq, Span.json_inj, reduceCtorEq, false_and, and_false] at h
          simp only [Stmt.numbers, allPositive_append] at hp hp'
          obtain ⟨hcondition, hthen, helse, rfl⟩ := h
          simp only [Stmt.relocate, Expr.eq_of_json hp.1.1 hp'.1.1 hcondition,
            Stmt.eq_of_members hp.1.2 hp'.1.2 hthen, Stmt.eq_of_members hp.2 hp'.2 helse]
      | _ => exact absurd (Stmt.kind_of_members h) (by simp [Stmt.kind])
  | .whileLoop _ _ _, s', hp, hp', h => by
      cases s' with
      | whileLoop _ _ _ =>
          simp only [Stmt.numbers, allPositive_append] at hp hp'
          simp only [Stmt.members, List.cons.injEq, Prod.mk.injEq, true_and, and_true,
            Json.object.injEq, Span.json_inj] at h
          obtain ⟨hcondition, hbody, rfl⟩ := h
          simp only [Stmt.relocate, Expr.eq_of_json hp.1 hp'.1 hcondition,
            Stmt.eq_of_members hp.2 hp'.2 hbody]
      | _ => exact absurd (Stmt.kind_of_members h) (by simp [Stmt.kind])

end

/-! ### The JSON of a tree is proper -/

namespace Json

theorem proper_nat (n : Nat) : (nat n).Proper := isNumber_toDigits n

theorem proper_float (x : Float) : (float x).Proper := by
  unfold float
  split
  · rename_i written h
    exact Decimal.isNumber_of_exchangeText? h
  · trivial

theorem proper_object {members : List (String × Json)} (hnodup : (members.map Prod.fst).Nodup)
    (h : MembersProper members) : (object members).Proper :=
  ⟨hnodup, h⟩

theorem proper_optional {α : Type} {f : α → Json} (hf : ∀ a, (f a).Proper) (x : Option α) :
    (optional (x.map f)).Proper := by
  cases x with
  | none => trivial
  | some a => exact hf a

end Json

open Json (proper_nat proper_float proper_object proper_optional MembersProper AllProper)

theorem Span.proper_json (s : Span) : s.json.Proper :=
  proper_object (by simp) ⟨proper_nat _, proper_nat _, proper_nat _, trivial⟩

theorem Constant.proper_json (c : Constant) : c.json.Proper := by
  cases c with
  | number x => exact proper_object (by simp) ⟨proper_float x, trivial⟩
  | string _ => exact proper_object (by simp) ⟨trivial, trivial⟩
  | bool _ => exact proper_object (by simp) ⟨trivial, trivial⟩
  | nil => trivial

theorem membersProper_append {ms ms' : List (String × Json)} (h : MembersProper ms)
    (h' : MembersProper ms') : MembersProper (ms ++ ms') := by
  induction ms with
  | nil => exact h'
  | cons m ms ih => exact ⟨h.1, ih h.2⟩

theorem Mark.proper_node (m : Mark) (type : String) {members : List (String × Json)}
    (hnodup : ("type" :: "id" :: members.map Prod.fst ++ ["span"]).Nodup)
    (h : MembersProper members) : (m.node type members).Proper := by
  refine proper_object ?_
    ⟨trivial, proper_nat _, membersProper_append h ⟨m.span.proper_json, trivial⟩⟩
  simpa using hnodup

theorem Superclass.proper_json (p : Superclass) : p.json.Proper :=
  proper_object (by simp) ⟨proper_nat _, trivial, p.mark.span.proper_json, trivial⟩

theorem Param.proper_json (p : Param) : p.json.Proper :=
  proper_object (by simp) ⟨trivial, p.span.proper_json, trivial⟩

mutual

theorem Expr.proper_json : ∀ e : Expr, e.json.Proper
  | .constant m value => m.proper_node _ (by simp) ⟨value.proper_json, trivial⟩
  | .grouping m inner => m.proper_node _ (by simp) ⟨inner.proper_json, trivial⟩
  | .unary m _ operand => m.proper_node _ (by simp) ⟨trivial, operand.proper_json, trivial⟩
  | .binary m left _ opSpan right =>
      m.proper_node _ (by simp)
        ⟨left.proper_json, trivial, opSpan.proper_json, right.proper_json, trivial⟩
  | .logical m left _ right =>
      m.proper_node _ (by simp) ⟨left.proper_json, trivial, right.proper_json, trivial⟩
  | .ternary m condition question thenBranch elseBranch =>
      m.proper_node _ (by simp)
        ⟨condition.proper_json, thenBranch.proper_json, elseBranch.proper_json,
          question.proper_json, trivial⟩
  | .variable m _ => m.proper_node _ (by simp) ⟨trivial, trivial⟩
  | .assign m _ value => m.proper_node _ (by simp) ⟨trivial, value.proper_json, trivial⟩
  | .call m callee arguments paren =>
      m.proper_node _ (by simp)
        ⟨callee.proper_json, paren.proper_json, Expr.allProper_jsons arguments, trivial⟩
  | .get m object _ => m.proper_node _ (by simp) ⟨object.proper_json, trivial, trivial⟩
  | .set m object _ value =>
      m.proper_node _ (by simp) ⟨object.proper_json, trivial, value.proper_json, trivial⟩
  | .thisRef m => m.proper_node _ (by simp) trivial
  | .superRef m _ => m.proper_node _ (by simp) ⟨trivial, trivial⟩

theorem Expr.allProper_jsons : ∀ es : List Expr, AllProper (Expr.jsons es)
  | [] => trivial
  | e :: es => ⟨e.proper_json, Expr.allProper_jsons es⟩

end

theorem Param.allProper_jsons (ps : List Param) : AllProper (ps.map Param.json) := by
  induction ps with
  | nil => trivial
  | cons p ps ih => exact ⟨p.proper_json, ih⟩

/-- The names of the members of a statement, and those that a declaration may put in front. -/
theorem Stmt.nodup_members (s : Stmt) : ("type" :: s.members.map Prod.fst).Nodup := by
  cases s with
  | ifElse _ _ elseBranch _ =>
      cases elseBranch <;>
        exact (by decide : ["type", "kind", "condition", "then_branch", "else_branch", "span"].Nodup)
  | expression _ _ => exact (by decide : ["type", "kind", "expression", "span"].Nodup)
  | print _ _ => exact (by decide : ["type", "kind", "expression", "span"].Nodup)
  | ret _ _ _ => exact (by decide : ["type", "kind", "keyword", "value", "span"].Nodup)
  | block _ _ => exact (by decide : ["type", "kind", "declarations", "span"].Nodup)
  | whileLoop _ _ _ => exact (by decide : ["type", "kind", "condition", "body", "span"].Nodup)

mutual

theorem Routine.proper_json : ∀ r : Routine, r.json.Proper
  | .mk _ _ params body span =>
      proper_object (by simp)
        ⟨trivial, Param.allProper_jsons params, Decl.allProper_jsons body, span.proper_json, trivial⟩

theorem Routine.allProper_jsons : ∀ rs : List Routine, AllProper (Routine.jsons rs)
  | [] => trivial
  | r :: rs => ⟨r.proper_json, Routine.allProper_jsons rs⟩

theorem Decl.proper_json : ∀ d : Decl, d.json.Proper
  | .classDecl _ nameSpan superclass methods span =>
      proper_object (by simp)
        ⟨trivial, trivial, nameSpan.proper_json,
          proper_optional Superclass.proper_json superclass, Routine.allProper_jsons methods,
          span.proper_json, trivial⟩
  | .funDecl routine span =>
      proper_object (by simp) ⟨trivial, routine.proper_json, span.proper_json, trivial⟩
  | .varDecl _ nameSpan initializer span =>
      proper_object (by simp)
        ⟨trivial, trivial, nameSpan.proper_json, proper_optional Expr.proper_json initializer,
          span.proper_json, trivial⟩
  | .statement stmt => ⟨stmt.nodup_members, trivial, stmt.membersProper⟩

theorem Decl.allProper_jsons : ∀ ds : List Decl, AllProper (Decl.jsons ds)
  | [] => trivial
  | d :: ds => ⟨d.proper_json, Decl.allProper_jsons ds⟩

/-- The values of the members of a statement are proper. -/
theorem Stmt.membersProper : ∀ s : Stmt, MembersProper s.members
  | .expression e span => ⟨trivial, e.proper_json, span.proper_json, trivial⟩
  | .print e span => ⟨trivial, e.proper_json, span.proper_json, trivial⟩
  | .ret keyword value span =>
      ⟨trivial, keyword.proper_json, proper_optional Expr.proper_json value, span.proper_json,
        trivial⟩
  | .block body span => ⟨trivial, Decl.allProper_jsons body, span.proper_json, trivial⟩
  | .ifElse condition thenBranch none span =>
      ⟨trivial, condition.proper_json,
        ⟨thenBranch.nodup_members.of_cons, thenBranch.membersProper⟩, trivial, span.proper_json,
        trivial⟩
  | .ifElse condition thenBranch (some elseBranch) span =>
      ⟨trivial, condition.proper_json,
        ⟨thenBranch.nodup_members.of_cons, thenBranch.membersProper⟩,
        ⟨elseBranch.nodup_members.of_cons, elseBranch.membersProper⟩, span.proper_json, trivial⟩
  | .whileLoop condition body span =>
      ⟨trivial, condition.proper_json, ⟨body.nodup_members.of_cons, body.membersProper⟩,
        span.proper_json, trivial⟩

end

/-- **The JSON of a program has numbers that are numbers, and no object repeats a name.** -/
theorem Program.proper_json (p : Program) : p.json.Proper :=
  proper_object (by simp) ⟨Decl.allProper_jsons p.declarations, trivial⟩

end Scriptlet
