/-
**Handing out other numbers.**

With another supply the same source gives the same program with other numbers.  What becomes of a
program under a relocation depends on the numbers and labels in it alone, so that a relocation may
be changed for those that are still free: a renumbering of what has been given away is continued by
one that takes the numbers given away next to those that another supply gives away.

Main definitions:

* `Scriptlet.Relocation.Agrees` — relocations that do the same to what has been given away;
* `Scriptlet.Relocation.onward` — a renumbering, continued from one supply to another.

Main results:

* `Scriptlet.Decl.allRelocate_congr` — **a program moves as its numbers and labels do**;
* `Scriptlet.Relocation.onward_comp_past`, `Scriptlet.Relocation.onward_injective` — what the next
  source is numbered by.
-/

import Scriptlet.Proofs.Joined.Compile

set_option relaxedAutoImplicit false
set_option autoImplicit false

namespace Scriptlet

/-! ### Relocations that agree on a tree -/

section Congruence

variable {φ ψ : Relocation}

theorem Mark.relocate_congr (hspan : φ.span = ψ.span) {m : Mark} (h : φ.expr m.id = ψ.expr m.id) :
    m.relocate φ = m.relocate ψ := by
  rw [relocate, relocate, hspan, h]

mutual

/-- An expression moves as its numbers do. -/
theorem Expr.relocate_congr (hspan : φ.span = ψ.span) : ∀ e : Expr,
    (∀ n ∈ e.ids, φ.expr n = ψ.expr n) →
    e.relocate φ = e.relocate ψ
  | .constant mark value, h => by
      simp only [Expr.ids, List.forall_mem_singleton] at h
      simp only [Expr.relocate, Mark.relocate_congr hspan h]
  | .variable mark name, h => by
      simp only [Expr.ids, List.forall_mem_singleton] at h
      simp only [Expr.relocate, Mark.relocate_congr hspan h]
  | .thisRef mark, h => by
      simp only [Expr.ids, List.forall_mem_singleton] at h
      simp only [Expr.relocate, Mark.relocate_congr hspan h]
  | .superRef mark method, h => by
      simp only [Expr.ids, List.forall_mem_singleton] at h
      simp only [Expr.relocate, Mark.relocate_congr hspan h]
  | .grouping mark inner, h => by
      simp only [Expr.ids, List.forall_mem_append, List.forall_mem_singleton] at h
      simp only [Expr.relocate, inner.relocate_congr hspan h.1, Mark.relocate_congr hspan h.2]
  | .unary mark _ operand, h => by
      simp only [Expr.ids, List.forall_mem_append, List.forall_mem_singleton] at h
      simp only [Expr.relocate, operand.relocate_congr hspan h.1, Mark.relocate_congr hspan h.2]
  | .binary mark left _ _ right, h => by
      simp only [Expr.ids, List.forall_mem_append, List.forall_mem_singleton] at h
      simp only [Expr.relocate, left.relocate_congr hspan h.1.1, right.relocate_congr hspan h.1.2,
        Mark.relocate_congr hspan h.2, hspan]
  | .logical mark left _ right, h => by
      simp only [Expr.ids, List.forall_mem_append, List.forall_mem_singleton] at h
      simp only [Expr.relocate, left.relocate_congr hspan h.1.1, right.relocate_congr hspan h.1.2,
        Mark.relocate_congr hspan h.2]
  | .ternary mark condition _ thenBranch elseBranch, h => by
      simp only [Expr.ids, List.forall_mem_append, List.forall_mem_singleton] at h
      simp only [Expr.relocate, condition.relocate_congr hspan h.1.1.1,
        thenBranch.relocate_congr hspan h.1.1.2, elseBranch.relocate_congr hspan h.1.2,
        Mark.relocate_congr hspan h.2, hspan]
  | .assign mark _ value, h => by
      simp only [Expr.ids, List.forall_mem_append, List.forall_mem_singleton] at h
      simp only [Expr.relocate, value.relocate_congr hspan h.1, Mark.relocate_congr hspan h.2]
  | .call mark callee arguments _, h => by
      simp only [Expr.ids, List.forall_mem_append, List.forall_mem_singleton] at h
      simp only [Expr.relocate, callee.relocate_congr hspan h.1.1,
        Expr.allRelocate_congr hspan arguments h.1.2, Mark.relocate_congr hspan h.2, hspan]
  | .get mark object _, h => by
      simp only [Expr.ids, List.forall_mem_append, List.forall_mem_singleton] at h
      simp only [Expr.relocate, object.relocate_congr hspan h.1, Mark.relocate_congr hspan h.2]
  | .set mark object _ value, h => by
      simp only [Expr.ids, List.forall_mem_append, List.forall_mem_singleton] at h
      simp only [Expr.relocate, object.relocate_congr hspan h.1.2, value.relocate_congr hspan h.1.1,
        Mark.relocate_congr hspan h.2]

theorem Expr.allRelocate_congr (hspan : φ.span = ψ.span) : ∀ es : List Expr,
    (∀ n ∈ Expr.allIds es, φ.expr n = ψ.expr n) →
    Expr.allRelocate φ es = Expr.allRelocate ψ es
  | [], _ => rfl
  | e :: es, h => by
      simp only [Expr.allIds, List.forall_mem_append] at h
      simp only [Expr.allRelocate, e.relocate_congr hspan h.1, Expr.allRelocate_congr hspan es h.2]

end

theorem Superclass.relocate_congr_option (hspan : φ.span = ψ.span) {parent : Option Superclass}
    (h : ∀ n ∈ Superclass.ids parent, φ.expr n = ψ.expr n) :
    parent.map (Superclass.relocate φ) = parent.map (Superclass.relocate ψ) := by
  cases parent with
  | none => rfl
  | some parent =>
      have hmark := h parent.mark.id (List.mem_singleton.2 rfl)
      simp only [Option.map_some, Superclass.relocate, Mark.relocate_congr hspan hmark]

theorem Param.map_relocate_congr (hspan : φ.span = ψ.span) (ps : List Param) :
    ps.map (Param.relocate φ) = ps.map (Param.relocate ψ) :=
  List.map_congr_left fun p _ => by rw [relocate, relocate, hspan]

mutual

theorem Routine.relocate_congr (hspan : φ.span = ψ.span) : ∀ r : Routine,
    (∀ n ∈ r.ids, φ.expr n = ψ.expr n) →
    (∀ l ∈ r.labels, φ.routine l = ψ.routine l) → r.relocate φ = r.relocate ψ
  | .mk label _ params body _, h, hl => by
      simp only [Routine.labels, List.forall_mem_cons] at hl
      simp only [Routine.relocate, Param.map_relocate_congr hspan params,
        Decl.allRelocate_congr hspan body h hl.2, hl.1, hspan]

theorem Routine.allRelocate_congr (hspan : φ.span = ψ.span) : ∀ rs : List Routine,
    (∀ n ∈ Routine.allIds rs, φ.expr n = ψ.expr n) →
    (∀ l ∈ Routine.allLabels rs, φ.routine l = ψ.routine l) →
    Routine.allRelocate φ rs = Routine.allRelocate ψ rs
  | [], _, _ => rfl
  | r :: rs, h, hl => by
      simp only [Routine.allIds, Routine.allLabels, List.forall_mem_append] at h hl
      simp only [Routine.allRelocate, r.relocate_congr hspan h.1 hl.1,
        Routine.allRelocate_congr hspan rs h.2 hl.2]

theorem Decl.relocate_congr (hspan : φ.span = ψ.span) : ∀ d : Decl,
    (∀ n ∈ d.ids, φ.expr n = ψ.expr n) →
    (∀ l ∈ d.labels, φ.routine l = ψ.routine l) → d.relocate φ = d.relocate ψ
  | .classDecl _ _ superclass methods _, h, hl => by
      simp only [Decl.ids, Decl.labels, List.forall_mem_append] at h hl
      simp only [Decl.relocate, Superclass.relocate_congr_option hspan h.1,
        Routine.allRelocate_congr hspan methods h.2 hl, hspan]
  | .funDecl routine _, h, hl => by
      simp only [Decl.relocate, routine.relocate_congr hspan h hl, hspan]
  | .varDecl _ _ none _, _, _ => by
      simp only [Decl.relocate, Option.map_none, hspan]
  | .varDecl _ _ (some value) _, h, _ => by
      simp only [Decl.relocate, Option.map_some, value.relocate_congr hspan h, hspan]
  | .statement stmt, h, hl => congrArg Decl.statement (stmt.relocate_congr hspan h hl)

/-- **Declarations move as their numbers and labels do.** -/
theorem Decl.allRelocate_congr (hspan : φ.span = ψ.span) : ∀ ds : List Decl,
    (∀ n ∈ Decl.allIds ds, φ.expr n = ψ.expr n) →
    (∀ l ∈ Decl.allLabels ds, φ.routine l = ψ.routine l) →
    Decl.allRelocate φ ds = Decl.allRelocate ψ ds
  | [], _, _ => rfl
  | d :: ds, h, hl => by
      simp only [Decl.allIds, Decl.allLabels, List.forall_mem_append] at h hl
      simp only [Decl.allRelocate, d.relocate_congr hspan h.1 hl.1,
        Decl.allRelocate_congr hspan ds h.2 hl.2]

theorem Stmt.relocate_congr (hspan : φ.span = ψ.span) : ∀ s : Stmt,
    (∀ n ∈ s.ids, φ.expr n = ψ.expr n) →
    (∀ l ∈ s.labels, φ.routine l = ψ.routine l) → s.relocate φ = s.relocate ψ
  | .expression e _, h, _ | .print e _, h, _ => by
      simp only [Stmt.relocate, e.relocate_congr hspan h, hspan]
  | .ret _ none _, _, _ => by
      simp only [Stmt.relocate, Option.map_none, hspan]
  | .ret _ (some value) _, h, _ => by
      simp only [Stmt.relocate, Option.map_some, value.relocate_congr hspan h, hspan]
  | .block body _, h, hl => by
      simp only [Stmt.relocate, Decl.allRelocate_congr hspan body h hl, hspan]
  | .ifElse condition thenBranch none _, h, hl => by
      simp only [Stmt.ids, List.forall_mem_append] at h
      simp only [Stmt.relocate, condition.relocate_congr hspan h.1,
        thenBranch.relocate_congr hspan h.2 hl, hspan]
  | .ifElse condition thenBranch (some elseBranch) _, h, hl => by
      simp only [Stmt.ids, Stmt.labels, List.forall_mem_append] at h hl
      simp only [Stmt.relocate, condition.relocate_congr hspan h.1.1,
        thenBranch.relocate_congr hspan h.1.2 hl.1, elseBranch.relocate_congr hspan h.2 hl.2, hspan]
  | .whileLoop condition body _, h, hl => by
      simp only [Stmt.ids, List.forall_mem_append] at h
      simp only [Stmt.relocate, condition.relocate_congr hspan h.1,
        body.relocate_congr hspan h.2 hl, hspan]

end

end Congruence

/-- Relocations that do the same to the numbers and labels that a supply has given away, and to
places. -/
structure Relocation.Agrees (s : Supply) (φ ψ : Relocation) : Prop where
  span : φ.span = ψ.span
  expr : ∀ n < s.expr, φ.expr n = ψ.expr n
  routine : ∀ l < s.routine, φ.routine l = ψ.routine l

namespace Relocation.Agrees

variable {s s₁ : Supply} {φ ψ χ : Relocation}

theorem refl (s : Supply) (φ : Relocation) : φ.Agrees s φ :=
  ⟨rfl, fun _ _ => rfl, fun _ _ => rfl⟩

theorem mono (hle : s.Le s₁) (h : φ.Agrees s₁ ψ) : φ.Agrees s ψ :=
  ⟨h.span, fun n hn => h.expr n (Nat.lt_of_lt_of_le hn hle.expr),
    fun l hl => h.routine l (Nat.lt_of_lt_of_le hl hle.routine)⟩

theorem trans (h : φ.Agrees s ψ) (h' : ψ.Agrees s χ) : φ.Agrees s χ :=
  ⟨h.span.trans h'.span, fun n hn => (h.expr n hn).trans (h'.expr n hn),
    fun l hl => (h.routine l hl).trans (h'.routine l hl)⟩

end Relocation.Agrees

/-- The numbers and labels of a compiled program were given away between the supplies. -/
theorem compile_given {source : String} {s s₁ : Supply} {c : Compiled}
    (h : compile source s = (.ok c, s₁)) :
    Given s (Decl.allIds c.program.declarations) (Decl.allLabels c.program.declarations) s₁ := by
  obtain ⟨ts, p, -, hparse, hcompile⟩ := compile_ok h
  obtain ⟨rfl, -⟩ := Program.resolve_of_compile hcompile
  exact (Program.parse_phrase hparse).given

/-- Relocations that do the same to what has been given away do the same to a program. -/
theorem Relocation.Agrees.allRelocate_eq {source : String} {s s₁ : Supply} {c : Compiled}
    (h : compile source s = (.ok c, s₁)) {φ ψ : Relocation} (hψ : φ.Agrees s₁ ψ) :
    Decl.allRelocate φ c.program.declarations = Decl.allRelocate ψ c.program.declarations := by
  have hgiven := compile_given h
  exact Decl.allRelocate_congr hψ.span _ (fun n hn => hψ.expr n (hgiven.ids.bounds n hn).2)
    fun l hl => hψ.routine l (hgiven.labels.bounds l hl).2

/-! ### Renumberings, continued -/

namespace Relocation

variable {φ : Relocation} {t s : Supply}

/-- A relocation that takes what has been given away by the first supply to what has been given away
by the second, and leaves everything in its place. -/
structure Renumbers (φ : Relocation) (t s : Supply) : Prop where
  span : φ.span = fun place => place
  lt : ∀ l < t.routine, φ.routine l < s.routine
  inj : ∀ l < t.routine, ∀ l' < t.routine, φ.routine l = φ.routine l' → l = l'

/-- A renumbering, continued: what the first supply gives away next is taken to what the second
gives away next. -/
def onward (φ : Relocation) (t s : Supply) : Relocation where
  span := φ.span
  expr n := if n < t.expr then φ.expr n else n - t.expr + s.expr
  routine l := if l < t.routine then φ.routine l else l - t.routine + s.routine

theorem agrees_onward (φ : Relocation) (t s : Supply) : φ.Agrees t (φ.onward t s) :=
  ⟨rfl, fun _ hn => (if_pos hn).symm, fun _ hl => (if_pos hl).symm⟩

/-- What is numbered with the first supply is taken to what is numbered with the second. -/
theorem onward_comp_past (hspan : φ.span = fun place => place) :
    (φ.onward t s).comp (past t) = past s := by
  simp only [onward, comp, past, behind, hspan, Nat.not_lt.2 (Nat.le_add_left _ _), if_false,
    Nat.add_sub_cancel]

namespace Renumbers

theorem mono (h : φ.Renumbers t s) {s₁ : Supply} (hle : s.Le s₁) : φ.Renumbers t s₁ :=
  ⟨h.span, fun l hl => Nat.lt_of_lt_of_le (h.lt l hl) hle.routine, h.inj⟩

/-- Different labels get different labels, for those given away next lie behind all others. -/
theorem onward_injective (h : φ.Renumbers t s) : Function.Injective (φ.onward t s).routine := by
  intro l l' heq
  simp only [onward] at heq
  split at heq <;> split at heq
  · exact h.inj l ‹_› l' ‹_› heq
  · have := h.lt l ‹_›
    omega
  · have := h.lt l' ‹_›
    omega
  · omega

/-- A renumbering is continued over as many numbers as are given away. -/
theorem onward (h : φ.Renumbers t s) (given : Supply) :
    (φ.onward t s).Renumbers (given.relocate (past t)) (given.relocate (past s)) := by
  refine ⟨h.span, fun l hl => ?_, fun l _ l' _ heq => h.onward_injective heq⟩
  simp only [Supply.relocate, past, behind, Relocation.onward] at hl ⊢
  split
  · have := h.lt l ‹_›
    omega
  · omega

end Renumbers

end Relocation

end Scriptlet
