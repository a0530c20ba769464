/-
**The sites of the routines of a program.**

A routine may be called long after its declaration was executed, and then its sites are met again.
They are among the sites of the program, and all but the first of them stand inside a routine.

Main definitions:

* `Scriptlet.Closed` — sites among which are the sites of each routine that is among them.

Main results:

* `Scriptlet.Program.closed` — **the sites of a program are closed**;
* `Scriptlet.Routine.inner` — what a routine mentions stands inside a routine.
-/

import Scriptlet.Proofs.Program.Numbering
import Scriptlet.Proofs.Scope.Rows

set_option relaxedAutoImplicit false
set_option autoImplicit false

namespace Scriptlet

/-! ### Closed sites -/

/-- Sites among which are the sites of each routine that is among them. -/
def Closed (sites : List Site) : Prop :=
  ∀ ⦃ctx r⦄, ⟨ctx, .routine r⟩ ∈ sites → r.sites ctx ⊆ sites

section Closed

variable {sites sites' : List Site}

theorem Closed.append (h : Closed sites) (h' : Closed sites') : Closed (sites ++ sites') := by
  intro ctx r hr
  rcases List.mem_append.1 hr with hr | hr
  · exact List.subset_append_of_subset_left _ (h hr)
  · exact List.subset_append_of_subset_right _ (h' hr)

/-- Sites without routines are closed. -/
theorem closed_of_routineLabels (h : routineLabels sites = []) : Closed sites := by
  intro ctx r hr
  have hnone := List.filterMap_eq_nil_iff.1 (List.map_eq_nil_iff.1 h) _ hr
  cases hnone

theorem Closed.cons {site : Site} (hs : site.routine? = none) (h : Closed sites) :
    Closed (site :: sites) := by
  have hone : Closed [site] :=
    closed_of_routineLabels (by simp only [routineLabels, List.filterMap_cons, hs]; rfl)
  exact hone.append h

end Closed

mutual

theorem Routine.closed (ctx : Context) : ∀ r : Routine, Closed (r.sites ctx)
  | .mk label name params body span => by
      have hbody : Closed (Param.allSites { ctx.opening [] with inRoutine := true } params
          ++ Decl.allSites (ctx.inRoutineOf params) body) :=
        (closed_of_routineLabels (Param.routineLabels_eq _ params)).append (Decl.allClosed _ body)
      intro ctx' r hr
      rw [Routine.sites] at hr ⊢
      -- The first site is the routine itself, and its sites are all there is.
      rcases List.mem_cons.1 hr with heq | hr
      · cases heq
        exact List.Subset.refl _
      · exact List.subset_cons_of_subset _ (hbody hr)

theorem Routine.allClosed (ctx : Context) : ∀ rs : List Routine, Closed (Routine.allSites ctx rs)
  | [] => nofun
  | r :: rs => (r.closed ctx).append (Routine.allClosed ctx rs)

theorem Decl.closed (ctx : Context) : ∀ d : Decl, Closed (d.sites ctx)
  | .classDecl _ _ _ methods _ =>
      .cons rfl ((closed_of_routineLabels (Superclass.routineLabels_eq _ _ _)).append
        (Routine.allClosed _ methods))
  | .funDecl routine _ => .cons rfl (routine.closed _)
  | .varDecl _ _ none _ => .cons rfl nofun
  | .varDecl _ _ (some value) _ => .cons rfl (closed_of_routineLabels (value.routineLabels_eq _))
  | .statement stmt => stmt.closed ctx

theorem Decl.allClosed (ctx : Context) : ∀ ds : List Decl, Closed (Decl.allSites ctx ds)
  | [] => nofun
  | d :: ds => (d.closed ctx).append (Decl.allClosed _ ds)

theorem Stmt.closed (ctx : Context) : ∀ s : Stmt, Closed (s.sites ctx)
  | .expression e _ => closed_of_routineLabels (e.routineLabels_eq ctx)
  | .print e _ => closed_of_routineLabels (e.routineLabels_eq ctx)
  | .ret _ none _ => .cons rfl nofun
  | .ret _ (some value) _ => .cons rfl (closed_of_routineLabels (value.routineLabels_eq ctx))
  | .block body _ => Decl.allClosed _ body
  | .ifElse condition thenBranch none _ =>
      (closed_of_routineLabels (condition.routineLabels_eq ctx)).append (thenBranch.closed ctx)
  | .ifElse condition thenBranch (some elseBranch) _ =>
      ((closed_of_routineLabels (condition.routineLabels_eq ctx)).append
        (thenBranch.closed ctx)).append (elseBranch.closed ctx)
  | .whileLoop condition body _ =>
      (closed_of_routineLabels (condition.routineLabels_eq ctx)).append (body.closed ctx)

end

/-- **The sites of a program are closed.** -/
theorem Program.closed (p : Program) : Closed p.sites := Decl.allClosed .global p.declarations

/-! ### Inside routines -/

mutual

/-- All sites of an expression stand in its context. -/
theorem Expr.ctx_of_mem_sites (ctx : Context) : ∀ e : Expr, ∀ s ∈ e.sites ctx, s.ctx = ctx
  | .constant _ _ => nofun
  | .grouping _ inner => inner.ctx_of_mem_sites ctx
  | .unary _ _ operand => operand.ctx_of_mem_sites ctx
  | .binary _ left _ _ right =>
      List.forall_mem_append.2 ⟨left.ctx_of_mem_sites ctx, right.ctx_of_mem_sites ctx⟩
  | .logical _ left _ right =>
      List.forall_mem_append.2 ⟨left.ctx_of_mem_sites ctx, right.ctx_of_mem_sites ctx⟩
  | .ternary _ condition _ thenBranch elseBranch =>
      List.forall_mem_append.2 ⟨List.forall_mem_append.2
        ⟨condition.ctx_of_mem_sites ctx, thenBranch.ctx_of_mem_sites ctx⟩,
        elseBranch.ctx_of_mem_sites ctx⟩
  | .variable _ _ => List.forall_mem_singleton.2 rfl
  | .assign _ _ value =>
      List.forall_mem_append.2 ⟨value.ctx_of_mem_sites ctx, List.forall_mem_singleton.2 rfl⟩
  | .call _ callee arguments _ =>
      List.forall_mem_append.2 ⟨callee.ctx_of_mem_sites ctx, Expr.ctx_of_mem_allSites ctx arguments⟩
  | .get _ object _ => object.ctx_of_mem_sites ctx
  | .set _ object _ value =>
      List.forall_mem_append.2 ⟨value.ctx_of_mem_sites ctx, object.ctx_of_mem_sites ctx⟩
  | .thisRef _ => List.forall_mem_singleton.2 rfl
  | .superRef _ _ => List.forall_mem_singleton.2 rfl

theorem Expr.ctx_of_mem_allSites (ctx : Context) : ∀ es : List Expr,
    ∀ s ∈ Expr.allSites ctx es, s.ctx = ctx
  | [] => nofun
  | e :: es =>
      List.forall_mem_append.2 ⟨e.ctx_of_mem_sites ctx, Expr.ctx_of_mem_allSites ctx es⟩

end

/-- Sites that stand inside a routine. -/
def Inner (sites : List Site) : Prop := ∀ s ∈ sites, s.ctx.inRoutine = true

theorem Expr.inner {ctx : Context} (h : ctx.inRoutine = true) (e : Expr) : Inner (e.sites ctx) := by
  intro s hs
  rw [e.ctx_of_mem_sites ctx s hs, h]

theorem Param.allInner {ctx : Context} (h : ctx.inRoutine = true) (ps : List Param) :
    Inner (Param.allSites ctx ps) := by
  induction ps generalizing ctx with
  | nil => nofun
  | cons p ps ih =>
      refine List.forall_mem_cons.2 ⟨h, ih ?_⟩
      rw [Context.define, Context.inRoutine_enter, h]

mutual

/-- What a routine mentions stands inside a routine. -/
theorem Routine.inner (ctx : Context) : ∀ r : Routine, Inner (r.sites ctx).tail
  | .mk _ _ params body _ =>
      List.forall_mem_append.2 ⟨Param.allInner rfl params,
        Decl.allInner (Context.inRoutine_inRoutineOf ctx params) body⟩

theorem Routine.allInner {ctx : Context} (h : ctx.inRoutine = true) : ∀ rs : List Routine,
    Inner (Routine.allSites ctx rs)
  | [] => nofun
  | .mk label name params body span :: rs =>
      List.forall_mem_append.2 ⟨List.forall_mem_cons.2
        ⟨h, Routine.inner ctx (.mk label name params body span)⟩, Routine.allInner h rs⟩

theorem Decl.inner {ctx : Context} (h : ctx.inRoutine = true) : ∀ d : Decl, Inner (d.sites ctx)
  | .classDecl name _ superclass methods _ => by
      have hdeclare : (ctx.declare name).inRoutine = true := by
        rw [Context.declare, Context.inRoutine_enter, h]
      refine List.forall_mem_cons.2 ⟨h, List.forall_mem_append.2 ⟨?_, Routine.allInner ?_ methods⟩⟩
      · cases superclass with
        | none => nofun
        | some parent => exact List.forall_mem_singleton.2 hdeclare
      · cases superclass <;> exact hdeclare
  | .funDecl (.mk label name params body span) _ =>
      have hdefine : (ctx.define name).inRoutine = true := by
        rw [Context.define, Context.inRoutine_enter, h]
      List.forall_mem_cons.2 ⟨h, List.forall_mem_cons.2
        ⟨hdefine, Routine.inner (ctx.define name) (.mk label name params body span)⟩⟩
  | .varDecl _ _ none _ => List.forall_mem_singleton.2 h
  | .varDecl name _ (some value) _ => by
      refine List.forall_mem_cons.2 ⟨h, value.inner ?_⟩
      change (ctx.declare name).inRoutine = true
      rw [Context.declare, Context.inRoutine_enter, h]
  | .statement stmt => stmt.inner h

theorem Decl.allInner {ctx : Context} (h : ctx.inRoutine = true) : ∀ ds : List Decl,
    Inner (Decl.allSites ctx ds)
  | [] => nofun
  | d :: ds => List.forall_mem_append.2 ⟨d.inner h,
      Decl.allInner ((Context.inRoutine_after ctx d).trans h) ds⟩

theorem Stmt.inner {ctx : Context} (h : ctx.inRoutine = true) : ∀ s : Stmt, Inner (s.sites ctx)
  | .expression e _ => e.inner h
  | .print e _ => e.inner h
  | .ret _ none _ => List.forall_mem_singleton.2 h
  | .ret _ (some value) _ => List.forall_mem_cons.2 ⟨h, value.inner h⟩
  | .block body _ =>
      have hopening : (ctx.opening []).inRoutine = true := h
      Decl.allInner hopening body
  | .ifElse condition thenBranch none _ =>
      List.forall_mem_append.2 ⟨condition.inner h, thenBranch.inner h⟩
  | .ifElse condition thenBranch (some elseBranch) _ =>
      List.forall_mem_append.2
        ⟨List.forall_mem_append.2 ⟨condition.inner h, thenBranch.inner h⟩, elseBranch.inner h⟩
  | .whileLoop condition body _ =>
      List.forall_mem_append.2 ⟨condition.inner h, body.inner h⟩

end

end Scriptlet
