/-
**More fuel changes no end.**

An action that has come to an end comes to the same end if it has more fuel.  So the fuel only
decides whether there is an end, and a session answers the same with every fuel that suffices.

Main definitions:

* `Scriptlet.Action.Below` — an action that ends as another does, or runs out of fuel.

Main results:

* `Scriptlet.rising` — all evaluators are below themselves with one more unit of fuel;
* `Scriptlet.runDeclarations_mono` — **a run that ends does so with more fuel, too**.
-/

import Scriptlet.Proofs.Session.Moments

set_option relaxedAutoImplicit false
set_option autoImplicit false

namespace Scriptlet

namespace Action

variable {α β : Type}

/-- **An action that ends as another does, or runs out of fuel.** -/
def Below (x y : Action α) : Prop := ∀ m, x m = .starved ∨ x m = y m

namespace Below

variable {x y z : Action α}

theorem refl (x : Action α) : Below x x := fun _ => .inr rfl

theorem starve (y : Action α) : Below Action.starve y := fun _ => .inl rfl

theorem trans (h : Below x y) (h' : Below y z) : Below x z := by
  intro m
  rcases h m with hx | hx
  · exact .inl hx
  · rw [hx]
    exact h' m

theorem bind {f g : α → Action β} (h : Below x y) (hf : ∀ a, Below (f a) (g a)) :
    Below (x >>= f) (y >>= g) := by
  intro m
  rw [bind_apply, bind_apply]
  rcases h m with hx | hx
  · rw [hx]
    exact .inl rfl
  · rw [hx]
    cases y m with
    | done a m' => exact hf a m'
    | failed e m' => exact .inr rfl
    | starved => exact .inl rfl

theorem inChildOf (environment : Environment) (h : Below x y) :
    Below (Action.inChildOf environment x) (Action.inChildOf environment y) := by
  intro m
  rw [inChildOf_apply, inChildOf_apply]
  rcases h (m.entering environment) with hx | hx
  · rw [hx]
    exact .inl rfl
  · rw [hx]
    exact .inr rfl

theorem framed (h : Below x y) : Below (Action.framed x) (Action.framed y) := by
  intro m
  rw [framed_apply, framed_apply]
  rcases h { m with depth := m.depth + 1 } with hx | hx
  · rw [hx]
    exact .inl rfl
  · rw [hx]
    exact .inr rfl

end Below

end Action

/-! ### Evaluators -/

/-- With some fuel, all evaluators are below themselves with one more unit. -/
structure Rising (setting : Setting) (fuel : Nat) : Prop where
  evaluate : ∀ e, (evaluate setting fuel e).Below (evaluate setting (fuel + 1) e)
  evaluateAll : ∀ es, (evaluateAll setting fuel es).Below (evaluateAll setting (fuel + 1) es)
  apply : ∀ f arguments site,
    (apply setting fuel f arguments site).Below (apply setting (fuel + 1) f arguments site)
  call : ∀ f arguments site,
    (call setting fuel f arguments site).Below (call setting (fuel + 1) f arguments site)
  execute : ∀ d, (execute setting fuel d).Below (execute setting (fuel + 1) d)
  executeAll : ∀ ds, (executeAll setting fuel ds).Below (executeAll setting (fuel + 1) ds)
  perform : ∀ stmt, (perform setting fuel stmt).Below (perform setting (fuel + 1) stmt)

namespace Rising

variable {setting : Setting} {fuel : Nat}

open Scriptlet.Action

theorem evaluate_succ (ih : Rising setting fuel) (e : Expr) :
    (Scriptlet.evaluate setting (fuel + 1) e).Below
      (Scriptlet.evaluate setting (fuel + 1 + 1) e) := by
  -- what is not evaluated by parts takes no fuel
  cases e with
  | constant mark value =>
      rw [Scriptlet.evaluate, Scriptlet.evaluate]
      exact .refl _
  | grouping mark inner =>
      rw [Scriptlet.evaluate, Scriptlet.evaluate]
      exact ih.evaluate inner
  | unary mark op operand =>
      rw [Scriptlet.evaluate, Scriptlet.evaluate]
      exact .bind (ih.evaluate operand) fun v => .refl _
  | binary mark left op opSpan right =>
      rw [Scriptlet.evaluate, Scriptlet.evaluate]
      exact .bind (ih.evaluate left) fun v => .bind (ih.evaluate right) fun w => .refl _
  | logical mark left op right =>
      rw [Scriptlet.evaluate, Scriptlet.evaluate]
      refine .bind (ih.evaluate left) fun v => ?_
      split
      · exact .refl _
      · exact ih.evaluate right
  | ternary mark condition question thenBranch elseBranch =>
      rw [Scriptlet.evaluate, Scriptlet.evaluate]
      exact .bind (ih.evaluate condition) fun v => .bind (ih.evaluate _) fun w => .refl _
  | «variable» mark name =>
      rw [Scriptlet.evaluate, Scriptlet.evaluate]
      exact .refl _
  | assign mark name value =>
      rw [Scriptlet.evaluate, Scriptlet.evaluate]
      exact .bind (ih.evaluate value) fun v => .refl _
  | call mark callee arguments paren =>
      rw [Scriptlet.evaluate, Scriptlet.evaluate]
      refine .bind (ih.evaluate callee) fun f => .bind (ih.evaluateAll arguments) fun vs => ?_
      exact ih.apply f vs paren
  | get mark object name =>
      rw [Scriptlet.evaluate, Scriptlet.evaluate]
      exact .bind (ih.evaluate object) fun v => .refl _
  | set mark object name value =>
      rw [Scriptlet.evaluate, Scriptlet.evaluate]
      refine .bind (ih.evaluate object) fun v => ?_
      split
      · exact .bind (ih.evaluate value) fun w => .refl _
      · exact .refl _
  | thisRef mark =>
      rw [Scriptlet.evaluate, Scriptlet.evaluate]
      exact .refl _
  | superRef mark method =>
      rw [Scriptlet.evaluate, Scriptlet.evaluate]
      exact .refl _

theorem evaluateAll_succ (ih : Rising setting fuel) (es : List Expr) :
    (Scriptlet.evaluateAll setting (fuel + 1) es).Below
      (Scriptlet.evaluateAll setting (fuel + 1 + 1) es) := by
  cases es with
  | nil =>
      rw [Scriptlet.evaluateAll, Scriptlet.evaluateAll]
      exact .refl _
  | cons e es =>
      rw [Scriptlet.evaluateAll, Scriptlet.evaluateAll]
      exact .bind (ih.evaluate e) fun v => .bind (ih.evaluateAll es) fun vs => .refl _

theorem apply_succ (ih : Rising setting fuel) (f : Value) (arguments : List Value)
    (site : Span) :
    (Scriptlet.apply setting (fuel + 1) f arguments site).Below
      (Scriptlet.apply setting (fuel + 1 + 1) f arguments site) := by
  cases f with
  | closure f =>
      rw [Scriptlet.apply, Scriptlet.apply]
      split
      · exact ih.call f arguments site
      · exact .refl _
  | cls c =>
      rw [Scriptlet.apply, Scriptlet.apply]
      split
      · refine .bind (.refl _) fun object => ?_
        split
        · refine .bind (.refl _) fun bound => ?_
          exact .bind (ih.call bound arguments site) fun _ => .refl _
        · exact .refl _
      · exact .refl _
  | native f =>
      cases f
      rw [Scriptlet.apply, Scriptlet.apply]
      exact .refl _
  | _ =>
      rw [Scriptlet.apply, Scriptlet.apply]
      · exact .refl _
      all_goals
        intros
        contradiction

theorem call_succ (ih : Rising setting fuel) (f : Closure) (arguments : List Value)
    (site : Span) :
    (Scriptlet.call setting (fuel + 1) f arguments site).Below
      (Scriptlet.call setting (fuel + 1 + 1) f arguments site) := by
  rw [Scriptlet.call, Scriptlet.call]
  refine .bind (.refl _) fun depth => ?_
  split
  · exact .refl _
  · refine .bind (.framed (.inChildOf _ ?_)) fun completion => .refl _
    exact .bind (.refl _) fun _ => ih.executeAll f.routine.body

theorem execute_succ (ih : Rising setting fuel) (d : Decl) :
    (Scriptlet.execute setting (fuel + 1) d).Below
      (Scriptlet.execute setting (fuel + 1 + 1) d) := by
  cases d with
  | varDecl name nameSpan initializer span =>
      cases initializer with
      | none =>
          rw [Scriptlet.execute, Scriptlet.execute]
          exact .refl _
      | some value =>
          rw [Scriptlet.execute, Scriptlet.execute]
          exact .bind (ih.evaluate value) fun v => .refl _
  | funDecl routine span =>
      rw [Scriptlet.execute, Scriptlet.execute]
      exact .refl _
  | classDecl name nameSpan superclass methods span =>
      rw [Scriptlet.execute, Scriptlet.execute]
      exact .refl _
  | statement stmt =>
      rw [Scriptlet.execute, Scriptlet.execute]
      exact ih.perform stmt

theorem executeAll_succ (ih : Rising setting fuel) (ds : List Decl) :
    (Scriptlet.executeAll setting (fuel + 1) ds).Below
      (Scriptlet.executeAll setting (fuel + 1 + 1) ds) := by
  cases ds with
  | nil =>
      rw [Scriptlet.executeAll, Scriptlet.executeAll]
      exact .refl _
  | cons d ds =>
      rw [Scriptlet.executeAll, Scriptlet.executeAll]
      refine .bind (ih.execute d) fun c => ?_
      cases c with
      | normal => exact ih.executeAll ds
      | returned v => exact .refl _

theorem perform_succ (ih : Rising setting fuel) (stmt : Stmt) :
    (Scriptlet.perform setting (fuel + 1) stmt).Below
      (Scriptlet.perform setting (fuel + 1 + 1) stmt) := by
  cases stmt with
  | expression e span =>
      rw [Scriptlet.perform, Scriptlet.perform]
      exact .bind (ih.evaluate e) fun _ => .refl _
  | print e span =>
      rw [Scriptlet.perform, Scriptlet.perform]
      exact .bind (ih.evaluate e) fun v => .refl _
  | ret keyword value span =>
      cases value with
      | none =>
          rw [Scriptlet.perform, Scriptlet.perform]
          exact .refl _
      | some value =>
          rw [Scriptlet.perform, Scriptlet.perform]
          exact .bind (ih.evaluate value) fun v => .refl _
  | block body span =>
      rw [Scriptlet.perform, Scriptlet.perform]
      exact .bind (.refl _) fun scope => .inChildOf scope (ih.executeAll body)
  | ifElse condition thenBranch elseBranch span =>
      cases elseBranch with
      | none =>
          rw [Scriptlet.perform, Scriptlet.perform]
          refine .bind (ih.evaluate condition) fun v => ?_
          split
          · exact ih.perform thenBranch
          · exact .refl _
      | some elseBranch =>
          rw [Scriptlet.perform, Scriptlet.perform]
          refine .bind (ih.evaluate condition) fun v => ?_
          split
          · exact ih.perform thenBranch
          · exact ih.perform elseBranch
  | whileLoop condition body span =>
      rw [Scriptlet.perform, Scriptlet.perform]
      refine .bind (ih.evaluate condition) fun v => ?_
      split
      · refine .bind (ih.perform body) fun c => ?_
        cases c with
        | normal => exact ih.perform _
        | returned v => exact .refl _
      · exact .refl _

end Rising

/-- **All evaluators are below themselves with one more unit of fuel.** -/
theorem rising (setting : Setting) (fuel : Nat) : Rising setting fuel := by
  induction fuel with
  | zero =>
      exact
        { evaluate := fun _ => .starve _
          evaluateAll := fun _ => .starve _
          apply := fun _ _ _ => .starve _
          call := fun _ _ _ => .starve _
          execute := fun _ => .starve _
          executeAll := fun _ => .starve _
          perform := fun _ => .starve _ }
  | succ fuel ih =>
      exact
        { evaluate := ih.evaluate_succ
          evaluateAll := ih.evaluateAll_succ
          apply := ih.apply_succ
          call := ih.call_succ
          execute := ih.execute_succ
          executeAll := ih.executeAll_succ
          perform := ih.perform_succ }

/-! ### Programs -/

section Programs

variable {setting : Setting} {fuel fuel' : Nat}

theorem execute_mono (h : fuel ≤ fuel') (d : Decl) :
    (execute setting fuel d).Below (execute setting fuel' d) := by
  induction h with
  | refl => exact .refl _
  | step _ ih => exact ih.trans ((rising setting _).execute d)

theorem runDeclarations_below (h : fuel ≤ fuel') (ds : List Decl) :
    (runDeclarations setting fuel ds).Below (runDeclarations setting fuel' ds) := by
  induction ds with
  | nil => exact .refl _
  | cons d ds ih =>
      rw [runDeclarations, runDeclarations]
      refine .bind (execute_mono h d) fun c => ?_
      cases c with
      | normal => exact ih
      | returned v => exact .refl _

/-- **A run that ends does so with more fuel, too.** -/
theorem runDeclarations_mono (h : fuel ≤ fuel') {ds : List Decl} {m : Machine} {o : Outcome Unit}
    (hrun : runDeclarations setting fuel ds m = o) (ho : o ≠ .starved) :
    runDeclarations setting fuel' ds m = o := by
  rcases runDeclarations_below h ds m with hstarved | heq
  · exact absurd (hrun.symm.trans hstarved) ho
  · exact heq.symm.trans hrun

end Programs

end Scriptlet
