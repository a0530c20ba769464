/-
**Every action restores the control of the machine.**

What controls a machine is the environment it is in and the number of calls that are open.  Blocks
and calls change both, but only for as long as they last: whether an action ends with a value or
with an error, and in the midst of whatever blocks and calls the error has come up, the machine is
left in the environment and with the open calls it had before.

Main definitions:

* `Scriptlet.Machine.Level` — machines under the same control;
* `Scriptlet.Outcome.Restores`, `Scriptlet.Action.Restores` — ends and actions that restore it.

Main results:

* `Scriptlet.restoring` — all evaluators restore it, by one induction on the fuel;
* `Scriptlet.Task.restores` — **so does every task, however it ends**.
-/

import Scriptlet.Proofs.Session.Moments

set_option relaxedAutoImplicit false
set_option autoImplicit false

namespace Scriptlet

/-! ### Machines under the same control -/

/-- **Machines under the same control**: they are in the same environment, they have the same
globals, and equally many calls are open. -/
structure Machine.Level (m m' : Machine) : Prop where
  scope : m'.scope = m.scope
  globals : m'.globals = m.globals
  depth : m'.depth = m.depth

namespace Machine.Level

variable {m m' m'' : Machine}

theorem refl (m : Machine) : m.Level m := ⟨rfl, rfl, rfl⟩

theorem trans (h : m.Level m') (h' : m'.Level m'') : m.Level m'' :=
  ⟨h'.scope.trans h.scope, h'.globals.trans h.globals, h'.depth.trans h.depth⟩

end Machine.Level

/-- An end that leaves a machine under the control it had. -/
def Outcome.Restores {α : Type} (m : Machine) : Outcome α → Prop
  | .done _ m' => m.Level m'
  | .failed _ m' => m.Level m'
  | .starved => True

theorem Outcome.restores_forget {α : Type} {m : Machine} {o : Outcome α} :
    o.forget.Restores m ↔ o.Restores m := by
  cases o <;> rfl

theorem Outcome.Restores.of_level {α : Type} {m m' : Machine} {o : Outcome α}
    (ho : o.Restores m') (h : m.Level m') : o.Restores m := by
  cases o with
  | done a m'' => exact h.trans ho
  | failed e m'' => exact h.trans ho
  | starved => trivial

/-! ### Actions that restore the control -/

/-- **An action that leaves every machine under the control it had.** -/
def Action.Restores {α : Type} (x : Action α) : Prop := ∀ m, (x m).Restores m

namespace Action.Restores

variable {α β : Type} {x : Action α}

theorem pure (a : α) : (Pure.pure a : Action α).Restores := fun m => .refl m

theorem fail (fault : RuntimeFault) (span : Span) : (Action.fail fault span : Action α).Restores :=
  fun m => .refl m

theorem read (f : Machine → α) : (Action.read f).Restores := fun m => .refl m

theorem onStore (f : Store → α × Store) : (Action.onStore f).Restores := fun _ => ⟨rfl, rfl, rfl⟩

theorem changeStore (f : Store → Store) : (Action.changeStore f).Restores := fun _ =>
  ⟨rfl, rfl, rfl⟩

theorem readClock (setting : Setting) : (Action.readClock setting).Restores := fun _ =>
  ⟨rfl, rfl, rfl⟩

/-- What has been printed does not control the machine, even if no more can be printed. -/
theorem emit (text : String) (span : Span) : (Action.emit text span).Restores := by
  intro m
  unfold Action.emit
  split
  · exact ⟨rfl, rfl, rfl⟩
  · exact ⟨rfl, rfl, rfl⟩

theorem require (a : Option α) (fault : RuntimeFault) (span : Span) :
    (Action.require a fault span).Restores := by
  cases a with
  | some a => exact .pure a
  | none => exact .fail fault span

theorem ofExcept (r : Except RuntimeFault α) (span : Span) :
    (Action.ofExcept r span).Restores := by
  cases r with
  | ok a => exact .pure a
  | error fault => exact .fail fault span

theorem bind {f : α → Action β} (hx : x.Restores) (hf : ∀ a, (f a).Restores) :
    (x >>= f).Restores := by
  intro m
  have hm := hx m
  rw [Action.bind_apply]
  cases h : x m with
  | done a m' =>
      rw [h] at hm
      exact (hf a m').of_level hm
  | failed e m' =>
      rw [h] at hm
      exact hm
  | starved => trivial

/-- A block returns to the environment around it. -/
theorem inChildOf (environment : Environment) (hx : x.Restores) :
    (Action.inChildOf environment x).Restores := by
  intro m
  have hm := hx (m.entering environment)
  rw [Action.inChildOf_apply]
  cases h : x (m.entering environment) with
  | done a m' =>
      rw [h] at hm
      exact ⟨rfl, hm.globals, hm.depth⟩
  | failed e m' =>
      rw [h] at hm
      exact ⟨rfl, hm.globals, hm.depth⟩
  | starved => trivial

/-- A call is closed again. -/
theorem framed (hx : x.Restores) : (Action.framed x).Restores := by
  intro m
  have hm := hx { m with depth := m.depth + 1 }
  rw [Action.framed_apply]
  cases h : x { m with depth := m.depth + 1 } with
  | done a m' =>
      rw [h] at hm
      exact ⟨hm.scope, hm.globals, by rw [hm.depth, Nat.add_sub_cancel]⟩
  | failed e m' =>
      rw [h] at hm
      exact ⟨hm.scope, hm.globals, by rw [hm.depth, Nat.add_sub_cancel]⟩
  | starved => trivial

theorem define (name : String) (v : Value) : (Action.define name v).Restores :=
  .bind (.read _) fun _ => .changeStore _

theorem bindArguments (ps : List Param) (vs : List Value) :
    (Action.bindArguments ps vs).Restores := by
  induction ps generalizing vs with
  | nil => exact .pure ()
  | cons p ps ih =>
      cases vs with
      | nil => exact .pure ()
      | cons v vs => exact .bind (.define p.name v) fun _ => ih vs

section Names

variable (setting : Setting) (mark : Mark)

theorem lookUp (name : String) : (Action.lookUp setting mark name).Restores := by
  unfold Action.lookUp
  split
  · exact .bind (.read _) fun _ => .require _ _ _
  · exact .bind (.read _) fun _ => .require _ _ _

theorem assign (name : String) (v : Value) : (Action.assign setting mark name v).Restores := by
  unfold Action.assign
  split
  all_goals
    refine .bind (.read _) fun environment => .bind (.onStore _) fun assigned => ?_
    split
    · exact .pure ()
    · exact .fail _ _

theorem superMethod (method : String) : (Action.superMethod setting mark method).Restores := by
  unfold Action.superMethod
  refine .bind (.require _ _ _) fun distance => ?_
  refine .bind (.read _) fun parent => .bind (.read _) fun receiver => ?_
  split
  · exact .bind (.require _ _ _) fun found => .bind (.onStore _) fun bound => .pure _
  · exact .fail _ _

theorem makeClass (name : String) (superclass : Option Superclass) (methods : List Routine) :
    (Action.makeClass setting name superclass methods).Restores := by
  unfold Action.makeClass
  refine .bind (.read _) fun scope => ?_
  cases superclass with
  | none => exact .onStore _
  | some parent =>
      refine .bind (.lookUp setting parent.mark parent.name) fun v => ?_
      split
      · exact .bind (.onStore _) fun inner => .bind (.changeStore _) fun _ => .onStore _
      · exact .fail _ _

end Names

end Action.Restores

/-! ### Evaluators -/

/-- With some fuel, all evaluators restore the control. -/
structure Restoring (setting : Setting) (fuel : Nat) : Prop where
  evaluate : ∀ e, (evaluate setting fuel e).Restores
  evaluateAll : ∀ es, (evaluateAll setting fuel es).Restores
  apply : ∀ f arguments site, (apply setting fuel f arguments site).Restores
  call : ∀ f arguments site, (call setting fuel f arguments site).Restores
  execute : ∀ d, (execute setting fuel d).Restores
  executeAll : ∀ ds, (executeAll setting fuel ds).Restores
  perform : ∀ stmt, (perform setting fuel stmt).Restores

namespace Restoring

variable {setting : Setting} {fuel : Nat}

theorem evaluate_succ (ih : Restoring setting fuel) (e : Expr) :
    (Scriptlet.evaluate setting (fuel + 1) e).Restores := by
  cases e with
  | constant mark value =>
      rw [Scriptlet.evaluate]
      exact .pure _
  | grouping mark inner =>
      rw [Scriptlet.evaluate]
      exact ih.evaluate inner
  | unary mark op operand =>
      rw [Scriptlet.evaluate]
      exact .bind (ih.evaluate operand) fun v => .ofExcept _ _
  | binary mark left op opSpan right =>
      rw [Scriptlet.evaluate]
      exact .bind (ih.evaluate left) fun v => .bind (ih.evaluate right) fun w => .ofExcept _ _
  | logical mark left op right =>
      rw [Scriptlet.evaluate]
      refine .bind (ih.evaluate left) fun v => ?_
      split
      · exact .pure v
      · exact ih.evaluate right
  | ternary mark condition question thenBranch elseBranch =>
      rw [Scriptlet.evaluate]
      refine .bind (ih.evaluate condition) fun v => .bind (ih.evaluate _) fun w => ?_
      split
      · exact .pure _
      · exact .fail _ _
  | «variable» mark name =>
      rw [Scriptlet.evaluate]
      exact .lookUp setting mark name
  | assign mark name value =>
      rw [Scriptlet.evaluate]
      exact .bind (ih.evaluate value) fun v => .bind (.assign setting mark name v) fun _ => .pure v
  | call mark callee arguments paren =>
      rw [Scriptlet.evaluate]
      refine .bind (ih.evaluate callee) fun f => .bind (ih.evaluateAll arguments) fun vs => ?_
      exact ih.apply f vs paren
  | get mark object name =>
      rw [Scriptlet.evaluate]
      refine .bind (ih.evaluate object) fun v => ?_
      split
      · exact .bind (.onStore _) fun found => .require _ _ _
      · exact .fail _ _
  | set mark object name value =>
      rw [Scriptlet.evaluate]
      refine .bind (ih.evaluate object) fun v => ?_
      split
      · exact .bind (ih.evaluate value) fun w => .bind (.changeStore _) fun _ => .pure w
      · exact .fail _ _
  | thisRef mark =>
      rw [Scriptlet.evaluate]
      exact .lookUp setting mark "this"
  | superRef mark method =>
      rw [Scriptlet.evaluate]
      exact .superMethod setting mark method

theorem evaluateAll_succ (ih : Restoring setting fuel) (es : List Expr) :
    (Scriptlet.evaluateAll setting (fuel + 1) es).Restores := by
  cases es with
  | nil =>
      rw [Scriptlet.evaluateAll]
      exact .pure []
  | cons e es =>
      rw [Scriptlet.evaluateAll]
      exact .bind (ih.evaluate e) fun v => .bind (ih.evaluateAll es) fun vs => .pure _

theorem apply_succ (ih : Restoring setting fuel) (f : Value) (arguments : List Value)
    (site : Span) : (Scriptlet.apply setting (fuel + 1) f arguments site).Restores := by
  cases f with
  | closure f =>
      rw [Scriptlet.apply]
      split
      · exact ih.call f arguments site
      · exact .fail _ _
  | cls c =>
      rw [Scriptlet.apply]
      split
      · refine .bind (.onStore _) fun object => ?_
        split
        · refine .bind (.onStore _) fun bound => ?_
          exact .bind (ih.call bound arguments site) fun _ => .pure object
        · exact .pure object
      · exact .fail _ _
  | native f =>
      cases f
      rw [Scriptlet.apply]
      split
      · exact .bind (.readClock setting) fun x => .pure _
      · exact .fail _ _
  | _ =>
      rw [Scriptlet.apply]
      · exact .fail _ _
      all_goals
        intros
        contradiction

/-- Behind a call, the environment and the open calls are those in front of it, even if the body
has failed or returned from within blocks. -/
theorem call_succ (ih : Restoring setting fuel) (f : Closure) (arguments : List Value)
    (site : Span) : (Scriptlet.call setting (fuel + 1) f arguments site).Restores := by
  rw [Scriptlet.call]
  refine .bind (.read _) fun depth => ?_
  split
  · exact .fail _ _
  · refine .bind (.framed (.inChildOf _ ?_)) fun completion => ?_
    · exact .bind (.bindArguments _ _) fun _ => ih.executeAll f.routine.body
    · split
      · exact .bind (.read _) fun receiver => .require _ _ _
      · exact .pure _

theorem execute_succ (ih : Restoring setting fuel) (d : Decl) :
    (Scriptlet.execute setting (fuel + 1) d).Restores := by
  cases d with
  | varDecl name nameSpan initializer span =>
      cases initializer with
      | none =>
          rw [Scriptlet.execute]
          exact .bind (.pure _) fun v => .bind (.define name v) fun _ => .pure _
      | some value =>
          rw [Scriptlet.execute]
          exact .bind (ih.evaluate value) fun v => .bind (.define name v) fun _ => .pure _
  | funDecl routine span =>
      rw [Scriptlet.execute]
      exact .bind (.read _) fun scope => .bind (.define _ _) fun _ => .pure _
  | classDecl name nameSpan superclass methods span =>
      rw [Scriptlet.execute]
      refine .bind (.makeClass setting name superclass methods) fun c => ?_
      exact .bind (.define _ _) fun _ => .pure _
  | statement stmt =>
      rw [Scriptlet.execute]
      exact ih.perform stmt

theorem executeAll_succ (ih : Restoring setting fuel) (ds : List Decl) :
    (Scriptlet.executeAll setting (fuel + 1) ds).Restores := by
  cases ds with
  | nil =>
      rw [Scriptlet.executeAll]
      exact .pure _
  | cons d ds =>
      rw [Scriptlet.executeAll]
      refine .bind (ih.execute d) fun c => ?_
      cases c with
      | normal => exact ih.executeAll ds
      | returned v => exact .pure _

theorem perform_succ (ih : Restoring setting fuel) (stmt : Stmt) :
    (Scriptlet.perform setting (fuel + 1) stmt).Restores := by
  cases stmt with
  | expression e span =>
      rw [Scriptlet.perform]
      exact .bind (ih.evaluate e) fun _ => .pure _
  | print e span =>
      rw [Scriptlet.perform]
      exact .bind (ih.evaluate e) fun v => .bind (.emit _ _) fun _ => .pure _
  | ret keyword value span =>
      cases value with
      | none =>
          rw [Scriptlet.perform]
          exact .pure _
      | some value =>
          rw [Scriptlet.perform]
          exact .bind (ih.evaluate value) fun v => .pure _
  | block body span =>
      rw [Scriptlet.perform]
      exact .bind (.read _) fun scope => .inChildOf scope (ih.executeAll body)
  | ifElse condition thenBranch elseBranch span =>
      cases elseBranch with
      | none =>
          rw [Scriptlet.perform]
          refine .bind (ih.evaluate condition) fun v => ?_
          split
          · exact ih.perform thenBranch
          · exact .pure _
      | some elseBranch =>
          rw [Scriptlet.perform]
          refine .bind (ih.evaluate condition) fun v => ?_
          split
          · exact ih.perform thenBranch
          · exact ih.perform elseBranch
  | whileLoop condition body span =>
      rw [Scriptlet.perform]
      refine .bind (ih.evaluate condition) fun v => ?_
      split
      · refine .bind (ih.perform body) fun c => ?_
        cases c with
        | normal => exact ih.perform _
        | returned v => exact .pure _
      · exact .pure _

end Restoring

/-- **All evaluators restore the control of the machine**, with whatever fuel. -/
theorem restoring (setting : Setting) (fuel : Nat) : Restoring setting fuel := by
  induction fuel with
  | zero =>
      exact
        { evaluate := fun _ _ => trivial
          evaluateAll := fun _ _ => trivial
          apply := fun _ _ _ _ => trivial
          call := fun _ _ _ _ => trivial
          execute := fun _ _ => trivial
          executeAll := fun _ _ => trivial
          perform := fun _ _ => trivial }
  | succ fuel ih =>
      exact
        { evaluate := ih.evaluate_succ
          evaluateAll := ih.evaluateAll_succ
          apply := ih.apply_succ
          call := ih.call_succ
          execute := ih.execute_succ
          executeAll := ih.executeAll_succ
          perform := ih.perform_succ }

/-- **Every task restores the control of the machine, however it ends.** -/
theorem Task.restores (setting : Setting) (fuel : Nat) (m : Machine) (t : Task) :
    (t.outcome setting fuel m).Restores m := by
  have h := restoring setting fuel
  unfold outcome
  cases t
  all_goals refine Outcome.restores_forget.2 ?_
  case evaluate e => exact h.evaluate e m
  case evaluateAll es => exact h.evaluateAll es m
  case apply f arguments site => exact h.apply f arguments site m
  case call f arguments site => exact h.call f arguments site m
  case execute d => exact h.execute d m
  case executeAll ds => exact h.executeAll ds m
  case perform stmt => exact h.perform stmt m
  case lookUp mark name => exact Action.Restores.lookUp setting mark name m
  case assign mark name v => exact Action.Restores.assign setting mark name v m
  case superMethod mark method => exact Action.Restores.superMethod setting mark method m

/-- The declarations of a program restore the control, up to the first that fails. -/
theorem runDeclarations_restores (setting : Setting) (fuel : Nat) (ds : List Decl) :
    (runDeclarations setting fuel ds).Restores := by
  induction ds with
  | nil => exact .pure ()
  | cons d ds ih =>
      rw [runDeclarations]
      refine .bind ((restoring setting fuel).execute d) fun c => ?_
      cases c with
      | normal => exact ih
      | returned v => exact .fail _ _

end Scriptlet
