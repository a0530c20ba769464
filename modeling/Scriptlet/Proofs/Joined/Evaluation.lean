/-
**Running a program that has moved.**

A run does not depend on where its program stands: if the program moves, and with it all that the
machine holds, the run goes through the machines that have moved, prints the same, and ends at the
new place of where it ended.  Numbers of expressions play no part, for names are looked up by name.

Main definitions:

* `Scriptlet.Outcome.relocate` — an outcome that has moved;
* `Scriptlet.Action.Moves` — **an action does the same on a machine that has moved**;
* `Scriptlet.Lexical.Moving` — what is shown with a given fuel.

Main results:

* `Scriptlet.Action.Moves.bind` — two actions in a row move if both do;
* `Scriptlet.Lexical.moving` — **every evaluation moves with its program**, whatever the fuel;
* `Scriptlet.Lexical.runDeclarations_moves` — so does the run of a program;
* `Scriptlet.Lexical.runDeclarations_append` — declarations run one after the other.
-/

import Scriptlet.Proofs.Joined.Values

set_option relaxedAutoImplicit false
set_option autoImplicit false

namespace Scriptlet

variable {α β γ δ : Type} {φ : Relocation}

/-- An outcome that has moved. -/
def Outcome.relocate (φ : Relocation) (g : α → β) : Outcome α → Outcome β
  | .done a m => .done (g a) (m.relocate φ)
  | .failed e m => .failed (e.relocate φ) (m.relocate φ)
  | .starved => .starved

/-- **An action does the same on a machine that has moved.** -/
def Action.Moves (φ : Relocation) (g : α → β) (x : Action α) (x' : Action β) : Prop :=
  ∀ m, x' (m.relocate φ) = (x m).relocate φ g

/-! ### Single actions -/

namespace Action.Moves

variable {g : α → β} {k : γ → δ}

theorem pure (g : α → β) (a : α) : Moves φ g (Action.pure a) (Action.pure (g a)) := fun _ => rfl

/-- **Two actions in a row move if both do.** -/
theorem bind {x : Action α} {x' : Action β} {f : α → Action γ} {f' : β → Action δ}
    (hx : Moves φ g x x') (hf : ∀ a, Moves φ k (f a) (f' (g a))) :
    Moves φ k (x >>= f) (x' >>= f') := by
  intro m
  rw [bind_apply, bind_apply, hx m]
  cases x m with
  | done a m₁ => exact hf a m₁
  | failed e m₁ => rfl
  | starved => rfl

theorem starve : Moves φ g Action.starve Action.starve := fun _ => rfl

theorem fail (g : α → β) (fault : RuntimeFault) (span : Span) :
    Moves φ g (Action.fail fault span) (Action.fail fault (φ.span span)) := fun _ => rfl

theorem require (g : α → β) (a : Option α) (fault : RuntimeFault) (span : Span) :
    Moves φ g (Action.require a fault span) (Action.require (a.map g) fault (φ.span span)) := by
  cases a with
  | none => exact .fail g fault span
  | some a => exact .pure g a

theorem read {f : Machine → α} {f' : Machine → β} (h : ∀ m, f' (m.relocate φ) = g (f m)) :
    Moves φ g (Action.read f) (Action.read f') := fun m => congrArg (Outcome.done · _) (h m)

theorem onStore {f : Store → α × Store} {f' : Store → β × Store}
    (h : ∀ s, f' (s.relocate φ) = (g (f s).1, (f s).2.relocate φ)) :
    Moves φ g (Action.onStore f) (Action.onStore f') := by
  intro m
  simp only [Action.onStore, Machine.relocate, h]
  rfl

theorem changeStore {f f' : Store → Store} (h : ∀ s, f' (s.relocate φ) = (f s).relocate φ) :
    Moves φ id (Action.changeStore f) (Action.changeStore f') := by
  intro m
  simp only [Action.changeStore, Machine.relocate, h]
  rfl

theorem emit (text : String) (span : Span) :
    Moves φ id (Action.emit text span) (Action.emit text (φ.span span)) := by
  intro m
  simp only [Action.emit, Machine.relocate]
  split <;> simp_all [Outcome.relocate, Machine.relocate, RuntimeError.relocate]

theorem readClock (setting : Setting) :
    Moves φ id (Action.readClock setting) (Action.readClock setting) := fun _ => rfl

theorem within (e : Environment) {x : Action α} {x' : Action β} (hx : Moves φ g x x') :
    Moves φ g (Action.within e x) (Action.within e x') := by
  intro m
  have h := hx { m with scope := e }
  rw [within_apply, within_apply]
  simp only [Machine.relocate] at h ⊢
  rw [h]
  cases x { m with scope := e } <;> rfl

theorem framed {x : Action α} {x' : Action β} (hx : Moves φ g x x') :
    Moves φ g (Action.framed x) (Action.framed x') := by
  intro m
  have h := hx { m with depth := m.depth + 1 }
  rw [framed_apply, framed_apply]
  simp only [Machine.relocate] at h ⊢
  rw [h]
  cases x { m with depth := m.depth + 1 } <;> rfl

theorem ofExcept (result : Except RuntimeFault α) (span : Span) :
    Moves φ g (Action.ofExcept result span) (Action.ofExcept (result.map g) (φ.span span)) := by
  cases result with
  | ok a => exact .pure g a
  | error fault => exact .fail g fault span

theorem define (name : String) (v : Value) :
    Moves φ id (Action.define name v) (Action.define name (v.relocate φ)) :=
  .bind (.read fun _ => rfl) fun scope => .changeStore fun s => s.define_relocate φ scope name v

/-- Actions between which a truth value decides. -/
theorem ite {p : Prop} [Decidable p] {x y : Action α} {x' y' : Action β} (hx : Moves φ g x x')
    (hy : Moves φ g y y') : Moves φ g (if p then x else y) (if p then x' else y') := by
  split
  · exact hx
  · exact hy

end Action.Moves

namespace Lexical

open Scriptlet.Action (Moves)

/-! ### Names -/

theorem lookUp_moves (name : String) (span : Span) :
    Moves φ (Value.relocate φ) (lookUp name span) (lookUp name (φ.span span)) :=
  .bind (.read fun m => m.store.get?_relocate φ m.scope name) fun found =>
    .require _ found _ span

theorem assign_moves (name : String) (v : Value) (span : Span) :
    Moves φ id (assign name v span) (assign name (v.relocate φ) (φ.span span)) :=
  .bind (.read fun _ => rfl) fun scope =>
    .bind (.onStore fun s => s.assign_relocate φ scope name v) fun _ =>
      .ite (.pure id ()) (.fail id _ span)

theorem declare_moves (name : String) (v : Value) :
    Moves φ id (declare name v) (declare name (v.relocate φ)) := by
  intro m
  simp only [declare, Machine.relocate, Store.allot_relocate]
  rfl

theorem announce_moves (isLocal : Bool) (name : String) :
    Moves φ id (announce isLocal name) (announce isLocal name) :=
  .ite (declare_moves name .nil) (.pure id ())

theorem bindArguments_moves (ps : List Param) (vs : List Value) :
    Moves φ id (bindArguments ps vs)
      (bindArguments (ps.map (Param.relocate φ)) (vs.map (Value.relocate φ))) := by
  induction ps generalizing vs with
  | nil => exact .pure id ()
  | cons p ps ih =>
      cases vs with
      | nil => exact .pure id ()
      | cons v vs => exact .bind (declare_moves p.name v) fun _ => ih vs

theorem superMethod_moves (method : String) (span : Span) :
    Moves φ (Value.relocate φ) (superMethod method span) (superMethod method (φ.span span)) := by
  refine .bind (.read fun m => m.store.get?_relocate φ m.scope "super") fun parent =>
    .bind (.read fun m => m.store.get?_relocate φ m.scope "this") fun receiver => ?_
  -- only a class above an object has methods to offer
  cases parent with
  | none => exact .fail _ _ span
  | some parent =>
      cases parent with
      | cls parent =>
          cases receiver with
          | none => exact .fail _ _ span
          | some receiver =>
              cases receiver with
              | object i c =>
                  have hfound := Moves.require (φ := φ) (Closure.relocate φ)
                    (parent.findMethod? method) (.undefinedProperty method) span
                  rw [← Class.findMethod?_relocate] at hfound
                  exact hfound.bind fun found =>
                    .bind (.onStore fun s => s.bind_relocate φ found (.object i c)) fun bound =>
                      .pure _ (Value.closure bound)
              | _ => exact .fail _ _ span
      | _ => exact .fail _ _ span

theorem makeClass_moves (name : String) (superclass : Option Superclass)
    (methods : List Routine) :
    Moves φ (Class.relocate φ) (makeClass name superclass methods)
      (makeClass name (superclass.map (Superclass.relocate φ))
        (Routine.allRelocate φ methods)) := by
  refine .bind (.read (g := id) fun _ => rfl) fun scope => ?_
  cases superclass with
  | none =>
      refine .onStore fun s => ?_
      rw [id, Class.methodTable_relocate]
      exact s.newClass_relocate φ name _ none
  | some parent =>
      refine .bind (lookUp_moves parent.name parent.mark.span) fun v => ?_
      cases v with
      | cls ancestor =>
          refine .bind (.onStore (g := id) fun s => s.allot_relocate φ scope "super"
            (.cls ancestor)) fun inner => .onStore fun s => ?_
          rw [Class.methodTable_relocate]
          exact s.newClass_relocate φ name _ (some ancestor)
      | _ => exact .fail _ _ parent.mark.span

/-! ### Expressions, calls, declarations and statements -/

/-- **What is shown with a given fuel**: evaluations move with their programs. -/
structure Moving (φ : Relocation) (clock : Nat → Float) (fuel : Nat) : Prop where
  evaluate : ∀ e, Moves φ (Value.relocate φ) (evaluate clock fuel e)
    (evaluate clock fuel (e.relocate φ))
  evaluateAll : ∀ es, Moves φ (List.map (Value.relocate φ)) (evaluateAll clock fuel es)
    (evaluateAll clock fuel (Expr.allRelocate φ es))
  apply : ∀ f vs site, Moves φ (Value.relocate φ) (apply clock fuel f vs site)
    (apply clock fuel (f.relocate φ) (vs.map (Value.relocate φ)) (φ.span site))
  call : ∀ f vs site, Moves φ (Value.relocate φ) (call clock fuel f vs site)
    (call clock fuel (f.relocate φ) (vs.map (Value.relocate φ)) (φ.span site))
  execute : ∀ isLocal d, Moves φ (Completion.relocate φ) (execute clock isLocal fuel d)
    (execute clock isLocal fuel (d.relocate φ))
  executeAll : ∀ ds, Moves φ (Completion.relocate φ) (executeAll clock fuel ds)
    (executeAll clock fuel (Decl.allRelocate φ ds))
  perform : ∀ stmt, Moves φ (Completion.relocate φ) (perform clock fuel stmt)
    (perform clock fuel (stmt.relocate φ))

section Steps

variable {clock : Nat → Float} {fuel : Nat}

theorem evaluate_moves (hφ : Function.Injective φ.routine) (ih : Moving φ clock fuel) (e : Expr) :
    Moves φ (Value.relocate φ) (evaluate clock (fuel + 1) e)
      (evaluate clock (fuel + 1) (e.relocate φ)) := by
  cases e with
  | constant mark value =>
      have h := Moves.pure (φ := φ) (Value.relocate φ) value.value
      rwa [Constant.value_relocate] at h
  | grouping mark inner => exact ih.evaluate inner
  | unary mark op operand =>
      refine .bind (ih.evaluate operand) fun v => ?_
      rw [UnaryOp.apply_relocate]
      exact .ofExcept (op.apply v) mark.span
  | binary mark left op opSpan right =>
      refine .bind (ih.evaluate left) fun v => .bind (ih.evaluate right) fun w => ?_
      rw [BinaryOp.apply_relocate hφ]
      exact .ofExcept (op.apply v w) opSpan
  | logical mark left op right =>
      refine .bind (ih.evaluate left) fun v => ?_
      rw [LogicalOp.decides_relocate]
      exact .ite (.pure _ v) (ih.evaluate right)
  | ternary mark condition question thenBranch elseBranch =>
      refine .bind (ih.evaluate condition) fun v => ?_
      rw [Value.isTruthy_relocate, ← apply_ite (Expr.relocate φ)]
      refine .bind (ih.evaluate _) fun w => ?_
      cases w with
      | number x => exact .pure _ (Value.number x)
      | _ => exact .fail _ _ question
  | «variable» mark name => exact lookUp_moves name mark.span
  | assign mark name value =>
      exact .bind (ih.evaluate value) fun v => .bind (assign_moves name v mark.span) fun _ =>
        .pure _ v
  | call mark callee arguments paren =>
      exact .bind (ih.evaluate callee) fun f => .bind (ih.evaluateAll arguments) fun vs =>
        ih.apply f vs paren
  | get mark object name =>
      refine .bind (ih.evaluate object) fun v => ?_
      cases v with
      | object i c =>
          exact .bind (.onStore fun s => s.property_relocate φ i c name) fun found =>
            .require _ found _ mark.span
      | _ => exact .fail _ _ mark.span
  | set mark object name value =>
      refine .bind (ih.evaluate object) fun v => ?_
      cases v with
      | object i c =>
          exact .bind (ih.evaluate value) fun w =>
            .bind (.changeStore fun s => s.setField_relocate φ i name w) fun _ => .pure _ w
      | _ => exact .fail _ _ mark.span
  | thisRef mark => exact lookUp_moves "this" mark.span
  | superRef mark method => exact superMethod_moves method mark.span

theorem evaluateAll_moves (ih : Moving φ clock fuel) (es : List Expr) :
    Moves φ (List.map (Value.relocate φ)) (evaluateAll clock (fuel + 1) es)
      (evaluateAll clock (fuel + 1) (Expr.allRelocate φ es)) := by
  cases es with
  | nil => exact .pure (List.map (Value.relocate φ)) []
  | cons e es =>
      exact .bind (ih.evaluate e) fun v => .bind (ih.evaluateAll es) fun vs =>
        .pure (List.map (Value.relocate φ)) (v :: vs)

theorem apply_moves (ih : Moving φ clock fuel) (f : Value) (vs : List Value) (site : Span) :
    Moves φ (Value.relocate φ) (apply clock (fuel + 1) f vs site)
      (apply clock (fuel + 1) (f.relocate φ) (vs.map (Value.relocate φ)) (φ.span site)) := by
  cases f with
  | native function =>
      simp only [Value.relocate, apply, List.length_map]
      exact .ite (.bind (.readClock _) fun x => .pure _ (Value.number x)) (.fail _ _ site)
  | closure f =>
      simp only [Value.relocate, apply, List.length_map, Closure.arity_relocate]
      exact .ite (ih.call f vs site) (.fail _ _ site)
  | cls c =>
      simp only [Value.relocate, apply, List.length_map, Class.arity_relocate]
      refine .ite (.bind (.onStore fun s => s.newObject_relocate φ c) fun object => ?_)
        (.fail _ _ site)
      rw [Class.findMethod?_relocate]
      cases c.findMethod? "init" with
      | none => exact .pure _ object
      | some method =>
          exact .bind (.onStore fun s => s.bind_relocate φ method object) fun bound =>
            .bind (ih.call bound vs site) fun _ => .pure _ object
  | _ => exact .fail _ _ site

theorem call_moves (ih : Moving φ clock fuel) (f : Closure) (vs : List Value) (site : Span) :
    Moves φ (Value.relocate φ) (call clock (fuel + 1) f vs site)
      (call clock (fuel + 1) (f.relocate φ) (vs.map (Value.relocate φ)) (φ.span site)) := by
  refine .bind (.read (g := id) fun _ => rfl) fun depth => .ite (.fail _ _ site) ?_
  have hbody : Moves φ (Completion.relocate φ)
      (do
        bindArguments f.routine.params vs
        executeAll clock fuel f.routine.body)
      (do
        bindArguments (f.relocate φ).routine.params (vs.map (Value.relocate φ))
        executeAll clock fuel (f.relocate φ).routine.body) := by
    simp only [Closure.relocate, Routine.params_relocate, Routine.body_relocate]
    exact .bind (bindArguments_moves f.routine.params vs) fun _ => ih.executeAll _
  refine .bind (.framed (.within f.environment hbody)) fun completion => .ite ?_ ?_
  · exact .bind (.read fun m => m.store.get?_relocate φ f.environment "this") fun receiver =>
      .require _ receiver _ site
  · cases completion with
    | normal => exact .pure _ Value.nil
    | returned v => exact .pure _ v

theorem execute_moves (ih : Moving φ clock fuel) (isLocal : Bool) (d : Decl) :
    Moves φ (Completion.relocate φ) (execute clock isLocal (fuel + 1) d)
      (execute clock isLocal (fuel + 1) (d.relocate φ)) := by
  cases d with
  | varDecl name nameSpan initializer span =>
      refine .bind (announce_moves isLocal name) fun _ => ?_
      have hend : ∀ v : Value, Moves φ (Completion.relocate φ)
          (do
            Action.define name v
            pure .normal)
          (do
            Action.define name (v.relocate φ)
            pure .normal) :=
        fun v => .bind (.define name v) fun _ => .pure (Completion.relocate φ) .normal
      cases initializer with
      | none => exact .bind (.pure (Value.relocate φ) .nil) hend
      | some value => exact .bind (ih.evaluate value) hend
  | funDecl routine span =>
      simp only [Decl.relocate, execute, Routine.name_relocate]
      exact .bind (announce_moves isLocal routine.name) fun _ =>
        .bind (.read (g := id) fun _ => rfl) fun scope =>
          .bind (.define routine.name (.closure (.ofFunction routine scope))) fun _ =>
            .pure (Completion.relocate φ) .normal
  | classDecl name nameSpan superclass methods span =>
      exact .bind (announce_moves isLocal name) fun _ =>
        .bind (makeClass_moves name superclass methods) fun c =>
          .bind (.define name (.cls c)) fun _ => .pure (Completion.relocate φ) .normal
  | statement stmt => exact ih.perform stmt

theorem executeAll_moves (ih : Moving φ clock fuel) (ds : List Decl) :
    Moves φ (Completion.relocate φ) (executeAll clock (fuel + 1) ds)
      (executeAll clock (fuel + 1) (Decl.allRelocate φ ds)) := by
  cases ds with
  | nil => exact .pure (Completion.relocate φ) .normal
  | cons d ds =>
      refine .bind (ih.execute true d) fun completion => ?_
      cases completion with
      | normal => exact ih.executeAll ds
      | returned v => exact .pure (Completion.relocate φ) (.returned v)

theorem perform_moves (ih : Moving φ clock fuel) (stmt : Stmt) :
    Moves φ (Completion.relocate φ) (perform clock (fuel + 1) stmt)
      (perform clock (fuel + 1) (stmt.relocate φ)) := by
  cases stmt with
  | expression e span =>
      exact .bind (ih.evaluate e) fun _ => .pure (Completion.relocate φ) .normal
  | print e span =>
      refine .bind (ih.evaluate e) fun v => ?_
      rw [Value.text_relocate]
      exact .bind (.emit v.text span) fun _ => .pure (Completion.relocate φ) .normal
  | ret keyword value span =>
      cases value with
      | none => exact .pure (Completion.relocate φ) (.returned .nil)
      | some value =>
          exact .bind (ih.evaluate value) fun v => .pure (Completion.relocate φ) (.returned v)
  | block body span =>
      exact .bind (.read (g := id) fun _ => rfl) fun scope => .within scope (ih.executeAll body)
  | ifElse condition thenBranch elseBranch span =>
      cases elseBranch with
      | none =>
          refine .bind (ih.evaluate condition) fun v => ?_
          rw [Value.isTruthy_relocate]
          exact .ite (ih.perform thenBranch) (.pure (Completion.relocate φ) .normal)
      | some elseBranch =>
          refine .bind (ih.evaluate condition) fun v => ?_
          rw [Value.isTruthy_relocate]
          exact .ite (ih.perform thenBranch) (ih.perform elseBranch)
  | whileLoop condition body span =>
      refine .bind (ih.evaluate condition) fun v => ?_
      rw [Value.isTruthy_relocate]
      refine .ite (.bind (ih.perform body) fun completion => ?_)
        (.pure (Completion.relocate φ) .normal)
      cases completion with
      | normal => exact ih.perform (.whileLoop condition body span)
      | returned v => exact .pure (Completion.relocate φ) (.returned v)

/-- **Every evaluation moves with its program**, whatever the fuel. -/
theorem moving (hφ : Function.Injective φ.routine) (clock : Nat → Float) (fuel : Nat) :
    Moving φ clock fuel := by
  induction fuel with
  | zero =>
      exact ⟨fun _ => .starve, fun _ => .starve, fun _ _ _ => .starve, fun _ _ _ => .starve,
        fun _ _ => .starve, fun _ => .starve, fun _ => .starve⟩
  | succ fuel ih =>
      exact ⟨evaluate_moves hφ ih, evaluateAll_moves ih, apply_moves ih, call_moves ih,
        execute_moves ih, executeAll_moves ih, perform_moves ih⟩

end Steps

/-! ### Programs -/

/-- **The run of a program moves with it.** -/
theorem runDeclarations_moves (hφ : Function.Injective φ.routine) (clock : Nat → Float)
    (fuel : Nat) (ds : List Decl) :
    Moves φ id (runDeclarations clock fuel ds)
      (runDeclarations clock fuel (Decl.allRelocate φ ds)) := by
  induction ds with
  | nil => exact .pure id ()
  | cons d ds ih =>
      rw [Decl.allRelocate, runDeclarations, runDeclarations, Decl.span_relocate]
      refine .bind ((moving hφ clock fuel).execute false d) fun completion => ?_
      cases completion with
      | normal => exact ih
      | returned v => exact .fail id _ d.span

/-- **Declarations run one after the other.** -/
theorem runDeclarations_append (clock : Nat → Float) (fuel : Nat) (ds others : List Decl)
    (m : Machine) :
    runDeclarations clock fuel (ds ++ others) m =
      match runDeclarations clock fuel ds m with
      | .done _ m' => runDeclarations clock fuel others m'
      | .failed e m' => .failed e m'
      | .starved => .starved := by
  induction ds generalizing m with
  | nil => rfl
  | cons d ds ih =>
      rw [List.cons_append, runDeclarations, runDeclarations, Action.bind_apply, Action.bind_apply]
      cases execute clock false fuel d m with
      | done completion m₁ =>
          cases completion with
          | normal => exact ih m₁
          | returned v => rfl
      | failed e m₁ => rfl
      | starved => rfl

end Lexical

end Scriptlet
