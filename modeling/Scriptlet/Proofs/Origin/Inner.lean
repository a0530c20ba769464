/-
**Where the parts of a task stand.**

Most parts of a task are tasks of the program text: they stand inside the text of the task, and are
done in the environment of the task.  The body of a block and that of a routine are done in an
environment of their own, which has a fresh frame in front.  The name of an assignment gets its
value.  All other parts are deeds: they have no text of their own.

Main definitions:

* `Scriptlet.Task.inner` — the tasks inside the text of a task that are done in its environment;
* `Scriptlet.Task.isDeed` — tasks without text;
* `Scriptlet.Task.Stands` — **where a part of a task stands**.

Main results:

* `Scriptlet.Task.stands_of_part` — every part of a task stands so.
-/

import Scriptlet.Proofs.Control.Restored

set_option relaxedAutoImplicit false
set_option autoImplicit false

namespace Scriptlet

/-! ### Tasks inside tasks -/

/-- The tasks inside an expression. -/
def Expr.innerTasks : Expr → List Task
  | .grouping _ e | .unary _ _ e | .assign _ _ e | .get _ e _ => [.evaluate e]
  | .binary _ left _ _ right | .logical _ left _ right | .set _ left _ right =>
      [.evaluate left, .evaluate right]
  | .ternary _ condition _ thenBranch elseBranch =>
      [.evaluate condition, .evaluate thenBranch, .evaluate elseBranch]
  | .call _ callee arguments _ => [.evaluate callee, .evaluateAll arguments]
  | .constant _ _ | .variable _ _ | .thisRef _ | .superRef _ _ => []

/-- The tasks inside a declaration. -/
def Decl.innerTasks : Decl → List Task
  | .varDecl _ _ (some value) _ => [.evaluate value]
  | .statement stmt => [.perform stmt]
  | .varDecl _ _ none _ | .funDecl _ _ | .classDecl _ _ _ _ _ => []

/-- The tasks inside a statement, and the statement itself if it is a loop. -/
def Stmt.innerTasks : Stmt → List Task
  | .expression e _ | .print e _ | .ret _ (some e) _ => [.evaluate e]
  | .ifElse condition thenBranch none _ => [.evaluate condition, .perform thenBranch]
  | .ifElse condition thenBranch (some elseBranch) _ =>
      [.evaluate condition, .perform thenBranch, .perform elseBranch]
  | .whileLoop condition body span =>
      [.evaluate condition, .perform body, .perform (.whileLoop condition body span)]
  | .ret _ none _ | .block _ _ => []

/-- **The tasks inside the text of a task that are done in its environment.** -/
def Task.inner : Task → List Task
  | .evaluate e => e.innerTasks
  | .evaluateAll (e :: es) => [.evaluate e, .evaluateAll es]
  | .execute d => d.innerTasks
  | .executeAll (d :: ds) => [.execute d, .executeAll ds]
  | .perform stmt => stmt.innerTasks
  | _ => []

/-- A task without text. -/
def Task.isDeed : Task → Bool
  | .apply _ _ _ | .call _ _ _ | .lookUp _ _ | .superMethod _ _ => true
  | .evaluate _ | .evaluateAll _ | .execute _ | .executeAll _ | .perform _ | .assign _ _ _ => false

/-- **Where a part of a task stands**, and in which environment it is done. -/
inductive Task.Stands (m : Machine) : Task → Task → Environment → Prop
  | inner {t u : Task} (h : u ∈ t.inner) : Stands m t u m.scope
  | deed {t u : Task} (h : u.isDeed = true) : Stands m t u m.scope
  | assign (mark : Mark) (name : String) (value : Expr) (v : Value) :
      Stands m (.evaluate (.assign mark name value)) (.assign mark name v) m.scope
  | block (body : List Decl) (span : Span) :
      Stands m (.perform (.block body span)) (.executeAll body)
        ⟨m.store.frames.size :: m.scope.chain⟩
  | routine (f : Closure) (arguments : List Value) (site : Span) :
      Stands m (.call f arguments site) (.executeAll f.routine.body)
        ⟨m.store.frames.size :: f.environment.chain⟩

/-- Parts that stand somewhere in a task. -/
def Standing (m : Machine) (t : Task) (parts : List (Task × Machine)) : Prop :=
  ∀ part ∈ parts, t.Stands m part.1 part.2.scope

section Parts

variable {setting : Setting} {fuel : Nat} {m m' : Machine} {t u : Task}
  {parts : List (Task × Machine)}

namespace Standing

theorem nil : Standing m t [] := nofun

theorem cons (h : t.Stands m u m'.scope) (hparts : Standing m t parts) :
    Standing m t ((u, m') :: parts) := List.forall_mem_cons.2 ⟨h, hparts⟩

/-- A part inside the text of the task, on a machine that is still in its environment. -/
theorem inner (hm : m'.scope = m.scope) (hu : u ∈ t.inner) (hparts : Standing m t parts) :
    Standing m t ((u, m') :: parts) := by
  refine cons ?_ hparts
  rw [hm]
  exact .inner hu

theorem deed (hm : m'.scope = m.scope) (hu : u.isDeed = true) (hparts : Standing m t parts) :
    Standing m t ((u, m') :: parts) := by
  refine cons ?_ hparts
  rw [hm]
  exact .deed hu

/-- Behind a part the machine is in the environment in which it was. -/
theorem after {α : Type} {o : Outcome α} {g : α → Machine → List (Task × Machine)}
    (ho : o.Restores m') (hm : m'.scope = m.scope)
    (hg : ∀ a m₁, m₁.scope = m.scope → Standing m t (g a m₁)) : Standing m t (o.after g) := by
  cases o with
  | done a m₁ => exact hg a m₁ (ho.scope.trans hm)
  | failed e m₁ => exact .nil
  | starved => exact .nil

end Standing

theorem Expr.standing (e : Expr) : Standing m (.evaluate e) (e.parts setting fuel m) := by
  have h := restoring setting fuel
  cases e with
  | constant mark value => exact .nil
  | grouping mark inner => exact .inner rfl (.head _) .nil
  | unary mark op operand => exact .inner rfl (.head _) .nil
  | binary mark left op opSpan right =>
      refine .inner rfl (.head _) ?_
      refine .after (h.evaluate left m) rfl fun v m₁ hm₁ => ?_
      exact .inner hm₁ (.tail _ (.head _)) .nil
  | logical mark left op right =>
      refine .inner rfl (.head _) ?_
      refine .after (h.evaluate left m) rfl fun v m₁ hm₁ => ?_
      split
      · exact .nil
      · exact .inner hm₁ (.tail _ (.head _)) .nil
  | ternary mark condition question thenBranch elseBranch =>
      refine .inner rfl (.head _) ?_
      refine .after (h.evaluate condition m) rfl fun v m₁ hm₁ => ?_
      refine .inner hm₁ ?_ .nil
      split
      · exact .tail _ (.head _)
      · exact .tail _ (.tail _ (.head _))
  | «variable» mark name => exact .deed rfl rfl .nil
  | assign mark name value =>
      refine .inner rfl (.head _) ?_
      refine .after (h.evaluate value m) rfl fun v m₁ hm₁ => .cons ?_ .nil
      rw [hm₁]
      exact .assign mark name value v
  | call mark callee arguments paren =>
      refine .inner rfl (.head _) ?_
      refine .after (h.evaluate callee m) rfl fun f m₁ hm₁ => ?_
      refine .inner hm₁ (.tail _ (.head _)) ?_
      exact .after (h.evaluateAll arguments m₁) hm₁ fun vs m₂ hm₂ => .deed hm₂ rfl .nil
  | get mark object name => exact .inner rfl (.head _) .nil
  | set mark object name value =>
      refine .inner rfl (.head _) ?_
      refine .after (h.evaluate object m) rfl fun v m₁ hm₁ => ?_
      split
      · exact .inner hm₁ (.tail _ (.head _)) .nil
      · exact .nil
  | thisRef mark => exact .deed rfl rfl .nil
  | superRef mark method => exact .deed rfl rfl .nil

theorem Expr.allStanding (es : List Expr) :
    Standing m (.evaluateAll es) (Expr.allParts setting fuel m es) := by
  cases es with
  | nil => exact .nil
  | cons e es =>
      refine .inner rfl (.head _) ?_
      refine .after ((restoring setting fuel).evaluate e m) rfl fun v m₁ hm₁ => ?_
      exact .inner hm₁ (.tail _ (.head _)) .nil

theorem Value.standing (f : Value) (arguments : List Value) (site : Span) :
    Standing m (.apply f arguments site) (f.parts m arguments site) := by
  cases f with
  | closure f =>
      rw [Value.parts]
      split
      · exact .deed rfl rfl .nil
      · exact .nil
  | cls c =>
      rw [Value.parts]
      split
      · refine .after (Action.Restores.onStore _ m) rfl fun object m₁ hm₁ => ?_
        split
        · refine .after (Action.Restores.onStore _ m₁) hm₁ fun bound m₂ hm₂ => ?_
          exact .deed hm₂ rfl .nil
        · exact .nil
      · exact .nil
  | _ =>
      rw [Value.parts]
      · exact .nil
      all_goals
        intros
        contradiction

/-- The body of a routine is done in front of the environment over which it closes. -/
theorem Closure.standing (f : Closure) (arguments : List Value) (site : Span) :
    Standing m (.call f arguments site) (f.parts m arguments) := by
  rw [Closure.parts]
  split
  · exact .nil
  · have h := Action.Restores.bindArguments f.routine.params arguments
      ({ m with depth := m.depth + 1 }.entering f.environment)
    generalize Action.bindArguments _ _ _ = o at h
    cases o with
    | done a m₁ =>
        refine .cons ?_ .nil
        rw [h.scope]
        exact .routine f arguments site
    | failed e m₁ => exact .nil
    | starved => exact .nil

theorem Decl.standing (d : Decl) : Standing m (.execute d) (d.parts m) := by
  cases d with
  | varDecl name nameSpan initializer span =>
      cases initializer with
      | none => exact .nil
      | some value => exact .inner rfl (.head _) .nil
  | funDecl routine span => exact .nil
  | classDecl name nameSpan superclass methods span =>
      cases superclass with
      | none => exact .nil
      | some parent => exact .deed rfl rfl .nil
  | statement stmt => exact .inner rfl (.head _) .nil

theorem Decl.allStanding (ds : List Decl) :
    Standing m (.executeAll ds) (Decl.allParts setting fuel m ds) := by
  cases ds with
  | nil => exact .nil
  | cons d ds =>
      refine .inner rfl (.head _) ?_
      refine .after ((restoring setting fuel).execute d m) rfl fun c m₁ hm₁ => ?_
      cases c with
      | normal => exact .inner hm₁ (.tail _ (.head _)) .nil
      | returned v => exact .nil

theorem Stmt.standing (stmt : Stmt) :
    Standing m (.perform stmt) (stmt.parts setting fuel m) := by
  have h := restoring setting fuel
  cases stmt with
  | expression e span => exact .inner rfl (.head _) .nil
  | print e span => exact .inner rfl (.head _) .nil
  | ret keyword value span =>
      cases value with
      | none => exact .nil
      | some value => exact .inner rfl (.head _) .nil
  | block body span => exact .cons (.block body span) .nil
  | ifElse condition thenBranch elseBranch span =>
      cases elseBranch with
      | none =>
          refine .inner rfl (.head _) ?_
          refine .after (h.evaluate condition m) rfl fun v m₁ hm₁ => ?_
          split
          · exact .inner hm₁ (.tail _ (.head _)) .nil
          · exact .nil
      | some elseBranch =>
          refine .inner rfl (.head _) ?_
          refine .after (h.evaluate condition m) rfl fun v m₁ hm₁ => ?_
          split
          · exact .inner hm₁ (.tail _ (.head _)) .nil
          · exact .inner hm₁ (.tail _ (.tail _ (.head _))) .nil
  | whileLoop condition body span =>
      refine .inner rfl (.head _) ?_
      refine .after (h.evaluate condition m) rfl fun v m₁ hm₁ => ?_
      split
      · refine .inner hm₁ (.tail _ (.head _)) ?_
        refine .after (h.perform body m₁) hm₁ fun c m₂ hm₂ => ?_
        cases c with
        | normal => exact .inner hm₂ (.tail _ (.tail _ (.head _))) .nil
        | returned v => exact .nil
      · exact .nil

/-- **Every part of a task stands inside its text, or in a block or routine, gives a name its value,
or is a deed.** -/
theorem Task.stands_of_part {part : Task × Machine} (h : part ∈ t.parts setting fuel m) :
    t.Stands m part.1 part.2.scope := by
  cases t with
  | evaluate e => exact e.standing part h
  | evaluateAll es => exact Expr.allStanding es part h
  | apply f arguments site => exact f.standing arguments site part h
  | call f arguments site => exact f.standing arguments site part h
  | execute d => exact d.standing part h
  | executeAll ds => exact Decl.allStanding ds part h
  | perform stmt => exact stmt.standing part h
  | lookUp mark name => cases h
  | assign mark name v => cases h
  | superMethod mark method => cases h

end Parts

end Scriptlet
