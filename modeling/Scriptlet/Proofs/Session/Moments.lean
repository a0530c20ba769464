/-
**The moments of a run.**

To evaluate an expression, to call a routine or to execute a statement is a task, and most tasks are
done in parts that are tasks themselves.  A *moment* is a task that is about to be done on a
machine, with some fuel.  A moment leads to the moments of its parts, each on the machine that the
parts before it have left, and a run of a program passes through all the moments to which its
declarations lead, whether it ends or not.

That these are the moments of a run can be seen from its errors: an error over a name that is not
bound is always the error of a moment at which a name is looked up or gets a value.

Main definitions:

* `Scriptlet.Task`, `Scriptlet.Task.parts` — tasks, and their parts;
* `Scriptlet.Moment`, `Scriptlet.Moment.Leads` — moments, and how one leads to another;
* `Scriptlet.Occurs` — **the moments of the run of a program**;
* `Scriptlet.Composed` — ends that are decided by parts.

Main results:

* `Scriptlet.Task.composed` — how a task ends is decided by its parts;
* `Scriptlet.Task.error_of_part` — if a task fails over a name, one of its parts does;
* `Scriptlet.Occurs.of_error` — **a run fails over a name only where that name is consulted**.
-/

import Mathlib.Logic.Relation
import Scriptlet.Eval

set_option relaxedAutoImplicit false
set_option autoImplicit false

namespace Scriptlet

/-! ### Tasks -/

/-- What is done in the course of a run. -/
inductive Task
  | evaluate (e : Expr)
  | evaluateAll (es : List Expr)
  | apply (f : Value) (arguments : List Value) (site : Span)
  | call (f : Closure) (arguments : List Value) (site : Span)
  | execute (d : Decl)
  | executeAll (ds : List Decl)
  | perform (stmt : Stmt)
  /-- The name that an expression refers to is looked up. -/
  | lookUp (mark : Mark) (name : String)
  /-- The name that an expression refers to gets a value. -/
  | assign (mark : Mark) (name : String) (v : Value)
  /-- A method of the superclass is looked up. -/
  | superMethod (mark : Mark) (method : String)

/-- The reference that is consulted in a task, and the name it refers to. -/
def Task.reference? : Task → Option (Mark × String)
  | .lookUp mark name | .assign mark name _ => some (mark, name)
  | .superMethod mark _ => some (mark, "super")
  | _ => none

namespace Outcome

variable {α β : Type}

/-- What follows an end with a value. -/
def after (o : Outcome α) (f : α → Machine → List β) : List β :=
  match o with
  | .done a m => f a m
  | .failed _ _ => []
  | .starved => []

theorem after_onStore (f : Store → α × Store) (k : α → Machine → List β) (m : Machine) :
    (Action.onStore f m).after k = k (f m.store).1 { m with store := (f m.store).2 } := rfl

/-- The error of an end. -/
def error? : Outcome α → Option RuntimeError
  | .done _ _ => none
  | .failed e _ => some e
  | .starved => none

end Outcome

/-! ### The parts of tasks -/

/-- The parts of the evaluation of an expression. -/
def Expr.parts (setting : Setting) (fuel : Nat) (m : Machine) : Expr → List (Task × Machine)
  | .constant _ _ => []
  | .grouping _ inner => [(.evaluate inner, m)]
  | .unary _ _ operand => [(.evaluate operand, m)]
  | .binary _ left _ _ right =>
      (.evaluate left, m) :: (evaluate setting fuel left m).after fun _ m => [(.evaluate right, m)]
  | .logical _ left op right =>
      (.evaluate left, m) :: (evaluate setting fuel left m).after fun v m =>
        if op.decides v then [] else [(.evaluate right, m)]
  | .ternary _ condition _ thenBranch elseBranch =>
      (.evaluate condition, m) :: (evaluate setting fuel condition m).after fun v m =>
        [(.evaluate (if v.isTruthy then thenBranch else elseBranch), m)]
  | .variable mark name => [(.lookUp mark name, m)]
  | .assign mark name value =>
      (.evaluate value, m) :: (evaluate setting fuel value m).after fun v m =>
        [(.assign mark name v, m)]
  | .call _ callee arguments paren =>
      (.evaluate callee, m) :: (evaluate setting fuel callee m).after fun f m =>
        (.evaluateAll arguments, m) :: (evaluateAll setting fuel arguments m).after fun vs m =>
          [(.apply f vs paren, m)]
  | .get _ object _ => [(.evaluate object, m)]
  | .set _ object _ value =>
      (.evaluate object, m) :: (evaluate setting fuel object m).after fun v m =>
        match v with
        | .object _ _ => [(.evaluate value, m)]
        | _ => []
  | .thisRef mark => [(.lookUp mark "this", m)]
  | .superRef mark method => [(.superMethod mark method, m)]

/-- The parts of the evaluation of expressions. -/
def Expr.allParts (setting : Setting) (fuel : Nat) (m : Machine) : List Expr → List (Task × Machine)
  | [] => []
  | e :: es =>
      (.evaluate e, m) :: (evaluate setting fuel e m).after fun _ m => [(.evaluateAll es, m)]

/-- The parts of a call of a value. -/
def Value.parts (m : Machine) (arguments : List Value) (site : Span) : Value → List (Task × Machine)
  | .closure f => if arguments.length = f.arity then [(.call f arguments site, m)] else []
  | .cls c =>
      if arguments.length = c.arity then
        (Action.onStore (fun s => s.newObject c) m).after fun object m =>
          match c.findMethod? "init" with
          | some method =>
              (Action.onStore (fun s => s.bind method object) m).after fun bound m =>
                [(.call bound arguments site, m)]
          | none => []
      else []
  | _ => []

/-- The parts of a call of a closure: its body, in a frame that binds the parameters. -/
def Closure.parts (m : Machine) (arguments : List Value) (f : Closure) : List (Task × Machine) :=
  if callLimit ≤ m.depth then []
  else
    (Action.bindArguments f.routine.params arguments
      ({ m with depth := m.depth + 1 }.entering f.environment)).after fun _ m =>
        [(.executeAll f.routine.body, m)]

/-- The parts of the execution of a declaration. -/
def Decl.parts (m : Machine) : Decl → List (Task × Machine)
  | .varDecl _ _ (some value) _ => [(.evaluate value, m)]
  | .varDecl _ _ none _ => []
  | .funDecl _ _ => []
  | .classDecl _ _ (some parent) _ _ => [(.lookUp parent.mark parent.name, m)]
  | .classDecl _ _ none _ _ => []
  | .statement stmt => [(.perform stmt, m)]

/-- The parts of the execution of declarations. -/
def Decl.allParts (setting : Setting) (fuel : Nat) (m : Machine) : List Decl → List (Task × Machine)
  | [] => []
  | d :: ds =>
      (.execute d, m) :: (execute setting fuel d m).after fun c m =>
        match c with
        | .normal => [(.executeAll ds, m)]
        | .returned _ => []

/-- The parts of the execution of a statement. -/
def Stmt.parts (setting : Setting) (fuel : Nat) (m : Machine) : Stmt → List (Task × Machine)
  | .expression e _ => [(.evaluate e, m)]
  | .print e _ => [(.evaluate e, m)]
  | .ret _ none _ => []
  | .ret _ (some value) _ => [(.evaluate value, m)]
  | .block body _ => [(.executeAll body, m.entering m.scope)]
  | .ifElse condition thenBranch elseBranch _ =>
      (.evaluate condition, m) :: (evaluate setting fuel condition m).after fun v m =>
        if v.isTruthy then [(.perform thenBranch, m)]
        else
          match elseBranch with
          | some stmt => [(.perform stmt, m)]
          | none => []
  | .whileLoop condition body span =>
      (.evaluate condition, m) :: (evaluate setting fuel condition m).after fun v m =>
        if v.isTruthy then
          (.perform body, m) :: (perform setting fuel body m).after fun c m =>
            match c with
            | .normal => [(.perform (.whileLoop condition body span), m)]
            | .returned _ => []
        else []

/-- **The parts of a task**, each with the machine it starts on.  The task has one unit of fuel more
than its parts. -/
def Task.parts (setting : Setting) (fuel : Nat) (m : Machine) : Task → List (Task × Machine)
  | .evaluate e => e.parts setting fuel m
  | .evaluateAll es => Expr.allParts setting fuel m es
  | .apply f arguments site => f.parts m arguments site
  | .call f arguments _ => f.parts m arguments
  | .execute d => d.parts m
  | .executeAll ds => Decl.allParts setting fuel m ds
  | .perform stmt => stmt.parts setting fuel m
  | .lookUp _ _ | .assign _ _ _ | .superMethod _ _ => []

/-- The error in which a task ends, if it does. -/
def Task.error? (setting : Setting) (fuel : Nat) (m : Machine) : Task → Option RuntimeError
  | .evaluate e => (Scriptlet.evaluate setting fuel e m).error?
  | .evaluateAll es => (Scriptlet.evaluateAll setting fuel es m).error?
  | .apply f arguments site => (Scriptlet.apply setting fuel f arguments site m).error?
  | .call f arguments site => (Scriptlet.call setting fuel f arguments site m).error?
  | .execute d => (Scriptlet.execute setting fuel d m).error?
  | .executeAll ds => (Scriptlet.executeAll setting fuel ds m).error?
  | .perform stmt => (Scriptlet.perform setting fuel stmt m).error?
  | .lookUp mark name => (Action.lookUp setting mark name m).error?
  | .assign mark name v => (Action.assign setting mark name v m).error?
  | .superMethod mark method => (Action.superMethod setting mark method m).error?

/-! ### Moments -/

/-- A task that is about to be done. -/
structure Moment where
  /-- The task. -/
  task : Task
  /-- The fuel it has. -/
  fuel : Nat
  /-- The machine it starts on. -/
  machine : Machine

namespace Moment

/-- The moments of the parts of a task. -/
def next (setting : Setting) (k : Moment) : List Moment :=
  match k.fuel with
  | 0 => []
  | fuel + 1 => (k.task.parts setting fuel k.machine).map fun part => ⟨part.1, fuel, part.2⟩

/-- How one moment leads to another. -/
def Leads (setting : Setting) : Moment → Moment → Prop :=
  Relation.ReflTransGen fun k l => l ∈ k.next setting

/-- The error in which a moment ends, if it does. -/
def error? (setting : Setting) (k : Moment) : Option RuntimeError :=
  k.task.error? setting k.fuel k.machine

end Moment

/-- The moments at which the declarations of a program are executed. -/
def topMoments (setting : Setting) (fuel : Nat) : List Decl → Machine → List Moment
  | [], _ => []
  | d :: ds, m =>
      ⟨.execute d, fuel, m⟩ :: (execute setting fuel d m).after fun c m =>
        match c with
        | .normal => topMoments setting fuel ds m
        | .returned _ => []

/-- A declaration behind another is reached when the other has completed normally. -/
theorem mem_topMoments_cons {setting : Setting} {fuel : Nat} {d : Decl} {ds : List Decl}
    {m : Machine} {k : Moment} :
    k ∈ topMoments setting fuel (d :: ds) m ↔
      k = ⟨.execute d, fuel, m⟩ ∨
        ∃ m₁, execute setting fuel d m = .done .normal m₁ ∧ k ∈ topMoments setting fuel ds m₁ := by
  rw [topMoments, List.mem_cons]
  refine or_congr Iff.rfl ⟨fun h => ?_, ?_⟩
  · cases hd : execute setting fuel d m with
    | done c m₁ =>
        rw [hd] at h
        cases c with
        | normal => exact ⟨m₁, rfl, h⟩
        | returned v => cases h
    | failed e m₁ =>
        rw [hd] at h
        cases h
    | starved =>
        rw [hd] at h
        cases h
  · rintro ⟨m₁, hd, h⟩
    rw [hd]
    exact h

/-- **The moments of the run of a program.** -/
def Occurs (setting : Setting) (fuel : Nat) (ds : List Decl) (m : Machine) (k : Moment) : Prop :=
  ∃ top ∈ topMoments setting fuel ds m, top.Leads setting k

/-! ### Ends without their values -/

/-- How an end falls short of a value. -/
inductive Stop
  | failed (error : RuntimeError)
  | starved

namespace Outcome

variable {α : Type}

/-- How an end falls short of a value, if it does. -/
def stop? : Outcome α → Option Stop
  | .done _ _ => none
  | .failed e _ => some (.failed e)
  | .starved => some .starved

/-- An end, its value left out. -/
def forget : Outcome α → Outcome Unit
  | .done _ m => .done () m
  | .failed e m => .failed e m
  | .starved => .starved

@[simp] theorem stop?_forget (o : Outcome α) : o.forget.stop? = o.stop? := by
  cases o <;> rfl

theorem stop?_eq_failed {o : Outcome α} {e : RuntimeError} :
    o.stop? = some (.failed e) ↔ o.error? = some e := by
  cases o with
  | done a m => exact iff_of_false nofun nofun
  | failed e' m =>
      refine ⟨fun h => ?_, fun h => ?_⟩
      · cases h
        rfl
      · cases h
        rfl
  | starved => exact iff_of_false nofun nofun

@[simp] theorem after_nil {β : Type} (o : Outcome α) : (o.after fun _ _ => ([] : List β)) = [] := by
  cases o <;> rfl

end Outcome

/-- How a task ends, its value left out. -/
def Task.outcome (setting : Setting) (fuel : Nat) (m : Machine) : Task → Outcome Unit
  | .evaluate e => (Scriptlet.evaluate setting fuel e m).forget
  | .evaluateAll es => (Scriptlet.evaluateAll setting fuel es m).forget
  | .apply f arguments site => (Scriptlet.apply setting fuel f arguments site m).forget
  | .call f arguments site => (Scriptlet.call setting fuel f arguments site m).forget
  | .execute d => (Scriptlet.execute setting fuel d m).forget
  | .executeAll ds => (Scriptlet.executeAll setting fuel ds m).forget
  | .perform stmt => (Scriptlet.perform setting fuel stmt m).forget
  | .lookUp mark name => (Action.lookUp setting mark name m).forget
  | .assign mark name v => (Action.assign setting mark name v m).forget
  | .superMethod mark method => (Action.superMethod setting mark method m).forget

/-- How a task falls short of its end, if it does. -/
def Task.stop? (setting : Setting) (fuel : Nat) (m : Machine) (t : Task) : Option Stop :=
  (t.outcome setting fuel m).stop?

theorem Task.stop?_eq_failed {setting : Setting} {fuel : Nat} {m : Machine} {t : Task}
    {e : RuntimeError} :
    t.stop? setting fuel m = some (.failed e) ↔ t.error? setting fuel m = some e := by
  unfold Task.stop?
  rw [Outcome.stop?_eq_failed]
  cases t
  all_goals
    unfold outcome error?
    rw [← Outcome.stop?_eq_failed, ← Outcome.stop?_eq_failed, Outcome.stop?_forget]

/-! ### Ends that the parts decide -/

/-- A fault over a name that is not bound. -/
def RuntimeFault.isUnbound : RuntimeFault → Bool
  | .undefinedVariable _ | .unboundLocal _ => true
  | _ => false

/-- A fault that is neither over a name nor over too many open calls. -/
def RuntimeFault.isPlain : RuntimeFault → Bool
  | .undefinedVariable _ | .unboundLocal _ | .stackOverflow => false
  | _ => true

theorem RuntimeFault.isUnbound_eq_false_of_isPlain {fault : RuntimeFault}
    (h : fault.isPlain = true) : fault.isUnbound = false := by
  cases fault <;> first | rfl | cases h

/-- An error that is plain. -/
def Stop.Plain (s : Stop) : Prop := ∃ e, s = .failed e ∧ e.fault.isPlain = true

section Composed

variable {α β : Type} {setting : Setting} {fuel : Nat}

/-- An end that has a value or a plain error. -/
def Clean (o : Outcome α) : Prop := ∀ s, o.stop? = some s → s.Plain

/-- **An end that the parts decide.**  What stops a part stops the whole; and the whole is stopped
as one of its parts is, or by a plain error. -/
structure Composed (setting : Setting) (fuel : Nat) (o : Outcome α)
    (parts : List (Task × Machine)) : Prop where
  of_part : ∀ part ∈ parts, ∀ s, part.1.stop? setting fuel part.2 = some s → o.stop? = some s
  to_part : ∀ s, o.stop? = some s →
    s.Plain ∨ ∃ part ∈ parts, part.1.stop? setting fuel part.2 = some s

namespace Clean

variable {m : Machine}

theorem done (a : α) : Clean (.done a m) := nofun

theorem fail {fault : RuntimeFault} (h : fault.isPlain = true)
    (span : Span) : Clean (Action.fail fault span m : Outcome α) := by
  intro s hs
  cases hs
  exact ⟨_, rfl, h⟩

theorem require {fault : RuntimeFault} (h : fault.isPlain = true)
    (a : Option α) (span : Span) : Clean (Action.require a fault span m) := by
  cases a with
  | some a => exact .done a
  | none => exact .fail h span

theorem ofExcept {r : Except RuntimeFault α}
    (h : ∀ fault, r = .error fault → fault.isPlain = true)
    (span : Span) : Clean (Action.ofExcept r span m) := by
  cases r with
  | ok a => exact .done a
  | error fault => exact .fail (h fault rfl) span

theorem emit (text : String) (span : Span) : Clean (Action.emit text span m) := by
  unfold Action.emit
  split
  · exact .done ()
  · intro s hs
    cases hs
    exact ⟨_, rfl, rfl⟩

theorem bind {x : Action α} {f : α → Action β} (h : Clean (x m)) (hf : ∀ a m', Clean (f a m')) :
    Clean ((x >>= f) m) := by
  intro s hs
  rw [Action.bind_apply] at hs
  cases hx : x m with
  | done a m' =>
      rw [hx] at hs
      exact hf a m' s hs
  | failed e m' =>
      rw [hx] at hs h
      exact h s hs
  | starved =>
      rw [hx] at hs h
      exact h s hs

/-- A clean end is one without parts. -/
theorem composed {o : Outcome α} (h : Clean o) : Composed setting fuel o [] :=
  ⟨nofun, fun s hs => .inl (h s hs)⟩

theorem isUnbound_eq_false {o : Outcome α} (h : Clean o) {e : RuntimeError}
    (he : o.error? = some e) : e.fault.isUnbound = false := by
  obtain ⟨e', heq, hplain⟩ := h _ (Outcome.stop?_eq_failed.2 he)
  cases heq
  exact RuntimeFault.isUnbound_eq_false_of_isPlain hplain

end Clean

namespace Composed

variable {m : Machine} {x : Action α} {f : α → Action β} {parts : List (Task × Machine)}

/-- A part that ends as the whole does. -/
theorem part {o : Outcome α} {task : Task} (h : task.outcome setting fuel m = o.forget) :
    Composed setting fuel o [(task, m)] := by
  have hstop : task.stop? setting fuel m = o.stop? := by
    rw [Task.stop?, h, Outcome.stop?_forget]
  refine ⟨fun part hpart s hs => ?_, fun s hs => .inr ⟨_, List.mem_singleton.2 rfl, ?_⟩⟩
  · rw [List.mem_singleton] at hpart
    rw [← hstop, ← hs, hpart]
  · rw [← hs, hstop]

/-- An action stops where its first half stops or where its second half does. -/
theorem bind {g : α → Machine → List (Task × Machine)} (h : Composed setting fuel (x m) parts)
    (hf : ∀ a m', x m = .done a m' → Composed setting fuel (f a m') (g a m')) :
    Composed setting fuel ((x >>= f) m) (parts ++ (x m).after g) := by
  rw [Action.bind_apply]
  cases hx : x m with
  | done a m' =>
      refine ⟨fun part hpart s hs => ?_, fun s hs => ?_⟩
      · rcases List.mem_append.1 hpart with hpart | hpart
        -- the first half has come to its end, so no part of it has stopped
        · have hstop := h.of_part part hpart s hs
          rw [hx] at hstop
          cases hstop
        · exact (hf a m' hx).of_part part hpart s hs
      · rcases (hf a m' hx).to_part s hs with hplain | ⟨part, hpart, hstop⟩
        · exact .inl hplain
        · exact .inr ⟨part, List.mem_append_right _ hpart, hstop⟩
  | failed e m' =>
      rw [hx] at h
      rw [Outcome.after, List.append_nil]
      exact ⟨h.of_part, h.to_part⟩
  | starved =>
      rw [hx] at h
      rw [Outcome.after, List.append_nil]
      exact ⟨h.of_part, h.to_part⟩

/-- An action whose first half is a part, and whose second half goes on with other parts. -/
theorem andThen {task : Task} {g : α → Machine → List (Task × Machine)}
    (h : task.outcome setting fuel m = (x m).forget)
    (hf : ∀ a m', Composed setting fuel (f a m') (g a m')) :
    Composed setting fuel ((x >>= f) m) ((task, m) :: (x m).after g) :=
  (part h).bind fun a m' _ => hf a m'

/-- An action whose first half has no parts. -/
theorem afterClean {g : α → Machine → List (Task × Machine)} (h : Clean (x m))
    (hf : ∀ a m', Composed setting fuel (f a m') (g a m')) :
    Composed setting fuel ((x >>= f) m) ((x m).after g) := by
  have hbind := h.composed.bind fun a m' _ => hf a m'
  rwa [List.nil_append] at hbind

/-- An action whose second half has no parts. -/
theorem andClean (h : Composed setting fuel (x m) parts) (hf : ∀ a m', Clean (f a m')) :
    Composed setting fuel ((x >>= f) m) parts := by
  have hbind := h.bind (g := fun _ _ => []) fun a m' _ => (hf a m').composed
  rwa [Outcome.after_nil, List.append_nil] at hbind

theorem inChildOf {environment : Environment}
    (h : Composed setting fuel (x (m.entering environment)) parts) :
    Composed setting fuel (Action.inChildOf environment x m) parts := by
  rw [Action.inChildOf_apply]
  generalize x _ = o at h
  cases o <;> exact ⟨h.of_part, h.to_part⟩

theorem framed (h : Composed setting fuel (x { m with depth := m.depth + 1 }) parts) :
    Composed setting fuel (Action.framed x m) parts := by
  rw [Action.framed_apply]
  generalize x _ = o at h
  cases o <;> exact ⟨h.of_part, h.to_part⟩

end Composed

end Composed

/-! ### What tasks do beside their parts -/

section Parts

variable {setting : Setting} {fuel : Nat} {m : Machine}

theorem UnaryOp.plain (op : UnaryOp) (v : Value) (fault : RuntimeFault)
    (h : op.apply v = .error fault) : fault.isPlain = true := by
  cases op with
  | negate => cases v <;> cases h <;> rfl
  | not => cases h

theorem onNumbers_plain {f : Float → Float → Value} {v w : Value} {fault : RuntimeFault}
    (h : onNumbers f v w = .error fault) : fault.isPlain = true := by
  unfold onNumbers at h
  split at h
  · cases h
  · cases h
    rfl

/-- Operators are at fault over their operands only. -/
theorem BinaryOp.plain (op : BinaryOp) (v w : Value) (fault : RuntimeFault)
    (h : op.apply v w = .error fault) : fault.isPlain = true := by
  cases op with
  | add =>
      cases v with
      | number x => cases w <;> cases h <;> rfl
      | string s => cases w <;> cases h <;> rfl
      | _ =>
          cases w <;> cases h <;> rfl
  | divide =>
      cases v with
      | number x =>
          cases w with
          | number y =>
              simp only [BinaryOp.apply] at h
              split at h
              · cases h
                rfl
              · cases h
          | _ =>
              cases h
              rfl
      | _ =>
          cases h
          rfl
  | equal => cases h
  | notEqual => cases h
  | _ => exact onNumbers_plain h

/-- The lookup of a superclass method is not at fault over names. -/
theorem superMethod_clean (mark : Mark) (method : String) :
    Clean (Action.superMethod setting mark method m) := by
  unfold Action.superMethod
  refine Clean.bind (.require rfl _ mark.span) fun distance m₁ => ?_
  refine Clean.bind (.done _) fun parent m₂ => ?_
  refine Clean.bind (.done _) fun receiver m₃ => ?_
  split
  · refine Clean.bind (.require rfl _ mark.span) fun found m₄ => ?_
    exact .done _
  · exact .fail rfl mark.span

theorem Expr.composed (e : Expr) :
    Composed setting fuel (evaluate setting (fuel + 1) e m) (e.parts setting fuel m) := by
  -- an operand is a part, and what is done with its value is no error over a name
  cases e with
  | constant mark value =>
      rw [evaluate]
      exact (Clean.done _).composed
  | grouping mark inner =>
      rw [evaluate]
      exact .part rfl
  | unary mark op operand =>
      rw [evaluate]
      exact .andClean (.part rfl) fun v _ => .ofExcept (op.plain v) mark.span
  | binary mark left op opSpan right =>
      rw [evaluate]
      refine .andThen rfl fun v m₁ => ?_
      exact .andClean (.part rfl) fun w _ => .ofExcept (op.plain v w) opSpan
  | logical mark left op right =>
      rw [evaluate]
      refine .andThen rfl fun v m₁ => ?_
      split
      · exact (Clean.done _).composed
      · exact .part rfl
  | ternary mark condition question thenBranch elseBranch =>
      rw [evaluate]
      refine .andThen rfl fun v m₁ => ?_
      refine .andClean (.part rfl) fun w m₂ => ?_
      split
      · exact .done _
      · exact .fail rfl question
  | «variable» mark name =>
      rw [evaluate]
      exact .part rfl
  | assign mark name value =>
      rw [evaluate]
      refine .andThen rfl fun v m₁ => ?_
      exact .andClean (.part rfl) fun _ _ => .done v
  | call mark callee arguments paren =>
      rw [evaluate]
      refine .andThen rfl fun f m₁ => ?_
      refine .andThen rfl fun vs m₂ => ?_
      exact .part rfl
  | get mark object name =>
      rw [evaluate]
      refine .andClean (.part rfl) fun v m₁ => ?_
      split
      · exact .require rfl _ mark.span
      · exact .fail rfl mark.span
  | set mark object name value =>
      rw [evaluate]
      refine .andThen rfl fun v m₁ => ?_
      cases v with
      | object id c => exact .andClean (.part rfl) fun w _ => .done w
      | _ => exact (Clean.fail rfl mark.span).composed
  | thisRef mark =>
      rw [evaluate]
      exact .part rfl
  | superRef mark method =>
      rw [evaluate]
      exact .part rfl

theorem Expr.allComposed (es : List Expr) :
    Composed setting fuel (evaluateAll setting (fuel + 1) es m)
      (Expr.allParts setting fuel m es) := by
  cases es with
  | nil =>
      rw [evaluateAll]
      exact (Clean.done _).composed
  | cons e es =>
      rw [evaluateAll]
      refine .andThen rfl fun v m₁ => ?_
      exact .andClean (.part rfl) fun vs _ => .done _

theorem Value.composed (f : Value) (arguments : List Value) (site : Span) :
    Composed setting fuel (apply setting (fuel + 1) f arguments site m)
      (f.parts m arguments site) := by
  cases f with
  | closure f =>
      rw [apply, Value.parts]
      split
      · exact .part rfl
      · exact (Clean.fail rfl site).composed
  | cls c =>
      rw [apply, Value.parts]
      split
      -- making the object and binding its initialiser does not fail; calling it is a part
      · refine .afterClean (.done _) fun object m₁ => ?_
        cases c.findMethod? "init" with
        | none => exact (Clean.done _).composed
        | some method =>
            refine .afterClean (.done _) fun bound m₂ => ?_
            exact .andClean (.part rfl) fun _ _ => .done object
      · exact (Clean.fail rfl site).composed
  | native f =>
      cases f with
      | clock =>
          rw [apply]
          split
          · refine Clean.composed ?_
            exact .bind (.done (setting.clock m.readings)) fun x m₁ => .done _
          · exact (Clean.fail rfl site).composed
  | _ =>
      rw [apply]
      · exact (Clean.fail rfl site).composed
      all_goals
        intros
        contradiction

theorem bindArguments_clean (ps : List Param) (vs : List Value) :
    Clean (Action.bindArguments ps vs m) := by
  induction ps generalizing vs m with
  | nil => exact .done ()
  | cons p ps ih =>
      cases vs with
      | nil => exact .done ()
      | cons v vs => exact .bind (.done ()) fun _ _ => ih vs

theorem Closure.composed (f : Closure) (arguments : List Value) (site : Span)
    (hdepth : ¬callLimit ≤ m.depth) :
    Composed setting fuel (call setting (fuel + 1) f arguments site m) (f.parts m arguments) := by
  rw [call, Closure.parts, if_neg hdepth]
  change Composed setting fuel
    ((if callLimit ≤ m.depth then Action.fail .stackOverflow site else _ : Action Value) m) _
  rw [if_neg hdepth]
  -- the depth and the environment are restored behind the body, whatever its end
  refine .andClean (.framed (.inChildOf ?_)) fun completion m₁ => ?_
  · exact .afterClean (bindArguments_clean _ _) fun _ m₂ => .part rfl
  · split
    · exact .bind (.done _) fun receiver m₂ => .require rfl receiver site
    · exact .done _

theorem Decl.composed (d : Decl) :
    Composed setting fuel (execute setting (fuel + 1) d m) (d.parts m) := by
  cases d with
  | varDecl name nameSpan initializer span =>
      cases initializer with
      | none =>
          rw [execute]
          exact (Clean.done _).composed
      | some value =>
          rw [execute]
          exact .andClean (.part rfl) fun v _ => .bind (.done ()) fun _ _ => .done _
  | funDecl routine span =>
      rw [execute]
      exact (Clean.done _).composed
  | classDecl name nameSpan superclass methods span =>
      rw [execute]
      refine .andClean ?_ fun c m₁ => .bind (.done ()) fun _ _ => .done _
      cases superclass with
      | none => exact (Clean.done _).composed
      | some parent =>
          -- the lookup of the superclass is the only part of a class declaration
          refine Composed.andClean (x := Action.lookUp setting parent.mark parent.name) (.part rfl)
            fun v m₁ => ?_
          split
          · exact .done _
          · exact .fail rfl parent.mark.span
  | statement stmt =>
      rw [execute]
      exact .part rfl

theorem Decl.allComposed (ds : List Decl) :
    Composed setting fuel (executeAll setting (fuel + 1) ds m)
      (Decl.allParts setting fuel m ds) := by
  cases ds with
  | nil =>
      rw [executeAll]
      exact (Clean.done _).composed
  | cons d ds =>
      rw [executeAll]
      refine .andThen rfl fun c m₁ => ?_
      cases c with
      | normal => exact .part rfl
      | returned v => exact (Clean.done _).composed

theorem Stmt.composed (stmt : Stmt) :
    Composed setting fuel (perform setting (fuel + 1) stmt m) (stmt.parts setting fuel m) := by
  cases stmt with
  | expression e span =>
      rw [perform]
      exact .andClean (.part rfl) fun _ _ => .done _
  | print e span =>
      rw [perform]
      exact .andClean (.part rfl) fun v _ => .bind (.emit v.text span) fun _ _ => .done _
  | ret keyword value span =>
      cases value with
      | none =>
          rw [perform]
          exact (Clean.done _).composed
      | some value =>
          rw [perform]
          exact .andClean (.part rfl) fun _ _ => .done _
  | block body span =>
      rw [perform]
      exact .inChildOf (.part rfl)
  | ifElse condition thenBranch elseBranch span =>
      cases elseBranch with
      | none =>
          rw [perform]
          refine .andThen rfl fun v m₁ => ?_
          split
          · exact .part rfl
          · exact (Clean.done _).composed
      | some elseBranch =>
          rw [perform]
          refine .andThen rfl fun v m₁ => ?_
          split
          · exact .part rfl
          · exact .part rfl
  | whileLoop condition body span =>
      rw [perform]
      refine .andThen rfl fun v m₁ => ?_
      split
      · refine .andThen rfl fun c m₂ => ?_
        cases c with
        | normal => exact .part rfl
        | returned v => exact (Clean.done _).composed
      · exact (Clean.done _).composed

/-- Where a task opens a call too many. -/
def Task.overflow? (m : Machine) : Task → Option Span
  | .call _ _ site => if callLimit ≤ m.depth then some site else none
  | _ => none

/-- A call too many is an error at once, and has no parts. -/
theorem Task.of_overflow {t : Task} {site : Span} (h : t.overflow? m = some site) :
    t.outcome setting (fuel + 1) m = .failed ⟨.stackOverflow, site⟩ m ∧
      t.parts setting fuel m = [] := by
  cases t with
  | call f arguments site' =>
      by_cases hdepth : callLimit ≤ m.depth
      · rw [overflow?, if_pos hdepth] at h
        cases h
        refine ⟨?_, if_pos hdepth⟩
        change (Scriptlet.call setting (fuel + 1) f arguments site m).forget = _
        rw [Scriptlet.call]
        change ((if callLimit ≤ m.depth then Action.fail .stackOverflow site else _ :
          Action Value) m).forget = _
        rw [if_pos hdepth]
        rfl
      · rw [overflow?, if_neg hdepth] at h
        cases h
  | _ => cases h

theorem Composed.forget {α : Type} {o : Outcome α} {parts : List (Task × Machine)}
    (h : Composed setting fuel o parts) : Composed setting fuel o.forget parts := by
  refine ⟨fun part hpart s hs => ?_, fun s hs => ?_⟩
  · rw [Outcome.stop?_forget]
    exact h.of_part part hpart s hs
  · rw [Outcome.stop?_forget] at hs
    exact h.to_part s hs

/-- **How a task ends is decided by its parts**, unless a name is consulted or a call is one too
many. -/
theorem Task.composed (t : Task) (ht : t.reference? = none) (hover : t.overflow? m = none) :
    Composed setting fuel (t.outcome setting (fuel + 1) m) (t.parts setting fuel m) := by
  cases t with
  | evaluate e => exact e.composed.forget
  | evaluateAll es => exact (Expr.allComposed es).forget
  | apply f arguments site => exact (f.composed arguments site).forget
  | call f arguments site =>
      refine (f.composed arguments site fun hdepth => ?_).forget
      rw [overflow?, if_pos hdepth] at hover
      cases hover
  | execute d => exact d.composed.forget
  | executeAll ds => exact (Decl.allComposed ds).forget
  | perform stmt => exact stmt.composed.forget
  | lookUp mark name => cases ht
  | assign mark name v => cases ht
  | superMethod mark method => cases ht

/-- **What stops a part stops the task.** -/
theorem Task.stop?_of_part {t : Task} {part : Task × Machine} {s : Stop}
    (hpart : part ∈ t.parts setting fuel m) (hs : part.1.stop? setting fuel part.2 = some s) :
    t.stop? setting (fuel + 1) m = some s := by
  cases ht : t.reference? with
  | some consulted => cases t <;> cases ht <;> cases hpart
  | none =>
      cases hover : t.overflow? m with
      | some site =>
          rw [(of_overflow hover).2] at hpart
          cases hpart
      | none => exact (t.composed ht hover).of_part part hpart s hs

/-- If a task fails over a name, one of its parts does, or it consults that name itself. -/
theorem Task.error_of_part (t : Task) (ht : t.reference? = none) {e : RuntimeError}
    (h : t.error? setting (fuel + 1) m = some e) (he : e.fault.isUnbound = true) :
    ∃ part ∈ t.parts setting fuel m, part.1.error? setting fuel part.2 = some e := by
  have hstop := stop?_eq_failed.2 h
  cases hover : t.overflow? m with
  | some site =>
      rw [stop?, (of_overflow hover).1] at hstop
      cases hstop
      cases he
  | none =>
      rcases (t.composed ht hover).to_part _ hstop with ⟨e', heq, hplain⟩ | ⟨part, hpart, hs⟩
      · cases heq
        rw [RuntimeFault.isUnbound_eq_false_of_isPlain hplain] at he
        cases he
      · exact ⟨part, hpart, stop?_eq_failed.1 hs⟩

/-- Without fuel only names are consulted. -/
theorem Task.error?_zero (t : Task) (ht : t.reference? = none) : t.error? setting 0 m = none := by
  cases t with
  | lookUp mark name => cases ht
  | assign mark name v => cases ht
  | superMethod mark method => cases ht
  | _ => rfl

/-- **A moment that fails over a name leads to one at which a name is consulted**, and which fails
over it. -/
theorem Moment.leads_of_error {k : Moment} {e : RuntimeError} (h : k.error? setting = some e)
    (he : e.fault.isUnbound = true) :
    ∃ l, k.Leads setting l ∧ l.error? setting = some e ∧ l.task.reference? ≠ none := by
  obtain ⟨task, fuel, m⟩ := k
  -- induction on the fuel: an error over a name is handed down from part to part until there are no
  -- parts, and then a name is consulted
  induction fuel generalizing task m with
  | zero =>
      by_cases ht : task.reference? = none
      · exact absurd (h.symm.trans (task.error?_zero ht)) (Option.some_ne_none e)
      · exact ⟨_, .refl, h, ht⟩
  | succ fuel ih =>
      by_cases ht : task.reference? = none
      · obtain ⟨part, hpart, herror⟩ := task.error_of_part ht h he
        obtain ⟨l, hl, hlerror, hlt⟩ := ih part.1 part.2 herror
        exact ⟨l, .head (List.mem_map_of_mem hpart) hl, hlerror, hlt⟩
      · exact ⟨_, .refl, h, ht⟩

/-- When a reference is consulted, all that can be at fault beside plain things is that its name is
not bound: a global one if it has no distance, and else a local one. -/
theorem Task.stop_of_reference {t : Task} {mark : Mark} {x : String} {s : Stop}
    (ht : t.reference? = some (mark, x)) (h : t.stop? setting fuel m = some s) :
    s.Plain ∨
      s = .failed ⟨.undefinedVariable x, mark.span⟩ ∧ setting.distances[mark.id]? = none ∨
      s = .failed ⟨.unboundLocal x, mark.span⟩ ∧ ∃ d, setting.distances[mark.id]? = some d := by
  cases t with
  | lookUp mark' name =>
      cases ht
      unfold stop? outcome Action.lookUp at h
      rw [Outcome.stop?_forget] at h
      cases hd : setting.distances[mark.id]? with
      | some d =>
          simp only [hd] at h
          change (Action.require (m.store.getAt? m.scope d x) (.unboundLocal x) mark.span
            m).stop? = _ at h
          cases hv : m.store.getAt? m.scope d x <;> rw [hv] at h <;> cases h
          exact .inr (.inr ⟨rfl, d, rfl⟩)
      | none =>
          simp only [hd] at h
          change (Action.require (m.store.get? m.globals x) (.undefinedVariable x) mark.span
            m).stop? = _ at h
          cases hv : m.store.get? m.globals x <;> rw [hv] at h <;> cases h
          exact .inr (.inl ⟨rfl, rfl⟩)
  | assign mark' name v =>
      cases ht
      unfold stop? outcome Action.assign at h
      rw [Outcome.stop?_forget] at h
      cases hd : setting.distances[mark.id]? with
      | some d =>
          simp only [hd] at h
          change ((if (m.store.assignAt m.scope d x v).1 = true then Pure.pure ()
            else Action.fail (.unboundLocal x) mark.span : Action Unit)
              { m with store := (m.store.assignAt m.scope d x v).2 }).stop? = _ at h
          split at h <;> cases h
          exact .inr (.inr ⟨rfl, d, rfl⟩)
      | none =>
          simp only [hd] at h
          change ((if (m.store.assign m.globals x v).1 = true then Pure.pure ()
            else Action.fail (.undefinedVariable x) mark.span : Action Unit)
              { m with store := (m.store.assign m.globals x v).2 }).stop? = _ at h
          split at h <;> cases h
          exact .inr (.inl ⟨rfl, rfl⟩)
  | superMethod mark' method =>
      unfold stop? outcome at h
      rw [Outcome.stop?_forget] at h
      exact .inl (superMethod_clean mark' method _ h)
  | _ => cases ht

/-- A name is said to be undefined only if its reference has no distance. -/
theorem Task.reference_of_error {t : Task} {x : String} {span : Span} (ht : t.reference? ≠ none)
    (h : t.error? setting fuel m = some ⟨.undefinedVariable x, span⟩) :
    ∃ mark, t.reference? = some (mark, x) ∧ mark.span = span ∧
      setting.distances[mark.id]? = none := by
  obtain ⟨⟨mark, name⟩, hmark⟩ := Option.ne_none_iff_exists'.1 ht
  rcases stop_of_reference hmark (stop?_eq_failed.2 h) with ⟨_, heq, hplain⟩ | ⟨heq, hd⟩ | ⟨heq, -⟩
  · cases heq
    cases hplain
  · cases heq
    exact ⟨mark, hmark, rfl, hd⟩
  · cases heq

/-- What stops a run stops one of its declarations, if it is not an error over a `return`. -/
theorem mem_topMoments_of_stop {ds : List Decl} {s : Stop}
    (h : (runDeclarations setting fuel ds m).stop? = some s) :
    (∃ span, s = .failed ⟨.returnAtTopLevel, span⟩) ∨
      ∃ k ∈ topMoments setting fuel ds m, k.task.stop? setting k.fuel k.machine = some s := by
  -- the run stops in the first declaration that does, and all moments before it have passed
  induction ds generalizing m with
  | nil => cases h
  | cons d ds ih =>
      rw [runDeclarations, Action.bind_apply] at h
      have hfirst : (execute setting fuel d m).stop? = some s →
          ∃ k ∈ topMoments setting fuel (d :: ds) m,
            k.task.stop? setting k.fuel k.machine = some s := by
        intro hd
        refine ⟨_, mem_topMoments_cons.2 (.inl rfl), ?_⟩
        change ((execute setting fuel d m).forget).stop? = _
        rw [Outcome.stop?_forget, hd]
      cases hd : execute setting fuel d m with
      | done c m₁ =>
          rw [hd] at h
          cases c with
          | normal =>
              rcases ih h with hreturn | ⟨k, hk, hstop⟩
              · exact .inl hreturn
              · exact .inr ⟨k, mem_topMoments_cons.2 (.inr ⟨m₁, hd, hk⟩), hstop⟩
          | returned v =>
              cases h
              exact .inl ⟨_, rfl⟩
      | failed e m₁ =>
          rw [hd] at h hfirst
          exact .inr (hfirst h)
      | starved =>
          rw [hd] at h hfirst
          exact .inr (hfirst h)

/-- A run that fails fails in one of its declarations, if it is not over a `return`. -/
theorem mem_topMoments_of_error {ds : List Decl} {e : RuntimeError}
    (h : (runDeclarations setting fuel ds m).error? = some e)
    (he : e.fault ≠ .returnAtTopLevel) :
    ∃ k ∈ topMoments setting fuel ds m, k.error? setting = some e := by
  rcases mem_topMoments_of_stop (Outcome.stop?_eq_failed.2 h) with ⟨_, heq⟩ | ⟨k, hk, hstop⟩
  · cases heq
    exact absurd rfl he
  · exact ⟨k, hk, Task.stop?_eq_failed.1 hstop⟩

/-- **A run fails over a name only where that name is consulted**, and calls it undefined only if
the reference has no distance. -/
theorem Occurs.of_error {ds : List Decl} {x : String} {span : Span}
    (h : (runDeclarations setting fuel ds m).error? = some ⟨.undefinedVariable x, span⟩) :
    ∃ k mark, Occurs setting fuel ds m k ∧ k.task.reference? = some (mark, x) ∧ mark.span = span ∧
      setting.distances[mark.id]? = none := by
  obtain ⟨top, htop, herror⟩ := mem_topMoments_of_error h nofun
  obtain ⟨l, hl, hlerror, hlt⟩ := Moment.leads_of_error herror rfl
  obtain ⟨mark, hmark⟩ := Task.reference_of_error hlt hlerror
  exact ⟨l, mark, ⟨top, htop, hl⟩, hmark⟩

end Parts

end Scriptlet
