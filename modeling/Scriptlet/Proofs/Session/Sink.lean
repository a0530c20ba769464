/-
**Printing to lines and to a sink.**

An action whose output goes to a sink goes hand in hand with the same action with its output kept as
lines: both do the same as long as the sink has room for what is printed.  The first text for which
it has none ends the action with an error at the place of its print statement, and the error goes
through all calls, blocks and loops without another text.

Main definitions:

* `Scriptlet.Machine.on`, `Scriptlet.Outcome.on` — a machine and an end with another output;
* `Scriptlet.Action.Silent` — an action that does not look at the output;
* `Scriptlet.Writes` — **how an end with a sink follows from the end with lines**;
* `Scriptlet.Action.Prints` — **an action that prints texts**, as lines and to a sink.

Main results:

* `Scriptlet.Action.Prints.bind` — **two actions in a row print the texts of both**;
* `Scriptlet.Action.Prints.emit` — a text that is printed;
* `Scriptlet.Action.Prints.around` — what is done behind an action prints nothing more;
* `Scriptlet.printers` — **every evaluator prints what its task prints**;
* `Scriptlet.runDeclarations_prints` — and so does a program.
-/

import Scriptlet.Proofs.Session.Printing

set_option relaxedAutoImplicit false
set_option autoImplicit false

namespace Scriptlet

/-! ### Other outputs -/

/-- The machine with another output. -/
def Machine.on (m : Machine) (o : Output) : Machine := { m with output := o }

/-- The end on a machine with another output. -/
def Outcome.on {α : Type} (x : Outcome α) (o : Output) : Outcome α :=
  match x with
  | .done a m => .done a (m.on o)
  | .failed e m => .failed e (m.on o)
  | .starved => .starved

/-- The end with a machine that is changed behind it. -/
def Outcome.through {α : Type} (x : Outcome α) (leave : Machine → Machine) : Outcome α :=
  match x with
  | .done a m => .done a (leave m)
  | .failed e m => .failed e (leave m)
  | .starved => .starved

/-- A change that has nothing to do with the output may be made before or after another output is
taken. -/
theorem Outcome.through_on {α : Type} {x : Outcome α} {leave : Machine → Machine} {o : Output}
    (hleave : ∀ m, leave (m.on o) = (leave m).on o) :
    (x.on o).through leave = (x.through leave).on o := by
  cases x with
  | done a m => exact congrArg (Outcome.done a) (hleave m)
  | failed e m => exact congrArg (Outcome.failed e) (hleave m)
  | starved => rfl

namespace Action

variable {α β : Type} {x : Action α} {f : α → Action β}

/-- **An action that does not look at the output**, nor changes it. -/
def Silent (x : Action α) : Prop := ∀ m o, x (m.on o) = (x m).on o

namespace Silent

theorem pure (a : α) : (Pure.pure a : Action α).Silent := fun _ _ => rfl

theorem starve : (Action.starve : Action α).Silent := fun _ _ => rfl

theorem fail (fault : RuntimeFault) (span : Span) : (Action.fail fault span : Action α).Silent :=
  fun _ _ => rfl

/-- What is read off the machine is not the output. -/
theorem read {f : Machine → α} (hf : ∀ m o, f (m.on o) = f m) : (Action.read f).Silent :=
  fun m o => congrArg (Outcome.done · (m.on o)) (hf m o)

theorem onStore (f : Store → α × Store) : (Action.onStore f).Silent := fun _ _ => rfl

theorem changeStore (f : Store → Store) : (Action.changeStore f).Silent := fun _ _ => rfl

theorem readClock (setting : Setting) : (Action.readClock setting).Silent := fun _ _ => rfl

theorem require (a : Option α) (fault : RuntimeFault) (span : Span) :
    (Action.require a fault span).Silent := by
  cases a with
  | some a => exact .pure a
  | none => exact .fail fault span

theorem ofExcept (r : Except RuntimeFault α) (span : Span) : (Action.ofExcept r span).Silent := by
  cases r with
  | ok a => exact .pure a
  | error fault => exact .fail fault span

theorem bind (hx : x.Silent) (hf : ∀ a, (f a).Silent) : (x >>= f).Silent := by
  intro m o
  rw [bind_apply, bind_apply, hx m o]
  cases x m with
  | done a m' => exact hf a m' o
  | failed e m' => rfl
  | starved => rfl

theorem define (name : String) (v : Value) : (Action.define name v).Silent :=
  .bind (.read fun _ _ => rfl) fun _ => .changeStore _

theorem bindArguments (ps : List Param) (vs : List Value) :
    (Action.bindArguments ps vs).Silent := by
  induction ps generalizing vs with
  | nil => exact .pure ()
  | cons p ps ih =>
      cases vs with
      | nil => exact .pure ()
      | cons v vs => exact .bind (.define p.name v) fun _ => ih vs

section Names

variable (setting : Setting) (mark : Mark)

theorem lookUp (name : String) : (Action.lookUp setting mark name).Silent := by
  unfold Action.lookUp
  split
  · exact .bind (.read fun _ _ => rfl) fun _ => .require _ _ _
  · exact .bind (.read fun _ _ => rfl) fun _ => .require _ _ _

theorem assign (name : String) (v : Value) : (Action.assign setting mark name v).Silent := by
  unfold Action.assign
  split
  all_goals
    refine .bind (.read fun _ _ => rfl) fun environment => .bind (.onStore _) fun assigned => ?_
    split
    · exact .pure ()
    · exact .fail _ _

theorem superMethod (method : String) : (Action.superMethod setting mark method).Silent := by
  unfold Action.superMethod
  refine .bind (.require _ _ _) fun distance => ?_
  refine .bind (.read fun _ _ => rfl) fun parent => .bind (.read ?_) fun receiver => ?_
  · intro m o
    cases distance <;> rfl
  · split
    · exact .bind (.require _ _ _) fun found => .bind (.onStore _) fun bound => .pure _
    · exact .fail _ _

theorem makeClass (name : String) (superclass : Option Superclass) (methods : List Routine) :
    (Action.makeClass setting name superclass methods).Silent := by
  unfold Action.makeClass
  refine .bind (.read fun _ _ => rfl) fun scope => ?_
  cases superclass with
  | none => exact .onStore _
  | some parent =>
      refine .bind (.lookUp setting parent.mark parent.name) fun v => ?_
      split
      · exact .bind (.onStore _) fun inner => .bind (.changeStore _) fun _ => .onStore _
      · exact .fail _ _

end Names

end Silent

end Action

/-! ### Actions that print -/

/-- A machine whose printed texts are kept as lines. -/
def Machine.Keeps (m : Machine) (lines : List String) : Prop := m.output = .lines lines.toArray

/-- An end that leaves a machine with these lines, if it leaves one. -/
def Outcome.Keeps {α : Type} (x : Outcome α) (lines : List String) : Prop :=
  match x with
  | .done _ m => m.Keeps lines
  | .failed _ m => m.Keeps lines
  | .starved => True

theorem Outcome.Keeps.through {α : Type} {x : Outcome α} {lines : List String}
    {leave : Machine → Machine} (h : x.Keeps lines) (houtput : ∀ m, (leave m).output = m.output) :
    (x.through leave).Keeps lines := by
  cases x with
  | done a m => exact (houtput m).trans h
  | failed e m => exact (houtput m).trans h
  | starved => trivial

/-- **How an end with a sink follows from the end with lines** and from what becomes of the sink: it
is the same end, or the error of the text for which there was no room. -/
inductive Writes {α : Type} (capacity : Nat) :
    String × Option Printing → Outcome α → Outcome α → Prop
  | fits {written : String} {x : Outcome α} :
      Writes capacity (written, none) x (x.on (.sink capacity written))
  | full {written : String} {p : Printing} {x : Outcome α} {m : Machine} :
      m.output = .sink capacity written →
      Writes capacity (written, some p) x (.failed ⟨.sinkFull, p.span⟩ m)

/-- **An action that prints texts**: they are added to the lines that are kept, or else poured into
the sink. -/
structure Action.Prints {α : Type} (x : Action α) (m : Machine) (ps : List Printing) : Prop where
  keeps : ∀ {lines}, m.Keeps lines → (x m).Keeps (lines ++ ps.map Printing.text)
  writes : ∀ {lines}, m.Keeps lines → ∀ capacity written,
    Writes capacity (pour capacity written ps) (x m) (x (m.on (.sink capacity written)))

namespace Action.Prints

variable {α β : Type} {x : Action α} {f : α → Action β} {m : Machine} {ps : List Printing}

theorem of_silent (h : x.Silent) : x.Prints m [] where
  keeps := by
    intro lines hm
    rw [List.map_nil, List.append_nil]
    -- the output that is kept is the one that was there
    have hsame : x m = (x m).on m.output := h m m.output
    rw [hsame, hm]
    cases x m with
    | done a m' => exact rfl
    | failed e m' => exact rfl
    | starved => trivial
  writes _ capacity written := by
    rw [h m]
    exact .fits

/-- **Two actions in a row print the texts of both**, if the first comes to its end. -/
theorem bind {qs : α → Machine → List Printing} (hx : x.Prints m ps)
    (hf : ∀ a m', (f a).Prints m' (qs a m')) : (x >>= f).Prints m (ps ++ (x m).after qs) where
  keeps := by
    intro lines hm
    have hkeeps := hx.keeps hm
    rw [bind_apply]
    cases h : x m with
    | done a m' =>
        rw [h] at hkeeps
        have hrest := (hf a m').keeps hkeeps
        rw [List.append_assoc, ← List.map_append] at hrest
        exact hrest
    | failed e m' =>
        rw [h] at hkeeps
        rw [Outcome.after, List.append_nil]
        exact hkeeps
    | starved => trivial
  writes := by
    intro lines hm capacity written
    have hkeeps := hx.keeps hm
    have hwrites := hx.writes hm capacity written
    rw [bind_apply, bind_apply, pour_append]
    generalize pour capacity written ps = poured, x (m.on (.sink capacity written)) = y at hwrites
    cases hwrites with
    | fits =>
        cases h : x m with
        | done a m' =>
            rw [h] at hkeeps
            exact (hf a m').writes hkeeps capacity _
        | failed e m' => exact .fits
        | starved => exact .fits
    -- once the sink is full, the second action is not begun
    | full hfull => exact .full hfull

/-- **A text that is printed** is kept as a line, or poured into the sink. -/
theorem emit (text : String) (span : Span) : (Action.emit text span).Prints m [⟨text, span⟩] := by
  have hrun : ∀ {lines}, m.Keeps lines →
      Action.emit text span m = .done () (m.on (.lines (lines ++ [text]).toArray)) := by
    intro lines hm
    unfold Action.emit
    rw [hm, Output.emit, List.push_toArray]
    rfl
  constructor
  case keeps =>
      intro lines hm
      rw [hrun hm]
      exact rfl
  case writes =>
      intro lines hm capacity written
      have hsink : (m.on (.sink capacity written)).output = .sink capacity written := rfl
      rw [hrun hm, Action.emit, hsink, emit_sink, pour]
      by_cases hroom : written.utf8ByteSize + text.utf8ByteSize + 1 ≤ capacity
      · rw [if_pos hroom, if_pos hroom]
        exact .fits
      · rw [if_neg hroom, if_neg hroom]
        split
        · exact .full rfl
        · exact .full rfl

/-- An action that goes on with what it has read off the machine. -/
theorem read_bind {γ : Type} {g : Machine → γ} {f : γ → Action α} (hg : ∀ m o, g (m.on o) = g m)
    (h : (f (g m)).Prints m ps) : (Action.read g >>= f).Prints m ps where
  keeps := h.keeps
  writes hm capacity written := by
    have hwrites := h.writes hm capacity written
    change Writes _ _ (f (g m) m) (f (g (m.on (.sink capacity written))) (m.on _))
    rwa [hg]

/-- An action that runs another one on a machine that is changed before and changed again behind it
prints what the other one prints. -/
theorem around {y : Action α} {m₁ : Machine} (leave : Machine → Machine) (h : x.Prints m₁ ps)
    (hm₁ : m₁.output = m.output) (hleave : ∀ m' o, leave (m'.on o) = (leave m').on o)
    (hy : ∀ o, y (m.on o) = (x (m₁.on o)).through leave) : y.Prints m ps := by
  have hrun : y m = (x m₁).through leave := by
    have hself : y m = (x (m₁.on m.output)).through leave := hy m.output
    rwa [← hm₁] at hself
  have houtput : ∀ m', (leave m').output = m'.output := by
    intro m'
    have hself : leave m' = (leave m').on m'.output := hleave m' m'.output
    rw [hself]
    rfl
  constructor
  case keeps =>
      intro lines hm
      rw [hrun]
      exact (h.keeps (hm₁.trans hm)).through houtput
  case writes =>
      intro lines hm capacity written
      have hwrites := h.writes (hm₁.trans hm) capacity written
      rw [hrun, hy]
      generalize pour capacity written ps = poured, x (m₁.on (.sink capacity written)) = z
        at hwrites
      cases hwrites with
      | fits =>
          rw [Outcome.through_on fun m' => hleave m' _]
          exact .fits
      | full hfull => exact .full ((houtput _).trans hfull)

theorem inChildOf {environment : Environment} (h : x.Prints (m.entering environment) ps) :
    (Action.inChildOf environment x).Prints m ps := by
  refine around (fun m' => { m' with scope := m.scope }) h rfl (fun _ _ => rfl) fun o => ?_
  rw [inChildOf_apply]
  change _ = (x ((m.on o).entering environment)).through _
  cases x ((m.on o).entering environment) <;> rfl

theorem framed (h : x.Prints { m with depth := m.depth + 1 } ps) :
    (Action.framed x).Prints m ps := by
  refine around (fun m' => { m' with depth := m'.depth - 1 }) h rfl (fun _ _ => rfl) fun o => ?_
  rw [framed_apply]
  change _ = (x { m.on o with depth := (m.on o).depth + 1 }).through _
  cases x { m.on o with depth := (m.on o).depth + 1 } <;> rfl

section Parts

variable {setting : Setting} {fuel : Nat}

/-- An action without a text of its own behind it. -/
theorem andSilent (h : x.Prints m ps) (hf : ∀ a, (f a).Silent) : (x >>= f).Prints m ps := by
  have hbind := h.bind fun a m' => of_silent (m := m') (hf a)
  rwa [Outcome.after_nil, List.append_nil] at hbind

/-- An action whose first half prints nothing. -/
theorem afterSilent {g : α → Machine → List (Task × Machine)} (h : x.Silent)
    (hf : ∀ a m', (f a).Prints m' (partsPrint setting fuel (g a m'))) :
    (x >>= f).Prints m (partsPrint setting fuel ((x m).after g)) := by
  rw [partsPrint_after]
  exact (of_silent h).bind hf

/-- A part that prints what the whole prints. -/
theorem part {task : Task} (h : x.Prints m (task.prints setting fuel m)) :
    x.Prints m (partsPrint setting fuel [(task, m)]) := by
  rwa [partsPrint_singleton]

/-- An action whose first half is a part, and whose second half goes on with other parts. -/
theorem andThen {task : Task} {g : α → Machine → List (Task × Machine)}
    (h : x.Prints m (task.prints setting fuel m))
    (hf : ∀ a m', (f a).Prints m' (partsPrint setting fuel (g a m'))) :
    (x >>= f).Prints m (partsPrint setting fuel ((task, m) :: (x m).after g)) := by
  rw [partsPrint, List.flatMap_cons]
  change (x >>= f).Prints m (_ ++ partsPrint setting fuel ((x m).after g))
  rw [partsPrint_after]
  exact h.bind hf

/-- A task that prints what its parts print. -/
theorem of_parts {task : Task} (hown : task.own setting fuel m = [])
    (h : x.Prints m (partsPrint setting fuel (task.parts setting fuel m))) :
    x.Prints m (task.prints setting (fuel + 1) m) := by
  rwa [Task.prints_succ, hown, List.append_nil]

/-- A task that consults a name. -/
theorem of_reference {task : Task} (ht : task.reference? ≠ none) (h : x.Silent) :
    x.Prints m (task.prints setting fuel m) := by
  rw [Task.prints_of_reference ht]
  exact .of_silent h

end Parts

end Action.Prints

/-! ### Evaluators -/

/-- With some fuel, all evaluators print what their tasks print. -/
structure Printers (setting : Setting) (fuel : Nat) : Prop where
  evaluate : ∀ e m, (evaluate setting fuel e).Prints m ((Task.evaluate e).prints setting fuel m)
  evaluateAll : ∀ es m,
    (evaluateAll setting fuel es).Prints m ((Task.evaluateAll es).prints setting fuel m)
  apply : ∀ f arguments site m, (apply setting fuel f arguments site).Prints m
    ((Task.apply f arguments site).prints setting fuel m)
  call : ∀ f arguments site m, (call setting fuel f arguments site).Prints m
    ((Task.call f arguments site).prints setting fuel m)
  execute : ∀ d m, (execute setting fuel d).Prints m ((Task.execute d).prints setting fuel m)
  executeAll : ∀ ds m,
    (executeAll setting fuel ds).Prints m ((Task.executeAll ds).prints setting fuel m)
  perform : ∀ stmt m,
    (perform setting fuel stmt).Prints m ((Task.perform stmt).prints setting fuel m)

namespace Printers

variable {setting : Setting} {fuel : Nat}

theorem evaluate_succ (ih : Printers setting fuel) (e : Expr) (m : Machine) :
    (Scriptlet.evaluate setting (fuel + 1) e).Prints m
      ((Task.evaluate e).prints setting (fuel + 1) m) := by
  refine .of_parts rfl ?_
  cases e with
  | constant mark value =>
      rw [Scriptlet.evaluate]
      exact .of_silent (.pure _)
  | grouping mark inner =>
      rw [Scriptlet.evaluate]
      exact .part (ih.evaluate inner m)
  | unary mark op operand =>
      rw [Scriptlet.evaluate]
      exact .andSilent (.part (ih.evaluate operand m)) fun v => .ofExcept _ _
  | binary mark left op opSpan right =>
      rw [Scriptlet.evaluate]
      refine .andThen (ih.evaluate left m) fun v m₁ => ?_
      exact .andSilent (.part (ih.evaluate right m₁)) fun w => .ofExcept _ _
  | logical mark left op right =>
      rw [Scriptlet.evaluate]
      refine .andThen (ih.evaluate left m) fun v m₁ => ?_
      split
      · exact .of_silent (.pure v)
      · exact .part (ih.evaluate right m₁)
  | ternary mark condition question thenBranch elseBranch =>
      rw [Scriptlet.evaluate]
      refine .andThen (ih.evaluate condition m) fun v m₁ => ?_
      refine .andSilent (.part (ih.evaluate _ m₁)) fun w => ?_
      split
      · exact .pure _
      · exact .fail _ _
  | «variable» mark name =>
      rw [Scriptlet.evaluate]
      exact .part (.of_reference (Option.some_ne_none _) (.lookUp setting mark name))
  | assign mark name value =>
      rw [Scriptlet.evaluate]
      refine .andThen (ih.evaluate value m) fun v m₁ => ?_
      refine .andSilent (.part ?_) fun _ => .pure v
      exact .of_reference (Option.some_ne_none _) (.assign setting mark name v)
  | call mark callee arguments paren =>
      rw [Scriptlet.evaluate]
      refine .andThen (ih.evaluate callee m) fun f m₁ => ?_
      refine .andThen (ih.evaluateAll arguments m₁) fun vs m₂ => ?_
      exact .part (ih.apply f vs paren m₂)
  | get mark object name =>
      rw [Scriptlet.evaluate]
      refine .andSilent (.part (ih.evaluate object m)) fun v => ?_
      split
      · exact .bind (.onStore _) fun found => .require _ _ _
      · exact .fail _ _
  | set mark object name value =>
      rw [Scriptlet.evaluate]
      refine .andThen (ih.evaluate object m) fun v m₁ => ?_
      cases v with
      | object id c =>
          refine .andSilent (.part (ih.evaluate value m₁)) fun w => ?_
          exact .bind (.changeStore _) fun _ => .pure w
      | _ => exact .of_silent (.fail _ _)
  | thisRef mark =>
      rw [Scriptlet.evaluate]
      exact .part (.of_reference (Option.some_ne_none _) (.lookUp setting mark "this"))
  | superRef mark method =>
      rw [Scriptlet.evaluate]
      exact .part (.of_reference (Option.some_ne_none _) (.superMethod setting mark method))

theorem evaluateAll_succ (ih : Printers setting fuel) (es : List Expr) (m : Machine) :
    (Scriptlet.evaluateAll setting (fuel + 1) es).Prints m
      ((Task.evaluateAll es).prints setting (fuel + 1) m) := by
  refine .of_parts rfl ?_
  cases es with
  | nil =>
      rw [Scriptlet.evaluateAll]
      exact .of_silent (.pure [])
  | cons e es =>
      rw [Scriptlet.evaluateAll]
      refine .andThen (ih.evaluate e m) fun v m₁ => ?_
      exact .andSilent (.part (ih.evaluateAll es m₁)) fun vs => .pure _

theorem apply_succ (ih : Printers setting fuel) (f : Value) (arguments : List Value) (site : Span)
    (m : Machine) : (Scriptlet.apply setting (fuel + 1) f arguments site).Prints m
      ((Task.apply f arguments site).prints setting (fuel + 1) m) := by
  refine .of_parts rfl ?_
  rw [Task.parts]
  cases f with
  | closure f =>
      rw [Scriptlet.apply, Value.parts]
      split
      · exact .part (ih.call f arguments site m)
      · exact .of_silent (.fail _ _)
  | cls c =>
      rw [Scriptlet.apply, Value.parts]
      split
      · refine .afterSilent (.onStore _) fun object m₁ => ?_
        cases c.findMethod? "init" with
        | none => exact .of_silent (.pure object)
        | some method =>
            refine .afterSilent (.onStore _) fun bound m₂ => ?_
            exact .andSilent (.part (ih.call bound arguments site m₂)) fun _ => .pure object
      · exact .of_silent (.fail _ _)
  | native f =>
      cases f
      rw [Scriptlet.apply]
      split
      · exact .of_silent (.bind (.readClock setting) fun x => .pure _)
      · exact .of_silent (.fail _ _)
  | _ =>
      rw [Scriptlet.apply]
      · exact .of_silent (.fail _ _)
      all_goals
        intros
        contradiction

theorem call_succ (ih : Printers setting fuel) (f : Closure) (arguments : List Value) (site : Span)
    (m : Machine) : (Scriptlet.call setting (fuel + 1) f arguments site).Prints m
      ((Task.call f arguments site).prints setting (fuel + 1) m) := by
  refine .of_parts rfl ?_
  rw [Scriptlet.call, Task.parts, Closure.parts]
  refine .read_bind (fun _ _ => rfl) ?_
  split
  · exact .of_silent (.fail _ _)
  · refine .andSilent (.framed (.inChildOf ?_)) fun completion => ?_
    · exact .afterSilent (.bindArguments _ _) fun _ m₁ =>
        .part (ih.executeAll f.routine.body m₁)
    · split
      · exact .bind (.read fun _ _ => rfl) fun receiver => .require _ _ _
      · exact .pure _

theorem execute_succ (ih : Printers setting fuel) (d : Decl) (m : Machine) :
    (Scriptlet.execute setting (fuel + 1) d).Prints m
      ((Task.execute d).prints setting (fuel + 1) m) := by
  refine .of_parts rfl ?_
  cases d with
  | varDecl name nameSpan initializer span =>
      cases initializer with
      | none =>
          rw [Scriptlet.execute]
          exact .of_silent (.bind (.pure _) fun v => .bind (.define name v) fun _ => .pure _)
      | some value =>
          rw [Scriptlet.execute]
          refine .andSilent (.part (ih.evaluate value m)) fun v => ?_
          exact .bind (.define name v) fun _ => .pure _
  | funDecl routine span =>
      rw [Scriptlet.execute]
      refine .of_silent (.bind (.read fun _ _ => rfl) fun scope => ?_)
      exact .bind (.define _ _) fun _ => .pure _
  | classDecl name nameSpan superclass methods span =>
      rw [Scriptlet.execute]
      have hsilent := Action.Silent.makeClass setting name superclass methods
      have hclass := Action.Prints.of_silent (m := m)
        (hsilent.bind fun cls => .bind (.define name (.cls cls)) fun _ => .pure Completion.normal)
      -- looking up the superclass is the only part, and prints nothing
      cases superclass with
      | none => exact hclass
      | some parent =>
          rw [Task.parts, Decl.parts, partsPrint_singleton, Task.prints_of_reference]
          · exact hclass
          · exact Option.some_ne_none _
  | statement stmt =>
      rw [Scriptlet.execute]
      exact .part (ih.perform stmt m)

theorem executeAll_succ (ih : Printers setting fuel) (ds : List Decl) (m : Machine) :
    (Scriptlet.executeAll setting (fuel + 1) ds).Prints m
      ((Task.executeAll ds).prints setting (fuel + 1) m) := by
  refine .of_parts rfl ?_
  cases ds with
  | nil =>
      rw [Scriptlet.executeAll]
      exact .of_silent (.pure _)
  | cons d ds =>
      rw [Scriptlet.executeAll]
      refine .andThen (ih.execute d m) fun c m₁ => ?_
      cases c with
      | normal => exact .part (ih.executeAll ds m₁)
      | returned v => exact .of_silent (.pure _)

/-- A print statement prints a text of its own behind what its expression prints; all other
statements print what their parts print. -/
theorem perform_succ (ih : Printers setting fuel) (stmt : Stmt) (m : Machine) :
    (Scriptlet.perform setting (fuel + 1) stmt).Prints m
      ((Task.perform stmt).prints setting (fuel + 1) m) := by
  cases stmt with
  | print e span =>
      rw [Scriptlet.perform]
      refine .bind (.part (ih.evaluate e m)) fun v m₁ => ?_
      exact .andSilent (.emit v.text span) fun _ => .pure _
  | expression e span =>
      rw [Scriptlet.perform]
      exact .of_parts rfl (.andSilent (.part (ih.evaluate e m)) fun _ => .pure _)
  | ret keyword value span =>
      cases value with
      | none =>
          rw [Scriptlet.perform]
          exact .of_parts rfl (.of_silent (.pure _))
      | some value =>
          rw [Scriptlet.perform]
          exact .of_parts rfl (.andSilent (.part (ih.evaluate value m)) fun _ => .pure _)
  | block body span =>
      rw [Scriptlet.perform]
      refine .of_parts rfl (.read_bind (fun _ _ => rfl) ?_)
      exact .inChildOf (.part (ih.executeAll body _))
  | ifElse condition thenBranch elseBranch span =>
      cases elseBranch with
      | none =>
          rw [Scriptlet.perform]
          refine .of_parts rfl (.andThen (ih.evaluate condition m) fun v m₁ => ?_)
          split
          · exact .part (ih.perform thenBranch m₁)
          · exact .of_silent (.pure _)
      | some elseBranch =>
          rw [Scriptlet.perform]
          refine .of_parts rfl (.andThen (ih.evaluate condition m) fun v m₁ => ?_)
          split
          · exact .part (ih.perform thenBranch m₁)
          · exact .part (ih.perform elseBranch m₁)
  | whileLoop condition body span =>
      rw [Scriptlet.perform]
      refine .of_parts rfl (.andThen (ih.evaluate condition m) fun v m₁ => ?_)
      split
      · refine .andThen (ih.perform body m₁) fun c m₂ => ?_
        cases c with
        | normal => exact .part (ih.perform _ m₂)
        | returned v => exact .of_silent (.pure _)
      · exact .of_silent (.pure _)

end Printers

/-- **All evaluators print what their tasks print**, with whatever fuel. -/
theorem printers (setting : Setting) (fuel : Nat) : Printers setting fuel := by
  induction fuel with
  | zero =>
      exact
        { evaluate := fun _ _ => .of_silent .starve
          evaluateAll := fun _ _ => .of_silent .starve
          apply := fun _ _ _ _ => .of_silent .starve
          call := fun _ _ _ _ => .of_silent .starve
          execute := fun _ _ => .of_silent .starve
          executeAll := fun _ _ => .of_silent .starve
          perform := fun _ _ => .of_silent .starve }
  | succ fuel ih =>
      exact
        { evaluate := ih.evaluate_succ
          evaluateAll := ih.evaluateAll_succ
          apply := ih.apply_succ
          call := ih.call_succ
          execute := ih.execute_succ
          executeAll := ih.executeAll_succ
          perform := ih.perform_succ }

/-- **A program prints what its declarations print**, up to the first that fails. -/
theorem runDeclarations_prints (setting : Setting) (fuel : Nat) (ds : List Decl) (m : Machine) :
    (runDeclarations setting fuel ds).Prints m (allPrints setting fuel ds m) := by
  induction ds generalizing m with
  | nil => exact .of_silent (.pure ())
  | cons d ds ih =>
      rw [runDeclarations, allPrints_cons]
      refine .bind ((printers setting fuel).execute d m) fun c m₁ => ?_
      cases c with
      | normal => exact ih m₁
      | returned v => exact .of_silent (.fail _ _)

end Scriptlet
