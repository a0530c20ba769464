/-
**The control of a session.**

Whatever programs a session runs, resolved well, badly or not at all, and whatever becomes of them,
it is at rest between two runs: it stands in the globals and no call is open.  So the calls that are
open at a moment of a run are exactly those around it, and a failure in their midst leaves nothing
behind.

Main definitions:

* `Scriptlet.Session.Attained` — the sessions that can be reached;
* `Scriptlet.Session.ControlKept` — what a run keeps of the control of the machine.

Main results:

* `Scriptlet.Session.Attained.atRest` — a session that can be reached is at rest;
* `Scriptlet.Session.Reached.attained` — a session that takes sources can be reached;
* `Scriptlet.Session.Attained.control_kept` — **every run keeps the control of its machine**.
-/

import Scriptlet.Proofs.Control.Calls
import Scriptlet.Proofs.Session.Reached

set_option relaxedAutoImplicit false
set_option autoImplicit false

namespace Scriptlet

/-- A text is not one that begins otherwise. -/
theorem append_append_ne {s u : String} (h : ¬s.toList <+: u.toList) (t t' : String) :
    s ++ t ++ t' ≠ u := by
  rintro rfl
  rw [String.append_assoc, String.toList_append] at h
  exact h (List.prefix_append _ _)

/-- No other fault is worded like a call too many. -/
theorem RuntimeFault.message_eq_stackOverflow {fault : RuntimeFault} :
    fault.message = "stack overflow" ↔ fault = .stackOverflow := by
  refine ⟨fun h => ?_, fun h => congrArg message h⟩
  cases fault with
  | stackOverflow => rfl
  | undefinedVariable name | unboundLocal name | undefinedProperty name =>
      exact absurd h (append_append_ne (by decide +kernel) _ _)
  | wrongArity expected got =>
      change "expected " ++ toString expected ++ " arguments but got " ++ toString got = _ at h
      rw [String.append_assoc] at h
      exact absurd h (append_append_ne (by decide +kernel) _ _)
  | _ => exact absurd h (by decide +kernel)

theorem RuntimeError.message_eq_stackOverflow {e : RuntimeError} :
    e.message = "stack overflow" ↔ e = ⟨.stackOverflow, e.span⟩ := by
  refine RuntimeFault.message_eq_stackOverflow.trans ⟨fun h => ?_, fun h => congrArg fault h⟩
  rw [← h]

namespace Session

/-! ### Sessions that can be reached -/

/-- **The sessions that can be reached from the start.**  Resolutions of any kind may be handed
over, and any programs may be run with any distances, whether they are resolved or not. -/
inductive Attained (output : Output) (clock : Nat → Float) : Session → Prop
  | start : Attained output clock (.start output clock)
  | supplied {s : Session} (h : Attained output clock s) (supply : Supply) :
      Attained output clock { s with supply := supply }
  | recorded {s : Session} (h : Attained output clock s) (r : Resolution) :
      Attained output clock (s.record r)
  | interpreted {s s' : Session} {fuel : Nat} {p : Program} {distances : List (ExprId × Nat)}
      {ending : Ending} (h : Attained output clock s)
      (hrun : s.interpret fuel p distances = some (ending, s')) : Attained output clock s'

/-- A session that stands in the globals and has no open calls. -/
structure AtRest (s : Session) : Prop where
  scope : s.machine.scope = s.machine.globals
  depth : s.machine.depth = 0

section Runs

variable {s s' : Session} {fuel : Nat} {p : Program} {distances : List (ExprId × Nat)}
  {ending : Ending}

/-- How a run ends, and what it leaves. -/
theorem interpret_eq_some :
    s.interpret fuel p distances = some (ending, s') ↔
      (∃ m, runDeclarations (s.keep distances).setting fuel p.declarations s.machine = .done () m ∧
        ending = .success ∧ s' = { s.keep distances with machine := m }.giveUp) ∨
      ∃ e m, runDeclarations (s.keep distances).setting fuel p.declarations s.machine =
          .failed e m ∧
        ending = .failed e ∧ s' = { s.keep distances with machine := m }.giveUp := by
  have hmachine : (s.keep distances).machine = s.machine := rfl
  unfold interpret
  dsimp only
  rw [hmachine]
  cases runDeclarations (s.keep distances).setting fuel p.declarations s.machine with
  | done a m =>
      refine ⟨fun h => ?_, ?_⟩
      · cases h
        exact .inl ⟨m, rfl, rfl, rfl⟩
      · rintro (⟨_, heq, rfl, rfl⟩ | ⟨_, _, heq, -⟩)
        · cases heq
          rfl
        · cases heq
  | failed e m =>
      refine ⟨fun h => ?_, ?_⟩
      · cases h
        exact .inr ⟨e, m, rfl, rfl, rfl⟩
      · rintro (⟨_, heq, -⟩ | ⟨_, _, heq, rfl, rfl⟩)
        · cases heq
        · cases heq
          rfl
  | starved => exact iff_of_false nofun (by rintro (⟨_, heq, -⟩ | ⟨_, _, heq, -⟩) <;> cases heq)

/-- Behind a run the machine is under the control it had, and nothing is left to be given up. -/
theorem level_of_interpret (hrun : s.interpret fuel p distances = some (ending, s')) :
    s.machine.Level s'.machine ∧ s'.pending = [] := by
  have hrestores :=
    runDeclarations_restores (s.keep distances).setting fuel p.declarations s.machine
  rcases interpret_eq_some.1 hrun with ⟨m, hm, -, rfl⟩ | ⟨e, m, hm, -, rfl⟩
  · rw [hm] at hrestores
    exact ⟨hrestores, rfl⟩
  · rw [hm] at hrestores
    exact ⟨hrestores, rfl⟩

theorem AtRest.of_level (h : s.AtRest) (hlevel : s.machine.Level s'.machine) : s'.AtRest := by
  refine ⟨?_, hlevel.depth.trans h.depth⟩
  rw [hlevel.scope, hlevel.globals]
  exact h.scope

/-- **A session that can be reached is at rest.** -/
theorem Attained.atRest {output : Output} {clock : Nat → Float}
    (h : Attained output clock s) : s.AtRest := by
  induction h with
  | start => exact ⟨rfl, rfl⟩
  | supplied _ supply ih => exact ⟨ih.scope, ih.depth⟩
  | recorded _ r ih => exact ⟨ih.scope, ih.depth⟩
  | interpreted _ hrun ih => exact ih.of_level (level_of_interpret hrun).1

end Runs

theorem Attained.recordedAll {output : Output} {clock : Nat → Float} {s : Session}
    (h : Attained output clock s) (rs : List Resolution) :
    Attained output clock (s.recordAll rs) := by
  induction rs generalizing s with
  | nil => exact h
  | cons r rs ih => exact ih (h.recorded r)

/-- **A session that takes sources can be reached**, whatever becomes of the sources. -/
theorem Reached.attained {output : Output} {clock : Nat → Float} {programs : List Compiled}
    {s : Session} (h : Reached output clock programs s) : Attained output clock s := by
  induction h with
  | start supply => exact Attained.start.supplied supply
  | @step programs s s' mode fuel source ending reached hstep ih =>
      rcases hc : s.compile source with ⟨errors | c, s₁⟩
      · rw [step_of_error hc] at hstep
        cases hstep
        rw [(compile_eq hc).2]
        exact ih.supplied _
      · have hs₁ : Attained output clock s₁ := by
          rw [(compile_eq hc).2]
          exact ih.supplied _
        cases mode with
        | run =>
            simp only [Session.step, run, hc] at hstep
            exact hs₁.interpreted hstep
        | enter =>
            simp only [Session.step, enter, hc] at hstep
            exact (hs₁.recordedAll c.resolutions).interpreted hstep

/-! ### What a run keeps -/

/-- **A run that keeps the control of its machine.**  The moments of the run are looked at together
with the calls in whose midst they are. -/
structure ControlKept (s : Session) (fuel : Nat) (p : Program) (distances : List (ExprId × Nat)) :
    Prop where
  /-- The machine counts the open calls, and there are never more than `callLimit`. -/
  counted : ∀ n k, Entered (s.keep distances).setting fuel p.declarations s.machine n k →
    k.machine.depth = n ∧ n ≤ callLimit
  /-- However a task ends, it leaves the machine in the environment and with the open calls it
  had. -/
  restored : ∀ n k, Entered (s.keep distances).setting fuel p.declarations s.machine n k →
    (k.task.outcome (s.keep distances).setting k.fuel k.machine).Restores k.machine
  /-- The stack overflows exactly at the calls in the midst of `callLimit` others. -/
  overflow : ∀ n k, Entered (s.keep distances).setting fuel p.declarations s.machine n k →
    ∀ site, (∃ e, k.Raises (s.keep distances).setting e ∧ e.message = "stack overflow" ∧
        e.span = site) ↔
      n = callLimit ∧ 0 < k.fuel ∧ ∃ f arguments, k.task = .call f arguments site
  /-- And then the run ends there. -/
  overflowed : ∀ site,
    (∃ e s', s.interpret fuel p distances = some (.failed e, s') ∧ e.message = "stack overflow" ∧
        e.span = site) ↔
      ∃ n k, Entered (s.keep distances).setting fuel p.declarations s.machine n k ∧
        k.Raises (s.keep distances).setting ⟨.stackOverflow, site⟩
  /-- Behind the run the machine stands in the globals, no call is open, and no resolution waits to
  be given up. -/
  ended : ∀ ending s', s.interpret fuel p distances = some (ending, s') →
    s'.machine.scope = s'.machine.globals ∧ s'.machine.globals = s.machine.globals ∧
      s'.machine.depth = 0 ∧ s'.pending = []

/-- A run ends with an error exactly if its declarations do. -/
theorem interpret_failed_iff {s : Session} {fuel : Nat} {p : Program}
    {distances : List (ExprId × Nat)} {e : RuntimeError} :
    (∃ s', s.interpret fuel p distances = some (.failed e, s')) ↔
      (runDeclarations (s.keep distances).setting fuel p.declarations s.machine).error? =
        some e := by
  rw [← Outcome.stop?_eq_failed]
  constructor
  · rintro ⟨s', hs'⟩
    rcases interpret_eq_some.1 hs' with ⟨m, -, hend, -⟩ | ⟨e', m, hm, hend, -⟩
    · cases hend
    · cases hend
      rw [hm]
      rfl
  · intro h
    cases hm : runDeclarations (s.keep distances).setting fuel p.declarations s.machine with
    | done a m =>
        rw [hm] at h
        cases h
    | failed e' m =>
        rw [hm] at h
        cases h
        exact ⟨_, interpret_eq_some.2 (.inr ⟨_, m, hm, rfl, rfl⟩)⟩
    | starved =>
        rw [hm] at h
        cases h

/-- **Every run keeps the control of its machine**, in whatever session it takes place, whatever
program is run, and however its names are resolved. -/
theorem Attained.control_kept {output : Output} {clock : Nat → Float} {s : Session}
    (h : Attained output clock s) (fuel : Nat) (p : Program) (distances : List (ExprId × Nat)) :
    s.ControlKept fuel p distances := by
  have hrest := h.atRest
  refine
    { counted := fun n k hk => hk.depth_eq hrest.depth
      restored := fun n k _ => k.task.restores _ _ _
      overflow := fun n k hk site => ?_
      overflowed := fun site => ?_
      ended := fun ending s' hrun => ?_ }
  · rw [← hk.overflows_iff hrest.depth]
    constructor
    · rintro ⟨e, hraises, hmessage, rfl⟩
      rw [RuntimeError.message_eq_stackOverflow.1 hmessage] at hraises
      exact hraises
    · intro hraises
      exact ⟨_, hraises, rfl, rfl⟩
  · rw [← run_overflows_iff, ← interpret_failed_iff]
    constructor
    · rintro ⟨e, s', hrun, hmessage, rfl⟩
      rw [RuntimeError.message_eq_stackOverflow.1 hmessage] at hrun
      exact ⟨s', hrun⟩
    · rintro ⟨s', hrun⟩
      exact ⟨_, s', hrun, rfl, rfl⟩
  · obtain ⟨hlevel, hpending⟩ := level_of_interpret hrun
    have hrest' := hrest.of_level hlevel
    exact ⟨hrest'.scope, hlevel.globals, hrest'.depth, hpending⟩

/-- A function whose body looks a name up too far out fails inside a block, inside a call; and the
session keeps the control of its machine in whatever it runs next. -/
theorem Attained.control_kept_after_failure :
    ∃ s', (Session.start (.lines #[]) fun _ => 0).interpret 20
        ⟨[.funDecl (.mk 0 "f" [] [.statement (.block
              [.statement (.expression (.variable ⟨0, ⟨10, 1, 1⟩⟩ "x") default)] default)] default)
            default,
          .statement (.expression (.call ⟨2, default⟩ (.variable ⟨1, default⟩ "f") [] default)
            default)]⟩
        [(0, 9)] = some (.failed ⟨.unboundLocal "x", ⟨10, 1, 1⟩⟩, s') ∧
      Attained (.lines #[]) (fun _ => 0) s' ∧ ∀ p, s'.ControlKept 20 p [(1, 7)] := by
  have hend : ((Session.start (.lines #[]) fun _ => 0).interpret 20
      ⟨[.funDecl (.mk 0 "f" [] [.statement (.block
            [.statement (.expression (.variable ⟨0, ⟨10, 1, 1⟩⟩ "x") default)] default)] default)
          default,
        .statement (.expression (.call ⟨2, default⟩ (.variable ⟨1, default⟩ "f") [] default)
          default)]⟩
      [(0, 9)]).map Prod.fst = some (.failed ⟨.unboundLocal "x", ⟨10, 1, 1⟩⟩) := by
    decide +kernel
  obtain ⟨⟨ending, s'⟩, hrun, rfl⟩ := Option.map_eq_some_iff.1 hend
  have hs' := Attained.start.interpreted hrun
  exact ⟨s', hrun, hs', fun p => hs'.control_kept 20 p [(1, 7)]⟩

end Session

end Scriptlet
