/-
**Resolution implements lexical scoping.**

A program that compiles, run on a fresh machine with the distances that resolution found, does what
it does when names are looked up and nothing is resolved: it prints the same, ends in the same way,
with the same error at the same place if there is one, and spends the same fuel.

Main results:

* `Scriptlet.sim_initial` — machines at the start mirror each other;
* `Scriptlet.Compiled.Ordered.lawful` — the sites of a compiled program are in order;
* `Scriptlet.Session.interpret_eq_lexical_run` — **resolution implements lexical scoping**.
-/

import Scriptlet.Proofs.Lexical.Simulation
import Scriptlet.Proofs.Session.Distances

set_option relaxedAutoImplicit false
set_option autoImplicit false

namespace Scriptlet

/-! ### The start -/

/-- The native functions are the only names that are bound at the start. -/
theorem get?_frame_initial (output : Output) (a : FrameId) (x : String) :
    ((Machine.initial output).store.frame a).get? x =
      if a = 0 ∧ x = "clock" then some (.native .clock) else none := by
  have hframes : (Machine.initial output).store.frames = #[⟨[("clock", .native .clock)]⟩] := rfl
  unfold Store.frame
  rw [hframes]
  cases a with
  | zero =>
      by_cases hx : x = "clock"
      · simp [Bindings.get?, hx]
      · have hne : (x == "clock") = false := by simpa using hx
        simp [Bindings.get?, List.lookup_cons, hx, hne]
  | succ a => simp

/-- **Machines at the start mirror each other.** -/
theorem sim_initial (K : Known) (output : Output) :
    Sim K .blank (Machine.initial output) (Machine.initial output) := by
  refine ⟨?_, rfl, rfl, rfl, rfl⟩
  -- the blank atlas knows no frame and no location, so only the globals say something: they hold
  -- the clock on both sides
  constructor
  case injective => nofun
  case home => nofun
  case name => nofun
  case tail => nofun
  case bound => nofun
  case located =>
    intro a x v ha hv
    rw [get?_frame_initial, if_neg fun e => Nat.ne_of_gt ha e.1] at hv
    cases hv
  case value => nofun
  case fits =>
    intro a x v hv
    rw [get?_frame_initial] at hv
    split at hv
    · rename_i h
      rw [h.2]
      exact Plain.fits ⟨by decide, by decide⟩ v
    · cases hv
  case global =>
    intro x
    rw [get?_frame_initial]
    split
    · exact .some (.native .clock)
    · exact .none
  case globals => exact ⟨Nat.one_pos, Nat.one_pos⟩
  case objects => rfl
  case field => exact fun i x => .none
  case classes => rfl

/-! ### Compiled programs -/

namespace Compiled.Ordered

variable {c : Compiled} {s s' : Supply}

/-- The sites of a compiled program are known and in order. -/
theorem fit (h : c.Ordered s s') :
    Fit (· ∈ c.program.sites) (insertAll ∅ (c.resolutions.map fun r => (r.id, r.distance)))
      c.program.sites :=
  fun _ hs => ⟨hs, h.good hs fun _ _ hr =>
    h.getElem?_insertAll hs hr Std.TreeMap.getElem?_emptyc⟩

/-- The routines of a compiled program are in order. -/
theorem lawful (h : c.Ordered s s') :
    Lawful (· ∈ c.program.sites) (insertAll ∅ (c.resolutions.map fun r => (r.id, r.distance))) := by
  refine ⟨fun _ _ _ _ hr hr' hlabel => h.routine_unique hr hr' hlabel, fun ctx r hr site hs => ?_⟩
  exact h.fit site (c.program.closed hr hs)

end Compiled.Ordered

/-- **Resolution implements lexical scoping.**  A program that compiles, run in a fresh session with
the distances of its resolutions, prints what it prints when its names are looked up, and ends in
the same way; it runs out of fuel exactly if it does so there. -/
theorem Session.interpret_eq_lexical_run {source : String} {supply supply' : Supply} {c : Compiled}
    (h : Scriptlet.compile source supply = (.ok c, supply')) (output : Output) (clock : Nat → Float)
    (fuel : Nat) :
    ((Session.start output clock).interpret fuel c.program
        (c.resolutions.map fun r => (r.id, r.distance))).map
        (fun result => (result.1, result.2.machine.output)) =
      Lexical.run clock fuel c.program output := by
  have hordered := compile_ordered h
  let setting : Setting := ⟨insertAll ∅ (c.resolutions.map fun r => (r.id, r.distance)), clock⟩
  have hlawful : Lawful (· ∈ c.program.sites) setting.distances := hordered.lawful
  have hmatch := runDeclarations_match hlawful fuel (sim_initial _ output) rfl rfl hordered.fit
  unfold Session.interpret Lexical.run
  -- a fresh session has no distances of its own, so the machine runs with those of the program
  have hsetting : ((Session.start output clock).keep
      (c.resolutions.map fun r => (r.id, r.distance))).setting = setting := rfl
  have hmachine : ((Session.start output clock).keep
      (c.resolutions.map fun r => (r.id, r.distance))).machine = .initial output := rfl
  dsimp only
  rw [hsetting, hmachine]
  generalize runDeclarations _ fuel c.program.declarations _ = o at hmatch ⊢
  generalize Lexical.runDeclarations _ fuel c.program.declarations _ = o' at hmatch ⊢
  cases hmatch with
  | done _ sim _ _ => exact congrArg (fun out => some (Ending.success, out)) sim.output
  | failed sim _ _ => exact congrArg (fun out => some (Ending.failed _, out)) sim.output
  | starved => rfl

/-- A function keeps to the name it was declared under, whatever its block declares later. -/
theorem Session.interpret_eq_lexical_run_shadowed :
    ∃ c supply,
      Scriptlet.compile
          "var a = 'out'; \x7b fun f() \x7b print a; \x7d f(); var a = 'in'; f(); \x7d" .full =
        (.ok c, supply) ∧
      ((Session.start (.lines #[]) fun _ => 0).interpret 20 c.program
          (c.resolutions.map fun r => (r.id, r.distance))).map
          (fun result => (result.1, result.2.machine.output)) =
        Lexical.run (fun _ => 0) 20 c.program (.lines #[]) ∧
      (Lexical.run (fun _ => 0) 20 c.program (.lines #[])).map (fun result => result.2.toList) =
        some ["out", "out"] := by
  have hrun :
      (match Scriptlet.compile
          "var a = 'out'; \x7b fun f() \x7b print a; \x7d f(); var a = 'in'; f(); \x7d" .full with
        | (.ok c, _) =>
            (Lexical.run (fun _ => 0) 20 c.program (.lines #[])).map fun result => result.2.toList
        | (.error _, _) => none) = some ["out", "out"] := by
    decide +kernel
  split at hrun
  · rename_i c supply hcompile
    exact ⟨c, supply, hcompile, interpret_eq_lexical_run hcompile _ _ _, hrun⟩
  · cases hrun

end Scriptlet
