/-
**The way in which a source is taken makes no difference.**

A session may keep all the resolutions of a source, or give up those outside routines when the
source has ended.  Two sessions that take the same sources, each in ways of its own, answer the same
to every one of them, for both do what a machine does that looks names up and keeps no resolutions
at all.

Main definitions:

* `Scriptlet.Lexical.interpret` — a program, run on a machine that looks names up;
* `Scriptlet.Session.Mirrors` — a session, and a machine that looks names up and has taken the same
  sources;
* `Scriptlet.Session.Twins` — sessions that have taken the same sources;
* `Scriptlet.Session.transcript` — **the answers of a session** to sources taken one after another.

Main results:

* `Scriptlet.Session.Mirrors.step` — a session answers as the machine that looks names up;
* `Scriptlet.Session.Twins.step` — so twins answer alike and stay twins;
* `Scriptlet.Session.transcript_eq_of_sources` — **the answers depend on the sources alone**.
-/

import Scriptlet.Proofs.Session.Reached

set_option relaxedAutoImplicit false
set_option autoImplicit false

namespace Scriptlet

/-- Runs a program on a machine that looks names up.  Whatever the end, the machine is back in its
environment. -/
def Lexical.interpret (clock : Nat → Float) (fuel : Nat) (p : Program) (n : Machine) :
    Option (Ending × Machine) :=
  match runDeclarations clock fuel p.declarations n with
  | .done _ n' => some (.success, n')
  | .failed e n' => some (.failed e, { n' with scope := n.scope })
  | .starved => none

namespace Session

/-! ### A session and a machine that looks names up -/

/-- **A session, and a machine that looks names up and has taken the same sources.** -/
structure Mirrors (programs : List Compiled) (s : Session) (n : Machine) : Prop where
  sound : Sound programs s
  sim : ∃ A, Sim (Knows programs) A s.machine n
  scope : n.scope = ⟨[0]⟩

namespace Mirrors

variable {programs : List Compiled} {s s₁ : Session} {n : Machine} {source : String}

theorem start (output : Output) (clock : Nat → Float) (supply : Supply) :
    Mirrors [] { Session.start output clock with supply := supply } (.initial output) :=
  ⟨.start output clock supply, ⟨_, sim_initial _ output⟩, rfl⟩

/-- The machine that looks names up has printed what the session has. -/
theorem output_eq (h : Mirrors programs s n) : s.machine.output = n.output := by
  obtain ⟨A, hsim⟩ := h.sim
  exact hsim.output

/-- A source that does not compile changes neither machine. -/
theorem rejected (h : Mirrors programs s n) {errors : List CompileError}
    (hc : s.compile source = (.error errors, s₁)) : Mirrors programs s₁ n := by
  obtain ⟨hcompile, hs₁⟩ := compile_eq hc
  have hle := supply_compile source s.supply
  rw [hcompile] at hle
  have hsound := h.sound.supplied hle
  rw [← hs₁] at hsound
  refine ⟨hsound, ?_, h.scope⟩
  rw [hs₁]
  exact h.sim

/-- **A session answers as the machine that looks names up**, in whichever way it takes a source. -/
theorem step (h : Mirrors programs s n) {c : Compiled} (hc : s.compile source = (.ok c, s₁))
    (mode : Mode) (fuel : Nat) :
    Option.Rel (fun x y => x.1 = y.1 ∧ Mirrors (c :: programs) x.2 y.2 ∧
        x.2.supply = s₁.supply ∧ x.2.clock = s.clock)
      (s.step mode fuel source) (Lexical.interpret s.clock fuel c.program n) := by
  obtain ⟨A, hsim⟩ := h.sim
  have hmatch := h.sound.opened_match hc mode fuel hsim h.scope
  have hsupply : (s₁.opened mode c).supply = s₁.supply := opened_supply mode c s₁
  have hclock : (s₁.opened mode c).clock = s.clock := by
    rw [opened_clock, (compile_eq hc).2]
  rw [step_of_ok hc]
  unfold Lexical.interpret
  generalize runDeclarations _ fuel _ _ = o at hmatch ⊢
  generalize Lexical.runDeclarations _ fuel _ n = o' at hmatch ⊢
  cases hmatch with
  | done _ sim back post =>
      exact .some ⟨rfl, ⟨h.sound.closed hc sim back, ⟨_, sim⟩, post⟩, hsupply, hclock⟩
  | failed sim back _ =>
      -- a run that fails may stop anywhere, and both machines return to the globals
      refine .some ⟨rfl, ⟨h.sound.closed hc sim back, ?_, h.scope⟩, hsupply, hclock⟩
      exact ⟨_, sim.store, sim.globals, sim.depth, sim.output, sim.readings⟩
  | starved => exact .none

end Mirrors

/-! ### Twins -/

/-- **Sessions that have taken the same sources**, each in ways of its own. -/
structure Twins (s s' : Session) : Prop where
  mirrors : ∃ programs n, Mirrors programs s n ∧ Mirrors programs s' n
  supply : s.supply = s'.supply
  clock : s.clock = s'.clock

namespace Twins

variable {s s' : Session}

theorem refl_start (output : Output) (clock : Nat → Float) (supply : Supply) :
    Twins { Session.start output clock with supply := supply }
      { Session.start output clock with supply := supply } :=
  ⟨⟨_, _, .start output clock supply, .start output clock supply⟩, rfl, rfl⟩

theorem output_eq (h : Twins s s') : s.machine.output = s'.machine.output := by
  obtain ⟨programs, n, hs, hs'⟩ := h.mirrors
  rw [hs.output_eq, hs'.output_eq]

/-- **Twins answer alike and stay twins**, in whichever ways they take a source. -/
theorem step (h : Twins s s') (mode mode' : Mode) (fuel : Nat) (source : String) :
    Option.Rel (fun x y => x.1 = y.1 ∧ Twins x.2 y.2)
      (s.step mode fuel source) (s'.step mode' fuel source) := by
  obtain ⟨⟨programs, n, hs, hs'⟩, hsupply, hclock⟩ := h
  rcases hc : s.compile source with ⟨errors | c, s₁⟩
  all_goals
    have hcompile := (compile_eq hc).1
    rcases hc' : s'.compile source with ⟨result, s₁'⟩
    have hcompile' := (compile_eq hc').1
    -- the supplies are the same, and so is what the compilation answers
    rw [← hsupply, hcompile] at hcompile'
    obtain ⟨rfl, hsupply₁⟩ := Prod.mk.inj hcompile'
  · rw [step_of_error hc, step_of_error hc']
    refine .some ⟨rfl, ⟨programs, n, hs.rejected hc, hs'.rejected hc'⟩, hsupply₁, ?_⟩
    rw [(compile_eq hc).2, (compile_eq hc').2]
    exact hclock
  · have hstep := hs.step hc mode fuel
    have hstep' := hs'.step hc' mode' fuel
    rw [← hclock] at hstep'
    -- both do what the machine does that looks names up
    generalize s.step mode fuel source = x at hstep ⊢
    generalize s'.step mode' fuel source = x' at hstep' ⊢
    generalize Lexical.interpret s.clock fuel c.program n = y at hstep hstep'
    cases hstep with
    | none =>
        cases hstep'
        exact .none
    | some hx =>
        cases hstep' with
        | some hx' =>
            obtain ⟨hending, hm, hsup, hclk⟩ := hx
            obtain ⟨hending', hm', hsup', hclk'⟩ := hx'
            refine .some ⟨hending.trans hending'.symm, ⟨_, _, hm, hm'⟩, ?_, ?_⟩
            · rw [hsup, hsup', hsupply₁]
            · rw [hclk, hclk']

end Twins

/-! ### Transcripts -/

/-- **The answers of a session** to sources that it takes one after another: how each of them ends,
and what has been printed by then.  There is no answer if the fuel does not suffice. -/
def transcript (fuel : Nat) : List (Mode × String) → Session → Option (List (Ending × Output))
  | [], _ => some []
  | (mode, source) :: steps, s =>
      match s.step mode fuel source with
      | some (ending, s') =>
          (transcript fuel steps s').map fun answers => (ending, s'.machine.output) :: answers
      | none => none

/-- Twins that take the same sources have the same transcript. -/
theorem Twins.transcript_eq (fuel : Nat) {steps steps' : List (Mode × String)}
    (hsteps : steps.map Prod.snd = steps'.map Prod.snd) {s s' : Session} (h : Twins s s') :
    s.transcript fuel steps = s'.transcript fuel steps' := by
  induction steps generalizing steps' s s' with
  | nil =>
      rw [List.map_nil, eq_comm, List.map_eq_nil_iff] at hsteps
      rw [hsteps]
      rfl
  | cons step steps ih =>
      cases steps' with
      | nil => cases hsteps
      | cons step' steps' =>
          obtain ⟨mode, source⟩ := step
          obtain ⟨mode', source'⟩ := step'
          obtain ⟨rfl, hrest⟩ := List.cons.inj hsteps
          have hstep := h.step mode mode' fuel source
          rw [transcript, transcript]
          generalize s.step mode fuel source = x at hstep ⊢
          generalize s'.step mode' fuel _ = x' at hstep ⊢
          cases hstep with
          | none => rfl
          | some hx =>
              obtain ⟨hending, htwins⟩ := hx
              dsimp only
              rw [ih hrest htwins, hending, htwins.output_eq]

/-- **The answers of a fresh session depend on the sources alone**, whatever numbers it finds taken,
and not on the ways in which it takes them: each source ends alike, with the same errors, and the
same has been printed by then. -/
theorem transcript_eq_of_sources (output : Output) (clock : Nat → Float) (supply : Supply)
    (fuel : Nat) {steps steps' : List (Mode × String)}
    (h : steps.map Prod.snd = steps'.map Prod.snd) :
    ({ start output clock with supply := supply } : Session).transcript fuel steps =
      ({ start output clock with supply := supply } : Session).transcript fuel steps' :=
  (Twins.refl_start output clock supply).transcript_eq fuel h

/-- A function made in a block outlives the line that made it, whether the distances of that line
are given up or not. -/
theorem transcript_eq_of_sources_outliving :
    [(Mode.enter, "var f; \x7b var a = 'm'; fun g() \x7b a = a + 'n'; return a; \x7d f = g; \x7d"),
        (.run, "print f();"), (.enter, "\x7b var b = f; print b(); b.c; \x7d")].map Prod.snd =
      [(Mode.run, "var f; \x7b var a = 'm'; fun g() \x7b a = a + 'n'; return a; \x7d f = g; \x7d"),
        (.enter, "print f();"), (.run, "\x7b var b = f; print b(); b.c; \x7d")].map Prod.snd ∧
    (start (.lines #[]) fun _ => 0).transcript 40
        [(.enter, "var f; \x7b var a = 'm'; fun g() \x7b a = a + 'n'; return a; \x7d f = g; \x7d"),
          (.run, "print f();"), (.enter, "\x7b var b = f; print b(); b.c; \x7d")] =
      (start (.lines #[]) fun _ => 0).transcript 40
        [(.run, "var f; \x7b var a = 'm'; fun g() \x7b a = a + 'n'; return a; \x7d f = g; \x7d"),
          (.enter, "print f();"), (.run, "\x7b var b = f; print b(); b.c; \x7d")] ∧
    ((start (.lines #[]) fun _ => 0).transcript 40
        [(.enter, "var f; \x7b var a = 'm'; fun g() \x7b a = a + 'n'; return a; \x7d f = g; \x7d"),
          (.run, "print f();"), (.enter, "\x7b var b = f; print b(); b.c; \x7d")]).map
        (fun answers => answers.map fun answer => (answer.1, answer.2.toList)) =
      some [(.success, []), (.success, ["mn"]),
        (.failed ⟨.propertyOfNonObject, ⟨24, 3, 1⟩⟩, ["mn", "mnn"])] :=
  ⟨rfl, transcript_eq_of_sources _ _ .full 40 rfl, by decide +kernel⟩

end Session

end Scriptlet
