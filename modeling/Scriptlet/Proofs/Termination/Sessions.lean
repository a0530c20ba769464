/-
**Sources without loops come to an end.**

A session that takes sources without loops answers each of them, whatever their routines call and
whatever they are kept in: with fuel enough there is an answer, and it is the same with any more.

Main definitions:

* `Scriptlet.Ending.Ran` — an ending with success or with a runtime error.

Main results:

* `Scriptlet.Session.Reached.step_terminates` — a source without loops is answered;
* `Scriptlet.Session.transcript_terminates` — **so are all sources of a session**.
-/

import Mathlib.Algebra.Order.BigOperators.Group.List
import Mathlib.Algebra.Order.Group.Nat
import Scriptlet.Proofs.Joined.Compile
import Scriptlet.Proofs.Session.Transcript
import Scriptlet.Proofs.Termination.Fuel
import Scriptlet.Proofs.Termination.Rank

set_option relaxedAutoImplicit false
set_option autoImplicit false

namespace Scriptlet

/-- The bodies of finitely many routines are all smaller than some number. -/
theorem exists_mild {programs : List Compiled}
    (h : ∀ c ∈ programs, Decl.allLoopFree c.program.declarations = true) :
    ∃ W, Mild (Knows programs) W := by
  refine ⟨(((programs.flatMap fun c => c.program.sites).filterMap Site.routine?).map fun r =>
    sizeOf r.body + 2).sum, fun ctx r hr => ?_⟩
  obtain ⟨c, hc, hsite⟩ := hr
  refine ⟨Program.loopFree_of_mem_sites (h c hc) hsite, List.le_sum_of_mem ?_⟩
  refine List.mem_map_of_mem (f := fun r : Routine => sizeOf r.body + 2) ?_
  exact List.mem_filterMap.2 ⟨_, List.mem_flatMap.2 ⟨c, hc, hsite⟩, rfl⟩

/-- An ending of a source that ran: with success or with a runtime error. -/
def Ending.Ran (ending : Ending) : Prop := ending = .success ∨ ∃ e, ending = .failed e

namespace Session

variable {output : Output} {clock : Nat → Float} {programs : List Compiled} {s s' s₁ : Session}
  {mode : Mode} {fuel fuel' : Nat} {source : String} {c : Compiled}

/-- An answer stays the same with more fuel. -/
theorem step_mono (hle : fuel ≤ fuel') {answer : Ending × Session}
    (h : s.step mode fuel source = some answer) : s.step mode fuel' source = some answer := by
  rcases hc : s.compile source with ⟨errors | c, s₁⟩
  · rw [step_of_error hc] at h ⊢
    exact h
  · rw [step_of_ok hc] at h ⊢
    cases hrun : runDeclarations (s₁.opened mode c).setting fuel c.program.declarations
        (s₁.opened mode c).machine with
    | starved =>
        rw [hrun] at h
        cases h
    | done a m =>
        rw [runDeclarations_mono hle hrun nofun]
        rw [hrun] at h
        exact h
    | failed e m =>
        rw [runDeclarations_mono hle hrun nofun]
        rw [hrun] at h
        exact h

/-- **A source without loops is answered**, if those before it had none either. -/
theorem Reached.step_terminates (h : Reached output clock programs s)
    (hprograms : ∀ c ∈ programs, Decl.allLoopFree c.program.declarations = true)
    (hsource : LoopFree source) (mode : Mode) :
    ∃ bound answer, ∀ fuel, bound ≤ fuel → s.step mode fuel source = some answer := by
  rcases hc : s.compile source with ⟨errors | c, s₁⟩
  · exact ⟨0, _, fun fuel _ => step_of_error hc⟩
  · have hsound := h.sound
    have hall : ∀ d ∈ c :: programs, Decl.allLoopFree d.program.declarations = true := by
      intro d hd
      rcases List.mem_cons.1 hd with rfl | hd
      · exact hsource.program (compile_eq hc).1
      · exact hprograms d hd
    obtain ⟨W, hW⟩ := exists_mild hall
    obtain ⟨hscope, A, n, hsim, hn⟩ := hsound.opened_sim hc mode
    have hended := run_ne_starved (hsound.opened_lawful hc mode) hW hsim hscope hn
      (hsound.opened_fit hc mode) (hall c (List.mem_cons_self ..)) (Nat.le_refl _)
    -- the answer with this fuel is the answer with all more
    obtain ⟨answer, hanswer⟩ : ∃ answer, s.step mode
        (callLimit * W + sizeOf c.program.declarations + 2) source = some answer := by
      rw [step_of_ok hc]
      cases hrun : runDeclarations (s₁.opened mode c).setting
          (callLimit * W + sizeOf c.program.declarations + 2) c.program.declarations
          (s₁.opened mode c).machine with
      | starved => exact absurd hrun hended
      | done a m => exact ⟨_, rfl⟩
      | failed e m => exact ⟨_, rfl⟩
    exact ⟨_, answer, fun fuel hfuel => step_mono hfuel hanswer⟩

/-- The programs of sources without loops have none. -/
theorem loopFree_of_mem_step
    (hprograms : ∀ c ∈ programs, Decl.allLoopFree c.program.declarations = true)
    (hsource : LoopFree source) :
    ∀ c ∈ (s.compile source).1.toOption.toList ++ programs,
      Decl.allLoopFree c.program.declarations = true := by
  intro c hmem
  rcases List.mem_append.1 hmem with hmem | hmem
  · rcases hc : s.compile source with ⟨errors | d, s₁⟩
    · rw [hc] at hmem
      cases hmem
    · rw [hc] at hmem
      obtain rfl := List.mem_singleton.1 hmem
      exact hsource.program (compile_eq hc).1
  · exact hprograms c hmem

/-- A source that compiles ends with success or with a runtime error, if it ends. -/
theorem ended_of_compiles (hsource : Compiles source) {ending : Ending}
    (h : s.step mode fuel source = some (ending, s')) : ending.Ran := by
  obtain ⟨c, supply, hcompile⟩ := hsource.compile s.supply
  rw [step_of_ok (compile_of_compile hcompile)] at h
  cases hrun : runDeclarations ({ s with supply := supply }.opened mode c).setting fuel
      c.program.declarations ({ s with supply := supply }.opened mode c).machine with
  | starved =>
      rw [hrun] at h
      cases h
  | done a m =>
      rw [hrun] at h
      cases h
      exact .inl rfl
  | failed e m =>
      rw [hrun] at h
      cases h
      exact .inr ⟨e, rfl⟩

/-- Sources without loops are all answered, from any session that has taken no others. -/
theorem Reached.answers (h : Reached output clock programs s)
    (hprograms : ∀ c ∈ programs, Decl.allLoopFree c.program.declarations = true)
    {steps : List (Mode × String)} (hloops : ∀ step ∈ steps, LoopFree step.2)
    (hcompile : ∀ step ∈ steps, Compiles step.2) :
    ∃ bound answers, (∀ fuel, bound ≤ fuel → s.transcript fuel steps = some answers) ∧
      ∀ answer ∈ answers, answer.1.Ran := by
  induction steps generalizing programs s with
  | nil => exact ⟨0, [], fun _ _ => rfl, nofun⟩
  | cons step steps ih =>
      obtain ⟨mode, source⟩ := step
      have hsource := hloops _ (List.mem_cons_self ..)
      obtain ⟨bound, ⟨ending, s'⟩, hstep⟩ := h.step_terminates hprograms hsource mode
      obtain ⟨bound', answers, hrest, hran⟩ := ih (h.step (hstep bound (Nat.le_refl _)))
        (loopFree_of_mem_step hprograms hsource)
        (fun step hmem => hloops step (List.mem_cons_of_mem _ hmem))
        fun step hmem => hcompile step (List.mem_cons_of_mem _ hmem)
      refine ⟨max bound bound', (ending, s'.machine.output) :: answers, fun fuel hfuel => ?_, ?_⟩
      · rw [transcript, hstep fuel (Nat.le_trans (Nat.le_max_left ..) hfuel)]
        dsimp only
        rw [hrest fuel (Nat.le_trans (Nat.le_max_right ..) hfuel)]
        rfl
      · have hending := ended_of_compiles (hcompile _ (List.mem_cons_self ..))
          (hstep bound (Nat.le_refl _))
        intro answer hmem
        rcases List.mem_cons.1 hmem with rfl | hmem
        · exact hending
        · exact hran answer hmem

/-- **A session that takes sources without loops answers them all**, each with success or with a
runtime error, whatever numbers it finds taken.  What it answers is the same with all fuel that
suffices. -/
theorem transcript_terminates (output : Output) (clock : Nat → Float) (supply : Supply)
    {steps : List (Mode × String)} (hloops : ∀ step ∈ steps, LoopFree step.2)
    (hcompile : ∀ step ∈ steps, Compiles step.2) :
    ∃ bound answers,
      (∀ fuel, bound ≤ fuel →
        ({ start output clock with supply := supply } : Session).transcript fuel steps =
          some answers) ∧
      ∀ answer ∈ answers, answer.1.Ran :=
  (Reached.start supply).answers nofun hloops hcompile

/-- A method in a field calls itself through the object that it is kept in until the stack
overflows, and the session goes on. -/
theorem transcript_terminates_recursive :
    ((∀ step ∈ [(Mode.enter, "class C \x7b m() \x7b return this.f(); \x7d \x7d"),
        (.run, "var c = C(); c.f = c.m; c.f();"), (.enter, "print c;")], LoopFree step.2) ∧
      ∀ step ∈ [(Mode.enter, "class C \x7b m() \x7b return this.f(); \x7d \x7d"),
        (.run, "var c = C(); c.f = c.m; c.f();"), (.enter, "print c;")], Compiles step.2) ∧
    ∃ bound answers,
      (∀ fuel, bound ≤ fuel → (start (.lines #[]) fun _ => 0).transcript fuel
        [(.enter, "class C \x7b m() \x7b return this.f(); \x7d \x7d"),
          (.run, "var c = C(); c.f = c.m; c.f();"), (.enter, "print c;")] = some answers) ∧
      ∀ answer ∈ answers, answer.1.Ran :=
  have hsteps : (∀ step ∈ [(Mode.enter, "class C \x7b m() \x7b return this.f(); \x7d \x7d"),
        (.run, "var c = C(); c.f = c.m; c.f();"), (.enter, "print c;")], LoopFree step.2) ∧
      ∀ step ∈ [(Mode.enter, "class C \x7b m() \x7b return this.f(); \x7d \x7d"),
        (.run, "var c = C(); c.f = c.m; c.f();"), (.enter, "print c;")], Compiles step.2 := by
    decide +kernel
  ⟨hsteps, transcript_terminates _ _ .full hsteps.1 hsteps.2⟩

end Session

end Scriptlet
