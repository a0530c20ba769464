/-
**Sources that are rejected leave no trace.**

A source that does not compile changes nothing in a session but how many numbers are left.  A
session that is not given the source has other numbers for its programs from then on, and that is
all the difference there is: the machines of both, renumbered, stay the same, for no run depends on
the numbers of what it runs.  So both answer alike to whatever compiles.

Main definitions:

* `Scriptlet.Session.Spares` — a session, and one that has been spared the sources that do not
  compile;
* `Scriptlet.Session.remaining` — the answers to the sources that compile.

Main results:

* `Scriptlet.Session.step_of_not_compiles` — a source that does not compile changes the supply only;
* `Scriptlet.Lexical.interpret_moves` — a program that has been renumbered runs alike;
* `Scriptlet.Session.Spares.step` — both sessions answer alike to a source that compiles;
* `Scriptlet.Session.transcript_of_compiling` — **the answers to the sources that compile do not
  depend on the others**.
-/

import Scriptlet.Proofs.Joined.Evaluation
import Scriptlet.Proofs.Joined.Renumbering
import Scriptlet.Proofs.Session.Transcript

set_option relaxedAutoImplicit false
set_option autoImplicit false

namespace Scriptlet

/-! ### Runs -/

theorem RuntimeError.relocate_of_span {φ : Relocation} (hspan : φ.span = fun place => place)
    (e : RuntimeError) : e.relocate φ = e := by
  rw [relocate, hspan]

/-- **A program that has been renumbered runs alike.** -/
theorem Lexical.interpret_moves {φ : Relocation} (hφ : Function.Injective φ.routine)
    (hspan : φ.span = fun place => place) (clock : Nat → Float) (fuel : Nat) (p : Program)
    (n : Machine) :
    interpret clock fuel ⟨Decl.allRelocate φ p.declarations⟩ (n.relocate φ) =
      (interpret clock fuel p n).map fun x => (x.1, x.2.relocate φ) := by
  unfold interpret
  rw [runDeclarations_moves hφ clock fuel p.declarations n]
  cases runDeclarations clock fuel p.declarations n with
  | done _ m => rfl
  | failed e m =>
      simp only [Outcome.relocate, e.relocate_of_span hspan]
      rfl
  | starved => rfl

namespace Session

/-! ### Sources that do not compile -/

/-- **A source that does not compile changes the supply only**, and its errors do not depend on the
session. -/
theorem step_of_not_compiles {source : String} {errors : List CompileError}
    (h : (Scriptlet.compile source .full).1 = .error errors) (s : Session) (mode : Mode)
    (fuel : Nat) :
    ∃ supply, s.supply.Le supply ∧
      s.step mode fuel source = some (.rejected errors, { s with supply := supply }) := by
  have hcompile := compile_renumbered source s.supply
  have hle := supply_compile source s.supply
  rw [h] at hcompile
  rw [hcompile] at hle
  exact ⟨_, hle, step_of_error (compile_of_compile hcompile)⟩

/-! ### A session and one that has been spared sources -/

/-- **A session, and one that has been spared the sources that do not compile**: the machine that
looks names up and has taken the sources of the first is that of the second, renumbered.  No matter
what becomes of the numbers and labels that are still free. -/
structure Spares (φ : Relocation) (s s' : Session) (n n' : Machine) : Prop where
  mirrors : ∃ programs, Mirrors programs s n
  mirrors' : ∃ programs, Mirrors programs s' n'
  clock : s.clock = s'.clock
  renumbers : φ.Renumbers s'.supply s.supply
  moved : ∀ ψ : Relocation, Function.Injective ψ.routine → φ.Agrees s'.supply ψ →
    n'.relocate ψ = n

namespace Spares

variable {φ : Relocation} {s s' s₁ : Session} {n n' : Machine} {source : String}

/-- A fresh session may find some numbers taken already. -/
theorem start (output : Output) (clock : Nat → Float) (supply : Supply) :
    Spares (.past supply) { Session.start output clock with supply := supply }
      (.start output clock) (.initial output) (.initial output) := by
  constructor
  case mirrors => exact ⟨[], .start output clock supply⟩
  case mirrors' => exact ⟨[], .start output clock .full⟩
  case clock => rfl
  case renumbers =>
    exact ⟨rfl, fun _ hl => absurd hl (Nat.not_lt_zero _),
      fun _ hl => absurd hl (Nat.not_lt_zero _)⟩
  case moved => exact fun ψ _ _ => Machine.initial_relocate ψ output

theorem output_eq (h : Spares φ s s' n n') : s.machine.output = s'.machine.output := by
  obtain ⟨programs, hs⟩ := h.mirrors
  obtain ⟨programs', hs'⟩ := h.mirrors'
  have hmoved := h.moved _ h.renumbers.onward_injective (Relocation.agrees_onward _ _ _)
  rw [hs.output_eq, hs'.output_eq, ← hmoved]
  rfl

/-- A source that does not compile is given to the first session only. -/
theorem rejected (h : Spares φ s s' n n') {errors : List CompileError}
    (hc : s.compile source = (.error errors, s₁)) : Spares φ s₁ s' n n' := by
  obtain ⟨programs, hs⟩ := h.mirrors
  obtain ⟨hcompile, hs₁⟩ := compile_eq hc
  have hle := supply_compile source s.supply
  rw [hcompile] at hle
  refine { h with mirrors := ⟨programs, hs.rejected hc⟩, clock := ?_, renumbers := ?_ }
  · rw [hs₁]
    exact h.clock
  · exact h.renumbers.mono hle

/-- The program of the second session, renumbered, is that of the first, and so is its run. -/
theorem interpret_eq (h : Spares φ s s' n n') {c : Compiled} {given : Supply}
    (hc : Scriptlet.compile source .full = (.ok c, given)) (fuel : Nat) (ψ : Relocation)
    (hψ : Function.Injective ψ.routine)
    (hagrees : (φ.onward s'.supply s.supply).Agrees (given.relocate (.past s'.supply)) ψ) :
    Lexical.interpret s.clock fuel (c.relocate (.past s.supply)).program n =
      (Lexical.interpret s.clock fuel (c.relocate (.past s'.supply)).program n').map
        fun x => (x.1, x.2.relocate ψ) := by
  have hcompile := compile_past hc s'.supply
  have hle := supply_compile source s'.supply
  rw [hcompile] at hle
  -- what was on the machine moves with the numbers before, and the program with those given to it
  have hbefore := (Relocation.agrees_onward φ s'.supply s.supply).trans (hagrees.mono hle)
  have hspan : ψ.span = fun place => place := hbefore.span.symm.trans h.renumbers.span
  have hforms : Decl.allRelocate ψ (c.relocate (.past s'.supply)).program.declarations =
      (c.relocate (.past s.supply)).program.declarations := by
    rw [← hagrees.allRelocate_eq hcompile]
    simp only [Compiled.relocate, Decl.allRelocate_comp,
      Relocation.onward_comp_past h.renumbers.span]
  have hmoves := Lexical.interpret_moves hψ hspan s.clock fuel
    (c.relocate (.past s'.supply)).program n'
  rw [h.moved ψ hψ hbefore, hforms] at hmoves
  exact hmoves

/-- **Both answer alike to a source that compiles.** -/
theorem step (h : Spares φ s s' n n') (hsource : Compiles source) (mode : Mode) (fuel : Nat) :
    Option.Rel (fun x y => x.1 = y.1 ∧ ∃ φ n n', Spares φ x.2 y.2 n n')
      (s.step mode fuel source) (s'.step mode fuel source) := by
  obtain ⟨programs, hs⟩ := h.mirrors
  obtain ⟨programs', hs'⟩ := h.mirrors'
  obtain ⟨c, hc⟩ := hsource
  have hcompile : Scriptlet.compile source .full = (.ok c, (Scriptlet.compile source .full).2) :=
    Prod.ext hc rfl
  have hinterpret := h.interpret_eq hcompile fuel
  have hsame := hinterpret _ h.renumbers.onward_injective (.refl _ _)
  have hstep := hs.step (compile_of_compile (compile_past hcompile s.supply)) mode fuel
  have hstep' := hs'.step (compile_of_compile (compile_past hcompile s'.supply)) mode fuel
  rw [← h.clock] at hstep'
  generalize s.step mode fuel source = x at hstep ⊢
  generalize s'.step mode fuel source = x' at hstep' ⊢
  generalize Lexical.interpret s.clock fuel _ n = y at hstep hinterpret hsame
  generalize Lexical.interpret s.clock fuel _ n' = y' at hstep' hinterpret hsame
  cases hstep' with
  | none =>
      subst hsame
      cases hstep
      exact .none
  | some hx' =>
      subst hsame
      cases hstep with
      | some hx =>
          obtain ⟨hending, hm, hsupply, hclock⟩ := hx
          obtain ⟨hending', hm', hsupply', hclock'⟩ := hx'
          refine .some ⟨hending.trans hending'.symm, φ.onward s'.supply s.supply, _, _,
            ⟨⟨_, hm⟩, ⟨_, hm'⟩, hclock.trans hclock'.symm, ?_, fun ψ hψ hagrees => ?_⟩⟩
          · rw [hsupply, hsupply']
            exact h.renumbers.onward _
          · rw [hsupply'] at hagrees
            exact (Prod.mk.inj (Option.some.inj (hinterpret ψ hψ hagrees))).2.symm

end Spares

/-! ### Transcripts -/

/-- The answers to those of the steps whose sources compile. -/
def remaining (steps : List (Mode × String)) (answers : List (Ending × Output)) :
    List (Ending × Output) :=
  ((steps.zip answers).filter fun pair => Compiles pair.1.2).map Prod.snd

theorem remaining_cons (step : Mode × String) (steps : List (Mode × String))
    (answer : Ending × Output) (answers : List (Ending × Output)) :
    remaining (step :: steps) (answer :: answers) =
      if Compiles step.2 then answer :: remaining steps answers else remaining steps answers := by
  simp only [remaining, List.zip_cons_cons, List.filter_cons, decide_eq_true_eq]
  split <;> rfl

/-- If all sources compile, all answers remain. -/
theorem remaining_of_all_compile {fuel : Nat} {steps : List (Mode × String)} {s : Session}
    {answers : List (Ending × Output)} (hsteps : ∀ step ∈ steps, Compiles step.2)
    (h : s.transcript fuel steps = some answers) : remaining steps answers = answers := by
  induction steps generalizing s answers with
  | nil =>
      cases h
      rfl
  | cons step steps ih =>
      obtain ⟨mode, source⟩ := step
      rw [transcript] at h
      split at h
      · obtain ⟨rest, hrest, rfl⟩ := Option.map_eq_some_iff.1 h
        rw [remaining_cons, if_pos (hsteps _ (List.mem_cons_self ..)),
          ih (fun step hstep => hsteps step (List.mem_cons_of_mem _ hstep)) hrest]
      · cases h

/-- The answers of a session to the sources that compile are those of one that is spared the
others. -/
theorem Spares.transcript_eq (fuel : Nat) (steps : List (Mode × String)) {φ : Relocation}
    {s s' : Session} {n n' : Machine} (h : Spares φ s s' n n') :
    (s.transcript fuel steps).map (remaining steps) =
      s'.transcript fuel (steps.filter fun step => Compiles step.2) := by
  induction steps generalizing φ s s' n n' with
  | nil => rfl
  | cons step steps ih =>
      obtain ⟨mode, source⟩ := step
      rw [transcript, List.filter_cons]
      by_cases hsource : Compiles source
      · have hstep := h.step hsource mode fuel
        rw [if_pos (decide_eq_true hsource), transcript]
        generalize s.step mode fuel source = x at hstep ⊢
        generalize s'.step mode fuel source = x' at hstep ⊢
        cases hstep with
        | none => rfl
        | some hx =>
            obtain ⟨hending, ψ, m, m', hspares⟩ := hx
            dsimp only
            rw [← ih hspares, Option.map_map, Option.map_map, hending, hspares.output_eq]
            congr 1
            funext answers
            exact (remaining_cons ..).trans (if_pos hsource)
      · rw [if_neg (by simpa using hsource)]
        rcases hc : s.compile source with ⟨errors | c, s₁⟩
        · rw [step_of_error hc]
          dsimp only
          rw [← ih (h.rejected hc), Option.map_map]
          congr 1
          funext answers
          exact (remaining_cons ..).trans (if_neg hsource)
        · exact absurd (compiles_of_compile (compile_eq hc).1) hsource

/-- The answers of a fresh session do not depend on the numbers that it finds taken, if all sources
compile. -/
theorem transcript_of_all_compile (output : Output) (clock : Nat → Float) (fuel : Nat)
    {steps : List (Mode × String)} (hsteps : ∀ step ∈ steps, Compiles step.2) (supply : Supply) :
    ({ start output clock with supply := supply } : Session).transcript fuel steps =
      (start output clock).transcript fuel steps := by
  have hspares := (Spares.start output clock supply).transcript_eq fuel steps
  rw [List.filter_eq_self.2 fun step hstep => decide_eq_true (hsteps step hstep)] at hspares
  rw [← hspares]
  generalize htranscript : Session.transcript fuel steps _ = transcript
  cases transcript with
  | none => rfl
  | some answers => rw [Option.map_some, remaining_of_all_compile hsteps htranscript]

/-- **The answers to the sources that compile do not depend on the others.**  If the sources that do
not compile are deleted, each of the others ends alike, with the same error at the same place, and
the same has been printed by then, whatever numbers are taken when the sessions start; and if one of
them does not end, none of the sessions gets beyond it.  For a source that does not compile changes
nothing in a session but the supply, and of that nothing is given back. -/
theorem transcript_of_compiling (output : Output) (clock : Nat → Float) (fuel : Nat)
    (steps : List (Mode × String)) (supply supply' : Supply) :
    (({ start output clock with supply := supply } : Session).transcript fuel steps).map
        (remaining steps) =
      ({ start output clock with supply := supply' } : Session).transcript fuel
        (steps.filter fun step => Compiles step.2) ∧
    ∀ (s : Session) (mode : Mode) (source : String) (errors : List CompileError),
      (Scriptlet.compile source .full).1 = .error errors →
      ∃ supply, s.supply.Le supply ∧
        s.step mode fuel source = some (.rejected errors, { s with supply := supply }) := by
  refine ⟨?_, fun s mode source errors h => step_of_not_compiles h s mode fuel⟩
  rw [(Spares.start output clock supply).transcript_eq fuel steps]
  refine (transcript_of_all_compile output clock fuel (fun step hstep => ?_) supply').symm
  exact of_decide_eq_true (List.mem_filter.1 hstep).2

/-- Between a line that makes a function in a block and one that calls it, two are rejected: one at
the last name of its program, and one at its only expression. -/
theorem transcript_of_compiling_between :
    ((start (.lines #[]) fun _ => 0).transcript 40
        [(.enter, "var f; \x7b var a = 'm'; fun g() \x7b return a; \x7d f = g; \x7d"),
          (.enter, "fun h() \x7b return f(); \x7d \x7b var b = h; var b; \x7d"),
          (.run, "print 1 +;"), (.run, "print f(); f.c;")]).map
        (remaining
          [(.enter, "var f; \x7b var a = 'm'; fun g() \x7b return a; \x7d f = g; \x7d"),
            (.enter, "fun h() \x7b return f(); \x7d \x7b var b = h; var b; \x7d"),
            (.run, "print 1 +;"), (.run, "print f(); f.c;")]) =
      (start (.lines #[]) fun _ => 0).transcript 40
        [(.enter, "var f; \x7b var a = 'm'; fun g() \x7b return a; \x7d f = g; \x7d"),
          (.run, "print f(); f.c;")] ∧
    ((start (.lines #[]) fun _ => 0).transcript 40
        [(.enter, "var f; \x7b var a = 'm'; fun g() \x7b return a; \x7d f = g; \x7d"),
          (.run, "print f(); f.c;")]).map
        (fun answers => answers.map fun answer => (answer.1, answer.2.toList)) =
      some [(.success, []), (.failed ⟨.propertyOfNonObject, ⟨11, 3, 1⟩⟩, ["m"])] ∧
    ∃ errors, (Scriptlet.compile "print 1 +;" .full).1 = .error errors ∧
      ∃ supply, Supply.full.Le supply ∧
        (start (.lines #[]) fun _ => 0).step .run 40 "print 1 +;" = some (.rejected errors,
          { start (.lines #[]) (fun _ => 0) with supply := supply }) := by
  have hinvisible := transcript_of_compiling (.lines #[]) (fun _ => 0) 40
    [(.enter, "var f; \x7b var a = 'm'; fun g() \x7b return a; \x7d f = g; \x7d"),
      (.enter, "fun h() \x7b return f(); \x7d \x7b var b = h; var b; \x7d"),
      (.run, "print 1 +;"), (.run, "print f(); f.c;")] .full .full
  have hcompiling :
      [(Mode.enter, "var f; \x7b var a = 'm'; fun g() \x7b return a; \x7d f = g; \x7d"),
        (.enter, "fun h() \x7b return f(); \x7d \x7b var b = h; var b; \x7d"),
        (.run, "print 1 +;"), (.run, "print f(); f.c;")].filter (fun step => Compiles step.2) =
      [(.enter, "var f; \x7b var a = 'm'; fun g() \x7b return a; \x7d f = g; \x7d"),
        (.run, "print f(); f.c;")] := by
    decide +kernel
  rw [hcompiling] at hinvisible
  have hrejected : ¬Compiles "print 1 +;" := by decide +kernel
  refine ⟨hinvisible.1, by decide +kernel, ?_⟩
  cases herrors : (Scriptlet.compile "print 1 +;" .full).1 with
  | ok c => exact absurd ⟨c, herrors⟩ hrejected
  | error errors =>
      exact ⟨errors, rfl,
        hinvisible.2 (start (.lines #[]) fun _ => 0) .run "print 1 +;" errors herrors⟩

end Session

end Scriptlet
