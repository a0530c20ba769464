/-
**What a session keeps of its lines.**

An interactive line hands over all its resolutions before it runs.  Those outside routines are given
up when the line has ended, for nothing can consult them again; those inside routines stay, for the
routines may be called by later lines.  So after any lines the session holds the distances of the
references inside the routines of those that have compiled, and no others, whichever of the lines
have been rejected or have failed.

Main definitions:

* `Scriptlet.Session.Typed` — **the sessions that interactive lines lead to**, with the programs
  compiled;
* `Scriptlet.Session.Retains` — a session that holds the distances inside routines and no others.

Main results:

* `Scriptlet.Session.Sound.getElem?_line` — a line adds its resolutions inside routines;
* `Scriptlet.Session.Typed.distances_exact` — **what is held after any lines**.
-/

import Scriptlet.Proofs.Joined.Compile
import Scriptlet.Proofs.Scope.References
import Scriptlet.Proofs.Session.Reached

set_option relaxedAutoImplicit false
set_option autoImplicit false

namespace Scriptlet

namespace Session

/-! ### One line -/

namespace Sound

variable {programs : List Compiled} {s s₁ : Session} {source : String} {c : Compiled}

/-- Of the resolutions of a line, those inside routines stay and the others are given up. -/
theorem getElem?_line_of_mem (h : Sound programs s) (hc : s.compile source = (.ok c, s₁))
    (machine : Machine) {r : Resolution} (hr : r ∈ c.resolutions) :
    ({ s₁.opened .enter c with machine := machine }.giveUp).distances[r.id]? =
      if r.inRoutine then some r.distance else none := by
  obtain ⟨hcompile, hs₁⟩ := compile_eq hc
  have hordered := compile_ordered hcompile
  have hpending : s₁.pending = [] := by rw [hs₁]; exact h.pending
  change ((s₁.opened .enter c).pending.foldl (fun map id => map.erase id)
    (s₁.opened .enter c).distances)[r.id]? = _
  cases hroutine : r.inRoutine with
  | true =>
      have hstays : r.id ∉ (s₁.opened .enter c).pending := fun hmem => by
        obtain ⟨q, hq, hid, houtside⟩ := (mem_opened_enter_pending hpending).1 hmem
        rw [hordered.resolution_unique hq hr hid, hroutine] at houtside
        cases houtside
      have hnodup : ((c.resolutions.map fun r => (r.id, r.distance)).map Prod.fst).Nodup := by
        rw [c.fst_distances]
        exact hordered.resolution_nodup
      have hmem : (r.id, r.distance) ∈ c.resolutions.map fun r => (r.id, r.distance) :=
        List.mem_map_of_mem hr
      rw [getElem?_eraseAll hstays, opened_distances, getElem?_insertAll_of_mem hnodup hmem]
      rfl
  | false =>
      exact getElem?_eraseAll_of_mem
        ((mem_opened_enter_pending hpending).2 ⟨r, hr, rfl, hroutine⟩) _

/-- A number that a line does not resolve keeps its distance. -/
theorem getElem?_line_of_not_mem (h : Sound programs s) (hc : s.compile source = (.ok c, s₁))
    (machine : Machine) {id : ExprId} (hid : id ∉ c.resolutions.map Resolution.id) :
    ({ s₁.opened .enter c with machine := machine }.giveUp).distances[id]? = s.distances[id]? := by
  obtain ⟨-, hs₁⟩ := compile_eq hc
  have hpending : s₁.pending = [] := by rw [hs₁]; exact h.pending
  have hstays : id ∉ (s₁.opened .enter c).pending := fun hmem => by
    obtain ⟨q, hq, rfl, -⟩ := (mem_opened_enter_pending hpending).1 hmem
    exact hid (List.mem_map_of_mem hq)
  have hother : id ∉ (c.resolutions.map fun r => (r.id, r.distance)).map Prod.fst := by
    rw [c.fst_distances]
    exact hid
  change ((s₁.opened .enter c).pending.foldl (fun map id => map.erase id)
    (s₁.opened .enter c).distances)[id]? = _
  rw [getElem?_eraseAll hstays, opened_distances, getElem?_insertAll_of_not_mem hother, hs₁]

/-- **A line adds its resolutions inside routines** to what is held, and nothing else. -/
theorem getElem?_line (h : Sound programs s) (hc : s.compile source = (.ok c, s₁))
    (machine : Machine) (id : ExprId) (distance : Nat) :
    ({ s₁.opened .enter c with machine := machine }.giveUp).distances[id]? = some distance ↔
      ⟨id, distance, true⟩ ∈ c.resolutions ∨ s.distances[id]? = some distance := by
  have hordered := compile_ordered (compile_eq hc).1
  by_cases hid : id ∈ c.resolutions.map Resolution.id
  · obtain ⟨r, hr, rfl⟩ := List.mem_map.1 hid
    -- a number of this line was free before it
    have hfree : s.distances[r.id]? = none := h.fresh (hordered.resolution_bounds hr).1
    rw [h.getElem?_line_of_mem hc machine hr, hfree, or_iff_left nofun]
    constructor
    · intro hd
      split at hd
      · rename_i hroutine
        cases hd
        rw [← hroutine]
        exact hr
      · cases hd
    · intro hmem
      rw [hordered.resolution_unique hr hmem rfl]
      rfl
  · rw [h.getElem?_line_of_not_mem hc machine hid]
    exact (or_iff_right fun hmem => hid (List.mem_map.2 ⟨_, hmem, rfl⟩)).symm

end Sound

/-! ### Any number of lines -/

/-- **The sessions that interactive lines lead to**, with the programs that have been compiled, the
newest first.  A fresh session may find some numbers taken already. -/
inductive Typed (output : Output) (clock : Nat → Float) : List Compiled → Session → Prop
  | start (supply : Supply) : Typed output clock [] { start output clock with supply := supply }
  | line {programs : List Compiled} {s s' : Session} {fuel : Nat} {source : String}
      {ending : Ending} (typed : Typed output clock programs s)
      (enter : s.enter fuel source = some (ending, s')) :
      Typed output clock ((s.compile source).1.toOption.toList ++ programs) s'

/-- **A session that holds the distances inside routines and no others.** -/
structure Retains (programs : List Compiled) (s : Session) : Prop where
  /-- It holds what is resolved inside routines. -/
  held : ∀ id distance, s.distances[id]? = some distance ↔
    ∃ c ∈ programs, ⟨id, distance, true⟩ ∈ c.resolutions
  /-- No number is resolved in two ways, be it by one program or by several. -/
  resolved : ∀ c ∈ programs, ∀ r ∈ c.resolutions,
    s.distances[r.id]? = if r.inRoutine then some r.distance else none
  /-- What is resolved inside routines is what stands in one and is bound there. -/
  standing : ∀ id distance, s.distances[id]? = some distance ↔
    ∃ c ∈ programs, ∃ spot ∈ c.program.spots, spot.trail.InRoutine ∧ spot.Resolves id distance

section Typed

variable {output : Output} {clock : Nat → Float} {programs : List Compiled} {s : Session}

theorem Typed.sound (h : Typed output clock programs s) : Sound programs s := by
  induction h with
  | start supply => exact .start output clock supply
  | @line programs s s' fuel source ending typed enter ih =>
      have hstep : s.step .enter fuel source = some (ending, s') := enter
      exact (ih.step hstep).1

/-- After any lines a session holds what is resolved inside routines. -/
theorem Typed.held (h : Typed output clock programs s) (id : ExprId) (distance : Nat) :
    s.distances[id]? = some distance ↔ ∃ c ∈ programs, ⟨id, distance, true⟩ ∈ c.resolutions := by
  induction h with
  | start supply =>
      have hnone : (∅ : ResolutionMap)[id]? = none := Std.TreeMap.getElem?_emptyc
      change (∅ : ResolutionMap)[id]? = some distance ↔ _
      rw [hnone]
      exact ⟨nofun, fun ⟨c, hc, _⟩ => absurd hc List.not_mem_nil⟩
  | @line programs s s' fuel source ending typed enter ih =>
      have hstep : s.step .enter fuel source = some (ending, s') := enter
      rcases hc : s.compile source with ⟨errors | c, s₁⟩
      · rw [step_of_error hc] at hstep
        cases hstep
        rw [(compile_eq hc).2]
        exact ih
      · rw [step_of_ok hc] at hstep
        -- a line that fails gives up what it would have given up at its end
        have hline : ∃ machine, s' = { s₁.opened .enter c with machine := machine }.giveUp := by
          split at hstep
          · cases hstep
            exact ⟨_, rfl⟩
          · cases hstep
            exact ⟨_, rfl⟩
          · cases hstep
        obtain ⟨machine, rfl⟩ := hline
        rw [typed.sound.getElem?_line hc machine, ih]
        exact (List.exists_mem_cons_iff (fun d => ⟨id, distance, true⟩ ∈ d.resolutions) c
          programs).symm

/-- **What is held after any lines**, rejected ones and failed ones among them: the distances of the
references inside the routines of those that have compiled, each with the distance that it was
resolved with, and no others.  Nothing is left to give up. -/
theorem Typed.distances_exact (h : Typed output clock programs s) :
    s.pending = [] ∧ Retains programs s := by
  have hcatalogue := h.sound.catalogue
  refine ⟨h.sound.pending, h.held, fun c hc r hr => ?_, fun id distance => ?_⟩
  · split
    · rename_i hroutine
      refine (h.held _ _).2 ⟨c, hc, ?_⟩
      rw [← hroutine]
      exact hr
    · rename_i houtside
      rw [Option.eq_none_iff_forall_ne_some]
      intro distance hd
      obtain ⟨c', hc', hr'⟩ := (h.held _ _).1 hd
      have hsame := hcatalogue.resolution_unique hc hc' hr hr' rfl
      exact houtside (congrArg Resolution.inRoutine hsame)
  · rw [h.held]
    refine exists_congr fun c => and_congr_right fun hc => ?_
    obtain ⟨s₁, s₂, hordered, -⟩ := hcatalogue.ordered c hc
    rw [hordered.mem_resolutions_iff]
    refine exists_congr fun spot => and_congr_right fun _ => ?_
    exact ⟨fun ⟨hresolves, hinside⟩ => ⟨hinside.1 rfl, hresolves⟩,
      fun ⟨hinside, hresolves⟩ => ⟨hresolves, fun _ => hinside, fun _ => rfl⟩⟩

end Typed

/-- Three lines: one does not compile, one fails behind a nested function that it has made in a
block, and the last makes a class with a superclass in a block. -/
theorem Typed.distances_exact_after_failure :
    ¬Compiles "\x7b var a = a; \x7d" ∧
    ∃ programs s, Typed (.lines #[]) (fun _ => 0) programs s ∧
      s.distances.toList = [(2, 2), (3, 0), (9, 2), (10, 1)] ∧
      s.pending = [] ∧ Retains programs s := by
  have hrun :
      ((Session.start (.lines #[]) fun _ => 0).enter 40 "\x7b var a = a; \x7d").bind (fun first =>
        (first.2.enter 40 ("\x7b var a = 1; fun f() \x7b fun g() \x7b return a; \x7d return g; " ++
            "\x7d f(); a.b; \x7d")).bind fun second =>
          (second.2.enter 40 ("\x7b class A \x7b\x7d class B < A \x7b m() \x7b super.m; " ++
              "return this; \x7d \x7d print B(); \x7d")).map fun third =>
            (second.1, third.2.distances.toList)) =
      some (.failed ⟨.propertyOfNonObject, ⟨62, 3, 1⟩⟩, [(2, 2), (3, 0), (9, 2), (10, 1)]) := by
    decide +kernel
  obtain ⟨⟨ending, s⟩, hfirst, hrun⟩ := Option.bind_eq_some_iff.1 hrun
  obtain ⟨⟨ending', s'⟩, hsecond, hrun⟩ := Option.bind_eq_some_iff.1 hrun
  obtain ⟨⟨ending'', s''⟩, hthird, hresult⟩ := Option.map_eq_some_iff.1 hrun
  have hstart : Typed (.lines #[]) (fun _ => 0) [] (Session.start (.lines #[]) fun _ => 0) :=
    .start .full
  have htyped := ((hstart.line hfirst).line hsecond).line hthird
  exact ⟨by decide +kernel, _, s'', htyped, (Prod.mk.inj hresult).2, htyped.distances_exact⟩

end Session

end Scriptlet
