/-
**Resolution and runs agree, in every session.**

Whatever a session has taken before, and whatever of it has failed, a program that compiles is run
safely: no run ends with an error by which the machine admits that resolution was wrong, and a
variable is undefined only if it is global.  For whenever a reference with a distance is consulted,
be it in a routine of an earlier program, the machine has a frame for each open scope, and the frame
at the distance binds the name, or is about to bind it.

Main definitions:

* `Scriptlet.Moment.Foreseen` — a moment at which a reference is consulted, as resolution has
  foreseen;
* `Scriptlet.Session.Agrees` — **what resolution promises** about a source that a session takes.

Main results:

* `Scriptlet.Session.Reached.agrees` — **the promise is kept** in every session that can be reached.
-/

import Scriptlet.Proofs.Session.Reached
import Scriptlet.Proofs.Session.Readiness

set_option relaxedAutoImplicit false
set_option autoImplicit false

namespace Scriptlet

/-- **A moment at which a reference with a distance is consulted, as resolution has foreseen
it.** -/
structure Moment.Foreseen (setting : Setting) (k top : Moment) (site : Site) (name : String)
    (distance : Nat) : Prop where
  /-- There is one frame for each open scope, and behind them those of the globals. -/
  framed : site.ctx.Framed k.machine
  /-- The frame at the distance binds the name.  If a variable gets a value in its own initialiser,
  it is the frame in which the variable is about to be bound. -/
  bound : ∃ a, k.machine.scope.chain[distance]? = some a ∧
    ((k.machine.store.frame a).binds name = true ∨
      (∃ mark v, k.task = .assign mark name v) ∧ distance = 0 ∧
        Awaits setting top k name k.machine.scope)
  /-- The name is not said to be unbound. -/
  found : ∀ e, k.error? setting = some e → e.fault.isUnbound = false

namespace Session

/-- **What resolution promises about a source that a session takes**: `programs` are those that have
been compiled, the newest of them from this source, and `s₁` is the session when it is about to
run. -/
structure Agrees (programs : List Compiled) (mode : Mode) (fuel : Nat) (source : String)
    (c : Compiled) (s s₁ : Session) : Prop where
  /-- No error of resolution comes to light. -/
  safe : ∀ e s', s.step mode fuel source = some (.failed e, s') → e.fault.isInternal = false
  /-- A variable is undefined only at a reference without distance. -/
  undefined : ∀ x span s',
    s.step mode fuel source = some (.failed ⟨.undefinedVariable x, span⟩, s') →
    ∃ k mark, Occurs (s₁.opened mode c).setting fuel c.program.declarations
        (s₁.opened mode c).machine k ∧
      k.task.reference? = some (mark, x) ∧ mark.span = span ∧
      ∀ q ∈ programs, ∀ r ∈ q.resolutions, r.id ≠ mark.id
  /-- Whenever a reference is consulted, it is one of the programs, and if it has a distance, the
  moment is as foreseen. -/
  foreseen : ∀ top ∈ topMoments (s₁.opened mode c).setting fuel c.program.declarations
      (s₁.opened mode c).machine,
    ∀ k, top.Leads (s₁.opened mode c).setting k →
    ∀ mark name, k.task.reference? = some (mark, name) →
      ∃ site, Knows programs site ∧ site.reference? = some (mark.id, name) ∧
        ∀ q ∈ programs, ∀ r ∈ q.resolutions, r.id = mark.id → site.resolution? = some r ∧
          k.Foreseen (s₁.opened mode c).setting top site name r.distance

namespace Sound

variable {programs : List Compiled} {s s₁ : Session} {source : String} {c : Compiled}

/-- Whenever a reference is consulted in the run of a program, it is consulted where it should
be. -/
theorem consulted (h : Sound programs s) (hc : s.compile source = (.ok c, s₁)) (mode : Mode)
    {fuel : Nat} {top k : Moment}
    (htop : top ∈ topMoments (s₁.opened mode c).setting fuel c.program.declarations
      (s₁.opened mode c).machine)
    (hk : top.Leads (s₁.opened mode c).setting k) {mark : Mark} {name : String}
    (ht : k.task.reference? = some (mark, name)) :
    ∃ site, Consulted (Knows (c :: programs)) (s₁.opened mode c).setting
      (Awaits (s₁.opened mode c).setting top k) k.task k.machine site mark name := by
  have hlawful := h.opened_lawful hc mode
  obtain ⟨hscope, A, n, hsim, hn⟩ := h.opened_sim hc mode
  have hready := ready_of_mem_topMoments hlawful hsim hscope hn (h.opened_fit hc mode) htop
  exact (hready.leads hlawful hk).consulted ht

end Sound

/-- **Resolution and runs agree, in every session**: whatever has been taken before and whatever of
it has failed, what resolution promises about the next source that compiles is kept. -/
theorem Reached.agrees {output : Output} {clock : Nat → Float} {programs : List Compiled}
    {s : Session} (h : Reached output clock programs s) {source : String} {c : Compiled}
    {s₁ : Session}
    (hc : s.compile source = (.ok c, s₁)) (mode : Mode) (fuel : Nat) :
    Agrees (c :: programs) mode fuel source c s s₁ := by
  have hsound := h.sound
  have hcatalogue := hsound.catalogue.add (compile_ordered (compile_eq hc).1)
  constructor
  case safe => exact fun e s' hstep => (hsound.step hstep).2 e rfl
  case undefined =>
    intro x span s' hstep
    rw [step_of_ok hc] at hstep
    have herror : (runDeclarations (s₁.opened mode c).setting fuel c.program.declarations
        (s₁.opened mode c).machine).error? = some ⟨.undefinedVariable x, span⟩ := by
      generalize runDeclarations _ fuel _ _ = o at hstep
      cases o with
      | done a machine => cases hstep
      | failed e machine =>
          cases hstep
          rfl
      | starved => cases hstep
    obtain ⟨k, mark, hk, ht, hspan, hnone⟩ := Occurs.of_error herror
    refine ⟨k, mark, hk, ht, hspan, fun q hq r hr hid => ?_⟩
    obtain ⟨top, htop, hleads⟩ := hk
    obtain ⟨site, hconsulted⟩ := hsound.consulted hc mode htop hleads ht
    -- A reference with a resolution would find its distance.
    have hreference := hconsulted.reference
    rw [← hid] at hreference
    obtain ⟨-, hdistance⟩ := hcatalogue.resolution_eq hq hr hconsulted.known hreference
    rw [hconsulted.distance, hdistance] at hnone
    cases hnone
  case foreseen =>
    intro top htop k hk mark name ht
    obtain ⟨site, hconsulted⟩ := hsound.consulted hc mode htop hk ht
    refine ⟨site, hconsulted.known, hconsulted.reference, fun q hq r hr hid => ?_⟩
    have hreference := hconsulted.reference
    rw [← hid] at hreference
    obtain ⟨hresolution, hdistance⟩ :=
      hcatalogue.resolution_eq hq hr hconsulted.known hreference
    refine ⟨hresolution, hconsulted.framed, ?_, fun e he => hconsulted.found ht hdistance he⟩
    obtain ⟨a, ha, hbound⟩ := hconsulted.bound _ hdistance
    exact ⟨a, ha, hbound.imp_right fun ⟨⟨v, hv⟩, hrest⟩ => ⟨⟨mark, v, hv⟩, hrest⟩⟩

/-- A session that keeps a routine over an interactive line that fails, and then calls it. -/
theorem Reached.agrees_kept_routine :
    ∃ programs s c s₁, Reached (.lines #[]) (fun _ => 0) programs s ∧
      s.compile "print f();" = (.ok c, s₁) ∧
      (s.step .enter 40 "print f();").map (fun result => result.2.printed) = some ["kept"] ∧
      Agrees (c :: programs) .enter 40 "print f();" c s s₁ := by
  have hrun :
      ((Session.start (.lines #[]) fun _ => 0).step .enter 40
          "fun f() \x7b var a = 'kept'; fun g() \x7b return a; \x7d return g(); \x7d").bind
        (fun first => (first.2.step .enter 40 "\x7b var b = f; b.missing; \x7d").bind fun second =>
          (second.2.step .enter 40 "print f();").map fun third => (third.1, third.2.printed)) =
      some (.success, ["kept"]) := by
    decide +kernel
  obtain ⟨⟨ending, s⟩, hfirst, hrun⟩ := Option.bind_eq_some_iff.1 hrun
  obtain ⟨⟨ending', s'⟩, hsecond, hrun⟩ := Option.bind_eq_some_iff.1 hrun
  obtain ⟨⟨ending'', s''⟩, hthird, hresult⟩ := Option.map_eq_some_iff.1 hrun
  obtain ⟨rfl, hprinted⟩ := Prod.mk.inj hresult
  have hstart : Reached (.lines #[]) (fun _ => 0) [] (Session.start (.lines #[]) fun _ => 0) :=
    .start .full
  have hreached := (hstart.step hfirst).step hsecond
  rcases hcompile : s'.compile "print f();" with ⟨errors | c, s₁⟩
  · rw [step_of_error hcompile] at hthird
    cases hthird
  · refine ⟨_, s', c, s₁, hreached, hcompile, ?_, hreached.agrees hcompile .enter 40⟩
    rw [hthird, Option.map_some, hprinted]

end Session

end Scriptlet
