/-
**Sessions that can be reached.**

A session takes one source after another, to run it or as an interactive line.  Whatever has failed
before, the programs it has compiled so far have numbers and labels of their own, the references
inside their routines find their distances, for the routines may be called later, and its machine
mirrors one that looks names up.

Main definitions:

* `Scriptlet.Session.Mode`, `Scriptlet.Session.step` — the two ways in which a source is taken;
* `Scriptlet.Session.opened` — a session as a program starts to run;
* `Scriptlet.Session.Reached` — **the sessions that can be reached**, with the programs compiled;
* `Scriptlet.Session.Sound` — what is true of a session between two sources.

Main results:

* `Scriptlet.Session.Sound.opened_lawful`, `Scriptlet.Session.Sound.opened_fit` — **when a program
  starts to run, its sites and those of all known routines are in order**;
* `Scriptlet.Session.Sound.step` — a session is sound after each source;
* `Scriptlet.Session.Reached.sound` — so every session that can be reached is sound.
-/

import Scriptlet.Proofs.Lexical.Refinement

set_option relaxedAutoImplicit false
set_option autoImplicit false

namespace Scriptlet

namespace Session

/-! ### Steps -/

/-- The two ways in which a session takes a source. -/
inductive Mode
  /-- All its resolutions are kept. -/
  | run
  /-- The source is an interactive line: resolutions outside routines are given up at the end. -/
  | enter
deriving DecidableEq, Repr

/-- Takes a source. -/
def step (mode : Mode) (fuel : Nat) (source : String) (s : Session) : Option (Ending × Session) :=
  match mode with
  | .run => s.run fuel source
  | .enter => s.enter fuel source

/-- A session as a program starts to run. -/
def opened (mode : Mode) (c : Compiled) (s : Session) : Session :=
  match mode with
  | .run => s.keep (c.resolutions.map fun r => (r.id, r.distance))
  | .enter => s.recordAll c.resolutions

/-- **The sessions that can be reached**, whatever numbers they find taken when they start, with the
programs that have been compiled, the newest first. -/
inductive Reached (output : Output) (clock : Nat → Float) : List Compiled → Session → Prop
  | start (supply : Supply) : Reached output clock [] { start output clock with supply := supply }
  | step {programs : List Compiled} {s s' : Session} {mode : Mode} {fuel : Nat} {source : String}
      {ending : Ending} (reached : Reached output clock programs s)
      (step : s.step mode fuel source = some (ending, s')) :
      Reached output clock ((s.compile source).1.toOption.toList ++ programs) s'

section Step

variable {s s₁ : Session} {source : String} {c : Compiled} {mode : Mode} {fuel : Nat}

/-- A source that does not compile changes the supply only. -/
theorem step_of_error {errors : List CompileError} (h : s.compile source = (.error errors, s₁)) :
    s.step mode fuel source = some (.rejected errors, s₁) := by
  cases mode with
  | run => simp only [step, run, h]
  | enter => simp only [step, enter, h]

/-- A source that compiles is run in the opened session. -/
theorem step_of_ok (h : s.compile source = (.ok c, s₁)) :
    s.step mode fuel source =
      match runDeclarations (s₁.opened mode c).setting fuel c.program.declarations
          (s₁.opened mode c).machine with
      | .done _ machine => some (.success, { s₁.opened mode c with machine := machine }.giveUp)
      | .failed e machine => some (.failed e, { s₁.opened mode c with machine := machine }.giveUp)
      | .starved => none := by
  cases mode with
  | run =>
      simp only [step, run, h]
      rfl
  | enter =>
      simp only [step, enter, h]
      rfl

/-- To compile a source changes the supply only. -/
theorem compile_eq {result : Except (List CompileError) Compiled}
    (h : s.compile source = (result, s₁)) :
    Scriptlet.compile source s.supply = (result, s₁.supply) ∧
      s₁ = { s with supply := s₁.supply } := by
  unfold compile at h
  generalize Scriptlet.compile source s.supply = compiled at h ⊢
  obtain ⟨result', supply⟩ := compiled
  cases h
  exact ⟨rfl, rfl⟩

/-- A session compiles with its own supply. -/
theorem compile_of_compile {result : Except (List CompileError) Compiled} {supply : Supply}
    (h : Scriptlet.compile source s.supply = (result, supply)) :
    s.compile source = (result, { s with supply := supply }) := by
  unfold compile
  rw [h]

end Step

/-! ### The distances of a step -/

theorem recordAll_distances (rs : List Resolution) (s : Session) :
    (s.recordAll rs).distances = insertAll s.distances (rs.map fun r => (r.id, r.distance)) := by
  induction rs generalizing s with
  | nil => rfl
  | cons r rs ih => exact ih (s.record r)

theorem recordAll_machine (rs : List Resolution) (s : Session) :
    (s.recordAll rs).machine = s.machine ∧ (s.recordAll rs).clock = s.clock ∧
      (s.recordAll rs).supply = s.supply := by
  induction rs generalizing s with
  | nil => exact ⟨rfl, rfl, rfl⟩
  | cons r rs ih => exact ih (s.record r)

/-- A resolution inside a routine is kept for good, any other is noted down. -/
theorem mem_record_pending {r : Resolution} {s : Session} {id : ExprId} :
    id ∈ (s.record r).pending ↔ id ∈ s.pending ∨ r.id = id ∧ r.inRoutine = false := by
  unfold record
  cases r.inRoutine with
  | true => simp only [if_true, Bool.true_eq_false, and_false, or_false]
  | false => simp only [Bool.false_eq_true, if_false, List.mem_cons, and_true, or_comm, eq_comm]

/-- What is given up at the end are the resolutions outside routines. -/
theorem mem_recordAll_pending {rs : List Resolution} {s : Session} {id : ExprId} :
    id ∈ (s.recordAll rs).pending ↔
      id ∈ s.pending ∨ ∃ r ∈ rs, r.id = id ∧ r.inRoutine = false := by
  induction rs generalizing s with
  | nil =>
      simp only [recordAll, List.foldl_nil, List.not_mem_nil, false_and, exists_false, or_false]
  | cons r rs ih =>
      change id ∈ ((s.record r).recordAll rs).pending ↔ _
      rw [ih, mem_record_pending, or_assoc, List.exists_mem_cons_iff]

/-- Distances that are not given up stay. -/
theorem getElem?_eraseAll {ids : List ExprId} {id : ExprId} (h : id ∉ ids) (map : ResolutionMap) :
    (ids.foldl (fun map id => map.erase id) map)[id]? = map[id]? := by
  induction ids generalizing map with
  | nil => rfl
  | cons i ids ih =>
      rw [List.mem_cons, not_or] at h
      rw [List.foldl_cons, ih h.2, Std.TreeMap.getElem?_erase]
      exact if_neg fun e => h.1 (Nat.compare_eq_eq.1 e).symm

/-- Distances that are given up are gone. -/
theorem getElem?_eraseAll_of_mem {ids : List ExprId} {id : ExprId} (h : id ∈ ids)
    (map : ResolutionMap) : (ids.foldl (fun map id => map.erase id) map)[id]? = none := by
  induction ids generalizing map with
  | nil => cases h
  | cons i ids ih =>
      rw [List.foldl_cons]
      by_cases hlater : id ∈ ids
      · exact ih hlater _
      · obtain rfl := (List.mem_cons.1 h).resolve_right hlater
        rw [getElem?_eraseAll hlater, Std.TreeMap.getElem?_erase]
        exact if_pos (Nat.compare_eq_eq.2 rfl)

/-- A number without distance has none after others are given up. -/
theorem getElem?_eraseAll_of_none {id : ExprId} {map : ResolutionMap} (h : map[id]? = none)
    (ids : List ExprId) : (ids.foldl (fun map id => map.erase id) map)[id]? = none := by
  induction ids generalizing map with
  | nil => exact h
  | cons i ids ih =>
      refine ih ?_
      rw [Std.TreeMap.getElem?_erase, h]
      exact ite_self _

/-- **What a line gives up are its resolutions outside routines.** -/
theorem mem_opened_enter_pending {c : Compiled} {s : Session} (hs : s.pending = [])
    {id : ExprId} :
    id ∈ (s.opened .enter c).pending ↔ ∃ r ∈ c.resolutions, r.id = id ∧ r.inRoutine = false := by
  change id ∈ (s.recordAll c.resolutions).pending ↔ _
  rw [mem_recordAll_pending, hs]
  exact or_iff_right List.not_mem_nil

section Opened

variable (mode : Mode) (c : Compiled) (s : Session)

theorem opened_distances : (s.opened mode c).distances =
    insertAll s.distances (c.resolutions.map fun r => (r.id, r.distance)) := by
  cases mode with
  | run => rfl
  | enter => exact recordAll_distances c.resolutions s

theorem opened_machine : (s.opened mode c).machine = s.machine := by
  cases mode with
  | run => rfl
  | enter => exact (recordAll_machine c.resolutions s).1

theorem opened_supply : (s.opened mode c).supply = s.supply := by
  cases mode with
  | run => rfl
  | enter => exact (recordAll_machine c.resolutions s).2.2

theorem opened_clock : (s.opened mode c).clock = s.clock := by
  cases mode with
  | run => rfl
  | enter => exact (recordAll_machine c.resolutions s).2.1

/-- What is given up after a program are resolutions outside routines. -/
theorem mem_opened_pending {id : ExprId} (hs : s.pending = [])
    (h : id ∈ (s.opened mode c).pending) :
    ∃ r ∈ c.resolutions, r.id = id ∧ r.inRoutine = false := by
  cases mode with
  | run =>
      change id ∈ s.pending at h
      rw [hs] at h
      cases h
  | enter => exact (mem_opened_enter_pending hs).1 h

end Opened

end Session

/-! ### The programs of a session -/

/-- The sites of programs. -/
def Knows (programs : List Compiled) : Known := fun site => ∃ c ∈ programs, site ∈ c.program.sites

theorem Knows.mono {programs programs' : List Compiled} (hsubset : programs ⊆ programs')
    {site : Site} (h : Knows programs site) : Knows programs' site := by
  obtain ⟨d, hd, hs⟩ := h
  exact ⟨d, hsubset hd, hs⟩

theorem Knows.cons {programs : List Compiled} (c : Compiled) (site : Site)
    (h : Knows programs site) :
    Knows (c :: programs) site :=
  h.mono (List.subset_cons_self c programs)

/-- **Programs with numbers of their own**: all below what a supply has left, and none in two
places. -/
structure Catalogue (programs : List Compiled) (s : Supply) : Prop where
  ordered : ∀ c ∈ programs, ∃ s₁ s₂, c.Ordered s₁ s₂ ∧ s₂.Le s
  unique : ∀ ⦃site site'⦄, Knows programs site → Knows programs site' → ∀ ⦃id name name'⦄,
    site.reference? = some (id, name) → site'.reference? = some (id, name') → site = site'
  labelled : (Knows programs).Labelled

namespace Catalogue

variable {programs : List Compiled} {c : Compiled} {s s' : Supply}

theorem nil (s : Supply) : Catalogue [] s := by
  constructor
  case ordered => nofun
  case unique => rintro site site' ⟨d, hd, -⟩; cases hd
  case labelled => rintro ctx ctx' r r' ⟨d, hd, -⟩; cases hd

theorem mono (h : Catalogue programs s) (hle : s.Le s') : Catalogue programs s' := by
  refine ⟨fun c hc => ?_, h.unique, h.labelled⟩
  obtain ⟨s₁, s₂, hordered, hs₂⟩ := h.ordered c hc
  exact ⟨s₁, s₂, hordered, hs₂.trans hle⟩

theorem reference_lt (h : Catalogue programs s) {site : Site} (hs : Knows programs site)
    {id : ExprId} {name : String} (hr : site.reference? = some (id, name)) : id < s.expr := by
  obtain ⟨d, hd, hsite⟩ := hs
  obtain ⟨s₁, s₂, hordered, hs₂⟩ := h.ordered d hd
  exact Nat.lt_of_lt_of_le (hordered.reference_bounds hsite hr).2 hs₂.expr

theorem routine_lt (h : Catalogue programs s) {ctx : Context} {r : Routine}
    (hr : Knows programs ⟨ctx, .routine r⟩) : r.label < s.routine := by
  obtain ⟨d, hd, hsite⟩ := hr
  obtain ⟨s₁, s₂, hordered, hs₂⟩ := h.ordered d hd
  exact Nat.lt_of_lt_of_le (hordered.routine_bounds hsite).2 hs₂.routine

theorem knows_cons_iff {site : Site} :
    Knows (c :: programs) site ↔ site ∈ c.program.sites ∨ Knows programs site := by
  constructor
  · rintro ⟨d, hd, hs⟩
    rcases List.mem_cons.1 hd with rfl | hd
    · exact .inl hs
    · exact .inr ⟨d, hd, hs⟩
  · rintro (hs | hs)
    · exact ⟨c, List.mem_cons_self .., hs⟩
    · exact hs.cons c site

/-- **A program that is compiled gets numbers that no other has.** -/
theorem add (h : Catalogue programs s) (hc : c.Ordered s s') : Catalogue (c :: programs) s' := by
  have hle : s.Le s' := ⟨hc.references.le, hc.routines.le⟩
  constructor
  case ordered =>
    intro d hd
    rcases List.mem_cons.1 hd with rfl | hd
    · exact ⟨s, s', hc, .refl s'⟩
    · exact (h.mono hle).ordered d hd
  case unique =>
    intro site site' hs hs' id name name' hr hr'
    -- the numbers of the new program begin where those of the others have ended
    rcases knows_cons_iff.1 hs with hs | hs <;> rcases knows_cons_iff.1 hs' with hs' | hs'
    · exact hc.site_unique hs hs' hr hr'
    · exact absurd (h.reference_lt hs' hr') (Nat.not_lt.2 (hc.reference_bounds hs hr).1)
    · exact absurd (h.reference_lt hs hr) (Nat.not_lt.2 (hc.reference_bounds hs' hr').1)
    · exact h.unique hs hs' hr hr'
  case labelled =>
    intro ctx ctx' r r' hr hr' hlabel
    rcases knows_cons_iff.1 hr with hr | hr <;> rcases knows_cons_iff.1 hr' with hr' | hr'
    · exact hc.routine_unique hr hr' hlabel
    · exact absurd (hlabel ▸ h.routine_lt hr') (Nat.not_lt.2 (hc.routine_bounds hr).1)
    · exact absurd (hlabel ▸ h.routine_lt hr) (Nat.not_lt.2 (hc.routine_bounds hr').1)
    · exact h.labelled hr hr' hlabel

/-- A resolution of one of the programs is that of the site with its number, and has its
distance. -/
theorem resolution_eq (h : Catalogue programs s) {q : Compiled} (hq : q ∈ programs) {r : Resolution}
    (hr : r ∈ q.resolutions) {site : Site} (hs : Knows programs site) {name : String}
    (hreference : site.reference? = some (r.id, name)) :
    site.resolution? = some r ∧ site.ctx.distance? name = some r.distance := by
  obtain ⟨s₁, s₂, hordered, -⟩ := h.ordered q hq
  rw [hordered.resolutions] at hr
  obtain ⟨site', hs', hresolution⟩ := List.mem_filterMap.1 hr
  obtain ⟨name', hreference', hdistance, -⟩ := Site.reference?_of_resolution? hresolution
  obtain rfl := h.unique hs ⟨q, hq, hs'⟩ hreference hreference'
  rw [hreference] at hreference'
  cases hreference'
  exact ⟨hresolution, hdistance⟩

/-- A number tells the resolution, whichever programs have it. -/
theorem resolution_unique (h : Catalogue programs s) {q q' : Compiled} (hq : q ∈ programs)
    (hq' : q' ∈ programs) {r r' : Resolution} (hr : r ∈ q.resolutions) (hr' : r' ∈ q'.resolutions)
    (hid : r.id = r'.id) : r = r' := by
  obtain ⟨s₁, s₂, hordered, -⟩ := h.ordered q hq
  rw [hordered.resolutions] at hr
  obtain ⟨site, hsite, hresolution⟩ := List.mem_filterMap.1 hr
  obtain ⟨name, hreference, -, -⟩ := Site.reference?_of_resolution? hresolution
  rw [hid] at hreference
  obtain ⟨hresolution', -⟩ := h.resolution_eq hq' hr' ⟨q, hq, hsite⟩ hreference
  exact Option.some.inj (hresolution.symm.trans hresolution')

end Catalogue

/-! ### Sound sessions -/

namespace Session

/-- **What is true of a session between two sources.** -/
structure Sound (programs : List Compiled) (s : Session) : Prop where
  catalogue : Catalogue programs s.supply
  /-- References inside routines find their distances. -/
  distances : ∀ ⦃site⦄, Knows programs site → site.ctx.inRoutine = true → ∀ ⦃id name⦄,
    site.reference? = some (id, name) → s.distances[id]? = site.ctx.distance? name
  /-- Numbers that are still free have no distance. -/
  fresh : ∀ ⦃id⦄, s.supply.expr ≤ id → s.distances[id]? = none
  pending : s.pending = []
  mirrored : ∃ A n, Sim (Knows programs) A s.machine n ∧ n.scope = ⟨[0]⟩
  scope : s.machine.scope = ⟨[0]⟩

namespace Sound

variable {programs : List Compiled} {s s₁ s' : Session} {source : String} {c : Compiled}
  {mode : Mode} {fuel : Nat}

/-- A fresh session is sound, whatever numbers it finds taken. -/
theorem start (output : Output) (clock : Nat → Float) (supply : Supply) :
    Sound [] { Session.start output clock with supply := supply } := by
  constructor
  case catalogue => exact .nil _
  case distances => rintro site ⟨d, hd, -⟩; cases hd
  case fresh => exact fun _ _ => Std.TreeMap.getElem?_emptyc
  case pending => rfl
  case mirrored => exact ⟨_, _, sim_initial _ output, rfl⟩
  case scope => rfl

/-- A source that does not compile leaves a session sound. -/
theorem supplied (h : Sound programs s) {supply : Supply} (hle : s.supply.Le supply) :
    Sound programs { s with supply := supply } :=
  { h with
    catalogue := h.catalogue.mono hle
    fresh := fun _ hid => h.fresh (Nat.le_trans hle.expr hid) }

/-- **When a program starts to run, its references find their distances**, and so do those inside
the routines of the programs before. -/
theorem opened_distance (h : Sound programs s) {supply : Supply} (hc : c.Ordered s.supply supply)
    {site : Site} (hs : Knows (c :: programs) site)
    (hinside : site ∈ c.program.sites ∨ site.ctx.inRoutine = true) {id : ExprId} {name : String}
    (hr : site.reference? = some (id, name)) :
    (insertAll s.distances (c.resolutions.map fun r => (r.id, r.distance)))[id]? =
      site.ctx.distance? name := by
  -- the new program inserts the distances of its own sites and touches no other number
  by_cases hsite : site ∈ c.program.sites
  · exact hc.getElem?_insertAll hsite hr (h.fresh (hc.reference_bounds hsite hr).1)
  · have hold := (Catalogue.knows_cons_iff.1 hs).resolve_left hsite
    have hid : id ∉ referenceIds c.program.sites := fun hmem =>
      absurd (h.catalogue.reference_lt hold hr) (Nat.not_lt.2 (hc.references.bounds id hmem).1)
    rw [hc.getElem?_insertAll_of_not_mem hid]
    exact h.distances hold (hinside.resolve_left hsite) hr

/-- When a program starts to run, its sites are in order, and so is what is inside the routines of
the programs before. -/
theorem opened_good (h : Sound programs s) {supply : Supply} (hc : c.Ordered s.supply supply)
    {site : Site} (hs : Knows (c :: programs) site)
    (hinside : site ∈ c.program.sites ∨ site.ctx.inRoutine = true) :
    site.Good (insertAll s.distances (c.resolutions.map fun r => (r.id, r.distance))) := by
  have hknown := hs
  obtain ⟨d, hd, hsite⟩ := hs
  obtain ⟨s₁, s₂, hordered, -⟩ := (h.catalogue.add hc).ordered d hd
  exact hordered.good hsite fun _ _ hr => h.opened_distance hc hknown hinside hr

/-- **When a program starts to run, its sites are in order.** -/
theorem opened_fit (h : Sound programs s) (hc : s.compile source = (.ok c, s₁)) (mode : Mode) :
    Fit (Knows (c :: programs)) (s₁.opened mode c).setting.distances c.program.sites := by
  obtain ⟨hcompile, hs₁⟩ := compile_eq hc
  have hordered := compile_ordered hcompile
  change Fit _ (s₁.opened mode c).distances _
  rw [opened_distances, hs₁]
  intro site hs
  have hknown : Knows (c :: programs) site := ⟨c, List.mem_cons_self .., hs⟩
  exact ⟨hknown, h.opened_good hordered hknown (.inl hs)⟩

/-- **When a program starts to run, all known routines are in order.** -/
theorem opened_lawful (h : Sound programs s) (hc : s.compile source = (.ok c, s₁)) (mode : Mode) :
    Lawful (Knows (c :: programs)) (s₁.opened mode c).setting.distances := by
  obtain ⟨hcompile, hs₁⟩ := compile_eq hc
  have hordered := compile_ordered hcompile
  change Lawful _ (s₁.opened mode c).distances
  rw [opened_distances, hs₁]
  refine ⟨(h.catalogue.add hordered).labelled, fun ctx r hr site hs => ?_⟩
  have hinner := Routine.inner ctx r
  obtain ⟨d, hd, hroutine⟩ := hr
  have hknown : Knows (c :: programs) site := ⟨d, hd, d.program.closed hroutine hs⟩
  refine ⟨hknown, ?_⟩
  -- The routine itself is a site with nothing to look up; the others stand inside it.
  obtain ⟨label, name, params, body, span⟩ := r
  rw [Routine.sites] at hs hinner
  rcases List.mem_cons.1 hs with rfl | hs
  · trivial
  · exact h.opened_good hordered hknown (.inr (hinner site hs))

/-- **When a program starts to run, all known sites inside routines are in order.** -/
theorem opened_inside (h : Sound programs s) (hc : s.compile source = (.ok c, s₁)) (mode : Mode)
    {site : Site} (hs : Knows (c :: programs) site) (hinside : site.ctx.inRoutine = true) :
    site.Good (s₁.opened mode c).setting.distances := by
  obtain ⟨hcompile, hs₁⟩ := compile_eq hc
  change site.Good (s₁.opened mode c).distances
  rw [opened_distances, hs₁]
  exact h.opened_good (compile_ordered hcompile) hs (.inr hinside)

/-- After the run of a program a session is sound, whatever the end. -/
theorem closed (h : Sound programs s) (hc : s.compile source = (.ok c, s₁)) {machine : Machine}
    {A : Atlas} {n : Machine} (hsim : Sim (Knows (c :: programs)) A machine n)
    (hscope : machine.scope = ⟨[0]⟩) :
    Sound (c :: programs) { s₁.opened mode c with machine := machine }.giveUp := by
  obtain ⟨hcompile, hs₁⟩ := compile_eq hc
  have hordered := compile_ordered hcompile
  have hcatalogue := h.catalogue.add hordered
  have hsupply : (s₁.opened mode c).supply = s₁.supply := opened_supply mode c s₁
  have hpending : s₁.pending = [] := by rw [hs₁]; exact h.pending
  have hdistances : (s₁.opened mode c).distances =
      insertAll s.distances (c.resolutions.map fun r => (r.id, r.distance)) := by
    rw [opened_distances, hs₁]
  constructor
  case catalogue =>
    change Catalogue (c :: programs) (s₁.opened mode c).supply
    rw [hsupply]
    exact hcatalogue
  case distances =>
    intro site hs hinside id name hr
    change ((s₁.opened mode c).pending.foldl (fun map id => map.erase id)
      (s₁.opened mode c).distances)[id]? = _
    rw [getElem?_eraseAll ?_, hdistances]
    · exact h.opened_distance hordered hs (.inr hinside) hr
    · intro hmem
      obtain ⟨r, hresolution, rfl, houtside⟩ := mem_opened_pending mode c s₁ hpending hmem
      -- What is given up stands outside of all routines, and this site does not.
      obtain ⟨hsite, -⟩ := hcatalogue.resolution_eq (List.mem_cons_self ..) hresolution hs hr
      obtain ⟨-, -, -, hroutine⟩ := Site.reference?_of_resolution? hsite
      rw [← hroutine, houtside] at hinside
      cases hinside
  case fresh =>
    intro id hid
    change (s₁.opened mode c).supply.expr ≤ id at hid
    rw [hsupply] at hid
    change ((s₁.opened mode c).pending.foldl (fun map id => map.erase id)
      (s₁.opened mode c).distances)[id]? = none
    refine getElem?_eraseAll_of_none ?_ _
    rw [hdistances, hordered.getElem?_insertAll_of_not_mem ?_]
    · exact h.fresh (Nat.le_trans hordered.references.le hid)
    · exact fun hmem => absurd hid (Nat.not_le.2 (hordered.references.bounds id hmem).2)
  case pending => rfl
  -- the other machine may stop anywhere; it starts again in the globals, with the same store
  case mirrored =>
    exact ⟨A, { n with scope := ⟨[0]⟩ },
      ⟨hsim.store, hsim.globals, hsim.depth, hsim.output, hsim.readings⟩, rfl⟩
  case scope => exact hscope

/-- When a program starts to run, the machine mirrors one that looks names up. -/
theorem opened_sim (h : Sound programs s) (hc : s.compile source = (.ok c, s₁)) (mode : Mode) :
    (s₁.opened mode c).machine.scope = ⟨[0]⟩ ∧
      ∃ A n, Sim (Knows (c :: programs)) A (s₁.opened mode c).machine n ∧ n.scope = ⟨[0]⟩ := by
  obtain ⟨A, n, hsim, hn⟩ := h.mirrored
  have hmachine : (s₁.opened mode c).machine = s.machine := by
    rw [opened_machine, (compile_eq hc).2]
  rw [hmachine]
  exact ⟨h.scope, A, n, hsim.known_mono (Knows.cons c), hn⟩

/-- **The run of a program in a sound session** matches one that looks names up. -/
theorem opened_match (h : Sound programs s) (hc : s.compile source = (.ok c, s₁)) (mode : Mode)
    (fuel : Nat) {A : Atlas} {n : Machine} (hsim : Sim (Knows programs) A s.machine n)
    (hn : n.scope = ⟨[0]⟩) :
    Match (Knows (c :: programs)) (some 0) A ⟨[0]⟩ (fun _ _ _ place => place = ⟨[0]⟩)
      (runDeclarations (s₁.opened mode c).setting fuel c.program.declarations
        (s₁.opened mode c).machine)
      (Lexical.runDeclarations s.clock fuel c.program.declarations n) := by
  have hmachine : (s₁.opened mode c).machine = s.machine := by
    rw [opened_machine, (compile_eq hc).2]
  have hclock : (s₁.opened mode c).setting.clock = s.clock := by
    change (s₁.opened mode c).clock = s.clock
    rw [opened_clock, (compile_eq hc).2]
  have hscope : (s₁.opened mode c).machine.scope = ⟨[0]⟩ := by rw [hmachine, h.scope]
  have hmatch := runDeclarations_match (h.opened_lawful hc mode) fuel
    (hmachine ▸ hsim.known_mono (Knows.cons c)) hscope hn (h.opened_fit hc mode)
  rw [hscope, hclock] at hmatch
  exact hmatch

/-- **A session is sound after each source**, and an error is never one of resolution. -/
theorem step (h : Sound programs s) {ending : Ending}
    (hstep : s.step mode fuel source = some (ending, s')) :
    Sound ((s.compile source).1.toOption.toList ++ programs) s' ∧
      ∀ e, ending = .failed e → e.fault.isInternal = false := by
  rcases hc : s.compile source with ⟨errors | c, s₁⟩
  · rw [step_of_error hc] at hstep
    cases hstep
    obtain ⟨hcompile, hs₁⟩ := compile_eq hc
    have hle := supply_compile source s.supply
    rw [hcompile] at hle
    rw [hs₁]
    exact ⟨h.supplied hle, nofun⟩
  · rw [step_of_ok hc] at hstep
    obtain ⟨A, n, hsim, hn⟩ := h.mirrored
    have hmatch := h.opened_match hc mode fuel hsim hn
    -- both ways of taking a source differ in what they keep, not in what they run
    generalize runDeclarations _ fuel _ _ = o at hstep hmatch
    generalize Lexical.runDeclarations _ fuel _ n = o' at hmatch
    cases hmatch with
    | done grows sim back post =>
        cases hstep
        exact ⟨h.closed hc sim back, nofun⟩
    | failed sim back fault =>
        cases hstep
        refine ⟨h.closed hc sim back, fun e he => ?_⟩
        cases he
        exact fault
    | starved => cases hstep

end Sound

/-- **Every session that can be reached is sound.** -/
theorem Reached.sound {output : Output} {clock : Nat → Float} {programs : List Compiled}
    {s : Session} (h : Reached output clock programs s) : Sound programs s := by
  induction h with
  | start supply => exact .start output clock supply
  | step reached hstep ih => exact (ih.step hstep).1

end Session

end Scriptlet
