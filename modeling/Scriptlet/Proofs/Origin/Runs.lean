/-
**The runs of a session, and what is made in them.**

A session that takes sources one after another runs those that compile, until one of them does not
come to its end.  Every moment of such a run is in an environment with a frame of its own, and where
declarations follow one another none of them declares a function with the label of another.  So all
that is made in the runs of a session, taken together, is fresh.

Main definitions:

* `Scriptlet.Run`, `Scriptlet.Session.runs` — **the runs of a session**;
* `Scriptlet.Session.history` — **all that is made in them**, in order;
* `Scriptlet.Run.Prepared` — a run that starts where the sites of known programs are in order;
* `Scriptlet.Run.Guarded` — runs in which a policy is guarded;
* `Scriptlet.Running` — **how the runs of a session follow one another**.

Main results:

* `Scriptlet.Run.Prepared.ready`, `Scriptlet.Run.Prepared.rooted` — what is true at the moments of
  a run;
* `Scriptlet.Run.Prepared.fresh` — what is made in a run is fresh;
* `Scriptlet.Session.Sound.running` — the runs of a sound session follow one another;
* `Scriptlet.Running.held`, `Scriptlet.Run.Guarded.passes` — **a policy that is guarded in all runs
  is kept at all moments of all runs**;
* `Scriptlet.Running.fresh` — what is made in runs that follow one another is fresh;
* `Scriptlet.Session.apart_history` — **all that is made in a session can be told apart**.
-/

import Scriptlet.Proofs.Control.Calls
import Scriptlet.Proofs.Origin.Fresh
import Scriptlet.Proofs.Session.Agreement
import Scriptlet.Proofs.Termination.Rank

set_option relaxedAutoImplicit false
set_option autoImplicit false

namespace Scriptlet

/-! ### Runs -/

/-- **A run of a program.** -/
structure Run where
  /-- What the run consults. -/
  setting : Setting
  /-- The fuel it has. -/
  fuel : Nat
  /-- The program. -/
  compiled : Compiled
  /-- The machine it starts on. -/
  machine : Machine

namespace Run

/-- How a run ends. -/
def outcome (run : Run) : Outcome Unit :=
  runDeclarations run.setting run.fuel run.compiled.program.declarations run.machine

/-- The moments at which the declarations of the program are executed. -/
def tops (run : Run) : List Moment :=
  topMoments run.setting run.fuel run.compiled.program.declarations run.machine

/-- A moment through which a run passes. -/
def Passes (run : Run) (k : Moment) : Prop :=
  Occurs run.setting run.fuel run.compiled.program.declarations run.machine k

/-- A run passes through the moments at which its declarations are executed. -/
theorem passes_of_mem_tops {run : Run} {top : Moment} (h : top ∈ run.tops) : run.Passes top :=
  ⟨top, h, .refl⟩

/-- A run passes through the moments of the parts of its tasks. -/
theorem Passes.next {run : Run} {k l : Moment} (h : run.Passes k)
    (hl : l ∈ k.next run.setting) : run.Passes l := by
  obtain ⟨top, htop, hleads⟩ := h
  exact ⟨top, htop, hleads.tail hl⟩

/-- What is made in a run. -/
def makings (run : Run) : List Making :=
  allMakes run.setting run.fuel run.compiled.program.declarations run.machine

/-- The labels of the functions that the program declares in the globals. -/
def labels (run : Run) : List Nat := run.compiled.program.declarations.filterMap Decl.label?

end Run

namespace Session

/-- The run of a program that has been compiled. -/
def ran (mode : Mode) (fuel : Nat) (c : Compiled) (s : Session) : Run :=
  ⟨(s.opened mode c).setting, fuel, c, (s.opened mode c).machine⟩

/-- **The runs of a session** that takes sources one after another.  Behind a run that does not come
to its end there is no other. -/
def runs (fuel : Nat) : List (Mode × String) → Session → List Run
  | [], _ => []
  | (mode, source) :: steps, s =>
      (match s.compile source with
        | (.ok c, s₁) => [s₁.ran mode fuel c]
        | (.error _, _) => []) ++
      match s.step mode fuel source with
      | some (_, s') => runs fuel steps s'
      | none => []

/-- **All that is made in the runs of a session**, in order. -/
def history (fuel : Nat) (steps : List (Mode × String)) (s : Session) : List Making :=
  (s.runs fuel steps).flatMap Run.makings

/-- **All that is made in the runs is made at their moments.** -/
theorem mem_history {fuel : Nat} {steps : List (Mode × String)} {s : Session} {e : Making} :
    e ∈ s.history fuel steps ↔ ∃ run ∈ s.runs fuel steps, run.Passes e.moment ∧
      ∃ left, e.moment.fuel = left + 1 ∧
        e.value ∈ e.moment.task.made run.setting left e.moment.machine := by
  rw [history, List.mem_flatMap]
  exact exists_congr fun run => and_congr_right fun _ => mem_allMakes

section Steps

variable {s s₁ : Session} {source : String} (fuel : Nat) (mode : Mode)
  (steps : List (Mode × String))

/-- A source that does not compile is not run. -/
theorem runs_cons_of_error {errors : List CompileError}
    (h : s.compile source = (.error errors, s₁)) :
    s.runs fuel ((mode, source) :: steps) = s₁.runs fuel steps := by
  simp only [runs, h, step_of_error h, List.nil_append]

/-- A source that compiles is run, and the sources behind it are taken if the run comes to its
end. -/
theorem runs_cons_of_ok {c : Compiled} (h : s.compile source = (.ok c, s₁)) :
    s.runs fuel ((mode, source) :: steps) = [s₁.ran mode fuel c] ∨
    ∃ m, (s₁.ran mode fuel c).outcome.store? = some m.store ∧
      (∃ ending, s.step mode fuel source =
        some (ending, { s₁.opened mode c with machine := m }.giveUp)) ∧
      s.runs fuel ((mode, source) :: steps) =
        s₁.ran mode fuel c :: ({ s₁.opened mode c with machine := m }.giveUp).runs fuel steps := by
  have hstep := @step_of_ok s s₁ source c mode fuel h
  have houtcome : (s₁.ran mode fuel c).outcome = runDeclarations (s₁.opened mode c).setting fuel
      c.program.declarations (s₁.opened mode c).machine := rfl
  rw [houtcome]
  cases hrun : runDeclarations (s₁.opened mode c).setting fuel c.program.declarations
      (s₁.opened mode c).machine with
  | done a m =>
      rw [hrun] at hstep
      refine .inr ⟨m, rfl, ⟨_, hstep⟩, ?_⟩
      simp only [runs, h, hstep, List.singleton_append]
  | failed e m =>
      rw [hrun] at hstep
      refine .inr ⟨m, rfl, ⟨_, hstep⟩, ?_⟩
      simp only [runs, h, hstep, List.singleton_append]
  | starved =>
      rw [hrun] at hstep
      refine .inl ?_
      simp only [runs, h, hstep, List.append_nil]

end Steps

end Session

/-! ### Runs that are prepared -/

/-- **A run that starts where the sites of the known programs are in order**, and on a machine that
stands in the globals. -/
structure Run.Prepared (programs : List Compiled) (run : Run) : Prop where
  lawful : Lawful (Knows programs) run.setting.distances
  fit : Fit (Knows programs) run.setting.distances run.compiled.program.sites
  inside : ∀ ⦃site⦄, Knows programs site → site.ctx.inRoutine = true →
    site.Good run.setting.distances
  mirrored : ∃ A n, Sim (Knows programs) A run.machine n ∧ n.scope = ⟨[0]⟩
  scope : run.machine.scope = ⟨[0]⟩
  nodup : (routineLabels run.compiled.program.sites).Nodup

namespace Run.Prepared

variable {programs : List Compiled} {run : Run} {k : Moment}

/-- Every moment of a run is where resolution says. -/
theorem ready (h : run.Prepared programs) (hk : run.Passes k) :
    ∃ P, Ready (Knows programs) run.setting P k.task k.machine := by
  obtain ⟨top, htop, hleads⟩ := hk
  obtain ⟨A, n, hsim, hn⟩ := h.mirrored
  exact ⟨_, (ready_of_mem_topMoments h.lawful hsim h.scope hn h.fit htop).leads h.lawful hleads⟩

end Run.Prepared

/-! ### Declarations side by side -/

section Labels

variable {K : Known} {ctx : Context} {ds : List Decl} {label : Nat}

/-- How many names the innermost scope has declared. -/
def Context.width (ctx : Context) : Nat := (ctx.rows.headD []).length

theorem Context.width_define (h : ctx.rows ≠ []) (name : String) :
    (ctx.define name).width = ctx.width + 1 := by
  unfold width
  rw [rows_define]
  cases hrows : ctx.rows with
  | nil => exact absurd hrows h
  | cons row rows => rfl

theorem Context.rows_after_ne_nil (h : ctx.rows ≠ []) (d : Decl) : (d.after ctx).rows ≠ [] := by
  rw [← List.isEmpty_eq_false_iff, isEmpty_rows_after]
  exact List.isEmpty_eq_false_iff.2 h

theorem Context.width_le_after (h : ctx.rows ≠ []) (d : Decl) :
    ctx.width ≤ (d.after ctx).width := by
  cases d with
  | statement stmt => exact Nat.le_refl _
  | _ => exact Nat.le_of_lt (Nat.lt_of_lt_of_eq (Nat.lt_succ_self _) (width_define h _).symm)

/-- A function that is declared in a scope stands behind more names than the declarations start
with. -/
theorem Decl.exists_routine_of_label (hrows : ctx.rows ≠ [])
    (h : label ∈ ds.filterMap Decl.label?) :
    ∃ ctx' r, ⟨ctx', .routine r⟩ ∈ Decl.allSites ctx ds ∧ r.label = label ∧
      ctx.width < ctx'.width := by
  induction ds generalizing ctx with
  | nil => cases h
  | cons d ds ih =>
      rw [Decl.allSites]
      obtain ⟨d', hd', hlabel⟩ := List.mem_filterMap.1 h
      rcases List.mem_cons.1 hd' with rfl | hlater
      · cases d' with
        | funDecl routine span =>
            cases hlabel
            obtain ⟨label, name, params, body, rspan⟩ := routine
            refine ⟨_, _, List.mem_append_left _ (.tail _ (List.mem_cons_self ..)), rfl, ?_⟩
            rw [Context.width_define hrows]
            exact Nat.lt_succ_self _
        | _ => cases hlabel
      · obtain ⟨ctx', r, hsite, hr, hlt⟩ := ih (Context.rows_after_ne_nil hrows d)
          (List.mem_filterMap.2 ⟨d', hlater, hlabel⟩)
        exact ⟨ctx', r, List.mem_append_right _ hsite, hr,
          Nat.lt_of_le_of_lt (Context.width_le_after hrows d) hlt⟩

/-- **In a scope no two functions are declared with the same label**: each of them stands behind
more names than the one before. -/
theorem Decl.labels_nodup (hK : K.Labelled) (hrows : ctx.rows ≠ [])
    (hknown : ∀ site ∈ Decl.allSites ctx ds, K site) : (ds.filterMap Decl.label?).Nodup := by
  induction ds generalizing ctx with
  | nil => exact .nil
  | cons d ds ih =>
      rw [Decl.allSites] at hknown
      obtain ⟨hd, hds⟩ := List.forall_mem_append.1 hknown
      have hrest := ih (Context.rows_after_ne_nil hrows d) hds
      cases d with
      | funDecl routine span =>
          refine List.nodup_cons.2 ⟨fun hmem => ?_, hrest⟩
          obtain ⟨ctx', r, hsite, hlabel, hlt⟩ :=
            exists_routine_of_label (Context.rows_after_ne_nil hrows (.funDecl routine span)) hmem
          obtain ⟨label, name, params, body, rspan⟩ := routine
          have heq := (hK (hds _ hsite) (hd _ (.tail _ (List.mem_cons_self ..))) hlabel).1
          rw [heq] at hlt
          exact absurd hlt (Nat.lt_irrefl _)
      | _ => exact hrest

/-- The functions that declarations declare are among the routines of their sites. -/
theorem Decl.labels_sublist (ctx : Context) (ds : List Decl) :
    (ds.filterMap Decl.label?).Sublist (routineLabels (Decl.allSites ctx ds)) := by
  induction ds generalizing ctx with
  | nil => exact .refl _
  | cons d ds ih =>
      rw [Decl.allSites, routineLabels_append]
      cases d with
      | funDecl routine span =>
          obtain ⟨label, name, params, body, rspan⟩ := routine
          exact .cons_cons _ ((ih _).trans (List.sublist_append_right ..))
      | _ => exact (ih _).trans (List.sublist_append_right ..)

/-- A task that is ready declares no two functions with the same label. -/
theorem Ready.labels_nodup {setting : Setting} {P : String → Environment → Prop} {t : Task}
    {m : Machine} (hK : K.Labelled) (h : Ready K setting P t m) : t.labels.Nodup := by
  cases h with
  | @execute _ _ d _ _ sim stands fit => exact d.label?.toList_nodup
  | executeAll sim stands rows fit =>
      exact Decl.labels_nodup hK rows fun site hsite => (fit site hsite).1
  | consult task consulted =>
      cases t with
      | lookUp mark name => exact .nil
      | assign mark name v => exact .nil
      | superMethod mark method => exact .nil
      | _ => cases task
  | _ => exact .nil

end Labels

/-! ### Environments with a frame of their own -/

section Rooted

variable {setting : Setting} {fuel : Nat} {m : Machine} {t : Task}

/-- An environment in front of which a frame is put. -/
theorem Environment.rootedIn_child (s : Store) (e : Environment) :
    (s.child e).1.RootedIn (s.child e).2 := by
  refine ⟨_, _, rfl, ?_⟩
  rw [Store.size_child]
  exact Nat.lt_succ_self _

/-- **The parts of a task are in environments with frames of their own**, if the task is. -/
theorem Task.rooted_of_part {part : Task × Machine} (h : part ∈ t.parts setting fuel m)
    (hrooted : m.scope.RootedIn m.store) : part.2.scope.RootedIn part.2.store := by
  have hle := ((t.sequence setting fuel m).of_mem h).1.toLe
  have hsame : part.2.scope = m.scope → part.2.scope.RootedIn part.2.store := fun heq =>
    heq ▸ hrooted.of_le hle
  have hstands := stands_of_part h
  generalize hu : part.1 = u, he : part.2.scope = environment at hstands
  cases hstands with
  | inner _ => exact he ▸ hsame he
  | deed _ => exact he ▸ hsame he
  | assign _ _ _ _ => exact he ▸ hsame he
  | block body span =>
      rw [← he, List.mem_singleton.1 h]
      exact Environment.rootedIn_child m.store m.scope
  | routine f arguments site =>
      change part ∈ f.parts m arguments at h
      unfold Closure.parts at h
      split at h
      · cases h
      · obtain ⟨a, m₁, hbind, hpart⟩ := Outcome.mem_after.1 h
        have hends : Policy.free.Ends (m.store.child f.environment).2 (fun _ => True)
            (Action.bindArguments f.routine.params arguments
              ({ m with depth := m.depth + 1 }.entering f.environment)) :=
          .bindArguments (Policy.held_free _) (fun _ _ => trivial) fun _ _ => trivial
        rw [hbind] at hends
        rw [← he, List.mem_singleton.1 hpart]
        have hscope := Action.Restores.bindArguments f.routine.params arguments
          ({ m with depth := m.depth + 1 }.entering f.environment)
        rw [hbind] at hscope
        change m₁.scope.RootedIn m₁.store
        rw [hscope.scope]
        exact (Environment.rootedIn_child m.store f.environment).of_le hends.1.toLe

/-- Moments to which a moment leads are in environments with frames of their own, if it is. -/
theorem Moment.rooted_of_leads {start k : Moment} (hk : start.Leads setting k)
    (h : start.machine.scope.RootedIn start.machine.store) :
    k.machine.scope.RootedIn k.machine.store := by
  induction hk with
  | refl => exact h
  | tail _ hl ih =>
      obtain ⟨fuel', -, -, hpart⟩ := Moment.mem_next.1 hl
      exact Task.rooted_of_part hpart ih

end Rooted

/-! ### What is made in a run -/

namespace Run.Prepared

variable {programs : List Compiled} {run : Run} {k : Moment}

/-- The declarations of a program are executed in the globals. -/
theorem of_mem_tops (h : run.Prepared programs) (hk : k ∈ run.tops) :
    k.machine.scope = ⟨[0]⟩ ∧ k.fuel = run.fuel := by
  obtain ⟨d, -, -, hfuel⟩ := of_mem_topMoments hk
  exact ⟨(level_of_mem_topMoments hk).scope.trans h.scope, hfuel⟩

end Run.Prepared

/-- The declarations that are executed are among those of the program. -/
theorem labels_topMoments (setting : Setting) (fuel : Nat) (ds : List Decl) (m : Machine) :
    (((topMoments setting fuel ds m).map Moment.part).flatMap fun part => part.1.labels).Sublist
      (ds.filterMap Decl.label?) := by
  induction ds generalizing m with
  | nil => exact .refl _
  | cons d ds ih =>
      have hlabels : (d :: ds).filterMap Decl.label? =
          (Task.execute d).labels ++ ds.filterMap Decl.label? := by
        rw [List.filterMap_cons]
        change _ = d.label?.toList ++ _
        cases d.label? <;> rfl
      rw [topMoments, List.map_cons, List.flatMap_cons, hlabels]
      refine List.Sublist.append_left ?_ _
      cases execute setting fuel d m with
      | done c m₁ =>
          cases c with
          | normal => exact ih m₁
          | returned v => exact List.nil_sublist _
      | failed e m₁ => exact List.nil_sublist _
      | starved => exact List.nil_sublist _

/-- The declarations of a program follow one another. -/
theorem Run.sequence (run : Run) : Sequence .free run.setting run.fuel run.machine.store
    (run.tops.map Moment.part) run.outcome.store? :=
  ((Policy.guards_free run.setting).run (Policy.held_free _) _ fun _ _ _ => trivial).1

namespace Run.Prepared

variable {programs : List Compiled} {run : Run} {k : Moment}

/-- **Every moment of a run is in an environment with a frame of its own**, at declarations of which
none stands twice. -/
theorem rooted (h : run.Prepared programs)
    (hglobals : (⟨[0]⟩ : Environment).RootedIn run.machine.store) (hk : run.Passes k) :
    k.Rooted := by
  obtain ⟨P, hready⟩ := h.ready hk
  refine ⟨?_, hready.labels_nodup h.lawful.labelled⟩
  obtain ⟨top, htop, hleads⟩ := hk
  refine Moment.rooted_of_leads hleads ?_
  rw [(h.of_mem_tops htop).1]
  exact hglobals.of_le (run.sequence.of_mem (List.mem_map_of_mem htop)).1.toLe

/-- What a run makes is what its declarations make, one after another. -/
theorem makings_eq (h : run.Prepared programs) :
    run.makings = partsMake run.setting run.fuel (run.tops.map Moment.part) := by
  rw [partsMake, List.flatMap_map]
  refine List.flatMap_congr fun top htop => ?_
  rw [(h.of_mem_tops htop).2]
  rfl

/-- **What is made in a run is fresh.** -/
theorem fresh (h : run.Prepared programs)
    (hglobals : (⟨[0]⟩ : Environment).RootedIn run.machine.store) :
    Fresh run.machine.store ⟨[0]⟩ run.labels run.outcome.store? run.makings := by
  have hsublist : ((run.tops.map Moment.part).flatMap fun part => part.1.labels).Sublist
    run.labels := labels_topMoments ..
  have hnodup : run.labels.Nodup := (Decl.labels_sublist .global _).nodup h.nodup
  rw [h.makings_eq]
  refine (run.sequence.fresh (fun part => part.1.labels) (fun part hpart => ?_)
    (hsublist.nodup hnodup) hglobals).mono hsublist.subset
  obtain ⟨top, htop, rfl⟩ := List.mem_map.1 hpart
  obtain ⟨hscope, hfuel⟩ := h.of_mem_tops htop
  have htask : Fresh top.machine.store top.machine.scope top.task.labels
      (top.task.outcome run.setting top.fuel top.machine).store?
      (top.task.makes run.setting top.fuel top.machine) :=
    top.task.fresh fun k hk => h.rooted hglobals ⟨top, htop, hk⟩
  rw [hscope, hfuel] at htask
  exact htask

end Run.Prepared

/-! ### Policies in a run -/

/-- **A run in which a policy is guarded.** -/
structure Run.Guarded (P : Policy) (G : Moment → Prop) (run : Run) : Prop where
  guards : P.Guards run.setting G
  tops : ∀ top ∈ run.tops, P.Held top.machine.store → G top

namespace Run.Guarded

variable {P : Policy} {G : Moment → Prop} {run : Run} {k : Moment}

/-- A run keeps a policy that is guarded. -/
theorem ends (h : run.Guarded P G) (hm : P.Held run.machine.store) :
    P.Ends run.machine.store (fun _ => True) run.outcome := (h.guards.run hm _ h.tops).2

/-- **At all moments of a run what guards a policy is known, and the policy is kept.** -/
theorem passes (h : run.Guarded P G) (hm : P.Held run.machine.store) (hk : run.Passes k) :
    G k ∧ P.Held k.machine.store ∧ ∀ v ∈ k.task.operands, P.value v := by
  obtain ⟨top, htop, hleads⟩ := hk
  have hheld : P.Held top.machine.store :=
    ((h.guards.run hm _ h.tops).1.of_mem (List.mem_map_of_mem htop)).2.1
  obtain ⟨d, -, htask, -⟩ := of_mem_topMoments htop
  exact h.guards.leads hleads (h.tops top htop hheld) hheld (htask ▸ nofun)

end Run.Guarded

/-! ### How runs follow one another -/

/-- **A run that starts in a session**, to which programs are known; the numbers of its own program
have been taken from the supply. -/
structure Run.Starts (programs : List Compiled) (s : Session) (supply : Supply) (run : Run) :
    Prop where
  prepared : run.Prepared (run.compiled :: programs)
  machine : run.machine = s.machine
  ordered : run.compiled.Ordered s.supply supply

/-- **How the runs of a session follow one another.** -/
inductive Running : List Compiled → Session → List Run → Prop
  | nil {programs : List Compiled} {s : Session} : Running programs s []
  | supplied {programs : List Compiled} {s s' : Session} {runs : List Run}
      (machine : s'.machine = s.machine) (le : s.supply.Le s'.supply)
      (rest : Running programs s' runs) : Running programs s runs
  | last {programs : List Compiled} {s : Session} {supply : Supply} {run : Run}
      (starts : run.Starts programs s supply) : Running programs s [run]
  | ran {programs : List Compiled} {s s' : Session} {run : Run} {runs : List Run}
      (starts : run.Starts programs s s'.supply)
      (left : run.outcome.store? = some s'.machine.store)
      (rest : Running (run.compiled :: programs) s' runs) : Running programs s (run :: runs)

namespace Session

/-- **The runs of a sound session follow one another.** -/
theorem Sound.running {programs : List Compiled} {s : Session} (h : Sound programs s) (fuel : Nat)
    (steps : List (Mode × String)) : Running programs s (s.runs fuel steps) := by
  induction steps generalizing programs s with
  | nil => exact .nil
  | cons step steps ih =>
      obtain ⟨mode, source⟩ := step
      rcases hc : s.compile source with ⟨errors | c, s₁⟩
      all_goals obtain ⟨hcompile, hs₁⟩ := compile_eq hc
      · have hle := supply_compile source s.supply
        rw [hcompile] at hle
        have hsound := h.supplied hle
        rw [← hs₁] at hsound
        rw [runs_cons_of_error fuel mode steps hc]
        exact .supplied (by rw [hs₁]) hle (ih hsound)
      · have hstarts : (s₁.ran mode fuel c).Starts programs s s₁.supply :=
          { prepared :=
              { lawful := h.opened_lawful hc mode
                fit := h.opened_fit hc mode
                inside := fun _ hs hinside => h.opened_inside hc mode hs hinside
                mirrored := (h.opened_sim hc mode).2
                scope := (h.opened_sim hc mode).1
                nodup := (compile_ordered hcompile).routines.nodup }
            machine := (opened_machine mode c s₁).trans (by rw [hs₁])
            ordered := compile_ordered hcompile }
        rcases runs_cons_of_ok fuel mode steps hc with
          hruns | ⟨m, hleft, ⟨ending, hstep⟩, hruns⟩
        · rw [hruns]
          exact .last hstarts
        · have hsound := (h.step hstep).1
          rw [hc] at hsound
          have hsupply : ({ s₁.opened mode c with machine := m }.giveUp).supply = s₁.supply :=
            opened_supply mode c s₁
          rw [hruns]
          exact .ran (hsupply ▸ hstarts) hleft (ih hsound)

end Session

theorem Catalogue.of_subset {programs programs' : List Compiled} {s : Supply}
    (h : Catalogue programs s) (hsubset : programs' ⊆ programs) : Catalogue programs' s where
  ordered c hc := h.ordered c (hsubset hc)
  unique _ _ hs hs' := h.unique (hs.mono hsubset) (hs'.mono hsubset)
  labelled _ _ _ _ hr hr' := h.labelled (hr.mono hsubset) (hr'.mono hsubset)

namespace Running

variable {programs : List Compiled} {s : Session} {runs : List Run} {P : Policy}

/-- **Each of the runs is prepared**, with programs that are run or were known before. -/
theorem prepared (h : Running programs s runs) {run : Run} (hrun : run ∈ runs) :
    ∃ known ⊆ runs.map Run.compiled ++ programs, run.Prepared known := by
  induction h with
  | nil => cases hrun
  | supplied _ _ _ ih => exact ih hrun
  | last starts =>
      obtain rfl := List.mem_singleton.1 hrun
      exact ⟨_, List.Subset.refl _, starts.prepared⟩
  | ran starts _ _ ih =>
      rcases List.mem_cons.1 hrun with rfl | hrun
      · exact ⟨_, List.cons_subset_cons _ (List.subset_append_right ..), starts.prepared⟩
      · obtain ⟨known, hsubset, hprepared⟩ := ih hrun
        exact ⟨known, List.Subset.trans hsubset List.perm_middle.subset, hprepared⟩

/-- **The programs that are run have numbers of their own.** -/
theorem catalogue (h : Running programs s runs) (hs : Catalogue programs s.supply) :
    ∃ supply, Catalogue (runs.map Run.compiled ++ programs) supply := by
  induction h with
  | nil => exact ⟨_, hs⟩
  | supplied _ le _ ih => exact ih (hs.mono le)
  | last starts => exact ⟨_, hs.add starts.ordered⟩
  | ran starts _ _ ih =>
      obtain ⟨supply, hcatalogue⟩ := ih (hs.add starts.ordered)
      exact ⟨supply, hcatalogue.of_subset List.perm_middle.symm.subset⟩

/-- **A policy that is guarded in all runs is kept when they start.** -/
theorem held (h : Running programs s runs) (hs : P.Held s.machine.store) {G : Run → Moment → Prop}
    (hguarded : ∀ run ∈ runs, run.Guarded P (G run)) :
    ∀ run ∈ runs, P.Held run.machine.store := by
  induction h with
  | nil => exact fun run hrun => absurd hrun List.not_mem_nil
  | supplied machine _ _ ih => exact ih (machine ▸ hs) hguarded
  | last starts => exact List.forall_mem_singleton.2 (starts.machine ▸ hs)
  | ran starts left _ ih =>
      obtain ⟨hfirst, hrest⟩ := List.forall_mem_cons.1 hguarded
      have hstart := starts.machine ▸ hs
      exact List.forall_mem_cons.2 ⟨hstart, ih ((hfirst.ends hstart).held _ left) hrest⟩

/-- **All that is made in runs that follow one another is fresh.** -/
theorem fresh (h : Running programs s runs)
    (hglobals : (⟨[0]⟩ : Environment).RootedIn s.machine.store) :
    ∃ labels, (∀ label ∈ labels, s.supply.routine ≤ label) ∧
      Fresh s.machine.store ⟨[0]⟩ labels none (runs.flatMap Run.makings) := by
  -- the labels of a program are below those of all programs that are compiled later
  have hbounds : ∀ {programs s supply} {run : Run}, run.Starts programs s supply →
      ∀ label ∈ run.labels, s.supply.routine ≤ label ∧ label < supply.routine :=
    fun hstarts label hlabel =>
      hstarts.ordered.routines.bounds label ((Decl.labels_sublist .global _).subset hlabel)
  induction h with
  | nil => exact ⟨[], nofun, .nil⟩
  | supplied machine le _ ih =>
      obtain ⟨labels, hlabels, hfresh⟩ := ih (machine ▸ hglobals)
      exact ⟨labels, fun label hlabel => Nat.le_trans le.routine (hlabels label hlabel),
        machine ▸ hfresh⟩
  | @last programs s supply run starts =>
      have hfirst := starts.prepared.fresh (starts.machine ▸ hglobals)
      rw [List.flatMap_singleton, ← starts.machine]
      exact ⟨run.labels, fun label hlabel => (hbounds starts label hlabel).1,
        hfirst.apart, hfirst.since, nofun⟩
  | @ran programs s s' run runs starts left rest ih =>
      have hfirst := starts.prepared.fresh (starts.machine ▸ hglobals)
      have hle := run.sequence.larger _ left
      rw [starts.machine] at hle hfirst
      rw [left] at hfirst
      obtain ⟨labels, hlabels, hrest⟩ := ih (hglobals.of_le hle)
      have hdisjoint : run.labels.Disjoint labels := fun label hlabel hlater =>
        absurd (hbounds starts label hlabel).2 (Nat.not_lt.2 (hlabels label hlater))
      refine ⟨run.labels ++ labels, fun label hlabel => ?_,
        hfirst.append hrest hle nofun hglobals hdisjoint⟩
      rcases List.mem_append.1 hlabel with hlabel | hlater
      · exact (hbounds starts label hlabel).1
      · exact Nat.le_trans starts.ordered.routines.le (hlabels label hlater)

end Running

/-! ### The start of a session -/

/-- At the start only the native functions are bound. -/
theorem Policy.held_initial (P : Policy) (hclock : P.name "clock") (output : Output) :
    P.Held (Machine.initial output).store := by
  refine ⟨fun a x v hv => ?_, fun i x v hv => ?_⟩
  · rw [get?_frame_initial] at hv
    split at hv
    · rename_i hx
      cases hv
      rw [hx.2]
      exact P.binds _ _ _ hclock (P.plain _ id)
    · cases hv
  · have hnone : ((Machine.initial output).store.fields i).get? x = none := rfl
    rw [hnone] at hv
    cases hv

namespace Session

variable (output : Output) (clock : Nat → Float) (fuel : Nat) (steps : List (Mode × String))

/-- The runs of a session follow one another from the start. -/
theorem running_start : Running [] (start output clock) ((start output clock).runs fuel steps) :=
  (Sound.start output clock .full).running fuel steps

/-- **What guards a policy in all runs of a session is known at all their moments, and the policy is
kept.** -/
theorem passes_of_guarded {P : Policy} (hclock : P.name "clock") {G : Run → Moment → Prop}
    (hguarded : ∀ run ∈ (start output clock).runs fuel steps, run.Guarded P (G run)) {run : Run}
    (hrun : run ∈ (start output clock).runs fuel steps) {k : Moment} (hk : run.Passes k) :
    G run k ∧ P.Held k.machine.store ∧ ∀ v ∈ k.task.operands, P.value v :=
  (hguarded run hrun).passes ((running_start output clock fuel steps).held
    (P.held_initial hclock output) hguarded run hrun) hk

/-- **All that is made in a session can be told apart.** -/
theorem apart_history : ((start output clock).history fuel steps).Pairwise Making.Apart := by
  have hglobals : (⟨[0]⟩ : Environment).RootedIn (start output clock).machine.store :=
    ⟨0, [], rfl, Nat.zero_lt_one⟩
  obtain ⟨labels, -, hfresh⟩ := (running_start output clock fuel steps).fresh hglobals
  exact hfresh.apart

end Session

end Scriptlet
