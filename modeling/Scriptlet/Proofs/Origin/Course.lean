/-
**The stores of a session come one after another.**

A task starts on a store, its parts go on from there one after another, and what the last of them
has left the task leaves.  So of any two stores that come up in the course of a task, or of a run,
or of all the runs of a session, one has grown out of the other.  What a name that may not be
written is bound to in a frame is therefore the same in all stores in which it is bound.

Main definitions:

* `Scriptlet.Moment.Shows`, `Scriptlet.Moment.Visits`, `Scriptlet.Run.Visits` — the stores at a
  moment, in the course of a task and of a run;
* `Scriptlet.Policy.Course` — **stores of which one has grown out of the other**.

Main results:

* `Scriptlet.Policy.Course.append` — courses that follow one another;
* `Scriptlet.Policy.Guards.course`, `Scriptlet.Run.Guarded.course`, `Scriptlet.Running.course` —
  **the stores of a task, of a run and of a session come one after another**;
* `Scriptlet.Policy.Course.unique` — **what may not be written does not change**.
-/

import Scriptlet.Proofs.Origin.Runs

set_option relaxedAutoImplicit false
set_option autoImplicit false

namespace Scriptlet

/-! ### The stores of moments -/

namespace Moment

variable {setting : Setting} {k : Moment} {s : Store}

/-- The stores at a moment: that on which its task starts, and the one that it leaves. -/
def Shows (setting : Setting) (k : Moment) (s : Store) : Prop :=
  s = k.machine.store ∨ (k.task.outcome setting k.fuel k.machine).store? = some s

/-- The stores that come up in the course of a task. -/
def Visits (setting : Setting) (k : Moment) (s : Store) : Prop :=
  ∃ l, k.Leads setting l ∧ l.Shows setting s

/-- What comes up in the course of a task is there at its start or its end, or comes up in the
course of a part. -/
theorem Visits.cases (h : k.Visits setting s) :
    k.Shows setting s ∨ ∃ l ∈ k.next setting, l.Visits setting s := by
  obtain ⟨l, hl, hs⟩ := h
  rcases Relation.ReflTransGen.cases_head hl with rfl | ⟨first, hfirst, hrest⟩
  · exact .inl hs
  · exact .inr ⟨first, hfirst, l, hrest, hs⟩

end Moment

/-- The stores that come up in a run. -/
def Run.Visits (run : Run) (s : Store) : Prop :=
  ∃ k, run.Passes k ∧ k.Shows run.setting s

/-! ### Courses -/

/-- **Stores of which one has grown out of the other**, between two stores of which the second may
be missing. -/
structure Policy.Course (P : Policy) (s : Store) (left : Option Store) (V : Store → Prop) :
    Prop where
  since : ∀ ⦃t⦄, V t → P.Le s t
  before : ∀ ⦃t⦄, V t → ∀ s' ∈ left, P.Le t s'
  chain : ∀ ⦃t t'⦄, V t → V t' → P.Le t t' ∨ P.Le t' t

namespace Policy.Course

variable {P : Policy} {s s₁ : Store} {left : Option Store} {V V' : Store → Prop}

theorem empty (P : Policy) (s : Store) (left : Option Store) : P.Course s left fun _ => False :=
  ⟨nofun, nofun, nofun⟩

theorem imp (h : P.Course s left V) (hV : ∀ t, V' t → V t) : P.Course s left V' :=
  ⟨fun t ht => h.since (hV t ht), fun t ht => h.before (hV t ht),
    fun t t' ht ht' => h.chain (hV t ht) (hV t' ht')⟩

theorem of_le (h : P.Course s₁ left V) (hle : P.Le s s₁) : P.Course s left V :=
  ⟨fun _ ht => hle.trans (h.since ht), h.before, h.chain⟩

/-- **Courses that follow one another.** -/
theorem append (h : P.Course s (some s₁) V) (h' : P.Course s₁ left V') (hle : P.Le s s₁)
    (hleft : ∀ s' ∈ left, P.Le s₁ s') : P.Course s left fun t => V t ∨ V' t := by
  have hbefore : ∀ ⦃t⦄, V t → P.Le t s₁ := fun t ht => h.before ht s₁ rfl
  refine ⟨fun t ht => ?_, fun t ht s' hs' => ?_, fun t t' ht ht' => ?_⟩
  · rcases ht with ht | ht
    · exact h.since ht
    · exact hle.trans (h'.since ht)
  · rcases ht with ht | ht
    · exact (hbefore ht).trans (hleft s' hs')
    · exact h'.before ht s' hs'
  · rcases ht with ht | ht
    · rcases ht' with ht' | ht'
      · exact h.chain ht ht'
      · exact .inl ((hbefore ht).trans (h'.since ht'))
    · rcases ht' with ht' | ht'
      · exact .inr ((hbefore ht').trans (h'.since ht))
      · exact h'.chain ht ht'

theorem single (P : Policy) (s : Store) : P.Course s (some s) fun t => t = s := by
  refine ⟨fun t ht => ?_, fun t ht s' hs' => ?_, fun t t' ht ht' => ?_⟩
  · cases ht
    exact P.le_refl s
  · cases ht
    cases hs'
    exact P.le_refl s
  · cases ht
    cases ht'
    exact .inl (P.le_refl s)

/-- A course of which the end is of no concern. -/
theorem open_end (h : P.Course s left V) : P.Course s none V := ⟨h.since, nofun, h.chain⟩

/-- A course together with its start and its end. -/
theorem closed (h : P.Course s left V) (hleft : ∀ s' ∈ left, P.Le s s') :
    P.Course s left fun t => (t = s ∨ left = some t) ∨ V t := by
  have hstart := single P s
  cases left with
  | none =>
      refine (hstart.append h (P.le_refl s) nofun).imp fun t ht => ?_
      rcases ht with (ht | ht) | ht
      · exact .inl ht
      · cases ht
      · exact .inr ht
  | some s₁ =>
      have hlast : ∀ s' ∈ some s₁, P.Le s₁ s' := fun s' hs' => by
        cases hs'
        exact P.le_refl s₁
      have hend := h.append (single P s₁) (hleft s₁ rfl) hlast
      refine (hstart.append hend (P.le_refl s) hleft).imp fun t ht => ?_
      rcases ht with (ht | ht) | ht
      · exact .inl ht
      · exact .inr (.inr (Option.some.inj ht).symm)
      · exact .inr (.inl ht)

/-- **What a name that may not be written is bound to is the same in all stores of a course.** -/
theorem unique (h : P.Course s left V) {a : FrameId} {x : String} (hx : ¬P.name x)
    {t t' : Store} (ht : V t) (ht' : V t') {v w : Value} (hv : (t.frame a).get? x = some v)
    (hw : (t'.frame a).get? x = some w) : v = w := by
  rcases h.chain ht ht' with hle | hle
  · exact Option.some.inj ((hle.keeps hx hv).symm.trans hw)
  · exact Option.some.inj (hv.symm.trans (hle.keeps hx hw))

end Policy.Course

/-! ### The courses of tasks and runs -/

section Tasks

variable {P : Policy} {setting : Setting} {G : Moment → Prop} {fuel : Nat} {m : Machine} {t : Task}
  {s : Store} {left : Option Store} {parts : List (Task × Machine)}

/-- The courses of parts that follow one another. -/
theorem Sequence.course (h : Sequence P setting fuel s parts left)
    (hparts : ∀ part ∈ parts, P.Course part.2.store (part.1.outcome setting fuel part.2).store?
      (Moment.Visits setting ⟨part.1, fuel, part.2⟩)) :
    P.Course s left fun t => ∃ part ∈ parts, Moment.Visits setting ⟨part.1, fuel, part.2⟩ t := by
  induction h with
  | nil le =>
      exact (Policy.Course.empty P _ _).imp fun t ⟨_, hmem, _⟩ => absurd hmem List.not_mem_nil
  | cons le held operands part grows rest ih =>
      have hfirst := hparts _ (List.mem_cons_self ..)
      have hrest := ih fun part hpart => hparts part (List.mem_cons_of_mem _ hpart)
      rw [part] at hfirst
      refine ((hfirst.of_le le).append hrest (le.trans grows) rest.le).imp fun t ht => ?_
      obtain ⟨part, hpart, ht⟩ := ht
      rcases List.mem_cons.1 hpart with rfl | hpart
      · exact .inl ht
      · exact .inr ⟨part, hpart, ht⟩
  | starved le held operands part =>
      have hfirst := hparts _ (List.mem_singleton.2 rfl)
      rw [part] at hfirst
      refine (hfirst.of_le le).imp fun t ht => ?_
      obtain ⟨part, hpart, ht⟩ := ht
      rwa [List.mem_singleton.1 hpart] at ht

/-- The store that a task leaves has grown out of the one on which it starts. -/
theorem Task.Upholds.le (h : t.Upholds P setting fuel m) :
    ∀ s' ∈ (t.outcome setting fuel m).store?, P.Le m.store s' := by
  cases t with
  | _ =>
      rw [Task.outcome, Outcome.store?_forget]
      exact Policy.Ends.le h

/-- **The stores that come up in the course of a task come one after another.** -/
theorem Policy.Guards.course (h : P.Guards setting G) (hk : G ⟨t, fuel, m⟩) (hm : P.Held m.store)
    (hoperands : ∀ v ∈ t.operands, P.value v) :
    P.Course m.store (t.outcome setting fuel m).store? (Moment.Visits setting ⟨t, fuel, m⟩) := by
  -- induction on the fuel: the courses of the parts follow one another
  induction fuel generalizing t m with
  | zero =>
      have hend := (h.upholds hk hm hoperands).le
      refine ((Policy.Course.empty P m.store _).closed hend).imp fun s hs => ?_
      exact .inl (hs.cases.resolve_right nofun)
  | succ n ih =>
      have hend := (h.upholds hk hm hoperands).le
      have hsequence := h.sequence hk hm hoperands
      have hparts := hsequence.course fun part hpart => by
        obtain ⟨-, hheld, hops⟩ := hsequence.of_mem hpart
        exact ih (h.next hk (List.mem_map_of_mem hpart) hheld hops) hheld hops
      refine (hparts.closed hend).imp fun s hs => ?_
      refine hs.cases.imp_right ?_
      rintro ⟨l, hl, hs⟩
      obtain ⟨part, hpart, rfl⟩ := List.mem_map.1 hl
      exact ⟨part, hpart, hs⟩

end Tasks

/-- **The stores that come up in a run come one after another.** -/
theorem Run.Guarded.course {P : Policy} {G : Moment → Prop} {run : Run} (h : run.Guarded P G)
    (hm : P.Held run.machine.store) :
    P.Course run.machine.store run.outcome.store? run.Visits := by
  have hsequence := (h.guards.run hm _ h.tops).1
  refine (hsequence.course fun part hpart => ?_).imp fun s hs => ?_
  · obtain ⟨top, htop, rfl⟩ := List.mem_map.1 hpart
    obtain ⟨-, hheld, hops⟩ := hsequence.of_mem hpart
    obtain ⟨d, -, -, hfuel⟩ := of_mem_topMoments htop
    have hcourse := h.guards.course (h.tops top htop hheld) hheld hops
    rwa [hfuel] at hcourse
  · obtain ⟨k, ⟨top, htop, hleads⟩, hs⟩ := hs
    obtain ⟨d, -, -, hfuel⟩ := of_mem_topMoments htop
    refine ⟨top.part, List.mem_map_of_mem htop, k, ?_, hs⟩
    rw [← hfuel]
    exact hleads

/-- **The stores that come up in runs that follow one another come one after another.** -/
theorem Running.course {P : Policy} {programs : List Compiled} {s : Session} {runs : List Run}
    (h : Running programs s runs) (hs : P.Held s.machine.store) {G : Run → Moment → Prop}
    (hguarded : ∀ run ∈ runs, run.Guarded P (G run)) :
    P.Course s.machine.store none fun t => ∃ run ∈ runs, run.Visits t := by
  induction h with
  | nil => exact (Policy.Course.empty P _ _).imp fun t ⟨_, hmem, _⟩ => absurd hmem List.not_mem_nil
  | supplied machine _ _ ih => exact machine ▸ ih (machine ▸ hs) hguarded
  | last starts =>
      have hstart := starts.machine ▸ hs
      have hcourse := (hguarded _ (List.mem_singleton.2 rfl)).course hstart
      rw [starts.machine] at hcourse
      refine hcourse.open_end.imp fun t ht => ?_
      obtain ⟨run, hrun, ht⟩ := ht
      rwa [List.mem_singleton.1 hrun] at ht
  | @ran _ s s' run runs starts left rest ih =>
      obtain ⟨hfirst, hrest⟩ := List.forall_mem_cons.1 hguarded
      have hstart := starts.machine ▸ hs
      have hcourse := hfirst.course hstart
      have hend := hfirst.ends hstart
      rw [left, starts.machine] at hcourse
      rw [starts.machine] at hend
      have hrest' := ih (hend.held _ left) hrest
      refine (hcourse.append hrest' (hend.le _ left) nofun).imp fun t ht => ?_
      obtain ⟨run', hrun, ht⟩ := ht
      rcases List.mem_cons.1 hrun with rfl | hrun
      · exact .inl ht
      · exact .inr ⟨run', hrun, ht⟩

end Scriptlet
