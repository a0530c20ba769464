/-
**Resolutions that are handed over.**

The resolutions of a program can be handed over to a session long before the program is run, and in
between other programs may be parsed, handed over and run.  Those inside its routines stay for good.
Those outside are noted to be given up, and the next run that ends gives up all that is noted,
whichever program it is a run of.  So the program finds all its distances as long as no run has
ended since it was handed over.  After that it finds those inside its routines and no others, and
looks for its local names in the globals.

Main definitions:

* `Scriptlet.Workbench`, `Scriptlet.Workbench.Move`, `Scriptlet.Workbench.run` — a session with
  programs, and what is done with them, in any order;
* `Scriptlet.Workbench.Move.Spares` — what is done with other programs;
* `Scriptlet.Session.lookedUp?` — how far out a run looks for the name of a reference;
* `Scriptlet.Session.Holds` — what is held of a program that was handed over.

Main results:

* `Scriptlet.Workbench.Orderly.run` — no two programs share a number, and what is noted to be given
  up stands outside of all routines;
* `Scriptlet.Workbench.Awaits.run` — what is held through moves with other programs;
* `Scriptlet.Workbench.held_until_a_run_ends` — **what is held of a program until its own run**.
-/

import Scriptlet.Proofs.Control.Attained
import Scriptlet.Proofs.Program.Ascent

set_option relaxedAutoImplicit false
set_option autoImplicit false

namespace Scriptlet

/-! ### The numbers that are resolved -/

/-- What is resolved in a program are references with numbers of the program. -/
theorem Program.id_mem_ids {p : Program} {c : Compiled} (hc : p.compile = .ok c) {r : Resolution}
    (hr : r ∈ c.resolutions) : r.id ∈ p.ids := by
  obtain ⟨-, hresolve⟩ := Program.resolve_of_compile hc
  obtain ⟨-, hresolutions⟩ := Program.resolve_eq_ok.1 hresolve
  rw [hresolutions] at hr
  have hreference := (resolutionIds_sublist _).subset (List.mem_map_of_mem hr)
  exact (Decl.allReferenceIds_sublist .global p.declarations).subset hreference

/-- No number of a program is resolved twice, if its numbers are different. -/
theorem Program.nodup_resolutions {p : Program} {c : Compiled} (hc : p.compile = .ok c)
    (hp : p.ids.Nodup) : (c.resolutions.map Resolution.id).Nodup := by
  obtain ⟨-, hresolve⟩ := Program.resolve_of_compile hc
  obtain ⟨-, hresolutions⟩ := Program.resolve_eq_ok.1 hresolve
  rw [hresolutions]
  exact (resolutionIds_sublist _).nodup
    ((Decl.allReferenceIds_sublist .global p.declarations).nodup hp)

namespace Session

variable {s s' : Session} {fuel : Nat} {p : Program} {distances : List (ExprId × Nat)}
  {ending : Ending} {id : ExprId}

/-! ### What a run leaves -/

theorem handOver_of_compile {c : Compiled} (hc : p.compile = .ok c) :
    s.handOver p = .ok (s.recordAll c.resolutions) := by
  simp only [handOver, hc]

/-- A run keeps what it was given, and gives up what was noted. -/
theorem distances_of_interpret (h : s.interpret fuel p distances = some (ending, s')) :
    s'.distances = s.pending.foldl (fun map id => map.erase id) (insertAll s.distances distances) ∧
      s'.pending = [] ∧ s'.supply = s.supply := by
  rcases interpret_eq_some.1 h with ⟨m, -, -, rfl⟩ | ⟨e, m, -, -, rfl⟩ <;> exact ⟨rfl, rfl, rfl⟩

theorem getElem?_interpret_of_mem (h : s.interpret fuel p distances = some (ending, s'))
    (hid : id ∈ s.pending) : s'.distances[id]? = none := by
  rw [(distances_of_interpret h).1]
  exact getElem?_eraseAll_of_mem hid _

theorem getElem?_interpret_of_not_mem (h : s.interpret fuel p distances = some (ending, s'))
    (hid : id ∉ s.pending) (hother : id ∉ distances.map Prod.fst) :
    s'.distances[id]? = s.distances[id]? := by
  rw [(distances_of_interpret h).1, getElem?_eraseAll hid, getElem?_insertAll_of_not_mem hother]

theorem getElem?_interpret_of_none (h : s.interpret fuel p distances = some (ending, s'))
    (hid : s.distances[id]? = none) (hother : id ∉ distances.map Prod.fst) :
    s'.distances[id]? = none := by
  rw [(distances_of_interpret h).1]
  refine getElem?_eraseAll_of_none ?_ _
  rw [getElem?_insertAll_of_not_mem hother, hid]

/-! ### What is held of a program -/

/-- How far out a run that is given some distances looks for the name of the reference with a given
number, if it does not look for it in the globals. -/
def lookedUp? (s : Session) (distances : List (ExprId × Nat)) (id : ExprId) : Option Nat :=
  (s.keep distances).setting.distances[id]?

/-- **What a session holds of a program that was handed over to another**, depending on whether a
run has ended since then. -/
structure Holds (s : Session) (c : Compiled) (before : Session) (ended : Bool) : Prop where
  /-- References inside routines have the distances they were resolved with. -/
  inside : ∀ r ∈ c.resolutions, r.inRoutine = true → s.lookedUp? [] r.id = some r.distance
  /-- So have those outside, but only as long as no run has ended. -/
  outside : ∀ r ∈ c.resolutions, r.inRoutine = false →
    s.lookedUp? [] r.id = if ended then none else some r.distance
  /-- What was not resolved is as it was. -/
  unresolved : ∀ id ∈ c.program.ids, id ∉ c.resolutions.map Resolution.id →
    s.lookedUp? [] id = before.lookedUp? [] id

/-- **All references of a program find the distances they were resolved with exactly if no run has
ended, or all of them are inside routines.** -/
theorem Holds.complete_iff {c : Compiled} {before : Session} {ended : Bool}
    (h : s.Holds c before ended) :
    (∀ r ∈ c.resolutions, s.lookedUp? [] r.id = some r.distance) ↔
      ended = false ∨ ∀ r ∈ c.resolutions, r.inRoutine = true := by
  constructor
  · intro hall
    cases hended : ended with
    | false => exact .inl rfl
    | true =>
        refine .inr fun r hr => ?_
        cases hroutine : r.inRoutine with
        | true => rfl
        | false =>
            have hnone := h.outside r hr hroutine
            rw [hall r hr, hended] at hnone
            cases hnone
  · rintro hcases r hr
    cases hroutine : r.inRoutine with
    | true => exact h.inside r hr hroutine
    | false =>
        rcases hcases with rfl | hinside
        · exact h.outside r hr hroutine
        · rw [hinside r hr] at hroutine
          cases hroutine

/-- What is held does not depend on the distances of other programs. -/
theorem Holds.congr {c : Compiled} {before : Session} {ended : Bool} (h : s.Holds c before ended)
    (hc : c.program.compile = .ok c)
    (hsame : ∀ id ∈ c.program.ids, s'.distances[id]? = s.distances[id]?) :
    s'.Holds c before ended where
  inside r hr hroutine := (hsame r.id (Program.id_mem_ids hc hr)).trans (h.inside r hr hroutine)
  outside r hr hroutine := (hsame r.id (Program.id_mem_ids hc hr)).trans (h.outside r hr hroutine)
  unresolved id hid hnone := (hsame id hid).trans (h.unresolved id hid hnone)

/-- A session to which a program is handed over holds all its resolutions. -/
theorem holds_recordAll {c : Compiled} (hc : c.program.compile = .ok c)
    (hids : c.program.ids.Nodup) : (s.recordAll c.resolutions).Holds c s false := by
  have hdistance : ∀ r ∈ c.resolutions,
      (s.recordAll c.resolutions).distances[r.id]? = some r.distance := by
    intro r hr
    have hnodup : ((c.resolutions.map fun r => (r.id, r.distance)).map Prod.fst).Nodup := by
      rw [c.fst_distances]
      exact Program.nodup_resolutions hc hids
    have hmem : (r.id, r.distance) ∈ c.resolutions.map fun r => (r.id, r.distance) :=
      List.mem_map_of_mem hr
    rw [recordAll_distances]
    exact getElem?_insertAll_of_mem hnodup hmem _
  refine ⟨fun r hr _ => hdistance r hr, fun r hr _ => hdistance r hr, fun id _ hnone => ?_⟩
  change (s.recordAll c.resolutions).distances[id]? = s.distances[id]?
  rw [recordAll_distances, getElem?_insertAll_of_not_mem]
  rw [c.fst_distances]
  exact hnone

/-- **A run gives up what is held outside routines**, if that was noted, and leaves the rest. -/
theorem Holds.interpret {c : Compiled} {before : Session} {ended : Bool}
    (h : s.Holds c before ended) (hc : c.program.compile = .ok c) (hids : c.program.ids.Nodup)
    (hnoted : ended = false → ∀ r ∈ c.resolutions, r.inRoutine = false → r.id ∈ s.pending)
    (hpending : ∀ id ∈ c.program.ids, id ∈ s.pending →
      ∃ r ∈ c.resolutions, r.id = id ∧ r.inRoutine = false)
    (hrun : s.interpret fuel p distances = some (ending, s'))
    (hother : ∀ d ∈ distances, d.1 ∉ c.program.ids) : s'.Holds c before true := by
  have hapart : ∀ id ∈ c.program.ids, id ∉ distances.map Prod.fst := by
    intro id hid hmem
    obtain ⟨d, hd, rfl⟩ := List.mem_map.1 hmem
    exact hother d hd hid
  constructor
  case inside =>
    intro r hr hroutine
    have hid := Program.id_mem_ids hc hr
    refine (getElem?_interpret_of_not_mem hrun (fun hmem => ?_) (hapart r.id hid)).trans
      (h.inside r hr hroutine)
    -- what is noted under this number is this very resolution, and that is inside a routine
    obtain ⟨r', hr', heq, houtside⟩ := hpending r.id hid hmem
    obtain rfl := List.inj_on_of_nodup_map (Program.nodup_resolutions hc hids) hr' hr heq
    rw [hroutine] at houtside
    cases houtside
  case outside =>
    intro r hr hroutine
    have hid := Program.id_mem_ids hc hr
    cases hended : ended with
    | false => exact getElem?_interpret_of_mem hrun (hnoted hended r hr hroutine)
    | true =>
        have hnone := h.outside r hr hroutine
        rw [hended] at hnone
        exact getElem?_interpret_of_none hrun hnone (hapart r.id hid)
  case unresolved =>
    intro id hid hnone
    refine (getElem?_interpret_of_not_mem hrun (fun hmem => ?_) (hapart id hid)).trans
      (h.unresolved id hid hnone)
    obtain ⟨r, hr, rfl, -⟩ := hpending id hid hmem
    exact hnone (List.mem_map_of_mem hr)

end Session

/-! ### Moves -/

/-- A session, and the programs that have been parsed in it, by their numbers. -/
structure Workbench where
  /-- The session. -/
  session : Session
  /-- The programs. -/
  programs : List Program

namespace Workbench

/-- What is done at a workbench; programs are told by their numbers.  To run a source is to parse it
and to interpret the program with its distances, and an interactive line is parsed, handed over and
interpreted without any. -/
inductive Move
  | parse (source : String)
  | handOver (program : Nat)
  | interpret (fuel : Nat) (program : Nat) (distances : List (ExprId × Nat))

/-- A workbench without programs.  A fresh session may find some numbers taken already. -/
def start (output : Output) (clock : Nat → Float) (supply : Supply) : Workbench :=
  ⟨{ Session.start output clock with supply := supply }, []⟩

/-- Parses a source, and puts the program down if it is one. -/
def parse (w : Workbench) (source : String) : Workbench :=
  match Program.ofSource source w.session.supply with
  | (.ok p, supply) => ⟨{ w.session with supply := supply }, w.programs ++ [p]⟩
  | (.error _, supply) => { w with session := { w.session with supply := supply } }

/-- Hands a program over to the session; one at fault hands over nothing. -/
def handOver (w : Workbench) (p : Program) : Workbench :=
  match w.session.handOver p with
  | .ok s => { w with session := s }
  | .error _ => w

/-- What a workbench is after a move.  Nothing is done with a program that does not exist, and there
is no answer if the fuel of a run does not suffice. -/
def step (w : Workbench) : Move → Option Workbench
  | .parse source => some (w.parse source)
  | .handOver i => w.programs[i]?.map w.handOver
  | .interpret fuel i distances =>
      w.programs[i]?.bind fun p =>
        (w.session.interpret fuel p distances).map fun answer => { w with session := answer.2 }

/-- What a workbench is after a list of moves. -/
def run (w : Workbench) : List Move → Option Workbench
  | [] => some w
  | move :: moves => (w.step move).bind fun w' => w'.run moves

/-- A move with other programs than the given one: it neither hands it over nor runs it, and gives
no distances to its references. -/
def Move.Spares (i : Nat) (p : Program) : Move → Prop
  | .parse _ => True
  | .handOver j => j ≠ i
  | .interpret _ j distances => j ≠ i ∧ ∀ d ∈ distances, d.1 ∉ p.ids

/-- Whether a move is a run of a program. -/
def Move.isRun : Move → Bool
  | .parse _ => false
  | .handOver _ => false
  | .interpret _ _ _ => true

/-! ### Numbers at a workbench -/

/-- **A workbench in order**: no two places in its programs share a number, the numbers that are
free are not among them, and what is noted to be given up was resolved outside of all routines. -/
structure Orderly (w : Workbench) : Prop where
  numbered : Numbered 0 (w.programs.flatMap Program.ids) w.session.supply.expr
  pending : ∀ id ∈ w.session.pending, ∃ p ∈ w.programs, ∃ c, p.compile = .ok c ∧
    ∃ r ∈ c.resolutions, r.id = id ∧ r.inRoutine = false

namespace Orderly

variable {w w' : Workbench} {p q : Program} {c : Compiled} {i j : Nat} {id : ExprId}

theorem start (output : Output) (clock : Nat → Float) (supply : Supply) :
    (Workbench.start output clock supply).Orderly :=
  ⟨⟨Nat.zero_le _, List.nodup_nil, nofun⟩, nofun⟩

/-- The numbers of a program are different. -/
theorem nodup_ids (h : w.Orderly) (hp : p ∈ w.programs) : p.ids.Nodup :=
  (List.nodup_flatMap.1 h.numbered.nodup).1 p hp

/-- A number tells the place of the program. -/
theorem index_unique (h : w.Orderly) (hi : w.programs[i]? = some p) (hj : w.programs[j]? = some q)
    (hp : id ∈ p.ids) (hq : id ∈ q.ids) : i = j := by
  obtain ⟨hilt, rfl⟩ := List.getElem?_eq_some_iff.1 hi
  obtain ⟨hjlt, rfl⟩ := List.getElem?_eq_some_iff.1 hj
  have hapart := List.pairwise_iff_getElem.1 (List.nodup_flatMap.1 h.numbered.nodup).2
  rcases Nat.lt_trichotomy i j with hlt | heq | hgt
  · exact absurd hq (hapart i j hilt hjlt hlt hp)
  · exact heq
  · exact absurd hp (hapart j i hjlt hilt hgt hq)

/-- What is noted to be given up of a program was resolved in it, outside of all routines. -/
theorem outside_of_pending (h : w.Orderly) (hi : w.programs[i]? = some p) (hc : p.compile = .ok c)
    (hid : id ∈ p.ids) (hpending : id ∈ w.session.pending) :
    ∃ r ∈ c.resolutions, r.id = id ∧ r.inRoutine = false := by
  obtain ⟨q, hq, d, hd, r, hr, rfl, houtside⟩ := h.pending id hpending
  obtain ⟨j, hj⟩ := List.getElem?_of_mem hq
  obtain rfl := h.index_unique hi hj hid (Program.id_mem_ids hd hr)
  obtain rfl := Option.some.inj (hi.symm.trans hj)
  obtain rfl := Except.ok.inj (hc.symm.trans hd)
  exact ⟨r, hr, rfl, houtside⟩

theorem parse (h : w.Orderly) (source : String) : (w.parse source).Orderly := by
  have hpending : ∀ {programs : List Program}, w.programs ⊆ programs → ∀ id ∈ w.session.pending,
      ∃ p ∈ programs, ∃ c, p.compile = .ok c ∧ ∃ r ∈ c.resolutions, r.id = id ∧
        r.inRoutine = false := by
    intro programs hsubset id hid
    obtain ⟨p, hp, hnoted⟩ := h.pending id hid
    exact ⟨p, hsubset hp, hnoted⟩
  unfold Workbench.parse
  cases hsource : Program.ofSource source w.session.supply with
  | mk result supply =>
      unfold Program.ofSource at hsource
      cases hscan : scan source with
      | error errors =>
          rw [hscan] at hsource
          cases hsource
          exact h
      | ok tokens =>
          rw [hscan] at hsource
          dsimp only at hsource
          have hle := Program.supply_parse tokens w.session.supply
          cases hparse : Program.parse tokens w.session.supply with
          | mk result' supply' =>
              rw [hparse] at hsource hle
              cases result' with
              | error errors =>
                  cases hsource
                  refine ⟨⟨Nat.zero_le _, h.numbered.nodup, fun n hn => ?_⟩, h.pending⟩
                  exact ⟨Nat.zero_le _, Nat.lt_of_lt_of_le (h.numbered.bounds n hn).2 hle.expr⟩
              | ok p =>
                  cases hsource
                  refine ⟨?_, hpending (List.subset_append_left _ _)⟩
                  have hgiven := (Program.parse_phrase hparse).given.ids
                  have hall := h.numbered.append hgiven
                  rw [List.flatMap_append, List.flatMap_singleton]
                  exact hall

theorem handOver (h : w.Orderly) (hp : p ∈ w.programs) : (w.handOver p).Orderly := by
  unfold Workbench.handOver Session.handOver
  cases hc : p.compile with
  | error errors => exact h
  | ok c =>
      refine ⟨?_, fun id hid => ?_⟩
      · change Numbered 0 _ (w.session.recordAll c.resolutions).supply.expr
        rw [(Session.recordAll_machine c.resolutions w.session).2.2]
        exact h.numbered
      · rcases Session.mem_recordAll_pending.1 hid with hid | hnoted
        · exact h.pending id hid
        · exact ⟨p, hp, c, hc, hnoted⟩

/-- A workbench is in order after each move. -/
theorem step (h : w.Orderly) {move : Move} (hw : w.step move = some w') : w'.Orderly := by
  cases move with
  | parse source =>
      cases hw
      exact h.parse source
  | handOver i =>
      obtain ⟨p, hp, rfl⟩ := Option.map_eq_some_iff.1 hw
      exact h.handOver (List.mem_of_getElem? hp)
  | interpret fuel i distances =>
      obtain ⟨p, -, hp⟩ := Option.bind_eq_some_iff.1 hw
      obtain ⟨⟨ending, s⟩, hrun, rfl⟩ := Option.map_eq_some_iff.1 hp
      obtain ⟨-, hpending, hsupply⟩ := Session.distances_of_interpret hrun
      refine ⟨?_, fun id hid => ?_⟩
      · change Numbered 0 _ s.supply.expr
        rw [hsupply]
        exact h.numbered
      · change id ∈ s.pending at hid
        rw [hpending] at hid
        cases hid

/-- **A workbench is in order after any moves.** -/
theorem run (h : w.Orderly) {moves : List Move} (hw : w.run moves = some w') : w'.Orderly := by
  induction moves generalizing w with
  | nil =>
      cases hw
      exact h
  | cons move moves ih =>
      obtain ⟨w₁, hstep, hrun⟩ := Option.bind_eq_some_iff.1 hw
      exact ih (h.step hstep) hrun

end Orderly

/-! ### What is held until the own run of a program -/

/-- To parse a source changes no program, no distance and nothing that is noted. -/
theorem parse_eq (w : Workbench) (source : String) : ∃ supply added,
    w.parse source = ⟨{ w.session with supply := supply }, w.programs ++ added⟩ := by
  unfold parse
  rcases Program.ofSource source w.session.supply with ⟨errors | p, supply⟩
  · exact ⟨supply, [], by rw [List.append_nil]⟩
  · exact ⟨supply, [p], rfl⟩

/-- **A workbench at which a program was handed over and has not been run.** -/
structure Awaits (w : Workbench) (i : Nat) (c : Compiled) (before : Session) (ended : Bool) :
    Prop where
  program : w.programs[i]? = some c.program
  compiled : c.program.compile = .ok c
  holds : w.session.Holds c before ended
  /-- The next run that ends gives up what is outside routines. -/
  noted : ended = false → ∀ r ∈ c.resolutions, r.inRoutine = false → r.id ∈ w.session.pending

namespace Awaits

variable {w w' : Workbench} {p q : Program} {c : Compiled} {i j : Nat} {before : Session}
  {ended : Bool}

theorem of_handOver (h : w.Orderly) (hi : w.programs[i]? = some p) (hc : p.compile = .ok c) :
    (w.handOver p).Awaits i c w.session false := by
  obtain ⟨rfl, -⟩ := Program.resolve_of_compile hc
  unfold handOver
  rw [Session.handOver_of_compile hc]
  exact
    { program := hi
      compiled := hc
      holds := Session.holds_recordAll hc (h.nodup_ids (List.mem_of_getElem? hi))
      noted := fun _ r hr houtside =>
        Session.mem_recordAll_pending.2 (.inr ⟨r, hr, rfl, houtside⟩) }

theorem parse (h : w.Awaits i c before ended) (source : String) :
    (w.parse source).Awaits i c before ended := by
  obtain ⟨supply, added, heq⟩ := w.parse_eq source
  rw [heq]
  refine ⟨?_, h.compiled, h.holds.congr h.compiled fun _ _ => rfl, h.noted⟩
  rw [List.getElem?_append_left (List.getElem?_eq_some_iff.1 h.program).1]
  exact h.program

/-- To hand over another program adds to what is noted and changes none of the distances. -/
theorem handOver (hw : w.Orderly) (h : w.Awaits i c before ended) (hj : w.programs[j]? = some q)
    (hne : j ≠ i) : (w.handOver q).Awaits i c before ended := by
  unfold Workbench.handOver Session.handOver
  cases hq : q.compile with
  | error errors => exact h
  | ok d =>
      refine ⟨h.program, h.compiled, h.holds.congr h.compiled fun id hid => ?_,
        fun hended r hr houtside => Session.mem_recordAll_pending.2
          (.inl (h.noted hended r hr houtside))⟩
      change (w.session.recordAll d.resolutions).distances[id]? = w.session.distances[id]?
      rw [Session.recordAll_distances, getElem?_insertAll_of_not_mem]
      rw [d.fst_distances]
      intro hmem
      obtain ⟨r, hr, rfl⟩ := List.mem_map.1 hmem
      exact hne (hw.index_unique hj h.program (Program.id_mem_ids hq hr) hid)

/-- A run gives up what is outside routines, whichever program it is a run of. -/
theorem interpret (hw : w.Orderly) (h : w.Awaits i c before ended) {fuel : Nat}
    {distances : List (ExprId × Nat)} {ending : Ending} {s : Session}
    (hrun : w.session.interpret fuel q distances = some (ending, s))
    (hother : ∀ d ∈ distances, d.1 ∉ c.program.ids) : s.Holds c before true :=
  h.holds.interpret h.compiled (hw.nodup_ids (List.mem_of_getElem? h.program)) h.noted
    (fun _ hid hmem => hw.outside_of_pending h.program h.compiled hid hmem) hrun hother

/-- What is held after a move with other programs. -/
theorem step (hw : w.Orderly) (h : w.Awaits i c before ended) {move : Move}
    (hspares : move.Spares i c.program) (hstep : w.step move = some w') :
    w'.Awaits i c before (ended || move.isRun) := by
  cases move with
  | parse source =>
      cases hstep
      rw [Move.isRun, Bool.or_false]
      exact h.parse source
  | handOver j =>
      obtain ⟨q, hj, rfl⟩ := Option.map_eq_some_iff.1 hstep
      rw [Move.isRun, Bool.or_false]
      exact h.handOver hw hj hspares
  | interpret fuel j distances =>
      obtain ⟨q, -, hq⟩ := Option.bind_eq_some_iff.1 hstep
      obtain ⟨⟨ending, s⟩, hrun, rfl⟩ := Option.map_eq_some_iff.1 hq
      rw [Move.isRun, Bool.or_true]
      exact ⟨h.program, h.compiled, h.interpret hw hrun hspares.2, nofun⟩

/-- **What is held after any moves with other programs.** -/
theorem run (hw : w.Orderly) (h : w.Awaits i c before ended) {moves : List Move}
    (hspares : ∀ move ∈ moves, move.Spares i c.program) (hrun : w.run moves = some w') :
    w'.Awaits i c before (ended || moves.any Move.isRun) := by
  induction moves generalizing w ended with
  | nil =>
      cases hrun
      rw [List.any_nil, Bool.or_false]
      exact h
  | cons move moves ih =>
      obtain ⟨w₁, hstep, hlater⟩ := Option.bind_eq_some_iff.1 hrun
      rw [List.forall_mem_cons] at hspares
      rw [List.any_cons, ← Bool.or_assoc]
      exact ih (hw.step hstep) (h.step hw hspares.1 hstep) hspares.2 hlater

end Awaits

/-- **What is held of a program until its own run.**  A program was handed over, at a workbench with
any history, and then there were any moves with other programs.  When it is run, it finds the
distances of its references inside routines, and if no run has ended in between, those of all the
others, too; but the end of any run takes the others away.  The end of its own run leaves what is
inside routines. -/
theorem held_until_a_run_ends {output : Output} {clock : Nat → Float} {supply : Supply}
    {earlier between : List Move} {w w' : Workbench} {i : Nat} {p : Program} {c : Compiled}
    (hearlier : (start output clock supply).run earlier = some w)
    (hi : w.programs[i]? = some p) (hc : p.compile = .ok c)
    (hbetween : w.run (.handOver i :: between) = some w')
    (hspares : ∀ move ∈ between, move.Spares i p) :
    w'.programs[i]? = some p ∧ w'.session.Holds c w.session (between.any Move.isRun) ∧
      ((∀ r ∈ c.resolutions, w'.session.lookedUp? [] r.id = some r.distance) ↔
        between.any Move.isRun = false ∨ ∀ r ∈ c.resolutions, r.inRoutine = true) ∧
      ∀ fuel ending s', w'.session.interpret fuel p [] = some (ending, s') →
        s'.Holds c w.session true := by
  have hw := (Orderly.start output clock supply).run hearlier
  obtain ⟨rfl, -⟩ := Program.resolve_of_compile hc
  obtain ⟨w₁, hstep, hrun⟩ := Option.bind_eq_some_iff.1 hbetween
  have hw₁ := hw.step hstep
  obtain rfl : w.handOver c.program = w₁ := by
    rw [Workbench.step, hi] at hstep
    exact Option.some.inj hstep
  have hawaits := (Awaits.of_handOver hw hi hc).run hw₁ hspares hrun
  rw [Bool.false_or] at hawaits
  refine ⟨hawaits.program, hawaits.holds, hawaits.holds.complete_iff, fun fuel ending s' hown => ?_⟩
  exact hawaits.interpret (hw₁.run hrun) hown nofun

/-- A program with a local name that is read inside a function and outside of it, and another
program that is run while the first waits for its run. -/
def interleaved : List Move :=
  [.parse "\x7b var a = 1; fun f() \x7b return a; \x7d print a; \x7d", .parse "print 2;"]

/-- The run of another program has taken the distance of the reference outside the function, and the
program does not find its name. -/
theorem held_until_a_run_ends_interleaved : ∃ w w' p c,
    (start (.lines #[]) (fun _ => 0) .full).run interleaved = some w ∧
    w.programs[0]? = some p ∧ p.compile = .ok c ∧
    w.run [.handOver 0, .interpret 40 1 []] = some w' ∧
    c.resolutions = [⟨1, 1, true⟩, ⟨2, 0, false⟩] ∧
    w'.session.Holds c w.session true ∧
    ¬(∀ r ∈ c.resolutions, w'.session.lookedUp? [] r.id = some r.distance) ∧
    ∃ s', w'.session.interpret 40 p [] =
      some (.failed ⟨.undefinedVariable "a", ⟨41, 1, 1⟩⟩, s') := by
  have hall :
      ((start (.lines #[]) (fun _ => 0) .full).run interleaved).bind (fun w =>
        w.programs[0]?.bind fun p => p.compile.toOption.bind fun c =>
          (w.run [.handOver 0, .interpret 40 1 []]).bind fun w' =>
            (w'.session.interpret 40 p []).map fun answer => (c.resolutions, answer.1)) =
      some ([⟨1, 1, true⟩, ⟨2, 0, false⟩], .failed ⟨.undefinedVariable "a", ⟨41, 1, 1⟩⟩) := by
    decide +kernel
  obtain ⟨w, hw, hall⟩ := Option.bind_eq_some_iff.1 hall
  obtain ⟨p, hp, hall⟩ := Option.bind_eq_some_iff.1 hall
  obtain ⟨c, hc, hall⟩ := Option.bind_eq_some_iff.1 hall
  obtain ⟨w', hw', hall⟩ := Option.bind_eq_some_iff.1 hall
  obtain ⟨⟨ending, s'⟩, hrun, hresult⟩ := Option.map_eq_some_iff.1 hall
  obtain ⟨hresolutions, rfl⟩ := Prod.mk.inj hresult
  have hcompile : p.compile = .ok c := by
    cases hok : p.compile with
    | error errors =>
        rw [hok] at hc
        cases hc
    | ok d =>
        rw [hok] at hc
        cases hc
        rfl
  have hspares : ∀ move ∈ [Move.interpret 40 1 []], move.Spares 0 p := by
    intro move hmove
    obtain rfl := List.mem_singleton.1 hmove
    exact ⟨Nat.one_ne_zero, nofun⟩
  obtain ⟨-, hholds, hcomplete, -⟩ := held_until_a_run_ends hw hp hcompile hw' hspares
  refine ⟨w, w', p, c, hw, hp, hcompile, hw', hresolutions, hholds, ?_, s', hrun⟩
  rw [hcomplete, hresolutions]
  decide

end Workbench

end Scriptlet
