/-
**What class calls and initialisers yield.**

A call of a class makes an object and yields it.  Before that the nearest `init` of the class, if it
has one, runs once, in a frame with the parameters in front of a frame that binds `this` to the
object.  What its body returns is of no concern: an initialiser answers with what its innermost
frame binds to `this`, and that is never written, however long the function was kept before it is
called.

Main definitions:

* `Scriptlet.Value.Marked` — values whose methods are initialisers exactly if they are called
  `init`;
* `Scriptlet.Moment.Obtains` — how a method of an object is obtained by its name;
* `Scriptlet.Moment.RunsFor`, `Scriptlet.Instantiated` — a body that runs for a receiver, and what
  a call of a class does;
* `Scriptlet.Initializing` — **what class calls and initialisers yield** in the runs of a session.

Main results:

* `Scriptlet.call_done`, `Scriptlet.receiver_of_call_done` — what has happened when a call comes to
  its end;
* `Scriptlet.Session.marked` — all values that come up in a session are marked;
* `Scriptlet.Session.calls_yield_objects_and_receivers` — **class calls yield new objects, and
  initialisers their receivers**, in every session.
-/

import Scriptlet.Proofs.Objects.History
import Scriptlet.Proofs.Origin.Identity
import Scriptlet.Proofs.Origin.Reserved

set_option relaxedAutoImplicit false
set_option autoImplicit false

namespace Scriptlet

/-! ### Calls that come to their end -/

section Calls

variable {setting : Setting} {fuel : Nat} {m m' : Machine} {f : Closure} {arguments : List Value}
  {site : Span} {v : Value}

/-- **The parameters of a call are bound to its arguments** in the innermost frame, and nothing else
is bound. -/
theorem bindArguments_done {ps : List Param} {vs : List Value} {a : FrameId} {rest : List FrameId}
    (hscope : m.scope.chain = a :: rest) (ha : a < m.store.frames.size)
    (hnodup : (ps.map Param.name).Nodup) (hlength : vs.length = ps.length) :
    ∃ s, Action.bindArguments ps vs m = .done () { m with store := s } ∧
      (∀ (i : Nat) (p : Param), ps[i]? = some p → (s.frame a).get? p.name = vs[i]?) ∧
      ∀ b y, b ≠ a ∨ y ∉ ps.map Param.name → (s.frame b).get? y = (m.store.frame b).get? y := by
  induction ps generalizing m vs with
  | nil => exact ⟨m.store, rfl, nofun, fun _ _ _ => rfl⟩
  | cons p ps ih =>
      cases vs with
      | nil => cases hlength
      | cons v vs =>
          obtain ⟨hp, hps⟩ := List.nodup_cons.1 hnodup
          have hdefine : Action.define p.name v m =
              .done () { m with store := m.store.write a p.name v } := by
            change Outcome.done () { m with store := m.store.define m.scope p.name v } = _
            rw [Store.define, hscope]
          obtain ⟨s, hs, hbound, hkept⟩ := ih (m := { m with store := m.store.write a p.name v })
            hscope (by rwa [Store.frames_size_write]) hps (Nat.succ.inj hlength)
          refine ⟨s, ?_, fun i q hq => ?_, fun b y hby => ?_⟩
          · rw [Action.bindArguments, Action.bind_apply, hdefine]
            exact hs
          · cases i with
            | zero =>
                cases hq
                rw [hkept a p.name (.inr hp), Store.get?_frame_write ha, if_pos ⟨rfl, rfl⟩]
                rfl
            | succ i => exact hbound i q hq
          · have hne : ¬(b = a ∧ y = p.name) := by
              rintro ⟨hb, hy⟩
              rcases hby with hby | hby
              · exact hby hb
              · exact hby (hy ▸ List.mem_cons_self ..)
            rw [hkept b y (hby.imp_right fun hy hmem => hy (List.mem_cons_of_mem _ hmem)),
              Store.get?_frame_write ha, if_neg hne]

/-- **A call that comes to its end** has run the body behind the parameters, and left what that has
left. -/
theorem call_done (h : call setting (fuel + 1) f arguments site m = .done v m') :
    ∃ m₁, Action.bindArguments f.routine.params arguments
        ({ m with depth := m.depth + 1 }.entering f.environment) = .done () m₁ ∧
      f.parts m arguments = [(.executeAll f.routine.body, m₁)] ∧
      ∃ completion m₂, executeAll setting fuel f.routine.body m₁ = .done completion m₂ ∧
        m₂.store = m'.store := by
  rw [call] at h
  obtain ⟨depth, m₀, hdepth, h⟩ := Action.of_bind_done h
  obtain ⟨rfl, rfl⟩ := Action.of_read_done hdepth
  split at h
  · cases h
  · rename_i hlimit
    obtain ⟨completion, m₃, hbody, h⟩ := Action.of_bind_done h
    have hleft : m₃.store = m'.store := by
      split at h
      · obtain ⟨receiver, m₄, hread, h⟩ := Action.of_bind_done h
        obtain ⟨-, rfl⟩ := Action.of_read_done hread
        obtain ⟨-, rfl⟩ := Action.of_require_done h
        rfl
      · cases h
        rfl
    rw [Action.framed_apply, Action.inChildOf_apply, Action.bind_apply] at hbody
    rw [Closure.parts, if_neg hlimit]
    cases hbind : Action.bindArguments f.routine.params arguments
        ({ m₀ with depth := m₀.depth + 1 }.entering f.environment) with
    | done u m₁ =>
        simp only [hbind] at hbody
        cases hrun : executeAll setting fuel f.routine.body m₁ with
        | done c m₂ =>
            simp only [hrun] at hbody
            cases hbody
            exact ⟨m₁, rfl, rfl, _, m₂, hrun, hleft⟩
        | failed e m₂ =>
            simp only [hrun] at hbody
            cases hbody
        | starved =>
            simp only [hrun] at hbody
            cases hbody
    | failed e m₁ =>
        simp only [hbind] at hbody
        cases hbody
    | starved =>
        simp only [hbind] at hbody
        cases hbody

/-- **An initialiser answers with the receiver** that its innermost frame binds when the call has
come to its end. -/
theorem receiver_of_call_done (hf : f.isInitializer = true)
    (h : call setting fuel f arguments site m = .done v m') :
    m'.store.getAt? f.environment 0 "this" = some v := by
  cases fuel with
  | zero => cases h
  | succ fuel =>
      rw [call] at h
      obtain ⟨depth, m₀, hdepth, h⟩ := Action.of_bind_done h
      split at h
      · cases h
      · obtain ⟨completion, m₁, -, h⟩ := Action.of_bind_done h
        obtain ⟨receiver, m₂, hread, h⟩ := Action.of_bind_done h
        obtain ⟨rfl, rfl⟩ := Action.of_read_done hread
        obtain ⟨hreceiver, rfl⟩ := Action.of_require_done h
        exact hreceiver

/-- A call of a value that is an initialiser answers with its receiver. -/
theorem receiver_of_apply_done (hf : f.isInitializer = true)
    (h : apply setting fuel (.closure f) arguments site m = .done v m') :
    m'.store.getAt? f.environment 0 "this" = some v := by
  cases fuel with
  | zero => cases h
  | succ fuel =>
      rw [apply] at h
      split at h
      · exact receiver_of_call_done hf h
      · cases h

end Calls

/-! ### Methods that are initialisers -/

/-- A value that brings no methods with it but such as are initialisers exactly if they are called
`init`. -/
def Value.Marked (v : Value) : Prop :=
  v.Brings (fun _ => True) fun name f => f.isInitializer = (name == "init")

/-! ### Class calls -/

/-- **A body that runs for a receiver**, from a moment to the store that it leaves: the frame in
front binds the parameters to the arguments, and the one behind it binds `this` to the receiver. -/
structure Moment.RunsFor (setting : Setting) (k : Moment) (f : Closure) (arguments : List Value)
    (receiver : Value) (left : Store) : Prop where
  task : k.task = .executeAll f.routine.body
  this : k.machine.store.getAt? k.machine.scope 1 "this" = some receiver
  arity : arguments.length = f.routine.params.length
  params : ∀ (i : Nat) (p : Param), f.routine.params[i]? = some p →
    k.machine.store.getAt? k.machine.scope 0 p.name = arguments[i]?
  ends : ∃ m, k.task.outcome setting k.fuel k.machine = .done () m ∧ m.store = left

section ClassCalls

variable {setting : Setting} {fuel : Nat} {m m' : Machine} {c : Class} {f : Closure}
  {arguments : List Value} {site : Span} {v : Value}

/-- **A call of a class that comes to its end** has made an object, and called the initialiser of
the class for it if there is one. -/
theorem apply_class_done (h : apply setting (fuel + 1) (.cls c) arguments site m = .done v m') :
    arguments.length = c.arity ∧ v = .object m.store.objects.size c ∧
    (c.findMethod? "init" = none → (Value.cls c).parts m arguments site = []) ∧
    ∀ f, c.findMethod? "init" = some f → ∃ m₁ w,
      m₁ = { m with store := ((m.store.newObject c).2.bind f v).2 } ∧
      (Value.cls c).parts m arguments site =
        [(.call ((m.store.newObject c).2.bind f v).1 arguments site, m₁)] ∧
      call setting fuel ((m.store.newObject c).2.bind f v).1 arguments site m₁ = .done w m' := by
  rw [apply] at h
  split at h
  · rename_i harity
    obtain ⟨object, m₀, hobject, h⟩ := Action.of_bind_done h
    cases hobject
    rw [Value.parts, if_pos harity]
    cases hinit : c.findMethod? "init" with
    | none =>
        simp only [hinit] at h
        cases h
        exact ⟨harity, rfl, fun _ => rfl, fun f hf => absurd hf.symm (Option.some_ne_none f)⟩
    | some f =>
        simp only [hinit] at h
        obtain ⟨bound, m₁, hbound, h⟩ := Action.of_bind_done h
        cases hbound
        obtain ⟨w, m₂, hcall, h⟩ := Action.of_bind_done h
        cases h
        refine ⟨harity, rfl, fun hnone => absurd hnone (Option.some_ne_none f), fun g hg => ?_⟩
        cases hg
        exact ⟨_, w, rfl, rfl, hcall⟩
  · cases h

/-- A call of a method with a receiver runs its body for the receiver. -/
theorem runsFor_of_call_done {s : Store} (hparams : ∀ p ∈ f.routine.params, Plain p.name)
    (hnodup : (f.routine.params.map Param.name).Nodup) (harity : arguments.length = f.arity)
    (hm : m.store = (s.bind f v).2) {w : Value}
    (h : call setting (fuel + 1) (s.bind f v).1 arguments site m = .done w m') :
    ∃ m₁, (s.bind f v).1.parts m arguments = [(.executeAll f.routine.body, m₁)] ∧
      Moment.RunsFor setting ⟨.executeAll f.routine.body, fuel, m₁⟩ f arguments v m'.store := by
  obtain ⟨m₁, hbind, hparts, completion, m₂, hrun, hleft⟩ := call_done h
  have hsize : m.store.frames.size <
      ({ m with depth := m.depth + 1 }.entering (s.bind f v).1.environment).store.frames.size :=
    Nat.lt_of_lt_of_eq (Nat.lt_succ_self _) (m.store.size_child (s.bind f v).1.environment).symm
  obtain ⟨t, ht, hbound, hkept⟩ := bindArguments_done rfl hsize hnodup harity
  obtain ⟨-, rfl⟩ := Outcome.done.inj (hbind.symm.trans ht)
  refine ⟨_, hparts, rfl, ?_, harity, hbound, _, congrArg Outcome.forget hrun, hleft⟩
  have hthis : "this" ∉ f.routine.params.map Param.name := fun hmem => by
    obtain ⟨p, hp, hname⟩ := List.mem_map.1 hmem
    exact (hparams p hp).1 hname
  change (t.frame s.frames.size).get? "this" = some v
  rw [hkept _ _ (.inr hthis)]
  change ((m.store.child (s.bind f v).1.environment).2.frame s.frames.size).get? "this" = some v
  rw [Store.frame_child, hm, Store.get?_frame_bind, if_pos rfl]

end ClassCalls

/-- **What a call of a class does**, at a moment of a run: it yields a new object of the class,
which no other event has made, and on the way the nearest initialiser of the class runs once for the
object, if there is one. -/
structure Instantiated (run : Run) (history : List Making) (k : Moment) (c : Class)
    (arguments : List Value) (v : Value) (left : Store) : Prop where
  object : v = .object k.machine.store.objects.size c
  made : ⟨k, v⟩ ∈ history
  new : ∀ e ∈ history, e.moment ≠ k → e.value.same v = false
  plain : c.lineage.findSome? (·.get? "init") = none → arguments = [] ∧ k.next run.setting = []
  initialized : ∀ f, c.lineage.findSome? (·.get? "init") = some f → ∃ start body,
    k.next run.setting = [start] ∧ start.next run.setting = [body] ∧
      body.RunsFor run.setting f arguments v left

/-- **How a method of an object is obtained by its name**: by an access to a property that is not a
field of the object, or as a method of the superclass for the receiver. -/
inductive Moment.Obtains (setting : Setting) (j : Moment) (name : String) : Value → Closure → Prop
  | property {mark : Mark} {object : Expr} {fuel : Nat} {i : ObjectId} {c : Class} {g : Closure}
      {m₁ m' : Machine} (task : j.task = .evaluate (.get mark object name))
      (fuel_eq : j.fuel = fuel + 1)
      (receiver : evaluate setting fuel object j.machine = .done (.object i c) m₁)
      (hidden : (m₁.store.fields i).get? name = none)
      (value : evaluate setting j.fuel (.get mark object name) j.machine = .done (.closure g) m') :
      Obtains setting j name (.object i c) g
  | ancestor {mark : Mark} {inner : Nat} {receiver : Value} {g : Closure} {m' : Machine}
      (task : j.task = .evaluate (.superRef mark name))
      (distance : setting.distances[mark.id]? = some (inner + 1))
      (this : j.machine.store.getAt? j.machine.scope inner "this" = some receiver)
      (value : evaluate setting j.fuel (.superRef mark name) j.machine = .done (.closure g) m') :
      Obtains setting j name receiver g

/-- **What class calls and initialisers yield** in runs in which a history of events has been
made. -/
structure Initializing (runs : List Run) (history : List Making) : Prop where
  /-- An object that comes up has been made by an event. -/
  origin : ∀ i c, Arises runs (.object i c) → ∃ e ∈ history, e.value = .object i c
  /-- A call of a class that succeeds yields a new object, for which its initialiser has run. -/
  classCall : ∀ run ∈ runs, ∀ k, run.Passes k → ∀ c arguments site,
    k.task = .apply (.cls c) arguments site → ∀ v m,
      apply run.setting k.fuel (.cls c) arguments site k.machine = .done v m →
        Instantiated run history k c arguments v m.store
  /-- A call of a function that was obtained as `init` yields the receiver if it succeeds, at
  whatever moment of whichever run. -/
  initializer : ∀ run ∈ runs, ∀ j, run.Passes j → ∀ receiver g,
    j.Obtains run.setting "init" receiver g →
      ∀ run' ∈ runs, ∀ k, run'.Passes k → ∀ arguments site,
        k.task = .apply (.closure g) arguments site → ∀ v m,
          apply run'.setting k.fuel (.closure g) arguments site k.machine = .done v m → v = receiver

/-- **A method that was obtained** is over a frame that has just been made for its receiver, and is
an initialiser exactly if it is called `init`. -/
theorem Moment.Obtains.bound {setting : Setting} {j : Moment} {name : String} {receiver : Value}
    {g : Closure} (h : j.Obtains setting name receiver g)
    (hmarked : ∀ l, j.Leads setting l → ∀ v, l.Reaches setting v → v.Marked) :
    g.isInitializer = (name == "init") ∧ ∃ (s : Store) (f : Closure),
      g = (s.bind f receiver).1 ∧ j.Shows setting (s.bind f receiver).2 := by
  obtain ⟨task, fuel, m⟩ := j
  cases h with
  | @property mark object fuel i c _ m₁ m' htask hfuel hobject hhidden hvalue =>
      cases htask
      cases hfuel
      have hc : (Value.object i c).Marked := hmarked ⟨.evaluate object, fuel, m⟩
        (.single (mem_next.2 ⟨fuel, rfl, rfl, List.mem_cons_self ..⟩)) _ (.value rfl hobject)
      cases hf : c.findMethod? name with
      | none =>
          rw [evaluate, Action.bind_apply, hobject] at hvalue
          change (Action.onStore (fun s => s.property i c name) >>= fun found =>
            Action.require found (.undefinedProperty name) mark.span) m₁ = _ at hvalue
          simp only [Action.onStore_bind, Store.property, hhidden, hf] at hvalue
          cases hvalue
      | some f =>
          have hend : evaluate setting (fuel + 1) (.get mark object name) m = _ :=
            evaluate_get_of_method hobject hhidden hf
          rw [hend] at hvalue
          cases hvalue
          have hinit : f.isInitializer = (name == "init") := hc hf
          exact ⟨hinit, m₁.store, f, rfl, .inr (congrArg (·.forget.store?) hend)⟩
  | @ancestor mark inner _ _ m' htask hdistance hthis hvalue =>
      cases htask
      cases fuel with
      | zero => cases hvalue
      | succ fuel =>
          obtain ⟨inner', parent, i, c, f, hdistance', hparent, hthis', hf, hg, hm'⟩ :=
            superMethod_done hvalue
          cases hdistance.symm.trans hdistance'
          cases hthis.symm.trans hthis'
          cases hg
          have hc : (Value.cls parent).Marked := by
            obtain ⟨a, -, hbound⟩ := Store.getAt?_eq_some_iff.1 hparent
            exact hmarked _ .refl _ (.bound hbound)
          have hinit : f.isInitializer = (name == "init") := hc hf
          refine ⟨hinit, m.store, f, rfl, .inr ?_⟩
          rw [Task.outcome, hvalue, hm']
          rfl

namespace Session

variable (output : Output) (clock : Nat → Float) (fuel : Nat) (steps : List (Mode × String))

/-- **All values that come up in a session are marked.** -/
theorem marked {run : Run} (hrun : run ∈ (start output clock).runs fuel steps) {k : Moment}
    (hk : run.Passes k) : ∀ v, k.Reaches run.setting v → v.Marked := by
  have hguarded : ∀ run ∈ (start output clock).runs fuel steps,
      run.Guarded (.bringing (fun _ => True) fun name f => f.isInitializer = (name == "init"))
        run.Passes := fun run hrun => by
    obtain ⟨known, -, hprepared⟩ := (running_start output clock fuel steps).prepared hrun
    exact hprepared.guarded (fun _ hk => hk)
      (fun _ _ _ _ hm hoperands hsources => Task.brings_made hm hoperands hsources
        (fun _ _ _ => trivial) (fun _ _ _ _ _ _ _ _ _ _ => rfl) fun _ _ _ _ _ => trivial)
      (fun _ _ hk hl _ _ => hk.next hl) fun _ htop => Run.passes_of_mem_tops htop
  obtain ⟨hG, hm, hoperands⟩ :=
    passes_of_guarded output clock fuel steps plain_clock hguarded hrun hk
  exact fun v hv => (hguarded run hrun).guards.value_of_reaches hG hm hoperands hv

/-- What a call of a class does at a moment of a run of a session. -/
theorem instantiated {run : Run} (hrun : run ∈ (start output clock).runs fuel steps) {k : Moment}
    (hk : run.Passes k) {c : Class} {arguments : List Value} {site : Span}
    (htask : k.task = .apply (.cls c) arguments site) {v : Value} {m : Machine}
    (hdone : apply run.setting k.fuel (.cls c) arguments site k.machine = .done v m) :
    Instantiated run ((start output clock).history fuel steps) k c arguments v m.store := by
  obtain ⟨known, -, hprepared⟩ := (running_start output clock fuel steps).prepared hrun
  obtain ⟨task, given, m₀⟩ := k
  cases htask
  cases given with
  | zero => cases hdone
  | succ given =>
      obtain ⟨harity, rfl, hplain, hinit⟩ := apply_class_done hdone
      have hmade : Value.object m₀.store.objects.size c ∈
          (Task.apply (.cls c) arguments site).made run.setting given m₀ := by
        rw [Task.made, if_pos harity]
        exact List.mem_cons_self ..
      have hevent : ⟨⟨.apply (.cls c) arguments site, given + 1, m₀⟩,
          .object m₀.store.objects.size c⟩ ∈ (start output clock).history fuel steps :=
        mem_history.2 ⟨run, hrun, hk, given, rfl, hmade⟩
      refine ⟨rfl, hevent, fun e he hne => ?_, fun hnone => ?_, fun f hf => ?_⟩
      · have hapart := apart_of_ne output clock fuel steps he hevent fun heq =>
          hne (congrArg Making.moment heq)
        exact hapart.value
      · rw [← Class.findMethod?_eq_findSome?] at hnone
        have hzero : c.arity = 0 := by
          rw [Class.arity, hnone]
        refine ⟨List.eq_nil_of_length_eq_zero (harity.trans hzero), ?_⟩
        exact congrArg (List.map _) (hplain hnone)
      · rw [← Class.findMethod?_eq_findSome?] at hf
        obtain ⟨m₁, w, hm₁, hparts, hcall⟩ := hinit f hf
        have harity' : arguments.length = f.arity := by
          rw [harity, Class.arity, hf]
        have hnext : (⟨.apply (.cls c) arguments site, given + 1, m₀⟩ : Moment).next run.setting =
            [⟨.call ((m₀.store.newObject c).2.bind f (.object m₀.store.objects.size c)).1 arguments
              site, given, m₁⟩] := congrArg (List.map _) hparts
        have hstart := hk.next (hnext ▸ List.mem_singleton.2 rfl)
        obtain ⟨hparams, hnodup⟩ := hprepared.params hstart rfl
        cases given with
        | zero => cases hcall
        | succ given =>
            have hstore : m₁.store =
                ((m₀.store.newObject c).2.bind f (.object m₀.store.objects.size c)).2 :=
              congrArg Machine.store hm₁
            obtain ⟨m₂, hparts', hruns⟩ :=
              runsFor_of_call_done (f := f) hparams hnodup harity' hstore hcall
            exact ⟨_, _, hnext, congrArg (List.map _) hparts', hruns⟩

/-- **Class calls yield new objects, and initialisers their receivers**, in every session: whatever
the bodies return, and however long a function is kept before it is called. -/
theorem calls_yield_objects_and_receivers :
    Initializing ((start output clock).runs fuel steps)
      ((start output clock).history fuel steps) where
  origin _ _ h := making_of_arises output clock fuel steps h trivial
  classCall _ hrun _ hk _ _ _ htask _ _ hdone :=
    instantiated output clock fuel steps hrun hk htask hdone
  initializer := by
    intro run hrun j hj receiver g hobtains run' hrun' k hk arguments site htask v m hdone
    have hmarked : ∀ l, j.Leads run.setting l → ∀ v, l.Reaches run.setting v → v.Marked := by
      intro l hl
      obtain ⟨top, htop, hleads⟩ := hj
      exact marked output clock fuel steps hrun ⟨top, htop, hleads.trans hl⟩
    obtain ⟨hinit, s, f, rfl, hshows⟩ := hobtains.bound hmarked
    have hshows' : k.Shows run'.setting m.store := by
      refine .inr ?_
      rw [htask, Task.outcome, hdone]
      rfl
    have hreceiver : (m.store.frame s.frames.size).get? "this" = some v := by
      obtain ⟨a, ha, hbound⟩ := Store.getAt?_eq_some_iff.1 (receiver_of_apply_done hinit hdone)
      cases ha
      exact hbound
    have hreserved : ¬Plain "this" := fun h => h.1 rfl
    exact (reserved_unique output clock fuel steps hreserved hrun hrun' ⟨j, hj, hshows⟩
      ⟨k, hk, hshows'⟩ ((s.get?_frame_bind f receiver "this").trans (if_pos rfl)) hreceiver).symm

/-- An initialiser that was stored answers with its receiver, also if it returns in a block. -/
example :
    ((start (.lines #[]) fun _ => 0).step .run 60
      "class A \x7b init(x) \x7b this.x = x; if (true) \x7b return; \x7d \x7d \x7d
      var a = A(\"old\"); var f = a.init; print f(\"new\") == a; print a.x;").map
        (fun answer => answer.2.printed) = some ["true", "new"] := by
  decide +kernel

end Session

end Scriptlet
