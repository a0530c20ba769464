/-
**Equality is identity of creation.**

A function, a class or an object that comes up in a session has been made by an event of the
session, and by one only.  Two of them are equal exactly if it is the same event.  A function is
known by its declaration and its environment, so this says in particular that no declaration is
executed twice in one environment, in whatever loops and calls, and that each time a method is given
its receiver it becomes another function.

Numbers are compared as numbers, and all but `NaN` are equal to themselves.  So equality is
symmetric and transitive, and reflexive but for `NaN`.

Main definitions:

* `Scriptlet.Moment.Reaches`, `Scriptlet.Arises` — the values that come up at a moment, and in
  runs;
* `Scriptlet.MadeBy` — values that are made by an event;
* `Scriptlet.Identified` — **what equality means** in runs.

Main results:

* `Scriptlet.Value.same_symm`, `Scriptlet.Value.same_trans`, `Scriptlet.Value.same_refl_iff` —
  equality of all values;
* `Scriptlet.Run.guarded_recorded`, `Scriptlet.Policy.Guards.value_of_reaches` — what comes up in a
  run has been made;
* `Scriptlet.Session.equality_is_identity` — **equality is identity of creation.**
-/

import Mathlib.Data.List.Pairwise
import Scriptlet.Proofs.Origin.Runs

set_option relaxedAutoImplicit false
set_option autoImplicit false

namespace Scriptlet

/-! ### Numbers -/

section Numbers

open Float.Model

/-- What tells numbers from each other: sign, exponent and mantissa.  Both zeros are alike, and `NaN`
is like no number. -/
def numberKey : UnpackedFloat → Option (Option UnpackedFloat.Sign × Option (Int × Nat))
  | .notANumber => none
  | .infinity s => some (some s, none)
  | .zero _ => some (none, none)
  | .finite s m e _ => some (some s, some (e, m))

theorem compare_then_eq_iff (m m' : Nat) (e e' : Int) :
    (compare e e').then (compare m m') = .eq ↔ e = e' ∧ m = m' := by
  rw [Ordering.then_eq_eq, Int.compare_eq_eq, Nat.compare_eq_eq]

/-- **Numbers are equal if they have a key in common.** -/
theorem unpacked_beq_iff (a b : UnpackedFloat) :
    a.beq b = true ↔ ∃ key, numberKey a = some key ∧ numberKey b = some key := by
  unfold UnpackedFloat.beq
  rw [beq_iff_eq]
  cases a with
  | notANumber => exact iff_of_false nofun nofun
  | infinity s =>
      cases b with
      | infinity s' =>
          cases s <;> cases s' <;> dsimp only [UnpackedFloat.compare, numberKey] <;> simp [compare]
      | _ => cases s <;> dsimp only [UnpackedFloat.compare, numberKey] <;> simp
  | zero s =>
      cases b with
      | infinity s' => cases s' <;> dsimp only [UnpackedFloat.compare, numberKey] <;> simp
      | finite s' m e h => cases s' <;> dsimp only [UnpackedFloat.compare, numberKey] <;> simp
      | _ =>
          dsimp only [UnpackedFloat.compare, numberKey]
          simp
  | finite s m e h =>
      cases b with
      | finite s' m' e' h' =>
          have hsame := compare_then_eq_iff m m' e e'
          cases s <;> cases s' <;> dsimp only [UnpackedFloat.compare, numberKey] <;>
            simp [hsame, @eq_comm _ e, @eq_comm _ m]
      | infinity s' =>
          cases s <;> cases s' <;> dsimp only [UnpackedFloat.compare, numberKey] <;> simp
      | _ => cases s <;> dsimp only [UnpackedFloat.compare, numberKey] <;> simp

variable {a b c : UnpackedFloat}

theorem unpacked_beq_symm (h : a.beq b = true) : b.beq a = true := by
  obtain ⟨key, ha, hb⟩ := (unpacked_beq_iff a b).1 h
  exact (unpacked_beq_iff b a).2 ⟨key, hb, ha⟩

theorem unpacked_beq_trans (h : a.beq b = true) (h' : b.beq c = true) : a.beq c = true := by
  obtain ⟨key, ha, hb⟩ := (unpacked_beq_iff a b).1 h
  obtain ⟨key', hb', hc⟩ := (unpacked_beq_iff b c).1 h'
  obtain rfl := Option.some.inj (hb.symm.trans hb')
  exact (unpacked_beq_iff a c).2 ⟨key, ha, hc⟩

theorem unpacked_beq_refl_iff : a.beq a = true ↔ a.isNaN = false := by
  rw [unpacked_beq_iff]
  cases a with
  | notANumber => exact iff_of_false nofun nofun
  | _ => exact iff_of_true ⟨_, rfl, rfl⟩ rfl

end Numbers

/-! ### Equality of values -/

/-- The types of values. -/
inductive ValueType
  | number
  | string
  | bool
  | nil
  | function
  | cls
  | object
deriving DecidableEq

/-- The type of a value. -/
def Value.type : Value → ValueType
  | .number _ => .number
  | .string _ => .string
  | .bool _ => .bool
  | .nil => .nil
  | .native _ | .closure _ => .function
  | .cls _ => .cls
  | .object _ _ => .object

namespace Value

variable {u v w : Value}

theorem same_symm (h : v.same w = true) : w.same v = true := by
  unfold same at h ⊢
  split at h
  · rfl
  · exact beq_iff_eq.2 (eq_of_beq h).symm
  · exact unpacked_beq_symm h
  · exact beq_iff_eq.2 (eq_of_beq h).symm
  · exact beq_iff_eq.2 (eq_of_beq h).symm
  · obtain ⟨hlabel, henvironment⟩ := Bool.and_eq_true_iff.1 h
    exact Bool.and_eq_true_iff.2 ⟨beq_iff_eq.2 (eq_of_beq hlabel).symm,
      beq_iff_eq.2 (eq_of_beq henvironment).symm⟩
  · exact beq_iff_eq.2 (eq_of_beq h).symm
  · exact beq_iff_eq.2 (eq_of_beq h).symm
  · cases h

theorem same_comm (v w : Value) : v.same w = w.same v := Bool.eq_iff_iff.2 ⟨same_symm, same_symm⟩

/-- Values of different types are not equal. -/
theorem type_eq_of_same (h : v.same w = true) : v.type = w.type := by
  unfold same at h
  split at h
  all_goals first | rfl | cases h

theorem native_same_iff {f : Native} : (Value.native f).same v = true ↔ v = .native f := by
  cases v with
  | native g =>
      refine beq_iff_eq.trans ⟨fun h => ?_, fun h => ?_⟩
      · rw [h]
      · cases h
        rfl
  | _ => exact iff_of_false nofun nofun

theorem same_trans (h : u.same v = true) (h' : v.same w = true) : u.same w = true := by
  unfold same at h
  split at h
  · exact h'
  · rwa [eq_of_beq h]
  · cases w with
    | number z => exact unpacked_beq_trans h h'
    | _ => cases h'
  · rwa [eq_of_beq h]
  · rwa [eq_of_beq h]
  · cases w with
    | closure g' =>
        obtain ⟨hlabel, henvironment⟩ := Bool.and_eq_true_iff.1 h
        change (_ && _) = true
        rwa [eq_of_beq hlabel, eq_of_beq henvironment]
    | _ => cases h'
  · cases w with
    | cls c' =>
        change (_ == _) = true
        rwa [eq_of_beq h]
    | _ => cases h'
  · cases w with
    | object i' c' =>
        change (_ == _) = true
        rwa [eq_of_beq h]
    | _ => cases h'
  · cases h

/-- **A value is equal to itself** unless it is `NaN`. -/
theorem same_refl_iff : v.same v = true ↔ ∀ x, v = .number x → x.isNaN = false := by
  have hself (h : v.same v = true) (hv : ∀ x, v ≠ .number x) :
      v.same v = true ↔ ∀ x, v = .number x → x.isNaN = false :=
    iff_of_true h fun x hx => absurd hx (hv x)
  cases v with
  | number x =>
      refine unpacked_beq_refl_iff.trans ⟨fun h y hy => ?_, fun h => h x rfl⟩
      cases hy
      exact h
  | string s => exact hself BEq.rfl nofun
  | bool b => exact hself BEq.rfl nofun
  | nil => exact hself rfl nofun
  | native f => exact hself BEq.rfl nofun
  | closure f => exact hself (Bool.and_eq_true_iff.2 ⟨BEq.rfl, BEq.rfl⟩) nofun
  | cls c => exact hself BEq.rfl nofun
  | object i c => exact hself BEq.rfl nofun

/-- A function of the program, a class or an object is equal to itself. -/
theorem same_self (h : v.IsMade) : v.same v = true :=
  same_refl_iff.2 fun x hx => by
    rw [hx] at h
    exact h.elim

end Value

/-! ### What comes up in runs -/

/-- **A value that comes up at a moment**: it is bound in a frame or a field, a task is given it, or
it is the value of an expression. -/
inductive Moment.Reaches (setting : Setting) (k : Moment) : Value → Prop
  | bound {a : FrameId} {x : String} {v : Value}
      (h : (k.machine.store.frame a).get? x = some v) : Reaches setting k v
  | field {i : ObjectId} {x : String} {v : Value}
      (h : (k.machine.store.fields i).get? x = some v) : Reaches setting k v
  | operand {v : Value} (h : v ∈ k.task.operands) : Reaches setting k v
  | value {e : Expr} {v : Value} {m : Machine} (htask : k.task = .evaluate e)
      (h : evaluate setting k.fuel e k.machine = .done v m) : Reaches setting k v

/-- **A value that comes up in one of the runs.** -/
def Arises (runs : List Run) (v : Value) : Prop :=
  ∃ run ∈ runs, ∃ k, run.Passes k ∧ k.Reaches run.setting v

/-- The policy that what there is has been made. -/
def Policy.recorded (history : List Making) : Policy where
  value v := v.IsMade → ∃ e ∈ history, e.value = v
  binding _ _ v := v.IsMade → ∃ e ∈ history, e.value = v
  name _ := True
  plain _ hv hmade := absurd hmade hv
  binds _ _ _ _ hv := hv
  bound _ _ _ hv := hv
  receives _ _ hv := hv

section Recorded

variable {history : List Making} {run : Run} {setting : Setting} {fuel : Nat} {m : Machine}

/-- In a run all that there is has been made. -/
theorem Run.guarded_recorded (hrun : ∀ e ∈ run.makings, e ∈ history) :
    run.Guarded (.recorded history) run.Passes where
  guards :=
    { made := fun t fuel m hk _ _ _ v hv _ =>
        ⟨⟨⟨t, fuel + 1, m⟩, v⟩, hrun _ (mem_allMakes.2 ⟨hk, fuel, rfl, hv⟩), rfl⟩
      names := fun _ _ _ _ => trivial
      super := fun _ _ _ _ hm _ hc => Task.value_of_mem_ancestors hm hc
      next := fun _ _ hk hl _ _ => hk.next hl }
  tops := fun _ htop _ => Run.passes_of_mem_tops htop

/-- **What comes up in a run has been made.** -/
theorem Policy.Guards.value_of_reaches {P : Policy} {G : Moment → Prop}
    (h : P.Guards setting G) {k : Moment} (hG : G k) (hm : P.Held k.machine.store)
    (hoperands : ∀ v ∈ k.task.operands, P.value v) {v : Value} (hv : k.Reaches setting v) :
    P.value v := by
  cases hv with
  | bound hbound => exact P.bound _ _ _ (hm.frames hbound)
  | field hfield => exact hm.fields hfield
  | operand hoperand => exact hoperands v hoperand
  | @value e _ m₁ htask hdone =>
      obtain ⟨task, fuel, m⟩ := k
      cases htask
      have hends := h.upholds hG hm hoperands
      change P.Ends m.store P.value (evaluate setting fuel e m) at hends
      rw [hdone] at hends
      exact hends.2.2

end Recorded

/-! ### Identity of creation -/

/-- What tasks make is a function, a class or an object. -/
theorem Task.Creates.isMade {t : Task} {v : Value} (h : t.Creates v) : v.IsMade := by
  unfold Creates at h
  split at h
  all_goals trivial

/-- **A value that is made by an event**, given by its place among all events. -/
def MadeBy (history : List Making) (i : Nat) (v : Value) : Prop :=
  ∃ e, history[i]? = some e ∧ e.value = v

/-- **What equality means** in runs in which a history of events has been made. -/
structure Identified (runs : List Run) (history : List Making) : Prop where
  /-- The events are those of the runs: what is made at a moment is made by an event. -/
  events : ∀ e, e ∈ history ↔ ∃ run ∈ runs, run.Passes e.moment ∧
    ∃ fuel, e.moment.fuel = fuel + 1 ∧ e.value ∈ e.moment.task.made run.setting fuel e.moment.machine
  /-- An event is the execution of a function or class declaration, the call of a class, or an access
  that gives a method its receiver. -/
  creates : ∀ e ∈ history, e.moment.task.Creates e.value
  /-- No event is counted twice. -/
  once : history.Nodup
  /-- A function of the program, a class or an object is made by one event. -/
  origin : ∀ v, Arises runs v → v.IsMade → ∃! i, MadeBy history i v
  /-- Two of them are equal exactly if it is the same event. -/
  made : ∀ v w, Arises runs v → Arises runs w → v.IsMade → w.IsMade →
    (BinaryOp.equal.apply v w = .ok (.bool true) ↔ ∃ i, MadeBy history i v ∧ MadeBy history i w)
  /-- A native function is equal to itself only. -/
  native : ∀ f v, BinaryOp.equal.apply (.native f) v = .ok (.bool true) ↔ v = .native f
  /-- Values of different types are not equal. -/
  types : ∀ v w : Value, v.type ≠ w.type → BinaryOp.equal.apply v w = .ok (.bool false)
  symm : ∀ v w, BinaryOp.equal.apply v w = BinaryOp.equal.apply w v
  trans : ∀ u v w, BinaryOp.equal.apply u v = .ok (.bool true) →
    BinaryOp.equal.apply v w = .ok (.bool true) → BinaryOp.equal.apply u w = .ok (.bool true)
  /-- A value is equal to itself exactly if it is not `NaN`. -/
  refl : ∀ v : Value, BinaryOp.equal.apply v v = .ok (.bool true) ↔
    ∀ x, v = .number x → x.isNaN = false

theorem equal_apply_eq_true {v w : Value} :
    BinaryOp.equal.apply v w = .ok (.bool true) ↔ v.same w = true := by
  change Except.ok (Value.bool (v.same w)) = _ ↔ _
  rw [Except.ok.injEq, Value.bool.injEq]

section Apart

variable {history : List Making}

/-- Events at different places make values that are not the same. -/
theorem eq_of_madeBy (h : history.Pairwise Making.Apart) {i j : Nat} {v w : Value}
    (hv : MadeBy history i v) (hw : MadeBy history j w) (hsame : v.same w = true) : i = j := by
  obtain ⟨e, hi, rfl⟩ := hv
  obtain ⟨e', hj, rfl⟩ := hw
  obtain ⟨hi', rfl⟩ := List.getElem?_eq_some_iff.1 hi
  obtain ⟨hj', rfl⟩ := List.getElem?_eq_some_iff.1 hj
  rcases Nat.lt_trichotomy i j with hlt | heq | hlt
  · have hapart := (List.pairwise_iff_getElem.1 h i j hi' hj' hlt).value
    rw [hsame] at hapart
    cases hapart
  · exact heq
  · have hapart := (List.pairwise_iff_getElem.1 h j i hj' hi' hlt).value
    rw [Value.same_comm, hsame] at hapart
    cases hapart

theorem exists_madeBy {v : Value} (h : ∃ e ∈ history, e.value = v) : ∃ i, MadeBy history i v := by
  obtain ⟨e, he, hvalue⟩ := h
  obtain ⟨i, hi⟩ := List.getElem?_of_mem he
  exact ⟨i, e, hi, hvalue⟩

end Apart

instance : Std.Symm Making.Apart where
  symm e e' h := ⟨by rw [Value.same_comm, h.value], fun a ha b hb => (h.frame b hb a ha).symm⟩

/-- **Two events of a session can be told apart**, unless they are one. -/
theorem Session.apart_of_ne (output : Output) (clock : Nat → Float) (fuel : Nat)
    (steps : List (Mode × String)) {e e' : Making}
    (he : e ∈ (start output clock).history fuel steps)
    (he' : e' ∈ (start output clock).history fuel steps) (hne : e ≠ e') : e.Apart e' :=
  (apart_history output clock fuel steps).forall he he' hne

/-- **What comes up in a session has been made in it.** -/
theorem Session.making_of_arises (output : Output) (clock : Nat → Float) (fuel : Nat)
    (steps : List (Mode × String)) {v : Value}
    (hv : Arises ((start output clock).runs fuel steps) v) (hv' : v.IsMade) :
    ∃ e ∈ (start output clock).history fuel steps, e.value = v := by
  obtain ⟨run, hrun, k, hk, hreaches⟩ := hv
  have hguarded : ∀ run ∈ (start output clock).runs fuel steps,
      run.Guarded (.recorded ((start output clock).history fuel steps)) run.Passes :=
    fun run hrun => Run.guarded_recorded fun e he => List.mem_flatMap.2 ⟨run, hrun, he⟩
  obtain ⟨hG, hm, hoperands⟩ := passes_of_guarded output clock fuel steps trivial hguarded hrun hk
  exact (hguarded run hrun).guards.value_of_reaches hG hm hoperands hreaches hv'

/-- **Equality is identity of creation**, in every session: whatever sources it takes, in whichever
way and with whatever success, functions, classes and objects are equal exactly if they have been
made by the same event. -/
theorem Session.equality_is_identity (output : Output) (clock : Nat → Float) (fuel : Nat)
    (steps : List (Mode × String)) :
    Identified ((start output clock).runs fuel steps)
      ((start output clock).history fuel steps) := by
  have hapart := apart_history output clock fuel steps
  have hmade : ∀ v, Arises ((start output clock).runs fuel steps) v → v.IsMade →
      ∃ i, MadeBy ((start output clock).history fuel steps) i v := fun v hv hv' =>
    exists_madeBy (making_of_arises output clock fuel steps hv hv')
  have hcreates : ∀ e ∈ (start output clock).history fuel steps,
      e.moment.task.Creates e.value := by
    intro e he
    obtain ⟨run, -, -, left, -, hvalue⟩ := mem_history.1 he
    exact Task.creates_of_mem_made hvalue
  refine
    { events := fun _ => mem_history
      creates := hcreates
      once := ?_
      origin := fun v hv hv' => ?_
      made := fun v w hv hw hv' hw' => equal_apply_eq_true.trans ?_
      native := fun f v => ?_
      types := fun v w h => ?_
      symm := fun v w => congrArg (fun b => Except.ok (Value.bool b)) (v.same_comm w)
      trans := fun u v w h h' => equal_apply_eq_true.2
        (Value.same_trans (equal_apply_eq_true.1 h) (equal_apply_eq_true.1 h'))
      refl := fun v => equal_apply_eq_true.trans Value.same_refl_iff }
  · refine hapart.imp_of_mem fun {e e'} he _ happart heq => ?_
    have hsame := happart.value
    rw [← heq, Value.same_self (hcreates e he).isMade] at hsame
    cases hsame
  · obtain ⟨i, hi⟩ := hmade v hv hv'
    exact ⟨i, hi, fun j hj => eq_of_madeBy hapart hj hi (Value.same_self hv')⟩
  · constructor
    · intro h
      obtain ⟨i, hi⟩ := hmade v hv hv'
      obtain ⟨j, hj⟩ := hmade w hw hw'
      obtain rfl := eq_of_madeBy hapart hi hj h
      exact ⟨i, hi, hj⟩
    · rintro ⟨i, ⟨e, he, rfl⟩, e', he', rfl⟩
      rw [he] at he'
      cases he'
      exact Value.same_self hv'
  · rw [equal_apply_eq_true]
    exact Value.native_same_iff
  · have hsame : v.same w = false := Bool.eq_false_iff.2 fun hsame => h (Value.type_eq_of_same hsame)
    change Except.ok (Value.bool (v.same w)) = _
    rw [hsame]

/-- A method becomes another function each time it is accessed. -/
example :
    ((Session.start (.lines #[]) fun _ => 0).step .run 40
      "class A \x7b m() \x7b\x7d \x7d var a = A(); var m = a.m; print m == m; print m == a.m;").map
        (fun answer => answer.2.printed) = some ["true", "false"] := by
  decide +kernel

end Scriptlet
