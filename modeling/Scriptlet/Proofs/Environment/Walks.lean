/-
**Walks along an environment.**

To look a name up or to give it a value is to walk along an environment, from its own frame
outwards.  There are four such walks: one reads and one writes as many frames out as it is told, and
one reads and one writes in the first frame that binds the name.  Where there is such a frame, both
walks that search end in it, and so do the others if they are told how far out it is.

Main definitions:

* `Scriptlet.Store.Nearest` — the first frame of an environment that binds a name.

Main results:

* `Scriptlet.Store.get?_cons`, `Scriptlet.Store.assign_cons` — one step of the walks that search;
* `Scriptlet.Store.nearest_or_unbound` — a name is bound in a first frame, or in none;
* `Scriptlet.Store.Nearest.get?_eq`, `Scriptlet.Store.Nearest.assign_eq` — **to search is to go to
  the first frame that binds the name**;
* `Scriptlet.Store.getAt?_write` — a write is seen wherever the chain goes through its frame, and
  changes nothing else.
-/

import Scriptlet.Proofs.Lexical.Mirror

set_option relaxedAutoImplicit false
set_option autoImplicit false

namespace Scriptlet

namespace Store

/-! ### The steps of the walks -/

section Steps

variable (s : Store) (a : FrameId) (chain : List FrameId) (distance : Nat) (name : String)

@[simp] theorem getAt?_cons_zero : s.getAt? ⟨a :: chain⟩ 0 name = (s.frame a).get? name := rfl

@[simp] theorem getAt?_cons_succ :
    s.getAt? ⟨a :: chain⟩ (distance + 1) name = s.getAt? ⟨chain⟩ distance name := rfl

/-- A name is looked up in the own frame, and then further out. -/
theorem get?_cons :
    s.get? ⟨a :: chain⟩ name = ((s.frame a).get? name).or (s.get? ⟨chain⟩ name) := by
  simp only [get?, holder?, List.find?_cons, Bindings.binds]
  cases h : (s.frame a).get? name with
  | none => rfl
  | some w => exact h

/-- A name gets its value in the own frame if that binds it, and else further out. -/
theorem assign_cons (v : Value) :
    s.assign ⟨a :: chain⟩ name v =
      if (s.frame a).binds name then (true, s.write a name v) else s.assign ⟨chain⟩ name v := by
  simp only [assign, holder?, List.find?_cons]
  cases (s.frame a).binds name <;> rfl

end Steps

/-! ### No walk makes a frame -/

section Sizes

variable (s : Store) (e : Environment) (distance : Nat) (name : String) (v : Value)

theorem frames_size_define : (s.define e name v).frames.size = s.frames.size := by
  unfold define
  split
  · rfl
  · exact frames_size_write ..

theorem frames_size_assign : (s.assign e name v).2.frames.size = s.frames.size := by
  unfold assign
  split
  · exact frames_size_write ..
  · rfl

theorem frames_size_assignAt :
    (s.assignAt e distance name v).2.frames.size = s.frames.size := by
  unfold assignAt
  split
  · exact frames_size_write ..
  · rfl

end Sizes

/-! ### The first frame that binds a name -/

/-- **The first frame of an environment that binds a name**, and how far out it is. -/
structure Nearest (s : Store) (e : Environment) (name : String) (distance : Nat) (a : FrameId) :
    Prop where
  place : e.chain[distance]? = some a
  bound : (s.getAt? e distance name).isSome
  first : ∀ d < distance, s.getAt? e d name = none

section Nearest

variable {s : Store} {e : Environment} {a b : FrameId} {chain : List FrameId} {distance : Nat}
  {name : String}

/-- The own frame is the first if it binds the name. -/
theorem nearest_zero (h : (s.frame a).binds name) : s.Nearest ⟨a :: chain⟩ name 0 a :=
  ⟨rfl, h, nofun⟩

/-- Behind a frame that does not bind the name, the first is what it is without that frame. -/
theorem nearest_succ_iff (h : (s.frame a).get? name = none) :
    s.Nearest ⟨a :: chain⟩ name (distance + 1) b ↔ s.Nearest ⟨chain⟩ name distance b := by
  refine ⟨fun hb => ⟨hb.place, hb.bound, fun d hd => hb.first (d + 1) (Nat.succ_lt_succ hd)⟩,
    fun hb => ⟨hb.place, hb.bound, fun d hd => ?_⟩⟩
  cases d with
  | zero => exact h
  | succ d => exact hb.first d (Nat.lt_of_succ_lt_succ hd)

/-- **A name is bound in a first frame, or in none.** -/
theorem nearest_or_unbound (s : Store) (e : Environment) (name : String) :
    (∃ distance a, s.Nearest e name distance a) ∨ ∀ distance, s.getAt? e distance name = none := by
  obtain ⟨chain⟩ := e
  induction chain with
  | nil => exact .inr fun _ => rfl
  | cons a chain ih =>
      cases h : (s.frame a).get? name with
      | some w => exact .inl ⟨0, a, nearest_zero (Option.isSome_of_mem h)⟩
      | none =>
          rcases ih with ⟨distance, b, hb⟩ | hnone
          · exact .inl ⟨distance + 1, b, (nearest_succ_iff h).2 hb⟩
          · refine .inr fun distance => ?_
            cases distance with
            | zero => exact h
            | succ distance => exact hnone distance

/-- **To look a name up is to read the first frame that binds it.** -/
theorem Nearest.get?_eq (h : s.Nearest e name distance a) :
    s.get? e name = s.getAt? e distance name := by
  obtain ⟨chain⟩ := e
  induction chain generalizing distance with
  | nil => cases h.bound
  | cons b chain ih =>
      rw [get?_cons]
      cases distance with
      | zero =>
          obtain ⟨w, hw⟩ := Option.isSome_iff_exists.1 h.bound
          rw [getAt?_cons_zero] at hw ⊢
          rw [hw, Option.some_or]
      | succ distance =>
          have hb : (s.frame b).get? name = none := h.first 0 (Nat.succ_pos _)
          rw [hb, Option.none_or, getAt?_cons_succ]
          exact ih ((nearest_succ_iff hb).1 h)

/-- **To give a name a value is to write the first frame that binds it.** -/
theorem Nearest.assign_eq (h : s.Nearest e name distance a) (v : Value) :
    s.assign e name v = (true, s.write a name v) := by
  obtain ⟨chain⟩ := e
  induction chain generalizing distance with
  | nil => cases h.bound
  | cons b chain ih =>
      rw [assign_cons]
      cases distance with
      | zero =>
          obtain rfl : b = a := Option.some.inj h.place
          exact if_pos h.bound
      | succ distance =>
          have hb : (s.frame b).get? name = none := h.first 0 (Nat.succ_pos _)
          have hbinds : ¬(s.frame b).binds name := by simp [Bindings.binds, hb]
          rw [if_neg hbinds]
          exact ih ((nearest_succ_iff hb).1 h)

/-- **A name is not found exactly if no frame binds it.** -/
theorem get?_eq_none_iff :
    s.get? e name = none ↔ ∀ distance, s.getAt? e distance name = none := by
  constructor
  · intro hnone
    refine (s.nearest_or_unbound e name).resolve_left fun ⟨distance, a, h⟩ => ?_
    have hbound := h.bound
    rw [← h.get?_eq, hnone] at hbound
    cases hbound
  · intro h
    obtain ⟨chain⟩ := e
    induction chain with
    | nil => rfl
    | cons a chain ih =>
        have ha : (s.frame a).get? name = none := h 0
        rw [get?_cons, ha, Option.none_or, ih fun distance => h (distance + 1)]

/-- A name that no frame binds gets no value. -/
theorem assign_eq_of_unbound (h : ∀ distance, s.getAt? e distance name = none) (v : Value) :
    s.assign e name v = (false, s) := by
  obtain ⟨chain⟩ := e
  induction chain with
  | nil => rfl
  | cons a chain ih =>
      have ha : (s.frame a).get? name = none := h 0
      have hbinds : ¬(s.frame a).binds name := by simp [Bindings.binds, ha]
      rw [assign_cons, if_neg hbinds, ih fun distance => h (distance + 1)]

/-- A name is found exactly if there is a first frame that binds it. -/
theorem isSome_get?_iff : (s.get? e name).isSome ↔ ∃ distance a, s.Nearest e name distance a := by
  constructor
  · intro h
    refine (s.nearest_or_unbound e name).resolve_right fun hnone => ?_
    rw [get?_eq_none_iff.2 hnone] at h
    cases h
  · rintro ⟨distance, a, h⟩
    rw [h.get?_eq]
    exact h.bound

end Nearest

/-! ### Walks of a given length -/

section Given

variable {s : Store} {e : Environment} {a : FrameId} {distance : Nat}

theorem assignAt_of_place (h : e.chain[distance]? = some a) (name : String) (v : Value) :
    s.assignAt e distance name v = (true, s.write a name v) := by
  simp only [assignAt, h]

theorem assignAt_of_length_le (h : e.chain.length ≤ distance) (name : String) (v : Value) :
    s.assignAt e distance name v = (false, s) := by
  simp only [assignAt, List.getElem?_eq_none h]

/-- **A write is seen by every environment whose chain goes through the frame**, and nothing else
that is bound in any environment changes. -/
theorem getAt?_write (ha : a < s.frames.size) (e : Environment) (name x : String) (v : Value)
    (distance : Nat) :
    (s.write a name v).getAt? e distance x =
      if e.chain[distance]? = some a ∧ x = name then some v else s.getAt? e distance x := by
  unfold getAt?
  cases h : e.chain[distance]? with
  | none => simp
  | some b => simp only [get?_frame_write ha, Option.some.injEq]

end Given

end Store

end Scriptlet
