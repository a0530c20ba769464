/-
**Frames and locations.**

A machine that runs with resolutions keeps the local names of a scope together in one frame; a
machine that looks names up keeps each of them in a location of its own.  An *atlas* says which
location belongs to which name of which frame, which chain of frames lies behind a frame, and which
names of a frame are bound already.  As a run goes on, the atlas grows: what it says stays true, and
a frame that it knows gets new locations only from the declarations of its own scope.

At a place of a program the two machines are in a chain of frames and in a list of locations, and
the atlas relates one to the other, scope by scope.

Main definitions:

* `Scriptlet.Atlas`, `Scriptlet.Atlas.Grows` — atlases, and how they grow;
* `Scriptlet.Placed` — a chain of frames and a list of locations that belong to the same names;
* `Scriptlet.Settled` — they do, and all visible names are bound.

Main results:

* `Scriptlet.Placed.find?_local` — **the first location of a name belongs to the frame at the
  distance of the name**;
* `Scriptlet.Placed.find?_global` — a name without distance has no location;
* `Scriptlet.Placed.chain_unique`, `Scriptlet.Placed.places_unique` — chains of frames and lists of
  locations determine each other.
-/

import Mathlib.Data.List.Forall2
import Scriptlet.Proofs.Scope.Rows
import Scriptlet.Store

set_option relaxedAutoImplicit false
set_option autoImplicit false

namespace Scriptlet

/-! ### Atlases -/

/-- What is known about the frames of one machine and the locations of another. -/
structure Atlas where
  /-- The frame and the name to which a location belongs. -/
  home : FrameId → Option (FrameId × String)
  /-- The chain of frames behind a frame. -/
  tail : FrameId → Option (List FrameId)
  /-- Whether a name of a frame is bound. -/
  bound : FrameId → String → Prop

namespace Atlas

/-- The atlas of machines at the start: there are no local names. -/
def blank : Atlas := ⟨fun _ => none, fun _ => none, fun _ _ => False⟩

/-- No two locations belong to the same name. -/
def Injective (A : Atlas) : Prop :=
  ∀ ⦃l l' p⦄, A.home l = some p → A.home l' = some p → l = l'

/-- A frame in front of a chain. -/
def withFrame (A : Atlas) (a : FrameId) (chain : List FrameId) : Atlas :=
  { A with tail := fun b => if b = a then some chain else A.tail b }

/-- A location for a name. -/
def withPlace (A : Atlas) (l a : FrameId) (x : String) : Atlas :=
  { A with home := fun k => if k = l then some (a, x) else A.home k }

/-- A name that gets bound. -/
def withBound (A : Atlas) (a : FrameId) (x : String) : Atlas :=
  { A with bound := fun b y => (b = a ∧ y = x) ∨ A.bound b y }

/-- **What an atlas says stays true**; a known frame gets new locations only if it is `own`. -/
structure Grows (own : Option FrameId) (A A' : Atlas) : Prop where
  home : ∀ ⦃l p⦄, A.home l = some p → A'.home l = some p
  tail : ∀ ⦃a c⦄, A.tail a = some c → A'.tail a = some c
  bound : ∀ ⦃a x⦄, A.bound a x → A'.bound a x
  fresh : ∀ ⦃l a x⦄, A'.home l = some (a, x) →
    A.home l = some (a, x) ∨ A.tail a = none ∨ own = some a

namespace Grows

variable {own : Option FrameId} {A A' A'' : Atlas}

theorem refl (own : Option FrameId) (A : Atlas) : Grows own A A :=
  ⟨fun _ _ h => h, fun _ _ h => h, fun _ _ h => h, fun _ _ _ h => .inl h⟩

theorem trans (h : Grows own A A') (h' : Grows own A' A'') : Grows own A A'' := by
  refine ⟨fun _ _ hl => h'.home (h.home hl), fun _ _ ha => h'.tail (h.tail ha),
    fun _ _ hb => h'.bound (h.bound hb), fun l a x hl => ?_⟩
  rcases h'.fresh hl with hl | ha | ho
  · exact h.fresh hl
  · -- A frame that is unknown later was unknown before.
    right; left
    cases hc : A.tail a with
    | none => rfl
    | some c => rw [h.tail hc] at ha; cases ha
  · exact .inr (.inr ho)

theorem weaken (h : Grows none A A') : Grows own A A' := by
  refine ⟨h.home, h.tail, h.bound, fun l a x hl => ?_⟩
  rcases h.fresh hl with hl | ha | ho
  · exact .inl hl
  · exact .inr (.inl ha)
  · cases ho

/-- The locations of a frame that was not known before are of no concern. -/
theorem close {a : FrameId} (h : Grows (some a) A A') (ha : A.tail a = none) :
    Grows none A A' := by
  refine ⟨h.home, h.tail, h.bound, fun l b x hl => ?_⟩
  rcases h.fresh hl with hl | hb | ho
  · exact .inl hl
  · exact .inr (.inl hb)
  · cases ho
    exact .inr (.inl ha)

theorem withFrame (own : Option FrameId) {a : FrameId} (ha : A.tail a = none)
    (chain : List FrameId) : Grows own A (A.withFrame a chain) := by
  refine ⟨fun _ _ h => h, fun b c hb => ?_, fun _ _ h => h, fun _ _ _ h => .inl h⟩
  have hne : b ≠ a := by
    rintro rfl
    rw [ha] at hb
    cases hb
  simp only [Atlas.withFrame, if_neg hne, hb]

theorem withPlace {l a : FrameId} {x : String} (hl : A.home l = none)
    (ho : A.tail a = none ∨ own = some a) : Grows own A (A.withPlace l a x) := by
  refine ⟨fun k p hk => ?_, fun _ _ h => h, fun _ _ h => h, fun k b y hk => ?_⟩
  · have hne : k ≠ l := by
      rintro rfl
      rw [hl] at hk
      cases hk
    simp only [Atlas.withPlace, if_neg hne, hk]
  · simp only [Atlas.withPlace] at hk
    split at hk
    · cases hk
      exact .inr ho
    · exact .inl hk

theorem withBound (own : Option FrameId) (A : Atlas) (a : FrameId) (x : String) :
    Grows own A (A.withBound a x) :=
  ⟨fun _ _ h => h, fun _ _ h => h, fun _ _ h => .inr h, fun _ _ _ h => .inl h⟩

end Grows

@[simp] theorem tail_withFrame_self (A : Atlas) (a : FrameId) (chain : List FrameId) :
    (A.withFrame a chain).tail a = some chain := if_pos rfl

@[simp] theorem home_withPlace_self (A : Atlas) (l a : FrameId) (x : String) :
    (A.withPlace l a x).home l = some (a, x) := if_pos rfl

@[simp] theorem home_withBound (A : Atlas) (a : FrameId) (x : String) :
    (A.withBound a x).home = A.home := rfl

theorem bound_withBound_self (A : Atlas) (a : FrameId) (x : String) :
    (A.withBound a x).bound a x := .inl ⟨rfl, rfl⟩

end Atlas

/-! ### Chains and locations -/

/-- A chain of frames and a list of locations that belong to the same names: behind the locations of
each frame come those of the frames behind it, and at the end the globals. -/
inductive Placed (A : Atlas) : List (List String) → List FrameId → List FrameId → Prop
  | globals : Placed A [] [0] [0]
  | scope {row : List String} {rows : List (List String)} {a : FrameId}
      {chain places locations : List FrameId} : A.tail a = some chain →
      Placed A rows chain locations →
      List.Forall₂ (fun l x => A.home l = some (a, x)) places row →
      Placed A (row :: rows) (a :: chain) (places ++ locations)

namespace Placed

variable {own : Option FrameId} {A A' : Atlas} {rows : List (List String)}
  {chain locations : List FrameId}

theorem mono (h : Placed A rows chain locations) (hg : A.Grows own A') :
    Placed A' rows chain locations := by
  induction h with
  | globals => exact .globals
  | scope ht _ hrow ih => exact .scope (hg.tail ht) ih (hrow.imp fun _ _ hl => hg.home hl)

/-- A chain of frames has one for each row, and the globals behind. -/
theorem chain_eq (h : Placed A rows chain locations) :
    ∃ frames, chain = frames ++ [0] ∧ frames.length = rows.length := by
  induction h with
  | globals => exact ⟨[], rfl, rfl⟩
  | @scope row rows a chain places locations _ _ _ ih =>
      obtain ⟨frames, rfl, hlength⟩ := ih
      exact ⟨a :: frames, rfl, congrArg (· + 1) hlength⟩

/-- A scope is opened by a frame that has no locations yet. -/
theorem opened {a : FrameId} (h : Placed A rows chain locations) (ha : A.tail a = some chain) :
    Placed A ([] :: rows) (a :: chain) locations :=
  .scope ha h .nil

/-- A name is entered into the innermost scope. -/
theorem enter {a l : FrameId} {x : String} {row : List String}
    (h : Placed A (row :: rows) (a :: chain) locations) (hl : A.home l = some (a, x)) :
    Placed A ((x :: row) :: rows) (a :: chain) (l :: locations) := by
  cases h with
  | scope ht h hrow => exact .scope ht h (.cons hl hrow)

/-- The innermost frame is known. -/
theorem tail_eq {a : FrameId} {row : List String}
    (h : Placed A (row :: rows) (a :: chain) locations) : A.tail a = some chain := by
  cases h with
  | scope ht _ _ => exact ht

/-- What is behind the innermost frame. -/
theorem inner {row : List String} (h : Placed A (row :: rows) chain locations) :
    ∃ a rest, chain = a :: rest ∧ A.tail a = some rest := by
  cases h with
  | scope ht _ _ => exact ⟨_, _, rfl, ht⟩

section Find

variable {p : FrameId → Bool} {x : String}

/-- Among the locations of a frame, that of a name is found if there is one. -/
private theorem find?_places {a : FrameId} {places : List FrameId} {row : List String}
    (h : List.Forall₂ (fun l x => A.home l = some (a, x)) places row)
    (hp : ∀ ⦃l b y⦄, A.home l = some (b, y) → p l = decide (y = x)) :
    (x ∈ row → ∃ l, A.home l = some (a, x) ∧ places.find? p = some l) ∧
      (x ∉ row → places.find? p = none) := by
  induction h with
  | nil => exact ⟨nofun, fun _ => rfl⟩
  | @cons l y places row hl _ ih =>
      rw [List.find?_cons, hp hl]
      -- the places stand in the order of the row, and each answers for its own name only
      by_cases hy : y = x
      · subst hy
        simp only [decide_true]
        exact ⟨fun _ => ⟨l, hl, rfl⟩, fun hx => absurd (List.mem_cons_self ..) hx⟩
      · have hne : x ≠ y := fun e => hy e.symm
        simp only [hy, decide_false, List.mem_cons, hne, false_or]
        exact ih

/-- **The first location of a name belongs to the frame at the distance of the name.** -/
theorem find?_local (h : Placed A rows chain locations)
    (hp : ∀ ⦃l b y⦄, A.home l = some (b, y) → p l = decide (y = x)) {d : Nat}
    (hd : rowOf? rows x = some d) :
    ∃ a l, chain[d]? = some a ∧ A.home l = some (a, x) ∧ locations.find? p = some l := by
  induction h generalizing d with
  | globals => cases hd
  | @scope row rows a chain places locations _ _ hrow ih =>
      rw [rowOf?_cons] at hd
      rw [List.find?_append]
      -- a name of the innermost row is found among its places; any other passes them and goes on
      split at hd
      · rename_i hx
        cases hd
        obtain ⟨l, hl, hfind⟩ := (find?_places hrow hp).1 hx
        exact ⟨a, l, rfl, hl, by rw [hfind]; rfl⟩
      · rename_i hx
        obtain ⟨k, hk, rfl⟩ := Option.map_eq_some_iff.1 hd
        obtain ⟨b, l, hb, hl, hfind⟩ := ih hk
        refine ⟨b, l, by simpa using hb, hl, ?_⟩
        rw [(find?_places hrow hp).2 hx, hfind]
        rfl

/-- A name without distance has no location. -/
theorem find?_global (h : Placed A rows chain locations)
    (hp : ∀ ⦃l b y⦄, A.home l = some (b, y) → p l = decide (y = x))
    (hd : rowOf? rows x = none) : locations.find? p = [0].find? p := by
  induction h with
  | globals => rfl
  | @scope row rows a chain places locations _ _ hrow ih =>
      rw [rowOf?_cons] at hd
      split at hd
      · cases hd
      · rename_i hx
        rw [List.find?_append, (find?_places hrow hp).2 hx, ih (Option.map_eq_none_iff.1 hd)]
        rfl

end Find

/-- The locations determine the chain, if each scope that counts has declared a name. -/
theorem chain_unique {chain' : List FrameId} (h : Placed A rows chain locations)
    (h' : Placed A rows chain' locations) (hrows : ∀ row ∈ rows.head?, row ≠ []) :
    chain = chain' := by
  cases h with
  | globals =>
      cases h'
      rfl
  | @scope row rows a chain places locations ht _ hrow =>
      generalize hls : places ++ locations = ls at h'
      cases h' with
      | @scope _ _ a' chain' places' locations' ht' _ hrow' =>
          have hlength : places.length = places'.length :=
            hrow.length_eq.trans hrow'.length_eq.symm
          obtain ⟨rfl, -⟩ := List.append_inj hls hlength
          -- The newest location belongs to both frames in front, so they are the same.
          cases hrow with
          | nil => exact absurd rfl (hrows _ rfl)
          | cons hl _ =>
              cases hrow' with
              | cons hl' _ =>
                  rw [hl] at hl'
                  cases hl'
                  rw [ht] at ht'
                  cases ht'
                  rfl

/-- The locations of one frame. -/
private theorem places_eq (hA : A.Injective) {a : FrameId} {places places' : List FrameId}
    {row : List String} (h : List.Forall₂ (fun l x => A.home l = some (a, x)) places row)
    (h' : List.Forall₂ (fun l x => A.home l = some (a, x)) places' row) : places = places' := by
  induction h generalizing places' with
  | nil =>
      cases h'
      rfl
  | cons hl _ ih =>
      cases h' with
      | cons hl' hrow' => rw [hA hl hl', ih hrow']

/-- The chain determines the locations. -/
theorem places_unique (hA : A.Injective) {locations' : List FrameId}
    (h : Placed A rows chain locations) (h' : Placed A rows chain locations') :
    locations = locations' := by
  -- frame by frame: the places of a row are determined by injectivity
  induction h generalizing locations' with
  | globals =>
      cases h'
      rfl
  | scope _ _ hrow ih =>
      cases h' with
      | scope _ h' hrow' => rw [places_eq hA hrow hrow', ih h']

end Placed

/-! ### Bound names -/

/-- A chain of frames and a list of locations that belong to the same names, all of the visible ones
bound. -/
structure Settled (A : Atlas) (rows : List (List String)) (chain locations : List FrameId) :
    Prop where
  placed : Placed A rows chain locations
  bound : ∀ ⦃x d a⦄, rowOf? rows x = some d → chain[d]? = some a → A.bound a x

namespace Settled

variable {own : Option FrameId} {A A' : Atlas} {rows : List (List String)}
  {chain locations : List FrameId}

theorem globals (A : Atlas) : Settled A [] [0] [0] := ⟨.globals, nofun⟩

theorem mono (h : Settled A rows chain locations) (hg : A.Grows own A') :
    Settled A' rows chain locations :=
  ⟨h.placed.mono hg, fun _ _ _ hd ha => hg.bound (h.bound hd ha)⟩

theorem opened {a : FrameId} (h : Settled A rows chain locations) (ha : A.tail a = some chain) :
    Settled A ([] :: rows) (a :: chain) locations := by
  refine ⟨h.placed.opened ha, fun x d b hd hb => ?_⟩
  rw [rowOf?_cons, if_neg (List.not_mem_nil)] at hd
  obtain ⟨k, hk, rfl⟩ := Option.map_eq_some_iff.1 hd
  exact h.bound hk (by simpa using hb)

theorem enter {a l : FrameId} {x : String} {row : List String}
    (h : Settled A (row :: rows) (a :: chain) locations) (hl : A.home l = some (a, x))
    (hb : A.bound a x) : Settled A ((x :: row) :: rows) (a :: chain) (l :: locations) := by
  refine ⟨h.placed.enter hl, fun y d b hd hchain => ?_⟩
  -- the name that is entered is found in front, any other where it was
  by_cases hy : y = x
  · subst hy
    rw [rowOf?_cons, if_pos (List.mem_cons_self ..)] at hd
    cases hd
    cases hchain
    exact hb
  · refine h.bound ?_ hchain
    rw [← rowOf?_enterRow hy (row :: rows)]
    exact hd

end Settled

end Scriptlet
