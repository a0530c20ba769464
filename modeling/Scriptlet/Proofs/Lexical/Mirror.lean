/-
**Stores that mirror each other.**

The store of a machine that runs with resolutions and the store of one that looks names up mirror
each other if the atlas is right about them: each location holds one name, a bound name of a frame
has a value like that in its location, the globals are alike, and so are the fields of the objects,
which have the same numbers on both sides.  What the two machines do to their stores keeps them
mirrored.

Main definitions:

* `Scriptlet.Fits` — `this` is bound to objects only and `super` to classes only;
* `Scriptlet.Mirror` — stores that mirror each other.

Main results:

* `Scriptlet.Mirror.read_local`, `Scriptlet.Mirror.read_global` — **a name has alike values**;
* `Scriptlet.Mirror.withFrame`, `Scriptlet.Mirror.withPlace`, `Scriptlet.Mirror.write`,
  `Scriptlet.Mirror.settle`, `Scriptlet.Mirror.writeGlobal` — a fresh frame, a fresh location, and
  the ways in which a name gets a value;
* `Scriptlet.Mirror.newObject`, `Scriptlet.Mirror.setField` — objects;
* `Scriptlet.Mirror.bind`, `Scriptlet.Mirror.property` — methods get their receivers.
-/

import Scriptlet.Proofs.Lexical.Alike
import Scriptlet.Proofs.Lexical.Semantics

set_option relaxedAutoImplicit false
set_option autoImplicit false

namespace Scriptlet

/-! ### Single stores -/

namespace Store

/-- The value of a name of a frame after a write. -/
theorem get?_frame_write {s : Store} {a : FrameId} (ha : a < s.frames.size) (x : String) (v : Value)
    (b : FrameId) (y : String) :
    ((s.write a x v).frame b).get? y =
      if b = a ∧ y = x then some v else (s.frame b).get? y := by
  rw [frame_write]
  by_cases hb : b = a
  · subst hb
    simp only [true_and, ha, if_true, Bindings.get?_set]
  · have hne : ¬ a = b := fun e => hb e.symm
    simp only [hne, hb, false_and, if_false]

@[simp] theorem frame_child (s : Store) (e : Environment) (b : FrameId) :
    (s.child e).2.frame b = s.frame b := frame_push s b

@[simp] theorem size_child (s : Store) (e : Environment) :
    (s.child e).2.frames.size = s.frames.size + 1 := Array.size_push _

theorem size_allot (s : Store) (e : Environment) (x : String) (v : Value) :
    (s.allot e x v).2.frames.size = s.frames.size + 1 := by
  change ((s.child e).2.write s.frames.size x v).frames.size = _
  rw [frames_size_write, size_child]

/-- A fresh location holds its name and nothing else. -/
theorem get?_frame_allot (s : Store) (e : Environment) (x : String) (v : Value) (b : FrameId)
    (y : String) :
    ((s.allot e x v).2.frame b).get? y =
      if b = s.frames.size ∧ y = x then some v else (s.frame b).get? y := by
  change (((s.child e).2.write s.frames.size x v).frame b).get? y = _
  rw [get?_frame_write (by rw [size_child]; exact Nat.lt_succ_self _), frame_child]

theorem frame_fresh (s : Store) : s.frame s.frames.size = ∅ := by simp [frame]

end Store

/-! ### Stores that mirror each other -/

/-- `this` is bound to objects only and `super` to classes only. -/
def Fits (x : String) (v : Value) : Prop :=
  (x = "this" → ∃ id c, v = .object id c) ∧ (x = "super" → ∃ c, v = .cls c)

theorem Plain.fits {x : String} (h : Plain x) (v : Value) : Fits x v :=
  ⟨fun e => absurd e h.1, fun e => absurd e h.2⟩

/-- **Stores that mirror each other**, as an atlas tells. -/
structure Mirror (K : Known) (A : Atlas) (s t : Store) : Prop where
  injective : A.Injective
  home : ∀ ⦃l a : Nat⦄ ⦃x⦄, A.home l = some (a, x) →
    0 < a ∧ a < s.frames.size ∧ 0 < l ∧ l < t.frames.size
  name : ∀ ⦃l a x⦄, A.home l = some (a, x) → ∀ y, (t.frame l).binds y = decide (x = y)
  tail : ∀ ⦃a : Nat⦄ ⦃c⦄, A.tail a = some c → 0 < a ∧ a < s.frames.size
  bound : ∀ ⦃a x⦄, A.bound a x → ((s.frame a).get? x).isSome
  located : ∀ ⦃a : Nat⦄ ⦃x v⦄, 0 < a → (s.frame a).get? x = some v → ∃ l, A.home l = some (a, x)
  value : ∀ ⦃l a x v⦄, A.home l = some (a, x) → (s.frame a).get? x = some v →
    ∃ w, (t.frame l).get? x = some w ∧ Alike K A v w
  fits : ∀ ⦃a x v⦄, (s.frame a).get? x = some v → Fits x v
  global : ∀ x, Option.Rel (Alike K A) ((s.frame 0).get? x) ((t.frame 0).get? x)
  globals : 0 < s.frames.size ∧ 0 < t.frames.size
  objects : s.objects.size = t.objects.size
  field : ∀ i x, Option.Rel (Alike K A) ((s.fields i).get? x) ((t.fields i).get? x)
  classes : s.classes = t.classes

namespace Mirror

variable {K : Known} {A : Atlas} {s t : Store}

/-- Stores mirror each other when there are more programs. -/
theorem known_mono {K' : Known} (h : Mirror K A s t) (hK : ∀ site, K site → K' site) :
    Mirror K' A s t :=
  { h with
    value := fun _ _ _ _ hl hv => (h.value hl hv).imp fun _ hw => ⟨hw.1, hw.2.known_mono hK⟩
    global := fun x => rel_imp (h.global x) fun _ _ hvw => hvw.known_mono hK
    field := fun i x => rel_imp (h.field i x) fun _ _ hvw => hvw.known_mono hK }

/-- The next frame is unknown. -/
theorem tail_fresh (h : Mirror K A s t) : A.tail s.frames.size = none := by
  cases hc : A.tail s.frames.size with
  | none => rfl
  | some c => exact absurd (h.tail hc).2 (Nat.lt_irrefl _)

/-- The next location is unknown. -/
theorem home_fresh (h : Mirror K A s t) : A.home t.frames.size = none := by
  cases hp : A.home t.frames.size with
  | none => rfl
  | some p => exact absurd (h.home hp).2.2.2 (Nat.lt_irrefl _)

/-! ### Names -/

section Names

variable {rows : List (List String)} {e e' : Environment} {x : String}

theorem finds (h : Mirror K A s t) (x : String) :
    ∀ ⦃l b y⦄, A.home l = some (b, y) → (t.frame l).binds x = decide (y = x) :=
  fun _ _ _ hl => h.name hl x

/-- A local name belongs to a frame of the chain and to its innermost location. -/
theorem holder?_local (h : Mirror K A s t) (hp : Placed A rows e.chain e'.chain) {d : Nat}
    (hd : rowOf? rows x = some d) :
    ∃ a l, e.chain[d]? = some a ∧ A.home l = some (a, x) ∧ t.holder? e' x = some l :=
  hp.find?_local (h.finds x) hd

/-- A name without distance is looked up in the globals. -/
theorem holder?_global (h : Mirror K A s t) (hp : Placed A rows e.chain e'.chain)
    (hd : rowOf? rows x = none) :
    t.holder? e' x = if (t.frame 0).binds x then some 0 else none := by
  unfold Store.holder?
  rw [hp.find?_global (h.finds x) hd, List.find?_cons]
  cases (t.frame 0).binds x <;> rfl

/-- **A local name has alike values.** -/
theorem read_local (h : Mirror K A s t) (hp : Placed A rows e.chain e'.chain) {d : Nat}
    (hd : rowOf? rows x = some d) (hb : ∀ a, e.chain[d]? = some a → A.bound a x) :
    ∃ v w, s.getAt? e d x = some v ∧ t.get? e' x = some w ∧ Alike K A v w ∧ Fits x v := by
  obtain ⟨a, l, ha, hl, hfind⟩ := h.holder?_local hp hd
  obtain ⟨v, hv⟩ := Option.isSome_iff_exists.1 (h.bound (hb a ha))
  obtain ⟨w, hw, hvw⟩ := h.value hl hv
  refine ⟨v, w, ?_, ?_, hvw, h.fits hv⟩
  · simp only [Store.getAt?, ha, hv]
  · simp only [Store.get?, hfind, hw]

/-- The globals bind the same names. -/
theorem binds_global (h : Mirror K A s t) (x : String) :
    (s.frame 0).binds x = (t.frame 0).binds x := by
  have hx := h.global x
  unfold Bindings.binds
  generalize (s.frame 0).get? x = v at hx ⊢
  generalize (t.frame 0).get? x = w at hx ⊢
  cases hx <;> rfl

theorem holder?_globals (s : Store) (x : String) :
    s.holder? ⟨[0]⟩ x = if (s.frame 0).binds x then some 0 else none := by
  unfold Store.holder?
  rw [List.find?_cons]
  cases (s.frame 0).binds x <;> rfl

/-- **A global name has alike values.** -/
theorem read_global (h : Mirror K A s t) (hp : Placed A rows e.chain e'.chain)
    (hd : rowOf? rows x = none) :
    Option.Rel (Alike K A) (s.get? ⟨[0]⟩ x) (t.get? e' x) := by
  have hx := h.global x
  simp only [Store.get?, holder?_globals, h.holder?_global hp hd, h.binds_global x]
  cases hb : (t.frame 0).binds x with
  | true => exact hx
  | false => exact .none

end Names

/-! ### Fresh frames and locations -/

/-- A fresh frame in front of an environment. -/
theorem withFrame (h : Mirror K A s t) (e : Environment) :
    Mirror K (A.withFrame s.frames.size e.chain) (s.child e).2 t := by
  have hg : A.Grows none (A.withFrame s.frames.size e.chain) := .withFrame none h.tail_fresh _
  -- the frames that were there keep their bindings; what changes is their number and one tail
  constructor
  case injective => exact h.injective
  case home =>
    intro l a x hl
    have := h.home hl
    rw [Store.size_child]
    omega
  case name => exact h.name
  case tail =>
    intro a c ha
    have hglobals := h.globals
    rw [Store.size_child]
    simp only [Atlas.withFrame] at ha
    split at ha
    · rename_i heq
      subst heq
      exact ⟨hglobals.1, Nat.lt_succ_self _⟩
    · have := h.tail ha
      omega
  case bound =>
    intro a x hb
    rw [Store.frame_child]
    exact h.bound hb
  case located =>
    intro a x v ha hv
    rw [Store.frame_child] at hv
    exact h.located ha hv
  case value =>
    intro l a x v hl hv
    rw [Store.frame_child] at hv
    obtain ⟨w, hw, hvw⟩ := h.value hl hv
    exact ⟨w, hw, hvw.mono hg⟩
  case fits =>
    intro a x v hv
    rw [Store.frame_child] at hv
    exact h.fits hv
  case global =>
    intro x
    rw [Store.frame_child]
    exact Alike.mono_rel (h.global x) hg
  case globals =>
    have hglobals := h.globals
    rw [Store.size_child]
    omega
  case objects => exact h.objects
  case field => exact fun i x => Alike.mono_rel (h.field i x) hg
  case classes => exact h.classes

/-- A fresh location for a name that has none.  Its value does not matter as long as the name is not
bound. -/
theorem withPlace (h : Mirror K A s t) {a : Nat} {c : List FrameId} {x : String}
    (ha : A.tail a = some c) (hfree : ∀ l, A.home l ≠ some (a, x)) (e : Environment) (w : Value) :
    Mirror K (A.withPlace t.frames.size a x) s (t.allot e x w).2 := by
  have hg : A.Grows (some a) (A.withPlace t.frames.size a x) := .withPlace h.home_fresh (.inr rfl)
  have hsize := Store.size_allot t e x w
  have hglobals := h.globals
  constructor
  case injective =>
    intro l l' p hl hl'
    -- two locations of one name are never the fresh one and another, since the name had none
    simp only [Atlas.withPlace] at hl hl'
    split at hl <;> split at hl'
    · rename_i e₁ e₂
      rw [e₁, e₂]
    · cases hl
      exact absurd hl' (hfree l')
    · cases hl'
      exact absurd hl (hfree l)
    · exact h.injective hl hl'
  case home =>
    intro l b y hl
    simp only [Atlas.withPlace] at hl
    split at hl
    · rename_i heq
      subst heq
      cases hl
      have := h.tail ha
      omega
    · have := h.home hl
      omega
  case name =>
    intro l b y hl z
    unfold Bindings.binds
    rw [Store.get?_frame_allot]
    simp only [Atlas.withPlace] at hl
    split at hl
    · rename_i hlt
      cases hl
      subst hlt
      -- the fresh location binds its own name and nothing else
      by_cases hz : z = x
      · simp [hz]
      · have hne : ¬ x = z := fun e => hz e.symm
        simp [hz, hne, Store.frame_fresh]
    · rename_i hne
      rw [if_neg (fun e => hne e.1)]
      exact h.name hl z
  case tail => exact h.tail
  case bound => exact h.bound
  case located =>
    intro b y v hb hv
    obtain ⟨l, hl⟩ := h.located hb hv
    exact ⟨l, hg.home hl⟩
  case value =>
    intro l b y v hl hv
    simp only [Atlas.withPlace] at hl
    split at hl
    · cases hl
      -- a name that is bound has had a location before
      obtain ⟨l', hl'⟩ := h.located (h.tail ha).1 hv
      exact absurd hl' (hfree l')
    · rename_i hne
      obtain ⟨w', hw', hvw⟩ := h.value hl hv
      refine ⟨w', ?_, hvw.mono hg⟩
      rw [Store.get?_frame_allot, if_neg (fun e => hne e.1)]
      exact hw'
  case fits => exact h.fits
  case global =>
    intro y
    rw [Store.get?_frame_allot, if_neg fun e => Nat.ne_of_lt hglobals.2 e.1]
    exact Alike.mono_rel (h.global y) hg
  case globals => omega
  case objects => exact h.objects
  case field => exact fun i y => Alike.mono_rel (h.field i y) hg
  case classes => exact h.classes

/-! ### Names that get a value -/

/-- A name of a frame gets a value, and its location has one that is alike. -/
private theorem wrote (h : Mirror K A s t) {t' : Store} {l a : Nat} {x : String} {v w : Value}
    (hl : A.home l = some (a, x)) (hf : Fits x v) (hvw : Alike K (A.withBound a x) v w)
    (hsize : t'.frames.size = t.frames.size) (hobjects : t'.objects = t.objects)
    (hclasses : t'.classes = t.classes)
    (hframe : ∀ b y, (t'.frame b).get? y = if b = l ∧ y = x then some w else (t.frame b).get? y) :
    Mirror K (A.withBound a x) (s.write a x v) t' := by
  have hg : A.Grows none (A.withBound a x) := .withBound none A a x
  have hlt := h.home hl
  have hwrite := Store.get?_frame_write hlt.2.1 x v
  have hssize : (s.write a x v).frames.size = s.frames.size := Store.frames_size_write ..
  constructor
  case injective => exact h.injective
  case home =>
    intro k b y hk
    have := h.home hk
    omega
  case name =>
    intro k b y hk z
    have hname := h.name hk z
    unfold Bindings.binds at hname ⊢
    rw [hframe]
    split
    · rename_i hz
      obtain ⟨rfl, rfl⟩ := hz
      rw [Atlas.home_withBound, hl] at hk
      cases hk
      simp
    · exact hname
  case tail =>
    intro b c hb
    have := h.tail hb
    omega
  case bound =>
    intro b y hb
    rw [hwrite]
    split
    · rfl
    · rename_i hne
      rcases hb with hb | hb
      · exact absurd hb hne
      · exact h.bound hb
  case located =>
    intro b y u hb hu
    rw [hwrite] at hu
    split at hu
    · rename_i heq
      obtain ⟨rfl, rfl⟩ := heq
      exact ⟨l, hl⟩
    · exact h.located hb hu
  case value =>
    -- the write concerns one name of one frame, and by injectivity one location; any other name
    -- keeps its value on both sides, since a location holds no name but its own
    intro k b y u hk hu
    rw [hwrite] at hu
    rw [hframe]
    split at hu
    · rename_i heq
      obtain ⟨rfl, rfl⟩ := heq
      cases hu
      obtain rfl := h.injective hk hl
      exact ⟨w, if_pos ⟨rfl, rfl⟩, hvw⟩
    · rename_i hne
      obtain ⟨u', hu', huu⟩ := h.value hk hu
      refine ⟨u', ?_, huu.mono hg⟩
      rw [if_neg, hu']
      rintro ⟨rfl, rfl⟩
      rw [Atlas.home_withBound, hl] at hk
      cases hk
      exact hne ⟨rfl, rfl⟩
  case fits =>
    intro b y u hu
    rw [hwrite] at hu
    split at hu
    · rename_i heq
      obtain ⟨rfl, rfl⟩ := heq
      cases hu
      exact hf
    · exact h.fits hu
  case global =>
    intro y
    rw [hwrite, hframe, if_neg fun e => Nat.ne_of_lt hlt.1 e.1,
      if_neg fun e => Nat.ne_of_lt hlt.2.2.1 e.1]
    exact Alike.mono_rel (h.global y) hg
  case globals =>
    have := h.globals
    omega
  case objects =>
    rw [hobjects]
    exact h.objects
  case field =>
    intro i y
    have hfield := Alike.mono_rel (h.field i y) hg
    unfold Store.fields at hfield ⊢
    rw [hobjects]
    exact hfield
  case classes =>
    rw [hclasses]
    exact h.classes

/-- **A local name gets alike values on both sides.** -/
theorem write (h : Mirror K A s t) {l a : Nat} {x : String} {v w : Value}
    (hl : A.home l = some (a, x)) (hf : Fits x v) (hvw : Alike K (A.withBound a x) v w) :
    Mirror K (A.withBound a x) (s.write a x v) (t.write l x w) :=
  h.wrote hl hf hvw (Store.frames_size_write ..) rfl rfl
    (Store.get?_frame_write (h.home hl).2.2.2 x w)

/-- A local name gets the value that its location holds already. -/
theorem settle (h : Mirror K A s t) {l a : Nat} {x : String} {v w : Value}
    (hl : A.home l = some (a, x)) (hw : (t.frame l).get? x = some w) (hf : Fits x v)
    (hvw : Alike K (A.withBound a x) v w) : Mirror K (A.withBound a x) (s.write a x v) t := by
  refine h.wrote hl hf hvw rfl rfl rfl fun b y => ?_
  split
  · rename_i heq
    obtain ⟨rfl, rfl⟩ := heq
    exact hw
  · rfl

/-- A local name that has no location gets one, and both get their value. -/
theorem introduce (h : Mirror K A s t) {a : Nat} {c : List FrameId} {x : String} {v w : Value}
    (ha : A.tail a = some c) (hfree : ∀ l, A.home l ≠ some (a, x)) (e : Environment)
    (hf : Fits x v) (hvw : Alike K ((A.withPlace t.frames.size a x).withBound a x) v w) :
    Mirror K ((A.withPlace t.frames.size a x).withBound a x) (s.write a x v)
      (t.allot e x w).2 := by
  refine (h.withPlace ha hfree e w).settle (Atlas.home_withPlace_self ..) ?_ hf hvw
  rw [Store.get?_frame_allot, if_pos ⟨rfl, rfl⟩]

/-- **A global gets alike values on both sides.** -/
theorem writeGlobal (h : Mirror K A s t) {x : String} {v w : Value} (hp : Plain x)
    (hvw : Alike K A v w) : Mirror K A (s.write 0 x v) (t.write 0 x w) := by
  have hs := Store.get?_frame_write h.globals.1 x v
  have ht := Store.get?_frame_write h.globals.2 x w
  have hssize : (s.write 0 x v).frames.size = s.frames.size := Store.frames_size_write ..
  have htsize : (t.write 0 x w).frames.size = t.frames.size := Store.frames_size_write ..
  -- known frames and locations have positive numbers, so that a write to the globals, which have
  -- number zero on both sides, passes them by
  constructor
  case injective => exact h.injective
  case home =>
    intro l a y hl
    have := h.home hl
    omega
  case name =>
    intro l a y hl z
    have hname := h.name hl z
    unfold Bindings.binds at hname ⊢
    rw [ht, if_neg fun e => Nat.ne_of_gt (h.home hl).2.2.1 e.1]
    exact hname
  case tail =>
    intro a c ha
    have := h.tail ha
    omega
  case bound =>
    intro a y hb
    rw [hs]
    split
    · rfl
    · exact h.bound hb
  case located =>
    intro a y u ha hu
    rw [hs, if_neg fun e => Nat.ne_of_gt ha e.1] at hu
    exact h.located ha hu
  case value =>
    intro l a y u hl hu
    have hlt := h.home hl
    rw [hs, if_neg fun e => Nat.ne_of_gt hlt.1 e.1] at hu
    rw [ht, if_neg fun e => Nat.ne_of_gt hlt.2.2.1 e.1]
    exact h.value hl hu
  case fits =>
    intro a y u hu
    rw [hs] at hu
    split at hu
    · rename_i heq
      cases hu
      rw [heq.2]
      exact hp.fits _
    · exact h.fits hu
  case global =>
    intro y
    rw [hs, ht]
    simp only [true_and]
    split
    · exact .some hvw
    · exact h.global y
  case globals =>
    have := h.globals
    omega
  case objects => exact h.objects
  case field => exact h.field
  case classes => exact h.classes

/-! ### Objects and classes -/

/-- What the objects and classes of two stores are does not concern their frames. -/
private theorem withObjects (h : Mirror K A s t) {os os' : Array (Bindings Value)} {n n' : Nat}
    (hobjects : os.size = os'.size) (hclasses : n = n')
    (hfield : ∀ i x, Option.Rel (Alike K A) ((os.getD i ∅).get? x) ((os'.getD i ∅).get? x)) :
    Mirror K A { s with objects := os, classes := n } { t with objects := os', classes := n' } :=
  ⟨h.injective, h.home, h.name, h.tail, h.bound, h.located, h.value, h.fits, h.global, h.globals,
    hobjects, hfield, hclasses⟩

/-- A fresh class. -/
theorem newClass (h : Mirror K A s t) (name : String) (methods methods' : Bindings Closure)
    (parent parent' : Option Class) :
    Mirror K A (s.newClass name methods parent).2 (t.newClass name methods' parent').2 :=
  h.withObjects h.objects (congrArg (· + 1) h.classes) h.field

private theorem getD_push_empty (os : Array (Bindings Value)) (i : Nat) :
    (os.push ∅).getD i ∅ = os.getD i ∅ := by
  simp only [Array.getD_eq_getD_getElem?, Array.getElem?_push]
  split
  · rename_i h
    simp [h]
  · rfl

/-- A fresh object. -/
theorem newObject (h : Mirror K A s t) (c d : Class) :
    Mirror K A (s.newObject c).2 (t.newObject d).2 := by
  refine h.withObjects ?_ h.classes fun i x => ?_
  · rw [Array.size_push, Array.size_push, h.objects]
  · rw [getD_push_empty, getD_push_empty]
    exact h.field i x

/-- The fields of a store after one has been set. -/
theorem fields_setField (s : Store) (i j : ObjectId) (name x : String) (v : Value) :
    ((s.setField i name v).fields j).get? x =
      if j = i ∧ x = name ∧ i < s.objects.size then some v else (s.fields j).get? x := by
  by_cases hi : i < s.objects.size
  · rw [Store.field?_setField s i j name x v hi]
    simp only [hi, and_true]
  · rw [if_neg fun e => hi e.2.2]
    simp only [Store.setField, Store.fields, Array.getD_eq_getD_getElem?, Array.getElem?_modify]
    split
    · rename_i hij
      subst hij
      simp [hi]
    · rfl

/-- **A field of an object gets alike values on both sides.** -/
theorem setField (h : Mirror K A s t) (i : ObjectId) (name : String) {v w : Value}
    (hvw : Alike K A v w) : Mirror K A (s.setField i name v) (t.setField i name w) := by
  refine h.withObjects ?_ h.classes fun j x => ?_
  · rw [Array.size_modify, Array.size_modify, h.objects]
  · have hs := fields_setField s i j name x v
    have ht := fields_setField t i j name x w
    rw [← h.objects] at ht
    refine (congrArg₂ (Option.Rel (Alike K A)) hs ht).mpr ?_
    split
    · exact .some hvw
    · exact h.field j x

/-! ### Receivers and superclasses -/

/-- A fresh frame and a fresh location that hold one name, in front of environments that may come to
belong together. -/
theorem enclose (h : Mirror K A s t) (e e' : Environment) {x : String} {v w : Value} (hf : Fits x v)
    (hvw : Alike K A v w) :
    ∃ A', A.Grows none A' ∧
      Mirror K A' ((s.child e).2.define (s.child e).1 x v) (t.allot e' x w).2 ∧
      ∀ {own : Option FrameId} {A'' : Atlas} {rows : List (List String)}, A'.Grows own A'' →
        Settled A'' rows e.chain e'.chain →
        Settled A'' ([x] :: rows) (s.child e).1.chain (t.allot e' x w).1.chain := by
  have hframe := h.withFrame e
  have hfree : ∀ l, (A.withFrame s.frames.size e.chain).home l ≠ some (s.frames.size, x) :=
    fun l hl => absurd (h.home hl).2.1 (Nat.lt_irrefl _)
  have htail : (A.withFrame s.frames.size e.chain).tail s.frames.size = some e.chain :=
    Atlas.tail_withFrame_self ..
  have hg₁ : A.Grows (some s.frames.size) (A.withFrame s.frames.size e.chain) :=
    .withFrame _ h.tail_fresh _
  -- The new location belongs to a frame that was not known before.
  have hg₂ : A.Grows none
      ((A.withFrame s.frames.size e.chain).withPlace t.frames.size s.frames.size x) :=
    (hg₁.trans (.withPlace h.home_fresh (.inr rfl))).close h.tail_fresh
  have hg := hg₂.trans (.withBound none _ s.frames.size x)
  refine ⟨_, hg, hframe.introduce htail hfree e' hf (hvw.mono hg), ?_⟩
  intro own A'' rows hg' hs
  refine (hs.opened (hg'.tail htail)).enter (hg'.home ?_)
    (hg'.bound (Atlas.bound_withBound_self ..))
  exact Atlas.home_withPlace_self ..

/-- **A method gets its receiver.** -/
theorem bind (h : Mirror K A s t) {f g : Closure} (hfg : MethodAlike K A f g) {v w : Value}
    (hf : Fits "this" v) (hvw : Alike K A v w) :
    ∃ A', A.Grows none A' ∧ Mirror K A' (s.bind f v).2 (t.bind g w).2 ∧
      FunctionAlike K A' (s.bind f v).1 (t.bind g w).1 := by
  cases hfg with
  | @mk ctx r e e' isInitializer rows known rows_eq settled steady =>
      obtain ⟨A', hg, hmirror, hsettled⟩ := h.enclose e e' hf hvw
      refine ⟨A', hg, hmirror, .mk known ?_ steady ?_ ?_⟩
      · rw [rows_eq]
        exact hsettled (.refl none A') (settled.mono hg)
      · rw [rows_eq]
        rintro row ⟨⟩
        exact List.cons_ne_nil _ _
      · exact fun _ => ⟨rows, rows_eq⟩

/-- **A property of an object.** -/
theorem property (h : Mirror K A s t) {c d : Class} (hcd : ClassAlike K A c d) (i : ObjectId)
    (name : String) :
    ∃ A', A.Grows none A' ∧ Mirror K A' (s.property i c name).2 (t.property i d name).2 ∧
      Option.Rel (Alike K A') (s.property i c name).1 (t.property i d name).1 := by
  have hfield := h.field i name
  have hmethod := hcd.findMethod? name
  unfold Store.property
  generalize (s.fields i).get? name = v at hfield ⊢
  generalize (t.fields i).get? name = w at hfield ⊢
  -- fields come first on both sides; a method is bound to the object, which takes a frame
  cases hfield with
  | some hvw => exact ⟨A, .refl none A, h, .some hvw⟩
  | none =>
      generalize c.findMethod? name = f at hmethod ⊢
      generalize d.findMethod? name = g at hmethod ⊢
      cases hmethod with
      | none => exact ⟨A, .refl none A, h, .none⟩
      | some hfg =>
          obtain ⟨A', hg, hmirror, hbound⟩ :=
            h.bind hfg ⟨fun _ => ⟨i, c, rfl⟩, fun e => absurd e (by decide)⟩ (.object i hcd)
          exact ⟨A', hg, hmirror, .some (.closure hbound)⟩

end Mirror

end Scriptlet
