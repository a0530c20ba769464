/-
**What the values of a store have in common.**

A store only grows: frames, objects and classes are made and never removed.  A *policy* says which
values there may be, what a name of a frame may be bound to, and which names may be written.  A
store keeps the policy if all that it binds is as the policy says.  An action that writes permitted
names and values only leaves a store that keeps the policy, whether it fails or not, and in which
the names that may not be written are bound to what they were bound to before.

Main definitions:

* `Scriptlet.Store.Le` — a store that has grown;
* `Scriptlet.Policy`, `Scriptlet.Policy.Held` — policies, and stores that keep them;
* `Scriptlet.Policy.Le` — **a store that has grown as a policy says**;
* `Scriptlet.Policy.Ends` — **ends that leave a larger store which keeps the policy**.

Main results:

* `Scriptlet.Policy.Held.write`, `Scriptlet.Policy.Held.child`, `Scriptlet.Policy.Held.setField`,
  `Scriptlet.Policy.Held.newObject` — what is done to a store;
* `Scriptlet.Policy.Ends.bind`, `Scriptlet.Policy.Ends.define`, `Scriptlet.Policy.Ends.lookUp`,
  `Scriptlet.Policy.Ends.assign`, `Scriptlet.Policy.Ends.superMethod` — the actions of a machine.
-/

import Scriptlet.Proofs.Lexical.Mirror
import Scriptlet.Proofs.Origin.Makings

set_option relaxedAutoImplicit false
set_option autoImplicit false

namespace Scriptlet

/-! ### Stores that grow -/

/-- **A store that has grown.** -/
structure Store.Le (s s' : Store) : Prop where
  frames : s.frames.size ≤ s'.frames.size
  objects : s.objects.size ≤ s'.objects.size
  classes : s.classes ≤ s'.classes

namespace Store

theorem Le.refl (s : Store) : s.Le s := ⟨Nat.le_refl _, Nat.le_refl _, Nat.le_refl _⟩

theorem Le.trans {s s' s'' : Store} (h : s.Le s') (h' : s'.Le s'') : s.Le s'' :=
  ⟨Nat.le_trans h.frames h'.frames, Nat.le_trans h.objects h'.objects,
    Nat.le_trans h.classes h'.classes⟩

variable (s : Store)

theorem le_write (a : FrameId) (x : String) (v : Value) : s.Le (s.write a x v) :=
  ⟨Nat.le_of_eq (s.frames_size_write a x v).symm, Nat.le_refl _, Nat.le_refl _⟩

theorem le_child (e : Environment) : s.Le (s.child e).2 :=
  ⟨Nat.le_of_lt (by rw [size_child]; exact Nat.lt_succ_self _), Nat.le_refl _, Nat.le_refl _⟩

theorem le_bind (method : Closure) (receiver : Value) : s.Le (s.bind method receiver).2 :=
  (s.le_child method.environment).trans (le_write ..)

theorem le_newObject (c : Class) : s.Le (s.newObject c).2 :=
  ⟨Nat.le_refl _, Nat.le_of_lt (by simp [newObject]), Nat.le_refl _⟩

theorem le_setField (i : ObjectId) (x : String) (v : Value) : s.Le (s.setField i x v) :=
  ⟨Nat.le_refl _, Nat.le_of_eq (by simp [setField]), Nat.le_refl _⟩

theorem le_newClass (name : String) (methods : Bindings Closure) (parent : Option Class) :
    s.Le (s.newClass name methods parent).2 :=
  ⟨Nat.le_refl _, Nat.le_refl _, Nat.le_succ _⟩

/-- What is bound after a write was bound before, or has been written to a frame that there is. -/
theorem get?_frame_of_write {s : Store} {a b : FrameId} {x y : String} {v w : Value}
    (h : ((s.write a x v).frame b).get? y = some w) :
    (b = a ∧ y = x ∧ w = v) ∨ (s.frame b).get? y = some w := by
  by_cases ha : a < s.frames.size
  · rw [get?_frame_write ha] at h
    split at h
    · rename_i hba
      exact .inl ⟨hba.1, hba.2, (Option.some.inj h).symm⟩
    · exact .inr h
  · rw [frame_write, if_neg fun hab => ha hab.2] at h
    exact .inr h

/-- What is in a field after one was set was there before, or has been set. -/
theorem get?_fields_of_setField {s : Store} {i j : ObjectId} {x y : String} {v w : Value}
    (h : ((s.setField i x v).fields j).get? y = some w) : w = v ∨ (s.fields j).get? y = some w := by
  by_cases hi : i < s.objects.size
  · rw [field?_setField s i j x y v hi] at h
    split at h
    · exact .inl (Option.some.inj h).symm
    · exact .inr h
  · have hnone : s.objects[i]? = none := by simpa using hi
    simp only [setField, fields, Array.getD_eq_getD_getElem?, Array.getElem?_modify] at h ⊢
    split at h
    · rename_i hij
      rw [← hij, hnone] at h
      cases h
    · exact .inr h

/-- What a name is bound to some frames out is bound to it there. -/
theorem getAt?_eq_some_iff {s : Store} {e : Environment} {distance : Nat} {x : String} {v : Value} :
    s.getAt? e distance x = some v ↔
      ∃ a, e.chain[distance]? = some a ∧ (s.frame a).get? x = some v := by
  unfold getAt?
  cases e.chain[distance]? with
  | none => simp
  | some a => simp

/-- A fresh object has no fields, and the others keep theirs. -/
theorem fields_newObject (c : Class) (i : ObjectId) : (s.newObject c).2.fields i = s.fields i := by
  simp only [newObject, fields, Array.getD_eq_getD_getElem?, Array.getElem?_push]
  split
  · rename_i h
    simp [h]
  · rfl

end Store

/-! ### Policies -/

/-- **What the values of a store have in common.** -/
structure Policy where
  /-- The values that there may be. -/
  value : Value → Prop
  /-- What a name of a frame may be bound to. -/
  binding : FrameId → String → Value → Prop
  /-- The names that may be written. -/
  name : String → Prop
  /-- All numbers, strings, truth values and native functions are permitted. -/
  plain : ∀ v, ¬v.IsMade → value v
  /-- A name that may be written may be bound to any value that there may be. -/
  binds : ∀ a x v, name x → value v → binding a x v
  bound : ∀ a x v, binding a x v → value v
  /-- A method that gets a receiver gets a frame that may bind `this` to any value there may be. -/
  receives : ∀ a v, value v → binding a "this" v

namespace Policy

/-- A store that keeps a policy. -/
structure Held (P : Policy) (s : Store) : Prop where
  frames : ∀ ⦃a x v⦄, (s.frame a).get? x = some v → P.binding a x v
  fields : ∀ ⦃i x v⦄, (s.fields i).get? x = some v → P.value v

/-- **A store that has grown as a policy says**: names that may not be written keep their values. -/
structure Le (P : Policy) (s s' : Store) : Prop extends s.Le s' where
  keeps : ∀ ⦃a x v⦄, ¬P.name x → (s.frame a).get? x = some v → (s'.frame a).get? x = some v

section Growth

variable (P : Policy) (s : Store)

theorem le_refl : P.Le s s := ⟨.refl s, fun _ _ _ _ hv => hv⟩

theorem Le.trans {P : Policy} {s s' s'' : Store} (h : P.Le s s') (h' : P.Le s' s'') : P.Le s s'' :=
  ⟨h.toLe.trans h'.toLe, fun _ _ _ hx hv => h'.keeps hx (h.keeps hx hv)⟩

/-- A name that may not be written may be bound where it is not bound yet. -/
theorem le_write {a : FrameId} {x : String} (h : ¬P.name x → (s.frame a).get? x = none)
    (v : Value) : P.Le s (s.write a x v) := by
  refine ⟨s.le_write a x v, fun b y w hy hw => ?_⟩
  by_cases ha : a < s.frames.size
  · rw [Store.get?_frame_write ha, if_neg, hw]
    rintro ⟨rfl, rfl⟩
    rw [h hy] at hw
    cases hw
  · rwa [Store.frame_write, if_neg fun hab => ha hab.2]

theorem le_child (e : Environment) : P.Le s (s.child e).2 :=
  ⟨s.le_child e, fun b _ _ _ hw => by rwa [Store.frame_child]⟩

/-- A frame that has just been made may bind any name. -/
theorem le_enclose (e : Environment) (x : String) (v : Value) :
    P.Le (s.child e).2 ((s.child e).2.write s.frames.size x v) := by
  refine P.le_write _ (fun _ => ?_) v
  rw [Store.frame_child, Store.frame_fresh, Bindings.get?_empty]

theorem le_bind (method : Closure) (receiver : Value) : P.Le s (s.bind method receiver).2 :=
  (P.le_child s method.environment).trans (P.le_enclose s method.environment "this" receiver)

theorem le_newObject (c : Class) : P.Le s (s.newObject c).2 :=
  ⟨s.le_newObject c, fun _ _ _ _ hv => hv⟩

theorem le_setField (i : ObjectId) (x : String) (v : Value) : P.Le s (s.setField i x v) :=
  ⟨s.le_setField i x v, fun _ _ _ _ hv => hv⟩

theorem le_newClass (name : String) (methods : Bindings Closure) (parent : Option Class) :
    P.Le s (s.newClass name methods parent).2 :=
  ⟨s.le_newClass name methods parent, fun _ _ _ _ hv => hv⟩

theorem le_define {x : String} (h : P.name x) (e : Environment) (v : Value) :
    P.Le s (s.define e x v) := by
  unfold Store.define
  split
  · exact P.le_refl s
  · exact P.le_write s (absurd h) v

end Growth

variable {P : Policy} {s s' : Store} {e : Environment} {x : String} {v : Value}

namespace Held

theorem getAt? (h : P.Held s) {distance : Nat} (hv : s.getAt? e distance x = some v) :
    P.value v := by
  obtain ⟨a, -, hbound⟩ := Store.getAt?_eq_some_iff.1 hv
  exact P.bound a x v (h.frames hbound)

theorem get? (h : P.Held s) (hv : s.get? e x = some v) : P.value v := by
  unfold Store.get? at hv
  cases ha : s.holder? e x with
  | none =>
      rw [ha] at hv
      cases hv
  | some a =>
      rw [ha] at hv
      exact P.bound a x v (h.frames hv)

theorem write (h : P.Held s) {a : FrameId} (hv : P.binding a x v) : P.Held (s.write a x v) := by
  refine ⟨fun b y w hw => ?_, h.fields⟩
  rcases Store.get?_frame_of_write hw with ⟨rfl, rfl, rfl⟩ | hw
  · exact hv
  · exact h.frames hw

theorem child (h : P.Held s) (e : Environment) : P.Held (s.child e).2 :=
  ⟨fun b _ _ hw => h.frames (Store.frame_child s e b ▸ hw), h.fields⟩

theorem define (h : P.Held s) (hx : P.name x) (hv : P.value v) : P.Held (s.define e x v) := by
  unfold Store.define
  split
  · exact h
  · exact h.write (P.binds _ x v hx hv)

theorem bind (h : P.Held s) (method : Closure) (hv : P.value v) :
    P.Held (s.bind method v).2 :=
  (h.child method.environment).write (P.receives _ _ hv)

/-- A property of an object comes out of a field, or is a method that is given its receiver. -/
theorem property (h : P.Held s) {i : ObjectId} {c : Class} (hv : P.value (.object i c))
    (hmade : ∀ w ∈ s.accessed x (.object i c), P.value w) :
    P.Le s (s.property i c x).2 ∧ P.Held (s.property i c x).2 ∧
      ∀ w, (s.property i c x).1 = some w → P.value w := by
  unfold Store.property
  cases hfield : (s.fields i).get? x with
  | some w =>
      refine ⟨P.le_refl s, h, fun w' hw' => ?_⟩
      cases hw'
      exact h.fields hfield
  | none =>
      rw [Store.accessed_of_get?_eq_none hfield] at hmade
      cases hmethod : c.findMethod? x with
      | none => exact ⟨P.le_refl s, h, nofun⟩
      | some f =>
          rw [hmethod] at hmade
          refine ⟨P.le_bind s f _, h.bind f hv, fun w hw => ?_⟩
          cases hw
          exact hmade _ (List.mem_singleton.2 rfl)

theorem newObject (h : P.Held s) (c : Class) : P.Held (s.newObject c).2 :=
  ⟨h.frames, fun i _ _ hw => h.fields (Store.fields_newObject s c i ▸ hw)⟩

theorem newClass (h : P.Held s) (name : String) (methods : Bindings Closure)
    (parent : Option Class) : P.Held (s.newClass name methods parent).2 := ⟨h.frames, h.fields⟩

theorem setField (h : P.Held s) (i : ObjectId) (hv : P.value v) : P.Held (s.setField i x v) := by
  refine ⟨h.frames, fun j y w hw => ?_⟩
  rcases Store.get?_fields_of_setField hw with rfl | hw
  · exact hv
  · exact h.fields hw

end Held

end Policy

/-! ### Ends that keep a policy -/

/-- The store that an end leaves, if it leaves one. -/
def Outcome.store? {α : Type} : Outcome α → Option Store
  | .done _ m => some m.store
  | .failed _ m => some m.store
  | .starved => none

@[simp] theorem Outcome.store?_forget {α : Type} (o : Outcome α) : o.forget.store? = o.store? := by
  cases o <;> rfl

namespace Policy

variable {P : Policy} {s s' : Store} {x : String} {v : Value}

/-- **An end that leaves a larger store which keeps a policy**; of its value, `Q` may speak. -/
def Ends {α : Type} (P : Policy) (s : Store) (Q : α → Prop) : Outcome α → Prop
  | .done a m => P.Le s m.store ∧ P.Held m.store ∧ Q a
  | .failed _ m => P.Le s m.store ∧ P.Held m.store
  | .starved => True

namespace Ends

variable {α β : Type} {Q : α → Prop} {R : β → Prop} {m m' : Machine} {o : Outcome α}

theorem of_le (h : P.Ends s' Q o) (hle : P.Le s s') : P.Ends s Q o := by
  cases o with
  | done a m => exact ⟨hle.trans h.1, h.2⟩
  | failed e m => exact ⟨hle.trans h.1, h.2⟩
  | starved => trivial

/-- The store that is left has grown. -/
theorem le (h : P.Ends s Q o) : ∀ s' ∈ o.store?, P.Le s s' := by
  intro s' hs'
  cases o with
  | done a m =>
      cases hs'
      exact h.1
  | failed e m =>
      cases hs'
      exact h.1
  | starved => cases hs'

/-- The store that is left keeps the policy. -/
theorem held (h : P.Ends s Q o) : ∀ s' ∈ o.store?, P.Held s' := by
  intro s' hs'
  cases o with
  | done a m =>
      cases hs'
      exact h.2.1
  | failed e m =>
      cases hs'
      exact h.2
  | starved => cases hs'

theorem imp {Q' : α → Prop} (h : P.Ends s Q o) (hQ : ∀ a m, o = .done a m → Q a → Q' a) :
    P.Ends s Q' o := by
  cases o with
  | done a m => exact ⟨h.1, h.2.1, hQ a m rfl h.2.2⟩
  | failed e m => exact h
  | starved => trivial

theorem pure {a : α} (h : P.Held m.store) (ha : Q a) :
    P.Ends m.store Q ((Pure.pure a : Action α) m) := ⟨P.le_refl _, h, ha⟩

theorem fail (h : P.Held m.store) (fault : RuntimeFault) (span : Span) :
    P.Ends m.store Q (Action.fail fault span m) := ⟨P.le_refl _, h⟩

theorem read (h : P.Held m.store) (f : Machine → α) :
    P.Ends m.store (fun a => a = f m) (Action.read f m) := ⟨P.le_refl _, h, rfl⟩

theorem require (h : P.Held m.store) {a : Option α} (ha : ∀ b, a = some b → Q b)
    (fault : RuntimeFault) (span : Span) : P.Ends m.store Q (Action.require a fault span m) := by
  cases a with
  | some a => exact .pure h (ha a rfl)
  | none => exact .fail h fault span

theorem ofExcept (h : P.Held m.store) {r : Except RuntimeFault α} (hr : ∀ a, r = .ok a → Q a)
    (span : Span) : P.Ends m.store Q (Action.ofExcept r span m) := by
  cases r with
  | ok a => exact .pure h (hr a rfl)
  | error fault => exact .fail h fault span

theorem onStore {f : Store → α × Store} (hle : P.Le m.store (f m.store).2)
    (h : P.Held (f m.store).2) (hQ : Q (f m.store).1) :
    P.Ends m.store Q (Action.onStore f m) := ⟨hle, h, hQ⟩

theorem emit (h : P.Held m.store) (text : String) (span : Span) :
    P.Ends m.store (fun _ => True) (Action.emit text span m) := by
  unfold Action.emit
  split
  · exact ⟨P.le_refl _, h, trivial⟩
  · exact ⟨P.le_refl _, h⟩

/-- **An action keeps a policy if it starts so and goes on so.** -/
theorem bind {x : Action α} {f : α → Action β} (h : P.Ends m.store Q (x m))
    (hf : ∀ a m', x m = .done a m' → P.Le m.store m'.store → P.Held m'.store → Q a →
      P.Ends m'.store R (f a m')) : P.Ends m.store R ((x >>= f) m) := by
  rw [Action.bind_apply]
  cases hx : x m with
  | done a m' =>
      rw [hx] at h
      exact (hf a m' hx h.1 h.2.1 h.2.2).of_le h.1
  | failed e m' =>
      rw [hx] at h
      exact h
  | starved => trivial

theorem define (h : P.Held m.store) (hx : P.name x) (hv : P.value v) :
    P.Ends m.store (fun _ => True) (Action.define x v m) :=
  ⟨P.le_define m.store hx m.scope v, h.define hx hv, trivial⟩

theorem bindArguments (h : P.Held m.store) {ps : List Param} {vs : List Value}
    (hps : ∀ p ∈ ps, P.name p.name) (hvs : ∀ v ∈ vs, P.value v) :
    P.Ends m.store (fun _ => True) (Action.bindArguments ps vs m) := by
  induction ps generalizing vs m with
  | nil => exact .pure h trivial
  | cons p ps ih =>
      cases vs with
      | nil => exact .pure h trivial
      | cons v vs =>
          refine .bind (.define h (hps p (List.mem_cons_self ..)) (hvs v (List.mem_cons_self ..)))
            fun _ m' _ _ h' _ => ?_
          exact ih h' (fun q hq => hps q (List.mem_cons_of_mem p hq))
            fun w hw => hvs w (List.mem_cons_of_mem v hw)

section Names

variable (setting : Setting) (mark : Mark)

theorem lookUp (h : P.Held m.store) (name : String) :
    P.Ends m.store P.value (Action.lookUp setting mark name m) := by
  unfold Action.lookUp
  cases setting.distances[mark.id]? with
  | some distance => exact .require h (fun v hv => h.getAt? hv) _ _
  | none => exact .require h (fun v hv => h.get? hv) _ _

theorem assign (h : P.Held m.store) (hx : P.name x) (hv : P.value v) :
    P.Ends m.store (fun _ => True) (Action.assign setting mark x v m) := by
  -- the frame is that at the distance, or the innermost one that binds the name, if there is one
  have hwritten : ∀ s', (∃ a, s' = m.store.write a x v) ∨ s' = m.store →
      P.Le m.store s' ∧ P.Held s' := by
    rintro s' (⟨a, rfl⟩ | rfl)
    · exact ⟨P.le_write _ (absurd hx) v, h.write (P.binds a x v hx hv)⟩
    · exact ⟨P.le_refl _, h⟩
  unfold Action.assign
  cases setting.distances[mark.id]? with
  | some distance =>
      have hs := hwritten (m.store.assignAt m.scope distance x v).2 (by
        unfold Store.assignAt
        split
        · exact .inl ⟨_, rfl⟩
        · exact .inr rfl)
      change P.Ends m.store _ ((if (m.store.assignAt m.scope distance x v).1 = true
        then Pure.pure () else Action.fail (.unboundLocal x) mark.span : Action Unit)
          { m with store := (m.store.assignAt m.scope distance x v).2 })
      split
      · exact ⟨hs.1, hs.2, trivial⟩
      · exact hs
  | none =>
      have hs := hwritten (m.store.assign m.globals x v).2 (by
        unfold Store.assign
        split
        · exact .inl ⟨_, rfl⟩
        · exact .inr rfl)
      change P.Ends m.store _ ((if (m.store.assign m.globals x v).1 = true
        then Pure.pure () else Action.fail (.undefinedVariable x) mark.span : Action Unit)
          { m with store := (m.store.assign m.globals x v).2 })
      split
      · exact ⟨hs.1, hs.2, trivial⟩
      · exact hs

/-- A method of the superclass gets the receiver that the frame of `this` binds. -/
theorem superMethod (h : P.Held m.store) (method : String) :
    P.Ends m.store (fun _ => True) (Action.superMethod setting mark method m) := by
  unfold Action.superMethod
  refine .bind (.require (Q := fun _ => True) h (fun _ _ => trivial) _ _)
    fun distance m₁ _ _ h₁ _ => ?_
  refine .bind (.read h₁ _) fun parent m₂ _ _ h₂ _ => ?_
  refine .bind (.read h₂ _) fun receiver m₃ _ _ h₃ hreceiver => ?_
  split
  · rename_i id c _ _ _
    have hvalue : P.value (.object id c) := by
      cases distance with
      | zero => cases hreceiver
      | succ inner => exact h₂.getAt? hreceiver.symm
    refine .bind (.require (Q := fun _ => True) h₃ (fun _ _ => trivial) _ _)
      fun found m₄ _ _ h₄ _ => ?_
    exact ⟨P.le_bind m₄.store .., h₄.bind found hvalue, trivial⟩
  · exact .fail h₃ _ _

end Names

end Ends

end Policy

end Scriptlet
