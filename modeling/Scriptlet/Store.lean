/-
**The store: frames and objects.**

A running program keeps what can change in a store: the frames that bind names to values, and the
fields of objects.  Frames and objects are numbered in the order in which they are made and are
never removed.  An environment is a chain of frames, so two environments that end in the same
frames share what is bound there.

Main definitions:

* `Scriptlet.Store`, `Scriptlet.Store.empty` — stores;
* `Scriptlet.Store.newEnvironment`, `Scriptlet.Store.child` — a fresh frame, alone or in front of
  an environment;
* `Scriptlet.Store.define`, `Scriptlet.Store.get?`, `Scriptlet.Store.getAt?`,
  `Scriptlet.Store.holder?`, `Scriptlet.Store.assign`, `Scriptlet.Store.assignAt` — names in an
  environment;
* `Scriptlet.Store.bind` — a method with a receiver;
* `Scriptlet.Store.newObject`, `Scriptlet.Store.setField`, `Scriptlet.Store.property` — objects.

Main results:

* `Scriptlet.Store.frame_write` — **a write changes one name of one frame**;
* `Scriptlet.Store.getAt?_child_zero`, `Scriptlet.Store.getAt?_child_succ` — a fresh frame binds
  nothing, and behind it everything is where it was;
* `Scriptlet.Store.field?_setField` — a field that was set has its new value, and every other field
  of every object the value it had.
-/

import Scriptlet.Value

set_option relaxedAutoImplicit false
set_option autoImplicit false

namespace Scriptlet

/-- What a running program can change. -/
structure Store where
  /-- What the frames bind. -/
  frames : Array (Bindings Value)
  /-- The fields of the objects. -/
  objects : Array (Bindings Value)
  /-- The number of classes that have been made. -/
  classes : Nat
deriving Inhabited

namespace Store

/-- A store without frames and objects. -/
def empty : Store := ⟨#[], #[], 0⟩

/-! ### Frames -/

/-- What a frame binds; a number that names no frame binds nothing. -/
def frame (s : Store) (a : FrameId) : Bindings Value := s.frames.getD a ∅

/-- Binds a name in a frame. -/
def write (s : Store) (a : FrameId) (name : String) (v : Value) : Store :=
  { s with frames := s.frames.modify a fun b => b.set name v }

/-- An environment of one fresh frame. -/
def newEnvironment (s : Store) : Environment × Store :=
  (⟨[s.frames.size]⟩, { s with frames := s.frames.push ∅ })

/-- An environment with a fresh frame in front. -/
def child (s : Store) (e : Environment) : Environment × Store :=
  (⟨s.frames.size :: e.chain⟩, { s with frames := s.frames.push ∅ })

/-! ### Names in an environment -/

/-- Binds a name in the innermost frame. -/
def define (s : Store) (e : Environment) (name : String) (v : Value) : Store :=
  match e.chain with
  | [] => s
  | a :: _ => s.write a name v

/-- The value of a name in the frame `distance` steps out. -/
def getAt? (s : Store) (e : Environment) (distance : Nat) (name : String) : Option Value :=
  match e.chain[distance]? with
  | some a => (s.frame a).get? name
  | none => none

/-- The innermost frame that binds a name. -/
def holder? (s : Store) (e : Environment) (name : String) : Option FrameId :=
  e.chain.find? fun a => (s.frame a).binds name

/-- The value of a name in the innermost frame that binds it. -/
def get? (s : Store) (e : Environment) (name : String) : Option Value :=
  match s.holder? e name with
  | some a => (s.frame a).get? name
  | none => none

/-- Binds a name in the innermost frame that binds it already, and tells whether there is one. -/
def assign (s : Store) (e : Environment) (name : String) (v : Value) : Bool × Store :=
  match s.holder? e name with
  | some a => (true, s.write a name v)
  | none => (false, s)

/-- Binds a name in the frame `distance` steps out, whether it binds it already or not, and tells
whether there is such a frame. -/
def assignAt (s : Store) (e : Environment) (distance : Nat) (name : String) (v : Value) :
    Bool × Store :=
  match e.chain[distance]? with
  | some a => (true, s.write a name v)
  | none => (false, s)

/-! ### Classes and objects -/

/-- A fresh class. -/
def newClass (s : Store) (name : String) (methods : Bindings Closure) (parent : Option Class) :
    Class × Store :=
  (.make s.classes name methods parent, { s with classes := s.classes + 1 })

/-- A fresh object of a class, without fields. -/
def newObject (s : Store) (c : Class) : Value × Store :=
  (.object s.objects.size c, { s with objects := s.objects.push ∅ })

/-- The fields of an object. -/
def fields (s : Store) (i : ObjectId) : Bindings Value := s.objects.getD i ∅

/-- Sets a field of an object. -/
def setField (s : Store) (i : ObjectId) (name : String) (v : Value) : Store :=
  { s with objects := s.objects.modify i fun b => b.set name v }

/-- A method with a receiver: its environment has a fresh frame in front that binds `this`. -/
def bind (s : Store) (method : Closure) (receiver : Value) : Closure × Store :=
  let (environment, s) := s.child method.environment
  ({ method with environment := environment }, s.define environment "this" receiver)

/-- A property of an object: the field of that name, or else the method of that name with the
object as its receiver. -/
def property (s : Store) (i : ObjectId) (c : Class) (name : String) : Option Value × Store :=
  match (s.fields i).get? name with
  | some v => (some v, s)
  | none =>
      match c.findMethod? name with
      | some method =>
          let (bound, s) := s.bind method (.object i c)
          (some (.closure bound), s)
      | none => (none, s)

/-! ### What the operations do -/

@[simp] theorem frames_size_write (s : Store) (a : FrameId) (name : String) (v : Value) :
    (s.write a name v).frames.size = s.frames.size := by
  simp [write]

/-- **A write changes one name of one frame.** -/
theorem frame_write (s : Store) (a b : FrameId) (name : String) (v : Value) :
    (s.write a name v).frame b =
      if a = b ∧ a < s.frames.size then (s.frame a).set name v else s.frame b := by
  simp only [write, frame, Array.getD_eq_getD_getElem?, Array.getElem?_modify]
  by_cases h : a = b
  · subst h
    by_cases hlt : a < s.frames.size
    · simp [hlt]
    · simp [hlt]
  · simp [h]

/-- A frame that is made binds nothing, and the other frames are as they were. -/
theorem frame_push (s : Store) (a : FrameId) :
    ({ s with frames := s.frames.push ∅ } : Store).frame a = s.frame a := by
  simp only [frame, Array.getD_eq_getD_getElem?, Array.getElem?_push]
  split
  · rename_i h
    simp [h]
  · rfl

/-- A fresh frame binds nothing. -/
@[simp] theorem getAt?_child_zero (s : Store) (e : Environment) (name : String) :
    (s.child e).2.getAt? (s.child e).1 0 name = none := by
  have hframe : s.frame s.frames.size = ∅ := by simp [frame]
  simp [child, getAt?, frame_push, hframe]

/-- Behind a fresh frame everything is where it was. -/
@[simp] theorem getAt?_child_succ (s : Store) (e : Environment) (distance : Nat) (name : String) :
    (s.child e).2.getAt? (s.child e).1 (distance + 1) name = s.getAt? e distance name := by
  simp only [child, getAt?, List.getElem?_cons_succ, frame_push]

/-- A field that was set has its new value, and every other field of every object the value it
had. -/
theorem field?_setField (s : Store) (i j : ObjectId) (name x : String) (v : Value)
    (hi : i < s.objects.size) :
    ((s.setField i name v).fields j).get? x =
      if j = i ∧ x = name then some v else (s.fields j).get? x := by
  simp only [setField, fields, Array.getD_eq_getD_getElem?, Array.getElem?_modify]
  by_cases h : i = j
  · subst h
    simp [hi]
  · have hji : ¬ j = i := fun e => h e.symm
    simp [h, hji]

end Store

end Scriptlet
