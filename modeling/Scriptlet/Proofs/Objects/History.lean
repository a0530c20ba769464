/-
**Classes and objects through a history.**

A history is a list of what is done to classes and objects: a class is made, with one of the
earlier classes as its superclass or without one, an object is made, a field of an object is set,
a property is asked for.  What a property is afterwards can be told from the history alone.  It is
the value that was last set; without one it is the method of the first class of the object's line
that has one, over a fresh frame that binds `this`; without that it is nothing.

No deed changes a frame that there is.  So a method that was found keeps all that it sees, whatever
is done to the object, to its class or to others.

Main definitions:

* `Scriptlet.Class.lineage` — the method tables of a class and its ancestors;
* `Scriptlet.Deed`, `Scriptlet.World`, `Scriptlet.World.run` — what is done, and to what;
* `Scriptlet.lastSet?`, `Scriptlet.lineages`, `Scriptlet.kindNumbers`, `Scriptlet.method?` — what a
  history says;
* `Scriptlet.Closure.BoundTo` — a method with a receiver;
* `Scriptlet.World.Tells`, `Scriptlet.World.GetSpares`, `Scriptlet.World.SetSpares`,
  `Scriptlet.World.StillSees` — what a property is, what asking for it and setting it leave alone,
  and what a method that was found sees later.

Main results:

* `Scriptlet.Class.findMethod?_eq_findSome?` — **the nearest class that has a method provides it**;
* `Scriptlet.Store.boundTo_bind` — a method with a receiver is over a fresh frame that binds `this`;
* `Scriptlet.World.Records.step`, `Scriptlet.World.Records.run` — **a world is what its history
  says**;
* `Scriptlet.World.keeps_run` — no deed changes a frame that there is;
* `Scriptlet.World.property_of_history` — **properties through a history**.
-/

import Scriptlet.Proofs.Origin.Policy

set_option relaxedAutoImplicit false
set_option autoImplicit false

namespace Scriptlet

/-! ### The line of a class -/

/-- The method tables of a class and its ancestors, the class itself first. -/
def Class.lineage : Class → List (Bindings Closure)
  | .base _ _ methods => [methods]
  | .derived _ _ methods parent => methods :: parent.lineage

/-- **The nearest class that has a method provides it.** -/
theorem Class.findMethod?_eq_findSome? (c : Class) (name : String) :
    c.findMethod? name = c.lineage.findSome? (·.get? name) := by
  induction c with
  | base id n methods => simp [lineage]
  | derived id n methods parent ih =>
      rw [findMethod?_derived, lineage, List.findSome?_cons, ih]
      cases methods.get? name <;> rfl

@[simp] theorem Class.lineage_make (id : Nat) (name : String) (methods : Bindings Closure)
    (parent : Option Class) :
    (Class.make id name methods parent).lineage =
      methods :: (parent.map Class.lineage).getD [] := by
  cases parent <;> rfl

/-! ### Frames that stay as they are -/

/-- A store in which the frames of another are as they were. -/
structure Store.Keeps (s t : Store) : Prop where
  size : s.frames.size ≤ t.frames.size
  frame : ∀ a < s.frames.size, t.frame a = s.frame a

/-- A table whose methods close over frames that there are. -/
def Bindings.Within (methods : Bindings Closure) (s : Store) : Prop :=
  ∀ entry ∈ methods.entries, ∀ a ∈ entry.2.environment.chain, a < s.frames.size

instance (methods : Bindings Closure) (s : Store) : Decidable (methods.Within s) :=
  inferInstanceAs (Decidable (∀ entry ∈ methods.entries, ∀ a ∈ entry.2.environment.chain,
    a < s.frames.size))

namespace Store

variable {s t u : Store} {e : Environment}

theorem Keeps.refl (s : Store) : s.Keeps s := ⟨Nat.le_refl _, fun _ _ => rfl⟩

theorem Keeps.trans (h : s.Keeps t) (h' : t.Keeps u) : s.Keeps u :=
  ⟨Nat.le_trans h.size h'.size, fun a ha =>
    (h'.frame a (Nat.lt_of_lt_of_le ha h.size)).trans (h.frame a ha)⟩

/-- In frames that stay as they are, every name is where it was. -/
theorem Keeps.getAt? (h : s.Keeps t) (he : ∀ a ∈ e.chain, a < s.frames.size) (distance : Nat)
    (name : String) : t.getAt? e distance name = s.getAt? e distance name := by
  unfold Store.getAt?
  cases ha : e.chain[distance]? with
  | none => rfl
  | some a => exact congrArg (·.get? name) (h.frame a (he a (List.mem_of_getElem? ha)))

theorem keeps_bind (s : Store) (method : Closure) (receiver : Value) :
    s.Keeps (s.bind method receiver).2 := by
  refine ⟨(s.le_bind method receiver).frames, fun a ha => ?_⟩
  have hne : ¬(s.frames.size = a ∧ s.frames.size < (s.child method.environment).2.frames.size) :=
    fun h => Nat.ne_of_gt ha h.1
  calc (s.bind method receiver).2.frame a
      = ((s.child method.environment).2.write s.frames.size "this" receiver).frame a := rfl
    _ = (s.child method.environment).2.frame a := by rw [frame_write, if_neg hne]
    _ = s.frame a := frame_child s method.environment a

/-- The frame of a method with a receiver binds `this` and nothing else. -/
theorem get?_frame_bind (s : Store) (method : Closure) (receiver : Value) (name : String) :
    ((s.bind method receiver).2.frame s.frames.size).get? name =
      if name = "this" then some receiver else none := by
  have hlt : s.frames.size < (s.child method.environment).2.frames.size := by simp [child]
  calc ((s.bind method receiver).2.frame s.frames.size).get? name
      = (((s.child method.environment).2.write s.frames.size "this" receiver).frame
          s.frames.size).get? name := rfl
    _ = (((s.child method.environment).2.frame s.frames.size).set "this" receiver).get? name := by
        rw [frame_write, if_pos ⟨rfl, hlt⟩]
    _ = if name = "this" then some receiver else none := by
        rw [frame_child, frame_fresh, Bindings.get?_set, Bindings.get?_empty]

theorem objects_property (s : Store) (i : ObjectId) (c : Class) (name : String) :
    (s.property i c name).2.objects = s.objects := by
  unfold property
  cases (s.fields i).get? name with
  | some v => rfl
  | none => cases c.findMethod? name <;> rfl

theorem classes_property (s : Store) (i : ObjectId) (c : Class) (name : String) :
    (s.property i c name).2.classes = s.classes := by
  unfold property
  cases (s.fields i).get? name with
  | some v => rfl
  | none => cases c.findMethod? name <;> rfl

theorem keeps_property (s : Store) (i : ObjectId) (c : Class) (name : String) :
    s.Keeps (s.property i c name).2 := by
  unfold property
  cases (s.fields i).get? name with
  | some v => exact .refl s
  | none =>
      cases c.findMethod? name with
      | none => exact .refl s
      | some f => exact s.keeps_bind f _

end Store

theorem Bindings.Within.of_le {methods : Bindings Closure} {s t : Store} (h : methods.Within s)
    (hle : s.frames.size ≤ t.frames.size) : methods.Within t :=
  fun entry hentry a ha => Nat.lt_of_lt_of_le (h entry hentry a ha) hle

theorem Bindings.Within.of_get? {methods : Bindings Closure} {s : Store} {name : String}
    {f : Closure} (h : methods.Within s) (hf : methods.get? name = some f) :
    ∀ a ∈ f.environment.chain, a < s.frames.size := by
  obtain ⟨front, back, hentries, -⟩ := List.lookup_eq_some_iff.1 hf
  exact h (name, f) (by simp [hentries])

/-! ### Methods with a receiver -/

/-- **A method with a receiver**: the same declaration and the same mark of an initialiser, over a
frame that the store `s` does not have, in which the store `t` binds `this` and nothing else, and
behind it the environment of the method as it is in `s`. -/
structure Closure.BoundTo (f : Closure) (receiver : Value) (s t : Store) (g : Closure) : Prop where
  routine : g.routine = f.routine
  isInitializer : g.isInitializer = f.isInitializer
  chain : g.environment.chain = s.frames.size :: f.environment.chain
  this : ∀ name, t.getAt? g.environment 0 name = if name = "this" then some receiver else none
  behind : ∀ distance name,
    t.getAt? g.environment (distance + 1) name = s.getAt? f.environment distance name

/-- A method with a receiver is over a fresh frame that binds `this`. -/
theorem Store.boundTo_bind (s : Store) {f : Closure} (receiver : Value)
    (hf : ∀ a ∈ f.environment.chain, a < s.frames.size) :
    f.BoundTo receiver s (s.bind f receiver).2 (s.bind f receiver).1 where
  routine := rfl
  isInitializer := rfl
  chain := rfl
  this name := s.get?_frame_bind f receiver name
  behind distance name := (s.keeps_bind f receiver).getAt? hf distance name

/-! ### Deeds and worlds -/

/-- What is done to classes and objects. -/
inductive Deed
  /-- A class is made, with the class of the given number as its superclass or without one. -/
  | makeClass (name : String) (methods : Bindings Closure) (parent : Option Nat)
  /-- An object of the class of the given number is made. -/
  | makeObject (cls : Nat)
  /-- A field is set. -/
  | set (object : ObjectId) (name : String) (value : Value)
  /-- A property is asked for. -/
  | get (object : ObjectId) (name : String)

/-- What there is to do something to. -/
structure World where
  /-- The frames and the fields. -/
  store : Store
  /-- The classes, by their numbers. -/
  classes : List Class
  /-- The class of each object. -/
  kinds : List Class

namespace World

/-- A world with some frames, and without classes and objects. -/
def start (frames : Array (Bindings Value)) : World := ⟨⟨frames, #[], 0⟩, [], []⟩

/-- The superclass that a number names, if it names one. -/
def superclass? (w : World) : Option Nat → Option (Option Class)
  | none => some none
  | some p => w.classes[p]?.map some

/-- What a world is after a deed.  There is nothing to do with a class or an object that does not
exist, and a method closes over frames that exist. -/
def step (w : World) : Deed → Option World
  | .makeClass name methods parent =>
      if methods.Within w.store then
        (w.superclass? parent).map fun ancestor =>
          let (c, s) := w.store.newClass name methods ancestor
          { w with store := s, classes := w.classes ++ [c] }
      else none
  | .makeObject k =>
      w.classes[k]?.map fun c =>
        { w with store := (w.store.newObject c).2, kinds := w.kinds ++ [c] }
  | .set i name v =>
      w.kinds[i]?.map fun _ => { w with store := w.store.setField i name v }
  | .get i name =>
      w.kinds[i]?.map fun c => { w with store := (w.store.property i c name).2 }

/-- What a world is after a list of deeds. -/
def run (w : World) : List Deed → Option World
  | [] => some w
  | d :: deeds => (w.step d).bind fun w' => w'.run deeds

theorem run_append (w : World) (deeds later : List Deed) :
    w.run (deeds ++ later) = (w.run deeds).bind fun w' => w'.run later := by
  induction deeds generalizing w with
  | nil => rfl
  | cons d deeds ih =>
      cases h : w.step d with
      | none => simp [run, h]
      | some w' => simp [run, h, ih]

end World

/-! ### What a history says -/

/-- The value that a deed sets under a name of an object. -/
def Deed.set? (i : ObjectId) (name : String) : Deed → Option Value
  | .set j x v => if i = j ∧ name = x then some v else none
  | _ => none

/-- The value that was last set under a name of an object. -/
def lastSet? (deeds : List Deed) (i : ObjectId) (name : String) : Option Value :=
  deeds.reverse.findSome? (Deed.set? i name)

/-- Adds the line of the class that a deed makes. -/
def Deed.addLineage (lines : List (List (Bindings Closure))) :
    Deed → List (List (Bindings Closure))
  | .makeClass _ methods parent => lines ++ [methods :: (parent.bind (lines[·]?)).getD []]
  | _ => lines

/-- The lines of the classes, by their numbers: the methods of the class itself, then those of its
superclass, and so on. -/
def lineages (deeds : List Deed) : List (List (Bindings Closure)) :=
  deeds.foldl Deed.addLineage []

/-- The number of the class that a deed makes an object of. -/
def Deed.kind? : Deed → Option Nat
  | .makeObject k => some k
  | _ => none

/-- The number of the class of each object. -/
def kindNumbers (deeds : List Deed) : List Nat := deeds.filterMap Deed.kind?

/-- The method of the first class along the line of an object that has one of that name. -/
def method? (deeds : List Deed) (i : ObjectId) (name : String) : Option Closure :=
  ((kindNumbers deeds)[i]?.bind ((lineages deeds)[·]?)).bind (·.findSome? (·.get? name))

section Histories

variable (deeds : List Deed) (d : Deed)

theorem lastSet?_concat (i : ObjectId) (name : String) :
    lastSet? (deeds ++ [d]) i name = (d.set? i name).or (lastSet? deeds i name) := by
  unfold lastSet?
  rw [List.reverse_concat, List.findSome?_cons]
  cases d.set? i name <;> rfl

theorem lineages_concat : lineages (deeds ++ [d]) = d.addLineage (lineages deeds) := by
  simp [lineages]

theorem kindNumbers_concat : kindNumbers (deeds ++ [d]) = kindNumbers deeds ++ d.kind?.toList := by
  unfold kindNumbers
  cases h : d.kind? <;> simp [List.filterMap_append, h]

end Histories

/-! ### A world is what its history says -/

namespace World

/-- A world as a history says that it is. -/
structure Records (w : World) (deeds : List Deed) : Prop where
  lines : w.classes.map Class.lineage = lineages deeds
  kinds : List.Forall₂ (fun k c => w.classes[k]? = some c) (kindNumbers deeds) w.kinds
  objects : w.store.objects.size = w.kinds.length
  fields : ∀ i name, (w.store.fields i).get? name = lastSet? deeds i name
  within : ∀ c ∈ w.classes, ∀ methods ∈ c.lineage, methods.Within w.store

namespace Records

variable {w w' : World} {deeds : List Deed}

theorem start (frames : Array (Bindings Value)) : (World.start frames).Records [] where
  lines := rfl
  kinds := .nil
  objects := rfl
  fields i name := by simp [World.start, Store.fields, lastSet?]
  within := nofun

/-- The superclass of a class that is made has the line that the history says. -/
theorem superclass (h : w.Records deeds) {parent : Option Nat} {ancestor : Option Class}
    (hparent : w.superclass? parent = some ancestor) :
    (parent.bind ((lineages deeds)[·]?)).getD [] =
      (ancestor.map Class.lineage).getD [] := by
  cases parent with
  | none =>
      cases hparent
      rfl
  | some p =>
      obtain ⟨c, hc, rfl⟩ := Option.map_eq_some_iff.1 hparent
      rw [← h.lines]
      simp [hc]

theorem makeClass (h : w.Records deeds) {name : String} {methods : Bindings Closure}
    {parent : Option Nat} (hw : w.step (.makeClass name methods parent) = some w') :
    w'.Records (deeds ++ [.makeClass name methods parent]) := by
  simp only [World.step] at hw
  split at hw
  · rename_i hwithin
    obtain ⟨ancestor, hancestor, rfl⟩ := Option.map_eq_some_iff.1 hw
    have hline := h.superclass hancestor
    refine ⟨?_, ?_, h.objects, fun i x => ?_, fun c hc ms hms => ?_⟩
    · simp [lineages_concat, Deed.addLineage, h.lines, hline, Store.newClass]
    · rw [kindNumbers_concat]
      simpa [Deed.kind?] using h.kinds.imp fun k c hk => by
        rw [List.getElem?_append_left (List.getElem?_eq_some_iff.1 hk).1, hk]
    · rw [lastSet?_concat]
      exact h.fields i x
    · -- the lines of the new class are its own table and those of a class that there was
      rcases List.mem_append.1 hc with hc | hc
      · exact h.within c hc ms hms
      · obtain rfl := List.mem_singleton.1 hc
        simp only [Store.newClass, Class.lineage_make, List.mem_cons] at hms
        rcases hms with rfl | hms
        · exact hwithin
        · cases parent with
          | none =>
              cases hancestor
              cases hms
          | some p =>
              obtain ⟨c', hc', rfl⟩ := Option.map_eq_some_iff.1 hancestor
              exact h.within c' (List.mem_of_getElem? hc') ms hms
  · cases hw

theorem makeObject (h : w.Records deeds) {k : Nat} (hw : w.step (.makeObject k) = some w') :
    w'.Records (deeds ++ [.makeObject k]) := by
  obtain ⟨c, hc, rfl⟩ := Option.map_eq_some_iff.1 hw
  refine ⟨?_, ?_, ?_, fun i x => ?_, h.within⟩
  · rw [lineages_concat]
    exact h.lines
  · rw [kindNumbers_concat]
    exact List.rel_append h.kinds (.cons hc .nil)
  · simp [Store.newObject, h.objects]
  · rw [lastSet?_concat, Store.fields_newObject]
    exact h.fields i x

theorem set (h : w.Records deeds) {i : ObjectId} {name : String} {v : Value}
    (hw : w.step (.set i name v) = some w') : w'.Records (deeds ++ [.set i name v]) := by
  obtain ⟨c, hc, rfl⟩ := Option.map_eq_some_iff.1 hw
  have hi : i < w.store.objects.size := h.objects ▸ (List.getElem?_eq_some_iff.1 hc).1
  refine ⟨?_, ?_, ?_, fun j x => ?_, h.within⟩
  · rw [lineages_concat]
    exact h.lines
  · rw [kindNumbers_concat]
    simpa [Deed.kind?] using h.kinds
  · simpa [Store.setField] using h.objects
  · rw [lastSet?_concat, Store.field?_setField _ _ _ _ _ _ hi, h.fields j x, Deed.set?]
    split <;> rfl

theorem get (h : w.Records deeds) {i : ObjectId} {name : String}
    (hw : w.step (.get i name) = some w') : w'.Records (deeds ++ [.get i name]) := by
  obtain ⟨c, hc, rfl⟩ := Option.map_eq_some_iff.1 hw
  have hobjects : (w.store.property i c name).2.objects = w.store.objects :=
    w.store.objects_property i c name
  refine ⟨?_, ?_, ?_, fun j x => ?_, fun c' hc' ms hms => ?_⟩
  · rw [lineages_concat]
    exact h.lines
  · rw [kindNumbers_concat]
    simpa [Deed.kind?] using h.kinds
  · simpa [hobjects] using h.objects
  · rw [lastSet?_concat]
    simpa [Store.fields, hobjects, Deed.set?] using h.fields j x
  · exact (h.within c' hc' ms hms).of_le (w.store.keeps_property i c name).size

/-- One deed more is recorded. -/
theorem step (h : w.Records deeds) (d : Deed) (hw : w.step d = some w') :
    w'.Records (deeds ++ [d]) := by
  cases d with
  | makeClass name methods parent => exact h.makeClass hw
  | makeObject k => exact h.makeObject hw
  | set i name v => exact h.set hw
  | get i name => exact h.get hw

/-- **A world is what its history says.** -/
theorem run (h : w.Records deeds) {later : List Deed} (hw : w.run later = some w') :
    w'.Records (deeds ++ later) := by
  induction later generalizing w deeds with
  | nil =>
      cases hw
      simpa using h
  | cons d later ih =>
      obtain ⟨w₁, hstep, hrun⟩ := Option.bind_eq_some_iff.1 hw
      simpa using ih (h.step d hstep) hrun

/-- The class of an object is the class of the number that the history says. -/
theorem kind (h : w.Records deeds) {i : ObjectId} {c : Class} (hi : w.kinds[i]? = some c) :
    ∃ k, (kindNumbers deeds)[i]? = some k ∧ w.classes[k]? = some c := by
  obtain ⟨hlt, rfl⟩ := List.getElem?_eq_some_iff.1 hi
  obtain ⟨hlength, hget⟩ := List.forall₂_iff_get.1 h.kinds
  exact ⟨_, List.getElem?_eq_getElem (hlength ▸ hlt), hget i (hlength ▸ hlt) hlt⟩

/-- A method of an object's class is the one that the history says. -/
theorem method?_eq (h : w.Records deeds) {i : ObjectId} {c : Class} (hi : w.kinds[i]? = some c)
    (name : String) : method? deeds i name = c.findMethod? name := by
  obtain ⟨k, hk, hclass⟩ := h.kind hi
  have hline : (lineages deeds)[k]? = some c.lineage := by
    rw [← h.lines, List.getElem?_map, hclass]
    rfl
  rw [Class.findMethod?_eq_findSome?, method?, hk]
  simp only [Option.bind_some, hline]

/-- A method of an object's class closes over frames that there are. -/
theorem within_findMethod? (h : w.Records deeds) {i : ObjectId} {c : Class}
    (hi : w.kinds[i]? = some c) {name : String} {f : Closure} (hf : c.findMethod? name = some f) :
    ∀ a ∈ f.environment.chain, a < w.store.frames.size := by
  obtain ⟨k, -, hclass⟩ := h.kind hi
  rw [Class.findMethod?_eq_findSome?] at hf
  obtain ⟨methods, hmethods, hget⟩ := List.exists_of_findSome?_eq_some hf
  exact (h.within c (List.mem_of_getElem? hclass) methods hmethods).of_get? hget

end Records

/-! ### No deed changes a frame -/

variable {w w' : World}

theorem keeps_step {d : Deed} (h : w.step d = some w') : w.store.Keeps w'.store := by
  cases d with
  | makeClass name methods parent =>
      simp only [step] at h
      split at h
      · obtain ⟨ancestor, -, rfl⟩ := Option.map_eq_some_iff.1 h
        exact ⟨Nat.le_refl _, fun _ _ => rfl⟩
      · cases h
  | makeObject k =>
      obtain ⟨c, -, rfl⟩ := Option.map_eq_some_iff.1 h
      exact ⟨Nat.le_refl _, fun _ _ => rfl⟩
  | set i name v =>
      obtain ⟨c, -, rfl⟩ := Option.map_eq_some_iff.1 h
      exact ⟨Nat.le_refl _, fun _ _ => rfl⟩
  | get i name =>
      obtain ⟨c, -, rfl⟩ := Option.map_eq_some_iff.1 h
      exact w.store.keeps_property i c name

/-- No deed changes a frame that there is. -/
theorem keeps_run {deeds : List Deed} (h : w.run deeds = some w') : w.store.Keeps w'.store := by
  induction deeds generalizing w with
  | nil =>
      cases h
      exact .refl _
  | cons d deeds ih =>
      obtain ⟨w₁, hstep, hrun⟩ := Option.bind_eq_some_iff.1 h
      exact (keeps_step hstep).trans (ih hrun)

end World

/-! ### Properties through a history -/

/-- What a property is depends on the frames and on the field of its name. -/
theorem Store.property_congr {s t : Store} (hframes : t.frames = s.frames) {j : ObjectId}
    {name : String} (hfield : (t.fields j).get? name = (s.fields j).get? name) (c : Class) :
    (t.property j c name).1 = (s.property j c name).1 ∧
      (t.property j c name).2.frames = (s.property j c name).2.frames := by
  unfold property
  rw [hfield]
  cases (s.fields j).get? name with
  | some v => exact ⟨rfl, hframes⟩
  | none =>
      cases c.findMethod? name with
      | none => exact ⟨rfl, hframes⟩
      | some f => simp [bind, child, define, write, hframes]

namespace World

/-- **What a property is by its history**: what was last set, or else the method of the nearest
class with the object as its receiver, or else nothing. -/
structure Tells (w : World) (deeds : List Deed) (i : ObjectId) (c : Class) (name : String) :
    Prop where
  field : ∀ v, lastSet? deeds i name = some v → w.store.property i c name = (some v, w.store)
  method : lastSet? deeds i name = none → ∀ f, method? deeds i name = some f →
    ∃ g, (w.store.property i c name).1 = some (.closure g) ∧
      f.BoundTo (.object i c) w.store (w.store.property i c name).2 g
  nothing : lastSet? deeds i name = none → method? deeds i name = none →
    w.store.property i c name = (none, w.store)

/-- Asking for a property changes no field, no class and no frame that there is. -/
structure GetSpares (w w' : World) : Prop where
  classes : w'.classes = w.classes
  kinds : w'.kinds = w.kinds
  objects : w'.store.objects = w.store.objects
  count : w'.store.classes = w.store.classes
  frames : w.store.Keeps w'.store

/-- Setting a field changes no frame and no class, and nothing that is found under another name or
at another object. -/
structure SetSpares (w w' : World) (i : ObjectId) (name : String) : Prop where
  classes : w'.classes = w.classes
  kinds : w'.kinds = w.kinds
  count : w'.store.classes = w.store.classes
  frames : w'.store.frames = w.store.frames
  fields : ∀ j x, j ≠ i ∨ x ≠ name → (w'.store.fields j).get? x = (w.store.fields j).get? x
  property : ∀ j x, j ≠ i ∨ x ≠ name → ∀ c,
    (w'.store.property j c x).1 = (w.store.property j c x).1 ∧
      (w'.store.property j c x).2.frames = (w.store.property j c x).2.frames

/-- **A method that was found sees later what it saw then**: a world, which an earlier one became,
binds all names of its environment as they were bound when it was asked for. -/
def StillSees (frames : Array (Bindings Value)) (w : World) (deeds : List Deed) : Prop :=
  ∀ ⦃earlier between : List Deed⦄ ⦃i : ObjectId⦄ ⦃name : String⦄ ⦃u : World⦄ ⦃c : Class⦄
    ⦃g : Closure⦄, deeds = earlier ++ .get i name :: between →
    (start frames).run earlier = some u → u.kinds[i]? = some c → lastSet? earlier i name = none →
    (u.store.property i c name).1 = some (.closure g) →
    ∀ distance x, w.store.getAt? g.environment distance x =
      (u.store.property i c name).2.getAt? g.environment distance x

section Properties

variable {w w' : World} {deeds : List Deed} {i : ObjectId} {c : Class} {name : String}

theorem Records.tells (h : w.Records deeds) (hi : w.kinds[i]? = some c) (name : String) :
    w.Tells deeds i c name where
  field v hv := by
    rw [← h.fields] at hv
    simp only [Store.property, hv]
  method hnone f hf := by
    rw [← h.fields] at hnone
    rw [h.method?_eq hi] at hf
    simp only [Store.property, hnone, hf]
    exact ⟨_, rfl, w.store.boundTo_bind _ (h.within_findMethod? hi hf)⟩
  nothing hnone hf := by
    rw [← h.fields] at hnone
    rw [h.method?_eq hi] at hf
    simp only [Store.property, hnone, hf]

theorem getSpares (h : w.step (.get i name) = some w') : w.GetSpares w' := by
  obtain ⟨c, -, rfl⟩ := Option.map_eq_some_iff.1 h
  exact ⟨rfl, rfl, w.store.objects_property i c name, w.store.classes_property i c name,
    w.store.keeps_property i c name⟩

theorem Records.setSpares (h : w.Records deeds) {v : Value}
    (hw : w.step (.set i name v) = some w') : w.SetSpares w' i name := by
  obtain ⟨c, hc, rfl⟩ := Option.map_eq_some_iff.1 hw
  have hi : i < w.store.objects.size := h.objects ▸ (List.getElem?_eq_some_iff.1 hc).1
  have hfields : ∀ j x, j ≠ i ∨ x ≠ name →
      ((w.store.setField i name v).fields j).get? x = (w.store.fields j).get? x := by
    intro j x hne
    rw [Store.field?_setField _ _ _ _ _ _ hi, if_neg fun h => hne.elim (· h.1) (· h.2)]
  exact ⟨rfl, rfl, rfl, rfl, hfields, fun j x hne =>
    Store.property_congr (s := w.store) (t := w.store.setField i name v) rfl (hfields j x hne)⟩

theorem stillSees {frames : Array (Bindings Value)} (hw : (start frames).run deeds = some w) :
    w.StillSees frames deeds := by
  rintro earlier between i name u c g rfl hu hi hnone hg distance x
  have h : u.Records earlier := by simpa using (Records.start frames).run hu
  -- the rest of the history starts in the world where the method has just been found
  rw [run_append, hu, Option.bind_some] at hw
  obtain ⟨u', hu', hrun⟩ := Option.bind_eq_some_iff.1 hw
  obtain ⟨c', hc', rfl⟩ := Option.map_eq_some_iff.1 hu'
  obtain rfl := Option.some.inj (hi.symm.trans hc')
  refine (keeps_run hrun).getAt? (fun a ha => ?_) distance x
  rw [← h.fields] at hnone
  cases hf : c.findMethod? name with
  | none => simp [Store.property, hnone, hf] at hg
  | some f =>
      simp only [Store.property, hnone, hf] at hg ⊢
      cases hg
      -- its own frame is the last one, and the others were there before
      have hsize : (u.store.bind f (.object i c)).2.frames.size = u.store.frames.size + 1 := by
        simp [Store.bind, Store.child, Store.define]
      rcases List.mem_cons.1 ha with rfl | ha
      · exact hsize ▸ Nat.lt_succ_self _
      · exact hsize ▸ Nat.lt_succ_of_lt (h.within_findMethod? hi hf a ha)

/-- **Properties through a history.**  After every history, every property of every object is what
the history says, asking for it and setting it are possible and leave alone what they should, and
every method that was found on the way still sees what it saw. -/
theorem property_of_history {frames : Array (Bindings Value)}
    (hw : (start frames).run deeds = some w) :
    (∀ i c, w.kinds[i]? = some c → ∀ name, w.Tells deeds i c name ∧
      (∃ w', w.step (.get i name) = some w' ∧ w.GetSpares w') ∧
      ∀ v, ∃ w', w.step (.set i name v) = some w' ∧ w.SetSpares w' i name) ∧
    w.StillSees frames deeds := by
  have h : w.Records deeds := by simpa using (Records.start frames).run hw
  refine ⟨fun i c hi name => ⟨h.tells hi name, ?_, fun v => ?_⟩, stillSees hw⟩
  · have hget : w.step (.get i name) =
        some { w with store := (w.store.property i c name).2 } := by simp [step, hi]
    exact ⟨_, hget, getSpares hget⟩
  · have hset : w.step (.set i name v) =
        some { w with store := w.store.setField i name v } := by simp [step, hi]
    exact ⟨_, hset, h.setSpares hset⟩

end Properties

/-- A history in which an inherited method is found, and then a field hides it. -/
def hidden : List Deed :=
  [.makeClass "A" (Bindings.set ∅ "m" (.ofMethod (.mk 0 "m" [] [] default) ⟨[0]⟩)) none,
    .makeClass "B" ∅ (some 0), .makeObject 1, .get 0 "m", .set 0 "m" (.bool true)]

theorem property_of_history_hidden : ∃ w c, (start #[∅]).run hidden = some w ∧
    w.kinds[0]? = some c ∧ (w.store.property 0 c "m").1 = some (.bool true) ∧
    (method? hidden 0 "m").isSome ∧ w.StillSees #[∅] hidden := by
  obtain ⟨htells, hsees⟩ := property_of_history
    (show (start #[∅]).run hidden = some _ from rfl)
  have hfield := (htells 0 _ rfl "m").1.field (.bool true) rfl
  exact ⟨_, _, rfl, rfl, congrArg Prod.fst hfield, rfl, hsees⟩

end World

end Scriptlet
