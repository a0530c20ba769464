/-
**What a run makes.**

Functions, classes and objects are made at few moments of a run.  The execution of a function
declaration makes a function and that of a class declaration a class.  A call of a class makes an
object, and binds its initialiser to it.  An access to a property makes a function if it binds a
method to the object, and so does an access to a method of the superclass.  All that a run makes,
in the order in which it is made, is a list, and a place in this list stands for one event of the
run: two events are two places, even if they should be alike in all else.

Main definitions:

* `Scriptlet.Task.made`, `Scriptlet.Task.Creates` — what a task makes itself, and of which kind it is;
* `Scriptlet.Making`, `Scriptlet.Task.makes`, `Scriptlet.allMakes` — **what is made in the course of
  a task and of a program**, in order.

Main results:

* `Scriptlet.superMethod_done`, `Scriptlet.makeClass_done` — what a method of a superclass and a class
  come to;
* `Scriptlet.Task.creates_of_mem_made` — which tasks make which values;
* `Scriptlet.Task.mem_makes`, `Scriptlet.mem_allMakes` — **what is made is made at the moments of
  the run**.
-/

import Scriptlet.Proofs.Session.Moments

set_option relaxedAutoImplicit false
set_option autoImplicit false

namespace Scriptlet

/-! ### What a single task makes -/

/-- A method with a receiver, if there is a method. -/
def Store.boundMethod (s : Store) (method : Option Closure) (receiver : Value) : List Value :=
  method.toList.map fun f => .closure (s.bind f receiver).1

/-- What an access to a property of a value makes: a method with its receiver, unless the property
is a field. -/
def Store.accessed (s : Store) (name : String) : Value → List Value
  | .object id c =>
      if (s.fields id).binds name then []
      else s.boundMethod (c.findMethod? name) (.object id c)
  | _ => []

/-- An access to what is not a field makes a method with its receiver, if there is a method. -/
theorem Store.accessed_of_get?_eq_none {s : Store} {i : ObjectId} {name : String}
    (h : (s.fields i).get? name = none) (c : Class) :
    s.accessed name (.object i c) = s.boundMethod (c.findMethod? name) (.object i c) := by
  have hbinds : (s.fields i).binds name = false := by rw [Bindings.binds, h, Option.isSome_none]
  simp only [accessed, hbinds, Bool.false_eq_true, if_false]

/-- What a call of a class makes: an object, and its initialiser with the object as receiver. -/
def Store.instantiated (s : Store) (c : Class) : List Value :=
  (s.newObject c).1 ::
    (s.newObject c).2.boundMethod (c.findMethod? "init") (s.newObject c).1

/-- **What a task makes itself.**  A task that does not come to it makes nothing. -/
def Task.made (setting : Setting) (fuel : Nat) (m : Machine) : Task → List Value
  | .execute (.funDecl routine _) => [.closure (.ofFunction routine m.scope)]
  | .execute (.classDecl name _ superclass methods _) =>
      (Action.makeClass setting name superclass methods m).after fun c _ => [.cls c]
  | .evaluate (.get _ object name) =>
      (Scriptlet.evaluate setting fuel object m).after fun v m => m.store.accessed name v
  | .evaluate (.superRef mark method) =>
      (Action.superMethod setting mark method m).after fun v _ => [v]
  | .apply (.cls c) arguments _ =>
      if arguments.length = c.arity then m.store.instantiated c else []
  | _ => []

/-- A value that has an identity: a function of the program, a class or an object. -/
def Value.IsMade : Value → Prop
  | .closure _ | .cls _ | .object _ _ => True
  | _ => False

/-! ### What names and classes come to -/

namespace Action

variable {α β : Type} {m m' : Machine}

/-- An action with a value has one in both halves. -/
theorem of_bind_done {x : Action α} {f : α → Action β} {b : β}
    (h : (x >>= f) m = .done b m') : ∃ a m₁, x m = .done a m₁ ∧ f a m₁ = .done b m' := by
  rw [bind_apply] at h
  cases hx : x m with
  | done a m₁ =>
      rw [hx] at h
      exact ⟨a, m₁, rfl, h⟩
  | failed e m₁ =>
      rw [hx] at h
      cases h
  | starved =>
      rw [hx] at h
      cases h

theorem of_read_done {f : Machine → α} {a : α} (h : read f m = .done a m') :
    a = f m ∧ m' = m := by
  cases h
  exact ⟨rfl, rfl⟩

theorem of_require_done {a : Option α} {b : α} {fault : RuntimeFault} {span : Span}
    (h : require a fault span m = .done b m') : a = some b ∧ m' = m := by
  cases a with
  | some a =>
      cases h
      exact ⟨rfl, rfl⟩
  | none => cases h

end Action

section Done

variable {setting : Setting} {m m' : Machine} {mark : Mark} {v : Value}

/-- Looking a name up leaves the machine as it is. -/
theorem lookUp_done {name : String} (h : Action.lookUp setting mark name m = .done v m') :
    m' = m := by
  unfold Action.lookUp at h
  cases hd : setting.distances[mark.id]? with
  | some distance =>
      rw [hd] at h
      exact (Action.of_require_done h).2
  | none =>
      rw [hd] at h
      exact (Action.of_require_done h).2

/-- **A method of the superclass** is one of the class that the frame of `super` binds, and its
receiver the object that the frame one step further in binds to `this`. -/
theorem superMethod_done {method : String}
    (h : Action.superMethod setting mark method m = .done v m') :
    ∃ inner parent id c f, setting.distances[mark.id]? = some (inner + 1) ∧
      m.store.getAt? m.scope (inner + 1) "super" = some (.cls parent) ∧
      m.store.getAt? m.scope inner "this" = some (.object id c) ∧
      parent.findMethod? method = some f ∧
      v = .closure (m.store.bind f (.object id c)).1 ∧
      m' = { m with store := (m.store.bind f (.object id c)).2 } := by
  unfold Action.superMethod at h
  obtain ⟨distance, m₁, hd, h₁⟩ := Action.of_bind_done h
  obtain ⟨hdistance, rfl⟩ := Action.of_require_done hd
  obtain ⟨parent, m₂, hread, h₂⟩ := Action.of_bind_done h₁
  obtain ⟨hparent, rfl⟩ := Action.of_read_done hread
  obtain ⟨receiver, m₃, hread', h₃⟩ := Action.of_bind_done h₂
  obtain ⟨hreceiver, rfl⟩ := Action.of_read_done hread'
  split at h₃
  · rename_i parent id c
    obtain ⟨f, m₄, hf, h₄⟩ := Action.of_bind_done h₃
    obtain ⟨hfound, rfl⟩ := Action.of_require_done hf
    cases h₄
    cases distance with
    | zero => cases hreceiver
    | succ inner =>
        exact ⟨inner, parent, id, c, f, hdistance, hparent.symm, hreceiver.symm, hfound, rfl, rfl⟩
  · cases h₃

/-- **A class**, and the store that is left when it is made.  A superclass gets a frame of its own,
in front of the environment of the declaration. -/
theorem makeClass_done {name : String} {superclass : Option Superclass} {methods : List Routine}
    {c : Class} (h : Action.makeClass setting name superclass methods m = .done c m') :
    (superclass = none ∧ c = .base m.store.classes name (Class.methodTable m.scope methods) ∧
      m' = { m with store := { m.store with classes := m.store.classes + 1 } }) ∨
    ∃ parent ancestor, superclass = some parent ∧
      Action.lookUp setting parent.mark parent.name m = .done (.cls ancestor) m ∧
      c = .derived m.store.classes name
        (Class.methodTable ⟨m.store.frames.size :: m.scope.chain⟩ methods) ancestor ∧
      m'.store.frames.size = m.store.frames.size + 1 ∧ m'.store.classes = m.store.classes + 1 := by
  unfold Action.makeClass at h
  obtain ⟨scope, m₁, hscope, h₁⟩ := Action.of_bind_done h
  cases hscope
  cases superclass with
  | none =>
      cases h₁
      exact .inl ⟨rfl, rfl, rfl⟩
  | some parent =>
      obtain ⟨v, m₂, hv, h₂⟩ := Action.of_bind_done h₁
      obtain rfl := lookUp_done hv
      cases v with
      | cls ancestor =>
          have hsize := ((m₂.store.child m₂.scope).2.frames_size_write m₂.store.frames.size "super"
            (.cls ancestor)).trans (Array.size_push _)
          cases h₂
          exact .inr ⟨parent, ancestor, rfl, hv, rfl, hsize, rfl⟩
      | _ => cases h₂

/-- The methods of a class declaration are found under their names. -/
theorem Class.of_methodTable {environment : Environment} {methods : List Routine} {name : String}
    {f : Closure} (h : (methodTable environment methods).get? name = some f) :
    ∃ r ∈ methods, r.name = name ∧ f = .ofMethod r environment := by
  have main : ∀ (methods : List Routine) (table : Bindings Closure),
      (methods.foldl (fun table r => table.set r.name (.ofMethod r environment)) table).get? name =
        some f →
      table.get? name = some f ∨ ∃ r ∈ methods, r.name = name ∧ f = .ofMethod r environment := by
    -- induction on the methods, for all tables, since a later method replaces an earlier one
    intro methods
    induction methods with
    | nil => exact fun _ h => .inl h
    | cons r rs ih =>
        intro table h
        rcases ih _ h with htable | ⟨q, hq, hfound⟩
        · rw [Bindings.get?_set] at htable
          split at htable
          · rename_i hname
            exact .inr ⟨r, List.mem_cons_self .., hname.symm, (Option.some.inj htable).symm⟩
          · exact .inl htable
        · exact .inr ⟨q, List.mem_cons_of_mem r hq, hfound⟩
  rcases main methods ∅ h with hnone | hfound
  · rw [Bindings.get?_empty] at hnone
    cases hnone
  · exact hfound

/-- **The tasks that make values**, and what they make: the execution of a function declaration a
function with its routine, that of a class declaration a class with its name, a call of a class an
object of it and the function that initialises the object, and an access to a property or to a
method of the superclass a function. -/
def Task.Creates : Task → Value → Prop
  | .execute (.funDecl routine _), .closure f => f.routine = routine
  | .execute (.classDecl name _ _ _ _), .cls c => c.name = name
  | .apply (.cls c) _ _, .object _ d => d = c
  | .apply (.cls _) _ _, .closure _ => True
  | .evaluate (.get _ _ _), .closure _ => True
  | .evaluate (.superRef _ _), .closure _ => True
  | _, _ => False

theorem Outcome.mem_after {α β : Type} {o : Outcome α} {f : α → Machine → List β} {b : β} :
    b ∈ o.after f ↔ ∃ a m, o = .done a m ∧ b ∈ f a m := by
  cases o with
  | done a m =>
      constructor
      · exact fun h => ⟨a, m, rfl, h⟩
      · rintro ⟨_, _, heq, h⟩
        cases heq
        exact h
  | failed e m => exact iff_of_false nofun nofun
  | starved => exact iff_of_false nofun nofun

theorem Store.mem_boundMethod {s : Store} {method : Option Closure} {receiver : Value} :
    v ∈ s.boundMethod method receiver ↔
      ∃ f, method = some f ∧ v = .closure (s.bind f receiver).1 := by
  cases method with
  | none => exact iff_of_false nofun nofun
  | some f =>
      constructor
      · exact fun h => ⟨f, rfl, List.mem_singleton.1 h⟩
      · rintro ⟨_, heq, rfl⟩
        cases heq
        exact List.mem_singleton.2 rfl

/-- What an access to a property makes is a method with the object as its receiver. -/
theorem Store.mem_accessed {s : Store} {name : String} {w : Value} :
    v ∈ s.accessed name w ↔ ∃ id c f, w = .object id c ∧ (s.fields id).get? name = none ∧
      c.findMethod? name = some f ∧ v = .closure (s.bind f w).1 := by
  cases w with
  | object id c =>
      cases hfield : (s.fields id).get? name with
      | none =>
          rw [accessed_of_get?_eq_none hfield, mem_boundMethod]
          constructor
          · rintro ⟨f, hf, rfl⟩
            exact ⟨id, c, f, rfl, hfield, hf, rfl⟩
          · rintro ⟨_, _, f, heq, -, hf, rfl⟩
            cases heq
            exact ⟨f, hf, rfl⟩
      | some u =>
          have hbinds : (s.fields id).binds name = true := by
            rw [Bindings.binds, hfield, Option.isSome_some]
          simp only [accessed, hbinds, if_true]
          refine iff_of_false List.not_mem_nil ?_
          rintro ⟨_, _, f, heq, hnone, -⟩
          cases heq
          rw [hfield] at hnone
          cases hnone
  | _ =>
      refine iff_of_false List.not_mem_nil ?_
      rintro ⟨_, _, _, heq, -⟩
      cases heq

/-- **What a task makes is what tasks of its kind make.** -/
theorem Task.creates_of_mem_made {fuel : Nat} {t : Task} (h : v ∈ t.made setting fuel m) :
    t.Creates v := by
  cases t with
  | evaluate e =>
      cases e with
      | get mark object name =>
          obtain ⟨w, m₁, -, hv⟩ := Outcome.mem_after.1 h
          obtain ⟨_, _, f, -, -, -, rfl⟩ := Store.mem_accessed.1 hv
          trivial
      | superRef mark method =>
          obtain ⟨w, m₁, hw, hv⟩ := Outcome.mem_after.1 h
          obtain ⟨_, _, _, _, f, -, -, -, -, rfl, -⟩ := superMethod_done hw
          rw [List.mem_singleton.1 hv]
          trivial
      | _ => cases h
  | apply f arguments site =>
      cases f with
      | cls c =>
          simp only [made] at h
          split at h
          · rcases List.mem_cons.1 h with rfl | h
            · rfl
            · obtain ⟨f, -, rfl⟩ := Store.mem_boundMethod.1 h
              trivial
          · cases h
      | _ => cases h
  | execute d =>
      cases d with
      | funDecl routine span =>
          rw [List.mem_singleton.1 h]
          rfl
      | classDecl name nameSpan superclass methods span =>
          obtain ⟨c, m₁, hc, hv⟩ := Outcome.mem_after.1 h
          rw [List.mem_singleton.1 hv]
          rcases makeClass_done hc with ⟨-, rfl, -⟩ | ⟨_, _, -, -, rfl, -⟩
          · rfl
          · rfl
      | _ => cases h
  | _ => cases h

end Done

/-! ### What is made in the course of a run -/

/-- A value that is made, and the moment at which it is. -/
structure Making where
  /-- The moment whose task makes the value. -/
  moment : Moment
  /-- The value. -/
  value : Value

/-- What is made at a moment itself. -/
def Task.makings (setting : Setting) (fuel : Nat) (m : Machine) (t : Task) : List Making :=
  (t.made setting fuel m).map (Making.mk ⟨t, fuel + 1, m⟩)

/-- **What is made in the course of a task**, in order.  A call of a class makes its object in front
of its parts, and any other task makes what it makes behind them. -/
def Task.makes (setting : Setting) : Nat → Task → Machine → List Making
  | 0, _, _ => []
  | fuel + 1, t, m =>
      match t with
      | .apply _ _ _ => t.makings setting fuel m ++
          (t.parts setting fuel m).flatMap fun part => makes setting fuel part.1 part.2
      | t => ((t.parts setting fuel m).flatMap fun part => makes setting fuel part.1 part.2) ++
          t.makings setting fuel m

/-- What is made in the course of the parts of a task. -/
def partsMake (setting : Setting) (fuel : Nat) (parts : List (Task × Machine)) : List Making :=
  parts.flatMap fun part => part.1.makes setting fuel part.2

/-- **What is made in the course of a program**, in order. -/
def allMakes (setting : Setting) (fuel : Nat) (ds : List Decl) (m : Machine) : List Making :=
  (topMoments setting fuel ds m).flatMap fun k => k.task.makes setting k.fuel k.machine

section Makes

variable {setting : Setting} {fuel : Nat} {m : Machine} {t : Task} {e : Making}

theorem Task.makes_succ (t : Task) : t.makes setting (fuel + 1) m =
    t.makings setting fuel m ++ partsMake setting fuel (t.parts setting fuel m) ∨
    t.makes setting (fuel + 1) m =
      partsMake setting fuel (t.parts setting fuel m) ++ t.makings setting fuel m := by
  cases t with
  | apply f arguments site => exact .inl rfl
  | _ => exact .inr rfl

theorem Task.mem_makes_succ : e ∈ t.makes setting (fuel + 1) m ↔
    e ∈ t.makings setting fuel m ∨ e ∈ partsMake setting fuel (t.parts setting fuel m) := by
  rcases t.makes_succ with h | h
  · rw [h, List.mem_append]
  · rw [h, List.mem_append, or_comm]

/-- **What is made in the course of a task is made at the moments to which it leads.** -/
theorem Task.mem_makes : e ∈ t.makes setting fuel m ↔
    (⟨t, fuel, m⟩ : Moment).Leads setting e.moment ∧
      ∃ f, e.moment.fuel = f + 1 ∧ e.value ∈ e.moment.task.made setting f e.moment.machine := by
  induction fuel generalizing t m with
  | zero =>
      constructor
      · exact nofun
      · rintro ⟨hk, f, hf, -⟩
        rcases Relation.ReflTransGen.cases_head hk with heq | ⟨l, hl, -⟩
        · rw [← heq] at hf
          cases hf
        · cases hl
  | succ n ih =>
      rw [mem_makes_succ, partsMake, List.mem_flatMap, makings, List.mem_map]
      constructor
      · rintro (⟨v, hv, rfl⟩ | ⟨part, hpart, he⟩)
        · exact ⟨.refl, n, rfl, hv⟩
        · obtain ⟨hk, hmade⟩ := ih.1 he
          exact ⟨.head (List.mem_map_of_mem hpart) hk, hmade⟩
      · rintro ⟨hk, f, hf, hv⟩
        obtain ⟨k, v⟩ := e
        rcases Relation.ReflTransGen.cases_head hk with heq | ⟨l, hl, hlk⟩
        · cases heq
          cases hf
          exact .inl ⟨v, hv, rfl⟩
        · obtain ⟨part, hpart, rfl⟩ := List.mem_map.1 hl
          exact .inr ⟨part, hpart, ih.2 ⟨hlk, f, hf, hv⟩⟩

/-- **What is made in the course of a program is made at its moments.** -/
theorem mem_allMakes {ds : List Decl} : e ∈ allMakes setting fuel ds m ↔
    Occurs setting fuel ds m e.moment ∧
      ∃ f, e.moment.fuel = f + 1 ∧ e.value ∈ e.moment.task.made setting f e.moment.machine := by
  rw [allMakes, List.mem_flatMap]
  constructor
  · rintro ⟨top, htop, he⟩
    obtain ⟨hk, hmade⟩ := Task.mem_makes.1 he
    exact ⟨⟨top, htop, hk⟩, hmade⟩
  · rintro ⟨⟨top, htop, hk⟩, hmade⟩
    exact ⟨top, htop, Task.mem_makes.2 ⟨hk, hmade⟩⟩

end Makes

end Scriptlet
