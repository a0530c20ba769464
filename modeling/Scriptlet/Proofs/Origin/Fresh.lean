/-
**What is made is new.**

A class or an object gets the next number of its kind, and a method that is given a receiver gets a
frame of its own, so it can be told from all that was made before.  A function that is declared gets
nothing of the kind: it is its declaration together with the environment in which that is executed.
It is new all the same, for an environment with a frame of its own belongs to one run through a
list of declarations, which comes to each of them once.

Main definitions:

* `Scriptlet.Value.Since`, `Scriptlet.Value.Before` — values that are newer or older than a store;
* `Scriptlet.Making.Apart` — values that can be told from each other;
* `Scriptlet.Fresh` — **what is made between two stores**: newer than the one, older than the other,
  and each apart from the others;
* `Scriptlet.Moment.Rooted` — moments in an environment with a frame of its own, at declarations
  of which none stands twice.

Main results:

* `Scriptlet.Fresh.append` — what is made in two runs that follow one another;
* `Scriptlet.Task.fresh` — **what is made in the course of a task is fresh.**
-/

import Mathlib.Data.List.Nodup
import Scriptlet.Proofs.Lexical.Match
import Scriptlet.Proofs.Origin.Flow
import Scriptlet.Proofs.Origin.Inner

set_option relaxedAutoImplicit false
set_option autoImplicit false

namespace Scriptlet

/-! ### Newer and older values -/

/-- A value that is newer than a store. -/
def Value.Since (s : Store) : Value → Prop
  | .closure f => ∃ a rest, f.environment.chain = a :: rest ∧ s.frames.size ≤ a
  | .cls c => s.classes ≤ c.id
  | .object i _ => s.objects.size ≤ i
  | _ => False

/-- A value that is older than a store. -/
def Value.Before (s : Store) : Value → Prop
  | .closure f => ∃ a rest, f.environment.chain = a :: rest ∧ a < s.frames.size
  | .cls c => c.id < s.classes
  | .object i _ => i < s.objects.size
  | _ => False

/-- A function that is declared in an environment, by a declaration with one of the given labels. -/
def Value.DeclaredIn (environment : Environment) (labels : List Nat) : Value → Prop
  | .closure f => f.environment = environment ∧ f.routine.label ∈ labels
  | _ => False

/-- An environment whose innermost frame is in the store. -/
def Environment.RootedIn (e : Environment) (s : Store) : Prop :=
  ∃ a rest, e.chain = a :: rest ∧ a < s.frames.size

section Values

variable {s s' : Store} {v w : Value} {e : Environment} {labels labels' : List Nat}

theorem Value.Since.of_le (h : v.Since s') (hle : s.Le s') : v.Since s := by
  cases v with
  | closure f =>
      obtain ⟨a, rest, hchain, ha⟩ := h
      exact ⟨a, rest, hchain, Nat.le_trans hle.frames ha⟩
  | cls c => exact Nat.le_trans hle.classes h
  | object i c => exact Nat.le_trans hle.objects h
  | _ => exact h

theorem Value.Before.of_le (h : v.Before s) (hle : s.Le s') : v.Before s' := by
  cases v with
  | closure f =>
      obtain ⟨a, rest, hchain, ha⟩ := h
      exact ⟨a, rest, hchain, Nat.lt_of_lt_of_le ha hle.frames⟩
  | cls c => exact Nat.lt_of_lt_of_le h hle.classes
  | object i c => exact Nat.lt_of_lt_of_le h hle.objects
  | _ => exact h

theorem Environment.RootedIn.of_le (h : e.RootedIn s) (hle : s.Le s') : e.RootedIn s' := by
  obtain ⟨a, rest, hchain, ha⟩ := h
  exact ⟨a, rest, hchain, Nat.lt_of_lt_of_le ha hle.frames⟩

/-- Functions in different environments are not the same. -/
theorem Closure.same_eq_false_of_environment {f g : Closure} (h : f.environment ≠ g.environment) :
    f.same g = false := by
  rw [Closure.same, beq_false_of_ne h, Bool.and_false]

/-- **An older value and a newer one are not the same.** -/
theorem Value.Before.same_eq_false (hv : v.Before s) (hw : w.Since s) : v.same w = false := by
  cases v with
  | closure f =>
      cases w with
      | closure g =>
          obtain ⟨a, rest, ha, hlt⟩ := hv
          obtain ⟨b, rest', hb, hle⟩ := hw
          refine Closure.same_eq_false_of_environment fun heq => ?_
          rw [heq, hb] at ha
          cases ha
          exact absurd hlt (Nat.not_lt.2 hle)
      | _ => rfl
  | cls c =>
      cases w with
      | cls d => exact beq_false_of_ne (Nat.ne_of_lt (Nat.lt_of_lt_of_le hv hw))
      | _ => rfl
  | object i c =>
      cases w with
      | object j d => exact beq_false_of_ne (Nat.ne_of_lt (Nat.lt_of_lt_of_le hv hw))
      | _ => rfl
  | _ => exact hv.elim

/-- A newer value is not a function that is declared in an old environment. -/
theorem Value.Since.same_eq_false (hv : v.Since s) (hw : w.DeclaredIn e labels)
    (he : e.RootedIn s) : v.same w = false := by
  cases w with
  | closure g =>
      cases v with
      | closure f =>
          obtain ⟨a, rest, ha, hle⟩ := hv
          obtain ⟨b, rest', hb, hlt⟩ := he
          refine Closure.same_eq_false_of_environment fun heq => ?_
          rw [heq, hw.1, hb] at ha
          cases ha
          exact absurd hlt (Nat.not_lt.2 hle)
      | _ => rfl
  | _ => exact hw.elim

/-- Functions of different declarations are not the same. -/
theorem Value.DeclaredIn.same_eq_false (hv : v.DeclaredIn e labels) (hw : w.DeclaredIn e labels')
    (hdisjoint : labels.Disjoint labels') : v.same w = false := by
  cases v with
  | closure f =>
      cases w with
      | closure g =>
          have hlabel : f.routine.label ≠ g.routine.label := fun heq =>
            hdisjoint hv.2 (heq ▸ hw.2)
          exact Bool.and_eq_false_imp.2 fun h => absurd (eq_of_beq h) hlabel
      | _ => exact hw.elim
  | _ => exact hv.elim

end Values

/-! ### Values that are made -/

/-- The frame that binds `super` for the methods of a class with a superclass. -/
def Making.superFrame? (e : Making) : Option FrameId :=
  match e.value with
  | .cls (.derived _ _ _ _) => some e.moment.machine.store.frames.size
  | _ => none

/-- **Values that can be told from each other**, and classes that have different frames for
`super`. -/
structure Making.Apart (e e' : Making) : Prop where
  value : e.value.same e'.value = false
  frame : ∀ a ∈ e.superFrame?, ∀ b ∈ e'.superFrame?, a ≠ b

/-- What is newer than a store, or a function that is declared in an environment. -/
structure Making.From (s : Store) (environment : Environment) (labels : List Nat) (e : Making) :
    Prop where
  value : e.value.Since s ∨ e.value.DeclaredIn environment labels
  frame : ∀ a ∈ e.superFrame?, s.frames.size ≤ a

/-- What is older than a store. -/
structure Making.Before (s : Store) (e : Making) : Prop where
  value : e.value.Before s
  frame : ∀ a ∈ e.superFrame?, a < s.frames.size

/-- **What is made between two stores**, the second of which may be missing: it is newer than the
first or declared in an environment, older than the second, and each is apart from the others. -/
structure Fresh (s : Store) (environment : Environment) (labels : List Nat) (left : Option Store)
    (es : List Making) : Prop where
  apart : es.Pairwise Making.Apart
  since : ∀ e ∈ es, e.From s environment labels
  before : ∀ s' ∈ left, ∀ e ∈ es, e.Before s'

namespace Fresh

variable {s s₁ : Store} {left : Option Store} {environment : Environment}
  {labels labels' : List Nat} {es es' : List Making} {e : Making}

theorem nil : Fresh s environment labels left [] :=
  ⟨.nil, fun _ he => absurd he List.not_mem_nil, fun _ _ _ he => absurd he List.not_mem_nil⟩

theorem single (hsince : e.From s environment labels) (hbefore : ∀ s' ∈ left, e.Before s') :
    Fresh s environment labels left [e] :=
  ⟨List.pairwise_singleton _ _, List.forall_mem_singleton.2 hsince, fun s' hs' =>
    List.forall_mem_singleton.2 (hbefore s' hs')⟩

theorem of_le (h : Fresh s₁ environment labels left es) (hle : s.Le s₁) :
    Fresh s environment labels left es := by
  refine ⟨h.apart, fun e he => ?_, h.before⟩
  obtain ⟨hvalue, hframe⟩ := h.since e he
  exact ⟨hvalue.imp_left fun hv => hv.of_le hle,
    fun a ha => Nat.le_trans hle.frames (hframe a ha)⟩

theorem mono (h : Fresh s environment labels left es) (hlabels : labels ⊆ labels') :
    Fresh s environment labels' left es := by
  refine ⟨h.apart, fun e he => ⟨(h.since e he).value.imp_right fun hv => ?_, (h.since e he).frame⟩,
    h.before⟩
  cases hvalue : e.value with
  | closure f =>
      rw [hvalue] at hv
      exact ⟨hv.1, hlabels hv.2⟩
  | _ =>
      rw [hvalue] at hv
      exact hv

/-- What is declared in an environment that is new itself is new. -/
theorem inner {environment' : Environment} (h : Fresh s₁ environment' labels left es)
    (hle : s.Le s₁)
    (hnew : ∃ a rest, environment'.chain = a :: rest ∧ s.frames.size ≤ a) :
    Fresh s environment [] left es := by
  refine ⟨h.apart, fun e he => ?_, h.before⟩
  obtain ⟨hvalue, hframe⟩ := h.since e he
  refine ⟨.inl ?_, fun a ha => Nat.le_trans hle.frames (hframe a ha)⟩
  rcases hvalue with hv | hv
  · exact hv.of_le hle
  · cases hclosure : e.value with
    | closure f =>
        rw [hclosure] at hv
        obtain ⟨a, rest, hchain, ha⟩ := hnew
        exact ⟨a, rest, hv.1 ▸ hchain, ha⟩
    | _ =>
        rw [hclosure] at hv
        exact hv.elim

/-- What is older than a store is older than all that grow out of it. -/
theorem later (h : Fresh s environment labels (some s₁) es) (hleft : ∀ s' ∈ left, s₁.Le s') :
    Fresh s environment labels left es := by
  refine ⟨h.apart, h.since, fun s' hs' e he => ?_⟩
  obtain ⟨hvalue, hframe⟩ := h.before s₁ rfl e he
  exact ⟨hvalue.of_le (hleft s' hs'),
    fun a ha => Nat.lt_of_lt_of_le (hframe a ha) (hleft s' hs').frames⟩

/-- **What is made in two runs that follow one another.** -/
theorem append (h : Fresh s environment labels (some s₁) es)
    (h' : Fresh s₁ environment labels' left es') (hle : s.Le s₁) (hleft : ∀ s' ∈ left, s₁.Le s')
    (hrooted : environment.RootedIn s) (hdisjoint : labels.Disjoint labels') :
    Fresh s environment (labels ++ labels') left (es ++ es') := by
  refine ⟨List.pairwise_append.2 ⟨h.apart, h'.apart, fun e he e' he' => ?_⟩, ?_, ?_⟩
  · have hbefore := h.before s₁ rfl e he
    have hsince := h'.since e' he'
    refine ⟨?_, fun a ha b hb =>
      Nat.ne_of_lt (Nat.lt_of_lt_of_le (hbefore.frame a ha) (hsince.frame b hb))⟩
    -- a function that is declared later is told from the others by its environment, which is older
    -- than what is new, and by its label from the functions that are declared there, too
    rcases hsince.value with hnew | hdeclared
    · exact hbefore.value.same_eq_false hnew
    · rcases (h.since e he).value with hnew | hdeclared'
      · exact hnew.same_eq_false hdeclared hrooted
      · exact hdeclared'.same_eq_false hdeclared hdisjoint
  · intro e he
    rcases List.mem_append.1 he with he | he
    · exact (h.mono (List.subset_append_left ..)).since e he
    · exact ((h'.of_le hle).mono (List.subset_append_right ..)).since e he
  · intro s' hs' e he
    rcases List.mem_append.1 he with he | he
    · exact (h.later hleft).before s' hs' e he
    · exact h'.before s' hs' e he

/-- Without labels the environment is of no concern. -/
theorem elsewhere (h : Fresh s environment [] left es) (environment' : Environment) :
    Fresh s environment' [] left es := by
  refine ⟨h.apart, fun e he => ⟨.inl ?_, (h.since e he).frame⟩, h.before⟩
  rcases (h.since e he).value with hv | hv
  · exact hv
  · cases hvalue : e.value with
    | closure f =>
        rw [hvalue] at hv
        exact absurd hv.2 List.not_mem_nil
    | _ =>
        rw [hvalue] at hv
        exact hv.elim

end Fresh

/-! ### Parts that follow one another -/

section Parts

variable {P : Policy} {setting : Setting} {fuel : Nat} {s : Store} {left : Option Store}
  {parts : List (Task × Machine)} {environment : Environment}

/-- The store that is left at the end is larger. -/
theorem Sequence.larger (h : Sequence P setting fuel s parts left) : ∀ s' ∈ left, s.Le s' :=
  fun s' hs' => (h.le s' hs').toLe

/-- What is left behind a single part. -/
theorem Sequence.one {t : Task} {m : Machine} {s₁ : Store}
    (h : Sequence P setting fuel s [(t, m)] left)
    (hpart : (t.outcome setting fuel m).store? = some s₁) :
    m.store.Le s₁ ∧ ∀ s' ∈ left, s₁.Le s' := by
  cases h with
  | cons le held operands part grows rest =>
      rw [hpart] at part
      cases part
      exact ⟨grows.toLe, rest.larger⟩
  | starved le held operands part =>
      rw [hpart] at part
      cases part

/-- What a single part makes is older than what is left behind it. -/
theorem Sequence.fresh_one {t : Task} {m : Machine} {labels : List Nat}
    {es : List Making} (h : Sequence P setting fuel s [(t, m)] left)
    (hes : Fresh s environment labels (t.outcome setting fuel m).store? es) :
    Fresh s environment labels left es := by
  cases h with
  | cons le held operands part grows rest =>
      rw [part] at hes
      exact hes.later rest.larger
  | starved le held operands part =>
      rw [part] at hes
      exact hes

/-- Parts that follow one another start with the first of them. -/
theorem Sequence.from_first {t : Task} {m : Machine}
    (h : Sequence P setting fuel s ((t, m) :: parts) left) :
    Sequence P setting fuel m.store ((t, m) :: parts) left := by
  cases h with
  | cons le held operands part grows rest =>
      exact .cons (P.le_refl _) held operands part grows rest
  | starved le held operands part => exact .starved (P.le_refl _) held operands part

/-- **What is made in parts that follow one another is fresh if it is so in each of them.** -/
theorem Sequence.fresh (h : Sequence P setting fuel s parts left)
    (labels : Task × Machine → List Nat)
    (hparts : ∀ part ∈ parts, Fresh part.2.store environment (labels part)
      (part.1.outcome setting fuel part.2).store? (part.1.makes setting fuel part.2))
    (hnodup : (parts.flatMap labels).Nodup) (hrooted : environment.RootedIn s) :
    Fresh s environment (parts.flatMap labels) left (partsMake setting fuel parts) := by
  induction h with
  | nil le => exact .nil
  | @cons s s₁ t m parts left le held operands hleft grows rest ih =>
      rw [List.flatMap_cons] at hnodup
      have hfirst := hparts _ (List.mem_cons_self ..)
      have hrest := ih (fun part hp => hparts part (List.mem_cons_of_mem _ hp))
        (List.nodup_append.1 hnodup).2.1 (hrooted.of_le (le.trans grows).toLe)
      rw [hleft] at hfirst
      rw [List.flatMap_cons, partsMake, List.flatMap_cons]
      exact (hfirst.of_le le.toLe).append hrest (le.trans grows).toLe rest.larger hrooted
        (List.disjoint_of_nodup_append hnodup)
  | starved le held operands hleft =>
      have hfirst := hparts _ (List.mem_singleton.2 rfl)
      rw [hleft] at hfirst
      rw [List.flatMap_singleton, partsMake, List.flatMap_singleton]
      exact hfirst.of_le le.toLe

end Parts

/-! ### Tasks -/

/-- The label of the function that a declaration declares. -/
def Decl.label? : Decl → Option Nat
  | .funDecl routine _ => some routine.label
  | _ => none

/-- The labels of the functions that a task declares in the environment it is in. -/
def Task.labels : Task → List Nat
  | .execute d => d.label?.toList
  | .executeAll ds => ds.filterMap Decl.label?
  | _ => []

/-- A moment in an environment with a frame of its own, at declarations of which none stands
twice. -/
structure Moment.Rooted (k : Moment) : Prop where
  environment : k.machine.scope.RootedIn k.machine.store
  labels : k.task.labels.Nodup

section Tasks

variable {setting : Setting} {fuel : Nat} {m : Machine}

theorem Value.since_bind (s : Store) (f : Closure) (receiver : Value) :
    (Value.closure (s.bind f receiver).1).Since s := ⟨_, _, rfl, Nat.le_refl _⟩

theorem Value.before_bind (s : Store) (f : Closure) (receiver : Value) :
    (Value.closure (s.bind f receiver).1).Before (s.bind f receiver).2 := by
  refine ⟨_, _, rfl, ?_⟩
  change _ < ((s.child f.environment).2.write s.frames.size "this" receiver).frames.size
  rw [Store.frames_size_write, Store.size_child]
  exact Nat.lt_succ_self _

theorem Expr.labels_inner (e : Expr) : ∀ u ∈ e.innerTasks, u.labels = [] := by
  cases e <;> simp [innerTasks, Task.labels]

theorem Expr.labels_inner_all (es : List Expr) :
    ∀ u ∈ (Task.evaluateAll es).inner, u.labels = [] := by
  cases es <;> simp [Task.inner, Task.labels]

theorem Stmt.labels_inner (stmt : Stmt) : ∀ u ∈ stmt.innerTasks, u.labels = [] := by
  cases stmt with
  | ret keyword value span => cases value <;> simp [innerTasks, Task.labels]
  | ifElse condition thenBranch elseBranch span =>
      cases elseBranch <;> simp [innerTasks, Task.labels]
  | _ => simp [innerTasks, Task.labels]

theorem Decl.labels_inner (d : Decl) : ∀ u ∈ d.innerTasks, u.labels = [] := by
  cases d with
  | varDecl name nameSpan initializer span => cases initializer <;> simp [innerTasks, Task.labels]
  | _ => simp [innerTasks, Task.labels]

/-- The parts of a task in its environment declare nothing there, unless the task is a list of
declarations. -/
theorem Task.labels_inner {t u : Task} (ht : ∀ ds, t ≠ .executeAll ds) (h : u ∈ t.inner) :
    u.labels = [] := by
  cases t with
  | evaluate e => exact e.labels_inner u h
  | evaluateAll es => exact Expr.labels_inner_all es u h
  | execute d => exact d.labels_inner u h
  | perform stmt => exact stmt.labels_inner u h
  | executeAll ds => exact absurd rfl (ht ds)
  | _ => cases h

theorem Task.labels_deed {u : Task} (h : u.isDeed = true) : u.labels = [] := by
  cases u with
  | apply f arguments site => rfl
  | call f arguments site => rfl
  | lookUp mark name => rfl
  | superMethod mark method => rfl
  | _ => cases h

/-- A method that is given a receiver is fresh. -/
theorem Fresh.bound {s : Store} {left : Option Store} {f : Closure} {receiver : Value}
    (hleft : ∀ s' ∈ left, (s.bind f receiver).2.Le s') (environment : Environment) (k : Moment) :
    Fresh s environment [] left [⟨k, .closure (s.bind f receiver).1⟩] := by
  refine .single ⟨.inl (Value.since_bind s f receiver), fun a ha => by cases ha⟩ fun s' hs' => ?_
  exact ⟨(Value.before_bind s f receiver).of_le (hleft s' hs'), fun a ha => by cases ha⟩

theorem Store.property_of_method {s : Store} {i : ObjectId} {name : String} {c : Class}
    {f : Closure} (hfield : (s.fields i).get? name = none) (hf : c.findMethod? name = some f) :
    s.property i c name =
      (some (.closure (s.bind f (.object i c)).1), (s.bind f (.object i c)).2) := by
  simp only [property, hfield, hf]

/-- **An access to a property that comes to a method** gives it the object as its receiver. -/
theorem evaluate_get_of_method {mark : Mark} {object : Expr} {name : String} {i : ObjectId}
    {c : Class} {f : Closure} {m₁ : Machine}
    (hobject : evaluate setting fuel object m = .done (.object i c) m₁)
    (hfield : (m₁.store.fields i).get? name = none) (hf : c.findMethod? name = some f) :
    evaluate setting (fuel + 1) (.get mark object name) m =
      .done (.closure (m₁.store.bind f (.object i c)).1)
        { m₁ with store := (m₁.store.bind f (.object i c)).2 } := by
  rw [evaluate, Action.bind_apply, hobject]
  change (Action.onStore (fun s => s.property i c name) >>= fun found =>
    Action.require found (.undefinedProperty name) mark.span) m₁ = _
  rw [Action.onStore_bind, Store.property_of_method hfield hf]
  rfl

theorem Task.makings_get (mark : Mark) (object : Expr) (name : String) :
    (Task.evaluate (.get mark object name)).makings setting fuel m =
      ((Scriptlet.evaluate setting fuel object m).after fun v m₁ => m₁.store.accessed name v).map
        (Making.mk ⟨.evaluate (.get mark object name), fuel + 1, m⟩) := rfl

/-- What an access to a property makes is fresh. -/
theorem Task.fresh_accessed {mark : Mark} {object : Expr} {name : String} {v : Value}
    {m₁ : Machine} (hv : Scriptlet.evaluate setting fuel object m = .done v m₁)
    (environment : Environment) :
    Fresh m₁.store environment []
      ((Task.evaluate (.get mark object name)).outcome setting (fuel + 1) m).store?
      ((Task.evaluate (.get mark object name)).makings setting fuel m) := by
  rw [makings_get, hv]
  change Fresh _ _ _ _ ((m₁.store.accessed name v).map _)
  cases haccessed : m₁.store.accessed name v with
  | nil => exact .nil
  | cons w ws =>
      obtain ⟨i, c, f, rfl, hfield, hf, -⟩ := Store.mem_accessed.1 (haccessed ▸ List.mem_cons_self ..)
      rw [Store.accessed_of_get?_eq_none hfield, hf] at haccessed
      rw [← haccessed]
      have hleft : ((evaluate (.get mark object name)).outcome setting (fuel + 1) m).store? =
          some (m₁.store.bind f (.object i c)).2 := by
        rw [outcome, Outcome.store?_forget, evaluate_get_of_method hv hfield hf]
        rfl
      rw [hleft]
      refine .bound (fun s' hs' => ?_) environment _
      cases hs'
      exact .refl _

/-- What is made when a method of the superclass is bound is fresh. -/
theorem Task.fresh_superRef {mark : Mark} {method : String} {v : Value} {m₁ : Machine}
    (hv : Action.superMethod setting mark method m = .done v m₁) (environment : Environment) :
    Fresh m.store environment []
      ((evaluate (.superRef mark method)).outcome setting (fuel + 1) m).store?
      ((evaluate (.superRef mark method)).makings setting fuel m) := by
  have hmakings : (evaluate (.superRef mark method)).makings setting fuel m =
      [⟨⟨.evaluate (.superRef mark method), fuel + 1, m⟩, v⟩] := by
    unfold makings made
    simp only [hv]
    rfl
  have hleft : ((evaluate (.superRef mark method)).outcome setting (fuel + 1) m).store? =
      some m₁.store := by
    rw [outcome, Outcome.store?_forget, Scriptlet.evaluate, hv]
    rfl
  rw [hmakings, hleft]
  obtain ⟨_, _, i, c, f, -, -, -, -, rfl, rfl⟩ := superMethod_done hv
  refine .bound (fun s' hs' => ?_) environment _
  cases hs'
  exact .refl _

theorem Machine.store_define (name : String) (v : Value) : m.store.Le (m.store.define m.scope name v) := by
  unfold Store.define
  split
  · exact .refl _
  · exact m.store.le_write ..

/-- **A class is fresh**, and so is the frame for `super` that its methods have around them. -/
theorem Task.fresh_classDecl {name : String} {nameSpan span : Span} {superclass : Option Superclass}
    {methods : List Routine} {c : Class} {m₁ : Machine}
    (hc : Action.makeClass setting name superclass methods m = .done c m₁)
    (environment : Environment) :
    Fresh m.store environment []
      ((execute (.classDecl name nameSpan superclass methods span)).outcome setting (fuel + 1)
        m).store?
      ((execute (.classDecl name nameSpan superclass methods span)).makings setting fuel m) := by
  have hmakings : (execute (.classDecl name nameSpan superclass methods span)).makings setting fuel
      m = [⟨⟨.execute (.classDecl name nameSpan superclass methods span), fuel + 1, m⟩, .cls c⟩] := by
    unfold makings made
    simp only [hc]
    rfl
  have hleft : ((execute (.classDecl name nameSpan superclass methods span)).outcome setting
      (fuel + 1) m).store? = some (m₁.store.define m₁.scope name (.cls c)) := by
    rw [outcome, Outcome.store?_forget, Scriptlet.execute, Action.bind_apply, hc]
    rfl
  have hle : m₁.store.Le (m₁.store.define m₁.scope name (.cls c)) := Machine.store_define name _
  rw [hmakings, hleft]
  rcases makeClass_done hc with ⟨-, rfl, rfl⟩ | ⟨parent, ancestor, -, -, rfl, hframes, hclasses⟩
  · refine .single ⟨.inl (Nat.le_refl _), fun a ha => by cases ha⟩ fun s' hs' => ?_
    cases hs'
    exact ⟨Nat.lt_of_lt_of_le (Nat.lt_succ_self _) hle.classes, fun a ha => by cases ha⟩
  · refine .single ⟨.inl (Nat.le_refl _), fun a ha => ?_⟩ fun s' hs' => ?_
    · cases ha
      exact Nat.le_refl _
    · cases hs'
      refine ⟨Nat.lt_of_lt_of_le ?_ hle.classes, fun a ha => ?_⟩
      · change m.store.classes < _
        omega
      · cases ha
        refine Nat.lt_of_lt_of_le ?_ hle.frames
        change m.store.frames.size < _
        omega

/-- A function that is declared is new to its environment. -/
theorem Task.fresh_funDecl (routine : Routine) (span : Span) (hrooted : m.scope.RootedIn m.store) :
    Fresh m.store m.scope [routine.label]
      ((execute (.funDecl routine span)).outcome setting (fuel + 1) m).store?
      ((execute (.funDecl routine span)).makings setting fuel m) := by
  change Fresh _ _ _ _ [⟨_, .closure (.ofFunction routine m.scope)⟩]
  refine .single ⟨.inr ⟨rfl, List.mem_singleton.2 rfl⟩, fun a ha => by cases ha⟩ fun s' hs' => ?_
  rw [outcome, Outcome.store?_forget, Scriptlet.execute] at hs'
  cases hs'
  exact ⟨hrooted.of_le (Machine.store_define ..), fun a ha => by cases ha⟩

theorem Fresh.object {left : Option Store} {c : Class}
    (hleft : ∀ s' ∈ left, (m.store.newObject c).2.Le s') (k : Moment) :
    Fresh m.store m.scope [] left [⟨k, (m.store.newObject c).1⟩] := by
  refine .single ⟨.inl (Nat.le_refl _), fun a ha => by cases ha⟩ fun s' hs' => ?_
  have hsize : (m.store.newObject c).2.objects.size = m.store.objects.size + 1 :=
    Array.size_push _
  refine ⟨Nat.lt_of_lt_of_le ?_ (hleft s' hs').objects, fun a ha => by cases ha⟩
  rw [hsize]
  exact Nat.lt_succ_self _

/-- **An object is fresh**, and so is all that its initialiser makes. -/
theorem Task.fresh_apply {c : Class} {arguments : List Value} {site : Span}
    (hparts : ∀ part ∈ (apply (.cls c) arguments site).parts setting fuel m,
      Fresh part.2.store m.scope [] (part.1.outcome setting fuel part.2).store?
        (part.1.makes setting fuel part.2))
    (hrooted : m.scope.RootedIn m.store) :
    Fresh m.store m.scope []
      ((apply (.cls c) arguments site).outcome setting (fuel + 1) m).store?
      ((apply (.cls c) arguments site).makes setting (fuel + 1) m) := by
  have hsequence := (apply (.cls c) arguments site).sequence setting fuel m
  change Fresh _ _ _ _ ((apply (.cls c) arguments site).makings setting fuel m ++
    partsMake setting fuel _)
  change Sequence _ _ _ _ (Value.parts m arguments site (.cls c)) _ at hsequence
  change ∀ part ∈ Value.parts m arguments site (.cls c), _ at hparts
  change Fresh _ _ _ _ (_ ++ partsMake setting fuel (Value.parts m arguments site (.cls c)))
  unfold makings made
  by_cases harity : arguments.length = c.arity
  · simp only [Value.parts, harity, if_true, Outcome.after_onStore] at hparts hsequence ⊢
    unfold Store.instantiated
    cases hinit : c.findMethod? "init" with
    | none =>
        have hleft : ((apply (.cls c) arguments site).outcome setting (fuel + 1) m).store? =
            some (m.store.newObject c).2 := by
          rw [outcome, Outcome.store?_forget, Scriptlet.apply]
          simp only [harity, if_true]
          rw [Action.onStore_bind]
          simp only [hinit]
          rfl
        rw [hleft]
        refine .object (fun s' hs' => ?_) _
        cases hs'
        exact .refl _
    | some f =>
        simp only [hinit] at hparts hsequence ⊢
        have hobject : Fresh m.store m.scope [] (some (m.store.newObject c).2)
            [⟨⟨.apply (.cls c) arguments site, fuel + 1, m⟩, (m.store.newObject c).1⟩] :=
          .object (fun s' hs' => by cases hs'; exact .refl _) _
        have hbound : Fresh (m.store.newObject c).2 m.scope []
            (some ((m.store.newObject c).2.bind f (m.store.newObject c).1).2)
            [⟨⟨.apply (.cls c) arguments site, fuel + 1, m⟩,
              .closure ((m.store.newObject c).2.bind f (m.store.newObject c).1).1⟩] :=
          .bound (fun s' hs' => by cases hs'; exact .refl _) _ _
        have hbind := (m.store.newObject c).2.le_bind f (m.store.newObject c).1
        have hle := (m.store.le_newObject c).trans hbind
        have hown := hobject.append hbound (m.store.le_newObject c)
          (fun s' hs' => by cases hs'; exact hbind) hrooted (List.disjoint_nil_left _)
        have hcall := hsequence.from_first.fresh (fun _ => []) hparts .nil (hrooted.of_le hle)
        exact hown.append hcall hle hsequence.from_first.larger hrooted (List.disjoint_nil_left _)
  · simp only [Value.parts, harity, if_false]
    exact .nil

/-- What follows one another in a list of declarations, and what it declares. -/
theorem Task.labels_allParts (ds : List Decl) :
    ((Decl.allParts setting fuel m ds).flatMap fun part => part.1.labels).Sublist
      (executeAll ds).labels := by
  cases ds with
  | nil => exact .refl _
  | cons d ds =>
      have hlabels : (executeAll (d :: ds)).labels = d.label?.toList ++ (executeAll ds).labels := by
        change (d :: ds).filterMap Decl.label? = _
        rw [List.filterMap_cons]
        cases d.label? <;> rfl
      rw [hlabels, Decl.allParts, List.flatMap_cons]
      refine List.Sublist.append_left ?_ _
      cases Scriptlet.execute setting fuel d m with
      | done c m₁ =>
          cases c with
          | normal =>
              change ([(executeAll ds, m₁)].flatMap _).Sublist _
              rw [List.flatMap_singleton]
          | returned v => exact List.nil_sublist _
      | failed e m₁ => exact List.nil_sublist _
      | starved => exact List.nil_sublist _

/-- Where names are consulted nothing is made. -/
theorem Task.makes_consult {t : Task} {consulted : Mark × String}
    (ht : t.reference? = some consulted) : t.makes setting fuel m = [] := by
  cases fuel with
  | zero => rfl
  | succ n =>
      cases t with
      | lookUp mark name => rfl
      | assign mark name v => rfl
      | superMethod mark method => rfl
      | _ => cases ht

theorem Task.makes_of_makings {t : Task} (h : t.makings setting fuel m = []) :
    t.makes setting (fuel + 1) m = partsMake setting fuel (t.parts setting fuel m) := by
  rcases t.makes_succ with hmakes | hmakes
  · rw [hmakes, h, List.nil_append]
  · rw [hmakes, h, List.append_nil]

/-- What is made by a task whose parts declare nothing in its environment. -/
theorem Task.fresh_of_parts (t : Task)
    (hparts : ∀ part ∈ t.parts setting fuel m, Fresh part.2.store m.scope []
      (part.1.outcome setting fuel part.2).store? (part.1.makes setting fuel part.2))
    (hrooted : m.scope.RootedIn m.store) :
    Fresh m.store m.scope t.labels (t.outcome setting (fuel + 1) m).store?
      (t.makes setting (fuel + 1) m) := by
  have hsequence := t.sequence setting fuel m
  by_cases hown : t.makings setting fuel m = []
  · have hnil : (t.parts setting fuel m).flatMap (fun _ => ([] : List Nat)) = [] :=
      List.flatMap_eq_nil_iff.2 fun _ _ => rfl
    have hall := hsequence.fresh (fun _ => []) hparts (by rw [hnil]; exact .nil) hrooted
    rw [hnil] at hall
    rw [makes_of_makings hown]
    exact hall.mono (List.nil_subset _)
  cases t with
  | evaluate e =>
      cases e with
      | get mark object name =>
          cases hv : Scriptlet.evaluate setting fuel object m with
          | done v m₁ =>
              have hobject := hparts _ (List.mem_singleton.2 rfl)
              have hstore : ((evaluate object).outcome setting fuel m).store? = some m₁.store := by
                rw [outcome, Outcome.store?_forget, hv]
                rfl
              obtain ⟨hle, hleft⟩ := hsequence.one hstore
              rw [hstore] at hobject
              change Fresh _ _ _ _ (partsMake setting fuel [(.evaluate object, m)] ++ _)
              rw [partsMake, List.flatMap_singleton]
              exact hobject.append (Task.fresh_accessed hv m.scope) hle hleft hrooted
                (List.disjoint_nil_left _)
          | failed e m₁ => exact absurd (by rw [makings_get, hv]; rfl) hown
          | starved => exact absurd (by rw [makings_get, hv]; rfl) hown
      | superRef mark method =>
          cases hv : Action.superMethod setting mark method m with
          | done v m₁ =>
              change Fresh _ _ _ _ (partsMake setting fuel [(.superMethod mark method, m)] ++ _)
              rw [partsMake, List.flatMap_singleton,
                makes_consult (t := .superMethod mark method) rfl]
              exact fresh_superRef hv m.scope
          | failed e m₁ => exact absurd (by unfold makings made; simp only [hv]; rfl) hown
          | starved => exact absurd (by unfold makings made; simp only [hv]; rfl) hown
      | _ => exact absurd rfl hown
  | apply f arguments site =>
      cases f with
      | cls c => exact fresh_apply hparts hrooted
      | _ => exact absurd rfl hown
  | execute d =>
      cases d with
      | funDecl routine span => exact fresh_funDecl routine span hrooted
      | classDecl name nameSpan superclass methods span =>
          have hlookUp : partsMake setting fuel ((execute (.classDecl name nameSpan superclass methods
              span)).parts setting fuel m) = [] := by
            cases superclass with
            | none => rfl
            | some parent =>
                change partsMake setting fuel [(.lookUp parent.mark parent.name, m)] = []
                rw [partsMake, List.flatMap_singleton,
                  makes_consult (t := .lookUp parent.mark parent.name) rfl]
          cases hc : Action.makeClass setting name superclass methods m with
          | done c m₁ =>
              change Fresh _ _ _ _ (partsMake setting fuel _ ++ _)
              rw [hlookUp]
              exact fresh_classDecl hc m.scope
          | failed e m₁ => exact absurd (by unfold makings made; simp only [hc]; rfl) hown
          | starved => exact absurd (by unfold makings made; simp only [hc]; rfl) hown
      | _ => exact absurd rfl hown
  | _ => exact absurd rfl hown

/-- What is made by a list of declarations. -/
theorem Task.fresh_executeAll {ds : List Decl}
    (hparts : ∀ part ∈ (executeAll ds).parts setting fuel m, Fresh part.2.store part.2.scope
      part.1.labels (part.1.outcome setting fuel part.2).store? (part.1.makes setting fuel part.2))
    (hself : (⟨executeAll ds, fuel + 1, m⟩ : Moment).Rooted) :
    Fresh m.store m.scope (executeAll ds).labels
      ((executeAll ds).outcome setting (fuel + 1) m).store?
      ((executeAll ds).makes setting (fuel + 1) m) := by
  have hsequence := (executeAll ds).sequence setting fuel m
  have hsublist : ((Decl.allParts setting fuel m ds).flatMap fun part => part.1.labels).Sublist
      (executeAll ds).labels := labels_allParts ds
  rw [makes_of_makings rfl]
  refine (hsequence.fresh (fun part => part.1.labels) (fun part hp => ?_)
    (hsublist.nodup hself.labels) hself.environment).mono hsublist.subset
  have hscope : part.2.scope = m.scope := by
    have hstands := stands_of_part hp
    generalize part.1 = u, part.2.scope = environment at hstands
    cases hstands with
    | inner h => rfl
    | deed h => rfl
  exact hscope ▸ hparts part hp

/-- What is made in a block or in a call of a routine, where declarations are in an environment that
is new. -/
theorem Task.fresh_of_new {t : Task} {part : Task × Machine}
    (ht : t.parts setting fuel m = [part]) (hown : t.makings setting fuel m = [])
    (hpart : Fresh part.2.store part.2.scope part.1.labels
      (part.1.outcome setting fuel part.2).store? (part.1.makes setting fuel part.2))
    (hnew : ∃ a rest, part.2.scope.chain = a :: rest ∧ m.store.frames.size ≤ a) :
    Fresh m.store m.scope t.labels (t.outcome setting (fuel + 1) m).store?
      (t.makes setting (fuel + 1) m) := by
  have hsequence := t.sequence setting fuel m
  rw [ht] at hsequence
  obtain ⟨hle, -⟩ := hsequence.of_mem (List.mem_singleton.2 rfl)
  rw [makes_of_makings hown, ht, partsMake, List.flatMap_singleton]
  exact (hsequence.fresh_one (hpart.inner hle.toLe hnew)).mono (List.nil_subset _)

/-- The body of a routine is the only part of its call. -/
theorem Closure.parts_eq {f : Closure} {arguments : List Value} {part : Task × Machine}
    (h : part ∈ f.parts m arguments) : f.parts m arguments = [part] := by
  unfold Closure.parts at h ⊢
  split at h
  · cases h
  · rename_i hdepth
    rw [if_neg hdepth]
    obtain ⟨a, m₁, hbind, hpart⟩ := Outcome.mem_after.1 h
    rw [hbind, List.mem_singleton.1 hpart]
    rfl

/-- **What is made in the course of a task is fresh**, if each moment on the way is in an
environment with a frame of its own. -/
theorem Task.fresh (t : Task)
    (h : ∀ k, (⟨t, fuel, m⟩ : Moment).Leads setting k → k.Rooted) :
    Fresh m.store m.scope t.labels (t.outcome setting fuel m).store? (t.makes setting fuel m) := by
  -- induction on the fuel: the labels of the parts count in a list of declarations only, since the
  -- body of a block or a routine declares in an environment that is new, and other parts declare
  -- nothing
  induction fuel generalizing t m with
  | zero => exact .nil
  | succ n ih =>
      have hself := h _ .refl
      have hpart : ∀ part ∈ t.parts setting n m, Fresh part.2.store part.2.scope part.1.labels
          (part.1.outcome setting n part.2).store? (part.1.makes setting n part.2) :=
        fun part hp => ih part.1 fun k hk => h k (.head (List.mem_map_of_mem hp) hk)
      by_cases hlist : ∃ ds, t = .executeAll ds
      · obtain ⟨ds, rfl⟩ := hlist
        exact fresh_executeAll hpart hself
      by_cases hnew : ∃ part ∈ t.parts setting n m, part.1.labels ≠ []
      · obtain ⟨part, hmem, hlabels⟩ := hnew
        have hfresh := hpart part hmem
        have hstands := stands_of_part hmem
        generalize hu : part.1 = u, he : part.2.scope = environment at hstands
        cases hstands with
        | inner h => exact absurd (hu ▸ labels_inner (fun ds hds => hlist ⟨ds, hds⟩) h) hlabels
        | deed h => exact absurd (hu ▸ labels_deed h) hlabels
        | assign mark name value v => exact absurd (hu ▸ rfl) hlabels
        | block body span =>
            have hparts : (perform (.block body span)).parts setting n m = [part] := by
              rw [List.mem_singleton.1 hmem]
              rfl
            exact fresh_of_new hparts rfl hfresh ⟨_, _, by rw [he], Nat.le_refl _⟩
        | routine f arguments site =>
            exact fresh_of_new (Closure.parts_eq hmem) rfl hfresh ⟨_, _, by rw [he], Nat.le_refl _⟩
      · refine fresh_of_parts t (fun part hp => ?_) hself.environment
        have hlabels : part.1.labels = [] := by
          by_contra hne
          exact hnew ⟨part, hp, hne⟩
        exact (hlabels ▸ hpart part hp).elsewhere m.scope

end Tasks

end Scriptlet
