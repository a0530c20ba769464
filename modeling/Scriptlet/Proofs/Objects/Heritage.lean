/-
**What `super` comes to.**

The class in whose methods `super` is mentioned has been declared at some moment, and the reference
to its superclass has come to some class then.  A frame was made at that moment that binds `super`
to this class, and all functions in the methods of the class have the frame in their environments.
What the frame binds never changes.  So `super` comes to the same class whenever it is looked up,
whatever has become of the names since, and whichever class the receiver is of.  The receiver is
that to which `this` comes at the same place, because the frame that binds `this` is right in front.

Main definitions:

* `Scriptlet.Moment.Derives` — the execution of the class declaration around a mention of `super`;
* `Scriptlet.Descends`, `Scriptlet.Value.Descends` — chains of frames, and values, that go back to
  such executions;
* `Scriptlet.Inherits`, `Scriptlet.Inheriting` — **what `super` comes to** at a moment, and in the
  runs of a session.

Main results:

* `Scriptlet.Moment.Derives.shows` — the frame that a class declaration makes;
* `Scriptlet.Run.Prepared.descends_made`, `Scriptlet.Moment.Descends.next`,
  `Scriptlet.Session.descends` — **mentions of `super` are evaluated where their class was
  declared**;
* `Scriptlet.Run.Prepared.superPlace`, `Scriptlet.Session.derives_of_superPlace` — the frames
  around a mention, and where that of `super` was made;
* `Scriptlet.Session.super_is_lexical` — **`super` comes to the superclass that its class was
  declared with, and to the receiver around**, in every session.
-/

import Scriptlet.Proofs.Objects.Supers
import Scriptlet.Proofs.Origin.Identity

set_option relaxedAutoImplicit false
set_option autoImplicit false

namespace Scriptlet

/-! ### Class declarations that are executed -/

/-- **The execution of the class declaration around a mention of `super`**, at a moment: the mention
belongs to one of the methods of the class, and the reference to the superclass comes to `ancestor`
then. -/
structure Moment.Derives (setting : Setting) (j : Moment) (mark : Mark) (ancestor : Class) :
    Prop where
  task : ∃ name nameSpan parent methods span,
    j.task = .execute (.classDecl name nameSpan (some parent) methods span) ∧
      mark ∈ Routine.allSupers methods ∧
      Action.lookUp setting parent.mark parent.name j.machine = .done (.cls ancestor) j.machine
  ends : ∃ m, j.task.outcome setting j.fuel j.machine = .done () m

section Declarations

variable {setting : Setting} {fuel : Nat} {m : Machine} {name : String} {nameSpan span : Span}
  {parent : Superclass} {ancestor : Class} {methods : List Routine} {mark : Mark} {j : Moment}

/-- A class whose superclass is found gets a frame that binds `super` to it. -/
theorem makeClass_of_lookUp (name : String) (methods : List Routine)
    (h : Action.lookUp setting parent.mark parent.name m = .done (.cls ancestor) m) :
    ∃ s, Action.makeClass setting name (some parent) methods m =
        .done (.derived m.store.classes name
          (Class.methodTable ⟨m.store.frames.size :: m.scope.chain⟩ methods) ancestor)
          { m with store := s } ∧
      (s.frame m.store.frames.size).get? "super" = some (.cls ancestor) := by
  have hlt : m.store.frames.size < (m.store.child m.scope).2.frames.size := by
    rw [Store.size_child]
    exact Nat.lt_succ_self _
  refine ⟨{ (m.store.child m.scope).2.write m.store.frames.size "super" (.cls ancestor) with
    classes := m.store.classes + 1 }, ?_, ?_⟩
  · unfold Action.makeClass
    rw [Action.read_bind]
    dsimp only
    rw [Action.bind_apply, h]
    rfl
  · change (((m.store.child m.scope).2.write m.store.frames.size "super" (.cls ancestor)).frame
      m.store.frames.size).get? "super" = _
    rw [Store.get?_frame_write hlt, if_pos ⟨rfl, rfl⟩]

/-- A class declaration whose superclass is found makes a class, and leaves a store in which it is
bound. -/
theorem execute_classDecl_of_lookUp
    (h : Action.lookUp setting parent.mark parent.name m = .done (.cls ancestor) m) :
    ∃ (id : Nat) (table : Bindings Closure) (s : Store),
      Value.cls (.derived id name table ancestor) ∈
        (Task.execute (.classDecl name nameSpan (some parent) methods span)).made setting fuel m ∧
      execute setting (fuel + 1) (.classDecl name nameSpan (some parent) methods span) m =
        .done .normal
          { m with store := s.define m.scope name (.cls (.derived id name table ancestor)) } ∧
      (s.frame m.store.frames.size).get? "super" = some (.cls ancestor) := by
  obtain ⟨s, hclass, hsuper⟩ := makeClass_of_lookUp name methods h
  refine ⟨_, _, s, Outcome.mem_after.2 ⟨_, _, hclass, List.mem_singleton.2 rfl⟩, ?_, hsuper⟩
  rw [execute, Action.bind_apply, hclass]
  rfl

namespace Moment.Derives

/-- The declaration has been given fuel, and has made the class and bound it. -/
theorem executed (h : j.Derives setting mark ancestor) :
    ∃ (fuel : Nat) (name : String) (id : Nat) (table : Bindings Closure) (s : Store),
      j.fuel = fuel + 1 ∧ j.task.names = [name] ∧
      Value.cls (.derived id name table ancestor) ∈ j.task.made setting fuel j.machine ∧
      j.task.outcome setting j.fuel j.machine = .done ()
        { j.machine with
          store := s.define j.machine.scope name (.cls (.derived id name table ancestor)) } ∧
      (s.frame j.machine.store.frames.size).get? "super" = some (.cls ancestor) := by
  obtain ⟨⟨name, nameSpan, parent, methods, span, htask, -, hlook⟩, m', hend⟩ := h
  obtain ⟨task, fuel, m⟩ := j
  cases htask
  cases fuel with
  | zero => cases hend
  | succ fuel =>
      obtain ⟨id, table, s, hmade, hdone, hsuper⟩ := execute_classDecl_of_lookUp hlook
      exact ⟨fuel, name, id, table, s, rfl, rfl, hmade, congrArg Outcome.forget hdone, hsuper⟩

/-- **The frame that a class declaration makes** binds `super` when the declaration has come to its
end. -/
theorem shows (h : j.Derives setting mark ancestor) (hplain : ∀ x ∈ j.task.names, Plain x) :
    ∃ s, j.Shows setting s ∧
      (s.frame j.machine.store.frames.size).get? "super" = some (.cls ancestor) := by
  obtain ⟨fuel, name, id, table, s, -, hnames, -, hdone, hsuper⟩ := h.executed
  have hname : Plain name := hplain name (hnames ▸ List.mem_singleton.2 rfl)
  have hle := (Policy.reserving (fun _ => True) fun _ _ => trivial).le_define s hname
    j.machine.scope (.cls (.derived id name table ancestor))
  refine ⟨_, .inr ?_, hle.keeps (fun hx => hx.2 rfl) hsuper⟩
  rw [hdone]
  rfl

/-- The event by which the class is made. -/
theorem making (h : j.Derives setting mark ancestor) :
    ∃ e : Making, e.moment = j ∧ e.superFrame? = some j.machine.store.frames.size ∧
      ∃ fuel, j.fuel = fuel + 1 ∧ e.value ∈ j.task.made setting fuel j.machine := by
  obtain ⟨fuel, name, id, table, s, hfuel, -, hmade, -, -⟩ := h.executed
  exact ⟨⟨j, .cls (.derived id name table ancestor)⟩, rfl, rfl, fuel, hfuel, hmade⟩

end Moment.Derives

end Declarations

/-! ### Where functions come from -/

/-- **A chain of frames that goes back to the execution of the class declaration around a mention of
`super`**, in one of the runs. -/
def Descends (runs : List Run) (mark : Mark) (chain : List FrameId) : Prop :=
  ∃ run ∈ runs, ∃ j, run.Passes j ∧ ∃ ancestor, j.Derives run.setting mark ancestor ∧
    (j.machine.store.frames.size :: j.machine.scope.chain) <:+ chain

/-- A function whose environment goes back to the declarations of the classes around it. -/
def Closure.Descends (runs : List Run) (f : Closure) : Prop :=
  ∀ mark ∈ f.routine.supers, Scriptlet.Descends runs mark f.environment.chain

/-- A value that brings only such functions and methods with it. -/
def Value.Descends (runs : List Run) (v : Value) : Prop :=
  v.Brings (Closure.Descends runs) fun _ => Closure.Descends runs

/-- **A moment in a run that goes back to the declarations of the classes around its task.** -/
structure Moment.Descends (runs : List Run) (run : Run) (k : Moment) : Prop where
  passes : run.Passes k
  operands : ∀ v ∈ k.task.operands, v.Descends runs
  supers : ∀ mark ∈ k.task.supers, Scriptlet.Descends runs mark k.machine.scope.chain

section Descent

variable {runs : List Run} {mark : Mark} {chain : List FrameId} {f : Closure}

theorem Descends.cons (h : Descends runs mark chain) (a : FrameId) :
    Descends runs mark (a :: chain) := by
  obtain ⟨run, hrun, j, hj, ancestor, hderives, hsuffix⟩ := h
  exact ⟨run, hrun, j, hj, ancestor, hderives, hsuffix.trans (List.suffix_cons a chain)⟩

theorem Closure.Descends.bind (h : f.Descends runs) (s : Store) (receiver : Value) :
    (s.bind f receiver).1.Descends runs := fun mark hmark => (h mark hmark).cons _

variable {programs : List Compiled} {run : Run} {fuel : Nat} {m : Machine} {t : Task}

namespace Run.Prepared

/-- A class declaration that is executed stands at a place of a program. -/
theorem classDecl_fit (h : run.Prepared programs) {j : Moment} (hj : run.Passes j) {d : Decl}
    (htask : j.task = .execute d) :
    ∃ ctx, Fit (Knows programs) run.setting.distances (d.sites ctx) ∧
      j.machine.scope.chain.length = ctx.rows.length + 1 := by
  obtain ⟨P, hready⟩ := h.ready hj
  rw [htask] at hready
  cases hready with
  | @execute _ ctx _ _ _ sim stands fit =>
      obtain ⟨frames, hchain, hlength⟩ := stands.settled.placed.chain_eq
      exact ⟨ctx, fit, by rw [hchain, List.length_append, hlength]; rfl⟩
  | consult task consulted => cases task

/-- **What a task makes goes back to the declarations of the classes around it.** -/
theorem descends_made (h : run.Prepared programs) (hrun : run ∈ runs)
    (hk : Moment.Descends runs run ⟨t, fuel + 1, m⟩)
    (hm : (Policy.bringing (Closure.Descends runs) fun _ => Closure.Descends runs).Held m.store)
    (hsources : ∀ v ∈ t.sources run.setting fuel m, v.Descends runs) :
    ∀ v ∈ t.made run.setting fuel m, v.Descends runs := by
  refine Task.brings_made hm hk.operands hsources ?_ ?_ fun _ _ s receiver hf => hf.bind s receiver
  · rintro routine span rfl
    exact hk.supers
  · rintro name nameSpan superclass methods span rfl environment hsurrounds r hr mark hmark
    have hmember : mark ∈ Routine.allSupers methods := List.mem_flatMap.2 ⟨r, hr, hmark⟩
    cases hsurrounds with
    | base =>
        -- without a superclass there is no mention of `super`
        obtain ⟨ctx, hfit, -⟩ := h.classDecl_fit hk.passes rfl
        exact absurd (Decl.site_of_super_classDecl hfit hmember).1 Bool.false_ne_true
    | @derived parent ancestor hlook =>
        obtain ⟨id, table, s, -, hdone, -⟩ := execute_classDecl_of_lookUp hlook
        have hends : (Task.execute (.classDecl name nameSpan (some parent) methods span)).outcome
            run.setting (fuel + 1) m = .done () _ := congrArg Outcome.forget hdone
        exact ⟨run, hrun, _, hk.passes, ancestor,
          ⟨⟨name, nameSpan, parent, methods, span, rfl, hmember, hlook⟩, _, hends⟩,
          List.suffix_rfl⟩

/-- A program mentions `super` in classes only. -/
theorem supers_top (h : run.Prepared programs) {top : Moment} (htop : top ∈ run.tops) :
    top.task.supers = [] := by
  obtain ⟨d, hd, htask, -⟩ := of_mem_topMoments htop
  rw [htask, List.eq_nil_iff_forall_not_mem]
  intro mark hmark
  obtain ⟨ctx, hsite, hbeside⟩ :=
    Decl.allSites_super _ h.fit (Decl.supers_subset_allSupers hd hmark)
  have hderived : ctx.classAround = .derived := (h.fit _ hsite).2.1
  rw [hbeside.classAround] at hderived
  cases hderived

end Run.Prepared

/-- **What a moment goes back to, the next one does as well.** -/
theorem Moment.Descends.next {k l : Moment} (h : k.Descends runs run)
    (hl : l ∈ k.next run.setting) (hoperands : ∀ v ∈ l.task.operands, v.Descends runs) :
    l.Descends runs run := by
  refine ⟨h.passes.next hl, hoperands, ?_⟩
  obtain ⟨fuel, -, -, hpart⟩ := mem_next.1 hl
  have hstands := Task.stands_of_part hpart
  generalize l.task = u, l.machine.scope = environment at hstands
  obtain ⟨task, given, m⟩ := k
  cases hstands with
  | inner hinner => exact fun mark hmark => h.supers mark (Task.supers_of_inner hinner hmark)
  | deed hdeed =>
      cases u with
      | apply f arguments site => exact fun _ hmark => absurd hmark List.not_mem_nil
      | call f arguments site => exact fun _ hmark => absurd hmark List.not_mem_nil
      | lookUp mark name => exact fun _ hmark => absurd hmark List.not_mem_nil
      | superMethod mark method => exact fun _ hmark => absurd hmark List.not_mem_nil
      | _ => cases hdeed
  | assign mark name value v => exact fun _ hmark => absurd hmark List.not_mem_nil
  | block body span => exact fun mark hmark => (h.supers mark hmark).cons _
  | routine f arguments site =>
      have hf : f.Descends runs := h.operands _ (List.mem_cons_self ..)
      exact fun mark hmark => (hf mark (f.routine.supers_eq ▸ hmark)).cons _

end Descent

/-! ### The place of a mention -/

/-- **The frames around a mention of `super`** at a moment: one for each open scope, that of `this`
right in front of that of `super`. -/
structure SuperPlace (programs : List Compiled) (run : Run) (k : Moment) (mark : Mark)
    (ctx : Context) (inner : Nat) (receiver : Value) (parent : Class) : Prop where
  known : Knows programs ⟨ctx, .ancestor mark⟩
  looksUp : run.setting.distances[mark.id]? = some (inner + 1)
  this : ctx.distance? "this" = some inner
  super : ctx.distance? "super" = some (inner + 1)
  length : k.machine.scope.chain.length = ctx.rows.length + 1
  bindsThis : k.machine.store.getAt? k.machine.scope inner "this" = some receiver
  isObject : ∃ i c, receiver = .object i c
  bindsSuper : k.machine.store.getAt? k.machine.scope (inner + 1) "super" = some (.cls parent)

section Places

variable {programs : List Compiled} {run : Run} {k : Moment} {mark : Mark} {method : String}

/-- **A mention of `super` is evaluated where resolution says.** -/
theorem Run.Prepared.superPlace (h : run.Prepared programs) (hk : run.Passes k)
    (htask : k.task = .evaluate (.superRef mark method)) :
    ∃ ctx inner receiver parent, SuperPlace programs run k mark ctx inner receiver parent := by
  obtain ⟨P, hready⟩ := h.ready hk
  rw [htask] at hready
  cases hready with
  | @evaluate A ctx _ _ n facing fit =>
      obtain ⟨hs, hseen, -⟩ := facing
      obtain ⟨known, hderived, hdistance⟩ := (fit_cons.1 fit).1
      obtain ⟨inner, hthis, hsuper⟩ := hseen.nested hderived
      obtain ⟨v, w, hv, -, -, hfits⟩ := hs.store.read_local hseen.placed hthis
        fun a ha => hseen.bound hseen.words.1 hthis ha
      obtain ⟨v', w', hv', -, -, hfits'⟩ := hs.store.read_local hseen.placed hsuper
        fun a ha => hseen.bound hseen.words.2 hsuper ha
      obtain ⟨parent, rfl⟩ := hfits'.2 rfl
      rw [← Context.distance?_eq] at hthis hsuper
      obtain ⟨frames, hchain, hlength⟩ := hseen.placed.chain_eq
      exact ⟨ctx, inner, v, parent, known, hdistance.trans hsuper, hthis, hsuper,
        by rw [hchain, List.length_append, hlength]; rfl, hv, hfits.1 rfl, hv'⟩
  | consult task consulted => cases task

/-- The class declaration around a mention stands where the scope of `super` begins. -/
theorem Moment.Derives.level {j : Moment} {ancestor : Class}
    (hderives : j.Derives run.setting mark ancestor) (h : run.Prepared programs)
    (hj : run.Passes j) :
    ∃ ctx, Knows programs ⟨ctx, .ancestor mark⟩ ∧ ctx.inRoutine = true ∧
      ctx.level? = some j.machine.scope.chain.length := by
  obtain ⟨name, nameSpan, parent, methods, span, htask, hmember, -⟩ := hderives.task
  obtain ⟨ctx, hfit, hlength⟩ := h.classDecl_fit hj htask
  obtain ⟨-, ctx', known, hinside, hlevel⟩ := Decl.site_of_super_classDecl hfit hmember
  exact ⟨ctx', known, hinside, by rw [hlevel, hlength]⟩

namespace SuperPlace

variable {ctx : Context} {inner : Nat} {receiver : Value} {parent : Class}
  (h : SuperPlace programs run k mark ctx inner receiver parent)
include h

/-- **The frame that binds `super` is that of the class declaration**, if the chain goes back to
it. -/
theorem drop_eq {chain : List FrameId} {a : FrameId}
    (hsuffix : (a :: chain) <:+ k.machine.scope.chain) (hlevel : ctx.level? = some chain.length) :
    k.machine.scope.chain.drop (inner + 1) = a :: chain := by
  obtain ⟨b, hb, -⟩ := Store.getAt?_eq_some_iff.1 h.bindsSuper
  obtain ⟨hlt, -⟩ := List.getElem?_eq_some_iff.1 hb
  have hlength := h.length
  rw [Context.level?, h.super] at hlevel
  have hbehind : ctx.rows.length - (inner + 1) = chain.length := Option.some.inj hlevel
  have hposition : k.machine.scope.chain.length - (a :: chain).length = inner + 1 := by
    rw [List.length_cons]
    omega
  rw [← hposition]
  exact (List.suffix_iff_eq_drop.1 hsuffix).symm

/-- The frame in which `super` is looked up. -/
theorem get?_super {chain : List FrameId} {a : FrameId}
    (hdrop : k.machine.scope.chain.drop (inner + 1) = a :: chain) :
    (k.machine.store.frame a).get? "super" = some (.cls parent) := by
  obtain ⟨b, hb, hbound⟩ := Store.getAt?_eq_some_iff.1 h.bindsSuper
  rw [← List.head?_drop, hdrop] at hb
  cases hb
  exact hbound

/-- The evaluation of a mention of `super`, when the superclass has the method. -/
theorem evaluate_found {f : Closure} (hf : parent.findMethod? method = some f) (fuel : Nat) :
    evaluate run.setting (fuel + 1) (.superRef mark method) k.machine =
      .done (.closure (k.machine.store.bind f receiver).1)
        { k.machine with store := (k.machine.store.bind f receiver).2 } := by
  obtain ⟨i, c, rfl⟩ := h.isObject
  unfold evaluate Action.superMethod
  rw [h.looksUp]
  simp only [Action.require_some_bind, Action.read_bind]
  rw [h.bindsSuper, h.bindsThis]
  simp only [hf]
  rfl

/-- The evaluation of a mention of `super`, when the superclass does not have the method. -/
theorem evaluate_missing (hf : parent.findMethod? method = none) (fuel : Nat) :
    evaluate run.setting (fuel + 1) (.superRef mark method) k.machine =
      .failed ⟨.undefinedProperty method, mark.span⟩ k.machine := by
  obtain ⟨i, c, rfl⟩ := h.isObject
  unfold evaluate Action.superMethod
  rw [h.looksUp]
  simp only [Action.require_some_bind, Action.read_bind]
  rw [h.bindsSuper, h.bindsThis]
  simp only [hf]
  rfl

/-- What `this` comes to at the same place. -/
theorem evaluate_this {mark' : Mark}
    (hd : run.setting.distances[mark'.id]? = ctx.distance? "this") (fuel : Nat) :
    evaluate run.setting (fuel + 1) (.thisRef mark') k.machine = .done receiver k.machine := by
  unfold evaluate Action.lookUp
  rw [hd, h.this]
  simp only [Action.read_bind]
  rw [h.bindsThis]
  rfl

end SuperPlace

end Places

/-! ### Sessions -/

/-- **What a mention of `super` comes to** at a moment, when its class has been declared at the
moment `j` with the superclass `ancestor`. -/
structure Inherits (runs : List Run) (run : Run) (k : Moment) (mark : Mark) (method : String)
    (j : Moment) (ancestor : Class) (inner : Nat) (receiver : Value) : Prop where
  /-- The frame in which `super` is looked up has been made at the moment `j`, in front of the
  environment of the declaration. -/
  looksUp : run.setting.distances[mark.id]? = some (inner + 1)
  frame : k.machine.scope.chain.drop (inner + 1) =
    j.machine.store.frames.size :: j.machine.scope.chain
  /-- The receiver is the object that `this` is bound to there, and to which mentions of `this` at
  the same place come. -/
  isObject : ∃ i c, receiver = .object i c
  bindsThis : k.machine.store.getAt? k.machine.scope inner "this" = some receiver
  this : ∃ r ∈ runs, ∃ ctx, ⟨ctx, .ancestor mark⟩ ∈ r.compiled.program.sites ∧
    ctx.distance? "this" = some inner ∧
    ∀ mark', ⟨ctx, .receiver mark'⟩ ∈ r.compiled.program.sites → ∀ fuel,
      evaluate run.setting (fuel + 1) (.thisRef mark') k.machine = .done receiver k.machine
  /-- A method that the superclass has is given the receiver. -/
  found : ∀ f, ancestor.findMethod? method = some f →
    evaluate run.setting k.fuel (.superRef mark method) k.machine =
      .done (.closure (k.machine.store.bind f receiver).1)
        { k.machine with store := (k.machine.store.bind f receiver).2 }
  /-- A method that it does not have is undefined. -/
  missing : ancestor.findMethod? method = none →
    evaluate run.setting k.fuel (.superRef mark method) k.machine =
      .failed ⟨.undefinedProperty method, mark.span⟩ k.machine

/-- **What `super` comes to** in runs. -/
structure Inheriting (runs : List Run) : Prop where
  /-- Whenever a mention of `super` is evaluated, its class has been declared, and it comes to the
  class that the reference to the superclass was then. -/
  super : ∀ run ∈ runs, ∀ k, run.Passes k → ∀ mark method,
    k.task = .evaluate (.superRef mark method) → ∀ fuel, k.fuel = fuel + 1 →
      ∃ run' ∈ runs, ∃ j, run'.Passes j ∧ ∃ ancestor, j.Derives run'.setting mark ancestor ∧
        ∃ inner receiver, Inherits runs run k mark method j ancestor inner receiver
  /-- The frame that binds `super` tells at which moment the class has been declared. -/
  unique : ∀ run ∈ runs, ∀ j, run.Passes j → ∀ run' ∈ runs, ∀ j', run'.Passes j' →
    ∀ mark mark' ancestor ancestor', j.Derives run.setting mark ancestor →
      j'.Derives run'.setting mark' ancestor' →
        j.machine.store.frames.size = j'.machine.store.frames.size → j = j'

/-- **What a mention comes to at its place**, when the frame that binds `super` is that of the
class declaration. -/
theorem SuperPlace.inherits {programs : List Compiled} {runs : List Run} {run : Run} {k j : Moment}
    {mark : Mark} {method : String} {ctx : Context} {inner given : Nat} {receiver : Value}
    {parent : Class} (h : SuperPlace programs run k mark ctx inner receiver parent)
    (hprepared : run.Prepared programs) (hprograms : programs ⊆ runs.map Run.compiled)
    (hinside : ctx.inRoutine = true) (hgiven : k.fuel = given + 1)
    (hdrop : k.machine.scope.chain.drop (inner + 1) =
      j.machine.store.frames.size :: j.machine.scope.chain) :
    Inherits runs run k mark method j parent inner receiver where
  looksUp := h.looksUp
  frame := hdrop
  isObject := h.isObject
  bindsThis := h.bindsThis
  this := by
    obtain ⟨c, hc, hsite⟩ := h.known
    obtain ⟨r, hr, rfl⟩ := List.mem_map.1 (hprograms hc)
    exact ⟨r, hr, ctx, hsite, h.this, fun mark' hmark' fuel =>
      h.evaluate_this (hprepared.inside ⟨_, hc, hmark'⟩ hinside) fuel⟩
  found f hf := by
    rw [hgiven]
    exact h.evaluate_found hf given
  missing hf := by
    rw [hgiven]
    exact h.evaluate_missing hf given

namespace Session

variable (output : Output) (clock : Nat → Float) (fuel : Nat) (steps : List (Mode × String))

/-- **All moments of a session go back to the declarations of the classes around their tasks.** -/
theorem descends {run : Run} (hrun : run ∈ (start output clock).runs fuel steps) {k : Moment}
    (hk : run.Passes k) : k.Descends ((start output clock).runs fuel steps) run := by
  have hguarded : ∀ run ∈ (start output clock).runs fuel steps,
      run.Guarded (.bringing (Closure.Descends ((start output clock).runs fuel steps))
          fun _ => Closure.Descends ((start output clock).runs fuel steps))
        (Moment.Descends ((start output clock).runs fuel steps) run) := fun run hrun => by
    obtain ⟨known, -, hprepared⟩ := (running_start output clock fuel steps).prepared hrun
    refine hprepared.guarded (fun _ hk => hk.passes)
      (fun _ _ _ hk hm _ hsources => hprepared.descends_made hrun hk hm hsources)
      (fun _ _ hk hl _ hoperands => hk.next hl hoperands) fun top htop => ?_
    obtain ⟨d, -, htask, -⟩ := of_mem_topMoments htop
    refine ⟨Run.passes_of_mem_tops htop, fun v hv => ?_, fun mark hmark => ?_⟩
    · rw [htask] at hv
      cases hv
    · rw [hprepared.supers_top htop] at hmark
      cases hmark
  exact (passes_of_guarded output clock fuel steps plain_clock hguarded hrun hk).1

/-- **The frame that binds `super` for a mention** is the one made by the class declaration around
it, at a moment of the session, and binds `super` to the superclass of then. -/
theorem derives_of_superPlace {run : Run} (hrun : run ∈ (start output clock).runs fuel steps)
    {k : Moment} (hk : run.Passes k) {mark : Mark} {method : String}
    (htask : k.task = .evaluate (.superRef mark method)) {programs : List Compiled}
    (hprograms : programs ⊆ ((start output clock).runs fuel steps).map Run.compiled)
    {ctx : Context} {inner : Nat} {receiver : Value} {parent : Class}
    (hplace : SuperPlace programs run k mark ctx inner receiver parent) :
    ∃ run' ∈ (start output clock).runs fuel steps, ∃ j, run'.Passes j ∧
      j.Derives run'.setting mark parent ∧ ctx.inRoutine = true ∧
        k.machine.scope.chain.drop (inner + 1) =
          j.machine.store.frames.size :: j.machine.scope.chain := by
  have hrunning := running_start output clock fuel steps
  obtain ⟨supply, hcatalogue⟩ := hrunning.catalogue (.nil _)
  rw [List.append_nil] at hcatalogue
  have hmark : mark ∈ k.task.supers := by
    rw [htask]
    exact List.mem_singleton.2 rfl
  obtain ⟨run', hrun', j, hj, ancestor, hderives, hsuffix⟩ :=
    (descends output clock fuel steps hrun hk).supers mark hmark
  obtain ⟨programs', hprograms', hprepared'⟩ := hrunning.prepared hrun'
  rw [List.append_nil] at hprograms'
  obtain ⟨ctx', known', hinside, hlevel⟩ := hderives.level hprepared' hj
  -- the number of the mention tells the place where it stands
  have hctx : ctx' = ctx :=
    congrArg Site.ctx (hcatalogue.unique (known'.mono hprograms') (hplace.known.mono hprograms)
      rfl rfl)
  rw [hctx] at hinside hlevel
  have hdrop := hplace.drop_eq hsuffix hlevel
  -- what the frame binds at `k` is what it bound when the declaration came to its end
  obtain ⟨left, hshows, hsuper⟩ := hderives.shows (hprepared'.plain hj)
  have hreserved : ¬Plain "super" := fun h => h.2 rfl
  have hancestor : Value.cls parent = .cls ancestor :=
    reserved_unique output clock fuel steps hreserved hrun hrun' ⟨k, hk, .inl rfl⟩
      ⟨j, hj, hshows⟩ (hplace.get?_super hdrop) hsuper
  cases hancestor
  exact ⟨run', hrun', j, hj, hderives, hinside, hdrop⟩

/-- **`super` comes to the superclass that its class was declared with, and to the receiver
around**, in every session. -/
theorem super_is_lexical : Inheriting ((start output clock).runs fuel steps) where
  super := by
    intro run hrun k hk mark method htask given hgiven
    obtain ⟨programs, hprograms, hprepared⟩ :=
      (running_start output clock fuel steps).prepared hrun
    rw [List.append_nil] at hprograms
    obtain ⟨ctx, inner, receiver, parent, hplace⟩ := hprepared.superPlace hk htask
    obtain ⟨run', hrun', j, hj, hderives, hinside, hdrop⟩ :=
      derives_of_superPlace output clock fuel steps hrun hk htask hprograms hplace
    exact ⟨run', hrun', j, hj, parent, hderives, inner, receiver,
      hplace.inherits hprepared hprograms hinside hgiven hdrop⟩
  unique := by
    intro run hrun j hj run' hrun' j' hj' mark mark' ancestor ancestor' hderives hderives' hsize
    obtain ⟨e, rfl, hframe, hmade⟩ := hderives.making
    obtain ⟨e', rfl, hframe', hmade'⟩ := hderives'.making
    by_contra hne
    have hapart := apart_of_ne output clock fuel steps (mem_history.2 ⟨run, hrun, hj, hmade⟩)
      (mem_history.2 ⟨run', hrun', hj', hmade'⟩) fun heq => hne (congrArg Making.moment heq)
    exact hapart.frame _ hframe _ (hsize ▸ hframe') rfl

/-- A function that mentions `super` is called when the method has returned, the variable of the
superclass has another value, and the class of the receiver has a method of the same name. -/
example :
    ((start (.lines #[]) fun _ => 0).step .run 40
      "class A \x7b m() \x7b return 'A'; \x7d \x7d
      class B < A \x7b g() \x7b fun f() \x7b return super.m; \x7d return f; \x7d \x7d
      class C < B \x7b m() \x7b return 'C'; \x7d \x7d
      var f = C().g(); A = C; print f()();").map
        (fun answer => answer.2.printed) = some ["A"] := by
  decide +kernel

end Session

end Scriptlet
