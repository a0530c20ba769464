/-
**What `this` and `super` are bound to never changes.**

A program that compiles declares and assigns no name `this` or `super`.  A frame comes to bind one
of them only when it is made: when a method gets its receiver, or when a class with a superclass is
declared.  So wherever in a session such a frame is looked at, it binds the same value.

Main definitions:

* `Scriptlet.Policy.reserving` — the policy that there are certain values only, and that `this` and
  `super` are not written;
* `Scriptlet.Value.Brings`, `Scriptlet.Policy.bringing` — values that bring certain functions and
  methods with them.

Main results:

* `Scriptlet.Param.names_of_fit` — the parameters of a routine have different names, none of which
  is reserved;
* `Scriptlet.Run.Prepared.plain` — **no task of a run writes a reserved name**;
* `Scriptlet.Run.Prepared.guarded` — what guards such a policy in a run;
* `Scriptlet.Task.brings_made` — which functions and methods a task makes;
* `Scriptlet.Session.reserved_unique` — **what reserved names are bound to never changes**.
-/

import Scriptlet.Proofs.Origin.Course

set_option relaxedAutoImplicit false
set_option autoImplicit false

namespace Scriptlet

/-! ### Names that are declared -/

section Names

variable {K : Known} {distances : ResolutionMap} {ctx : Context}

/-- The name of a declaration is declared at one of its sites. -/
theorem Decl.exists_site_of_name? {d : Decl} {name : String} (h : name ∈ d.name?) (ctx : Context) :
    ∃ span, ⟨ctx, .declared name span⟩ ∈ d.sites ctx := by
  cases d with
  | varDecl x nameSpan initializer span =>
      cases h
      cases initializer with
      | none => exact ⟨_, List.mem_cons_self ..⟩
      | some value => exact ⟨_, List.mem_cons_self ..⟩
  | statement stmt => cases h
  | _ =>
      cases h
      exact ⟨_, List.mem_cons_self ..⟩

/-- **The names of parameters** are not reserved, and they differ from one another and from the
names that the scope has declared before. -/
theorem Param.names_of_fit {ps : List Param} {row : List String} {rows : List (List String)}
    (hrows : ctx.rows = row :: rows) (hfit : Fit K distances (Param.allSites ctx ps)) :
    (∀ p ∈ ps, Plain p.name ∧ p.name ∉ row) ∧ (ps.map Param.name).Nodup := by
  induction ps generalizing ctx row with
  | nil => exact ⟨nofun, .nil⟩
  | cons p ps ih =>
      obtain ⟨⟨-, hplain, hclash⟩, hrest⟩ := fit_cons.1 hfit
      have hdefined : (ctx.define p.name).rows = (p.name :: row) :: rows := by
        rw [Context.rows_define, hrows]
        rfl
      obtain ⟨hnames, hnodup⟩ := ih hdefined hrest
      refine ⟨List.forall_mem_cons.2 ⟨⟨hplain, Context.not_mem_of_clash hclash hrows⟩,
        fun q hq => ⟨(hnames q hq).1, fun hrow => (hnames q hq).2 (List.mem_cons_of_mem _ hrow)⟩⟩,
        List.nodup_cons.2 ⟨fun hmem => ?_, hnodup⟩⟩
      obtain ⟨q, hq, heq⟩ := List.mem_map.1 hmem
      exact (hnames q hq).2 (heq ▸ List.mem_cons_self ..)

/-- The parameters of a routine that is known. -/
theorem Lawful.params (hK : Lawful K distances) {r : Routine} (known : K ⟨ctx, .routine r⟩) :
    (∀ p ∈ r.params, Plain p.name) ∧ (r.params.map Param.name).Nodup := by
  have hfit := hK.fit known
  obtain ⟨label, name, params, body, span⟩ := r
  rw [Routine.sites, fit_cons, fit_append] at hfit
  have hrows : ({ ctx.opening [] with inRoutine := true } : Context).rows = [] :: ctx.rows :=
    Context.rows_opening ctx []
  obtain ⟨hnames, hnodup⟩ := Param.names_of_fit hrows hfit.2.1
  exact ⟨fun p hp => (hnames p hp).1, hnodup⟩

end Names

/-! ### Names that are written -/

section Runs

variable {programs : List Compiled} {run : Run} {k : Moment} {setting : Setting} {m : Machine}

/-- No task gives a name its value inside its text. -/
theorem Task.assign_not_mem_inner (t : Task) (mark : Mark) (name : String) (v : Value) :
    Task.assign mark name v ∉ t.inner := by
  cases t with
  | evaluate e => cases e <;> simp [inner, Expr.innerTasks]
  | evaluateAll es => cases es <;> simp [inner]
  | execute d =>
      cases d with
      | varDecl x nameSpan initializer span =>
          cases initializer <;> simp [inner, Decl.innerTasks]
      | _ => simp [inner, Decl.innerTasks]
  | executeAll ds => cases ds <;> simp [inner]
  | perform stmt =>
      cases stmt with
      | ret keyword value span => cases value <;> simp [inner, Stmt.innerTasks]
      | ifElse condition thenBranch elseBranch span =>
          cases elseBranch <;> simp [inner, Stmt.innerTasks]
      | _ => simp [inner, Stmt.innerTasks]
  | _ => exact List.not_mem_nil

/-- **A name gets its value as a part of an assignment.** -/
theorem Task.assignment_of_part {t : Task} {fuel : Nat} {part : Task × Machine} {mark : Mark}
    {name : String} {v : Value} (h : part ∈ t.parts setting fuel m)
    (hpart : part.1 = .assign mark name v) :
    ∃ value, t = .evaluate (.assign mark name value) := by
  have hstands := stands_of_part h
  rw [hpart] at hstands
  generalize part.2.scope = environment at hstands
  cases hstands with
  | inner hinner => exact absurd hinner (t.assign_not_mem_inner mark name v)
  | deed hdeed => cases hdeed
  | assign _ _ value _ => exact ⟨value, rfl⟩

/-- A value is given to a name on the way from an assignment. -/
theorem Run.assignment_of_passes {mark : Mark} {name : String} {v : Value} (hk : run.Passes k)
    (htask : k.task = .assign mark name v) :
    ∃ j value, run.Passes j ∧ j.task = .evaluate (.assign mark name value) := by
  obtain ⟨top, htop, hleads⟩ := hk
  rcases Relation.ReflTransGen.cases_tail hleads with rfl | ⟨j, hj, hlast⟩
  · obtain ⟨d, -, hd, -⟩ := of_mem_topMoments htop
    rw [hd] at htask
    cases htask
  · obtain ⟨fuel, -, -, hpart⟩ := Moment.mem_next.1 hlast
    obtain ⟨value, hvalue⟩ := Task.assignment_of_part hpart htask
    exact ⟨j, value, ⟨top, htop, hj⟩, hvalue⟩

namespace Run.Prepared

/-- A closure that is called in a run has parameters with different names. -/
theorem params (h : run.Prepared programs) (hk : run.Passes k) {f : Closure}
    {arguments : List Value} {site : Span} (htask : k.task = .call f arguments site) :
    (∀ p ∈ f.routine.params, Plain p.name) ∧ (f.routine.params.map Param.name).Nodup := by
  obtain ⟨P, hready⟩ := h.ready hk
  rw [htask] at hready
  cases hready with
  | call sim alike arity values =>
      cases alike with
      | mk known settled steady headed receiver => exact h.lawful.params known
  | consult task consulted => cases task

/-- **No task of a run writes a reserved name.** -/
theorem plain (h : run.Prepared programs) (hk : run.Passes k) : ∀ x ∈ k.task.names, Plain x := by
  obtain ⟨P, hready⟩ := h.ready hk
  obtain ⟨task, fuel, m⟩ := k
  cases task with
  | call f arguments site =>
      intro x hx
      obtain ⟨p, hp, rfl⟩ := List.mem_map.1 hx
      exact (h.params hk rfl).1 p hp
  | execute d =>
      cases hready with
      | @execute A ctx _ _ _ sim stands fit =>
          intro x hx
          obtain ⟨span, hsite⟩ := d.exists_site_of_name? (Option.mem_toList.1 hx) ctx
          exact (fit _ hsite).2.1
      | consult task consulted => cases task
  | assign mark name v =>
      obtain ⟨j, value, hj, htask⟩ := assignment_of_passes hk rfl
      obtain ⟨P', hready'⟩ := h.ready hj
      rw [htask] at hready'
      cases hready' with
      | evaluate facing fit =>
          rw [Expr.sites, fit_append] at fit
          exact List.forall_mem_singleton.2 (fit_cons.1 fit.2).1.2.1
      | consult task consulted => cases task
  | _ => exact nofun

end Run.Prepared

/-! ### Policies for reserved names -/

/-- The policy that there are certain values only, and that `this` and `super` are not written. -/
def Policy.reserving (V : Value → Prop) (hV : ∀ v, ¬v.IsMade → V v) : Policy where
  value := V
  binding _ _ v := V v
  name := Plain
  plain := hV
  binds _ _ _ _ hv := hv
  bound _ _ _ hv := hv
  receives _ _ hv := hv

variable {V : Value → Prop} {hV : ∀ v, ¬v.IsMade → V v}

/-- **What guards such a policy in a run.**  Of the names nothing must be known. -/
theorem Run.Prepared.guarded (h : run.Prepared programs) {G : Moment → Prop}
    (hpasses : ∀ ⦃k⦄, G k → run.Passes k)
    (made : ∀ ⦃t fuel m⦄, G ⟨t, fuel + 1, m⟩ → (Policy.reserving V hV).Held m.store →
      (∀ v ∈ t.operands, V v) → (∀ v ∈ t.sources run.setting fuel m, V v) →
      ∀ v ∈ t.made run.setting fuel m, V v)
    (next : ∀ ⦃k l⦄, G k → l ∈ k.next run.setting → (Policy.reserving V hV).Held l.machine.store →
      (∀ v ∈ l.task.operands, V v) → G l)
    (tops : ∀ top ∈ run.tops, G top) : run.Guarded (.reserving V hV) G where
  guards :=
    { made := made
      names := fun _ hk => h.plain (hpasses hk)
      super := fun _ _ _ _ hm _ hc =>
        Task.value_of_mem_ancestors (P := Policy.reserving V hV) hm hc
      next := next }
  tops := fun top htop _ => tops top htop

theorem plain_clock : Plain "clock" := ⟨by decide, by decide⟩

end Runs

/-! ### Functions and methods -/

section Methods

variable {R : Closure → Prop} {Q : String → Closure → Prop} {setting : Setting} {fuel : Nat}
  {m : Machine}

/-- **A value that brings with it functions and methods of certain sorts only**: `R` is true of a
function, and `Q` of each method that a class has under its name. -/
def Value.Brings (R : Closure → Prop) (Q : String → Closure → Prop) : Value → Prop
  | .closure f => R f
  | .cls c | .object _ c => ∀ ⦃name f⦄, c.findMethod? name = some f → Q name f
  | _ => True

theorem Value.brings_of_not_isMade (R : Closure → Prop) (Q : String → Closure → Prop) (v : Value)
    (h : ¬v.IsMade) : v.Brings R Q := by
  cases v with
  | closure f => exact absurd trivial h
  | cls c => exact absurd trivial h
  | object i c => exact absurd trivial h
  | _ => trivial

/-- The policy that there are such values only. -/
def Policy.bringing (R : Closure → Prop) (Q : String → Closure → Prop) : Policy :=
  .reserving (Value.Brings R Q) (Value.brings_of_not_isMade R Q)

/-- **The environment over which the methods of a class close**, if its declaration is executed on a
machine: a superclass gets a frame of its own. -/
inductive Machine.Surrounds (setting : Setting) (m : Machine) :
    Option Superclass → Environment → Prop
  | base : Surrounds setting m none m.scope
  | derived {parent : Superclass} {ancestor : Class}
      (h : Action.lookUp setting parent.mark parent.name m = .done (.cls ancestor) m) :
      Surrounds setting m (some parent) ⟨m.store.frames.size :: m.scope.chain⟩

/-- **What a task makes brings functions and methods of certain sorts only**, if the functions and
methods that it declares are of these sorts, and methods with a receiver are functions of theirs. -/
theorem Task.brings_made {t : Task} (hm : (Policy.bringing R Q).Held m.store)
    (hoperands : ∀ v ∈ t.operands, v.Brings R Q)
    (hsources : ∀ v ∈ t.sources setting fuel m, v.Brings R Q)
    (hfunction : ∀ routine span, t = .execute (.funDecl routine span) →
      R (.ofFunction routine m.scope))
    (hmethod : ∀ name nameSpan superclass methods span,
      t = .execute (.classDecl name nameSpan superclass methods span) →
      ∀ environment, m.Surrounds setting superclass environment →
        ∀ r ∈ methods, Q r.name (.ofMethod r environment))
    (hbind : ∀ name f (s : Store) receiver, Q name f → R (s.bind f receiver).1) :
    ∀ v ∈ t.made setting fuel m, v.Brings R Q := by
  intro v hv
  cases t with
  | execute d =>
      cases d with
      | funDecl routine span =>
          rw [List.mem_singleton.1 hv]
          exact hfunction routine span rfl
      | classDecl name nameSpan superclass methods span =>
          have hown : ∀ environment, m.Surrounds setting superclass environment → ∀ x f,
              (Class.methodTable environment methods).get? x = some f → Q x f := by
            intro environment hsurrounds x f hf
            obtain ⟨r, hr, rfl, rfl⟩ := Class.of_methodTable hf
            exact hmethod name nameSpan superclass methods span rfl environment hsurrounds r hr
          obtain ⟨c, m₁, hc, hmem⟩ := Outcome.mem_after.1 hv
          obtain rfl := List.mem_singleton.1 hmem
          rcases makeClass_done hc with ⟨rfl, rfl, -⟩ | ⟨parent, ancestor, rfl, hlook, rfl, -⟩
          · exact fun x f hf => hown _ .base x f hf
          · have hancestor : (Value.cls ancestor).Brings R Q :=
              value_of_mem_ancestors (P := .bringing R Q)
                (t := .execute (.classDecl name nameSpan (some parent) methods span)) hm
                (Outcome.mem_after.2 ⟨_, _, hlook, List.mem_singleton.2 rfl⟩)
            intro x f hf
            rw [Class.findMethod?_derived] at hf
            rcases Option.or_eq_some_iff.1 hf with hf | ⟨-, hinherited⟩
            · exact hown _ (.derived hlook) x f hf
            · exact hancestor hinherited
      | _ => cases hv
  | apply f arguments site =>
      cases f with
      | cls c =>
          have hc : (Value.cls c).Brings R Q := hoperands _ (List.mem_cons_self ..)
          simp only [made] at hv
          split at hv
          · rcases List.mem_cons.1 hv with rfl | hv
            · exact hc
            · obtain ⟨f, hf, rfl⟩ := Store.mem_boundMethod.1 hv
              exact hbind _ _ _ _ (hc hf)
          · cases hv
      | _ => cases hv
  | evaluate e =>
      cases e with
      | get mark object name =>
          obtain ⟨w, m₁, hw, hmem⟩ := Outcome.mem_after.1 hv
          obtain ⟨i, c, f, rfl, -, hf, rfl⟩ := Store.mem_accessed.1 hmem
          have hc : (Value.object i c).Brings R Q :=
            hsources _ (Outcome.mem_after.2 ⟨_, _, hw, List.mem_singleton.2 rfl⟩)
          exact hbind _ _ _ _ (hc hf)
      | superRef mark method =>
          obtain ⟨w, m₁, hw, hmem⟩ := Outcome.mem_after.1 hv
          obtain ⟨inner, parent, i, c, f, -, hparent, -, hf, rfl, -⟩ := superMethod_done hw
          have hc : (Value.cls parent).Brings R Q := hm.getAt? hparent
          rw [List.mem_singleton.1 hmem]
          exact hbind _ _ _ _ (hc hf)
      | _ => cases hv
  | _ => cases hv

end Methods

/-! ### Sessions -/

namespace Session

variable (output : Output) (clock : Nat → Float) (fuel : Nat) (steps : List (Mode × String))

/-- **What a reserved name is bound to in a frame is the same in all stores that come up in a
session.** -/
theorem reserved_unique {a : FrameId} {x : String} (hx : ¬Plain x) {run run' : Run} {t t' : Store}
    {v w : Value} (hrun : run ∈ (start output clock).runs fuel steps)
    (hrun' : run' ∈ (start output clock).runs fuel steps) (ht : run.Visits t) (ht' : run'.Visits t')
    (hv : (t.frame a).get? x = some v) (hw : (t'.frame a).get? x = some w) : v = w := by
  have hrunning := running_start output clock fuel steps
  have hcourse := hrunning.course (G := Run.Passes)
    (Policy.held_initial (.reserving (fun _ => True) fun _ _ => trivial) plain_clock output)
    fun run hrun => by
      obtain ⟨known, -, hprepared⟩ := hrunning.prepared hrun
      exact hprepared.guarded (fun _ hk => hk) (fun _ _ _ _ _ _ _ _ _ => trivial)
        (fun _ _ hk hl _ _ => hk.next hl) fun _ htop => Run.passes_of_mem_tops htop
  exact hcourse.unique hx ⟨run, hrun, ht⟩ ⟨run', hrun', ht'⟩ hv hw

end Session

end Scriptlet
