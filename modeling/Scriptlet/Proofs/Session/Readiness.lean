/-
**Every moment of a run is where resolution says.**

A task is *ready* on a machine if the machine stands at the place of the program where the task
belongs: its chain of frames has a frame for each open scope, and all visible names are bound in the
frames of their scopes, but for a variable whose initialiser is being read.  A task that is ready
has ready parts only.  So every moment of the run of a program is ready, and whenever a reference is
consulted, the frame at its distance binds its name or is about to bind it.

Main definitions:

* `Scriptlet.Context.Framed` — the frames of a machine are those of a context;
* `Scriptlet.Facing` — machines at the place of an expression;
* `Scriptlet.Ready` — **a task that is ready on a machine**.

Main results:

* `Scriptlet.Ready.parts` — **the parts of a task that is ready are ready**;
* `Scriptlet.Ready.leads`, `Scriptlet.ready_of_mem_topMoments` — so is every moment of a run.
-/

import Scriptlet.Proofs.Lexical.Simulation
import Scriptlet.Proofs.Session.Moments

set_option relaxedAutoImplicit false
set_option autoImplicit false

namespace Scriptlet

/-! ### Frames and scopes -/

/-- **The frames of a machine are those of a context**: one for each open scope, and behind them
those of the globals. -/
def Context.Framed (ctx : Context) (m : Machine) : Prop :=
  ∃ frames, m.scope.chain = frames ++ m.globals.chain ∧ frames.length = ctx.scopes.length

section Frames

variable {K : Known} {A : Atlas} {ctx : Context} {m n : Machine} {locations : List FrameId}

theorem Sim.framed (hs : Sim K A m n) (hp : Placed A ctx.rows m.scope.chain locations) :
    ctx.Framed m := by
  obtain ⟨frames, hchain, hlength⟩ := hp.chain_eq
  refine ⟨frames, ?_, ?_⟩
  · rw [hchain, hs.globals]
  · rw [hlength]
    exact List.length_map _

/-- A local name that is bound is bound in the frame at its distance. -/
theorem Sim.binds (hs : Sim K A m n) (hp : Placed A ctx.rows m.scope.chain n.scope.chain)
    {x : String}
    {d : Nat} (hd : ctx.distance? x = some d) (hb : ∀ a, m.scope.chain[d]? = some a → A.bound a x) :
    ∃ a, m.scope.chain[d]? = some a ∧ (m.store.frame a).binds x = true := by
  rw [Context.distance?_eq] at hd
  obtain ⟨a, l, ha, -, -⟩ := hs.store.holder?_local hp hd
  exact ⟨a, ha, hs.store.bound (hb a ha)⟩

end Frames

/-! ### Ready tasks -/

section Ready

variable (K : Known) (setting : Setting) (P : String → Environment → Prop)

/-- **Machines at the place of an expression.**  If it stands in the initialiser of a variable, `P`
is true of the variable and the environment. -/
structure Facing (A : Atlas) (ctx : Context) (m n : Machine) : Prop where
  sim : Sim K A m n
  seen : Seen A ctx m.scope.chain n.scope.chain
  awaited : ∀ x, ctx.initializing = some x → P x m.scope

/-- What is true when a reference is consulted: the machine is at its site, and the frame at its
distance binds its name, or is the one in which `P` says that the name is awaited. -/
structure Consulted (t : Task) (m : Machine) (site : Site) (mark : Mark) (name : String) :
    Prop where
  known : K site
  reference : site.reference? = some (mark.id, name)
  distance : setting.distances[mark.id]? = site.ctx.distance? name
  framed : site.ctx.Framed m
  bound : ∀ d, site.ctx.distance? name = some d → ∃ a, m.scope.chain[d]? = some a ∧
    ((m.store.frame a).binds name = true ∨ (∃ v, t = .assign mark name v) ∧ d = 0 ∧ P name m.scope)

/-- **A task that is ready on a machine.** -/
inductive Ready : Task → Machine → Prop
  | evaluate {A : Atlas} {ctx : Context} {e : Expr} {m n : Machine} (facing : Facing K P A ctx m n)
      (fit : Fit K setting.distances (e.sites ctx)) : Ready (.evaluate e) m
  | evaluateAll {A : Atlas} {ctx : Context} {es : List Expr} {m n : Machine}
      (facing : Facing K P A ctx m n) (fit : Fit K setting.distances (Expr.allSites ctx es)) :
      Ready (.evaluateAll es) m
  | apply {A : Atlas} {v w : Value} {vs ws : List Value} {site : Span} {m n : Machine}
      (sim : Sim K A m n) (alike : Alike K A v w) (arguments : List.Forall₂ (Alike K A) vs ws) :
      Ready (.apply v vs site) m
  | call {A : Atlas} {f g : Closure} {vs ws : List Value} {site : Span} {m n : Machine}
      (sim : Sim K A m n) (alike : FunctionAlike K A f g) (arity : vs.length = f.arity)
      (arguments : List.Forall₂ (Alike K A) vs ws) : Ready (.call f vs site) m
  | execute {A : Atlas} {ctx : Context} {d : Decl} {m n : Machine} (sim : Sim K A m n)
      (stands : Stands A ctx m.scope.chain n.scope.chain)
      (fit : Fit K setting.distances (d.sites ctx)) : Ready (.execute d) m
  | executeAll {A : Atlas} {ctx : Context} {ds : List Decl} {m n : Machine} (sim : Sim K A m n)
      (stands : Stands A ctx m.scope.chain n.scope.chain) (rows : ctx.rows ≠ [])
      (fit : Fit K setting.distances (Decl.allSites ctx ds)) : Ready (.executeAll ds) m
  | perform {A : Atlas} {ctx : Context} {stmt : Stmt} {m n : Machine} (sim : Sim K A m n)
      (stands : Stands A ctx m.scope.chain n.scope.chain)
      (fit : Fit K setting.distances (stmt.sites ctx)) : Ready (.perform stmt) m
  | consult {t : Task} {m : Machine} {site : Site} {mark : Mark} {name : String}
      (task : t.reference? = some (mark, name))
      (consulted : Consulted K setting P t m site mark name) :
      Ready t m

/-- Tasks that are ready on their machines. -/
def AllReady (tasks : List (Task × Machine)) : Prop :=
  ∀ part ∈ tasks, Ready K setting P part.1 part.2

end Ready

section Parts

variable {K : Known} {setting : Setting} {P : String → Environment → Prop} {A A' : Atlas}
  {ctx : Context} {m m' n n' : Machine} {fuel : Nat}

theorem Facing.later {own : Option FrameId} (h : Facing K P A ctx m n) (hg : A.Grows own A')
    (hs : Sim K A' m' n') (hm : m'.scope = m.scope) (hn : n'.scope = n.scope) :
    Facing K P A' ctx m' n' := by
  refine ⟨hs, h.seen.later hg hm hn, fun x hx => ?_⟩
  rw [hm]
  exact h.awaited x hx

theorem Stands.facing (h : Stands A ctx m.scope.chain n.scope.chain) (hs : Sim K A m n) :
    Facing K P A ctx m n := by
  refine ⟨hs, h.seen, fun x hx => ?_⟩
  rw [h.steady.initializing] at hx
  cases hx

namespace AllReady

theorem nil : AllReady K setting P [] := nofun

theorem one {t : Task} (h : Ready K setting P t m) : AllReady K setting P [(t, m)] :=
  List.forall_mem_singleton.2 h

theorem cons {t : Task} {parts : List (Task × Machine)} (h : Ready K setting P t m)
    (hparts : AllReady K setting P parts) : AllReady K setting P ((t, m) :: parts) :=
  List.forall_mem_cons.2 ⟨h, hparts⟩

/-- What follows one of two runs that match is ready if it is so on all machines that they can
leave. -/
theorem after {α β : Type} {own : Option FrameId} {scope : Environment}
    {Q : Atlas → α → β → Environment → Prop} {o : Outcome α} {o' : Outcome β}
    (h : Match K own A scope Q o o') {parts : α → Machine → List (Task × Machine)}
    (hparts : ∀ {A' a b m n}, A.Grows own A' → Sim K A' m n → m.scope = scope → Q A' a b n.scope →
      AllReady K setting P (parts a m)) : AllReady K setting P (o.after parts) := by
  cases h with
  | done grows sim back post => exact hparts grows sim back post
  | failed sim back fault => exact nil
  | starved => exact nil

end AllReady

/-! ### References -/

/-- A local variable is awaited in the innermost scope only. -/
theorem Context.distance?_of_inOwnInitializer {x : String} {d : Nat}
    (h : ctx.inOwnInitializer x = true) (hd : ctx.distance? x = some d) : d = 0 := by
  obtain ⟨scopes, inRoutine, classAround, initializing⟩ := ctx
  cases scopes with
  | nil => cases hd
  | cons s ss =>
      have hawaits : s.lookup x = some false := eq_of_beq h
      have hdeclares : s.declares x = true := by
        unfold Scope.declares
        rw [hawaits]
        rfl
      unfold Context.distance? at hd
      rw [List.findIdx?_cons, hdeclares] at hd
      exact (Option.some.inj hd).symm

/-- A reference to a name that is not awaited is consulted where it should be. -/
theorem Facing.reads (h : Facing K P A ctx m n) {t : Task} {mention : Mention} {mark : Mark}
    {name : String} (ht : t.reference? = some (mark, name)) (known : K ⟨ctx, mention⟩)
    (href : Site.reference? ⟨ctx, mention⟩ = some (mark.id, name))
    (hd : setting.distances[mark.id]? = ctx.distance? name) (hname : ctx.initializing ≠ some name) :
    Ready K setting P t m := by
  refine .consult ht ⟨known, href, hd, h.sim.framed h.seen.placed, fun d hd => ?_⟩
  obtain ⟨a, ha, hbinds⟩ := h.sim.binds h.seen.placed hd fun a ha =>
    h.seen.bound hname (by rwa [← Context.distance?_eq]) ha
  exact ⟨a, ha, .inl hbinds⟩

/-- A name that gets a value is consulted where it should be; it may be awaited. -/
theorem Facing.writes (h : Facing K P A ctx m n) {mark : Mark} {name : String} (v : Value)
    (known : K ⟨ctx, .write mark name⟩) (hd : setting.distances[mark.id]? = ctx.distance? name) :
    Ready K setting P (.assign mark name v) m := by
  -- `var a = (a = 1);` resolves, and assigns to a name that the frame does not bind yet
  by_cases hname : ctx.initializing = some name
  · refine .consult rfl ⟨known, rfl, hd, h.sim.framed h.seen.placed, fun d hd => ?_⟩
    have hzero := Context.distance?_of_inOwnInitializer (h.seen.awaited hname).2 hd
    rw [Context.distance?_eq] at hd
    obtain ⟨a, l, ha, -, -⟩ := h.sim.store.holder?_local h.seen.placed hd
    exact ⟨a, ha, .inr ⟨⟨v, rfl⟩, hzero, h.awaited name hname⟩⟩
  · exact h.reads rfl known rfl hd hname

/-- A reference with a distance is never said to be unbound where it should be consulted. -/
theorem Consulted.found {t : Task} {site : Site} {mark : Mark} {name : String}
    (h : Consulted K setting P t m site mark name) (ht : t.reference? = some (mark, name)) {d : Nat}
    (hd : site.ctx.distance? name = some d) {e : RuntimeError}
    (he : t.error? setting fuel m = some e) : e.fault.isUnbound = false := by
  obtain ⟨a, ha, hbound⟩ := h.bound d hd
  have hdistance := h.distance.trans hd
  -- a read finds a name that is bound, a write needs the frame only, and a call of a superclass
  -- method blames no name
  cases t with
  | lookUp mark' name' =>
      cases ht
      rcases hbound with hbinds | ⟨⟨v, htask⟩, -⟩
      · obtain ⟨v, hv⟩ := Option.isSome_iff_exists.1 hbinds
        have hfound : m.store.getAt? m.scope d name = some v := by
          simp only [Store.getAt?, ha, hv]
        unfold Task.error? Action.lookUp at he
        simp only [hdistance] at he
        change (Action.require (m.store.getAt? m.scope d name) (.unboundLocal name) mark.span
          m).error? = _ at he
        rw [hfound] at he
        cases he
      · cases htask
  | assign mark' name' v =>
      cases ht
      have hassigned : m.store.assignAt m.scope d name v = (true, m.store.write a name v) := by
        simp only [Store.assignAt, ha]
      unfold Task.error? Action.assign at he
      simp only [hdistance] at he
      change ((if (m.store.assignAt m.scope d name v).1 = true then Pure.pure ()
        else Action.fail (.unboundLocal name) mark.span : Action Unit)
          { m with store := (m.store.assignAt m.scope d name v).2 }).error? = _ at he
      rw [hassigned] at he
      cases he
  | superMethod mark' method => exact (superMethod_clean mark' method).isUnbound_eq_false he
  | _ => cases ht

/-! ### The parts of tasks that are ready -/

theorem Facing.parts (ih : Simulates K setting fuel) (h : Facing K P A ctx m n) {e : Expr}
    (hfit : Fit K setting.distances (e.sites ctx)) :
    AllReady K setting P (e.parts setting fuel m) := by
  -- the first operand is ready where the expression is, the others where the runs before them have
  -- left the machine, which match
  cases e with
  | constant mark value => exact .nil
  | grouping mark inner => exact .one (.evaluate h hfit)
  | unary mark op operand => exact .one (.evaluate h hfit)
  | binary mark left op opSpan right =>
      rw [Expr.sites, fit_append] at hfit
      refine .cons (.evaluate h hfit.1) (.after (ih.evaluate h.sim h.seen hfit.1) ?_)
      rintro A₁ v w m₁ n₁ hg hs hm ⟨-, hn⟩
      exact .one (.evaluate (h.later hg hs hm hn) hfit.2)
  | logical mark left op right =>
      rw [Expr.sites, fit_append] at hfit
      refine .cons (.evaluate h hfit.1) (.after (ih.evaluate h.sim h.seen hfit.1) ?_)
      rintro A₁ v w m₁ n₁ hg hs hm ⟨-, hn⟩
      split
      · exact .nil
      · exact .one (.evaluate (h.later hg hs hm hn) hfit.2)
  | ternary mark condition question thenBranch elseBranch =>
      rw [Expr.sites, fit_append, fit_append] at hfit
      obtain ⟨⟨hcondition, hthen⟩, helse⟩ := hfit
      refine .cons (.evaluate h hcondition) (.after (ih.evaluate h.sim h.seen hcondition) ?_)
      rintro A₁ v w m₁ n₁ hg hs hm ⟨-, hn⟩
      refine .one ?_
      split
      · exact .evaluate (h.later hg hs hm hn) hthen
      · exact .evaluate (h.later hg hs hm hn) helse
  | «variable» mark name =>
      obtain ⟨known, hown, hd⟩ := (fit_cons.1 hfit).1
      refine .one (h.reads rfl known rfl hd fun hx => ?_)
      rw [(h.seen.awaited hx).2] at hown
      cases hown
  | assign mark name value =>
      rw [Expr.sites, fit_append] at hfit
      obtain ⟨known, -, hd⟩ := (fit_cons.1 hfit.2).1
      refine .cons (.evaluate h hfit.1) (.after (ih.evaluate h.sim h.seen hfit.1) ?_)
      rintro A₁ v w m₁ n₁ hg hs hm ⟨-, hn⟩
      exact .one ((h.later hg hs hm hn).writes v known hd)
  | call mark callee arguments paren =>
      rw [Expr.sites, fit_append] at hfit
      refine .cons (.evaluate h hfit.1) (.after (ih.evaluate h.sim h.seen hfit.1) ?_)
      rintro A₁ v w m₁ n₁ hg hs hm ⟨hvw, hn⟩
      have h₁ := h.later hg hs hm hn
      refine .cons (.evaluateAll h₁ hfit.2) (.after (ih.evaluateAll h₁.sim h₁.seen hfit.2) ?_)
      rintro A₂ vs ws m₂ n₂ hg₂ hs₂ - ⟨hvs, -⟩
      exact .one (.apply hs₂ (hvw.mono hg₂) hvs)
  | get mark object name => exact .one (.evaluate h hfit)
  | set mark object name value =>
      rw [Expr.sites, fit_append] at hfit
      refine .cons (.evaluate h hfit.2) (.after (ih.evaluate h.sim h.seen hfit.2) ?_)
      rintro A₁ v w m₁ n₁ hg hs hm ⟨-, hn⟩
      cases v with
      | object id c => exact .one (.evaluate (h.later hg hs hm hn) hfit.1)
      | _ => exact .nil
  | thisRef mark =>
      obtain ⟨known, hd⟩ := (fit_cons.1 hfit).1
      exact .one (h.reads rfl known rfl hd h.seen.words.1)
  | superRef mark method =>
      obtain ⟨known, -, hd⟩ := (fit_cons.1 hfit).1
      exact .one (h.reads rfl known rfl hd h.seen.words.2)

theorem Facing.allParts (ih : Simulates K setting fuel) (h : Facing K P A ctx m n) {es : List Expr}
    (hfit : Fit K setting.distances (Expr.allSites ctx es)) :
    AllReady K setting P (Expr.allParts setting fuel m es) := by
  cases es with
  | nil => exact .nil
  | cons e es =>
      rw [Expr.allSites, fit_append] at hfit
      refine .cons (.evaluate h hfit.1) (.after (ih.evaluate h.sim h.seen hfit.1) ?_)
      rintro A₁ v w m₁ n₁ hg hs hm ⟨-, hn⟩
      exact .one (.evaluateAll (h.later hg hs hm hn) hfit.2)

theorem Alike.parts {v w : Value} {vs ws : List Value} (hs : Sim K A m n) (hvw : Alike K A v w)
    (hvs : List.Forall₂ (Alike K A) vs ws) (site : Span) :
    AllReady K setting P (v.parts m vs site) := by
  cases hvw with
  | @closure f g hfg =>
      rw [Value.parts]
      split
      · rename_i harity
        exact .one (.call hs hfg harity hvs)
      · exact .nil
  | @cls c d hcd =>
      rw [Value.parts]
      split
      · rename_i harity
        have hsim := hs.withStore (hs.store.newObject c d)
        have hinit := hcd.findMethod? "init"
        unfold Class.arity at harity
        -- the object is made in between, and its class is alike to that of the other one
        have hobject : (m.store.newObject c).1 = .object m.store.objects.size c := rfl
        rw [Outcome.after_onStore, hobject]
        generalize c.findMethod? "init" = f at hinit harity ⊢
        generalize d.findMethod? "init" = g at hinit
        cases hinit with
        | none => exact .nil
        | @some f g hfg =>
            refine .after (bind_match (i := m.store.objects.size) hsim hfg hcd) ?_
            rintro A₁ f' g' m₁ n₁ hg hs₁ - ⟨⟨hfg', -, harity'⟩, -⟩
            exact .one (.call hs₁ hfg' (harity.trans harity'.symm) (Alike.mono_all hvs hg))
      · exact .nil
  | _ => exact .nil

theorem FunctionAlike.parts (hK : Lawful K setting.distances) {f g : Closure} {vs ws : List Value}
    (hs : Sim K A m n) (hfg : FunctionAlike K A f g) (hlength : vs.length = f.arity)
    (hvs : List.Forall₂ (Alike K A) vs ws) : AllReady K setting P (f.parts m vs) := by
  cases hfg with
  | @mk ctx r e e' isInitializer known settled steady headed receiver =>
      rw [Closure.parts]
      split
      · exact .nil
      · -- One more call is open, which the simulation does not see.
        have hdeeper : Sim K A { m with depth := m.depth + 1 } { n with depth := n.depth + 1 } :=
          ⟨hs.store, hs.globals, congrArg (· + 1) hs.depth, hs.output, hs.readings⟩
        obtain ⟨A₁, hg, hs₁, htail, hfree⟩ := hdeeper.entering e e'
        refine .after (parameters_match hK known (settled.mono hg) steady hlength
          (Alike.mono_all hvs hg) hs₁ htail hfree) ?_
        rintro A₂ _ _ m₂ n₂ - hs₂ hm₂ hstands
        rw [← hm₂] at hstands
        exact .one (.executeAll hs₂ hstands (Context.rows_inRoutineOf_ne_nil ctx r.params)
          (hK.body known))

theorem Stands.declParts (hs : Sim K A m n) (hstands : Stands A ctx m.scope.chain n.scope.chain)
    {d : Decl} (hfit : Fit K setting.distances (d.sites ctx))
    (hP : ∀ name nameSpan value span,
      d = .varDecl name nameSpan (some value) span → P name m.scope) :
    AllReady K setting P (d.parts m) := by
  cases d with
  | varDecl name nameSpan initializer span =>
      cases initializer with
      | none => exact .nil
      | some value =>
          obtain ⟨⟨-, hname, hclash⟩, hvalue⟩ := fit_cons.1 hfit
          obtain ⟨A₁, n₁, -, -, hs₁, hannounced⟩ := announce_match hs hstands hclash rfl
          refine .one (.evaluate ⟨hs₁, hannounced.seen hname, fun x hx => ?_⟩ hvalue)
          cases hx
          exact hP name nameSpan value span rfl
  | funDecl routine span => exact .nil
  | classDecl name nameSpan superclass methods span =>
      cases superclass with
      | none => exact .nil
      | some parent =>
          rw [Decl.sites, fit_cons, fit_append] at hfit
          obtain ⟨⟨-, -, hclash⟩, hparent, -⟩ := hfit
          obtain ⟨known, hne, hd⟩ := (fit_cons.1 hparent).1
          obtain ⟨A₁, n₁, -, -, hs₁, hannounced⟩ := announce_match hs hstands hclash rfl
          have hplaced := hannounced.placed
          rw [← Context.rows_declare] at hplaced
          refine .one (.consult rfl ⟨known, rfl, hd, hs₁.framed hplaced, fun d hd => ?_⟩)
          obtain ⟨a, ha, hbinds⟩ :=
            hs₁.binds hplaced hd fun a ha => hannounced.bound_of_ne hne hd ha
          exact ⟨a, ha, .inl hbinds⟩
  | statement stmt => exact .one (.perform hs hstands hfit)

theorem Stands.declAllParts (ih : Simulates K setting fuel) (hs : Sim K A m n)
    (hstands : Stands A ctx m.scope.chain n.scope.chain) (hrows : ctx.rows ≠ []) {ds : List Decl}
    (hfit : Fit K setting.distances (Decl.allSites ctx ds)) :
    AllReady K setting P (Decl.allParts setting fuel m ds) := by
  cases ds with
  | nil => exact .nil
  | cons d ds =>
      rw [Decl.allSites, fit_append] at hfit
      refine .cons (.execute hs hstands hfit.1) (.after (ih.execute hs hstands rfl hfit.1) ?_)
      rintro A₁ c c' m₁ n₁ - hs₁ hm₁ ⟨-, hafter⟩
      cases c with
      | normal =>
          have hstands₁ := hafter rfl
          rw [← hm₁] at hstands₁
          refine .one (.executeAll hs₁ hstands₁ ?_ hfit.2)
          rw [← List.isEmpty_eq_false_iff, Context.isEmpty_rows_after]
          exact List.isEmpty_eq_false_iff.2 hrows
      | returned v => exact .nil

theorem Stands.stmtParts (ih : Simulates K setting fuel) (hs : Sim K A m n)
    (hstands : Stands A ctx m.scope.chain n.scope.chain) {stmt : Stmt}
    (hfit : Fit K setting.distances (stmt.sites ctx)) :
    AllReady K setting P (stmt.parts setting fuel m) := by
  have hfacing : Facing K P A ctx m n := hstands.facing hs
  cases stmt with
  | expression e span => exact .one (.evaluate hfacing hfit)
  | print e span => exact .one (.evaluate hfacing hfit)
  | ret keyword value span =>
      cases value with
      | none => exact .nil
      | some value => exact .one (.evaluate hfacing (fit_cons.1 hfit).2)
  | block body span =>
      obtain ⟨A₁, hg, hs₁, htail, hfree⟩ := hs.entering m.scope n.scope
      have hstands₁ : Stands A₁ (ctx.opening []) (m.entering m.scope).scope.chain n.scope.chain :=
        (hstands.mono hg).block htail hfree
      exact .one (.executeAll hs₁ hstands₁ (Context.rows_opening_ne_nil ctx []) hfit)
  | ifElse condition thenBranch elseBranch span =>
      have hcondition : Fit K setting.distances (condition.sites ctx) := by
        cases elseBranch with
        | none => exact (fit_append.1 hfit).1
        | some elseBranch => exact (fit_append.1 (fit_append.1 hfit).1).1
      have hthen : Fit K setting.distances (thenBranch.sites ctx) := by
        cases elseBranch with
        | none => exact (fit_append.1 hfit).2
        | some elseBranch => exact (fit_append.1 (fit_append.1 hfit).1).2
      refine .cons (.evaluate hfacing hcondition)
        (.after (ih.evaluate hs hstands.seen hcondition) ?_)
      rintro A₁ v w m₁ n₁ hg hs₁ hm ⟨-, hn⟩
      split
      · exact .one (.perform hs₁ (hstands.later hg hm hn) hthen)
      · cases elseBranch with
        | none => exact .nil
        | some elseBranch =>
            exact .one (.perform hs₁ (hstands.later hg hm hn) (fit_append.1 hfit).2)
  | whileLoop condition body span =>
      -- the loop itself is the last part, at the place it stands at
      have hloop := hfit
      rw [Stmt.sites, fit_append] at hfit
      refine .cons (.evaluate hfacing hfit.1) (.after (ih.evaluate hs hstands.seen hfit.1) ?_)
      rintro A₁ v w m₁ n₁ hg hs₁ hm ⟨-, hn⟩
      split
      · have hstands₁ := hstands.later hg hm hn
        refine .cons (.perform hs₁ hstands₁ hfit.2) (.after (ih.perform hs₁ hstands₁ hfit.2) ?_)
        rintro A₂ c c' m₂ n₂ hg₂ hs₂ hm₂ ⟨-, hn₂⟩
        cases c with
        | normal => exact .one (.perform hs₂ (hstands₁.later hg₂ hm₂ hn₂) hloop)
        | returned v => exact .nil
      · exact .nil

/-- **The parts of a task that is ready are ready**; the variable of a declaration is awaited. -/
theorem Ready.parts (hK : Lawful K setting.distances) {t : Task} (h : Ready K setting P t m)
    (hP : ∀ name nameSpan value span, t = .execute (.varDecl name nameSpan (some value) span) →
      P name m.scope) : AllReady K setting P (t.parts setting fuel m) := by
  have ih := simulates hK fuel
  cases h with
  | evaluate facing fit => exact facing.parts ih fit
  | evaluateAll facing fit => exact facing.allParts ih fit
  | apply sim alike arguments => exact alike.parts sim arguments _
  | call sim alike arity arguments => exact alike.parts hK sim arity arguments
  | execute sim stands fit =>
      refine stands.declParts sim fit fun name nameSpan value span hd => ?_
      exact hP name nameSpan value span (congrArg Task.execute hd)
  | executeAll sim stands rows fit => exact stands.declAllParts ih sim rows fit
  | perform sim stands fit => exact stands.stmtParts ih sim fit
  | consult task consulted =>
      cases t with
      | lookUp mark name => exact .nil
      | assign mark name v => exact .nil
      | superMethod mark method => exact .nil
      | _ => cases task

end Parts

/-! ### All moments -/

section Moments

variable {K : Known} {setting : Setting} {P P' : String → Environment → Prop} {m : Machine}
  {fuel : Nat}

theorem Facing.imp {A : Atlas} {ctx : Context} {n : Machine} (h : Facing K P A ctx m n)
    (hP : ∀ x e, P x e → P' x e) : Facing K P' A ctx m n :=
  ⟨h.sim, h.seen, fun x hx => hP x _ (h.awaited x hx)⟩

theorem Ready.imp {t : Task} (h : Ready K setting P t m) (hP : ∀ x e, P x e → P' x e) :
    Ready K setting P' t m := by
  cases h with
  | evaluate facing fit => exact .evaluate (facing.imp hP) fit
  | evaluateAll facing fit => exact .evaluateAll (facing.imp hP) fit
  | apply sim alike arguments => exact .apply sim alike arguments
  | call sim alike arity arguments => exact .call sim alike arity arguments
  | execute sim stands fit => exact .execute sim stands fit
  | executeAll sim stands rows fit => exact .executeAll sim stands rows fit
  | perform sim stands fit => exact .perform sim stands fit
  | consult task consulted =>
      obtain ⟨known, reference, distance, framed, bound⟩ := consulted
      refine .consult task ⟨known, reference, distance, framed, fun d hd => ?_⟩
      obtain ⟨a, ha, hbound⟩ := bound d hd
      exact ⟨a, ha, hbound.imp_right fun ⟨ht, hd, hx⟩ => ⟨ht, hd, hP _ _ hx⟩⟩

/-- Between two moments there is one at which a variable is declared in an environment. -/
def Awaits (setting : Setting) (start k : Moment) (x : String) (e : Environment) : Prop :=
  ∃ j : Moment, start.Leads setting j ∧ j.Leads setting k ∧
    (∃ nameSpan value span, j.task = .execute (.varDecl x nameSpan (some value) span)) ∧
    j.machine.scope = e

/-- A reference is consulted where it should be. -/
theorem Ready.consulted {t : Task} (h : Ready K setting P t m) {mark : Mark} {name : String}
    (ht : t.reference? = some (mark, name)) :
    ∃ site, Consulted K setting P t m site mark name := by
  cases h with
  | consult task consulted =>
      rw [task] at ht
      cases ht
      exact ⟨_, consulted⟩
  | _ => cases ht

/-- **A moment that is ready leads to moments that are ready.** -/
theorem Ready.leads (hK : Lawful K setting.distances) {start k : Moment}
    (h : Ready K setting (fun _ _ => False) start.task start.machine) (hk : start.Leads setting k) :
    Ready K setting (Awaits setting start k) k.task k.machine := by
  -- induction on the way that has been gone; what is awaited is so since a moment on it
  induction hk with
  | refl => exact h.imp fun _ _ => False.elim
  | @tail k l hk hl ih =>
      have hstep : k.Leads setting l := .single hl
      have hready : Ready K setting (Awaits setting start l) k.task k.machine := by
        refine ih.imp fun x e ⟨j, hj, hjk, hdecl, hscope⟩ => ?_
        exact ⟨j, hj, hjk.trans hstep, hdecl, hscope⟩
      unfold Moment.next at hl
      obtain ⟨task, fuel, machine⟩ := k
      cases fuel with
      | zero => cases hl
      | succ fuel =>
          obtain ⟨part, hpart, rfl⟩ := List.mem_map.1 hl
          refine hready.parts hK (fun x nameSpan value span ht => ?_) part hpart
          exact ⟨_, hk, hstep, ⟨nameSpan, value, span, ht⟩, rfl⟩

/-- The declarations of a program are ready to be executed. -/
theorem ready_of_mem_topMoments (hK : Lawful K setting.distances) {A : Atlas} {n : Machine}
    {ds : List Decl} (hs : Sim K A m n) (hm : m.scope = ⟨[0]⟩) (hn : n.scope = ⟨[0]⟩)
    (hfit : Fit K setting.distances (Decl.allSites .global ds)) {top : Moment}
    (htop : top ∈ topMoments setting fuel ds m) :
    Ready K setting (fun _ _ => False) top.task top.machine := by
  -- each declaration is reached after those before it have completed normally, in the globals
  induction ds generalizing A m n with
  | nil => cases htop
  | cons d ds ih =>
      rw [Decl.allSites, fit_append, Context.after_global] at hfit
      rcases mem_topMoments_cons.1 htop with rfl | ⟨m₁, hd₁, htop⟩
      · have hstands : Stands A .global m.scope.chain n.scope.chain := by
          rw [hm, hn]
          exact .global A
        exact .execute hs hstands hfit.1
      · have hd := execute_global_match hK fuel hs hm hn hfit.1
        rw [hd₁] at hd
        generalize Lexical.execute setting.clock false fuel d n = o' at hd
        cases hd with
        | done grows sim back post => exact ih sim (back.trans hm) post.2.2 hfit.2 htop

end Moments

end Scriptlet
