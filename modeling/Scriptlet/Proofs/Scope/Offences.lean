/-
**What makes a program ill-scoped.**

A program is rejected for what it mentions at a place where it must not: a name that its scope has
declared already, a variable in its own initialiser, a `return` outside of all routines, `this` and
`super` without the class they need, and a class as its own superclass.  Each of these is judged by
the trail of the place alone, and each of them is reported once, in the order of resolution.

Main definitions:

* `Scriptlet.Spot.Offends` — **what is wrong with a mention**, and the error that says so;
* `Scriptlet.Spot.Accepted` — mentions that may look wrong and are not;
* `Scriptlet.Reports` — errors that report each offending spot once, and no other;
* `Scriptlet.Trail.Quiet` — trails that are not inside an initialiser or the head of a class.

Main results:

* `Scriptlet.Program.posed` — resolution knows at each spot whose initialiser it is in;
* `Scriptlet.Spot.Posed.errors` — it finds one error at an offending spot and none at another;
* `Scriptlet.Program.reports_scopeErrors` — **the errors of a program report its offending spots**;
* `Scriptlet.Program.resolve_rejects_offences` — **a program is rejected exactly for them**.
-/

import Scriptlet.Compile
import Scriptlet.Proofs.Scope.Trails

set_option relaxedAutoImplicit false
set_option autoImplicit false

namespace Scriptlet

/-! ### Offences -/

/-- **What is wrong with what a program mentions**, and the error that says so. -/
inductive Spot.Offends : Spot → ScopeError → Prop
  /-- A name that the same scope has declared already. -/
  | redeclared {trail : Trail} {name : String} {span : Span} {names : List String}
      {outer : List (List String)} (scope : trail.scopes = names :: outer)
      (earlier : name ∈ names) :
      Offends ⟨trail, .declared name span⟩ ⟨.alreadyDeclared, name, span⟩
  /-- A variable that is read in its own initialiser, with no scope between. -/
  | ownInitializer {trail : Trail} {mark : Mark} {name : String}
      (inside : .initializer name ∈ trail.here) :
      Offends ⟨trail, .read mark name⟩ ⟨.ownInitializer, name, mark.span⟩
  /-- A `return` outside of all routines. -/
  | returned {trail : Trail} {keyword : Span} (outside : ¬trail.InRoutine) :
      Offends ⟨trail, .returned keyword⟩ ⟨.returnOutsideRoutine, "return", keyword⟩
  /-- `this` outside of all classes. -/
  | receiver {trail : Trail} {mark : Mark} (outside : trail.innermostClass? = none) :
      Offends ⟨trail, .receiver mark⟩ ⟨.thisOutsideClass, "this", mark.span⟩
  /-- `super` outside of all classes. -/
  | ancestor {trail : Trail} {mark : Mark} (outside : trail.innermostClass? = none) :
      Offends ⟨trail, .ancestor mark⟩ ⟨.superOutsideClass, "super", mark.span⟩
  /-- `super` in a class, the innermost around it, that has no superclass. -/
  | orphan {trail : Trail} {mark : Mark} (plain : trail.innermostClass? = some none) :
      Offends ⟨trail, .ancestor mark⟩ ⟨.superWithoutSuperclass, "super", mark.span⟩
  /-- A class that is named as its own superclass. -/
  | ownSuperclass {trail : Trail} {mark : Mark} {name : String} :
      Offends ⟨trail, .parent mark name name⟩ ⟨.ownSuperclass, name, mark.span⟩

/-- Mentions that may look wrong and are not. -/
inductive Spot.Accepted : Spot → Prop
  /-- A variable gets a value, be it in its own initialiser. -/
  | assigned {trail : Trail} {mark : Mark} {name : String} : Accepted ⟨trail, .write mark name⟩
  /-- A name is declared that only scopes further out have declared. -/
  | shadowing {trail : Trail} {name : String} {span : Span} {names : List String}
      {outer : List (List String)} (scope : trail.scopes = names :: outer) (new : name ∉ names) :
      Accepted ⟨trail, .declared name span⟩
  /-- A name is declared outside of all scopes, be it again. -/
  | global {trail : Trail} {name : String} {span : Span} (scope : trail.scopes = []) :
      Accepted ⟨trail, .declared name span⟩
  /-- A routine returns, be it an initialiser that returns a value. -/
  | returned {trail : Trail} {keyword : Span} (inside : trail.InRoutine) :
      Accepted ⟨trail, .returned keyword⟩

theorem Spot.Accepted.not_offends {s : Spot} (h : s.Accepted) (e : ScopeError) : ¬s.Offends e := by
  intro ho
  cases h with
  | assigned => cases ho
  | shadowing scope new =>
      cases ho with
      | redeclared scope' earlier =>
          obtain ⟨rfl, -⟩ := List.cons.inj (scope.symm.trans scope')
          exact new earlier
  | global scope =>
      cases ho with
      | redeclared scope' earlier => cases scope.symm.trans scope'
  | returned inside =>
      cases ho with
      | returned outside => exact outside inside

/-- **Errors that report each offending spot once**, in order, and no other spot. -/
inductive Reports : List Spot → List ScopeError → Prop
  | nil : Reports [] []
  /-- A spot with nothing wrong is passed over. -/
  | passed {s : Spot} {spots : List Spot} {errors : List ScopeError}
      (fine : ∀ e, ¬s.Offends e) (rest : Reports spots errors) : Reports (s :: spots) errors
  /-- An offending spot is reported. -/
  | reported {s : Spot} {e : ScopeError} {spots : List Spot} {errors : List ScopeError}
      (wrong : s.Offends e) (rest : Reports spots errors) : Reports (s :: spots) (e :: errors)

theorem Spot.Offends.unique {s : Spot} {e e' : ScopeError} (h : s.Offends e) (h' : s.Offends e') :
    e = e' := by
  cases h with
  | ancestor outside =>
      cases h' with
      | ancestor => rfl
      | orphan plain => cases outside.symm.trans plain
  | orphan plain =>
      cases h' with
      | ancestor outside => cases outside.symm.trans plain
      | orphan => rfl
  | _ =>
      cases h'
      rfl

namespace Reports

variable {spots : List Spot} {errors errors' : List ScopeError}

/-- What there is to report is determined. -/
theorem unique (h : Reports spots errors) (h' : Reports spots errors') : errors = errors' := by
  induction h generalizing errors' with
  | nil =>
      cases h'
      rfl
  | passed fine rest ih =>
      cases h' with
      | passed _ rest' => exact ih rest'
      | reported wrong _ => exact absurd wrong (fine _)
  | reported wrong rest ih =>
      cases h' with
      | passed fine _ => exact absurd wrong (fine _)
      | reported wrong' rest' => rw [wrong.unique wrong', ih rest']

/-- There is nothing to report exactly if no spot offends. -/
theorem eq_nil_iff (h : Reports spots errors) : errors = [] ↔ ∀ s ∈ spots, ∀ e, ¬s.Offends e := by
  induction h with
  | nil => exact ⟨fun _ => nofun, fun _ => rfl⟩
  | passed fine rest ih => rw [ih, List.forall_mem_cons, and_iff_right fine]
  | reported wrong rest ih =>
      refine ⟨nofun, fun h => ?_⟩
      exact absurd wrong (h _ (List.mem_cons_self ..) _)

end Reports

/-! ### Initialisers on a trail -/

namespace Context

/-- In a context that awaits no name, all names of the innermost scope are ready. -/
def AwaitsNone (ctx : Context) : Prop := ∀ s ∈ ctx.scopes.head?, ∀ x, s.awaits x = false

theorem awaits_cons (s : Scope) (name x : String) (ready : Bool) :
    Scope.awaits ((name, ready) :: s) x = if x = name then !ready else s.awaits x := by
  simp only [Scope.awaits, List.lookup_cons]
  by_cases h : x = name
  · subst h
    cases ready <;> simp
  · rw [beq_false_of_ne h, if_neg h]

theorem AwaitsNone.define {ctx : Context} (h : ctx.AwaitsNone) (name : String) :
    (ctx.define name).AwaitsNone := by
  unfold AwaitsNone Context.define enter at *
  cases hscopes : ctx.scopes with
  | nil =>
      simp only [hscopes]
      nofun
  | cons s ss =>
      rintro _ ⟨⟩ x
      rw [awaits_cons, h s (by rw [hscopes]; rfl) x, Bool.not_true, ite_self]

theorem AwaitsNone.after {ctx : Context} (h : ctx.AwaitsNone) (d : Decl) :
    (d.after ctx).AwaitsNone := by
  cases d with
  | statement stmt => exact h
  | classDecl name _ _ _ _ => exact h.define name
  | funDecl routine _ => exact h.define routine.name
  | varDecl name _ _ _ => exact h.define name

theorem initializing_after (ctx : Context) (d : Decl) :
    (d.after ctx).initializing = ctx.initializing := by
  cases d <;> simp only [Decl.after, Context.define, initializing_enter]

/-- Names that are ready when their scope opens are not awaited. -/
theorem awaitsNone_opening (ctx : Context) (names : List String) :
    (ctx.opening names).AwaitsNone := by
  rintro _ ⟨⟩ x
  induction names with
  | nil => rfl
  | cons name names ih => rw [List.map_cons, awaits_cons, ih, Bool.not_true, ite_self]

/-- Outside of initialisers no name is read in its own. -/
theorem AwaitsNone.inOwnInitializer {ctx : Context} (h : ctx.AwaitsNone)
    (hnone : ctx.initializing = none) (x : String) : ctx.inOwnInitializer x = false := by
  unfold Context.inOwnInitializer
  cases hscopes : ctx.scopes with
  | nil => simp [hnone]
  | cons s ss => exact h s (by rw [hscopes]; rfl) x

/-- In the initialiser of a variable, only this variable is read in its own. -/
theorem AwaitsNone.inOwnInitializer_declare {ctx : Context} (h : ctx.AwaitsNone)
    (name x : String) :
    ({ ctx.declare name with initializing := some name } : Context).inOwnInitializer x = true ↔
      x = name := by
  obtain ⟨scopes, inRoutine, classAround, initializing⟩ := ctx
  cases scopes with
  | nil =>
      simp only [declare, enter, Context.inOwnInitializer, beq_iff_eq, Option.some.injEq]
      exact eq_comm
  | cons s ss => simp [declare, enter, Context.inOwnInitializer, awaits_cons, h s rfl x]

end Context

namespace Trail

theorem here_cons_of_opened {e : Enclosure} (h : e.opened = []) (t : Trail) :
    here (e :: t) = e :: here t := List.takeWhile_cons_of_pos (by rw [h]; rfl)

/-- **A trail that is not inside an initialiser or the head of a class.** -/
structure Quiet (t : Trail) : Prop where
  awaitsNone : t.context.AwaitsNone
  initializing : t.context.initializing = none
  here : ∀ name, .initializer name ∉ t.here

namespace Quiet

variable {t : Trail}

theorem nil : Quiet [] := ⟨nofun, rfl, nofun⟩

theorem after (h : t.Quiet) (before : List Decl) : Quiet (.after before :: t) := by
  refine ⟨?_, ?_, fun name hmem => ?_⟩
  · exact List.foldlRecOn before Decl.after h.awaitsNone fun _ hc d _ => hc.after d
  · exact List.foldlRecOn (motive := fun c : Context => c.initializing = none) before _
      h.initializing fun c hc d _ => (c.initializing_after d).trans hc
  · rw [here_cons_of_opened rfl] at hmem
    rcases List.mem_cons.1 hmem with hname | hname
    · cases hname
    · exact h.here name hname

theorem funDecl (h : t.Quiet) (name : String) : Quiet (.funDecl name :: t) := by
  refine ⟨h.awaitsNone.define name, ?_, fun x hmem => ?_⟩
  · exact (Context.initializing_enter _ name true).trans h.initializing
  · rw [here_cons_of_opened rfl] at hmem
    rcases List.mem_cons.1 hmem with hname | hname
    · cases hname
    · exact h.here x hname

theorem classBody (h : t.Quiet) (name : String) (superclass : Option Superclass) :
    Quiet (.classBody superclass :: .classDecl name :: t) := by
  have hnone : ((context t).declare name).initializing = none :=
    (Context.initializing_enter _ name false).trans h.initializing
  cases superclass with
  | none => exact ⟨Context.awaitsNone_opening _ ["this"], hnone, nofun⟩
  | some parent => exact ⟨Context.awaitsNone_opening _ ["this"], hnone, nofun⟩

theorem routine (h : t.Quiet) (before : List Param) : Quiet (.routine before :: t) := by
  refine ⟨?_, ?_, nofun⟩
  · exact List.foldlRecOn (motive := Context.AwaitsNone) before _
      (Context.awaitsNone_opening _ []) fun _ hc p _ => hc.define p.name
  · exact List.foldlRecOn (motive := fun c : Context => c.initializing = none) before _
      h.initializing fun c hc p _ => (c.initializing_enter p.name true).trans hc

theorem block (h : t.Quiet) : Quiet (.block :: t) :=
  ⟨Context.awaitsNone_opening _ [], h.initializing, nofun⟩

end Quiet

end Trail

/-- At a spot where a variable is read, resolution knows whether that is in its own initialiser. -/
def Spot.Posed (s : Spot) : Prop :=
  ∀ mark name, s.mention = .read mark name →
    (s.trail.context.inOwnInitializer name = true ↔ .initializer name ∈ s.trail.here)

theorem Spot.posed_of_forall_ne {t : Trail} {mention : Mention}
    (h : ∀ mark name, mention ≠ .read mark name) : Spot.Posed ⟨t, mention⟩ :=
  fun mark name hmention => absurd hmention (h mark name)

/-- The spots of an expression are posed, outside of initialisers … -/
theorem Expr.posed {t : Trail} (h : t.Quiet) (e : Expr) : ∀ s ∈ e.spots t, s.Posed := by
  intro s hs mark name _
  obtain ⟨mention, -, rfl⟩ := List.mem_map.1 hs
  simp only [h.awaitsNone.inOwnInitializer h.initializing, h.here, Bool.false_eq_true]

/-- … and in one. -/
theorem Expr.posed_initializer {t : Trail} (h : t.Quiet) (x : String) (e : Expr) :
    ∀ s ∈ e.spots (.initializer x :: t), s.Posed := by
  intro s hs mark name _
  obtain ⟨mention, -, rfl⟩ := List.mem_map.1 hs
  refine (h.awaitsNone.inOwnInitializer_declare x name).trans ?_
  rw [Trail.here_cons_of_opened rfl, List.mem_cons, or_iff_left (h.here name),
    Enclosure.initializer.injEq]

theorem Param.allPosed (t : Trail) (before ps : List Param) :
    ∀ s ∈ Param.allSpots t before ps, s.Posed := by
  induction ps generalizing before with
  | nil => nofun
  | cons p ps ih => exact List.forall_mem_cons.2 ⟨Spot.posed_of_forall_ne nofun, ih _⟩

theorem Superclass.posed (t : Trail) (className : String) (superclass : Option Superclass) :
    ∀ s ∈ Superclass.spots t className superclass, s.Posed := by
  cases superclass with
  | none => nofun
  | some parent => exact List.forall_mem_singleton.2 (Spot.posed_of_forall_ne nofun)

mutual

theorem Routine.posed {t : Trail} (h : t.Quiet) : ∀ r : Routine, ∀ s ∈ r.spots t, s.Posed
  | .mk _ _ params body _ =>
      List.forall_mem_cons.2 ⟨Spot.posed_of_forall_ne nofun, List.forall_mem_append.2
        ⟨Param.allPosed t [] params, Decl.allPosed (h.routine params) [] body⟩⟩

theorem Routine.allPosed {t : Trail} (h : t.Quiet) : ∀ rs : List Routine,
    ∀ s ∈ Routine.allSpots t rs, s.Posed
  | [] => nofun
  | r :: rs => List.forall_mem_append.2 ⟨r.posed h, Routine.allPosed h rs⟩

theorem Decl.posed {t : Trail} (h : t.Quiet) : ∀ d : Decl, ∀ s ∈ d.spots t, s.Posed
  | .classDecl name _ superclass methods _ =>
      List.forall_mem_cons.2 ⟨Spot.posed_of_forall_ne nofun, List.forall_mem_append.2
        ⟨Superclass.posed _ name superclass,
          Routine.allPosed (h.classBody name superclass) methods⟩⟩
  | .funDecl routine _ =>
      List.forall_mem_cons.2 ⟨Spot.posed_of_forall_ne nofun, routine.posed (h.funDecl _)⟩
  | .varDecl _ _ none _ => List.forall_mem_singleton.2 (Spot.posed_of_forall_ne nofun)
  | .varDecl name _ (some value) _ =>
      List.forall_mem_cons.2 ⟨Spot.posed_of_forall_ne nofun, value.posed_initializer h name⟩
  | .statement stmt => stmt.posed h

theorem Decl.allPosed {t : Trail} (h : t.Quiet) (before : List Decl) : ∀ ds : List Decl,
    ∀ s ∈ Decl.allSpots t before ds, s.Posed
  | [] => nofun
  | d :: ds =>
      List.forall_mem_append.2 ⟨d.posed (h.after before), Decl.allPosed h (before ++ [d]) ds⟩

theorem Stmt.posed {t : Trail} (h : t.Quiet) : ∀ stmt : Stmt, ∀ s ∈ stmt.spots t, s.Posed
  | .expression e _ => e.posed h
  | .print e _ => e.posed h
  | .ret _ none _ => List.forall_mem_singleton.2 (Spot.posed_of_forall_ne nofun)
  | .ret _ (some value) _ =>
      List.forall_mem_cons.2 ⟨Spot.posed_of_forall_ne nofun, value.posed h⟩
  | .block body _ => Decl.allPosed h.block [] body
  | .ifElse condition thenBranch none _ =>
      List.forall_mem_append.2 ⟨condition.posed h, thenBranch.posed h⟩
  | .ifElse condition thenBranch (some elseBranch) _ =>
      List.forall_mem_append.2
        ⟨List.forall_mem_append.2 ⟨condition.posed h, thenBranch.posed h⟩, elseBranch.posed h⟩
  | .whileLoop condition body _ =>
      List.forall_mem_append.2 ⟨condition.posed h, body.posed h⟩

end

/-- **Resolution knows at each spot of a program whose initialiser it is in.** -/
theorem Program.posed (p : Program) : ∀ s ∈ p.spots, s.Posed := Decl.allPosed .nil [] _

/-! ### Errors -/

/-- The errors that resolution finds at a spot. -/
def Spot.errors (s : Spot) : List ScopeError := s.site.findings.filterMap Finding.error?

/-- A reference alone is no error. -/
theorem Context.errors_resolve (ctx : Context) (id : ExprId) (name : String) :
    (ctx.resolve id name).filterMap Finding.error? = [] := by
  unfold resolve
  cases ctx.distance? name <;> rfl

/-- A reference behind a fault. -/
theorem Context.errors_fault_resolve (ctx : Context) (id : ExprId) (name : String) (p : Prop)
    [Decidable p] (e : ScopeError) :
    ((if p then [Finding.faulty e] else []) ++ ctx.resolve id name).filterMap Finding.error? =
      if p then [e] else [] := by
  rw [List.filterMap_append, errors_resolve, List.append_nil]
  split <;> rfl

namespace Spot

variable (t : Trail) (mark : Mark) (name : String)

theorem errors_read : (mk t (.read mark name)).errors =
    if t.context.inOwnInitializer name = true then [⟨.ownInitializer, name, mark.span⟩] else [] :=
  Context.errors_fault_resolve _ _ _ _ _

theorem errors_parent (className : String) : (mk t (.parent mark name className)).errors =
    if name = className then [⟨.ownSuperclass, name, mark.span⟩] else [] :=
  Context.errors_fault_resolve _ _ _ _ _

theorem errors_receiver : (mk t (.receiver mark)).errors =
    match t.innermostClass? with
    | none => [⟨.thisOutsideClass, "this", mark.span⟩]
    | some _ => [] := by
  have hclass := t.classAround_context
  simp only [errors, site, Site.findings, hclass]
  cases t.innermostClass? with
  | none => rfl
  | some superclass => cases superclass <;> exact Context.errors_resolve _ _ _

theorem errors_ancestor : (mk t (.ancestor mark)).errors =
    match t.innermostClass? with
    | none => [⟨.superOutsideClass, "super", mark.span⟩]
    | some none => [⟨.superWithoutSuperclass, "super", mark.span⟩]
    | some (some _) => [] := by
  have hclass := t.classAround_context
  simp only [errors, site, Site.findings, hclass]
  cases t.innermostClass? with
  | none => rfl
  | some superclass =>
      cases superclass with
      | none => rfl
      | some parent => exact Context.errors_resolve _ _ _

/-- A name clashes with the names of the innermost scope. -/
theorem errors_declared (span : Span) : (mk t (.declared name span)).errors =
    match t.scopes with
    | [] => []
    | names :: _ => if name ∈ names then [⟨.alreadyDeclared, name, span⟩] else [] := by
  rw [← t.rows_context]
  unfold errors site Site.findings Context.clash Context.rows
  cases t.context.scopes with
  | nil => rfl
  | cons s ss =>
      simp only [List.map_cons, Context.declares_eq, List.contains_iff_mem]
      split <;> rfl

theorem errors_returned (keyword : Span) : (mk t (.returned keyword)).errors =
    if t.context.inRoutine = true then [] else [⟨.returnOutsideRoutine, "return", keyword⟩] :=
  apply_ite (List.filterMap Finding.error?) _ _ _

/-- **Resolution finds one error at an offending spot**, and none at another. -/
theorem Posed.errors {s : Spot} (h : s.Posed) :
    (s.errors = [] ∧ ∀ e, ¬s.Offends e) ∨ ∃ e, s.errors = [e] ∧ s.Offends e := by
  obtain ⟨t, mention⟩ := s
  cases mention with
  | read mark name =>
      have hposed : t.context.inOwnInitializer name = true ↔ .initializer name ∈ t.here :=
        h mark name rfl
      rw [errors_read]
      by_cases hinside : .initializer name ∈ t.here
      · exact .inr ⟨_, if_pos (hposed.2 hinside), .ownInitializer hinside⟩
      · refine .inl ⟨if_neg fun hown => hinside (hposed.1 hown), ?_⟩
        rintro _ ⟨⟩
        exact hinside ‹_›
  | write mark name =>
      exact .inl ⟨Context.errors_resolve _ _ _, Accepted.not_offends .assigned⟩
  | receiver mark =>
      rw [errors_receiver]
      cases hclass : t.innermostClass? with
      | none => exact .inr ⟨_, rfl, .receiver hclass⟩
      | some superclass =>
          refine .inl ⟨rfl, ?_⟩
          rintro _ ⟨⟩
          cases hclass.symm.trans ‹_›
  | ancestor mark =>
      rw [errors_ancestor]
      cases hclass : t.innermostClass? with
      | none => exact .inr ⟨_, rfl, .ancestor hclass⟩
      | some superclass =>
          cases superclass with
          | none => exact .inr ⟨_, rfl, .orphan hclass⟩
          | some parent =>
              refine .inl ⟨rfl, ?_⟩
              rintro _ (_ | _)
              all_goals cases hclass.symm.trans ‹_›
  | parent mark name className =>
      rw [errors_parent]
      by_cases hname : name = className
      · subst hname
        exact .inr ⟨_, if_pos rfl, .ownSuperclass⟩
      · refine .inl ⟨if_neg hname, ?_⟩
        rintro _ ⟨⟩
        exact hname rfl
  | declared name span =>
      rw [errors_declared]
      cases hscopes : t.scopes with
      | nil => exact .inl ⟨rfl, Accepted.not_offends (.global hscopes)⟩
      | cons names outer =>
          by_cases hmem : name ∈ names
          · exact .inr ⟨_, if_pos hmem, .redeclared hscopes hmem⟩
          · exact .inl ⟨if_neg hmem, Accepted.not_offends (.shadowing hscopes hmem)⟩
  | returned keyword =>
      rw [errors_returned]
      by_cases hinside : t.InRoutine
      · refine .inl ⟨if_pos (t.inRoutine_context.2 hinside), ?_⟩
        exact Accepted.not_offends (.returned hinside)
      · refine .inr ⟨_, if_neg fun hknown => ?_, .returned hinside⟩
        exact hinside (t.inRoutine_context.1 hknown)
  | routine r => exact .inl ⟨rfl, nofun⟩

end Spot

namespace Program

/-- **The errors of a program report its offending spots.** -/
theorem reports_scopeErrors (p : Program) : Reports p.spots p.scopeErrors := by
  have hposed := p.posed
  rw [scopeErrors, findings_eq, sites_eq_spots]
  generalize p.spots = spots at hposed
  induction spots with
  | nil => exact .nil
  | cons s spots ih =>
      obtain ⟨hs, hspots⟩ := List.forall_mem_cons.1 hposed
      rw [List.map_cons, List.flatMap_cons, List.filterMap_append]
      change Reports _ (s.errors ++ _)
      rcases hs.errors with ⟨herrors, hfine⟩ | ⟨e, herrors, hwrong⟩
      · rw [herrors]
        exact .passed hfine (ih hspots)
      · rw [herrors]
        exact .reported hwrong (ih hspots)

theorem resolve_eq_error_iff (p : Program) (errors : List ScopeError) :
    p.resolve = .error errors ↔ errors ≠ [] ∧ p.scopeErrors = errors := by
  unfold resolve
  cases p.scopeErrors with
  | nil =>
      constructor
      · nofun
      · rintro ⟨hne, rfl⟩
        exact absurd rfl hne
  | cons e es =>
      constructor
      · rintro ⟨⟩
        exact ⟨List.cons_ne_nil e es, rfl⟩
      · rintro ⟨-, rfl⟩
        rfl

theorem resolve_isOk_iff (p : Program) : (∃ rs, p.resolve = .ok rs) ↔ p.scopeErrors = [] := by
  unfold resolve
  cases p.scopeErrors with
  | nil => exact ⟨fun _ => rfl, fun _ => ⟨_, rfl⟩⟩
  | cons e es => exact ⟨nofun, nofun⟩

/-- **A program is rejected exactly for its offences.**  It is accepted if and only if no spot of it
offends; otherwise its errors report each offending spot once and no other.  A variable that gets
a value in its own initialiser does not offend, nor do a name that is new in its scope, a global
that is declared again, and a routine that returns. -/
theorem resolve_rejects_offences (p : Program) :
    ((∃ rs, p.resolve = .ok rs) ↔ ∀ s ∈ p.spots, ∀ e, ¬s.Offends e) ∧
      (∀ errors, p.resolve = .error errors ↔ errors ≠ [] ∧ Reports p.spots errors) ∧
      ∀ s : Spot, s.Accepted → ∀ e, ¬s.Offends e := by
  have hreports := p.reports_scopeErrors
  refine ⟨?_, fun errors => ?_, fun s hs => hs.not_offends⟩
  · rw [resolve_isOk_iff, hreports.eq_nil_iff]
  · rw [resolve_eq_error_iff]
    refine and_congr_right fun _ => ⟨fun h => h ▸ hreports, hreports.unique⟩

/-- A program with each of the offences, and with some mentions that may look like one. -/
theorem resolve_rejects_offences_of_each_sort :
    ∃ p errors, (ofSource
        ("var g = g; var g; \x7b var a; var a = a = a; \x7d return; fun f(p, p) \x7b " ++
          "var p; \x7d print this; super.m; class A < A \x7b init() \x7b class B \x7b " ++
          "m() \x7b super.m; return; \x7d \x7d return this; \x7d \x7d") .full).1 = .ok p ∧
      p.resolve = .error errors ∧
      errors.map (fun e => (e.fault, e.name, e.span.offset)) =
        [(.ownInitializer, "g", 8), (.alreadyDeclared, "a", 31), (.ownInitializer, "a", 39),
          (.returnOutsideRoutine, "return", 44), (.alreadyDeclared, "p", 61),
          (.alreadyDeclared, "p", 70), (.thisOutsideClass, "this", 81),
          (.superOutsideClass, "super", 87), (.ownSuperclass, "A", 106),
          (.superWithoutSuperclass, "super", 135)] ∧
      Reports p.spots errors := by
  have herrors :
      (match (ofSource
          ("var g = g; var g; \x7b var a; var a = a = a; \x7d return; fun f(p, p) \x7b " ++
            "var p; \x7d print this; super.m; class A < A \x7b init() \x7b class B \x7b " ++
            "m() \x7b super.m; return; \x7d \x7d return this; \x7d \x7d") .full).1 with
        | .ok p =>
            match p.resolve with
            | .error errors => some (errors.map fun e => (e.fault, e.name, e.span.offset))
            | .ok _ => none
        | .error _ => none) =
      some [(.ownInitializer, "g", 8), (.alreadyDeclared, "a", 31), (.ownInitializer, "a", 39),
        (.returnOutsideRoutine, "return", 44), (.alreadyDeclared, "p", 61),
        (.alreadyDeclared, "p", 70), (.thisOutsideClass, "this", 81),
        (.superOutsideClass, "super", 87), (.ownSuperclass, "A", 106),
        (.superWithoutSuperclass, "super", 135)] := by
    decide +kernel
  split at herrors
  · rename_i p hparse
    split at herrors
    · rename_i errors hresolve
      have hreports := ((resolve_rejects_offences p).2.1 errors).1 hresolve
      exact ⟨p, errors, hparse, hresolve, Option.some.inj herrors, hreports.2⟩
    · cases herrors
  · cases herrors

end Program

end Scriptlet
