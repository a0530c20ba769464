/-
**Where `super` is mentioned.**

A mention of `super` belongs to the innermost class around it: it may stand in blocks and functions
inside a method of that class, but not in the methods of a class further in.  Between the class and
the mention no scope declares `super`.  So the scope that does is as far from the outermost one
wherever in the class it is looked for, and there is one only if the class has a superclass.

Main definitions:

* `Scriptlet.Expr.supers`, `Scriptlet.Stmt.supers`, `Scriptlet.Decl.supers`,
  `Scriptlet.Routine.supers`, `Scriptlet.Task.supers` — **the mentions of `super` in a node or a
  task**, those in classes inside it left out;
* `Scriptlet.Context.level?` — how far out the scope of `super` is;
* `Scriptlet.Context.Beside` — contexts in the same class.

Main results:

* `Scriptlet.Decl.site_of_super`, `Scriptlet.Routine.site_of_super` — **a mention in a node stands
  in the same class as the node**;
* `Scriptlet.Decl.site_of_super_classDecl` — where a mention in the methods of a class stands;
* `Scriptlet.Task.supers_of_inner` — the tasks inside a task mention no other `super`.
-/

import Scriptlet.Proofs.Origin.Reserved

set_option relaxedAutoImplicit false
set_option autoImplicit false

namespace Scriptlet

/-! ### Mentions of `super` -/

/-- The mark of a mention of `super`. -/
def Mention.super? : Mention → Option Mark
  | .ancestor mark => some mark
  | _ => none

/-- The mentions of `super` in an expression. -/
def Expr.supers (e : Expr) : List Mark := e.mentions.filterMap Mention.super?

/-- The mentions of `super` in expressions. -/
def Expr.allSupers (es : List Expr) : List Mark := (Expr.allMentions es).filterMap Mention.super?

mutual

/-- The mentions of `super` in the body of a routine. -/
def Routine.supers : Routine → List Mark
  | .mk _ _ _ body _ => Decl.allSupers body
termination_by structural r => r

/-- The mentions of `super` in a declaration.  Those in the methods of a class belong to that
class. -/
def Decl.supers : Decl → List Mark
  | .classDecl _ _ _ _ _ => []
  | .funDecl routine _ => routine.supers
  | .varDecl _ _ none _ => []
  | .varDecl _ _ (some value) _ => value.supers
  | .statement stmt => stmt.supers
termination_by structural d => d

/-- The mentions of `super` in declarations that follow one another. -/
def Decl.allSupers : List Decl → List Mark
  | [] => []
  | d :: ds => d.supers ++ Decl.allSupers ds
termination_by structural ds => ds

/-- The mentions of `super` in a statement. -/
def Stmt.supers : Stmt → List Mark
  | .expression e _ => e.supers
  | .print e _ => e.supers
  | .ret _ none _ => []
  | .ret _ (some value) _ => value.supers
  | .block body _ => Decl.allSupers body
  | .ifElse condition thenBranch none _ => condition.supers ++ thenBranch.supers
  | .ifElse condition thenBranch (some elseBranch) _ =>
      condition.supers ++ thenBranch.supers ++ elseBranch.supers
  | .whileLoop condition body _ => condition.supers ++ body.supers
termination_by structural s => s

end

/-- The mentions of `super` in the methods of a class. -/
def Routine.allSupers (methods : List Routine) : List Mark := methods.flatMap Routine.supers

/-- The mentions of `super` in the text of a task. -/
def Task.supers : Task → List Mark
  | .evaluate e => e.supers
  | .evaluateAll es => Expr.allSupers es
  | .execute d => d.supers
  | .executeAll ds => Decl.allSupers ds
  | .perform stmt => stmt.supers
  | _ => []

theorem Routine.supers_eq (r : Routine) : r.supers = Decl.allSupers r.body := by
  cases r
  rfl

/-- What a declaration mentions is mentioned among the declarations. -/
theorem Decl.supers_subset_allSupers {d : Decl} {ds : List Decl} (h : d ∈ ds) :
    d.supers ⊆ Decl.allSupers ds := by
  induction ds with
  | nil => cases h
  | cons d' ds ih =>
      rcases List.mem_cons.1 h with rfl | h
      · exact List.subset_append_left ..
      · exact List.Subset.trans (ih h) (List.subset_append_right ..)

/-! ### The scope of `super` -/

namespace Context

/-- How many scopes there are from that of `super` outwards, itself counted. -/
def level? (ctx : Context) : Option Nat :=
  (ctx.distance? "super").map fun distance => ctx.rows.length - distance

/-- **Contexts in the same class**: the scope of `super` is as far out. -/
structure Beside (ctx ctx' : Context) : Prop where
  classAround : ctx'.classAround = ctx.classAround
  level : ctx'.level? = ctx.level?

variable {ctx ctx' ctx'' : Context}

theorem Beside.refl (ctx : Context) : ctx.Beside ctx := ⟨rfl, rfl⟩

theorem Beside.trans (h : ctx.Beside ctx') (h' : ctx'.Beside ctx'') : ctx.Beside ctx'' :=
  ⟨h'.classAround.trans h.classAround, h'.level.trans h.level⟩

theorem length_enterRow (name : String) (rows : List (List String)) :
    (enterRow name rows).length = rows.length := by
  cases rows <;> rfl

/-- A name that is not reserved hides neither the class nor its superclass. -/
theorem beside_enter (ctx : Context) {name : String} (h : Plain name) (ready : Bool) :
    ctx.Beside (ctx.enter name ready) := by
  refine ⟨ctx.classAround_enter name ready, ?_⟩
  rw [level?, level?, distance?_eq, distance?_eq, rows_enter, rowOf?_enterRow h.2.symm,
    length_enterRow]

theorem beside_after (ctx : Context) {d : Decl} (h : ∀ name ∈ d.name?, Plain name) :
    ctx.Beside (d.after ctx) := by
  cases d with
  | statement stmt => exact .refl ctx
  | _ => exact ctx.beside_enter (h _ rfl) true

/-- In a block the scope of `super` is where it is outside. -/
theorem beside_opening (ctx : Context) : ctx.Beside (ctx.opening []) := by
  refine ⟨rfl, ?_⟩
  rw [level?, level?, distance?_eq, distance?_eq, rows_opening, rowOf?_cons,
    if_neg List.not_mem_nil, Option.map_map]
  congr 1
  funext distance
  exact Nat.add_sub_add_right ctx.rows.length 1 distance

/-- In a routine the scope of `super` is where it is outside. -/
theorem beside_inRoutineOf (ctx : Context) {params : List Param}
    (h : ∀ p ∈ params, Plain p.name) : ctx.Beside (ctx.inRoutineOf params) := by
  -- the parameters are entered one by one into the scope that has been opened
  have main : ∀ ps : List Param, (∀ p ∈ ps, Plain p.name) → ∀ c : Context,
      c.Beside (ps.foldl (fun c p => c.define p.name) c) := by
    intro ps
    induction ps with
    | nil => exact fun _ c => .refl c
    | cons p ps ih =>
        intro hps c
        have hfirst : c.Beside (c.define p.name) :=
          c.beside_enter (hps p (List.mem_cons_self ..)) true
        exact hfirst.trans (ih (fun q hq => hps q (List.mem_cons_of_mem p hq)) (c.define p.name))
  have hopened : ctx.Beside { ctx.opening [] with inRoutine := true } :=
    ⟨ctx.beside_opening.classAround, ctx.beside_opening.level⟩
  exact hopened.trans (main params h _)

/-- In the methods of a class with a superclass the scope of `super` is the innermost one but that
of `this`. -/
theorem level?_inClass (ctx : Context) (parent : Superclass) :
    (ctx.inClass (some parent)).level? = some (ctx.rows.length + 1) := by
  rw [level?, distance?_eq, rows_inClass]
  simp [rowOf?_cons]

end Context

/-! ### The sites of mentions -/

section Sites

variable {K : Known} {distances : ResolutionMap} {mark : Mark} {ctx : Context}

/-- A mention in an expression stands where the expression does. -/
theorem Expr.site_of_super {e : Expr} (h : mark ∈ e.supers) (ctx : Context) :
    ⟨ctx, .ancestor mark⟩ ∈ e.sites ctx := by
  obtain ⟨mention, hmention, hmark⟩ := List.mem_filterMap.1 h
  cases mention with
  | ancestor mark' =>
      cases hmark
      rw [sites_eq_mentions]
      exact List.mem_map_of_mem hmention
  | _ => cases hmark

/-- **A mention of `super` among sites**, in the same class as a context. -/
def SuperAmong (sites : List Site) (ctx : Context) (mark : Mark) : Prop :=
  ∃ ctx', ⟨ctx', .ancestor mark⟩ ∈ sites ∧ ctx.Beside ctx'

namespace SuperAmong

variable {sites sites' : List Site} {ctx' : Context}

theorem mono (h : SuperAmong sites ctx mark) (hsites : sites ⊆ sites') :
    SuperAmong sites' ctx mark := by
  obtain ⟨ctx', hsite, hbeside⟩ := h
  exact ⟨ctx', hsites hsite, hbeside⟩

theorem of_beside (h : SuperAmong sites ctx' mark) (hbeside : ctx.Beside ctx') :
    SuperAmong sites ctx mark := by
  obtain ⟨ctx'', hsite, hbeside'⟩ := h
  exact ⟨ctx'', hsite, hbeside.trans hbeside'⟩

theorem expr {e : Expr} (h : mark ∈ e.supers) (ctx : Context) :
    SuperAmong (e.sites ctx) ctx mark := ⟨ctx, e.site_of_super h ctx, .refl ctx⟩

end SuperAmong

/-- The name of a declaration in order is not reserved. -/
theorem Decl.plain_of_fit {d : Decl} (hfit : Fit K distances (d.sites ctx)) :
    ∀ name ∈ d.name?, Plain name := fun name hname => by
  obtain ⟨span, hsite⟩ := exists_site_of_name? hname ctx
  exact (hfit _ hsite).2.1

mutual

/-- **A mention in a routine stands in the same class as the routine.** -/
theorem Routine.site_of_super : ∀ (r : Routine) {ctx : Context}, Fit K distances (r.sites ctx) →
    mark ∈ r.supers → SuperAmong (r.sites ctx) ctx mark
  | .mk label name params body span, ctx, hfit, h => by
      rw [Routine.sites, fit_cons, fit_append] at hfit
      have hrows : ({ ctx.opening [] with inRoutine := true } : Context).rows = [] :: ctx.rows :=
        Context.rows_opening ctx []
      have hplain : ∀ p ∈ params, Plain p.name := fun p hp =>
        ((Param.names_of_fit hrows hfit.2.1).1 p hp).1
      have hbody := (Decl.allSites_super body hfit.2.2 h).of_beside (ctx.beside_inRoutineOf hplain)
      exact hbody.mono fun site hsite => .tail _ (List.mem_append_right _ hsite)

/-- **A mention in a declaration stands in the same class as the declaration.** -/
theorem Decl.site_of_super : ∀ (d : Decl) {ctx : Context}, Fit K distances (d.sites ctx) →
    mark ∈ d.supers → SuperAmong (d.sites ctx) ctx mark
  | .classDecl _ _ _ _ _, _, _, h => by cases h
  | .funDecl routine span, ctx, hfit, h => by
      have hbeside := ctx.beside_enter (Decl.plain_of_fit hfit _ rfl) true
      have hroutine := routine.site_of_super (fit_cons.1 hfit).2 h
      exact (hroutine.of_beside hbeside).mono (List.subset_cons_self ..)
  | .varDecl _ _ none _, _, _, h => by cases h
  | .varDecl name nameSpan (some value) span, ctx, hfit, h => by
      have hbeside := ctx.beside_enter (Decl.plain_of_fit hfit _ rfl) false
      have hvalue := SuperAmong.expr h { ctx.declare name with initializing := some name }
      refine (hvalue.of_beside ?_).mono (List.subset_cons_self ..)
      exact ⟨hbeside.classAround, hbeside.level⟩
  | .statement stmt, _, hfit, h => stmt.site_of_super hfit h

/-- A mention in declarations that follow one another stands in the same class as they do. -/
theorem Decl.allSites_super : ∀ (ds : List Decl) {ctx : Context},
    Fit K distances (Decl.allSites ctx ds) → mark ∈ Decl.allSupers ds →
    SuperAmong (Decl.allSites ctx ds) ctx mark
  | [], _, _, h => by cases h
  | d :: ds, ctx, hfit, h => by
      obtain ⟨hd, hds⟩ := fit_append.1 hfit
      rcases List.mem_append.1 h with h | h
      · exact (d.site_of_super hd h).mono (List.subset_append_left ..)
      · have hbeside := ctx.beside_after (d.plain_of_fit hd)
        have hrest := (Decl.allSites_super ds hds h).of_beside hbeside
        exact hrest.mono (List.subset_append_right ..)

/-- **A mention in a statement stands in the same class as the statement.** -/
theorem Stmt.site_of_super : ∀ (stmt : Stmt) {ctx : Context}, Fit K distances (stmt.sites ctx) →
    mark ∈ stmt.supers → SuperAmong (stmt.sites ctx) ctx mark
  | .expression _ _, ctx, _, h => .expr h ctx
  | .print _ _, ctx, _, h => .expr h ctx
  | .ret _ none _, _, _, h => by cases h
  | .ret _ (some _) _, ctx, _, h => (SuperAmong.expr h ctx).mono (List.subset_cons_self ..)
  | .block body _, ctx, hfit, h => (Decl.allSites_super body hfit h).of_beside ctx.beside_opening
  | .ifElse condition thenBranch none _, ctx, hfit, h => by
      obtain ⟨hcondition, hthen⟩ := fit_append.1 hfit
      rcases List.mem_append.1 h with h | h
      · exact (SuperAmong.expr h ctx).mono (List.subset_append_left ..)
      · exact (thenBranch.site_of_super hthen h).mono (List.subset_append_right ..)
  | .ifElse condition thenBranch (some elseBranch) _, ctx, hfit, h => by
      obtain ⟨hfront, helse⟩ := fit_append.1 hfit
      obtain ⟨hcondition, hthen⟩ := fit_append.1 hfront
      rcases List.mem_append.1 h with h | h
      · refine SuperAmong.mono ?_ (List.subset_append_left ..)
        rcases List.mem_append.1 h with h | h
        · exact (SuperAmong.expr h ctx).mono (List.subset_append_left ..)
        · exact (thenBranch.site_of_super hthen h).mono (List.subset_append_right ..)
      · exact (elseBranch.site_of_super helse h).mono (List.subset_append_right ..)
  | .whileLoop condition body _, ctx, hfit, h => by
      obtain ⟨hcondition, hbody⟩ := fit_append.1 hfit
      rcases List.mem_append.1 h with h | h
      · exact (SuperAmong.expr h ctx).mono (List.subset_append_left ..)
      · exact (body.site_of_super hbody h).mono (List.subset_append_right ..)

end

/-- The sites of a method are among those of the methods. -/
theorem Routine.sites_subset_allSites {r : Routine} {methods : List Routine} (h : r ∈ methods) :
    r.sites ctx ⊆ Routine.allSites ctx methods := by
  induction methods with
  | nil => cases h
  | cons q qs ih =>
      rcases List.mem_cons.1 h with rfl | h
      · exact List.subset_append_left ..
      · exact List.Subset.trans (ih h) (List.subset_append_right ..)

/-- **A mention in the methods of a class** stands inside a routine of a class with a superclass,
and the scope of `super` is in front of those of the class declaration. -/
theorem Decl.site_of_super_classDecl {name : String} {nameSpan span : Span}
    {superclass : Option Superclass} {methods : List Routine}
    (hfit : Fit K distances ((Decl.classDecl name nameSpan superclass methods span).sites ctx))
    (h : mark ∈ Routine.allSupers methods) :
    superclass.isSome = true ∧ ∃ ctx', K ⟨ctx', .ancestor mark⟩ ∧ ctx'.inRoutine = true ∧
      ctx'.level? = some (ctx.rows.length + 1) := by
  have hplain := Decl.plain_of_fit hfit name rfl
  rw [Decl.sites, fit_cons, fit_append] at hfit
  obtain ⟨-, -, hmethods⟩ := hfit
  obtain ⟨r, hr, hmark⟩ := List.mem_flatMap.1 h
  have hroutine : Fit K distances (r.sites ((ctx.declare name).inClass superclass)) :=
    fun site hsite => hmethods site (Routine.sites_subset_allSites hr hsite)
  obtain ⟨ctx', hsite, hbeside⟩ := r.site_of_super hroutine hmark
  obtain ⟨known, hderived, -⟩ := hroutine _ hsite
  rw [hbeside.classAround] at hderived
  cases superclass with
  | none => cases hderived
  | some parent =>
      refine ⟨rfl, ctx', known, ?_, ?_⟩
      · have hinner := Routine.inner ((ctx.declare name).inClass (some parent)) r
        obtain ⟨label, rname, params, body, rspan⟩ := r
        rcases List.mem_cons.1 hsite with heq | hsite
        · cases heq
        · exact hinner _ hsite
      · rw [hbeside.level, Context.level?_inClass, Context.rows_declare, Context.length_enterRow]

end Sites

/-! ### Tasks inside tasks -/

section Tasks

variable {u : Task}

/-- What an expression mentions, the expressions around it mention. -/
theorem Expr.supers_subset {e : Expr} {mentions : List Mention} (h : mentions ⊆ e.mentions) :
    mentions.filterMap Mention.super? ⊆ e.supers := List.filterMap_subset _ h

theorem Expr.supers_of_inner (e : Expr) (h : u ∈ e.innerTasks) : u.supers ⊆ e.supers := by
  cases e with
  | grouping mark inner | unary mark op inner | get mark inner name =>
      rw [List.mem_singleton.1 h]
      exact List.Subset.refl _
  | assign mark name value =>
      rw [List.mem_singleton.1 h]
      exact supers_subset (List.subset_append_left ..)
  | binary mark left op opSpan right | logical mark left op right =>
      rcases List.mem_cons.1 h with rfl | h
      · exact supers_subset (List.subset_append_left ..)
      · rw [List.mem_singleton.1 h]
        exact supers_subset (List.subset_append_right ..)
  | set mark object name value =>
      rcases List.mem_cons.1 h with rfl | h
      · exact supers_subset (List.subset_append_right ..)
      · rw [List.mem_singleton.1 h]
        exact supers_subset (List.subset_append_left ..)
  | ternary mark condition question thenBranch elseBranch =>
      have hfront : condition.mentions ++ thenBranch.mentions ⊆
          (Expr.ternary mark condition question thenBranch elseBranch).mentions :=
        List.subset_append_left ..
      rcases List.mem_cons.1 h with rfl | h
      · exact supers_subset (List.Subset.trans (List.subset_append_left ..) hfront)
      · rcases List.mem_cons.1 h with rfl | h
        · exact supers_subset (List.Subset.trans (List.subset_append_right ..) hfront)
        · rw [List.mem_singleton.1 h]
          exact supers_subset (List.subset_append_right ..)
  | call mark callee arguments paren =>
      rcases List.mem_cons.1 h with rfl | h
      · exact supers_subset (List.subset_append_left ..)
      · rw [List.mem_singleton.1 h]
        exact supers_subset (List.subset_append_right ..)
  | _ => cases h

theorem Stmt.supers_of_inner (stmt : Stmt) (h : u ∈ stmt.innerTasks) : u.supers ⊆ stmt.supers := by
  cases stmt with
  | expression e span | print e span =>
      rw [List.mem_singleton.1 h]
      exact List.Subset.refl _
  | ret keyword value span =>
      cases value with
      | none => cases h
      | some value =>
          rw [List.mem_singleton.1 h]
          exact List.Subset.refl _
  | block body span => cases h
  | ifElse condition thenBranch elseBranch span =>
      cases elseBranch with
      | none =>
          rcases List.mem_cons.1 h with rfl | h
          · exact List.subset_append_left ..
          · rw [List.mem_singleton.1 h]
            exact List.subset_append_right ..
      | some elseBranch =>
          have hfront : condition.supers ++ thenBranch.supers ⊆
              (Stmt.ifElse condition thenBranch (some elseBranch) span).supers :=
            List.subset_append_left ..
          rcases List.mem_cons.1 h with rfl | h
          · exact List.Subset.trans (List.subset_append_left ..) hfront
          · rcases List.mem_cons.1 h with rfl | h
            · exact List.Subset.trans (List.subset_append_right ..) hfront
            · rw [List.mem_singleton.1 h]
              exact List.subset_append_right ..
  | whileLoop condition body span =>
      rcases List.mem_cons.1 h with rfl | h
      · exact List.subset_append_left ..
      · rcases List.mem_cons.1 h with rfl | h
        · exact List.subset_append_right ..
        · rw [List.mem_singleton.1 h]
          exact List.Subset.refl _

/-- **The tasks inside a task mention no other `super`.** -/
theorem Task.supers_of_inner {t : Task} (h : u ∈ t.inner) : u.supers ⊆ t.supers := by
  cases t with
  | evaluate e => exact e.supers_of_inner h
  | evaluateAll es =>
      cases es with
      | nil => cases h
      | cons e es =>
          have hsupers : Expr.allSupers (e :: es) = e.supers ++ Expr.allSupers es :=
            List.filterMap_append ..
          change u.supers ⊆ Expr.allSupers (e :: es)
          rw [hsupers]
          rcases List.mem_cons.1 h with rfl | h
          · exact List.subset_append_left ..
          · rw [List.mem_singleton.1 h]
            exact List.subset_append_right ..
  | execute d =>
      cases d with
      | varDecl name nameSpan initializer span =>
          cases initializer with
          | none => cases h
          | some value =>
              rw [List.mem_singleton.1 h]
              exact List.Subset.refl _
      | statement stmt =>
          rw [List.mem_singleton.1 h]
          exact List.Subset.refl _
      | _ => cases h
  | executeAll ds =>
      cases ds with
      | nil => cases h
      | cons d ds =>
          rcases List.mem_cons.1 h with rfl | h
          · exact List.subset_append_left ..
          · rw [List.mem_singleton.1 h]
            exact List.subset_append_right ..
  | perform stmt => exact stmt.supers_of_inner h
  | _ => cases h

end Tasks

end Scriptlet
