/-
**The places at which a program mentions names.**

Resolution passes through a program once and looks at certain places only: where a name is read,
written or declared, where `this`, `super`, a superclass or `return` stands, and where a routine
begins.  Such a place together with the context in which resolution meets it is a *site*.  What
resolution finds in a program is what it finds at its sites, one after the other.

Main definitions:

* `Scriptlet.Mention`, `Scriptlet.Site` — what a program mentions at a place, and in which context;
* `Scriptlet.Expr.sites`, `Scriptlet.Stmt.sites`, `Scriptlet.Decl.sites`,
  `Scriptlet.Routine.sites`, `Scriptlet.Program.sites` — the sites of a node, in the order of
  resolution;
* `Scriptlet.Site.findings`, `Scriptlet.Site.reference?` — what resolution finds at a site, and
  the number and name of the reference there.

Main results:

* `Scriptlet.Program.findings_eq` — **what resolution finds in a program is what it finds at its
  sites**;
* `Scriptlet.Program.resolve_eq_ok` — a program is accepted exactly if no site is faulty, and its
  resolutions are those of its sites.
-/

import Scriptlet.Scope

set_option relaxedAutoImplicit false
set_option autoImplicit false

namespace Scriptlet

/-! ### Sites -/

/-- What a program mentions at a place. -/
inductive Mention
  /-- A variable whose value is read. -/
  | read (mark : Mark) (name : String)
  /-- A variable that gets a value. -/
  | write (mark : Mark) (name : String)
  /-- The receiver of the method around. -/
  | receiver (mark : Mark)
  /-- The superclass of the class around. -/
  | ancestor (mark : Mark)
  /-- The superclass in the declaration of a class. -/
  | parent (mark : Mark) (name className : String)
  /-- A name that is declared. -/
  | declared (name : String) (span : Span)
  /-- A `return`. -/
  | returned (keyword : Span)
  /-- A routine, which may be called later. -/
  | routine (routine : Routine)

/-- A place at which a program mentions something, and the context in which it does. -/
structure Site where
  /-- The context of the place. -/
  ctx : Context
  /-- What the program mentions there. -/
  mention : Mention

namespace Site

/-- What resolution finds at a site. -/
def findings (s : Site) : List Finding :=
  match s.mention with
  | .read mark name =>
      (if s.ctx.inOwnInitializer name then [.faulty ⟨.ownInitializer, name, mark.span⟩] else [])
        ++ s.ctx.resolve mark.id name
  | .write mark name => s.ctx.resolve mark.id name
  | .receiver mark =>
      if s.ctx.classAround = .none then [.faulty ⟨.thisOutsideClass, "this", mark.span⟩]
      else s.ctx.resolve mark.id "this"
  | .ancestor mark =>
      match s.ctx.classAround with
      | .none => [.faulty ⟨.superOutsideClass, "super", mark.span⟩]
      | .plain => [.faulty ⟨.superWithoutSuperclass, "super", mark.span⟩]
      | .derived => s.ctx.resolve mark.id "super"
  | .parent mark name className =>
      (if name = className then [.faulty ⟨.ownSuperclass, name, mark.span⟩] else [])
        ++ s.ctx.resolve mark.id name
  | .declared name span => s.ctx.clash name span
  | .returned keyword =>
      if s.ctx.inRoutine then [] else [.faulty ⟨.returnOutsideRoutine, "return", keyword⟩]
  | .routine _ => []

/-- The number and the name of the reference at a site. -/
def reference? (s : Site) : Option (ExprId × String) :=
  match s.mention with
  | .read mark name | .write mark name | .parent mark name _ => some (mark.id, name)
  | .receiver mark => some (mark.id, "this")
  | .ancestor mark => some (mark.id, "super")
  | .declared _ _ | .returned _ | .routine _ => none

/-- The routine at a site. -/
def routine? (s : Site) : Option Routine :=
  match s.mention with
  | .routine r => some r
  | _ => none

/-- The name that is written at a site. -/
def name? (s : Site) : Option String :=
  match s.mention with
  | .read _ name | .write _ name | .parent _ name _ | .declared name _ => some name
  | _ => none

end Site

/-! ### The sites of a program -/

mutual

/-- The sites of an expression, in the order of resolution. -/
def Expr.sites (ctx : Context) : Expr → List Site
  | .constant _ _ => []
  | .grouping _ inner => inner.sites ctx
  | .unary _ _ operand => operand.sites ctx
  | .binary _ left _ _ right => left.sites ctx ++ right.sites ctx
  | .logical _ left _ right => left.sites ctx ++ right.sites ctx
  | .ternary _ condition _ thenBranch elseBranch =>
      condition.sites ctx ++ thenBranch.sites ctx ++ elseBranch.sites ctx
  | .variable mark name => [⟨ctx, .read mark name⟩]
  | .assign mark name value => value.sites ctx ++ [⟨ctx, .write mark name⟩]
  | .call _ callee arguments _ => callee.sites ctx ++ Expr.allSites ctx arguments
  | .get _ object _ => object.sites ctx
  | .set _ object _ value => value.sites ctx ++ object.sites ctx
  | .thisRef mark => [⟨ctx, .receiver mark⟩]
  | .superRef mark _ => [⟨ctx, .ancestor mark⟩]
termination_by structural e => e

/-- The sites of expressions. -/
def Expr.allSites (ctx : Context) : List Expr → List Site
  | [] => []
  | e :: es => e.sites ctx ++ Expr.allSites ctx es
termination_by structural es => es

end

/-- The sites of parameters. -/
def Param.allSites (ctx : Context) : List Param → List Site
  | [] => []
  | p :: ps => ⟨ctx, .declared p.name p.span⟩ :: Param.allSites (ctx.define p.name) ps

/-- The site of a superclass. -/
def Superclass.sites (ctx : Context) (className : String) : Option Superclass → List Site
  | none => []
  | some parent => [⟨ctx, .parent parent.mark parent.name className⟩]

mutual

/-- The sites of a routine, the routine itself being the first. -/
def Routine.sites (ctx : Context) : Routine → List Site
  | .mk label name params body span =>
      ⟨ctx, .routine (.mk label name params body span)⟩
        :: (Param.allSites { ctx.opening [] with inRoutine := true } params
          ++ Decl.allSites (ctx.inRoutineOf params) body)
termination_by structural r => r

/-- The sites of routines that stand side by side. -/
def Routine.allSites (ctx : Context) : List Routine → List Site
  | [] => []
  | r :: rs => r.sites ctx ++ Routine.allSites ctx rs
termination_by structural rs => rs

/-- The sites of a declaration. -/
def Decl.sites (ctx : Context) : Decl → List Site
  | .classDecl name nameSpan superclass methods _ =>
      ⟨ctx, .declared name nameSpan⟩ :: (Superclass.sites (ctx.declare name) name superclass
        ++ Routine.allSites ((ctx.declare name).inClass superclass) methods)
  | .funDecl routine _ =>
      ⟨ctx, .declared routine.name routine.span⟩ :: routine.sites (ctx.define routine.name)
  | .varDecl name nameSpan none _ => [⟨ctx, .declared name nameSpan⟩]
  | .varDecl name nameSpan (some value) _ =>
      ⟨ctx, .declared name nameSpan⟩
        :: value.sites { ctx.declare name with initializing := some name }
  | .statement stmt => stmt.sites ctx
termination_by structural d => d

/-- The sites of declarations that follow one another. -/
def Decl.allSites (ctx : Context) : List Decl → List Site
  | [] => []
  | d :: ds => d.sites ctx ++ Decl.allSites (d.after ctx) ds
termination_by structural ds => ds

/-- The sites of a statement. -/
def Stmt.sites (ctx : Context) : Stmt → List Site
  | .expression e _ => e.sites ctx
  | .print e _ => e.sites ctx
  | .ret keyword none _ => [⟨ctx, .returned keyword⟩]
  | .ret keyword (some value) _ => ⟨ctx, .returned keyword⟩ :: value.sites ctx
  | .block body _ => Decl.allSites (ctx.opening []) body
  | .ifElse condition thenBranch none _ => condition.sites ctx ++ thenBranch.sites ctx
  | .ifElse condition thenBranch (some elseBranch) _ =>
      condition.sites ctx ++ thenBranch.sites ctx ++ elseBranch.sites ctx
  | .whileLoop condition body _ => condition.sites ctx ++ body.sites ctx
termination_by structural s => s

end

/-- The sites of a program. -/
def Program.sites (p : Program) : List Site := Decl.allSites .global p.declarations

/-! ### What resolution finds at the sites -/

mutual

theorem Expr.findings_eq (ctx : Context) : ∀ e : Expr,
    e.findings ctx = (e.sites ctx).flatMap Site.findings
  | .constant _ _ => rfl
  | .grouping _ inner => inner.findings_eq ctx
  | .unary _ _ operand => operand.findings_eq ctx
  | .binary _ left _ _ right => by
      simp only [Expr.findings, Expr.sites, List.flatMap_append, left.findings_eq ctx,
        right.findings_eq ctx]
  | .logical _ left _ right => by
      simp only [Expr.findings, Expr.sites, List.flatMap_append, left.findings_eq ctx,
        right.findings_eq ctx]
  | .ternary _ condition _ thenBranch elseBranch => by
      simp only [Expr.findings, Expr.sites, List.flatMap_append, condition.findings_eq ctx,
        thenBranch.findings_eq ctx, elseBranch.findings_eq ctx]
  | .variable _ _ => (List.append_nil _).symm
  | .assign _ _ value => by
      simp only [Expr.findings, Expr.sites, List.flatMap_append, value.findings_eq ctx]
      simp only [List.flatMap_cons, List.flatMap_nil, List.append_nil, Site.findings]
  | .call _ callee arguments _ => by
      simp only [Expr.findings, Expr.sites, List.flatMap_append, callee.findings_eq ctx,
        Expr.allFindings_eq ctx arguments]
  | .get _ object _ => object.findings_eq ctx
  | .set _ object _ value => by
      simp only [Expr.findings, Expr.sites, List.flatMap_append, object.findings_eq ctx,
        value.findings_eq ctx]
  | .thisRef _ => (List.append_nil _).symm
  | .superRef _ _ => (List.append_nil _).symm

theorem Expr.allFindings_eq (ctx : Context) : ∀ es : List Expr,
    Expr.allFindings ctx es = (Expr.allSites ctx es).flatMap Site.findings
  | [] => rfl
  | e :: es => by
      simp only [Expr.allFindings, Expr.allSites, List.flatMap_append, e.findings_eq ctx,
        Expr.allFindings_eq ctx es]

end

theorem Param.allFindings_eq (ctx : Context) (ps : List Param) :
    Param.allFindings ctx ps = (Param.allSites ctx ps).flatMap Site.findings := by
  induction ps generalizing ctx with
  | nil => rfl
  | cons p ps ih => simp only [Param.allFindings, Param.allSites, List.flatMap_cons, ih,
      Site.findings]

theorem Superclass.findings_eq (ctx : Context) (className : String)
    (superclass : Option Superclass) :
    Superclass.findings ctx className superclass =
      (Superclass.sites ctx className superclass).flatMap Site.findings := by
  cases superclass with
  | none => rfl
  | some parent => exact (List.append_nil _).symm

mutual

theorem Routine.findings_eq (ctx : Context) : ∀ r : Routine,
    r.findings ctx = (r.sites ctx).flatMap Site.findings
  | .mk _ _ params body _ => by
      simp only [Routine.findings, Routine.sites, List.flatMap_cons, List.flatMap_append,
        Param.allFindings_eq, Decl.allFindings_eq _ body]
      rfl

theorem Routine.allFindings_eq (ctx : Context) : ∀ rs : List Routine,
    Routine.allFindings ctx rs = (Routine.allSites ctx rs).flatMap Site.findings
  | [] => rfl
  | r :: rs => by
      simp only [Routine.allFindings, Routine.allSites, List.flatMap_append, r.findings_eq ctx,
        Routine.allFindings_eq ctx rs]

theorem Decl.findings_eq (ctx : Context) : ∀ d : Decl,
    d.findings ctx = (d.sites ctx).flatMap Site.findings
  | .classDecl _ _ _ methods _ => by
      simp only [Decl.findings, Decl.sites, List.flatMap_cons, List.flatMap_append,
        Superclass.findings_eq, Routine.allFindings_eq _ methods, List.append_assoc]
      rfl
  | .funDecl routine _ => by
      simp only [Decl.findings, Decl.sites, List.flatMap_cons, routine.findings_eq]
      rfl
  | .varDecl _ _ none _ => (List.append_nil _).symm
  | .varDecl _ _ (some value) _ => by
      simp only [Decl.findings, Decl.sites, List.flatMap_cons, value.findings_eq]
      rfl
  | .statement stmt => stmt.findings_eq ctx

theorem Decl.allFindings_eq (ctx : Context) : ∀ ds : List Decl,
    Decl.allFindings ctx ds = (Decl.allSites ctx ds).flatMap Site.findings
  | [] => rfl
  | d :: ds => by
      simp only [Decl.allFindings, Decl.allSites, List.flatMap_append, d.findings_eq ctx,
        Decl.allFindings_eq _ ds]

theorem Stmt.findings_eq (ctx : Context) : ∀ s : Stmt,
    s.findings ctx = (s.sites ctx).flatMap Site.findings
  | .expression e _ => e.findings_eq ctx
  | .print e _ => e.findings_eq ctx
  | .ret _ none _ => rfl
  | .ret _ (some value) _ => by
      simp only [Stmt.findings, Stmt.sites, List.flatMap_cons, Option.toList, List.flatMap_nil,
        List.append_nil, value.findings_eq ctx]
      rfl
  | .block body _ => Decl.allFindings_eq _ body
  | .ifElse condition thenBranch none _ => by
      simp only [Stmt.findings, Stmt.sites, List.flatMap_append, condition.findings_eq ctx,
        thenBranch.findings_eq ctx]
  | .ifElse condition thenBranch (some elseBranch) _ => by
      simp only [Stmt.findings, Stmt.sites, List.flatMap_append, condition.findings_eq ctx,
        thenBranch.findings_eq ctx, elseBranch.findings_eq ctx]
  | .whileLoop condition body _ => by
      simp only [Stmt.findings, Stmt.sites, List.flatMap_append, condition.findings_eq ctx,
        body.findings_eq ctx]

end

/-- **What resolution finds in a program is what it finds at its sites.** -/
theorem Program.findings_eq (p : Program) : p.findings = p.sites.flatMap Site.findings :=
  Decl.allFindings_eq .global p.declarations

/-! ### Accepted programs -/

namespace Site

/-- A site at which resolution finds no fault. -/
def Faultless (s : Site) : Prop := ∀ f ∈ s.findings, f.error? = none

/-- The resolution at a site, if it has a reference and the name is local there. -/
def resolution? (s : Site) : Option Resolution :=
  match s.reference? with
  | some (id, name) => (s.ctx.distance? name).map fun d => ⟨id, d, s.ctx.inRoutine⟩
  | none => none

theorem resolve_resolutions (ctx : Context) (id : ExprId) (name : String) :
    (ctx.resolve id name).filterMap Finding.resolution? =
      ((ctx.distance? name).map fun d => ⟨id, d, ctx.inRoutine⟩).toList := by
  unfold Context.resolve
  cases ctx.distance? name <;> rfl

/-- At a site without fault nothing but its resolution is found. -/
theorem Faultless.resolutions {s : Site} (h : s.Faultless) :
    s.findings.filterMap Finding.resolution? = s.resolution?.toList := by
  obtain ⟨ctx, mention⟩ := s
  unfold Faultless at h
  cases mention with
  | read mark name =>
      simp only [findings] at h ⊢
      split at h
      · have := h _ (List.mem_append_left _ (List.mem_singleton.2 rfl))
        cases this
      · rename_i hown
        rw [if_neg hown, List.nil_append]
        exact resolve_resolutions ctx mark.id name
  | write mark name => exact resolve_resolutions ctx mark.id name
  | receiver mark =>
      simp only [findings] at h ⊢
      split at h
      · have := h _ (List.mem_singleton.2 rfl)
        cases this
      · rename_i hclass
        rw [if_neg hclass]
        exact resolve_resolutions ctx mark.id "this"
  | ancestor mark =>
      simp only [findings] at h ⊢
      split at h
      · have := h _ (List.mem_singleton.2 rfl)
        cases this
      · have := h _ (List.mem_singleton.2 rfl)
        cases this
      · exact resolve_resolutions ctx mark.id "super"
  | parent mark name className =>
      simp only [findings] at h ⊢
      split at h
      · have := h _ (List.mem_append_left _ (List.mem_singleton.2 rfl))
        cases this
      · rename_i hown
        rw [if_neg hown, List.nil_append]
        exact resolve_resolutions ctx mark.id name
  | declared name span =>
      simp only [findings, Context.clash] at h ⊢
      split at h
      · rfl
      · split at h
        · have := h _ (List.mem_singleton.2 rfl)
          cases this
        · rename_i hclash
          rw [if_neg hclash]
          rfl
  | returned keyword =>
      simp only [findings]
      split <;> rfl
  | routine r => rfl

end Site

/-- **A program is accepted exactly if no site of it is faulty**, and then its resolutions are those
of its sites. -/
theorem Program.resolve_eq_ok {p : Program} {rs : List Resolution} :
    p.resolve = .ok rs ↔
      (∀ s ∈ p.sites, s.Faultless) ∧ rs = p.sites.filterMap Site.resolution? := by
  have herrors : p.scopeErrors = [] ↔ ∀ s ∈ p.sites, s.Faultless := by
    unfold scopeErrors
    rw [p.findings_eq, List.filterMap_eq_nil_iff]
    constructor
    · intro h s hs f hf
      exact h f (List.mem_flatMap.2 ⟨s, hs, hf⟩)
    · intro h f hf
      obtain ⟨s, hs, hf⟩ := List.mem_flatMap.1 hf
      exact h s hs f hf
  have hresolutions : (∀ s ∈ p.sites, s.Faultless) →
      p.resolutions = p.sites.filterMap Site.resolution? := by
    unfold resolutions
    rw [p.findings_eq]
    generalize p.sites = sites
    intro h
    induction sites with
    | nil => rfl
    | cons s sites ih =>
        have hs := (h s (List.mem_cons_self ..)).resolutions
        have ih := ih fun s' hs' => h s' (List.mem_cons_of_mem _ hs')
        rw [List.flatMap_cons, List.filterMap_append, hs, ih, List.filterMap_cons]
        cases s.resolution? <;> rfl
  unfold resolve
  constructor
  · intro h
    split at h
    · rename_i hnil
      cases h
      exact ⟨herrors.1 hnil, hresolutions (herrors.1 hnil)⟩
    · cases h
  · rintro ⟨h, rfl⟩
    rw [herrors.2 h, hresolutions h]

end Scriptlet
