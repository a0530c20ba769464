/-
**Programs without loops.**

A source whose tokens are neither `while` nor `for` has a program without loops: no statement of it
is one, however deep it stands, and neither is one in the bodies of its routines.

Main definitions:

* `Scriptlet.Stmt.loopFree`, `Scriptlet.Decl.loopFree`, `Scriptlet.Routine.loopFree` — trees without
  loops;
* `Scriptlet.LoopFree` — sources without loops.

Main results:

* `Scriptlet.Phrase.Declarations.loopFree` — what is parsed from tokens without loop words has no
  loops;
* `Scriptlet.Program.loopFree_of_mem_sites` — nor have the routines in it.
-/

import Scriptlet.Proofs.Program.Compiled
import Scriptlet.Proofs.Scope.Routines

set_option relaxedAutoImplicit false
set_option autoImplicit false

namespace Scriptlet

/-! ### Trees without loops -/

mutual

/-- Whether the body of a routine has no loops. -/
def Routine.loopFree : Routine → Bool
  | .mk _ _ _ body _ => Decl.allLoopFree body
termination_by structural r => r

/-- Whether no routine has loops. -/
def Routine.allLoopFree : List Routine → Bool
  | [] => true
  | r :: rs => r.loopFree && Routine.allLoopFree rs
termination_by structural rs => rs

/-- Whether a declaration has no loops. -/
def Decl.loopFree : Decl → Bool
  | .classDecl _ _ _ methods _ => Routine.allLoopFree methods
  | .funDecl routine _ => routine.loopFree
  | .varDecl _ _ _ _ => true
  | .statement stmt => stmt.loopFree
termination_by structural d => d

/-- Whether no declaration has loops. -/
def Decl.allLoopFree : List Decl → Bool
  | [] => true
  | d :: ds => d.loopFree && Decl.allLoopFree ds
termination_by structural ds => ds

/-- Whether a statement has no loops. -/
def Stmt.loopFree : Stmt → Bool
  | .expression _ _ | .print _ _ | .ret _ _ _ => true
  | .block body _ => Decl.allLoopFree body
  | .ifElse _ thenBranch none _ => thenBranch.loopFree
  | .ifElse _ thenBranch (some elseBranch) _ => thenBranch.loopFree && elseBranch.loopFree
  | .whileLoop _ _ _ => false
termination_by structural stmt => stmt

end

theorem Routine.allLoopFree_body {r : Routine} (h : r.loopFree = true) :
    Decl.allLoopFree r.body = true := by
  obtain ⟨label, name, params, body, span⟩ := r
  exact h

/-! ### Sources without loops -/

/-- A token that does not begin a loop. -/
def Token.LoopFree (t : Token) : Prop := t.kind ≠ .whileWord ∧ t.kind ≠ .forWord

instance (t : Token) : Decidable t.LoopFree := inferInstanceAs (Decidable (_ ∧ _))

/-- **A source among whose tokens there is neither `while` nor `for`.** -/
def LoopFree (source : String) : Prop :=
  ∀ tokens, scan source = .ok tokens → ∀ t ∈ tokens, t.LoopFree

instance (source : String) : Decidable (LoopFree source) :=
  match h : scan source with
  | .ok tokens =>
      decidable_of_iff (∀ t ∈ tokens, t.LoopFree)
        ⟨fun hall _ heq => Except.ok.inj (h.symm.trans heq) ▸ hall, fun hall => hall tokens h⟩
  | .error _ => .isTrue fun _ heq => nomatch h.symm.trans heq

namespace Phrase

/-- A variable declaration has no loops. -/
theorem Variable.loopFree {ts : List Token} {s s' : Supply} {d : Decl} :
    Variable ts s d s' → d.loopFree = true
  | .mk _ _ _ _ => rfl

mutual

theorem Declarations.loopFree {ts : List Token} {s s' : Supply} {ds : List Decl} :
    Declarations ts s ds s' → (∀ t ∈ ts, t.LoopFree) → Decl.allLoopFree ds = true
  | .nil, _ => rfl
  | .cons hd hds, h => by
      rw [Decl.allLoopFree, Bool.and_eq_true]
      exact ⟨hd.loopFree fun t ht => h t (List.mem_append_left _ ht),
        hds.loopFree fun t ht => h t (List.mem_append_right _ ht)⟩

theorem Declaration.loopFree {ts : List Token} {s s' : Supply} {d : Decl} :
    Declaration ts s d s' → (∀ t ∈ ts, t.LoopFree) → d.loopFree = true
  | .classDecl _ _ _ _ hmethods _, h =>
      hmethods.loopFree fun t ht => h t (by simp [ht])
  | .funDecl _ hr, h => hr.loopFree fun t ht => h t (List.mem_cons_of_mem _ ht)
  | .varDecl hd, _ => hd.loopFree
  | .statement hstmt, h => hstmt.loopFree h

theorem Methods.loopFree {ts : List Token} {s s' : Supply} {rs : List Routine} :
    Methods ts s rs s' → (∀ t ∈ ts, t.LoopFree) → Routine.allLoopFree rs = true
  | .nil, _ => rfl
  | .cons hr hrs, h => by
      rw [Routine.allLoopFree, Bool.and_eq_true]
      exact ⟨hr.loopFree fun t ht => h t (List.mem_append_left _ ht),
        hrs.loopFree fun t ht => h t (List.mem_append_right _ ht)⟩

theorem Function.loopFree {ts : List Token} {s s' : Supply} {r : Routine} :
    Function ts s r s' → (∀ t ∈ ts, t.LoopFree) → r.loopFree = true
  | .mk _ _ _ _ hbody, h => hbody.loopFree fun t ht => h t (by simp [ht])

theorem Block.loopFree {ts : List Token} {s s' : Supply} {body : List Decl} :
    Block ts s body s' → (∀ t ∈ ts, t.LoopFree) → Decl.allLoopFree body = true
  | .mk _ hbody _, h => hbody.loopFree fun t ht => h t (by simp [ht])

/-- A statement that is a loop begins with a word that begins loops. -/
theorem Statement.loopFree {dangling : Bool} {ts : List Token} {s s' : Supply} {stmt : Stmt} :
    Statement dangling ts s stmt s' → (∀ t ∈ ts, t.LoopFree) → stmt.loopFree = true
  | .expression _ _, _ => rfl
  | .print _ _ _, _ => rfl
  | .ret _ _ _, _ => rfl
  | .block hbody, h => hbody.loopFree h
  | .ifThen _ _ _ _ hthen, h => hthen.loopFree fun t ht => h t (by simp [ht])
  | .ifElse _ _ _ _ hthen _ helse, h => by
      rw [Stmt.loopFree, Bool.and_eq_true]
      exact ⟨hthen.loopFree fun t ht => h t (by simp [ht]),
        helse.loopFree fun t ht => h t (by simp [ht])⟩
  | .whileLoop hk _ _ _ _, h => absurd hk (h _ (List.mem_cons_self ..)).1
  | .forLoop hk _ _ _ _ _ _, h => absurd hk (h _ (List.mem_cons_self ..)).2

end

end Phrase

/-- **A source without loops has a program without loops.** -/
theorem LoopFree.program {source : String} (h : LoopFree source) {s s' : Supply} {c : Compiled}
    (hc : compile source s = (.ok c, s')) : Decl.allLoopFree c.program.declarations = true := by
  obtain ⟨tokens, p, hscan, hparse, hcompile⟩ := compile_ok hc
  obtain ⟨rfl, -⟩ := Program.resolve_of_compile hcompile
  exact (Program.parse_phrase hparse).loopFree fun t ht =>
    h tokens hscan t (List.takeWhile_subset _ ht)

/-! ### Routines without loops -/

/-- Sites whose routines have no loops. -/
def LoopFreeSites (sites : List Site) : Prop :=
  ∀ site ∈ sites, ∀ r, site.routine? = some r → r.loopFree = true

section Sites

variable {sites sites' : List Site}

theorem LoopFreeSites.append (h : LoopFreeSites sites) (h' : LoopFreeSites sites') :
    LoopFreeSites (sites ++ sites') := by
  intro site hs
  rcases List.mem_append.1 hs with hs | hs
  · exact h site hs
  · exact h' site hs

theorem loopFreeSites_of_routineLabels (h : routineLabels sites = []) : LoopFreeSites sites := by
  intro site hs r hr
  rw [routineLabels, List.map_eq_nil_iff, List.filterMap_eq_nil_iff] at h
  rw [h site hs] at hr
  cases hr

theorem LoopFreeSites.cons {site : Site} (hs : ∀ r, site.routine? = some r → r.loopFree = true)
    (h : LoopFreeSites sites) : LoopFreeSites (site :: sites) := by
  intro site' hs'
  rcases List.mem_cons.1 hs' with rfl | hs'
  · exact hs
  · exact h site' hs'

end Sites

mutual

theorem Routine.loopFreeSites (ctx : Context) : ∀ r : Routine, r.loopFree = true →
    LoopFreeSites (r.sites ctx)
  | .mk label name params body span, h => by
      rw [Routine.sites]
      refine .cons (fun r hr => ?_) (.append ?_ (Decl.allLoopFreeSites _ body h))
      · cases hr
        exact h
      · exact loopFreeSites_of_routineLabels (Param.routineLabels_eq _ params)

theorem Routine.allLoopFreeSites (ctx : Context) : ∀ rs : List Routine,
    Routine.allLoopFree rs = true → LoopFreeSites (Routine.allSites ctx rs)
  | [], _ => nofun
  | r :: rs, h => by
      rw [Routine.allLoopFree, Bool.and_eq_true] at h
      exact (r.loopFreeSites ctx h.1).append (Routine.allLoopFreeSites ctx rs h.2)

theorem Decl.loopFreeSites (ctx : Context) : ∀ d : Decl, d.loopFree = true →
    LoopFreeSites (d.sites ctx)
  | .classDecl _ _ _ methods _, h =>
      .cons nofun ((loopFreeSites_of_routineLabels (Superclass.routineLabels_eq _ _ _)).append
        (Routine.allLoopFreeSites _ methods h))
  | .funDecl routine _, h => .cons nofun (routine.loopFreeSites _ h)
  | .varDecl _ _ none _, _ => .cons nofun nofun
  | .varDecl _ _ (some value) _, _ =>
      .cons nofun (loopFreeSites_of_routineLabels (value.routineLabels_eq _))
  | .statement stmt, h => stmt.loopFreeSites ctx h

theorem Decl.allLoopFreeSites (ctx : Context) : ∀ ds : List Decl, Decl.allLoopFree ds = true →
    LoopFreeSites (Decl.allSites ctx ds)
  | [], _ => nofun
  | d :: ds, h => by
      rw [Decl.allLoopFree, Bool.and_eq_true] at h
      exact (d.loopFreeSites ctx h.1).append (Decl.allLoopFreeSites _ ds h.2)

theorem Stmt.loopFreeSites (ctx : Context) : ∀ stmt : Stmt, stmt.loopFree = true →
    LoopFreeSites (stmt.sites ctx)
  | .expression e _, _ => loopFreeSites_of_routineLabels (e.routineLabels_eq ctx)
  | .print e _, _ => loopFreeSites_of_routineLabels (e.routineLabels_eq ctx)
  | .ret _ none _, _ => .cons nofun nofun
  | .ret _ (some value) _, _ =>
      .cons nofun (loopFreeSites_of_routineLabels (value.routineLabels_eq ctx))
  | .block body _, h => Decl.allLoopFreeSites _ body h
  | .ifElse condition thenBranch none _, h =>
      (loopFreeSites_of_routineLabels (condition.routineLabels_eq ctx)).append
        (thenBranch.loopFreeSites ctx h)
  | .ifElse condition thenBranch (some elseBranch) _, h => by
      rw [Stmt.loopFree, Bool.and_eq_true] at h
      exact ((loopFreeSites_of_routineLabels (condition.routineLabels_eq ctx)).append
        (thenBranch.loopFreeSites ctx h.1)).append (elseBranch.loopFreeSites ctx h.2)
  | .whileLoop _ _ _, h => by cases h

end

/-- **The routines of a program without loops have none.** -/
theorem Program.loopFree_of_mem_sites {p : Program} (h : Decl.allLoopFree p.declarations = true)
    {ctx : Context} {r : Routine} (hr : ⟨ctx, .routine r⟩ ∈ p.sites) : r.loopFree = true :=
  Decl.allLoopFreeSites .global p.declarations h _ hr r rfl

end Scriptlet
