/-
**The numbers and labels of a parsed program.**

The parser takes the numbers of expressions and the labels of routines from a supply and never gives
one back.  So no two expressions of a program have the same number, no two routines have the same
label, and none of them was or will be used by another program read with the same supply.

The names that a parsed program declares or gives a value to are spelled by its tokens, so none of
them is a reserved word.

Main definitions:

* `Scriptlet.Expr.ids`, `Scriptlet.Decl.ids`, `Scriptlet.Stmt.ids`, … — the numbers in a tree;
* `Scriptlet.Decl.labels`, `Scriptlet.Routine.labels`, … — the labels in a tree;
* `Scriptlet.Given` — numbers and labels that were given away between two supplies, each once.

Main results:

* `Scriptlet.Phrase.Declarations.given` — **the numbers and labels of a phrase were given away
  between its supplies, each once**;
* `Scriptlet.Phrase.Declarations.names` — the names given in a phrase are spelled by its tokens.
-/

import Scriptlet.Proofs.Program.Phrase
import Scriptlet.Proofs.Scope.Sites

set_option relaxedAutoImplicit false
set_option autoImplicit false

namespace Scriptlet

/-! ### Numbers and labels in a tree -/

mutual

/-- The numbers in an expression. -/
def Expr.ids : Expr → List ExprId
  | .constant mark _ => [mark.id]
  | .grouping mark inner => inner.ids ++ [mark.id]
  | .unary mark _ operand => operand.ids ++ [mark.id]
  | .binary mark left _ _ right => left.ids ++ right.ids ++ [mark.id]
  | .logical mark left _ right => left.ids ++ right.ids ++ [mark.id]
  | .ternary mark condition _ thenBranch elseBranch =>
      condition.ids ++ thenBranch.ids ++ elseBranch.ids ++ [mark.id]
  | .variable mark _ => [mark.id]
  | .assign mark _ value => value.ids ++ [mark.id]
  | .call mark callee arguments _ => callee.ids ++ Expr.allIds arguments ++ [mark.id]
  | .get mark object _ => object.ids ++ [mark.id]
  | .set mark object _ value => value.ids ++ object.ids ++ [mark.id]
  | .thisRef mark => [mark.id]
  | .superRef mark _ => [mark.id]
termination_by structural e => e

/-- The numbers in expressions. -/
def Expr.allIds : List Expr → List ExprId
  | [] => []
  | e :: es => e.ids ++ Expr.allIds es
termination_by structural es => es

end

/-- The number of a superclass. -/
def Superclass.ids : Option Superclass → List ExprId
  | none => []
  | some parent => [parent.mark.id]

mutual

/-- The numbers in a routine. -/
def Routine.ids : Routine → List ExprId
  | .mk _ _ _ body _ => Decl.allIds body
termination_by structural r => r

/-- The numbers in routines. -/
def Routine.allIds : List Routine → List ExprId
  | [] => []
  | r :: rs => r.ids ++ Routine.allIds rs
termination_by structural rs => rs

/-- The numbers in a declaration. -/
def Decl.ids : Decl → List ExprId
  | .classDecl _ _ superclass methods _ => Superclass.ids superclass ++ Routine.allIds methods
  | .funDecl routine _ => routine.ids
  | .varDecl _ _ none _ => []
  | .varDecl _ _ (some value) _ => value.ids
  | .statement stmt => stmt.ids
termination_by structural d => d

/-- The numbers in declarations. -/
def Decl.allIds : List Decl → List ExprId
  | [] => []
  | d :: ds => d.ids ++ Decl.allIds ds
termination_by structural ds => ds

/-- The numbers in a statement. -/
def Stmt.ids : Stmt → List ExprId
  | .expression e _ => e.ids
  | .print e _ => e.ids
  | .ret _ none _ => []
  | .ret _ (some value) _ => value.ids
  | .block body _ => Decl.allIds body
  | .ifElse condition thenBranch none _ => condition.ids ++ thenBranch.ids
  | .ifElse condition thenBranch (some elseBranch) _ =>
      condition.ids ++ thenBranch.ids ++ elseBranch.ids
  | .whileLoop condition body _ => condition.ids ++ body.ids
termination_by structural s => s

end

mutual

/-- The labels in a routine. -/
def Routine.labels : Routine → List Nat
  | .mk label _ _ body _ => label :: Decl.allLabels body
termination_by structural r => r

/-- The labels in routines. -/
def Routine.allLabels : List Routine → List Nat
  | [] => []
  | r :: rs => r.labels ++ Routine.allLabels rs
termination_by structural rs => rs

/-- The labels in a declaration. -/
def Decl.labels : Decl → List Nat
  | .classDecl _ _ _ methods _ => Routine.allLabels methods
  | .funDecl routine _ => routine.labels
  | .varDecl _ _ _ _ => []
  | .statement stmt => stmt.labels
termination_by structural d => d

/-- The labels in declarations. -/
def Decl.allLabels : List Decl → List Nat
  | [] => []
  | d :: ds => d.labels ++ Decl.allLabels ds
termination_by structural ds => ds

/-- The labels in a statement. -/
def Stmt.labels : Stmt → List Nat
  | .expression _ _ => []
  | .print _ _ => []
  | .ret _ _ _ => []
  | .block body _ => Decl.allLabels body
  | .ifElse _ thenBranch none _ => thenBranch.labels
  | .ifElse _ thenBranch (some elseBranch) _ => thenBranch.labels ++ elseBranch.labels
  | .whileLoop _ body _ => body.labels
termination_by structural s => s

end

/-! ### Numbers given away -/

/-- Numbers that were given away between two others, each once. -/
structure Numbered (lo : Nat) (ns : List Nat) (hi : Nat) : Prop where
  le : lo ≤ hi
  nodup : ns.Nodup
  bounds : ∀ n ∈ ns, lo ≤ n ∧ n < hi

namespace Numbered

variable {lo mid hi : Nat} {ms ns : List Nat}

theorem nil (n : Nat) : Numbered n [] n := ⟨Nat.le_refl n, List.nodup_nil, by simp⟩

theorem append (h : Numbered lo ms mid) (h' : Numbered mid ns hi) :
    Numbered lo (ms ++ ns) hi := by
  have hle := h.le
  have hle' := h'.le
  refine ⟨by omega, ?_, ?_⟩
  · refine List.nodup_append.2 ⟨h.nodup, h'.nodup, ?_⟩
    intro m hm n hn
    have := h.bounds m hm
    have := h'.bounds n hn
    omega
  · intro n hn
    rcases List.mem_append.1 hn with hn | hn
    · have := h.bounds n hn
      omega
    · have := h'.bounds n hn
      omega

/-- The order in which numbers are listed does not matter. -/
theorem perm (h : Numbered lo ms hi) (hp : ms.Perm ns) : Numbered lo ns hi :=
  ⟨h.le, hp.nodup_iff.1 h.nodup, fun n hn => h.bounds n (hp.mem_iff.2 hn)⟩

theorem sublist (h : Numbered lo ns hi) (hs : ms.Sublist ns) : Numbered lo ms hi :=
  ⟨h.le, hs.nodup h.nodup, fun n hn => h.bounds n (hs.subset hn)⟩

/-- The next number is given away. -/
theorem next (h : Numbered lo ns hi) : Numbered lo (ns ++ [hi]) (hi + 1) :=
  h.append ⟨by omega, by simp, by simp⟩

end Numbered

/-- Numbers of expressions and labels of routines that were given away between two supplies, each
once. -/
structure Given (s : Supply) (ids : List ExprId) (labels : List Nat) (s' : Supply) : Prop where
  ids : Numbered s.expr ids s'.expr
  labels : Numbered s.routine labels s'.routine

namespace Given

variable {s s₁ s₂ : Supply} {is is' : List ExprId} {ls ls' : List Nat}

theorem nil (s : Supply) : Given s [] [] s := ⟨.nil _, .nil _⟩

theorem append (h : Given s is ls s₁) (h' : Given s₁ is' ls' s₂) :
    Given s (is ++ is') (ls ++ ls') s₂ :=
  ⟨h.ids.append h'.ids, h.labels.append h'.labels⟩

theorem swap (h : Given s is ls s₁) (h' : Given s₁ is' ls' s₂) :
    Given s (is' ++ is) (ls' ++ ls) s₂ :=
  ⟨(h.ids.append h'.ids).perm List.perm_append_comm,
    (h.labels.append h'.labels).perm List.perm_append_comm⟩

theorem sublist (h : Given s is ls s₁) (hs : is'.Sublist is) : Given s is' ls s₁ :=
  ⟨h.ids.sublist hs, h.labels⟩

theorem afterExpr (h : Given s is ls s₁) : Given s (is ++ [s₁.expr]) ls s₁.afterExpr :=
  ⟨h.ids.next, h.labels⟩

theorem afterRoutine (h : Given s is ls s₁) :
    Given s is (s₁.routine :: ls) s₁.afterRoutine :=
  ⟨h.ids, h.labels.next.perm (List.perm_append_singleton _ _)⟩

end Given

theorem ids_join (join : Join) (mark : Mark) (left right : Expr) (opSpan : Span) :
    (join.expr mark left opSpan right).ids = left.ids ++ right.ids ++ [mark.id] := by
  cases join <;> simp only [Join.expr, Expr.ids]

theorem allIds_append (ds ds' : List Decl) :
    Decl.allIds (ds ++ ds') = Decl.allIds ds ++ Decl.allIds ds' := by
  induction ds with
  | nil => rfl
  | cons d ds ih => simp only [List.cons_append, Decl.allIds, ih, List.append_assoc]

theorem allLabels_append (ds ds' : List Decl) :
    Decl.allLabels (ds ++ ds') = Decl.allLabels ds ++ Decl.allLabels ds' := by
  induction ds with
  | nil => rfl
  | cons d ds ih => simp only [List.cons_append, Decl.allLabels, ih, List.append_assoc]

namespace Phrase

mutual

theorem Expression.given {ts : List Token} {s s' : Supply} {e : Expr} :
    Expression ts s e s' → Given s e.ids [] s'
  | .plain h => h.given
  | .choice h _ hx _ hy => ((h.given.append hx.given).append hy.given).afterExpr

theorem Assignment.given {ts : List Token} {s s' : Supply} {e : Expr} :
    Assignment ts s e s' → Given s e.ids [] s'
  | .plain h => h.given
  | .name h _ hv => ((h.given.sublist (List.nil_sublist _)).append hv.given).afterExpr
  | .property h _ hv =>
      ((h.given.sublist (List.sublist_append_left _ _)).swap hv.given).afterExpr

theorem Operand.given {level : Option Level} {ts : List Token} {s s' : Supply} {e : Expr} :
    Operand level ts s e s' → Given s e.ids [] s'
  | .level h hj => hj.given h.given
  | .unary h => h.given

theorem Joins.given {level : Level} {left : Expr} {ts : List Token} {s s₁ s' : Supply}
    {e : Expr} : Joins level left ts s₁ e s' → Given s left.ids [] s₁ → Given s e.ids [] s'
  | .nil, hl => hl
  | .cons _ h hj, hl => hj.given (by rw [ids_join]; exact (hl.append h.given).afterExpr)

theorem Unary.given {ts : List Token} {s s' : Supply} {e : Expr} :
    Unary ts s e s' → Given s e.ids [] s'
  | .operator _ h => h.given.afterExpr
  | .call h hs => hs.given h.given

theorem Suffixes.given {callee : Expr} {ts : List Token} {s s₁ s' : Supply} {e : Expr} :
    Suffixes callee ts s₁ e s' → Given s callee.ids [] s₁ → Given s e.ids [] s'
  | .nil, hl => hl
  | .call _ ha _ hs, hl => hs.given (hl.append ha.given).afterExpr
  | .property _ _ hs, hl => hs.given hl.afterExpr

theorem ArgumentList.given {ts : List Token} {s s' : Supply} {es : List Expr} :
    ArgumentList ts s es s' → Given s (Expr.allIds es) [] s'
  | .none => .nil _
  | .some h _ => h.given

theorem Arguments.given {ts : List Token} {s s' : Supply} {es : List Expr} :
    Arguments ts s es s' → Given s (Expr.allIds es) [] s'
  | .last h => by
      rw [Expr.allIds, Expr.allIds, List.append_nil]
      exact h.given
  | .more h _ hs => h.given.append hs.given

theorem Primary.given {ts : List Token} {s s' : Supply} {e : Expr} :
    Primary ts s e s' → Given s e.ids [] s'
  | .constant _ => (Given.nil s).afterExpr
  | .thisWord _ => (Given.nil s).afterExpr
  | .superWord _ _ _ => (Given.nil s).afterExpr
  | .name _ => (Given.nil s).afterExpr
  | .grouping _ h _ => h.given.afterExpr

end

theorem Parent.given {ts : List Token} {s s' : Supply} {parent : Option Superclass} :
    Parent ts s parent s' → Given s (Superclass.ids parent) [] s'
  | .none => .nil _
  | .some _ _ => (Given.nil s).afterExpr

theorem Variable.given {ts : List Token} {s s' : Supply} {d : Decl} :
    Variable ts s d s' → Given s d.ids d.labels s'
  | .mk _ _ .none _ => .nil _
  | .mk _ _ (.some _ h) _ => h.given

theorem Optional.given {ts : List Token} {s s' : Supply} {e : Option Expr} :
    Optional ts s e s' → Given s (Expr.allIds e.toList) [] s'
  | .none => .nil _
  | .some h => by
      simp only [Option.toList, Expr.allIds, List.append_nil]
      exact h.given

theorem LoopInitializer.given {ts : List Token} {s s' : Supply} {d : Option Decl} :
    LoopInitializer ts s d s' →
      Given s (Decl.allIds d.toList) (Decl.allLabels d.toList) s'
  | .none _ => .nil _
  | .declaration h => by
      simp only [Option.toList, Decl.allIds, Decl.allLabels, List.append_nil]
      exact h.given
  | .expression h _ => by
      simp only [Option.toList, Decl.allIds, Decl.allLabels, Decl.ids, Decl.labels, Stmt.ids,
        Stmt.labels, List.append_nil]
      exact h.given

theorem LoopCondition.given {ts : List Token} {s s' : Supply} {e : Expr} :
    LoopCondition ts s e s' → Given s e.ids [] s'
  | .none _ => (Given.nil _).afterExpr
  | .some h _ => h.given

/-- The numbers and labels of the parts of a `for` loop, listed in the order of the block that
stands for it. -/
theorem forLoop_given {s s₁ s₂ s₃ s₄ : Supply} {initializer : Option Decl} {condition : Expr}
    {increment : Option Expr} {body : Stmt} (span : Span)
    (hi : Given s (Decl.allIds initializer.toList) (Decl.allLabels initializer.toList) s₁)
    (hcond : Given s₁ condition.ids [] s₂)
    (hincr : Given s₂ (Expr.allIds increment.toList) [] s₃)
    (hbody : Given s₃ body.ids body.labels s₄) :
    Given s (Parser.forLoop initializer condition increment body span).ids
      (Parser.forLoop initializer condition increment body span).labels s₄ := by
  have hstep := hi.append (hcond.append (hincr.swap hbody))
  have hids : Decl.allIds (increment.toList.map fun e => .statement (.expression e e.span)) =
      Expr.allIds increment.toList := by
    cases increment with
    | none => rfl
    | some e => rfl
  have hlabels :
      Decl.allLabels (increment.toList.map fun e => .statement (.expression e e.span)) = [] := by
    cases increment with
    | none => rfl
    | some e => rfl
  simp only [Parser.forLoop, Stmt.ids, Stmt.labels, allIds_append, allLabels_append, Decl.allIds,
    Decl.allLabels, Decl.ids, Decl.labels, hids, hlabels, List.append_nil] at hstep ⊢
  exact hstep

mutual

/-- **The numbers and labels of declarations were given away between their supplies, each
once.** -/
theorem Declarations.given {ts : List Token} {s s' : Supply} {ds : List Decl} :
    Declarations ts s ds s' → Given s (Decl.allIds ds) (Decl.allLabels ds) s'
  | .nil => .nil _
  | .cons h hs => h.given.append hs.given

theorem Declaration.given {ts : List Token} {s s' : Supply} {d : Decl} :
    Declaration ts s d s' → Given s d.ids d.labels s'
  | .classDecl _ _ hp _ hm _ => hp.given.append hm.given
  | .funDecl _ h => h.given
  | .varDecl h => h.given
  | .statement h => h.given

theorem Methods.given {ts : List Token} {s s' : Supply} {rs : List Routine} :
    Methods ts s rs s' → Given s (Routine.allIds rs) (Routine.allLabels rs) s'
  | .nil => .nil _
  | .cons h hs => h.given.append hs.given

theorem Function.given {ts : List Token} {s s' : Supply} {r : Routine} :
    Function ts s r s' → Given s r.ids r.labels s'
  | .mk _ _ _ _ hb => hb.given.afterRoutine

theorem Block.given {ts : List Token} {s s' : Supply} {body : List Decl} :
    Block ts s body s' → Given s (Decl.allIds body) (Decl.allLabels body) s'
  | .mk _ h _ => h.given

theorem Statement.given {dangling : Bool} {ts : List Token} {s s' : Supply} {stmt : Stmt} :
    Statement dangling ts s stmt s' → Given s stmt.ids stmt.labels s'
  | .expression h _ => h.given
  | .print _ h _ => h.given
  | .ret _ .none _ => .nil _
  | .ret _ (.some h) _ => h.given
  | .block h => h.given
  | .ifThen _ _ h _ ht => h.given.append ht.given
  | .ifElse _ _ h _ ht _ he => (h.given.append ht.given).append he.given
  | .whileLoop _ _ h _ hb => h.given.append hb.given
  | .forLoop _ _ hi hcond hincr _ hb =>
      forLoop_given _ hi.given hcond.given hincr.given hb.given

end

end Phrase

/-! ### Numbers and labels at sites -/

/-- The numbers of the references at sites. -/
def referenceIds (sites : List Site) : List ExprId := (sites.filterMap Site.reference?).map Prod.fst

/-- The labels of the routines at sites. -/
def routineLabels (sites : List Site) : List Nat :=
  (sites.filterMap Site.routine?).map Routine.label

theorem referenceIds_append (sites sites' : List Site) :
    referenceIds (sites ++ sites') = referenceIds sites ++ referenceIds sites' := by
  simp only [referenceIds, List.filterMap_append, List.map_append]

theorem routineLabels_append (sites sites' : List Site) :
    routineLabels (sites ++ sites') = routineLabels sites ++ routineLabels sites' := by
  simp only [routineLabels, List.filterMap_append, List.map_append]

mutual

/-- The references of an expression have numbers of the expression. -/
theorem Expr.referenceIds_sublist (ctx : Context) : ∀ e : Expr,
    (referenceIds (e.sites ctx)).Sublist e.ids
  | .constant _ _ => List.nil_sublist _
  | .grouping _ inner => (inner.referenceIds_sublist ctx).trans (List.sublist_append_left _ _)
  | .unary _ _ operand => (operand.referenceIds_sublist ctx).trans (List.sublist_append_left _ _)
  | .binary _ left _ _ right => by
      simp only [Expr.sites, Expr.ids, referenceIds_append]
      exact ((left.referenceIds_sublist ctx).append (right.referenceIds_sublist ctx)).trans
        (List.sublist_append_left _ _)
  | .logical _ left _ right => by
      simp only [Expr.sites, Expr.ids, referenceIds_append]
      exact ((left.referenceIds_sublist ctx).append (right.referenceIds_sublist ctx)).trans
        (List.sublist_append_left _ _)
  | .ternary _ condition _ thenBranch elseBranch => by
      simp only [Expr.sites, Expr.ids, referenceIds_append]
      exact (((condition.referenceIds_sublist ctx).append
        (thenBranch.referenceIds_sublist ctx)).append
        (elseBranch.referenceIds_sublist ctx)).trans (List.sublist_append_left _ _)
  | .variable _ _ => List.Sublist.refl _
  | .assign _ _ value => by
      simp only [Expr.sites, Expr.ids, referenceIds_append]
      exact (value.referenceIds_sublist ctx).append (List.Sublist.refl _)
  | .call _ callee arguments _ => by
      simp only [Expr.sites, Expr.ids, referenceIds_append]
      exact ((callee.referenceIds_sublist ctx).append
        (Expr.allReferenceIds_sublist ctx arguments)).trans (List.sublist_append_left _ _)
  | .get _ object _ => (object.referenceIds_sublist ctx).trans (List.sublist_append_left _ _)
  | .set _ object _ value => by
      simp only [Expr.sites, Expr.ids, referenceIds_append]
      exact ((value.referenceIds_sublist ctx).append (object.referenceIds_sublist ctx)).trans
        (List.sublist_append_left _ _)
  | .thisRef _ => List.Sublist.refl _
  | .superRef _ _ => List.Sublist.refl _

theorem Expr.allReferenceIds_sublist (ctx : Context) : ∀ es : List Expr,
    (referenceIds (Expr.allSites ctx es)).Sublist (Expr.allIds es)
  | [] => List.nil_sublist _
  | e :: es => by
      simp only [Expr.allSites, Expr.allIds, referenceIds_append]
      exact (e.referenceIds_sublist ctx).append (Expr.allReferenceIds_sublist ctx es)

end

theorem Param.referenceIds_eq (ctx : Context) (ps : List Param) :
    referenceIds (Param.allSites ctx ps) = [] := by
  induction ps generalizing ctx with
  | nil => rfl
  | cons p ps ih => exact ih (ctx.define p.name)

theorem Superclass.referenceIds_eq (ctx : Context) (className : String)
    (superclass : Option Superclass) :
    referenceIds (Superclass.sites ctx className superclass) = Superclass.ids superclass := by
  cases superclass <;> rfl

mutual

theorem Routine.referenceIds_sublist (ctx : Context) : ∀ r : Routine,
    (referenceIds (r.sites ctx)).Sublist r.ids
  | .mk label name params body span => by
      rw [Routine.sites, ← List.singleton_append, referenceIds_append, referenceIds_append,
        Param.referenceIds_eq]
      exact Decl.allReferenceIds_sublist _ body

theorem Routine.allReferenceIds_sublist (ctx : Context) : ∀ rs : List Routine,
    (referenceIds (Routine.allSites ctx rs)).Sublist (Routine.allIds rs)
  | [] => List.nil_sublist _
  | r :: rs => by
      simp only [Routine.allSites, Routine.allIds, referenceIds_append]
      exact (r.referenceIds_sublist ctx).append (Routine.allReferenceIds_sublist ctx rs)

theorem Decl.referenceIds_sublist (ctx : Context) : ∀ d : Decl,
    (referenceIds (d.sites ctx)).Sublist d.ids
  | .classDecl name nameSpan superclass methods _ => by
      rw [Decl.sites, ← List.singleton_append, referenceIds_append, referenceIds_append,
        Superclass.referenceIds_eq]
      exact (List.Sublist.refl (Superclass.ids superclass)).append
        (Routine.allReferenceIds_sublist _ methods)
  | .funDecl routine _ => routine.referenceIds_sublist _
  | .varDecl _ _ none _ => List.nil_sublist _
  | .varDecl _ _ (some value) _ => value.referenceIds_sublist _
  | .statement stmt => stmt.referenceIds_sublist ctx

/-- The references of declarations have numbers of the declarations. -/
theorem Decl.allReferenceIds_sublist (ctx : Context) : ∀ ds : List Decl,
    (referenceIds (Decl.allSites ctx ds)).Sublist (Decl.allIds ds)
  | [] => List.nil_sublist _
  | d :: ds => by
      simp only [Decl.allSites, Decl.allIds, referenceIds_append]
      exact (d.referenceIds_sublist ctx).append (Decl.allReferenceIds_sublist _ ds)

theorem Stmt.referenceIds_sublist (ctx : Context) : ∀ s : Stmt,
    (referenceIds (s.sites ctx)).Sublist s.ids
  | .expression e _ => e.referenceIds_sublist ctx
  | .print e _ => e.referenceIds_sublist ctx
  | .ret _ none _ => List.nil_sublist _
  | .ret _ (some value) _ => value.referenceIds_sublist ctx
  | .block body _ => Decl.allReferenceIds_sublist _ body
  | .ifElse condition thenBranch none _ => by
      simp only [Stmt.sites, Stmt.ids, referenceIds_append]
      exact (condition.referenceIds_sublist ctx).append (thenBranch.referenceIds_sublist ctx)
  | .ifElse condition thenBranch (some elseBranch) _ => by
      simp only [Stmt.sites, Stmt.ids, referenceIds_append]
      exact ((condition.referenceIds_sublist ctx).append
        (thenBranch.referenceIds_sublist ctx)).append (elseBranch.referenceIds_sublist ctx)
  | .whileLoop condition body _ => by
      simp only [Stmt.sites, Stmt.ids, referenceIds_append]
      exact (condition.referenceIds_sublist ctx).append (body.referenceIds_sublist ctx)

end

mutual

/-- No routine stands in an expression. -/
theorem Expr.routineLabels_eq (ctx : Context) : ∀ e : Expr, routineLabels (e.sites ctx) = []
  | .constant _ _ => rfl
  | .grouping _ inner => inner.routineLabels_eq ctx
  | .unary _ _ operand => operand.routineLabels_eq ctx
  | .binary _ left _ _ right => by
      rw [Expr.sites, routineLabels_append, left.routineLabels_eq, right.routineLabels_eq]
      rfl
  | .logical _ left _ right => by
      rw [Expr.sites, routineLabels_append, left.routineLabels_eq, right.routineLabels_eq]
      rfl
  | .ternary _ condition _ thenBranch elseBranch => by
      rw [Expr.sites, routineLabels_append, routineLabels_append, condition.routineLabels_eq,
        thenBranch.routineLabels_eq, elseBranch.routineLabels_eq]
      rfl
  | .variable _ _ => rfl
  | .assign _ _ value => by
      rw [Expr.sites, routineLabels_append, value.routineLabels_eq]
      rfl
  | .call _ callee arguments _ => by
      rw [Expr.sites, routineLabels_append, callee.routineLabels_eq,
        Expr.allRoutineLabels_eq ctx arguments]
      rfl
  | .get _ object _ => object.routineLabels_eq ctx
  | .set _ object _ value => by
      rw [Expr.sites, routineLabels_append, value.routineLabels_eq, object.routineLabels_eq]
      rfl
  | .thisRef _ => rfl
  | .superRef _ _ => rfl

theorem Expr.allRoutineLabels_eq (ctx : Context) : ∀ es : List Expr,
    routineLabels (Expr.allSites ctx es) = []
  | [] => rfl
  | e :: es => by
      rw [Expr.allSites, routineLabels_append, e.routineLabels_eq, Expr.allRoutineLabels_eq ctx es]
      rfl

end

theorem Param.routineLabels_eq (ctx : Context) (ps : List Param) :
    routineLabels (Param.allSites ctx ps) = [] := by
  induction ps generalizing ctx with
  | nil => rfl
  | cons p ps ih => exact ih (ctx.define p.name)

theorem Superclass.routineLabels_eq (ctx : Context) (className : String)
    (superclass : Option Superclass) :
    routineLabels (Superclass.sites ctx className superclass) = [] := by
  cases superclass <;> rfl

mutual

theorem Routine.routineLabels_eq (ctx : Context) : ∀ r : Routine,
    routineLabels (r.sites ctx) = r.labels
  | .mk label name params body span => by
      rw [Routine.sites, ← List.singleton_append, routineLabels_append, routineLabels_append,
        Param.routineLabels_eq, Decl.allRoutineLabels_eq _ body]
      rfl

theorem Routine.allRoutineLabels_eq (ctx : Context) : ∀ rs : List Routine,
    routineLabels (Routine.allSites ctx rs) = Routine.allLabels rs
  | [] => rfl
  | r :: rs => by
      rw [Routine.allSites, routineLabels_append, r.routineLabels_eq,
        Routine.allRoutineLabels_eq ctx rs]
      rfl

theorem Decl.routineLabels_eq (ctx : Context) : ∀ d : Decl,
    routineLabels (d.sites ctx) = d.labels
  | .classDecl name nameSpan superclass methods _ => by
      rw [Decl.sites, ← List.singleton_append, routineLabels_append, routineLabels_append,
        Superclass.routineLabels_eq, Routine.allRoutineLabels_eq _ methods]
      rfl
  | .funDecl routine _ => routine.routineLabels_eq _
  | .varDecl _ _ none _ => rfl
  | .varDecl _ _ (some value) _ => value.routineLabels_eq _
  | .statement stmt => stmt.routineLabels_eq ctx

/-- The routines in declarations have their labels. -/
theorem Decl.allRoutineLabels_eq (ctx : Context) : ∀ ds : List Decl,
    routineLabels (Decl.allSites ctx ds) = Decl.allLabels ds
  | [] => rfl
  | d :: ds => by
      rw [Decl.allSites, routineLabels_append, d.routineLabels_eq, Decl.allRoutineLabels_eq _ ds]
      rfl

theorem Stmt.routineLabels_eq (ctx : Context) : ∀ s : Stmt,
    routineLabels (s.sites ctx) = s.labels
  | .expression e _ => e.routineLabels_eq ctx
  | .print e _ => e.routineLabels_eq ctx
  | .ret _ none _ => rfl
  | .ret _ (some value) _ => value.routineLabels_eq ctx
  | .block body _ => Decl.allRoutineLabels_eq _ body
  | .ifElse condition thenBranch none _ => by
      rw [Stmt.sites, routineLabels_append, condition.routineLabels_eq,
        thenBranch.routineLabels_eq]
      rfl
  | .ifElse condition thenBranch (some elseBranch) _ => by
      rw [Stmt.sites, routineLabels_append, routineLabels_append, condition.routineLabels_eq,
        thenBranch.routineLabels_eq, elseBranch.routineLabels_eq]
      rfl
  | .whileLoop condition body _ => by
      rw [Stmt.sites, routineLabels_append, condition.routineLabels_eq, body.routineLabels_eq]
      rfl

end

/-! ### Names in a phrase -/

section Names

variable {P : String → Prop}

/-- The names among tokens have a property. -/
def Spells (P : String → Prop) (ts : List Token) : Prop :=
  ∀ t ∈ ts, t.kind = .identifier → P t.lexeme

/-- The names written at sites have a property. -/
def Mentions (P : String → Prop) (sites : List Site) : Prop :=
  ∀ site ∈ sites, ∀ name, site.name? = some name → P name

theorem spells_append {ts us : List Token} : Spells P (ts ++ us) ↔ Spells P ts ∧ Spells P us :=
  List.forall_mem_append

theorem spells_cons {t : Token} {ts : List Token} :
    Spells P (t :: ts) ↔ (t.kind = .identifier → P t.lexeme) ∧ Spells P ts :=
  List.forall_mem_cons

theorem mentions_nil : Mentions P [] := by
  intro site hsite
  cases hsite

theorem mentions_append {sites sites' : List Site} :
    Mentions P (sites ++ sites') ↔ Mentions P sites ∧ Mentions P sites' :=
  List.forall_mem_append

theorem mentions_cons {site : Site} {sites : List Site} :
    Mentions P (site :: sites) ↔ (∀ name, site.name? = some name → P name) ∧ Mentions P sites :=
  List.forall_mem_cons

/-- A site at which one name is written. -/
theorem mentions_name {site : Site} {name : String} (hs : site.name? = some name) (h : P name) :
    Mentions P [site] := by
  refine mentions_cons.2 ⟨fun x hx => ?_, mentions_nil⟩
  rw [hs] at hx
  cases hx
  exact h

/-- A site at which no name is written. -/
theorem mentions_no_name {site : Site} (hs : site.name? = none) : Mentions P [site] := by
  refine mentions_cons.2 ⟨fun x hx => ?_, mentions_nil⟩
  rw [hs] at hx
  cases hx

theorem sites_join (ctx : Context) (join : Join) (mark : Mark) (left right : Expr)
    (opSpan : Span) :
    (join.expr mark left opSpan right).sites ctx = left.sites ctx ++ right.sites ctx := by
  cases join <;> simp only [Join.expr, Expr.sites]

theorem Decl.allSites_append (ctx : Context) (ds ds' : List Decl) :
    Decl.allSites ctx (ds ++ ds') =
      Decl.allSites ctx ds ++ Decl.allSites (ds.foldl Decl.after ctx) ds' := by
  induction ds generalizing ctx with
  | nil => rfl
  | cons d ds ih =>
      simp only [List.cons_append, Decl.allSites, ih, List.append_assoc, List.foldl_cons]

namespace Phrase

mutual

/-- The names in an expression are spelled by its tokens. -/
theorem Expression.names {ts : List Token} {s s' : Supply} {e : Expr} (ctx : Context) :
    Expression ts s e s' → Spells P ts → Mentions P (e.sites ctx)
  | .plain h, hts => h.names ctx hts
  | .choice h _ hx _ hy, hts => by
      simp only [spells_append, spells_cons] at hts
      obtain ⟨ht, -, hu, -, hv⟩ := hts
      simp only [Expr.sites, mentions_append]
      exact ⟨⟨h.names ctx ht, hx.names ctx hu⟩, hy.names ctx hv⟩

theorem Assignment.names {ts : List Token} {s s' : Supply} {e : Expr} (ctx : Context) :
    Assignment ts s e s' → Spells P ts → Mentions P (e.sites ctx)
  | .plain h, hts => h.names ctx hts
  | .name h _ hv, hts => by
      simp only [spells_append, spells_cons] at hts
      obtain ⟨ht, -, hu⟩ := hts
      -- The name of the variable is mentioned in the target, which is only read as a variable.
      have hname := h.names ctx ht
      simp only [Expr.sites, mentions_append, mentions_cons] at hname ⊢
      exact ⟨hv.names ctx hu, hname.1, mentions_nil⟩
  | .property h _ hv, hts => by
      simp only [spells_append, spells_cons] at hts
      obtain ⟨ht, -, hu⟩ := hts
      have hobject := h.names ctx ht
      simp only [Expr.sites, mentions_append] at hobject ⊢
      exact ⟨hv.names ctx hu, hobject⟩

theorem Operand.names {level : Option Level} {ts : List Token} {s s' : Supply} {e : Expr}
    (ctx : Context) : Operand level ts s e s' → Spells P ts → Mentions P (e.sites ctx)
  | .level h hj, hts => by
      rw [spells_append] at hts
      exact hj.names ctx hts.2 (h.names ctx hts.1)
  | .unary h, hts => h.names ctx hts

theorem Joins.names {level : Level} {left : Expr} {ts : List Token} {s s' : Supply} {e : Expr}
    (ctx : Context) : Joins level left ts s e s' → Spells P ts → Mentions P (left.sites ctx) →
      Mentions P (e.sites ctx)
  | .nil, _, hl => hl
  | .cons _ h hj, hts, hl => by
      simp only [spells_append, spells_cons] at hts
      obtain ⟨-, ht, hu⟩ := hts
      refine hj.names ctx hu ?_
      rw [sites_join, mentions_append]
      exact ⟨hl, h.names ctx ht⟩

theorem Unary.names {ts : List Token} {s s' : Supply} {e : Expr} (ctx : Context) :
    Unary ts s e s' → Spells P ts → Mentions P (e.sites ctx)
  | .operator _ h, hts => h.names ctx (spells_cons.1 hts).2
  | .call h hs, hts => by
      rw [spells_append] at hts
      exact hs.names ctx hts.2 (h.names ctx hts.1)

theorem Suffixes.names {callee : Expr} {ts : List Token} {s s' : Supply} {e : Expr}
    (ctx : Context) : Suffixes callee ts s e s' → Spells P ts → Mentions P (callee.sites ctx) →
      Mentions P (e.sites ctx)
  | .nil, _, hl => hl
  | .call _ ha _ hs, hts, hl => by
      simp only [spells_append, spells_cons] at hts
      obtain ⟨-, ht, -, hu⟩ := hts
      refine hs.names ctx hu ?_
      simp only [Expr.sites, mentions_append]
      exact ⟨hl, ha.names ctx ht⟩
  | .property _ _ hs, hts, hl => hs.names ctx (spells_cons.1 (spells_cons.1 hts).2).2 hl

theorem ArgumentList.names {ts : List Token} {s s' : Supply} {es : List Expr} (ctx : Context) :
    ArgumentList ts s es s' → Spells P ts → Mentions P (Expr.allSites ctx es)
  | .none, _ => mentions_nil
  | .some h _, hts => h.names ctx hts

theorem Arguments.names {ts : List Token} {s s' : Supply} {es : List Expr} (ctx : Context) :
    Arguments ts s es s' → Spells P ts → Mentions P (Expr.allSites ctx es)
  | .last h, hts => mentions_append.2 ⟨h.names ctx hts, mentions_nil⟩
  | .more h _ hs, hts => by
      simp only [spells_append, spells_cons] at hts
      obtain ⟨ht, -, hu⟩ := hts
      exact mentions_append.2 ⟨h.names ctx ht, hs.names ctx hu⟩

theorem Primary.names {ts : List Token} {s s' : Supply} {e : Expr} (ctx : Context) :
    Primary ts s e s' → Spells P ts → Mentions P (e.sites ctx)
  | .constant _, _ => mentions_nil
  | .thisWord _, _ => mentions_no_name rfl
  | .superWord _ _ _, _ => mentions_no_name rfl
  | .name hk, hts => mentions_name rfl ((spells_cons.1 hts).1 hk)
  | .grouping _ h _, hts => h.names ctx (spells_append.1 (spells_cons.1 hts).2).1

end

theorem Optional.names {ts : List Token} {s s' : Supply} {e : Option Expr} (ctx : Context) :
    Optional ts s e s' → Spells P ts → ∀ x ∈ e, Mentions P (x.sites ctx)
  | .none, _ => nofun
  | .some h, hts => by
      rintro _ ⟨⟩
      exact h.names ctx hts

theorem Parameters.names {ts : List Token} {ps : List Param} :
    Parameters ts ps → ∀ ctx, Spells P ts → Mentions P (Param.allSites ctx ps)
  | .last hk, _, hts => mentions_name rfl ((spells_cons.1 hts).1 hk)
  | .more hk _ hs, ctx, hts => by
      simp only [spells_cons] at hts
      obtain ⟨ht, -, hts⟩ := hts
      refine mentions_cons.2 ⟨?_, hs.names _ hts⟩
      rintro _ ⟨⟩
      exact ht hk

theorem ParameterList.names {ts : List Token} {ps : List Param} (ctx : Context) :
    ParameterList ts ps → Spells P ts → Mentions P (Param.allSites ctx ps)
  | .none, _ => mentions_nil
  | .some h _, hts => h.names ctx hts

theorem Parent.names {ts : List Token} {s s' : Supply} {parent : Option Superclass}
    (ctx : Context) (className : String) : Parent ts s parent s' → Spells P ts →
      Mentions P (Superclass.sites ctx className parent)
  | .none, _ => mentions_nil
  | .some _ hn, hts => mentions_name rfl ((spells_cons.1 (spells_cons.1 hts).2).1 hn)

theorem Variable.names {ts : List Token} {s s' : Supply} {d : Decl} (ctx : Context) :
    Variable ts s d s' → Spells P ts → Mentions P (d.sites ctx)
  | .mk _ hn .none _, hts => mentions_name rfl ((spells_cons.1 (spells_cons.1 hts).2).1 hn)
  | .mk _ hn (.some _ h) _, hts => by
      simp only [spells_append, spells_cons] at hts
      obtain ⟨-, hname, ⟨-, hts⟩, -⟩ := hts
      refine mentions_cons.2 ⟨?_, h.names _ hts⟩
      rintro _ ⟨⟩
      exact hname hn

theorem LoopInitializer.names {ts : List Token} {s s' : Supply} {d : Option Decl} (ctx : Context) :
    LoopInitializer ts s d s' → Spells P ts → Mentions P (Decl.allSites ctx d.toList)
  | .none _, _ => mentions_nil
  | .declaration h, hts => mentions_append.2 ⟨h.names ctx hts, mentions_nil⟩
  | .expression h _, hts => mentions_append.2 ⟨h.names ctx (spells_append.1 hts).1, mentions_nil⟩

theorem LoopCondition.names {ts : List Token} {s s' : Supply} {e : Expr} (ctx : Context) :
    LoopCondition ts s e s' → Spells P ts → Mentions P (e.sites ctx)
  | .none _, _ => mentions_nil
  | .some h _, hts => h.names ctx (spells_append.1 hts).1

/-- The names in the block that stands for a `for` loop are those in its parts. -/
theorem forLoop_names {initializer : Option Decl} {condition : Expr} {increment : Option Expr}
    {body : Stmt} (span : Span) (hi : ∀ ctx, Mentions P (Decl.allSites ctx initializer.toList))
    (hcond : ∀ ctx, Mentions P (condition.sites ctx))
    (hincr : ∀ ctx, ∀ x ∈ increment, Mentions P (x.sites ctx))
    (hbody : ∀ ctx, Mentions P (body.sites ctx)) (ctx : Context) :
    Mentions P ((Parser.forLoop initializer condition increment body span).sites ctx) := by
  have hstep : ∀ ctx, Mentions P (Decl.allSites ctx
      (increment.toList.map fun e => .statement (.expression e e.span))) := by
    intro ctx
    cases increment with
    | none => exact mentions_nil
    | some e => exact mentions_append.2 ⟨hincr ctx e rfl, mentions_nil⟩
  simp only [Parser.forLoop, Stmt.sites, Decl.allSites_append, Decl.allSites, Decl.sites,
    mentions_append]
  exact ⟨hi _, ⟨hcond _, hbody _, hstep _⟩, mentions_nil⟩

mutual

/-- **The names in declarations are spelled by their tokens.** -/
theorem Declarations.names {ts : List Token} {s s' : Supply} {ds : List Decl} :
    Declarations ts s ds s' → ∀ ctx, Spells P ts → Mentions P (Decl.allSites ctx ds)
  | .nil, _, _ => mentions_nil
  | .cons h hs, ctx, hts => by
      rw [spells_append] at hts
      exact mentions_append.2 ⟨h.names ctx hts.1, hs.names _ hts.2⟩

theorem Declaration.names {ts : List Token} {s s' : Supply} {d : Decl} :
    Declaration ts s d s' → ∀ ctx, Spells P ts → Mentions P (d.sites ctx)
  | .classDecl _ hn hp _ hm _, ctx, hts => by
      simp only [spells_append, spells_cons] at hts
      obtain ⟨-, hname, ht, -, hu, -⟩ := hts
      refine mentions_cons.2 ⟨?_, mentions_append.2 ⟨hp.names _ _ ht, hm.names _ hu⟩⟩
      rintro _ ⟨⟩
      exact hname hn
  | .funDecl _ h, ctx, hts => by
      have hts := (spells_cons.1 hts).2
      refine mentions_cons.2 ⟨?_, h.names _ hts⟩
      cases h with
      | mk hn _ _ _ _ =>
          rintro _ ⟨⟩
          exact (spells_cons.1 hts).1 hn
  | .varDecl h, ctx, hts => h.names ctx hts
  | .statement h, ctx, hts => h.names ctx hts

theorem Methods.names {ts : List Token} {s s' : Supply} {rs : List Routine} :
    Methods ts s rs s' → ∀ ctx, Spells P ts → Mentions P (Routine.allSites ctx rs)
  | .nil, _, _ => mentions_nil
  | .cons h hs, ctx, hts => by
      rw [spells_append] at hts
      exact mentions_append.2 ⟨h.names ctx hts.1, hs.names ctx hts.2⟩

theorem Function.names {ts : List Token} {s s' : Supply} {r : Routine} :
    Function ts s r s' → ∀ ctx, Spells P ts → Mentions P (r.sites ctx)
  | .mk _ _ hp _ hb, ctx, hts => by
      simp only [spells_append, spells_cons] at hts
      obtain ⟨-, -, ht, -, hu⟩ := hts
      refine mentions_cons.2 ⟨?_, mentions_append.2 ⟨hp.names _ ht, hb.names _ hu⟩⟩
      rintro _ ⟨⟩

theorem Block.names {ts : List Token} {s s' : Supply} {body : List Decl} :
    Block ts s body s' → ∀ ctx, Spells P ts → Mentions P (Decl.allSites ctx body)
  | .mk _ h _, ctx, hts => h.names ctx (spells_append.1 (spells_cons.1 hts).2).1

theorem Statement.names {dangling : Bool} {ts : List Token} {s s' : Supply} {stmt : Stmt} :
    Statement dangling ts s stmt s' → ∀ ctx, Spells P ts → Mentions P (stmt.sites ctx)
  | .expression h _, ctx, hts => h.names ctx (spells_append.1 hts).1
  | .print _ h _, ctx, hts => h.names ctx (spells_append.1 (spells_cons.1 hts).2).1
  | .ret _ .none _, _, _ => mentions_no_name rfl
  | .ret _ (.some h) _, ctx, hts => by
      refine mentions_cons.2 ⟨?_, h.names ctx (spells_append.1 (spells_cons.1 hts).2).1⟩
      rintro _ ⟨⟩
  | .block h, ctx, hts => h.names _ hts
  | .ifThen _ _ h _ ht, ctx, hts => by
      simp only [spells_append, spells_cons] at hts
      obtain ⟨-, -, hc, -, hu⟩ := hts
      exact mentions_append.2 ⟨h.names ctx hc, ht.names ctx hu⟩
  | .ifElse _ _ h _ ht _ he, ctx, hts => by
      simp only [spells_append, spells_cons] at hts
      obtain ⟨-, -, hc, -, hu, -, hv⟩ := hts
      exact mentions_append.2 ⟨mentions_append.2 ⟨h.names ctx hc, ht.names ctx hu⟩,
        he.names ctx hv⟩
  | .whileLoop _ _ h _ hb, ctx, hts => by
      simp only [spells_append, spells_cons] at hts
      obtain ⟨-, -, hc, -, hu⟩ := hts
      exact mentions_append.2 ⟨h.names ctx hc, hb.names ctx hu⟩
  | .forLoop _ _ hi hcond hincr _ hb, ctx, hts => by
      simp only [spells_append, spells_cons] at hts
      obtain ⟨-, -, ht, hu, hv, -, hw⟩ := hts
      exact forLoop_names _ (fun c => hi.names c ht) (fun c => hcond.names c hu)
        (fun c => hincr.names c hv) (fun c => hb.names c hw) ctx

end

end Phrase

end Names

end Scriptlet
