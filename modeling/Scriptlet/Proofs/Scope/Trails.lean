/-
**Where a place of a program stands.**

The *trail* of a place lists the constructs around it, from the inside out, each with what of it
stands in front of the place: the declarations or parameters before it, and the name of a
declaration that it is a part of.  A trail is read off the tree alone.  It tells which local scopes
are around the place and which names they have declared in front of it, whether the place is inside
a routine, and which class is around it.

What resolution knows at a place is all on its trail.  So what it carries along on its way through
a program, and takes back behind each routine, class and block, can be told from the place alone.

Main definitions:

* `Scriptlet.Enclosure`, `Scriptlet.Trail` — the constructs around a place;
* `Scriptlet.Trail.scopes`, `Scriptlet.Trail.InRoutine`, `Scriptlet.Trail.innermostClass?`,
  `Scriptlet.Trail.here` — the scopes around a place, whether it is inside a routine, the class
  around it, and the constructs between it and the innermost scope;
* `Scriptlet.Trail.Binds` — **the innermost scope that has declared a name**;
* `Scriptlet.Spot`, `Scriptlet.Program.spots` — what a program mentions, and on which trail;
* `Scriptlet.Trail.context` — what resolution knows at a place.

Main results:

* `Scriptlet.Program.sites_eq_spots` — **resolution meets each mention in the context of its
  trail**;
* `Scriptlet.Trail.rows_context`, `Scriptlet.Trail.inRoutine_context`,
  `Scriptlet.Trail.classAround_context` — that context says what the trail says;
* `Scriptlet.Trail.distance?_context` — its distances lead to the innermost scope with the name.
-/

import Scriptlet.Proofs.Scope.Rows
import Scriptlet.Proofs.Scope.Sites

set_option relaxedAutoImplicit false
set_option autoImplicit false

namespace Scriptlet

/-! ### Trails -/

/-- The name that a declaration declares. -/
def Decl.name? : Decl → Option String
  | .classDecl name _ _ _ _ => some name
  | .funDecl routine _ => some routine.name
  | .varDecl name _ _ _ => some name
  | .statement _ => none

/-- A construct around a place of a program, with what of it stands in front of the place. -/
inductive Enclosure
  /-- Declarations that follow one another, and those of them that stand in front of the place. -/
  | after (before : List Decl)
  /-- The initialiser of a variable. -/
  | initializer (name : String)
  /-- The declaration of a function, behind its name. -/
  | funDecl (name : String)
  /-- The declaration of a class, behind its name. -/
  | classDecl (name : String)
  /-- The body of a class. -/
  | classBody (superclass : Option Superclass)
  /-- A routine, and those of its parameters that stand in front of the place. -/
  | routine (before : List Param)
  /-- A block. -/
  | block

namespace Enclosure

/-- The names that a construct declares in front of the place, in the scope around the construct;
the latest comes first. -/
def declared : Enclosure → List String
  | .after before => (before.filterMap Decl.name?).reverse
  | .initializer name | .funDecl name | .classDecl name => [name]
  | .classBody _ | .routine _ | .block => []

/-- The scopes that a construct opens, the innermost first, each with the names that it declares by
opening it.  The parameters of a routine share the scope of its body; a class opens a scope for
`this`, and around it one for `super` if it has a superclass. -/
def opened : Enclosure → List (List String)
  | .block => [[]]
  | .routine before => [(before.map Param.name).reverse]
  | .classBody none => [["this"]]
  | .classBody (some _) => [["this"], ["super"]]
  | .after _ | .initializer _ | .funDecl _ | .classDecl _ => []

/-- The superclass clause of a construct that is the body of a class. -/
def classBody? : Enclosure → Option (Option Superclass)
  | .classBody superclass => some superclass
  | _ => none

end Enclosure

/-- The constructs around a place, the innermost first. -/
abbrev Trail := List Enclosure

/-- Scopes of which the innermost has declared more names.  Outside of all scopes there is none to
declare them. -/
def declaring (names : List String) : List (List String) → List (List String)
  | [] => []
  | row :: rows => (names ++ row) :: rows

namespace Trail

/-- **The local scopes around a place**, the innermost first, each with the names that it has
declared in front of the place. -/
def scopes : Trail → List (List String)
  | [] => []
  | e :: t => e.opened ++ declaring e.declared (scopes t)

/-- A place inside the body of a function or method, or among its parameters. -/
def InRoutine (t : Trail) : Prop := ∃ before, .routine before ∈ t

/-- The superclass clause of the innermost class around a place, if there is a class. -/
def innermostClass? (t : Trail) : Option (Option Superclass) := t.findSome? Enclosure.classBody?

/-- The constructs between a place and the innermost scope around it; outside of all scopes, all
constructs around the place. -/
def here (t : Trail) : List Enclosure := t.takeWhile fun e => e.opened.isEmpty

/-- **A name that the scope at a distance has declared in front of a place, as the innermost scope
to do so.**  The distance is the number of scopes that are strictly inside. -/
structure Binds (t : Trail) (name : String) (distance : Nat) : Prop where
  /-- The scope at the distance has declared the name. -/
  declared : ∃ names, t.scopes[distance]? = some names ∧ name ∈ names
  /-- No scope strictly inside it has. -/
  innermost : ∀ k < distance, ∀ names, t.scopes[k]? = some names → name ∉ names

end Trail

/-! ### Spots -/

/-- Something that a program mentions, and the trail on which it does. -/
structure Spot where
  /-- Where the program mentions it. -/
  trail : Trail
  /-- What the program mentions. -/
  mention : Mention

mutual

/-- What an expression mentions, in the order of resolution. -/
def Expr.mentions : Expr → List Mention
  | .constant _ _ => []
  | .grouping _ inner => inner.mentions
  | .unary _ _ operand => operand.mentions
  | .binary _ left _ _ right => left.mentions ++ right.mentions
  | .logical _ left _ right => left.mentions ++ right.mentions
  | .ternary _ condition _ thenBranch elseBranch =>
      condition.mentions ++ thenBranch.mentions ++ elseBranch.mentions
  | .variable mark name => [.read mark name]
  | .assign mark name value => value.mentions ++ [.write mark name]
  | .call _ callee arguments _ => callee.mentions ++ Expr.allMentions arguments
  | .get _ object _ => object.mentions
  | .set _ object _ value => value.mentions ++ object.mentions
  | .thisRef mark => [.receiver mark]
  | .superRef mark _ => [.ancestor mark]
termination_by structural e => e

/-- What expressions mention. -/
def Expr.allMentions : List Expr → List Mention
  | [] => []
  | e :: es => e.mentions ++ Expr.allMentions es
termination_by structural es => es

end

/-- The spots of an expression: no construct that is listed on a trail stands in one. -/
def Expr.spots (t : Trail) (e : Expr) : List Spot := e.mentions.map (Spot.mk t)

/-- The spots of parameters behind others. -/
def Param.allSpots (t : Trail) (before : List Param) : List Param → List Spot
  | [] => []
  | p :: ps =>
      ⟨.routine before :: t, .declared p.name p.span⟩ :: Param.allSpots t (before ++ [p]) ps

/-- The spot of a superclass. -/
def Superclass.spots (t : Trail) (className : String) : Option Superclass → List Spot
  | none => []
  | some parent => [⟨t, .parent parent.mark parent.name className⟩]

mutual

/-- The spots of a routine, the routine itself being the first. -/
def Routine.spots (t : Trail) : Routine → List Spot
  | .mk label name params body span =>
      ⟨t, .routine (.mk label name params body span)⟩
        :: (Param.allSpots t [] params ++ Decl.allSpots (.routine params :: t) [] body)
termination_by structural r => r

/-- The spots of routines that stand side by side. -/
def Routine.allSpots (t : Trail) : List Routine → List Spot
  | [] => []
  | r :: rs => r.spots t ++ Routine.allSpots t rs
termination_by structural rs => rs

/-- The spots of a declaration. -/
def Decl.spots (t : Trail) : Decl → List Spot
  | .classDecl name nameSpan superclass methods _ =>
      ⟨t, .declared name nameSpan⟩
        :: (Superclass.spots (.classDecl name :: t) name superclass
          ++ Routine.allSpots (.classBody superclass :: .classDecl name :: t) methods)
  | .funDecl routine _ =>
      ⟨t, .declared routine.name routine.span⟩ :: routine.spots (.funDecl routine.name :: t)
  | .varDecl name nameSpan none _ => [⟨t, .declared name nameSpan⟩]
  | .varDecl name nameSpan (some value) _ =>
      ⟨t, .declared name nameSpan⟩ :: value.spots (.initializer name :: t)
  | .statement stmt => stmt.spots t
termination_by structural d => d

/-- The spots of declarations behind others. -/
def Decl.allSpots (t : Trail) (before : List Decl) : List Decl → List Spot
  | [] => []
  | d :: ds => d.spots (.after before :: t) ++ Decl.allSpots t (before ++ [d]) ds
termination_by structural ds => ds

/-- The spots of a statement. -/
def Stmt.spots (t : Trail) : Stmt → List Spot
  | .expression e _ => e.spots t
  | .print e _ => e.spots t
  | .ret keyword none _ => [⟨t, .returned keyword⟩]
  | .ret keyword (some value) _ => ⟨t, .returned keyword⟩ :: value.spots t
  | .block body _ => Decl.allSpots (.block :: t) [] body
  | .ifElse condition thenBranch none _ => condition.spots t ++ thenBranch.spots t
  | .ifElse condition thenBranch (some elseBranch) _ =>
      condition.spots t ++ thenBranch.spots t ++ elseBranch.spots t
  | .whileLoop condition body _ => condition.spots t ++ body.spots t
termination_by structural s => s

end

/-- **The spots of a program**, in the order of resolution. -/
def Program.spots (p : Program) : List Spot := Decl.allSpots [] [] p.declarations

/-! ### Contexts of trails -/

/-- What resolution knows at a place. -/
def Trail.context : Trail → Context
  | [] => .global
  | .after before :: t => before.foldl Decl.after (context t)
  | .initializer name :: t => { (context t).declare name with initializing := some name }
  | .funDecl name :: t => (context t).define name
  | .classDecl name :: t => (context t).declare name
  | .classBody superclass :: t => (context t).inClass superclass
  | .routine before :: t => (context t).inRoutineOf before
  | .block :: t => (context t).opening []

/-- The site at which resolution meets a spot. -/
def Spot.site (s : Spot) : Site := ⟨s.trail.context, s.mention⟩

mutual

theorem Expr.sites_eq_mentions (ctx : Context) : ∀ e : Expr,
    e.sites ctx = e.mentions.map (Site.mk ctx)
  | .constant _ _ => rfl
  | .grouping _ inner => inner.sites_eq_mentions ctx
  | .unary _ _ operand => operand.sites_eq_mentions ctx
  | .binary _ left _ _ right => by
      simp only [Expr.sites, Expr.mentions, List.map_append, left.sites_eq_mentions ctx,
        right.sites_eq_mentions ctx]
  | .logical _ left _ right => by
      simp only [Expr.sites, Expr.mentions, List.map_append, left.sites_eq_mentions ctx,
        right.sites_eq_mentions ctx]
  | .ternary _ condition _ thenBranch elseBranch => by
      simp only [Expr.sites, Expr.mentions, List.map_append, condition.sites_eq_mentions ctx,
        thenBranch.sites_eq_mentions ctx, elseBranch.sites_eq_mentions ctx]
  | .variable _ _ => rfl
  | .assign _ _ value => by
      simp only [Expr.sites, Expr.mentions, List.map_append, value.sites_eq_mentions ctx]
      rfl
  | .call _ callee arguments _ => by
      simp only [Expr.sites, Expr.mentions, List.map_append, callee.sites_eq_mentions ctx,
        Expr.allSites_eq_mentions ctx arguments]
  | .get _ object _ => object.sites_eq_mentions ctx
  | .set _ object _ value => by
      simp only [Expr.sites, Expr.mentions, List.map_append, value.sites_eq_mentions ctx,
        object.sites_eq_mentions ctx]
  | .thisRef _ => rfl
  | .superRef _ _ => rfl

theorem Expr.allSites_eq_mentions (ctx : Context) : ∀ es : List Expr,
    Expr.allSites ctx es = (Expr.allMentions es).map (Site.mk ctx)
  | [] => rfl
  | e :: es => by
      simp only [Expr.allSites, Expr.allMentions, List.map_append, e.sites_eq_mentions ctx,
        Expr.allSites_eq_mentions ctx es]

end

theorem Expr.sites_eq_spots (t : Trail) (e : Expr) :
    e.sites t.context = (e.spots t).map Spot.site := by
  rw [e.sites_eq_mentions, spots, List.map_map]
  rfl

theorem Context.inRoutineOf_append (ctx : Context) (before : List Param) (p : Param) :
    ctx.inRoutineOf (before ++ [p]) = (ctx.inRoutineOf before).define p.name := by
  rw [inRoutineOf, List.foldl_append]
  rfl

theorem Param.allSites_eq_spots (t : Trail) (before ps : List Param) :
    Param.allSites (t.context.inRoutineOf before) ps =
      (Param.allSpots t before ps).map Spot.site := by
  induction ps generalizing before with
  | nil => rfl
  | cons p ps ih =>
      rw [allSites, allSpots, List.map_cons, ← ih, Context.inRoutineOf_append]
      rfl

theorem Superclass.sites_eq_spots (t : Trail) (className : String)
    (superclass : Option Superclass) :
    Superclass.sites t.context className superclass =
      (Superclass.spots t className superclass).map Spot.site := by
  cases superclass <;> rfl

mutual

theorem Routine.sites_eq_spots (t : Trail) : ∀ r : Routine,
    r.sites t.context = (r.spots t).map Spot.site
  | .mk _ _ params body _ => by
      have hparams := Param.allSites_eq_spots t [] params
      have hbody := Decl.allSites_eq_spots (.routine params :: t) [] body
      rw [Routine.sites, Routine.spots, List.map_cons, List.map_append, ← hparams, ← hbody]
      rfl

theorem Routine.allSites_eq_spots (t : Trail) : ∀ rs : List Routine,
    Routine.allSites t.context rs = (Routine.allSpots t rs).map Spot.site
  | [] => rfl
  | r :: rs => by
      rw [Routine.allSites, Routine.allSpots, List.map_append, r.sites_eq_spots,
        Routine.allSites_eq_spots t rs]

theorem Decl.sites_eq_spots (t : Trail) : ∀ d : Decl,
    d.sites t.context = (d.spots t).map Spot.site
  | .classDecl name _ superclass methods _ => by
      have hparent := Superclass.sites_eq_spots (.classDecl name :: t) name superclass
      have hmethods :=
        Routine.allSites_eq_spots (.classBody superclass :: .classDecl name :: t) methods
      rw [Decl.sites, Decl.spots, List.map_cons, List.map_append, ← hparent, ← hmethods]
      rfl
  | .funDecl routine _ => by
      have hroutine := routine.sites_eq_spots (.funDecl routine.name :: t)
      rw [Decl.sites, Decl.spots, List.map_cons, ← hroutine]
      rfl
  | .varDecl _ _ none _ => rfl
  | .varDecl name _ (some value) _ => by
      have hvalue := value.sites_eq_spots (.initializer name :: t)
      rw [Decl.sites, Decl.spots, List.map_cons, ← hvalue]
      rfl
  | .statement stmt => stmt.sites_eq_spots t

theorem Decl.allSites_eq_spots (t : Trail) (before : List Decl) : ∀ ds : List Decl,
    Decl.allSites (before.foldl Decl.after t.context) ds =
      (Decl.allSpots t before ds).map Spot.site
  | [] => rfl
  | d :: ds => by
      have hd := d.sites_eq_spots (.after before :: t)
      have hds := Decl.allSites_eq_spots t (before ++ [d]) ds
      rw [List.foldl_append] at hds
      rw [Decl.allSites, Decl.allSpots, List.map_append, ← hd, ← hds]
      rfl

theorem Stmt.sites_eq_spots (t : Trail) : ∀ s : Stmt,
    s.sites t.context = (s.spots t).map Spot.site
  | .expression e _ => e.sites_eq_spots t
  | .print e _ => e.sites_eq_spots t
  | .ret _ none _ => rfl
  | .ret _ (some value) _ => by
      rw [Stmt.sites, Stmt.spots, List.map_cons, value.sites_eq_spots]
      rfl
  | .block body _ => Decl.allSites_eq_spots (.block :: t) [] body
  | .ifElse condition thenBranch none _ => by
      rw [Stmt.sites, Stmt.spots, List.map_append, condition.sites_eq_spots,
        thenBranch.sites_eq_spots]
  | .ifElse condition thenBranch (some elseBranch) _ => by
      rw [Stmt.sites, Stmt.spots, List.map_append, List.map_append, condition.sites_eq_spots,
        thenBranch.sites_eq_spots, elseBranch.sites_eq_spots]
  | .whileLoop condition body _ => by
      rw [Stmt.sites, Stmt.spots, List.map_append, condition.sites_eq_spots, body.sites_eq_spots]

end

/-- **Resolution meets each mention in the context of its trail.** -/
theorem Program.sites_eq_spots (p : Program) : p.sites = p.spots.map Spot.site :=
  Decl.allSites_eq_spots [] [] p.declarations

/-! ### What the context of a trail says -/

@[simp] theorem declaring_nil (rows : List (List String)) : declaring [] rows = rows := by
  cases rows <;> rfl

theorem declaring_append (names names' : List String) (rows : List (List String)) :
    declaring (names ++ names') rows = declaring names (declaring names' rows) := by
  cases rows with
  | nil => rfl
  | cons row rows => exact congrArg (· :: rows) (List.append_assoc names names' row)

theorem enterRow_eq_declaring (name : String) (rows : List (List String)) :
    enterRow name rows = declaring [name] rows := by
  cases rows <;> rfl

namespace Context

theorem rows_after (ctx : Context) (d : Decl) :
    (d.after ctx).rows = declaring d.name?.toList ctx.rows := by
  cases d with
  | statement stmt => exact (declaring_nil _).symm
  | _ =>
      simp only [Decl.after, rows_define, enterRow_eq_declaring]
      rfl

theorem rows_foldl_after (ctx : Context) (before : List Decl) :
    (before.foldl Decl.after ctx).rows =
      declaring (before.filterMap Decl.name?).reverse ctx.rows := by
  induction before generalizing ctx with
  | nil => exact (declaring_nil _).symm
  | cons d ds ih =>
      rw [List.foldl_cons, ih, rows_after, ← declaring_append, List.filterMap_cons]
      cases d.name? with
      | none => rw [Option.toList_none, List.append_nil]
      | some name => rw [Option.toList_some, List.reverse_cons]

theorem rows_inRoutineOf (ctx : Context) (before : List Param) :
    (ctx.inRoutineOf before).rows = (before.map Param.name).reverse :: ctx.rows := by
  suffices h : ∀ (ps : List Param) (c : Context),
      (ps.foldl (fun c p => c.define p.name) c).rows =
        declaring (ps.map Param.name).reverse c.rows by
    rw [inRoutineOf, h]
    change declaring _ (ctx.opening []).rows = _
    rw [rows_opening, declaring, List.append_nil]
  intro ps
  induction ps with
  | nil => exact fun _ => (declaring_nil _).symm
  | cons p ps ih =>
      intro c
      rw [List.foldl_cons, ih, rows_define, enterRow_eq_declaring, ← declaring_append,
        List.map_cons, List.reverse_cons]

theorem inRoutine_foldl_after (ctx : Context) (before : List Decl) :
    (before.foldl Decl.after ctx).inRoutine = ctx.inRoutine :=
  List.foldlRecOn (motive := fun c : Context => c.inRoutine = ctx.inRoutine) before _ rfl
    fun c hc d _ => (inRoutine_after c d).trans hc

theorem classAround_after (ctx : Context) (d : Decl) :
    (d.after ctx).classAround = ctx.classAround := by
  cases d <;> simp only [Decl.after, define, classAround_enter]

theorem classAround_foldl_after (ctx : Context) (before : List Decl) :
    (before.foldl Decl.after ctx).classAround = ctx.classAround :=
  List.foldlRecOn (motive := fun c : Context => c.classAround = ctx.classAround) before _ rfl
    fun c hc d _ => (classAround_after c d).trans hc

theorem classAround_inRoutineOf (ctx : Context) (before : List Param) :
    (ctx.inRoutineOf before).classAround = ctx.classAround :=
  List.foldlRecOn (motive := fun c : Context => c.classAround = ctx.classAround) before _ rfl
    fun c hc p _ => (c.classAround_enter p.name true).trans hc

theorem inRoutine_inClass (ctx : Context) (superclass : Option Superclass) :
    (ctx.inClass superclass).inRoutine = ctx.inRoutine := by
  cases superclass <;> rfl

end Context

namespace Trail

/-- **The names of the open scopes are those that the scopes on the trail have declared.** -/
theorem rows_context (t : Trail) : t.context.rows = t.scopes := by
  induction t with
  | nil => rfl
  | cons e t ih =>
      rw [scopes, ← ih]
      cases e with
      | after before => exact Context.rows_foldl_after _ before
      | initializer name =>
          change ((context t).declare name).rows = _
          rw [Context.rows_declare, enterRow_eq_declaring]
          rfl
      | funDecl name =>
          rw [context, Context.rows_define, enterRow_eq_declaring]
          rfl
      | classDecl name =>
          rw [context, Context.rows_declare, enterRow_eq_declaring]
          rfl
      | classBody superclass =>
          rw [context, Context.rows_inClass, Enclosure.declared, declaring_nil]
          cases superclass <;> rfl
      | routine before =>
          rw [context, Context.rows_inRoutineOf, Enclosure.declared, declaring_nil]
          rfl
      | block =>
          rw [context, Context.rows_opening, Enclosure.declared, declaring_nil]
          rfl

theorem inRoutine_cons (e : Enclosure) (t : Trail) :
    InRoutine (e :: t) ↔ (∃ before, e = .routine before) ∨ t.InRoutine := by
  simp only [InRoutine, List.mem_cons, exists_or, eq_comm]

/-- Resolution knows whether a place is inside a routine. -/
theorem inRoutine_context (t : Trail) : t.context.inRoutine = true ↔ t.InRoutine := by
  induction t with
  | nil =>
      constructor
      · nofun
      · rintro ⟨before, h⟩
        cases h
  | cons e t ih =>
      rw [inRoutine_cons, ← ih]
      cases e with
      | routine before => simp [context, Context.inRoutine_inRoutineOf]
      | after before => simp [context, Context.inRoutine_foldl_after]
      | classBody superclass => simp [context, Context.inRoutine_inClass]
      | block => simp [context, Context.opening]
      | _ => simp [context, Context.declare, Context.define]

/-- Resolution knows which class is around a place. -/
theorem classAround_context (t : Trail) :
    t.context.classAround =
      match t.innermostClass? with
      | none => .none
      | some none => .plain
      | some (some _) => .derived := by
  induction t with
  | nil => rfl
  | cons e t ih =>
      cases e with
      | classBody superclass => cases superclass <;> rfl
      | after before => exact (Context.classAround_foldl_after _ before).trans ih
      | routine before => exact (Context.classAround_inRoutineOf _ before).trans ih
      | block => exact ih
      | initializer name | funDecl name | classDecl name =>
          exact (Context.classAround_enter _ name _).trans ih

/-- **The distance of a name leads to the innermost scope that has declared it.** -/
theorem distance?_context (t : Trail) (name : String) (distance : Nat) :
    t.context.distance? name = some distance ↔ t.Binds name distance := by
  rw [Context.distance?_eq, rows_context, rowOf?, List.findIdx?_eq_some_iff_getElem]
  constructor
  · rintro ⟨hlt, hmem, hinner⟩
    refine ⟨⟨_, List.getElem?_eq_getElem hlt, by simpa using hmem⟩, fun k hk names hnames => ?_⟩
    obtain ⟨hk', rfl⟩ := List.getElem?_eq_some_iff.1 hnames
    simpa using hinner k hk
  · rintro ⟨⟨names, hnames, hmem⟩, hinner⟩
    obtain ⟨hlt, rfl⟩ := List.getElem?_eq_some_iff.1 hnames
    refine ⟨hlt, by simpa using hmem, fun k hk => ?_⟩
    simpa using hinner k hk _ (List.getElem?_eq_getElem (Nat.lt_trans hk hlt))

end Trail

end Scriptlet
