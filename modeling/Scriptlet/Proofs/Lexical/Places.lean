/-
**Places of a program, seen by two machines.**

When two machines are at a place of a program, one with resolutions and one that looks names up, the
context of the place says what the chain of frames of the one and the locations of the other have in
common.  There are three sorts of places.  An expression may stand in the initialiser of a variable
that is not bound yet.  A declaration or statement stands where all visible names are bound, and
adds to the scope around it.  And a declaration that has been announced has a location, but its name
is not bound yet.

A program is fit to run if the distances of its references are those of its contexts and its names
are in order.

Main definitions:

* `Scriptlet.Site.Good`, `Scriptlet.Fit`, `Scriptlet.Lawful` — sites in order, and routines whose
  sites are;
* `Scriptlet.Seen`, `Scriptlet.Stands`, `Scriptlet.Announced` — the three sorts of places.

Main results:

* `Scriptlet.Stands.announce_local`, `Scriptlet.Stands.announce_global`, `Scriptlet.Announced.seen`,
  `Scriptlet.Announced.settle` — **a declaration, from its location to its value**;
* `Scriptlet.Stands.block`, `Scriptlet.Settled.routine` — the places inside a block and a routine.
-/

import Scriptlet.Proofs.Lexical.Atlas
import Scriptlet.Proofs.Lexical.Alike
import Scriptlet.Proofs.Scope.Sites

set_option relaxedAutoImplicit false
set_option autoImplicit false

namespace Scriptlet

/-! ### Sites in order -/

/-- A site is in order: its reference has the distance of its context, and its name may stand
there. -/
def Site.Good (distances : ResolutionMap) (s : Site) : Prop :=
  match s.mention with
  | .read mark name =>
      s.ctx.inOwnInitializer name = false ∧ distances[mark.id]? = s.ctx.distance? name
  | .write mark name => Plain name ∧ distances[mark.id]? = s.ctx.distance? name
  | .receiver mark => distances[mark.id]? = s.ctx.distance? "this"
  | .ancestor mark =>
      s.ctx.classAround = .derived ∧ distances[mark.id]? = s.ctx.distance? "super"
  | .parent mark name className =>
      name ≠ className ∧ distances[mark.id]? = s.ctx.distance? name
  | .declared name span => Plain name ∧ s.ctx.clash name span = []
  | .returned _ => s.ctx.inRoutine = true
  | .routine _ => True

/-- Sites that are known and in order. -/
def Fit (K : Known) (distances : ResolutionMap) (sites : List Site) : Prop :=
  ∀ s ∈ sites, K s ∧ s.Good distances

/-- The sites of known routines are in order. -/
structure Lawful (K : Known) (distances : ResolutionMap) : Prop where
  labelled : K.Labelled
  fit : ∀ ⦃ctx r⦄, K ⟨ctx, .routine r⟩ → Fit K distances (r.sites ctx)

section Fit

variable {K : Known} {distances : ResolutionMap} {site : Site} {sites sites' : List Site}

theorem fit_append : Fit K distances (sites ++ sites') ↔
    Fit K distances sites ∧ Fit K distances sites' := List.forall_mem_append

theorem fit_cons : Fit K distances (site :: sites) ↔
    (K site ∧ site.Good distances) ∧ Fit K distances sites := List.forall_mem_cons

end Fit

/-! ### The places of expressions -/

/-- A variable is awaited in its own initialiser. -/
theorem Context.inOwnInitializer_declare (ctx : Context) (name : String) :
    ({ ctx.declare name with initializing := some name } : Context).inOwnInitializer name =
      true := by
  obtain ⟨scopes, inRoutine, classAround, initializing⟩ := ctx
  cases scopes with
  | nil => simp [declare, enter, Context.inOwnInitializer]
  | cons s ss => simp [declare, enter, Context.inOwnInitializer, Scope.awaits]

/-- A place of an expression.  All visible names are bound but for the variable whose initialiser is
being read. -/
structure Seen (A : Atlas) (ctx : Context) (chain locations : List FrameId) : Prop where
  placed : Placed A ctx.rows chain locations
  bound : ∀ ⦃x d a⦄, ctx.initializing ≠ some x → rowOf? ctx.rows x = some d →
    chain[d]? = some a → A.bound a x
  awaited : ∀ ⦃x⦄, ctx.initializing = some x → Plain x ∧ ctx.inOwnInitializer x = true
  nested : ctx.WellNested

/-! ### The places of declarations and statements -/

/-- A place of a declaration or statement.  The locations of the innermost frame belong to the names
that the innermost scope has declared. -/
structure Stands (A : Atlas) (ctx : Context) (chain locations : List FrameId) : Prop where
  settled : Settled A ctx.rows chain locations
  steady : ctx.Steady
  owned : ∀ ⦃row rows a rest⦄, ctx.rows = row :: rows → chain = a :: rest →
    ∀ ⦃l x⦄, A.home l = some (a, x) → x ∈ row

/-- The place of a declaration whose name has a location but is not bound. -/
structure Announced (A : Atlas) (ctx : Context) (name : String) (chain locations : List FrameId) :
    Prop where
  placed : Placed A (enterRow name ctx.rows) chain locations
  bound : ∀ ⦃x d a⦄, x ≠ name → rowOf? ctx.rows x = some d → chain[d]? = some a → A.bound a x
  steady : ctx.Steady
  owned : ∀ ⦃row rows a rest⦄, enterRow name ctx.rows = row :: rows → chain = a :: rest →
    ∀ ⦃l x⦄, A.home l = some (a, x) → x ∈ row

section Places

variable {own : Option FrameId} {A A' : Atlas} {ctx : Context} {chain locations : List FrameId}
  {name : String}

theorem Seen.mono (h : Seen A ctx chain locations) (hg : A.Grows own A') :
    Seen A' ctx chain locations :=
  ⟨h.placed.mono hg, fun _ _ _ hx hd ha => hg.bound (h.bound hx hd ha), h.awaited, h.nested⟩

/-- A known frame gets no location from what is executed elsewhere. -/
private theorem owned_mono {rows : List (List String)} (hp : Placed A rows chain locations)
    (h : ∀ ⦃row rs a rest⦄, rows = row :: rs → chain = a :: rest →
      ∀ ⦃l x⦄, A.home l = some (a, x) → x ∈ row)
    (hg : A.Grows none A') : ∀ ⦃row rs a rest⦄, rows = row :: rs → chain = a :: rest →
      ∀ ⦃l x⦄, A'.home l = some (a, x) → x ∈ row := by
  rintro row rs a rest rfl rfl l x hl
  rcases hg.fresh hl with hl | ht | ho
  · exact h rfl rfl hl
  · rw [hp.tail_eq] at ht
    cases ht
  · cases ho

theorem Stands.mono (h : Stands A ctx chain locations) (hg : A.Grows none A') :
    Stands A' ctx chain locations :=
  ⟨h.settled.mono hg, h.steady, owned_mono h.settled.placed h.owned hg⟩

theorem Announced.mono (h : Announced A ctx name chain locations) (hg : A.Grows none A') :
    Announced A' ctx name chain locations :=
  ⟨h.placed.mono hg, fun _ _ _ hx hd ha => hg.bound (h.bound hx hd ha), h.steady,
    owned_mono h.placed h.owned hg⟩

/-- The place of a declaration after a part of it has been executed. -/
theorem Announced.later {m m' n n' : Machine} (h : Announced A ctx name m.scope.chain n.scope.chain)
    (hg : A.Grows none A') (hm : m'.scope = m.scope) (hn : n'.scope = n.scope) :
    Announced A' ctx name m'.scope.chain n'.scope.chain := by
  rw [hm, hn]
  exact h.mono hg

/-- The place of an expression after a part of it has been evaluated. -/
theorem Seen.later {m m' n n' : Machine} (h : Seen A ctx m.scope.chain n.scope.chain)
    (hg : A.Grows own A') (hm : m'.scope = m.scope) (hn : n'.scope = n.scope) :
    Seen A' ctx m'.scope.chain n'.scope.chain := by
  rw [hm, hn]
  exact h.mono hg

/-- The place of a statement after a part of it has been executed. -/
theorem Stands.later {m m' n n' : Machine} (h : Stands A ctx m.scope.chain n.scope.chain)
    (hg : A.Grows none A') (hm : m'.scope = m.scope) (hn : n'.scope = n.scope) :
    Stands A' ctx m'.scope.chain n'.scope.chain := by
  rw [hm, hn]
  exact h.mono hg

/-- An expression stands where a statement does. -/
theorem Stands.seen (h : Stands A ctx chain locations) : Seen A ctx chain locations := by
  refine ⟨h.settled.placed, fun _ _ _ _ hd ha => h.settled.bound hd ha, fun x hx => ?_,
    h.steady.nested⟩
  rw [h.steady.initializing] at hx
  cases hx

/-- The place outside of all scopes. -/
theorem Stands.global (A : Atlas) : Stands A .global [0] [0] :=
  ⟨.globals A, Context.steady_global, nofun⟩

/-! ### Declarations -/

/-- Outside of all scopes a declaration needs no location. -/
theorem Stands.announce_global (h : Stands A ctx chain locations) (hrows : ctx.rows = []) :
    Announced A ctx name chain locations := by
  refine ⟨?_, fun _ _ _ _ hd ha => h.settled.bound hd ha, h.steady, fun row rows _ _ he => ?_⟩
  · have hp := h.settled.placed
    rw [hrows] at hp ⊢
    exact hp
  · rw [hrows] at he
    cases he

/-- A local declaration gets a location, which is the first of its name in its frame. -/
theorem Stands.announce_local (h : Stands A ctx chain locations) {row : List String}
    {rows : List (List String)} {a l : FrameId} {rest : List FrameId}
    (hrows : ctx.rows = row :: rows) (hchain : chain = a :: rest) (hl : A.home l = none) :
    Announced (A.withPlace l a name) ctx name chain (l :: locations) := by
  subst hchain
  have hg : A.Grows (some a) (A.withPlace l a name) := .withPlace hl (.inr rfl)
  refine ⟨?_, fun _ _ _ _ hd ha => h.settled.bound hd ha, h.steady,
    fun row' rows' b rest' he hb => ?_⟩
  · have hp := h.settled.placed.mono hg
    rw [hrows] at hp ⊢
    exact hp.enter (Atlas.home_withPlace_self ..)
  -- the new location is one of the innermost frame, and its name is declared now
  · intro k x hk
    cases hb
    rw [hrows] at he
    cases he
    simp only [Atlas.withPlace] at hk
    split at hk
    · cases hk
      exact List.mem_cons_self ..
    · exact List.mem_cons_of_mem _ (h.owned hrows rfl hk)

/-- No location belongs to the name of a local declaration before. -/
theorem Stands.free (h : Stands A ctx chain locations) {row : List String}
    {rows : List (List String)} {a : FrameId} {rest : List FrameId} {span : Span}
    (hrows : ctx.rows = row :: rows) (hchain : chain = a :: rest)
    (hclash : ctx.clash name span = []) (l : FrameId) : A.home l ≠ some (a, name) :=
  fun hl => Context.not_mem_of_clash hclash hrows (h.owned hrows hchain hl)

/-- The place of the initialiser of a variable. -/
theorem Announced.seen (h : Announced A ctx name chain locations) (hn : Plain name) :
    Seen A { ctx.declare name with initializing := some name } chain locations := by
  have hrows : ({ ctx.declare name with initializing := some name } : Context).rows =
      enterRow name ctx.rows := Context.rows_declare ctx name
  refine ⟨?_, fun x d a hx hd ha => ?_, fun x hx => ?_, ?_⟩
  · rw [hrows]
    exact h.placed
  · have hne : x ≠ name := fun e => hx (congrArg some e.symm)
    rw [hrows, rowOf?_enterRow hne] at hd
    exact h.bound hne hd ha
  · cases hx
    exact ⟨hn, ctx.inOwnInitializer_declare name⟩
  · exact h.steady.nested.enter hn false

/-- The place of the head of a class: its superclass is looked up here. -/
theorem Announced.bound_of_ne (h : Announced A ctx name chain locations) {x : String}
    (hx : x ≠ name) {d : Nat} {a : FrameId} (hd : (ctx.declare name).distance? x = some d)
    (ha : chain[d]? = some a) : A.bound a x := by
  rw [Context.distance?_eq, Context.rows_declare, rowOf?_enterRow hx] at hd
  exact h.bound hx hd ha

/-- A declaration is global, or its location is the newest and belongs to the innermost frame. -/
theorem Announced.newest (h : Announced A ctx name chain locations) :
    (ctx.rows = [] ∧ chain = [0] ∧ locations = [0]) ∨
      ∃ a l rest locations', chain = a :: rest ∧ locations = l :: locations' ∧
        A.home l = some (a, name) := by
  have hp := h.placed
  cases hrows : ctx.rows with
  | nil =>
      rw [hrows] at hp
      cases hp
      exact .inl ⟨rfl, rfl, rfl⟩
  | cons row rows =>
      rw [hrows] at hp
      -- the last name of the row that was entered is the first to have its location
      cases hp with
      | scope _ _ hrow =>
          cases hrow with
          | cons hl _ => exact .inr ⟨_, _, _, _, rfl, rfl, hl⟩

/-- **When the name of a local declaration is bound, the declaration is behind.** -/
theorem Announced.settle (h : Announced A ctx name chain locations) (hn : Plain name)
    (hb : ∀ row rows a rest, ctx.rows = row :: rows → chain = a :: rest → A.bound a name) :
    Stands A (ctx.define name) chain locations := by
  refine ⟨⟨?_, fun x d a hd ha => ?_⟩, h.steady.enter hn true, ?_⟩
  · rw [Context.rows_define]
    exact h.placed
  · rw [Context.rows_define] at hd
    -- the name is bound by the declaration; any other keeps its row and was bound before
    by_cases hx : x = name
    · subst hx
      cases hrows : ctx.rows with
      | nil =>
          rw [hrows] at hd
          cases hd
      | cons row rows =>
          rw [hrows, enterRow, rowOf?_cons, if_pos (List.mem_cons_self ..)] at hd
          cases hd
          cases chain with
          | nil => cases ha
          | cons b rest =>
              cases ha
              exact hb row rows a rest hrows rfl
    · rw [rowOf?_enterRow hx] at hd
      exact h.bound hx hd ha
  · rw [Context.rows_define]
    exact h.owned

/-! ### Blocks and routines -/

/-- The place at the start of a block. -/
theorem Stands.block (h : Stands A ctx chain locations) {a : FrameId} (ha : A.tail a = some chain)
    (hfree : ∀ l x, A.home l ≠ some (a, x)) :
    Stands A (ctx.opening []) (a :: chain) locations := by
  refine ⟨?_, h.steady.opening, fun row rows b rest _ hb l x hl => ?_⟩
  · rw [Context.rows_opening]
    exact h.settled.opened ha
  · cases hb
    exact absurd hl (hfree l x)

/-- The place at the start of a routine, in front of its parameters. -/
theorem Settled.routine (h : Settled A ctx.rows chain locations) (hs : ctx.Steady) {a : FrameId}
    (ha : A.tail a = some chain) (hfree : ∀ l x, A.home l ≠ some (a, x)) :
    Stands A { ctx.opening [] with inRoutine := true } (a :: chain) locations := by
  have hrows : ({ ctx.opening [] with inRoutine := true } : Context).rows = [] :: ctx.rows :=
    Context.rows_opening ctx []
  refine ⟨?_, ⟨hs.nested.opening, hs.initializing⟩, fun row rows b rest _ hb l x hl => ?_⟩
  · rw [hrows]
    exact h.opened ha
  · cases hb
    exact absurd hl (hfree l x)

end Places

end Scriptlet
