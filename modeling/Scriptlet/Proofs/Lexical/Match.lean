/-
**Runs that match.**

Two runs match if they both end with values that are alike and leave mirrored machines, or both fail
with the same error, or both run out of fuel.  An error of matching runs is never one by which a
machine would admit that resolution was wrong.

Main definitions:

* `Scriptlet.RuntimeFault.isInternal` — the faults of a run whose resolutions are wrong;
* `Scriptlet.Sim` — machines that mirror each other;
* `Scriptlet.Match` — **ends of runs that match**.

Main results:

* `Scriptlet.Match.bind`, `Scriptlet.Match.andThen`, `Scriptlet.Match.child`,
  `Scriptlet.Match.framed` — how matching runs are put together;
* `Scriptlet.lookUp_match`, `Scriptlet.assign_match`, `Scriptlet.superMethod_match` — references;
* `Scriptlet.announce_match`, `Scriptlet.define_match`, `Scriptlet.bindArguments_match`,
  `Scriptlet.makeClass_match` — declarations.
-/

import Scriptlet.Proofs.Lexical.Mirror
import Scriptlet.Proofs.Lexical.Places

set_option relaxedAutoImplicit false
set_option autoImplicit false

namespace Scriptlet

/-- A fault that only a run with wrong resolutions can have. -/
def RuntimeFault.isInternal : RuntimeFault → Bool
  | .unboundLocal _ | .unresolvedSuper | .initializerWithoutReceiver | .returnAtTopLevel => true
  | _ => false

/-- **Machines that mirror each other.** -/
structure Sim (K : Known) (A : Atlas) (m n : Machine) : Prop where
  store : Mirror K A m.store n.store
  globals : m.globals = ⟨[0]⟩
  depth : m.depth = n.depth
  output : m.output = n.output
  readings : m.readings = n.readings

/-- **Machines still mirror each other when the first enters a fresh frame** and the second a place
of its own. -/
theorem Sim.entering {K : Known} {A : Atlas} {m n : Machine} (h : Sim K A m n)
    (e e' : Environment) :
    ∃ A', A.Grows none A' ∧ Sim K A' (m.entering e) { n with scope := e' } ∧
      A'.tail m.store.frames.size = some e.chain ∧
      ∀ l x, A'.home l ≠ some (m.store.frames.size, x) :=
  ⟨A.withFrame m.store.frames.size e.chain, .withFrame none h.store.tail_fresh _,
    ⟨h.store.withFrame e, h.globals, h.depth, h.output, h.readings⟩, Atlas.tail_withFrame_self ..,
    fun _ _ hl => absurd (h.store.home hl).2.1 (Nat.lt_irrefl _)⟩

theorem Sim.known_mono {K K' : Known} {A : Atlas} {m n : Machine} (h : Sim K A m n)
    (hK : ∀ site, K site → K' site) : Sim K' A m n :=
  ⟨h.store.known_mono hK, h.globals, h.depth, h.output, h.readings⟩

section Match

variable {α β : Type}

/-- **Ends of runs that match.**  The first machine is back in its environment; of the environment
of the second, `Q` may speak. -/
inductive Match (K : Known) (own : Option FrameId) (A : Atlas) (scope : Environment)
    (Q : Atlas → α → β → Environment → Prop) : Outcome α → Outcome β → Prop
  | done {A' : Atlas} {a : α} {b : β} {m n : Machine} (grows : A.Grows own A') (sim : Sim K A' m n)
      (back : m.scope = scope) (post : Q A' a b n.scope) :
      Match K own A scope Q (.done a m) (.done b n)
  | failed {A' : Atlas} {e : RuntimeError} {m n : Machine} (sim : Sim K A' m n)
      (back : m.scope = scope) (fault : e.fault.isInternal = false) :
      Match K own A scope Q (.failed e m) (.failed e n)
  | starved : Match K own A scope Q .starved .starved

/-- Values that belong together, and the second machine is back in its environment, too. -/
def Back (P : Atlas → α → β → Prop) (e : Environment) (A : Atlas) (a : α) (b : β)
    (e' : Environment) : Prop :=
  P A a b ∧ e' = e

variable {K : Known} {own : Option FrameId} {A A' : Atlas} {scope : Environment}
  {Q R : Atlas → α → β → Environment → Prop} {m n : Machine}

namespace Match

variable {o : Outcome α} {o' : Outcome β}

/-- What matches in an atlas that has grown. -/
theorem grow (h : Match K own A' scope Q o o') (hg : A.Grows own A') :
    Match K own A scope Q o o' := by
  cases h with
  | done grows sim back post => exact .done (hg.trans grows) sim back post
  | failed sim back fault => exact .failed sim back fault
  | starved => exact .starved

theorem weaken (h : Match K none A scope Q o o') : Match K own A scope Q o o' := by
  cases h with
  | done grows sim back post => exact .done grows.weaken sim back post
  | failed sim back fault => exact .failed sim back fault
  | starved => exact .starved

theorem imp (h : Match K own A scope Q o o')
    (hQR : ∀ {A' a b e}, A.Grows own A' → Q A' a b e → R A' a b e) :
    Match K own A scope R o o' := by
  cases h with
  | done grows sim back post => exact .done grows sim back (hQR grows post)
  | failed sim back fault => exact .failed sim back fault
  | starved => exact .starved

theorem pure {a : α} {b : β} (hs : Sim K A m n) (hQ : Q A a b n.scope) :
    Match K own A m.scope Q ((Pure.pure a : Action α) m) ((Pure.pure b : Action β) n) :=
  .done (.refl own A) hs rfl hQ

theorem fail {fault : RuntimeFault} {span : Span} (hs : Sim K A m n)
    (hf : fault.isInternal = false) :
    Match K own A m.scope Q (Action.fail fault span m) (Action.fail fault span n) :=
  .failed hs rfl hf

/-- **Runs match if they start alike and go on alike.** -/
theorem bind {γ δ : Type} {S : Atlas → γ → δ → Environment → Prop} {x : Action α} {y : Action β}
    {f : α → Action γ} {g : β → Action δ} (h : Match K own A m.scope Q (x m) (y n))
    (hfg : ∀ {A' a b m' n'}, A.Grows own A' → Sim K A' m' n' → m'.scope = m.scope →
      Q A' a b n'.scope → Match K own A' m'.scope S (f a m') (g b n')) :
    Match K own A m.scope S ((x >>= f) m) ((y >>= g) n) := by
  rw [Action.bind_apply, Action.bind_apply]
  generalize x m = o at h ⊢
  generalize y n = o' at h ⊢
  cases h with
  | done grows sim back post =>
      have hfg := hfg grows sim back post
      rw [back] at hfg
      exact hfg.grow grows
  | failed sim back fault => exact .failed sim back fault
  | starved => exact .starved

/-- Runs match if they start alike, are back in their environments, and go on alike. -/
theorem andThen {γ δ : Type} {P : Atlas → α → β → Prop} {S : Atlas → γ → δ → Prop} {x : Action α}
    {y : Action β} {f : α → Action γ} {g : β → Action δ}
    (h : Match K own A m.scope (Back P n.scope) (x m) (y n))
    (hfg : ∀ {A' a b m' n'}, A.Grows own A' → Sim K A' m' n' → m'.scope = m.scope →
      n'.scope = n.scope → P A' a b →
      Match K own A' m'.scope (Back S n'.scope) (f a m') (g b n')) :
    Match K own A m.scope (Back S n.scope) ((x >>= f) m) ((y >>= g) n) := by
  refine h.bind fun hg hs hm hP => ?_
  have hnext := hfg hg hs hm hP.2 hP.1
  rw [hP.2] at hnext
  exact hnext

/-- A value, or a fault if there is none. -/
theorem require {a : Option α} {b : Option β} {fault : RuntimeFault} {span : Span}
    (hs : Sim K A m n) (hf : fault.isInternal = false)
    (h : Option.Rel (fun x y => Q A x y n.scope) a b) :
    Match K own A m.scope Q (Action.require a fault span m) (Action.require b fault span n) := by
  cases h with
  | some hQ => exact .pure hs hQ
  | none => exact .fail hs hf

/-- **An action in a fresh frame and one that forgets its locations at the end.** -/
theorem child {P : Atlas → α → β → Prop} {x : Action α} {y : Action β} (hs : Sim K A m n)
    (e e' : Environment)
    (h : ∀ {A₁}, A.Grows none A₁ → Sim K A₁ (m.entering e) { n with scope := e' } →
      A₁.tail m.store.frames.size = some e.chain →
      (∀ l x, A₁.home l ≠ some (m.store.frames.size, x)) →
      Match K (some m.store.frames.size) A₁ (m.entering e).scope (fun A' a b _ => P A' a b)
        (x (m.entering e)) (y { n with scope := e' })) :
    Match K none A m.scope (Back P n.scope) (Action.inChildOf e x m)
      (Action.within e' y n) := by
  obtain ⟨A₁, hg, hs₁, htail, hfree⟩ := hs.entering e e'
  have hmatch := h hg hs₁ htail hfree
  rw [Action.inChildOf_apply, Action.within_apply]
  generalize x _ = o at hmatch ⊢
  generalize y _ = o' at hmatch ⊢
  cases hmatch with
  | done grows sim back post =>
      -- The frame was not known before, so what its declarations added is of no concern outside.
      exact .done ((hg.weaken.trans grows).close hs.store.tail_fresh)
        ⟨sim.store, sim.globals, sim.depth, sim.output, sim.readings⟩ rfl ⟨post, rfl⟩
  | failed sim back fault =>
      exact .failed ⟨sim.store, sim.globals, sim.depth, sim.output, sim.readings⟩ rfl fault
  | starved => exact .starved

/-- Actions inside one more call. -/
theorem framed {x : Action α} {y : Action β} (hs : Sim K A m n)
    (h : ∀ {m' n'}, Sim K A m' n' → m'.scope = m.scope → n'.scope = n.scope →
      Match K own A m'.scope Q (x m') (y n')) :
    Match K own A m.scope Q (Action.framed x m) (Action.framed y n) := by
  have hmatch := @h { m with depth := m.depth + 1 } { n with depth := n.depth + 1 }
    ⟨hs.store, hs.globals, congrArg (· + 1) hs.depth, hs.output, hs.readings⟩ rfl rfl
  rw [Action.framed_apply, Action.framed_apply]
  generalize x _ = o at hmatch ⊢
  generalize y _ = o' at hmatch ⊢
  cases hmatch with
  | done grows sim back post =>
      exact .done grows
        ⟨sim.store, sim.globals, congrArg (· - 1) sim.depth, sim.output, sim.readings⟩ back post
  | failed sim back fault =>
      exact .failed ⟨sim.store, sim.globals, congrArg (· - 1) sim.depth, sim.output, sim.readings⟩
        back fault
  | starved => exact .starved

end Match

/-- Machines mirror each other with other stores. -/
theorem Sim.withStore {s t : Store} (h : Sim K A m n) (hst : Mirror K A' s t) :
    Sim K A' { m with store := s } { n with store := t } :=
  ⟨hst, h.globals, h.depth, h.output, h.readings⟩

end Match

/-! ### Actions that cannot fail -/

namespace Action

variable {α β : Type}

theorem read_bind (f : Machine → α) (k : α → Action β) (m : Machine) :
    (read f >>= k) m = k (f m) m := rfl

theorem onStore_bind (f : Store → α × Store) (k : α → Action β) (m : Machine) :
    (onStore f >>= k) m = k (f m.store).1 { m with store := (f m.store).2 } := rfl

theorem require_some_bind (a : α) (fault : RuntimeFault) (span : Span) (k : α → Action β)
    (m : Machine) : (require (some a) fault span >>= k) m = k a m := rfl

end Action

/-! ### References -/

section References

variable {K : Known} {A : Atlas} {ctx : Context} {m n : Machine} {setting : Setting}

/-- **A reference has alike values**, looked up at its distance and by its name. -/
theorem lookUp_match (hs : Sim K A m n) {rows : List (List String)}
    (hp : Placed A rows m.scope.chain n.scope.chain) {mark : Mark} {name : String}
    (hd : setting.distances[mark.id]? = rowOf? rows name)
    (hb : ∀ d a, rowOf? rows name = some d → m.scope.chain[d]? = some a → A.bound a name) :
    Match K none A m.scope (Back (Alike K) n.scope) (Action.lookUp setting mark name m)
      (Lexical.lookUp name mark.span n) := by
  unfold Action.lookUp
  cases hrow : rowOf? rows name with
  | some d =>
      obtain ⟨v, w, hv, hw, hvw, -⟩ := hs.store.read_local hp hrow fun a ha => hb d a hrow ha
      rw [hd, hrow]
      change Match K none A m.scope _
        (Action.require (m.store.getAt? m.scope d name) (.unboundLocal name) mark.span m)
        (Action.require (n.store.get? n.scope name) (.undefinedVariable name) mark.span n)
      rw [hv, hw]
      exact .pure hs ⟨hvw, rfl⟩
  | none =>
      -- without distance both look in the globals, where the name may be missing
      have hrel := hs.store.read_global hp hrow
      rw [hd, hrow]
      change Match K none A m.scope _
        (Action.require (m.store.get? m.globals name) (.undefinedVariable name) mark.span m)
        (Action.require (n.store.get? n.scope name) (.undefinedVariable name) mark.span n)
      rw [hs.globals]
      exact .require hs rfl (rel_imp hrel fun _ _ hvw => ⟨hvw, rfl⟩)

/-- **A name gets alike values**, at its distance and by its name. -/
theorem assign_match (hs : Sim K A m n) {rows : List (List String)}
    (hp : Placed A rows m.scope.chain n.scope.chain) {mark : Mark} {name : String} (hn : Plain name)
    (hd : setting.distances[mark.id]? = rowOf? rows name) {v w : Value} (hvw : Alike K A v w) :
    Match K none A m.scope (Back (fun _ _ _ => True) n.scope) (Action.assign setting mark name v m)
      (Lexical.assign name w mark.span n) := by
  unfold Action.assign
  cases hrow : rowOf? rows name with
  | some d =>
      -- the frame at the distance, and the innermost location of the name
      obtain ⟨a, l, ha, hl, hholder⟩ := hs.store.holder?_local hp hrow
      have hassignAt : m.store.assignAt m.scope d name v = (true, m.store.write a name v) := by
        simp only [Store.assignAt, ha]
      have hassign : n.store.assign n.scope name w = (true, n.store.write l name w) := by
        simp only [Store.assign, hholder]
      have hg : A.Grows none (A.withBound a name) := .withBound none A a name
      have hmirror := hs.store.write hl (hn.fits v) (hvw.mono hg)
      rw [hd, hrow]
      change Match K none A m.scope _
        ((if (m.store.assignAt m.scope d name v).1 = true then Pure.pure ()
          else Action.fail (.unboundLocal name) mark.span : Action Unit)
            { m with store := (m.store.assignAt m.scope d name v).2 })
        ((if (n.store.assign n.scope name w).1 = true then Pure.pure ()
          else Action.fail (.undefinedVariable name) mark.span : Action Unit)
            { n with store := (n.store.assign n.scope name w).2 })
      rw [hassignAt, hassign]
      exact .done hg (hs.withStore hmirror) rfl ⟨trivial, rfl⟩
  | none =>
      have hholder := hs.store.holder?_global hp hrow
      have hbinds := hs.store.binds_global name
      rw [hd, hrow]
      change Match K none A m.scope _
        ((if (m.store.assign m.globals name v).1 = true then Pure.pure ()
          else Action.fail (.undefinedVariable name) mark.span : Action Unit)
            { m with store := (m.store.assign m.globals name v).2 })
        ((if (n.store.assign n.scope name w).1 = true then Pure.pure ()
          else Action.fail (.undefinedVariable name) mark.span : Action Unit)
            { n with store := (n.store.assign n.scope name w).2 })
      cases hb : (n.store.frame 0).binds name with
      | true =>
          have hleft : m.store.assign m.globals name v = (true, m.store.write 0 name v) := by
            simp only [Store.assign, hs.globals, Mirror.holder?_globals, hbinds, hb, if_true]
          have hright : n.store.assign n.scope name w = (true, n.store.write 0 name w) := by
            simp only [Store.assign, hholder, hb, if_true]
          rw [hleft, hright]
          exact .done (.refl none A) (hs.withStore (hs.store.writeGlobal hn hvw)) rfl
            ⟨trivial, rfl⟩
      | false =>
          have hleft : m.store.assign m.globals name v = (false, m.store) := by
            simp [Store.assign, hs.globals, Mirror.holder?_globals, hbinds, hb]
          have hright : n.store.assign n.scope name w = (false, n.store) := by
            simp [Store.assign, hholder, hb]
          rw [hleft, hright]
          exact .failed (hs.withStore hs.store) rfl rfl

/-- The words for the receiver and the superclass are not awaited. -/
theorem Seen.words {chain locations : List FrameId} (h : Seen A ctx chain locations) :
    ctx.initializing ≠ some "this" ∧ ctx.initializing ≠ some "super" :=
  ⟨fun hx => (h.awaited hx).1.1 rfl, fun hx => (h.awaited hx).1.2 rfl⟩

/-- A method gets its receiver. -/
theorem bind_match (hs : Sim K A m n) {f g : Closure} (hfg : MethodAlike K A f g) {i : ObjectId}
    {c d : Class} (hcd : ClassAlike K A c d) :
    Match K none A m.scope
      (Back (fun A' f' g' => FunctionAlike K A' f' g' ∧ ClassAlike K A' c d ∧ f'.arity = f.arity)
        n.scope)
      (Action.onStore (fun s => s.bind f (.object i c)) m)
      (Action.onStore (fun s => s.bind g (.object i d)) n) := by
  obtain ⟨A', hg, hmirror, hbound⟩ := hs.store.bind hfg
    ⟨fun _ => ⟨i, c, rfl⟩, fun e => absurd e (by decide)⟩ (.object i hcd)
  exact .done hg (hs.withStore hmirror) rfl ⟨⟨hbound, hcd.mono hg, rfl⟩, rfl⟩

/-- **The method `super.method`**: `super` and `this` are where resolution says. -/
theorem superMethod_match (hs : Sim K A m n) (hseen : Seen A ctx m.scope.chain n.scope.chain)
    {mark : Mark} (hc : ctx.classAround = .derived)
    (hd : setting.distances[mark.id]? = ctx.distance? "super") (method : String) :
    Match K none A m.scope (Back (Alike K) n.scope) (Action.superMethod setting mark method m)
      (Lexical.superMethod method mark.span n) := by
  -- in a derived class `super` lies right behind `this`, as the machine takes for granted
  obtain ⟨k, hthis, hsuper⟩ := hseen.nested hc
  obtain ⟨v, w, hv, hw, hvw, hfits⟩ := hs.store.read_local hseen.placed hthis
    fun a ha => hseen.bound hseen.words.1 hthis ha
  obtain ⟨v', w', hv', hw', hvw', hfits'⟩ := hs.store.read_local hseen.placed hsuper
    fun a ha => hseen.bound hseen.words.2 hsuper ha
  obtain ⟨i, c, rfl⟩ := hfits.1 rfl
  obtain ⟨p, rfl⟩ := hfits'.2 rfl
  cases hvw with
  | @object _ _ c' hcc' =>
      cases hvw' with
      | @cls _ p' hpp' =>
          unfold Action.superMethod Lexical.superMethod
          rw [hd, Context.distance?_eq, hsuper]
          simp only [Action.require_some_bind, Action.read_bind]
          rw [hv, hw, hv', hw']
          refine Match.andThen (P := fun A' f g => MethodAlike K A' f g ∧ ClassAlike K A' c c')
            (.require hs rfl (rel_imp (hpp'.findMethod? method) fun _ _ h => ⟨⟨h, hcc'⟩, rfl⟩)) ?_
          rintro A₁ f g m₁ n₁ - hs₁ - - ⟨hfg, hcc₁⟩
          refine (bind_match hs₁ hfg hcc₁).andThen ?_
          rintro A₂ f' g' m₂ n₂ - hs₂ - - ⟨hfg', -, -⟩
          exact .pure hs₂ ⟨.closure hfg', rfl⟩

end References

/-! ### Declarations -/

section Declarations

variable {K : Known} {A : Atlas} {ctx : Context} {m n : Machine} {setting : Setting}
  {name : String}

/-- **A local declaration makes its location**; the machine with resolutions does nothing yet. -/
theorem announce_match (hs : Sim K A m n) (h : Stands A ctx m.scope.chain n.scope.chain)
    {span : Span} (hclash : ctx.clash name span = []) {isLocal : Bool}
    (hlocal : isLocal = !ctx.rows.isEmpty) :
    ∃ A' n', Lexical.announce isLocal name n = .done () n' ∧ A.Grows m.scope.chain.head? A' ∧
      Sim K A' m n' ∧ Announced A' ctx name m.scope.chain n'.scope.chain := by
  cases hrows : ctx.rows with
  | nil =>
      obtain rfl : isLocal = false := by rw [hlocal, hrows]; rfl
      -- a global needs no location
      exact ⟨A, n, rfl, .refl _ A, hs, h.announce_global hrows⟩
  | cons row rows =>
      obtain rfl : isLocal = true := by rw [hlocal, hrows]; rfl
      have hp := h.settled.placed
      rw [hrows] at hp
      obtain ⟨a, rest, hchain, htail⟩ := hp.inner
      have hg : A.Grows m.scope.chain.head? (A.withPlace n.store.frames.size a name) := by
        rw [hchain]
        exact .withPlace hs.store.home_fresh (.inr rfl)
      have hmirror := hs.store.withPlace htail (h.free hrows hchain hclash) n.scope .nil
      exact ⟨_, _, rfl, hg, ⟨hmirror, hs.globals, hs.depth, hs.output, hs.readings⟩,
        h.announce_local hrows hchain hs.store.home_fresh⟩

/-- **A declaration binds its name** to values that are alike once it is bound. -/
theorem define_match (hs : Sim K A m n) (h : Announced A ctx name m.scope.chain n.scope.chain)
    (hn : Plain name) {v w : Value}
    (hvw : ∀ {A'}, A.Grows none A' →
      Settled A' (enterRow name ctx.rows) m.scope.chain n.scope.chain → Alike K A' v w) :
    Match K none A m.scope (fun A' _ _ e => Stands A' (ctx.define name) m.scope.chain e.chain)
      (Action.define name v m) (Action.define name w n) := by
  -- a global is written to number zero on both sides, a local name to its frame and to the
  -- location that was made when it was announced
  rcases h.newest with ⟨hrows, hchain, hlocations⟩ | ⟨a, l, rest, locations, hchain, hlocations, hl⟩
  · have hstands := h.settle hn fun row rows _ _ he _ => by rw [hrows] at he; cases he
    have hmirror := hs.store.writeGlobal hn
      (hvw (.refl none A) (Context.rows_define ctx name ▸ hstands.settled))
    have hleft : m.store.define m.scope name v = m.store.write 0 name v := by
      simp only [Store.define, hchain]
    have hright : n.store.define n.scope name w = n.store.write 0 name w := by
      simp only [Store.define, hlocations]
    rw [← hleft, ← hright] at hmirror
    exact .done (.refl none A) (hs.withStore hmirror) rfl hstands
  · have hg : A.Grows none (A.withBound a name) := .withBound none A a name
    have hstands := (h.mono hg).settle hn fun _ _ b rest' _ hb => by
      rw [hchain] at hb
      cases hb
      exact Atlas.bound_withBound_self ..
    have hmirror := hs.store.write hl (hn.fits v)
      (hvw hg (Context.rows_define ctx name ▸ hstands.settled))
    have hleft : m.store.define m.scope name v = m.store.write a name v := by
      simp only [Store.define, hchain]
    have hright : n.store.define n.scope name w = n.store.write l name w := by
      simp only [Store.define, hlocations]
    rw [← hleft, ← hright] at hmirror
    exact .done hg (hs.withStore hmirror) rfl hstands

/-- **The parameters of a routine get the values of its arguments.** -/
theorem bindArguments_match (ps : List Param) {vs ws : List Value} (hlength : vs.length = ps.length)
    (hvs : List.Forall₂ (Alike K A) vs ws) (hs : Sim K A m n)
    (h : Stands A ctx m.scope.chain n.scope.chain) (hrows : ctx.rows ≠ [])
    (hfit : Fit K setting.distances (Param.allSites ctx ps)) :
    Match K m.scope.chain.head? A m.scope
      (fun A' _ _ e =>
        Stands A' (ps.foldl (fun c p => c.define p.name) ctx) m.scope.chain e.chain)
      (Action.bindArguments ps vs m) (Lexical.bindArguments ps ws n) := by
  -- induction on the parameters: they share a frame, and each has a location of its own
  induction ps generalizing vs ws A ctx m n with
  | nil =>
      cases hvs with
      | nil => exact .pure hs h
      | cons _ _ => cases hlength
  | cons p ps ih =>
      cases hvs with
      | nil => cases hlength
      | @cons v w vs ws hvw hvs =>
          obtain ⟨⟨-, hn, hclash⟩, hfit⟩ := fit_cons.1 hfit
          obtain ⟨row, rows, hrow⟩ := List.exists_cons_of_ne_nil hrows
          have hp := h.settled.placed
          rw [hrow] at hp
          obtain ⟨a, rest, hchain, htail⟩ := hp.inner
          have hfree := h.free hrow hchain hclash
          have hplace : A.Grows (some a) (A.withPlace n.store.frames.size a p.name) :=
            .withPlace hs.store.home_fresh (.inr rfl)
          have hbound :=
            Atlas.Grows.withBound none (A.withPlace n.store.frames.size a p.name) a p.name
          have hg := hplace.trans hbound.weaken
          have hstands : Stands ((A.withPlace n.store.frames.size a p.name).withBound a p.name)
              (ctx.define p.name) m.scope.chain (n.store.frames.size :: n.scope.chain) :=
            ((h.announce_local hrow hchain hs.store.home_fresh).mono hbound).settle hn
              fun _ _ b _ _ hb => by
                rw [hchain] at hb
                cases hb
                exact Atlas.bound_withBound_self ..
          have hmirror := hs.store.introduce htail hfree n.scope (hn.fits v) (hvw.mono hg)
          have hleft : m.store.define m.scope p.name v = m.store.write a p.name v := by
            simp only [Store.define, hchain]
          rw [← hleft] at hmirror
          have hnext := @ih ((A.withPlace n.store.frames.size a p.name).withBound a p.name)
            (ctx.define p.name) { m with store := m.store.define m.scope p.name v }
            { n with scope := (n.store.allot n.scope p.name w).1
                     store := (n.store.allot n.scope p.name w).2 } vs ws
            (Nat.succ.inj hlength) (Alike.mono_all hvs hg)
            ⟨hmirror, hs.globals, hs.depth, hs.output, hs.readings⟩ hstands
            (by rw [Context.rows_define, hrow]; exact List.cons_ne_nil _ _) hfit
          rw [← show m.scope.chain.head? = some a by rw [hchain]; rfl] at hg
          exact hnext.grow hg

/-- The routines of fit sites are known. -/
theorem known_of_fit {distances : ResolutionMap} {rs : List Routine}
    (h : Fit K distances (Routine.allSites ctx rs)) : ∀ r ∈ rs, K ⟨ctx, .routine r⟩ := by
  induction rs with
  | nil => exact nofun
  | cons r rs ih =>
      rw [Routine.allSites, fit_append] at h
      intro q hq
      rcases List.mem_cons.1 hq with rfl | hq
      · cases q with
        | mk label name params body span => exact (fit_cons.1 h.1).1.1
      · exact ih h.2 q hq

/-- The methods of one class are alike in environments that belong together. -/
private theorem methods_alike {ctx' : Context} {rows : List (List String)} {methods : List Routine}
    (hknown : ∀ r ∈ methods, K ⟨ctx', .routine r⟩) (hrows : ctx'.rows = ["this"] :: rows)
    (hsteady : ctx'.Steady) {e e' : Environment} (hsettled : Settled A rows e.chain e'.chain)
    (x : String) : Option.Rel (MethodAlike K A) ((Class.methodTable e methods).get? x)
      ((Class.methodTable e' methods).get? x) :=
  methodTable_alike (fun r hr => .mk (hknown r hr) hrows hsettled hsteady) x

/-- Fresh classes have the same number. -/
private theorem newClass_match (hs : Sim K A m n) (name : String)
    (methods methods' : Bindings Closure)
    (parent parent' : Option Class) {Q : Atlas → Class → Class → Environment → Prop}
    (hQ : ∀ i, Q A (.make i name methods parent) (.make i name methods' parent') n.scope) :
    Match K none A m.scope Q (Action.onStore (fun s => s.newClass name methods parent) m)
      (Action.onStore (fun s => s.newClass name methods' parent') n) := by
  refine .done (.refl none A)
    (hs.withStore (hs.store.newClass name methods methods' parent parent')) rfl ?_
  rw [hs.store.classes]
  exact hQ _

/-- **A class declaration makes classes that are alike** once the name of the class is bound. -/
theorem makeClass_match (hs : Sim K A m n) (h : Announced A ctx name m.scope.chain n.scope.chain)
    (hn : Plain name) {superclass : Option Superclass} {methods : List Routine}
    (hparent : Fit K setting.distances (Superclass.sites (ctx.declare name) name superclass))
    (hknown : ∀ r ∈ methods, K ⟨(ctx.declare name).inClass superclass, .routine r⟩) :
    Match K none A m.scope
      (fun A' c d e => e = n.scope ∧ ∀ {A''}, A'.Grows none A'' →
        Settled A'' (enterRow name ctx.rows) m.scope.chain n.scope.chain → ClassAlike K A'' c d)
      (Action.makeClass setting name superclass methods m)
      (Lexical.makeClass name superclass methods n) := by
  have hrows := Context.rows_inClass (ctx.declare name) superclass
  have hsteady : ((ctx.declare name).inClass superclass).Steady :=
    (h.steady.enter hn false).inClass superclass
  rw [Context.rows_declare] at hrows
  cases superclass with
  | none =>
      exact newClass_match hs name _ _ none none fun i => ⟨rfl, fun _ hsettled =>
        .base (methods_alike hknown hrows hsteady hsettled)⟩
  | some parent =>
      obtain ⟨hne, hd⟩ := (fit_cons.1 hparent).1.2
      rw [Context.distance?_eq, Context.rows_declare] at hd
      -- the class is announced by now, but not bound; its superclass has another name, so that the
      -- name of the class does not hide it
      have hlookUp := lookUp_match hs h.placed hd fun d a hrow ha =>
        h.bound hne (by rwa [rowOf?_enterRow hne] at hrow) ha
      refine hlookUp.bind ?_
      rintro A₁ v w m₁ n₁ hg₁ hs₁ hm₁ ⟨hvw, hn₁⟩
      cases hvw with
      | @cls c d hcd =>
          have hfits : Fits "super" (.cls c) := ⟨fun e => absurd e (by decide), fun _ => ⟨c, rfl⟩⟩
          -- the frame of `super` lies between the class and its methods
          obtain ⟨A₂, hg₂, hmirror, hsettled₂⟩ := hs₁.store.enclose m.scope n.scope hfits (.cls hcd)
          refine (newClass_match (hs₁.withStore hmirror) name _ _ (some c) (some d)
            fun i => ⟨hn₁, fun {A₃} hg₃ hsettled => ?_⟩).grow hg₂
          exact .derived (methods_alike hknown hrows hsteady (hsettled₂ hg₃ hsettled))
            (hcd.mono (hg₂.trans hg₃))
      | _ => exact .fail hs₁ rfl

end Declarations

end Scriptlet
