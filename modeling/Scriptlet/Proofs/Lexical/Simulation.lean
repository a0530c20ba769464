/-
**The simulation.**

A run with resolutions and a run that looks names up match, from mirrored machines at a place of the
program that both see, for every expression, call, declaration and statement whose sites are in
order. The proof is by induction on the fuel, which both runs spend in the same way; one lemma
covers each sort of syntax, with the runs of its parts given.

Main definitions:

* `Scriptlet.CompletionAlike` — completions that are alike; only a routine returns;
* `Scriptlet.Simulates` — **what is shown with a given fuel**.

Main results:

* `Scriptlet.evaluate_match`, `Scriptlet.call_match`, `Scriptlet.execute_match`,
  `Scriptlet.perform_match`, … — one more unit of fuel;
* `Scriptlet.simulates` — **runs match, whatever the fuel**;
* `Scriptlet.runDeclarations_match` — the declarations of a program.
-/

import Scriptlet.Proofs.Lexical.Match

set_option relaxedAutoImplicit false
set_option autoImplicit false

namespace Scriptlet

/-- Completions that are alike; only inside a routine is there anything to return from. -/
inductive CompletionAlike (K : Known) (inRoutine : Bool) (A : Atlas) :
    Completion → Completion → Prop
  | normal : CompletionAlike K inRoutine A .normal .normal
  | returned {v w : Value} (inside : inRoutine = true) (alike : Alike K A v w) :
      CompletionAlike K inRoutine A (.returned v) (.returned w)

/-- **What is shown with a given fuel**: from mirrored machines, runs match. -/
structure Simulates (K : Known) (setting : Setting) (fuel : Nat) : Prop where
  evaluate : ∀ {A : Atlas} {ctx : Context} {e : Expr} {m n : Machine}, Sim K A m n →
    Seen A ctx m.scope.chain n.scope.chain → Fit K setting.distances (e.sites ctx) →
    Match K none A m.scope (Back (Alike K) n.scope) (Scriptlet.evaluate setting fuel e m)
      (Lexical.evaluate setting.clock fuel e n)
  evaluateAll : ∀ {A : Atlas} {ctx : Context} {es : List Expr} {m n : Machine}, Sim K A m n →
    Seen A ctx m.scope.chain n.scope.chain → Fit K setting.distances (Expr.allSites ctx es) →
    Match K none A m.scope (Back (fun A' => List.Forall₂ (Alike K A')) n.scope)
      (Scriptlet.evaluateAll setting fuel es m) (Lexical.evaluateAll setting.clock fuel es n)
  apply : ∀ {A : Atlas} {v w : Value} {vs ws : List Value} {site : Span} {m n : Machine},
    Sim K A m n → Alike K A v w → List.Forall₂ (Alike K A) vs ws →
    Match K none A m.scope (Back (Alike K) n.scope) (Scriptlet.apply setting fuel v vs site m)
      (Lexical.apply setting.clock fuel w ws site n)
  call : ∀ {A : Atlas} {f g : Closure} {vs ws : List Value} {site : Span} {m n : Machine},
    Sim K A m n → FunctionAlike K A f g → vs.length = f.arity → List.Forall₂ (Alike K A) vs ws →
    Match K none A m.scope (Back (Alike K) n.scope) (Scriptlet.call setting fuel f vs site m)
      (Lexical.call setting.clock fuel g ws site n)
  execute : ∀ {A : Atlas} {ctx : Context} {d : Decl} {isLocal : Bool} {m n : Machine},
    Sim K A m n → Stands A ctx m.scope.chain n.scope.chain → isLocal = !ctx.rows.isEmpty →
    Fit K setting.distances (d.sites ctx) →
    Match K m.scope.chain.head? A m.scope
      (fun A' c c' e => CompletionAlike K ctx.inRoutine A' c c' ∧
        (c = .normal → Stands A' (d.after ctx) m.scope.chain e.chain))
      (Scriptlet.execute setting fuel d m) (Lexical.execute setting.clock isLocal fuel d n)
  executeAll : ∀ {A : Atlas} {ctx : Context} {ds : List Decl} {m n : Machine},
    Sim K A m n → Stands A ctx m.scope.chain n.scope.chain → ctx.rows ≠ [] →
    Fit K setting.distances (Decl.allSites ctx ds) →
    Match K m.scope.chain.head? A m.scope
      (fun A' c c' _ => CompletionAlike K ctx.inRoutine A' c c')
      (Scriptlet.executeAll setting fuel ds m) (Lexical.executeAll setting.clock fuel ds n)
  perform : ∀ {A : Atlas} {ctx : Context} {stmt : Stmt} {m n : Machine}, Sim K A m n →
    Stands A ctx m.scope.chain n.scope.chain → Fit K setting.distances (stmt.sites ctx) →
    Match K none A m.scope (Back (CompletionAlike K ctx.inRoutine) n.scope)
      (Scriptlet.perform setting fuel stmt m) (Lexical.perform setting.clock fuel stmt n)

section Simulation

variable {K : Known} {setting : Setting} {fuel : Nat} {A A' : Atlas} {ctx : Context}
  {m m' n n' : Machine}

/-! ### Expressions -/

/-- The result of an operator. -/
theorem ofExcept_match (hs : Sim K A m n) {r r' : Except RuntimeFault Value}
    (h : ResultAlike K A r r') (span : Span) :
    Match K none A m.scope (Back (Alike K) n.scope) (Action.ofExcept r span m)
      (Action.ofExcept r' span n) := by
  cases h with
  | ok hvw => exact .pure hs ⟨hvw, rfl⟩
  | error fault hfault =>
      refine .fail hs ?_
      rcases hfault with rfl | rfl | rfl | rfl <;> rfl

/-- The clock reads the same for both machines. -/
theorem readClock_match (hs : Sim K A m n) :
    Match K none A m.scope (Back (fun _ x y => x = y) n.scope) (Action.readClock setting m)
      (Action.readClock ⟨∅, setting.clock⟩ n) := by
  have hreadings := hs.readings
  refine .done (.refl none A)
    ⟨hs.store, hs.globals, hs.depth, hs.output, congrArg (· + 1) hreadings⟩ rfl ⟨?_, rfl⟩
  exact congrArg setting.clock hreadings

/-- Both machines print the same. -/
theorem emit_match (hs : Sim K A m n) (text : String) (span : Span) :
    Match K none A m.scope (Back (fun _ _ _ => True) n.scope) (Action.emit text span m)
      (Action.emit text span n) := by
  unfold Action.emit
  rw [hs.output]
  generalize n.output.emit text = r
  obtain ⟨taken, output⟩ := r
  cases taken with
  | true =>
      exact .done (.refl none A) ⟨hs.store, hs.globals, hs.depth, rfl, hs.readings⟩ rfl
        ⟨trivial, rfl⟩
  | false => exact .failed ⟨hs.store, hs.globals, hs.depth, rfl, hs.readings⟩ rfl rfl

theorem evaluate_match (hK : Lawful K setting.distances) (ih : Simulates K setting fuel) {e : Expr}
    (hs : Sim K A m n) (hseen : Seen A ctx m.scope.chain n.scope.chain)
    (hfit : Fit K setting.distances (e.sites ctx)) :
    Match K none A m.scope (Back (Alike K) n.scope) (evaluate setting (fuel + 1) e m)
      (Lexical.evaluate setting.clock (fuel + 1) e n) := by
  cases e with
  | constant mark value =>
      rw [evaluate, Lexical.evaluate]
      exact .pure hs ⟨.constant value, rfl⟩
  | grouping mark inner =>
      rw [evaluate, Lexical.evaluate]
      exact ih.evaluate hs hseen hfit
  | unary mark op operand =>
      rw [evaluate, Lexical.evaluate]
      rw [Expr.sites] at hfit
      refine (ih.evaluate hs hseen hfit).andThen ?_
      rintro A₁ v w m₁ n₁ - hs₁ - - hvw
      exact ofExcept_match hs₁ (hvw.unary op) mark.span
  | binary mark left op opSpan right =>
      rw [evaluate, Lexical.evaluate]
      rw [Expr.sites, fit_append] at hfit
      refine (ih.evaluate hs hseen hfit.1).andThen ?_
      rintro A₁ v w m₁ n₁ hg₁ hs₁ hm₁ hn₁ hvw
      refine (ih.evaluate hs₁ (hseen.later hg₁ hm₁ hn₁) hfit.2).andThen ?_
      rintro A₂ v' w' m₂ n₂ hg₂ hs₂ - - hvw'
      exact ofExcept_match hs₂
        (Alike.binary hK.labelled hs₂.store.injective op (hvw.mono hg₂) hvw') opSpan
  | logical mark left op right =>
      rw [evaluate, Lexical.evaluate]
      rw [Expr.sites, fit_append] at hfit
      refine (ih.evaluate hs hseen hfit.1).andThen ?_
      rintro A₁ v w m₁ n₁ hg₁ hs₁ hm₁ hn₁ hvw
      rw [hvw.decides_eq op]
      split
      · exact .pure hs₁ ⟨hvw, rfl⟩
      · exact ih.evaluate hs₁ (hseen.later hg₁ hm₁ hn₁) hfit.2
  | ternary mark condition question thenBranch elseBranch =>
      rw [evaluate, Lexical.evaluate]
      rw [Expr.sites, fit_append, fit_append] at hfit
      obtain ⟨⟨hcondition, hthen⟩, helse⟩ := hfit
      refine (ih.evaluate hs hseen hcondition).andThen ?_
      rintro A₁ v w m₁ n₁ hg₁ hs₁ hm₁ hn₁ hvw
      rw [hvw.isTruthy_eq]
      -- either branch is in order, whichever is taken; its value must be a number on both sides
      have hbranch : Fit K setting.distances
          ((if w.isTruthy = true then thenBranch else elseBranch).sites ctx) := by
        split
        · exact hthen
        · exact helse
      refine (ih.evaluate hs₁ (hseen.later hg₁ hm₁ hn₁) hbranch).andThen ?_
      rintro A₂ v' w' m₂ n₂ - hs₂ - - hvw'
      cases hvw' with
      | number x => exact .pure hs₂ ⟨.number x, rfl⟩
      | _ => exact .fail hs₂ rfl
  | «variable» mark name =>
      rw [evaluate, Lexical.evaluate]
      obtain ⟨hown, hd⟩ := (fit_cons.1 hfit).1.2
      rw [Context.distance?_eq] at hd
      -- only a variable that is being initialised is unbound, and compiled code does not read it
      refine lookUp_match hs hseen.placed hd fun d a hrow ha => hseen.bound (fun hx => ?_) hrow ha
      rw [(hseen.awaited hx).2] at hown
      cases hown
  | assign mark name value =>
      rw [evaluate, Lexical.evaluate]
      rw [Expr.sites, fit_append] at hfit
      obtain ⟨hvalue, hwrite⟩ := hfit
      obtain ⟨hname, hd⟩ := (fit_cons.1 hwrite).1.2
      rw [Context.distance?_eq] at hd
      refine (ih.evaluate hs hseen hvalue).andThen ?_
      rintro A₁ v w m₁ n₁ hg₁ hs₁ hm₁ hn₁ hvw
      -- the value is computed first, and the place is the same behind it
      refine (assign_match hs₁ (hseen.later hg₁ hm₁ hn₁).placed hname hd hvw).andThen ?_
      rintro A₂ _ _ m₂ n₂ hg₂ hs₂ - - -
      exact .pure hs₂ ⟨hvw.mono hg₂, rfl⟩
  | call mark callee arguments paren =>
      rw [evaluate, Lexical.evaluate]
      rw [Expr.sites, fit_append] at hfit
      refine (ih.evaluate hs hseen hfit.1).andThen ?_
      rintro A₁ v w m₁ n₁ hg₁ hs₁ hm₁ hn₁ hvw
      refine (ih.evaluateAll hs₁ (hseen.later hg₁ hm₁ hn₁) hfit.2).andThen ?_
      rintro A₂ vs ws m₂ n₂ hg₂ hs₂ - - hvs
      exact ih.apply hs₂ (hvw.mono hg₂) hvs
  | get mark object name =>
      rw [evaluate, Lexical.evaluate]
      rw [Expr.sites] at hfit
      refine (ih.evaluate hs hseen hfit).andThen ?_
      rintro A₁ v w m₁ n₁ - hs₁ - - hvw
      cases hvw with
      | @object i c d hcd =>
          obtain ⟨A₂, hg₂, hmirror, hfound⟩ := hs₁.store.property hcd i name
          refine Match.grow ?_ hg₂
          exact .require (hs₁.withStore hmirror) rfl (rel_imp hfound fun _ _ h => ⟨h, rfl⟩)
      | _ => exact .fail hs₁ rfl
  | set mark object name value =>
      rw [evaluate, Lexical.evaluate]
      rw [Expr.sites, fit_append] at hfit
      refine (ih.evaluate hs hseen hfit.2).andThen ?_
      rintro A₁ v w m₁ n₁ hg₁ hs₁ hm₁ hn₁ hvw
      cases hvw with
      | @object i c d hcd =>
          refine (ih.evaluate hs₁ (hseen.later hg₁ hm₁ hn₁) hfit.1).andThen ?_
          rintro A₂ v' w' m₂ n₂ - hs₂ - - hvw'
          exact .done (.refl none A₂) (hs₂.withStore (hs₂.store.setField i name hvw')) rfl
            ⟨hvw', rfl⟩
      | _ => exact .fail hs₁ rfl
  | thisRef mark =>
      rw [evaluate, Lexical.evaluate]
      have hd : setting.distances[mark.id]? = ctx.distance? "this" := (fit_cons.1 hfit).1.2
      rw [Context.distance?_eq] at hd
      exact lookUp_match hs hseen.placed hd fun d a hrow ha => hseen.bound hseen.words.1 hrow ha
  | superRef mark method =>
      rw [evaluate, Lexical.evaluate]
      obtain ⟨hclass, hd⟩ := (fit_cons.1 hfit).1.2
      exact superMethod_match hs hseen hclass hd method

theorem evaluateAll_match (ih : Simulates K setting fuel) {es : List Expr} (hs : Sim K A m n)
    (hseen : Seen A ctx m.scope.chain n.scope.chain)
    (hfit : Fit K setting.distances (Expr.allSites ctx es)) :
    Match K none A m.scope (Back (fun A' => List.Forall₂ (Alike K A')) n.scope)
      (evaluateAll setting (fuel + 1) es m)
      (Lexical.evaluateAll setting.clock (fuel + 1) es n) := by
  cases es with
  | nil =>
      rw [evaluateAll, Lexical.evaluateAll]
      exact .pure hs ⟨.nil, rfl⟩
  | cons e es =>
      rw [evaluateAll, Lexical.evaluateAll]
      rw [Expr.allSites, fit_append] at hfit
      refine (ih.evaluate hs hseen hfit.1).andThen ?_
      rintro A₁ v w m₁ n₁ hg₁ hs₁ hm₁ hn₁ hvw
      refine (ih.evaluateAll hs₁ (hseen.later hg₁ hm₁ hn₁) hfit.2).andThen ?_
      rintro A₂ vs ws m₂ n₂ hg₂ hs₂ - - hvs
      exact .pure hs₂ ⟨.cons (hvw.mono hg₂) hvs, rfl⟩

/-! ### Calls -/

theorem apply_match (ih : Simulates K setting fuel) {v w : Value} {vs ws : List Value} {site : Span}
    (hs : Sim K A m n) (hvw : Alike K A v w) (hvs : List.Forall₂ (Alike K A) vs ws) :
    Match K none A m.scope (Back (Alike K) n.scope) (apply setting (fuel + 1) v vs site m)
      (Lexical.apply setting.clock (fuel + 1) w ws site n) := by
  have hlength := hvs.length_eq
  cases hvw with
  | native f =>
      cases f with
      | clock =>
          rw [apply, Lexical.apply, hlength]
          split
          · refine (readClock_match hs).andThen ?_
            rintro A₁ x _ m₁ n₁ - hs₁ - - rfl
            exact .pure hs₁ ⟨.number x, rfl⟩
          · exact .fail hs rfl
  | @closure f g hfg =>
      rw [apply, Lexical.apply, ← hlength, ← hfg.arity_eq]
      split
      · exact ih.call hs hfg ‹_› hvs
      · exact .fail hs rfl
  | @cls c d hcd =>
      rw [apply, Lexical.apply, ← hlength, ← hcd.arity_eq]
      split
      · rename_i harity
        -- Both machines make the object of the same number.
        have hleft : (m.store.newObject c).1 = .object m.store.objects.size c := rfl
        have hright : (n.store.newObject d).1 = .object m.store.objects.size d := by
          rw [hs.store.objects]
          rfl
        have hsim := hs.withStore (hs.store.newObject c d)
        have hinit := hcd.findMethod? "init"
        -- the classes are alike, so both have an initialiser or neither; the answer is the object
        rw [Action.onStore_bind, Action.onStore_bind, hleft, hright]
        unfold Class.arity at harity
        generalize c.findMethod? "init" = f at hinit harity ⊢
        generalize d.findMethod? "init" = g at hinit ⊢
        cases hinit with
        | none => exact .pure hsim ⟨.object _ hcd, rfl⟩
        | @some f g hfg =>
            refine (bind_match hsim hfg hcd).andThen ?_
            rintro A₁ f' g' m₁ n₁ hg₁ hs₁ - - ⟨hfg', hcd₁, harity'⟩
            refine (ih.call hs₁ hfg' (harity.trans harity'.symm)
              (Alike.mono_all hvs hg₁)).andThen ?_
            rintro A₂ _ _ m₂ n₂ hg₂ hs₂ - - -
            exact .pure hs₂ ⟨.object _ (hcd₁.mono hg₂), rfl⟩
      · exact .fail hs rfl
  | _ =>
      rw [apply, Lexical.apply]
      · exact .fail hs rfl
      all_goals
        intros
        contradiction

theorem CompletionAlike.value {inRoutine : Bool} {c c' : Completion}
    (h : CompletionAlike K inRoutine A c c') : Alike K A c.value c'.value := by
  cases h with
  | normal => exact .nil
  | returned _ hvw => exact hvw

/-- **The parameters of a routine are bound in a frame of its own**, and its body runs behind
them. -/
theorem parameters_match (hK : Lawful K setting.distances) {r : Routine} {e e' : Environment}
    {vs ws : List Value} (known : K ⟨ctx, .routine r⟩)
    (settled : Settled A ctx.rows e.chain e'.chain)
    (steady : ctx.Steady) (hlength : vs.length = r.params.length)
    (hvs : List.Forall₂ (Alike K A) vs ws) (hs : Sim K A (m.entering e) { n with scope := e' })
    (htail : A.tail m.store.frames.size = some e.chain)
    (hfree : ∀ l x, A.home l ≠ some (m.store.frames.size, x)) :
    Match K (some m.store.frames.size) A (m.entering e).scope
      (fun A' _ _ place =>
        Stands A' (ctx.inRoutineOf r.params) (m.entering e).scope.chain place.chain)
      (Action.bindArguments r.params vs (m.entering e))
      (Lexical.bindArguments r.params ws { n with scope := e' }) := by
  have hfit := hK.fit known
  obtain ⟨label, name, params, body, span⟩ := r
  rw [Routine.sites, fit_cons, fit_append] at hfit
  exact bindArguments_match params hlength hvs hs (settled.routine steady htail hfree)
    (Context.rows_opening_ne_nil ctx []) hfit.2.1

/-- The sites in the body of a known routine are in order. -/
theorem Lawful.body {distances : ResolutionMap} (hK : Lawful K distances) {r : Routine}
    (known : K ⟨ctx, .routine r⟩) :
    Fit K distances (Decl.allSites (ctx.inRoutineOf r.params) r.body) := by
  have hfit := hK.fit known
  obtain ⟨label, name, params, body, span⟩ := r
  rw [Routine.sites, fit_cons, fit_append] at hfit
  exact hfit.2.2

theorem call_match (hK : Lawful K setting.distances) (ih : Simulates K setting fuel) {f g : Closure}
    {vs ws : List Value} {site : Span} (hs : Sim K A m n) (hfg : FunctionAlike K A f g)
    (hlength : vs.length = f.arity) (hvs : List.Forall₂ (Alike K A) vs ws) :
    Match K none A m.scope (Back (Alike K) n.scope) (call setting (fuel + 1) f vs site m)
      (Lexical.call setting.clock (fuel + 1) g ws site n) := by
  cases hfg with
  | @mk ctx r e e' isInitializer known settled steady headed receiver =>
      rw [call, Lexical.call]
      change Match K none A m.scope _
        ((if callLimit ≤ m.depth then Action.fail .stackOverflow site else _ : Action Value) m)
        ((if callLimit ≤ n.depth then Action.fail .stackOverflow site else _ : Action Value) n)
      rw [← hs.depth]
      split
      · exact .fail hs rfl
      · refine Match.andThen (P := CompletionAlike K true)
          (.framed hs fun {m₀ n₀} hs₀ _ hn₀ => ?_) ?_
        · -- The body runs behind the parameters, in a frame of its own.
          rw [← hn₀]
          refine .child hs₀ e e' fun {A₁} hg₁ hs₁ htail hfree => ?_
          refine (parameters_match hK known (settled.mono hg₁) steady hlength
            (Alike.mono_all hvs hg₁) hs₁ htail hfree).bind ?_
          rintro A₂ _ _ m₂ n₂ - hs₂ hm₂ hstands₂
          -- what the body declares belongs to the fresh frame, of which the caller knows nothing
          have hown : m₂.scope.chain.head? = some m₀.store.frames.size := by
            rw [hm₂]
            rfl
          rw [← hm₂] at hstands₂
          rw [← hown, ← Context.inRoutine_inRoutineOf ctx r.params]
          exact ih.executeAll hs₂ hstands₂ (Context.rows_inRoutineOf_ne_nil ctx r.params)
            (hK.body known)
        · rintro A₁ c c' m₁ n₁ hg₁ hs₁ hm₁ hn₁ hcc
          cases isInitializer with
          | false => exact .pure hs₁ ⟨hcc.value, rfl⟩
          | true =>
              -- an initialiser answers its receiver, which lies in the frame around the routine
              obtain ⟨rows, hrows⟩ := receiver rfl
              have hsettled := settled.mono hg₁
              rw [hrows] at hsettled
              have hrow : rowOf? (["this"] :: rows) "this" = some 0 := by simp [rowOf?_cons]
              have hread : ∃ v w, m₁.store.getAt? e 0 "this" = some v ∧
                  n₁.store.get? e' "this" = some w ∧ Alike K A₁ v w ∧ Fits "this" v :=
                hs₁.store.read_local hsettled.placed hrow fun a ha => hsettled.bound hrow ha
              obtain ⟨v, w, hv, hw, hvw, -⟩ := hread
              change Match K none A₁ m₁.scope _
                (Action.require (m₁.store.getAt? e 0 "this") .initializerWithoutReceiver site m₁)
                (Action.require (n₁.store.get? e' "this") .initializerWithoutReceiver site n₁)
              rw [hv, hw]
              exact .pure hs₁ ⟨hvw, rfl⟩

/-! ### Declarations and statements -/

/-- A declaration binds its name and is done. -/
private theorem defined_match {own : Option FrameId} {name : String} {v w : Value} {e : Environment}
    (hs : Sim K A m n) (h : Announced A ctx name m.scope.chain n.scope.chain) (hn : Plain name)
    (hm : m.scope = e)
    (hvw : ∀ {A'}, A.Grows none A' →
      Settled A' (enterRow name ctx.rows) m.scope.chain n.scope.chain → Alike K A' v w)
    {inRoutine : Bool} :
    Match K own A m.scope
      (fun A' c c' e' => CompletionAlike K inRoutine A' c c' ∧
        (c = .normal → Stands A' (ctx.define name) e.chain e'.chain))
      ((do Action.define name v; pure .normal : Action Completion) m)
      ((do Action.define name w; pure .normal : Action Completion) n) := by
  refine (define_match hs h hn hvw).weaken.bind ?_
  rintro A₁ _ _ m₁ n₁ - hs₁ - hstands
  rw [hm] at hstands
  exact .pure hs₁ ⟨.normal, fun _ => hstands⟩

theorem execute_match (ih : Simulates K setting fuel) {d : Decl} {isLocal : Bool}
    (hs : Sim K A m n) (hstands : Stands A ctx m.scope.chain n.scope.chain)
    (hlocal : isLocal = !ctx.rows.isEmpty) (hfit : Fit K setting.distances (d.sites ctx)) :
    Match K m.scope.chain.head? A m.scope
      (fun A' c c' e => CompletionAlike K ctx.inRoutine A' c c' ∧
        (c = .normal → Stands A' (d.after ctx) m.scope.chain e.chain))
      (execute setting (fuel + 1) d m)
      (Lexical.execute setting.clock isLocal (fuel + 1) d n) := by
  cases d with
  | varDecl name nameSpan initializer span =>
      -- with or without initialiser, the first site is the declaration itself
      have hsite : Plain name ∧ ctx.clash name nameSpan = [] := by
        cases initializer with
        | none => exact (fit_cons.1 hfit).1.2
        | some value => exact (fit_cons.1 hfit).1.2
      obtain ⟨A₁, n₁, hrun, hg₁, hs₁, hannounced⟩ := announce_match hs hstands hsite.2 hlocal
      cases initializer with
      | none =>
          rw [execute, Lexical.execute, Action.bind_apply (Lexical.announce isLocal name), hrun]
          exact (defined_match hs₁ hannounced hsite.1 rfl fun _ _ => .nil).grow hg₁
      | some value =>
          have hvalue := (fit_cons.1 hfit).2
          rw [execute, Lexical.execute, Action.bind_apply (Lexical.announce isLocal name), hrun]
          refine (Match.weaken ?_).grow hg₁
          refine (ih.evaluate hs₁ (hannounced.seen hsite.1) hvalue).bind ?_
          rintro A₂ v w m₂ n₂ hg₂ hs₂ hm₂ ⟨hvw, hn₂⟩
          exact defined_match hs₂ (hannounced.later hg₂ hm₂ hn₂) hsite.1 hm₂
            fun hg _ => hvw.mono hg
  | funDecl routine span =>
      obtain ⟨⟨-, hname, hclash⟩, hroutine⟩ := fit_cons.1 hfit
      obtain ⟨A₁, n₁, hrun, hg₁, hs₁, hannounced⟩ := announce_match hs hstands hclash hlocal
      -- the routine is closed over the place behind its own declaration, so it may call itself
      have hknown : K ⟨ctx.define routine.name, .routine routine⟩ := by
        cases routine with
        | mk label name params body span => exact (fit_cons.1 hroutine).1.1
      rw [execute, Lexical.execute, Action.bind_apply (Lexical.announce isLocal _), hrun]
      refine (defined_match hs₁ hannounced hname rfl fun _ hsettled => .closure ?_).grow hg₁
      rw [← Context.rows_define] at hsettled
      refine .mk hknown hsettled (hstands.steady.enter hname true) (fun row hrow => ?_) nofun
      rw [Context.rows_define] at hrow
      exact Context.ne_nil_of_mem_head?_enterRow hrow
  | classDecl name nameSpan superclass methods span =>
      rw [Decl.sites, fit_cons, fit_append] at hfit
      obtain ⟨⟨-, hname, hclash⟩, hparent, hmethods⟩ := hfit
      obtain ⟨A₁, n₁, hrun, hg₁, hs₁, hannounced⟩ := announce_match hs hstands hclash hlocal
      rw [execute, Lexical.execute, Action.bind_apply (Lexical.announce isLocal _), hrun]
      refine (Match.weaken ?_).grow hg₁
      refine (makeClass_match hs₁ hannounced hname hparent (known_of_fit hmethods)).bind ?_
      rintro A₂ c d m₂ n₂ hg₂ hs₂ hm₂ ⟨hn₂, hcd⟩
      refine defined_match hs₂ (hannounced.later hg₂ hm₂ hn₂) hname hm₂ fun hg hsettled => .cls ?_
      rw [hm₂, hn₂] at hsettled
      exact hcd hg hsettled
  | statement stmt =>
      rw [execute, Lexical.execute]
      refine ((ih.perform hs hstands hfit).imp ?_).weaken
      rintro A' c c' e hg ⟨hcc, rfl⟩
      exact ⟨hcc, fun _ => hstands.mono hg⟩

theorem executeAll_match (ih : Simulates K setting fuel) {ds : List Decl} (hs : Sim K A m n)
    (hstands : Stands A ctx m.scope.chain n.scope.chain) (hrows : ctx.rows ≠ [])
    (hfit : Fit K setting.distances (Decl.allSites ctx ds)) :
    Match K m.scope.chain.head? A m.scope (fun A' c c' _ => CompletionAlike K ctx.inRoutine A' c c')
      (executeAll setting (fuel + 1) ds m) (Lexical.executeAll setting.clock (fuel + 1) ds n) := by
  cases ds with
  | nil =>
      rw [executeAll, Lexical.executeAll]
      exact .pure hs .normal
  | cons d ds =>
      rw [executeAll, Lexical.executeAll]
      rw [Decl.allSites, fit_append] at hfit
      have hlocal : true = !ctx.rows.isEmpty := by
        rw [List.isEmpty_eq_false_iff.2 hrows]
        rfl
      refine (ih.execute hs hstands hlocal hfit.1).bind ?_
      rintro A₁ c c' m₁ n₁ - hs₁ hm₁ ⟨hcc, hafter⟩
      -- a declaration that completes normally leaves the place of the next one
      cases hcc with
      | normal =>
          have hstands₁ := hafter rfl
          rw [← hm₁] at hstands₁ ⊢
          rw [← Context.inRoutine_after ctx d]
          refine ih.executeAll hs₁ hstands₁ ?_ hfit.2
          rw [← List.isEmpty_eq_false_iff, Context.isEmpty_rows_after]
          exact List.isEmpty_eq_false_iff.2 hrows
      | returned inside hvw => exact .pure hs₁ (.returned inside hvw)

theorem perform_match (ih : Simulates K setting fuel) {stmt : Stmt} (hs : Sim K A m n)
    (hstands : Stands A ctx m.scope.chain n.scope.chain)
    (hfit : Fit K setting.distances (stmt.sites ctx)) :
    Match K none A m.scope (Back (CompletionAlike K ctx.inRoutine) n.scope)
      (perform setting (fuel + 1) stmt m) (Lexical.perform setting.clock (fuel + 1) stmt n) := by
  cases stmt with
  | expression e span =>
      rw [perform, Lexical.perform]
      refine (ih.evaluate hs hstands.seen hfit).andThen ?_
      rintro A₁ v w m₁ n₁ - hs₁ - - -
      exact .pure hs₁ ⟨.normal, rfl⟩
  | print e span =>
      rw [perform, Lexical.perform]
      refine (ih.evaluate hs hstands.seen hfit).andThen ?_
      rintro A₁ v w m₁ n₁ - hs₁ - - hvw
      rw [hvw.text_eq]
      refine (emit_match hs₁ w.text span).andThen ?_
      rintro A₂ _ _ m₂ n₂ - hs₂ - - -
      exact .pure hs₂ ⟨.normal, rfl⟩
  | ret keyword value span =>
      cases value with
      | none =>
          rw [perform, Lexical.perform]
          exact .pure hs ⟨.returned (fit_cons.1 hfit).1.2 .nil, rfl⟩
      | some value =>
          obtain ⟨⟨-, hinside⟩, hvalue⟩ := fit_cons.1 hfit
          rw [perform, Lexical.perform]
          refine (ih.evaluate hs hstands.seen hvalue).andThen ?_
          rintro A₁ v w m₁ n₁ - hs₁ - - hvw
          exact .pure hs₁ ⟨.returned hinside hvw, rfl⟩
  | block body span =>
      rw [perform, Lexical.perform]
      refine Match.child hs m.scope n.scope fun {A₁} hg₁ hs₁ htail hfree => ?_
      -- the second machine opens no frame: a block is a place whose scope has no names yet
      have hstands₁ : Stands A₁ (ctx.opening []) (m.entering m.scope).scope.chain n.scope.chain :=
        (hstands.mono hg₁).block htail hfree
      have hbody := ih.executeAll hs₁ hstands₁ (Context.rows_opening_ne_nil ctx []) hfit
      exact hbody
  | ifElse condition thenBranch elseBranch span =>
      cases elseBranch with
      | none =>
          rw [Stmt.sites, fit_append] at hfit
          rw [perform, Lexical.perform]
          refine (ih.evaluate hs hstands.seen hfit.1).andThen ?_
          rintro A₁ v w m₁ n₁ hg₁ hs₁ hm₁ hn₁ hvw
          rw [hvw.isTruthy_eq]
          split
          · exact ih.perform hs₁ (hstands.later hg₁ hm₁ hn₁) hfit.2
          · exact .pure hs₁ ⟨.normal, rfl⟩
      | some elseBranch =>
          rw [Stmt.sites, fit_append, fit_append] at hfit
          rw [perform, Lexical.perform]
          refine (ih.evaluate hs hstands.seen hfit.1.1).andThen ?_
          rintro A₁ v w m₁ n₁ hg₁ hs₁ hm₁ hn₁ hvw
          rw [hvw.isTruthy_eq]
          split
          · exact ih.perform hs₁ (hstands.later hg₁ hm₁ hn₁) hfit.1.2
          · exact ih.perform hs₁ (hstands.later hg₁ hm₁ hn₁) hfit.2
  | whileLoop condition body span =>
      have hloop := hfit
      rw [Stmt.sites, fit_append] at hfit
      rw [perform, Lexical.perform]
      refine (ih.evaluate hs hstands.seen hfit.1).andThen ?_
      rintro A₁ v w m₁ n₁ hg₁ hs₁ hm₁ hn₁ hvw
      rw [hvw.isTruthy_eq]
      split
      · have hstands₁ := hstands.later hg₁ hm₁ hn₁
        refine (ih.perform hs₁ hstands₁ hfit.2).andThen ?_
        rintro A₂ c c' m₂ n₂ hg₂ hs₂ hm₂ hn₂ hcc
        -- the loop goes on with the statement itself, for which one step less is left
        cases hcc with
        | normal => exact ih.perform hs₂ (hstands₁.later hg₂ hm₂ hn₂) hloop
        | returned inside hvw' => exact .pure hs₂ ⟨.returned inside hvw', rfl⟩
      · exact .pure hs₁ ⟨.normal, rfl⟩

/-! ### All runs -/

/-- **Runs match, whatever the fuel.** -/
theorem simulates (hK : Lawful K setting.distances) (fuel : Nat) : Simulates K setting fuel := by
  -- induction on the fuel: each run goes on in runs with one step less, and at the end both starve
  induction fuel with
  | zero =>
      constructor
      case evaluate => exact fun _ _ _ => .starved
      case evaluateAll => exact fun _ _ _ => .starved
      case apply => exact fun _ _ _ => .starved
      case call => exact fun _ _ _ _ => .starved
      case execute => exact fun _ _ _ _ => .starved
      case executeAll => exact fun _ _ _ _ => .starved
      case perform => exact fun _ _ _ => .starved
  | succ fuel ih =>
      exact ⟨evaluate_match hK ih, evaluateAll_match ih, apply_match ih, call_match hK ih,
        execute_match ih, executeAll_match ih, perform_match ih⟩

/-- A declaration outside of all scopes completes normally, and the machines stay there. -/
theorem execute_global_match (hK : Lawful K setting.distances) (fuel : Nat) {d : Decl}
    (hs : Sim K A m n) (hm : m.scope = ⟨[0]⟩) (hn : n.scope = ⟨[0]⟩)
    (hfit : Fit K setting.distances (d.sites .global)) :
    Match K (some 0) A m.scope (fun _ c c' place => c = .normal ∧ c' = .normal ∧ place = ⟨[0]⟩)
      (execute setting fuel d m) (Lexical.execute setting.clock false fuel d n) := by
  have hstands : Stands A .global m.scope.chain n.scope.chain := by
    rw [hm, hn]
    exact .global A
  have hlocal : false = !Context.global.rows.isEmpty := rfl
  have hd := (simulates hK fuel).execute hs hstands hlocal hfit
  have hown : m.scope.chain.head? = some 0 := by rw [hm]; rfl
  rw [Context.after_global, hown] at hd
  refine hd.imp ?_
  rintro A' c c' place - ⟨hcc, hplace⟩
  -- there is no routine to return from, and a global declaration makes no location
  cases hcc with
  | normal =>
      have hplaced := (hplace rfl).settled.placed
      rw [hm] at hplaced
      obtain ⟨locations⟩ := place
      cases hplaced
      exact ⟨rfl, rfl, rfl⟩
  | returned inside _ => cases inside

/-- **The declarations of a program**, run outside of all scopes: runs match, no declaration
returns, and both machines end where they started. -/
theorem runDeclarations_match (hK : Lawful K setting.distances) (fuel : Nat) {ds : List Decl}
    (hs : Sim K A m n) (hm : m.scope = ⟨[0]⟩) (hn : n.scope = ⟨[0]⟩)
    (hfit : Fit K setting.distances (Decl.allSites .global ds)) :
    Match K (some 0) A m.scope (fun _ _ _ place => place = ⟨[0]⟩)
      (runDeclarations setting fuel ds m)
      (Lexical.runDeclarations setting.clock fuel ds n) := by
  induction ds generalizing A m n with
  | nil => exact .pure hs hn
  | cons d ds ih =>
      rw [Decl.allSites, fit_append, Context.after_global] at hfit
      rw [runDeclarations, Lexical.runDeclarations]
      refine (execute_global_match hK fuel hs hm hn hfit.1).bind ?_
      rintro A₁ c c' m₁ n₁ - hs₁ hm₁ ⟨rfl, rfl, hn₁⟩
      exact ih hs₁ (hm₁.trans hm) hn₁ hfit.2

end Simulation

end Scriptlet
