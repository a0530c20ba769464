/-
**How values flow through a run.**

The parts of a task follow one another: each starts on a store that has grown out of the one which
the part before it has left, and the store that the task leaves has grown out of that of its last
part.  A policy is kept all along if three things are as it says: what a task makes itself, which
names it writes, and what a class declaration binds to `super`.  All other values come out of the
store or out of the parts.

Main definitions:

* `Scriptlet.Sequence` — **parts that follow one another**, on stores that keep a policy;
* `Scriptlet.Task.Upholds` — tasks that leave a store and a value as a policy says;
* `Scriptlet.Task.Allowed` — tasks that do nothing against a policy themselves;
* `Scriptlet.Policy.Guards` — what is known of moments and is enough for a policy to be kept.

Main results:

* `Scriptlet.Task.flows` — the parts of a task follow one another, and the task upholds the policy
  if its parts do;
* `Scriptlet.Policy.Guards.upholds`, `Scriptlet.Policy.Guards.leads` — **a policy that is guarded is
  upheld by every task and kept at every moment**;
* `Scriptlet.Task.sequence` — in every run, the parts of a task follow one another.
-/

import Scriptlet.Proofs.Origin.Policy
import Scriptlet.Proofs.Scope.Trails

set_option relaxedAutoImplicit false
set_option autoImplicit false

namespace Scriptlet

/-! ### What a task takes and does itself -/

/-- The values that a task is given. -/
def Task.operands : Task → List Value
  | .apply f arguments _ => f :: arguments
  | .call f arguments _ => .closure f :: arguments
  | .assign _ _ v => [v]
  | _ => []

/-- The names that a task writes itself. -/
def Task.names : Task → List String
  | .call f _ _ => f.routine.params.map Param.name
  | .execute d => d.name?.toList
  | .assign _ name _ => [name]
  | _ => []

/-- The value of a part of which a task makes another: that whose property is read. -/
def Task.sources (setting : Setting) (fuel : Nat) (m : Machine) : Task → List Value
  | .evaluate (.get _ object _) => (Scriptlet.evaluate setting fuel object m).after fun v _ => [v]
  | _ => []

/-- A class among values. -/
def Value.class? : Value → Option Class
  | .cls c => some c
  | _ => none

/-- The class that a class declaration binds to `super`. -/
def Task.ancestors (setting : Setting) (m : Machine) : Task → List Class
  | .execute (.classDecl _ _ (some parent) _ _) =>
      (Action.lookUp setting parent.mark parent.name m).after fun v _ => v.class?.toList
  | _ => []

/-- **A task that leaves a store and a value as a policy says.** -/
def Task.Upholds (P : Policy) (setting : Setting) (fuel : Nat) (m : Machine) : Task → Prop
  | .evaluate e => P.Ends m.store P.value (Scriptlet.evaluate setting fuel e m)
  | .evaluateAll es =>
      P.Ends m.store (fun vs => ∀ v ∈ vs, P.value v) (Scriptlet.evaluateAll setting fuel es m)
  | .apply f arguments site =>
      P.Ends m.store P.value (Scriptlet.apply setting fuel f arguments site m)
  | .call f arguments site =>
      P.Ends m.store P.value (Scriptlet.call setting fuel f arguments site m)
  | .execute d => P.Ends m.store (fun c => P.value c.value) (Scriptlet.execute setting fuel d m)
  | .executeAll ds =>
      P.Ends m.store (fun c => P.value c.value) (Scriptlet.executeAll setting fuel ds m)
  | .perform stmt =>
      P.Ends m.store (fun c => P.value c.value) (Scriptlet.perform setting fuel stmt m)
  | .lookUp mark name => P.Ends m.store P.value (Action.lookUp setting mark name m)
  | .assign mark name v => P.Ends m.store (fun _ => True) (Action.assign setting mark name v m)
  | .superMethod mark method =>
      P.Ends m.store (fun _ => True) (Action.superMethod setting mark method m)

/-- **A task that does nothing against a policy itself.** -/
structure Task.Allowed (P : Policy) (setting : Setting) (fuel : Nat) (m : Machine) (t : Task) :
    Prop where
  /-- What it makes is permitted, if that of which it makes it is. -/
  made : (∀ v ∈ t.sources setting fuel m, P.value v) → ∀ v ∈ t.made setting fuel m, P.value v
  names : ∀ x ∈ t.names, P.name x
  super : ∀ c ∈ t.ancestors setting m, P.binding m.store.frames.size "super" (.cls c)

/-! ### Parts that follow one another -/

/-- **Parts that follow one another**, from a store to the one that is left at the end.  Behind a
part that runs out of fuel there is no other. -/
inductive Sequence (P : Policy) (setting : Setting) (fuel : Nat) :
    Store → List (Task × Machine) → Option Store → Prop
  | nil {s : Store} {left : Option Store} (le : ∀ s' ∈ left, P.Le s s') :
      Sequence P setting fuel s [] left
  | cons {s s₁ : Store} {t : Task} {m : Machine} {parts : List (Task × Machine)}
      {left : Option Store} (le : P.Le s m.store) (held : P.Held m.store)
      (operands : ∀ v ∈ t.operands, P.value v)
      (part : (t.outcome setting fuel m).store? = some s₁) (grows : P.Le m.store s₁)
      (rest : Sequence P setting fuel s₁ parts left) :
      Sequence P setting fuel s ((t, m) :: parts) left
  | starved {s : Store} {t : Task} {m : Machine} (le : P.Le s m.store) (held : P.Held m.store)
      (operands : ∀ v ∈ t.operands, P.value v)
      (part : (t.outcome setting fuel m).store? = none) : Sequence P setting fuel s [(t, m)] none

section Flows

variable {α β : Type} {P : Policy} {setting : Setting} {fuel : Nat} {s s' : Store} {m : Machine}
  {parts parts' : List (Task × Machine)} {left : Option Store}

namespace Sequence

theorem of_le (h : Sequence P setting fuel s' parts left) (hle : P.Le s s') :
    Sequence P setting fuel s parts left := by
  cases h with
  | nil le => exact .nil fun s'' hs'' => hle.trans (le s'' hs'')
  | cons le held operands part grows rest =>
      exact .cons (hle.trans le) held operands part grows rest
  | starved le held operands part => exact .starved (hle.trans le) held operands part

/-- Parts that follow one another, and behind them others that do. -/
theorem append (h : Sequence P setting fuel s parts (some s'))
    (h' : Sequence P setting fuel s' parts' left) :
    Sequence P setting fuel s (parts ++ parts') left := by
  generalize hleft : some s' = middle at h
  induction h with
  | nil le => exact h'.of_le (le s' (hleft ▸ rfl))
  | cons le held operands part grows rest ih =>
      exact .cons le held operands part grows (ih hleft)
  | starved le held operands part => cases hleft

/-- Each of the parts starts on a store that has grown and keeps the policy. -/
theorem of_mem (h : Sequence P setting fuel s parts left) {part : Task × Machine}
    (hpart : part ∈ parts) :
    P.Le s part.2.store ∧ P.Held part.2.store ∧ ∀ v ∈ part.1.operands, P.value v := by
  induction h with
  | nil le => cases hpart
  | cons le held operands hleft grows rest ih =>
      rcases List.mem_cons.1 hpart with rfl | hpart
      · exact ⟨le, held, operands⟩
      · obtain ⟨hle, hrest⟩ := ih hpart
        exact ⟨(le.trans grows).trans hle, hrest⟩
  | starved le held operands hleft =>
      rw [List.mem_singleton] at hpart
      subst hpart
      exact ⟨le, held, operands⟩

/-- The store that is left at the end has grown. -/
theorem le (h : Sequence P setting fuel s parts left) : ∀ s' ∈ left, P.Le s s' := by
  induction h with
  | nil le => exact le
  | cons le held operands part grows rest ih =>
      exact fun s' hs' => (le.trans grows).trans (ih s' hs')
  | starved le held operands part => nofun

end Sequence

/-- **An end that keeps a policy if the parts do**, which follow one another. -/
def Flows (P : Policy) (setting : Setting) (fuel : Nat) (s : Store) (o : Outcome α)
    (parts : List (Task × Machine)) (Q : α → Prop) : Prop :=
  (∀ part ∈ parts, P.Held part.2.store → (∀ v ∈ part.1.operands, P.value v) →
    part.1.Upholds P setting fuel part.2) →
  Sequence P setting fuel s parts o.store? ∧ P.Ends s Q o

namespace Flows

variable {x : Action α} {f : α → Action β} {g : α → Machine → List (Task × Machine)}
  {Q : α → Prop} {R : β → Prop} {o : Outcome α}

theorem of_le (h : Flows P setting fuel s' o parts Q) (hle : P.Le s s') :
    Flows P setting fuel s o parts Q := fun hparts =>
  ⟨(h hparts).1.of_le hle, (h hparts).2.of_le hle⟩

theorem imp {Q' : α → Prop} (h : Flows P setting fuel s o parts Q)
    (hQ : ∀ a m, o = .done a m → Q a → Q' a) : Flows P setting fuel s o parts Q' := fun hparts =>
  ⟨(h hparts).1, (h hparts).2.imp hQ⟩

/-- What flows, the value of its end left out. -/
theorem upheld (h : Flows P setting fuel s o parts Q)
    (hparts : ∀ part ∈ parts, P.Held part.2.store → (∀ v ∈ part.1.operands, P.value v) →
      part.1.Upholds P setting fuel part.2) :
    Sequence P setting fuel s parts o.forget.store? ∧ P.Ends s Q o := by
  rw [Outcome.store?_forget]
  exact h hparts

/-- An end without parts. -/
theorem silent (h : P.Ends s Q o) : Flows P setting fuel s o [] Q := by
  exact fun _ => ⟨.nil h.le, h⟩

/-- A part that ends as the whole does. -/
theorem part {t : Task} (held : P.Held m.store) (operands : ∀ v ∈ t.operands, P.value v)
    (h : t.outcome setting fuel m = o.forget)
    (hQ : t.Upholds P setting fuel m → P.Ends m.store Q o) :
    Flows P setting fuel m.store o [(t, m)] Q := by
  intro hparts
  have hend := hQ (hparts _ (List.mem_singleton.2 rfl) held operands)
  refine ⟨?_, hend⟩
  have hstore : (t.outcome setting fuel m).store? = o.store? := by rw [h, Outcome.store?_forget]
  cases hs : o.store? with
  | some s₁ =>
      refine .cons (P.le_refl _) held operands (hstore.trans hs) (hend.le s₁ hs)
        (.nil fun s' hs' => ?_)
      cases hs'
      exact P.le_refl _
  | none => exact .starved (P.le_refl _) held operands (hstore.trans hs)

/-- An action whose halves have parts. -/
theorem bind (h : Flows P setting fuel m.store (x m) parts Q)
    (hf : ∀ a m', x m = .done a m' → P.Held m'.store → Q a →
      Flows P setting fuel m'.store (f a m') (g a m') R) :
    Flows P setting fuel m.store ((x >>= f) m) (parts ++ (x m).after g) R := by
  intro hparts
  obtain ⟨hsequence, hend⟩ := h fun part hp => hparts part (List.mem_append_left _ hp)
  rw [Action.bind_apply]
  cases hx : x m with
  | done a m' =>
      rw [hx] at hsequence hend hparts
      obtain ⟨hsequence', hend'⟩ := hf a m' hx hend.2.1 hend.2.2 fun part hp =>
        hparts part (List.mem_append_right _ hp)
      exact ⟨hsequence.append hsequence', hend'.of_le hend.1⟩
  | failed e m' =>
      rw [hx] at hsequence hend
      rw [Outcome.after, List.append_nil]
      exact ⟨hsequence, hend⟩
  | starved =>
      rw [hx] at hsequence hend
      rw [Outcome.after, List.append_nil]
      exact ⟨hsequence, trivial⟩

/-- An action whose first half is a part. -/
theorem andThen {t : Task} (held : P.Held m.store) (operands : ∀ v ∈ t.operands, P.value v)
    (h : t.outcome setting fuel m = (x m).forget)
    (hQ : t.Upholds P setting fuel m → P.Ends m.store Q (x m))
    (hf : ∀ a m', x m = .done a m' → P.Held m'.store → Q a →
      Flows P setting fuel m'.store (f a m') (g a m') R) :
    Flows P setting fuel m.store ((x >>= f) m) ((t, m) :: (x m).after g) R :=
  (part held operands h hQ).bind hf

/-- An action whose first half has no parts. -/
theorem afterSilent (h : P.Ends m.store Q (x m))
    (hf : ∀ a m', x m = .done a m' → P.Held m'.store → Q a →
      Flows P setting fuel m'.store (f a m') (g a m') R) :
    Flows P setting fuel m.store ((x >>= f) m) ((x m).after g) R := by
  have hsilent : Flows P setting fuel m.store (x m) [] Q := silent h
  have hbind := hsilent.bind hf
  rwa [List.nil_append] at hbind

/-- An action whose second half has no parts. -/
theorem andSilent (h : Flows P setting fuel m.store (x m) parts Q)
    (hf : ∀ a m', x m = .done a m' → P.Held m'.store → Q a → P.Ends m'.store R (f a m')) :
    Flows P setting fuel m.store ((x >>= f) m) parts R := by
  have hbind := h.bind (g := fun _ _ => []) fun a m' hx hm hQ => silent (hf a m' hx hm hQ)
  rwa [Outcome.after_nil, List.append_nil] at hbind

theorem inChildOf {environment : Environment}
    (h : Flows P setting fuel s (x (m.entering environment)) parts Q) :
    Flows P setting fuel s (Action.inChildOf environment x m) parts Q := by
  rw [Action.inChildOf_apply]
  generalize x _ = o at h
  cases o <;> exact h

theorem framed (h : Flows P setting fuel s (x { m with depth := m.depth + 1 }) parts Q) :
    Flows P setting fuel s (Action.framed x m) parts Q := by
  rw [Action.framed_apply]
  generalize x _ = o at h
  cases o <;> exact h

end Flows

end Flows

/-! ### What tasks do beside their parts -/

section Parts

variable {P : Policy} {setting : Setting} {fuel : Nat} {m : Machine}

theorem onNumbers_not_isMade {f : Float → Float → Value} (hf : ∀ x y, ¬(f x y).IsMade) {v w : Value}
    {r : Value} (h : onNumbers f v w = .ok r) : ¬r.IsMade := by
  unfold onNumbers at h
  split at h
  · cases h
    exact hf _ _
  · cases h

/-- Operators make no functions, classes or objects. -/
theorem UnaryOp.not_isMade (op : UnaryOp) {v r : Value} (h : op.apply v = .ok r) : ¬r.IsMade := by
  cases op with
  | negate =>
      cases v
      all_goals cases h
      exact id
  | not =>
      cases h
      exact id

theorem BinaryOp.not_isMade (op : BinaryOp) {v w r : Value} (h : op.apply v w = .ok r) :
    ¬r.IsMade := by
  cases op with
  | add =>
      cases v with
      | number x => cases w <;> cases h <;> exact id
      | string s => cases w <;> cases h <;> exact id
      | _ => cases h
  | divide =>
      cases v with
      | number x =>
          cases w with
          | number y =>
              simp only [BinaryOp.apply] at h
              split at h
              · cases h
              · cases h
                exact id
          | _ => cases h
      | _ => cases h
  | equal =>
      cases h
      exact id
  | notEqual =>
      cases h
      exact id
  | _ => exact onNumbers_not_isMade (fun _ _ => id) h

theorem Constant.not_isMade (c : Constant) : ¬c.value.IsMade := by
  cases c <;> exact id

theorem Expr.flows (hm : P.Held m.store) (e : Expr)
    (hallowed : (Task.evaluate e).Allowed P setting fuel m) :
    Flows P setting fuel m.store (evaluate setting (fuel + 1) e m) (e.parts setting fuel m)
      P.value := by
  -- the value of an expression is that of a part, or plain, or out of the store, or just made
  cases e with
  | constant mark value =>
      rw [evaluate]
      exact .silent (.pure hm (P.plain _ value.not_isMade))
  | grouping mark inner =>
      rw [evaluate]
      exact .part hm (List.forall_mem_nil _) rfl id
  | unary mark op operand =>
      rw [evaluate]
      refine .andSilent (.part hm (List.forall_mem_nil _) rfl id) fun v m₁ _ h₁ _ => ?_
      exact .ofExcept h₁ (fun r hr => P.plain r (op.not_isMade hr)) mark.span
  | binary mark left op opSpan right =>
      rw [evaluate]
      refine .andThen hm (List.forall_mem_nil _) rfl id fun v m₁ _ h₁ _ => ?_
      refine .andSilent (.part h₁ (List.forall_mem_nil _) rfl id) fun w m₂ _ h₂ _ => ?_
      exact .ofExcept h₂ (fun r hr => P.plain r (op.not_isMade hr)) opSpan
  | logical mark left op right =>
      rw [evaluate]
      refine .andThen hm (List.forall_mem_nil _) rfl id fun v m₁ _ h₁ hv => ?_
      split
      · exact .silent (.pure h₁ hv)
      · exact .part h₁ (List.forall_mem_nil _) rfl id
  | ternary mark condition question thenBranch elseBranch =>
      rw [evaluate]
      refine .andThen hm (List.forall_mem_nil _) rfl id fun v m₁ _ h₁ _ => ?_
      refine .andSilent (.part h₁ (List.forall_mem_nil _) rfl id) fun w m₂ _ h₂ hw => ?_
      split
      · exact .pure h₂ hw
      · exact .fail h₂ _ _
  | «variable» mark name =>
      rw [evaluate]
      exact .part hm (List.forall_mem_nil _) rfl id
  | assign mark name value =>
      rw [evaluate]
      refine .andThen hm (List.forall_mem_nil _) rfl id fun v m₁ _ h₁ hv => ?_
      refine .andSilent (.part h₁ (List.forall_mem_singleton.2 hv) rfl id) fun _ m₂ _ h₂ _ => ?_
      exact .pure h₂ hv
  | call mark callee arguments paren =>
      rw [evaluate]
      refine .andThen hm (List.forall_mem_nil _) rfl id fun f m₁ _ h₁ hf => ?_
      refine .andThen h₁ (List.forall_mem_nil _) rfl id fun vs m₂ _ h₂ hvs => ?_
      exact .part h₂ (List.forall_mem_cons.2 ⟨hf, hvs⟩) rfl id
  | get mark object name =>
      rw [evaluate]
      refine .andSilent (.part hm (List.forall_mem_nil _) rfl id) fun v m₁ hv h₁ hvalue => ?_
      have hmade : ∀ w ∈ m₁.store.accessed name v, P.value w := by
        have hafter := hallowed.made
        simp only [Task.sources, Task.made, hv, Outcome.after, List.forall_mem_singleton] at hafter
        exact hafter hvalue
      split
      · rename_i id c
        obtain ⟨hle, hheld, hfound⟩ := h₁.property hvalue hmade
        exact .bind (.onStore hle hheld hfound) fun found m₂ _ _ h₂ hfound =>
          .require h₂ hfound _ _
      · exact .fail h₁ _ _
  | set mark object name value =>
      rw [evaluate]
      refine .andThen hm (List.forall_mem_nil _) rfl id fun v m₁ _ h₁ _ => ?_
      cases v with
      | object i c =>
          refine .andSilent (.part h₁ (List.forall_mem_nil _) rfl id) fun w m₂ _ h₂ hw => ?_
          exact ⟨P.le_setField m₂.store .., h₂.setField i hw, hw⟩
      | _ => exact .silent (.fail h₁ _ _)
  | thisRef mark =>
      rw [evaluate]
      exact .part hm (List.forall_mem_nil _) rfl id
  | superRef mark method =>
      rw [evaluate]
      refine .part hm (List.forall_mem_nil _) rfl fun hend =>
        Policy.Ends.imp hend fun v m₁ hv _ => ?_
      refine hallowed.made (List.forall_mem_nil _) v ?_
      simp only [Task.made, hv, Outcome.after, List.mem_singleton]

theorem Expr.allFlows (hm : P.Held m.store) (es : List Expr) :
    Flows P setting fuel m.store (evaluateAll setting (fuel + 1) es m)
      (Expr.allParts setting fuel m es) (fun vs => ∀ v ∈ vs, P.value v) := by
  cases es with
  | nil =>
      rw [evaluateAll]
      exact .silent (.pure hm (List.forall_mem_nil _))
  | cons e es =>
      rw [evaluateAll]
      refine .andThen hm (List.forall_mem_nil _) rfl id fun v m₁ _ h₁ hv => ?_
      refine .andSilent (.part h₁ (List.forall_mem_nil _) rfl id) fun vs m₂ _ h₂ hvs => ?_
      exact .pure h₂ (List.forall_mem_cons.2 ⟨hv, hvs⟩)

theorem Value.flows (hm : P.Held m.store) (f : Value) (arguments : List Value) (site : Span)
    (hoperands : ∀ v ∈ f :: arguments, P.value v)
    (hallowed : (Task.apply f arguments site).Allowed P setting fuel m) :
    Flows P setting fuel m.store (apply setting (fuel + 1) f arguments site m)
      (f.parts m arguments site) P.value := by
  obtain ⟨hf, harguments⟩ := List.forall_mem_cons.1 hoperands
  cases f with
  | closure f =>
      rw [apply, Value.parts]
      split
      · exact .part hm hoperands rfl id
      · exact .silent (.fail hm _ _)
  | cls c =>
      have hmade := hallowed.made (List.forall_mem_nil _)
      rw [apply, Value.parts]
      split
      · rename_i harity
        simp only [Task.made, harity, if_true] at hmade
        obtain ⟨hobject, hmade⟩ := List.forall_mem_cons.1 hmade
        have hnew : P.Ends m.store (fun v => v = (m.store.newObject c).1)
            (Action.onStore (fun s => s.newObject c) m) :=
          .onStore (P.le_newObject m.store c) (hm.newObject c) rfl
        refine .afterSilent hnew fun object m₁ hm₁ h₁ hv => ?_
        subst hv
        cases hm₁
        cases hinit : c.findMethod? "init" with
        | none => exact .silent (.pure h₁ hobject)
        | some method =>
            rw [hinit] at hmade
            have hbound := hmade _ (List.mem_singleton.2 rfl)
            -- the object is made and its initialiser bound, and the call of that is a part
            refine .afterSilent (Q := fun f => P.value (.closure f))
              (.onStore (P.le_bind _ method _) (h₁.bind method hobject) hbound)
              fun bound m₂ _ h₂ hclosure => ?_
            refine .andSilent (.part h₂ (List.forall_mem_cons.2 ⟨hclosure, harguments⟩) rfl id)
              fun _ m₃ _ h₃ _ => ?_
            exact .pure h₃ hobject
      · exact .silent (.fail hm _ _)
  | native f =>
      cases f with
      | clock =>
          rw [apply]
          split
          · exact .silent ⟨P.le_refl _, hm, P.plain _ id⟩
          · exact .silent (.fail hm _ _)
  | _ =>
      rw [apply]
      · exact .silent (.fail hm _ _)
      all_goals
        intros
        contradiction

theorem Closure.flows (hm : P.Held m.store) (f : Closure) (arguments : List Value) (site : Span)
    (hoperands : ∀ v ∈ Value.closure f :: arguments, P.value v)
    (hallowed : (Task.call f arguments site).Allowed P setting fuel m) :
    Flows P setting fuel m.store (call setting (fuel + 1) f arguments site m)
      (f.parts m arguments) P.value := by
  rw [call, Closure.parts]
  change Flows P setting fuel m.store
    ((if callLimit ≤ m.depth then Action.fail .stackOverflow site else _ : Action Value) m) _ _
  split
  · exact .silent (.fail hm _ _)
  · refine .andSilent (Q := fun c => P.value c.value) (.framed (.inChildOf ?_))
      fun completion m₁ _ h₁ hc => ?_
    · have hnames : ∀ p ∈ f.routine.params, P.name p.name := fun p hp =>
        hallowed.names _ (List.mem_map_of_mem hp)
      have hchild : P.Held ({ m with depth := m.depth + 1 }.entering f.environment).store :=
        hm.child f.environment
      refine Flows.of_le (.afterSilent
        (.bindArguments hchild hnames (List.forall_mem_cons.1 hoperands).2)
        fun _ m₂ _ h₂ _ => ?_) (P.le_child m.store f.environment)
      exact .part h₂ (List.forall_mem_nil _) rfl id
    · split
      · exact .require h₁ (fun v hv => h₁.getAt? hv) _ _
      · exact .pure h₁ hc

theorem Decl.flows (hm : P.Held m.store) (d : Decl)
    (hallowed : (Task.execute d).Allowed P setting fuel m) :
    Flows P setting fuel m.store (execute setting (fuel + 1) d m) (d.parts m)
      (fun c => P.value c.value) := by
  have hnil : P.value .nil := P.plain _ id
  cases d with
  | varDecl name nameSpan initializer span =>
      have hname : P.name name := hallowed.names name (List.mem_singleton.2 rfl)
      cases initializer with
      | none =>
          rw [execute]
          refine .silent (.bind (.pure hm hnil) fun v m₁ _ _ h₁ hv => ?_)
          exact .bind (.define h₁ hname hv) fun _ m₂ _ _ h₂ _ => .pure h₂ hnil
      | some value =>
          rw [execute]
          refine .andSilent (.part hm (List.forall_mem_nil _) rfl id) fun v m₁ _ h₁ hv => ?_
          exact .bind (.define h₁ hname hv) fun _ m₂ _ _ h₂ _ => .pure h₂ hnil
  | funDecl routine span =>
      have hname : P.name routine.name := hallowed.names _ (List.mem_singleton.2 rfl)
      have hmade := hallowed.made (List.forall_mem_nil _) _ (List.mem_singleton.2 rfl)
      rw [execute]
      refine .silent (.bind (.read hm _) fun scope m₁ _ _ h₁ hscope => ?_)
      subst hscope
      exact .bind (.define h₁ hname hmade) fun _ m₂ _ _ h₂ _ => .pure h₂ hnil
  | classDecl name nameSpan superclass methods span =>
      have hname : P.name name := hallowed.names name (List.mem_singleton.2 rfl)
      have hmade : ∀ c m₁, Action.makeClass setting name superclass methods m = .done c m₁ →
          P.value (.cls c) := by
        intro c m₁ hc
        refine hallowed.made (List.forall_mem_nil _) _ ?_
        simp only [Task.made, hc, Outcome.after, List.mem_singleton]
      rw [execute]
      refine .andSilent (Q := fun c => P.value (.cls c)) ?_ fun c m₁ _ h₁ hc =>
        .bind (.define h₁ hname hc) fun _ m₂ _ _ h₂ _ => .pure h₂ hnil
      refine Flows.imp (Q := fun _ => True) ?_ fun c m₁ hc _ => hmade c m₁ hc
      cases superclass with
      | none =>
          exact .silent (.bind (.read hm _) fun scope m₁ _ _ h₁ _ =>
            .onStore (P.le_newClass m₁.store ..) (h₁.newClass ..) trivial)
      | some parent =>
          have hsuper := hallowed.super
          refine Flows.andSilent (x := Action.lookUp setting parent.mark parent.name)
            (.part hm (List.forall_mem_nil _) rfl id) fun v m₁ hv h₁ _ => ?_
          cases lookUp_done hv
          simp only [Task.ancestors, hv, Outcome.after] at hsuper
          split
          -- the frame of `super` is the next that is made
          · have hbinding := hsuper _ (List.mem_singleton.2 rfl)
            refine .bind (Q := fun _ => True)
              (.onStore (P.le_child m.store m.scope) (h₁.child m.scope) trivial)
              fun inner m₂ hm₂ _ h₂ _ => ?_
            cases hm₂
            refine .bind (Q := fun _ => True)
              ⟨P.le_enclose m.store m.scope .., h₂.write hbinding, trivial⟩ fun _ m₃ _ _ h₃ _ => ?_
            exact .onStore (P.le_newClass m₃.store ..) (h₃.newClass ..) trivial
          · exact .fail h₁ _ _
  | statement stmt =>
      rw [execute]
      exact .part hm (List.forall_mem_nil _) rfl id

theorem Decl.allFlows (hm : P.Held m.store) (ds : List Decl) :
    Flows P setting fuel m.store (executeAll setting (fuel + 1) ds m)
      (Decl.allParts setting fuel m ds) (fun c => P.value c.value) := by
  cases ds with
  | nil =>
      rw [executeAll]
      exact .silent (.pure hm (P.plain _ id))
  | cons d ds =>
      rw [executeAll]
      refine .andThen hm (List.forall_mem_nil _) rfl id fun c m₁ _ h₁ hc => ?_
      cases c with
      | normal => exact .part h₁ (List.forall_mem_nil _) rfl id
      | returned v => exact .silent (.pure h₁ hc)

theorem Stmt.flows (hm : P.Held m.store) (stmt : Stmt) :
    Flows P setting fuel m.store (perform setting (fuel + 1) stmt m)
      (stmt.parts setting fuel m) (fun c => P.value c.value) := by
  have hnil : P.value .nil := P.plain _ id
  cases stmt with
  | expression e span =>
      rw [perform]
      exact .andSilent (.part hm (List.forall_mem_nil _) rfl id) fun v m₁ _ h₁ _ => .pure h₁ hnil
  | print e span =>
      rw [perform]
      refine .andSilent (.part hm (List.forall_mem_nil _) rfl id) fun v m₁ _ h₁ _ => ?_
      exact .bind (.emit h₁ v.text span) fun _ m₂ _ _ h₂ _ => .pure h₂ hnil
  | ret keyword value span =>
      cases value with
      | none =>
          rw [perform]
          exact .silent (.pure hm hnil)
      | some value =>
          rw [perform]
          exact .andSilent (.part hm (List.forall_mem_nil _) rfl id) fun v m₁ _ h₁ hv => .pure h₁ hv
  | block body span =>
      rw [perform]
      have hchild : P.Held (m.entering m.scope).store := hm.child m.scope
      exact .inChildOf (.of_le (.part hchild (List.forall_mem_nil _) rfl id)
        (P.le_child m.store m.scope))
  | ifElse condition thenBranch elseBranch span =>
      cases elseBranch with
      | none =>
          rw [perform]
          refine .andThen hm (List.forall_mem_nil _) rfl id fun v m₁ _ h₁ _ => ?_
          split
          · exact .part h₁ (List.forall_mem_nil _) rfl id
          · exact .silent (.pure h₁ hnil)
      | some elseBranch =>
          rw [perform]
          refine .andThen hm (List.forall_mem_nil _) rfl id fun v m₁ _ h₁ _ => ?_
          split
          · exact .part h₁ (List.forall_mem_nil _) rfl id
          · exact .part h₁ (List.forall_mem_nil _) rfl id
  | whileLoop condition body span =>
      rw [perform]
      refine .andThen hm (List.forall_mem_nil _) rfl id fun v m₁ _ h₁ _ => ?_
      split
      · refine .andThen h₁ (List.forall_mem_nil _) rfl id fun c m₂ _ h₂ hc => ?_
        cases c with
        | normal => exact .part h₂ (List.forall_mem_nil _) rfl id
        | returned v => exact .silent (.pure h₂ hc)
      · exact .silent (.pure h₁ hnil)

/-- **The parts of a task follow one another, and the task upholds a policy if its parts do.** -/
theorem Task.flows (t : Task) (hm : P.Held m.store) (hoperands : ∀ v ∈ t.operands, P.value v)
    (hallowed : t.Allowed P setting fuel m)
    (hparts : ∀ part ∈ t.parts setting fuel m, P.Held part.2.store →
      (∀ v ∈ part.1.operands, P.value v) → part.1.Upholds P setting fuel part.2) :
    Sequence P setting fuel m.store (t.parts setting fuel m)
        (t.outcome setting (fuel + 1) m).store? ∧
      t.Upholds P setting (fuel + 1) m := by
  cases t with
  | evaluate e => exact (e.flows hm hallowed).upheld hparts
  | evaluateAll es => exact (Expr.allFlows hm es).upheld hparts
  | apply f arguments site => exact (f.flows hm arguments site hoperands hallowed).upheld hparts
  | call f arguments site => exact (f.flows hm arguments site hoperands hallowed).upheld hparts
  | execute d => exact (d.flows hm hallowed).upheld hparts
  | executeAll ds => exact (Decl.allFlows hm ds).upheld hparts
  | perform stmt => exact (stmt.flows hm).upheld hparts
  | lookUp mark name => exact (Flows.silent (.lookUp setting mark hm name)).upheld hparts
  | assign mark name v =>
      have hname := hallowed.names name (List.mem_singleton.2 rfl)
      have hv := hoperands v (List.mem_singleton.2 rfl)
      exact (Flows.silent (.assign setting mark hm hname hv)).upheld hparts
  | superMethod mark method =>
      exact (Flows.silent (.superMethod setting mark hm method)).upheld hparts

/-- Without fuel only names are consulted. -/
theorem Task.upholds_zero (t : Task) (hm : P.Held m.store)
    (hoperands : ∀ v ∈ t.operands, P.value v) (hnames : ∀ x ∈ t.names, P.name x) :
    t.Upholds P setting 0 m := by
  cases t with
  | lookUp mark name => exact Policy.Ends.lookUp setting mark hm name
  | assign mark name v =>
      exact Policy.Ends.assign setting mark hm (hnames name (List.mem_singleton.2 rfl))
        (hoperands v (List.mem_singleton.2 rfl))
  | superMethod mark method => exact Policy.Ends.superMethod setting mark hm method
  | _ => trivial

/-- What a class declaration binds to `super` comes out of the store. -/
theorem Task.value_of_mem_ancestors {P : Policy} (hm : P.Held m.store) {t : Task} {c : Class}
    (h : c ∈ t.ancestors setting m) : P.value (.cls c) := by
  cases t with
  | execute d =>
      cases d with
      | classDecl name nameSpan superclass methods span =>
          cases superclass with
          | none => cases h
          | some parent =>
              obtain ⟨v, m₁, hv, hc⟩ := Outcome.mem_after.1 h
              have hvalue := Policy.Ends.lookUp setting parent.mark hm parent.name
              rw [hv] at hvalue
              cases v with
              | cls d =>
                  obtain rfl := List.mem_singleton.1 hc
                  exact hvalue.2.2
              | _ => cases hc
      | _ => cases h
  | _ => cases h

end Parts

/-! ### Policies that are guarded -/

/-- **What is known of moments and is enough for a policy to be kept**: a moment on a store that
keeps the policy does nothing against it, and what is known of it is known of its parts. -/
structure Policy.Guards (P : Policy) (setting : Setting) (G : Moment → Prop) : Prop where
  made : ∀ ⦃t fuel m⦄, G ⟨t, fuel + 1, m⟩ → P.Held m.store → (∀ v ∈ t.operands, P.value v) →
    (∀ v ∈ t.sources setting fuel m, P.value v) → ∀ v ∈ t.made setting fuel m, P.value v
  names : ∀ ⦃k⦄, G k → ∀ x ∈ k.task.names, P.name x
  super : ∀ ⦃t fuel m⦄, G ⟨t, fuel + 1, m⟩ → P.Held m.store →
    ∀ c ∈ t.ancestors setting m, P.binding m.store.frames.size "super" (.cls c)
  next : ∀ ⦃k l⦄, G k → l ∈ k.next setting → P.Held l.machine.store →
    (∀ v ∈ l.task.operands, P.value v) → G l

section Guards

variable {P : Policy} {setting : Setting} {G : Moment → Prop} {fuel : Nat} {m : Machine} {t : Task}

theorem Policy.Guards.allowed (h : P.Guards setting G) (hk : G ⟨t, fuel + 1, m⟩)
    (hm : P.Held m.store) (hoperands : ∀ v ∈ t.operands, P.value v) :
    t.Allowed P setting fuel m :=
  ⟨h.made hk hm hoperands, h.names hk, h.super hk hm⟩

/-- **A policy that is guarded is upheld by every task.** -/
theorem Policy.Guards.upholds (h : P.Guards setting G) (hk : G ⟨t, fuel, m⟩)
    (hm : P.Held m.store) (hoperands : ∀ v ∈ t.operands, P.value v) :
    t.Upholds P setting fuel m := by
  -- induction on the fuel: the parts of a task are guarded as soon as they start on a store that
  -- keeps the policy, which the parts before them have left
  induction fuel generalizing t m with
  | zero => exact t.upholds_zero hm hoperands (h.names hk)
  | succ n ih =>
      refine (t.flows hm hoperands (h.allowed hk hm hoperands) fun part hpart hheld hops => ?_).2
      exact ih (h.next hk (List.mem_map_of_mem hpart) hheld hops) hheld hops

/-- The parts of a guarded task follow one another. -/
theorem Policy.Guards.sequence (h : P.Guards setting G) (hk : G ⟨t, fuel + 1, m⟩)
    (hm : P.Held m.store) (hoperands : ∀ v ∈ t.operands, P.value v) :
    Sequence P setting fuel m.store (t.parts setting fuel m)
      (t.outcome setting (fuel + 1) m).store? := by
  refine (t.flows hm hoperands (h.allowed hk hm hoperands) fun part hpart hheld hops => ?_).1
  exact h.upholds (h.next hk (List.mem_map_of_mem hpart) hheld hops) hheld hops

/-- **What is known of a moment is known of all moments to which it leads**, and all of them are on
stores that keep the policy. -/
theorem Policy.Guards.leads (h : P.Guards setting G) {start k : Moment}
    (hk : start.Leads setting k) (hstart : G start) (hm : P.Held start.machine.store)
    (hoperands : ∀ v ∈ start.task.operands, P.value v) :
    G k ∧ P.Held k.machine.store ∧ ∀ v ∈ k.task.operands, P.value v := by
  induction hk with
  | refl => exact ⟨hstart, hm, hoperands⟩
  | @tail k l _ hl ih =>
      obtain ⟨hG, hheld, hops⟩ := ih
      obtain ⟨task, fuel, machine⟩ := k
      cases fuel with
      | zero => cases hl
      | succ fuel =>
          obtain ⟨part, hpart, rfl⟩ := List.mem_map.1 hl
          obtain ⟨-, hheld', hops'⟩ := (h.sequence hG hheld hops).of_mem hpart
          exact ⟨h.next hG hl hheld' hops', hheld', hops'⟩

/-- A task that is about to be done, without its fuel. -/
def Moment.part (k : Moment) : Task × Machine := (k.task, k.machine)

/-- **The declarations of a program follow one another**, and leave a store that keeps the policy,
if each of them is guarded as soon as it starts on such a store. -/
theorem Policy.Guards.run (h : P.Guards setting G) (hm : P.Held m.store) (ds : List Decl)
    (htop : ∀ top ∈ topMoments setting fuel ds m, P.Held top.machine.store → G top) :
    Sequence P setting fuel m.store ((topMoments setting fuel ds m).map Moment.part)
        (runDeclarations setting fuel ds m).store? ∧
      P.Ends m.store (fun _ => True) (runDeclarations setting fuel ds m) := by
  induction ds generalizing m with
  | nil =>
      have hrefl := P.le_refl m.store
      exact ⟨.nil fun s' hs' => by cases hs'; exact hrefl, hrefl, hm, trivial⟩
  | cons d ds ih =>
      have hd : P.Ends m.store (fun c => P.value c.value) (execute setting fuel d m) :=
        h.upholds (htop _ (mem_topMoments_cons.2 (.inl rfl)) hm) hm nofun
      have hpart : Flows P setting fuel m.store (execute setting fuel d m) [(.execute d, m)]
          (fun c => P.value c.value) := .part hm nofun rfl id
      have hfirst := (hpart fun part hp _ _ => by
        rw [List.mem_singleton] at hp
        subst hp
        exact hd).1
      rw [runDeclarations, topMoments, List.map_cons, Action.bind_apply]
      cases hx : execute setting fuel d m with
      | done c m₁ =>
          rw [hx] at hd hfirst
          cases c with
          | normal =>
              obtain ⟨hrest, hend⟩ := ih hd.2.1 fun top hmem =>
                htop top (mem_topMoments_cons.2 (.inr ⟨m₁, hx, hmem⟩))
              exact ⟨hfirst.append hrest, hend.of_le hd.1⟩
          | returned v => exact ⟨hfirst, hd.1, hd.2.1⟩
      | failed e m₁ =>
          rw [hx] at hd hfirst
          exact ⟨hfirst, hd⟩
      | starved =>
          rw [hx] at hfirst
          exact ⟨hfirst, trivial⟩

end Guards

/-! ### Without a policy -/

/-- The policy that permits everything. -/
def Policy.free : Policy where
  value _ := True
  binding _ _ _ := True
  name _ := True
  plain _ _ := trivial
  binds _ _ _ _ _ := trivial
  bound _ _ _ _ := trivial
  receives _ _ _ := trivial

theorem Policy.held_free (s : Store) : Policy.free.Held s :=
  ⟨fun _ _ _ _ => trivial, fun _ _ _ _ => trivial⟩

theorem Policy.guards_free (setting : Setting) : Policy.free.Guards setting fun _ => True where
  made _ _ _ _ _ _ _ _ _ := trivial
  names _ _ _ _ := trivial
  super _ _ _ _ _ _ _ := trivial
  next _ _ _ _ _ _ := trivial

/-- **The parts of a task follow one another.** -/
theorem Task.sequence (setting : Setting) (fuel : Nat) (m : Machine) (t : Task) :
    Sequence .free setting fuel m.store (t.parts setting fuel m)
      (t.outcome setting (fuel + 1) m).store? :=
  (Policy.guards_free setting).sequence trivial (Policy.held_free _) fun _ _ => trivial

end Scriptlet
