/-
**The calls that are open at a moment.**

A call opens a frame around its body, and nothing else does.  A run enters its moments one inside
the other, and the calls among those that it is in the midst of are the ones that are open.  The
machine counts them; it refuses the call that would be one too many, and this is the only way in
which the stack overflows.  An error that comes up in the midst of open calls ends them all.

Main definitions:

* `Scriptlet.Task.frames` — the calls that a task opens around its parts;
* `Scriptlet.Entered` — **the moments of a run, with the number of calls that are open**;
* `Scriptlet.Moment.Raises` — the moment at which an error comes up.

Main results:

* `Scriptlet.Task.depth_of_part` — a part has as many open calls as its task opens in addition;
* `Scriptlet.Entered.depth_eq` — **the machine knows how many calls are open**, at most `callLimit`;
* `Scriptlet.Moment.error_of_leads` — an error is the error of everything around it;
* `Scriptlet.Entered.overflows_iff`, `Scriptlet.run_overflows_iff` — **the stack overflows exactly
  at a call in the midst of `callLimit` others**.
-/

import Scriptlet.Proofs.Control.Restored

set_option relaxedAutoImplicit false
set_option autoImplicit false

namespace Scriptlet

/-! ### The calls around the parts of a task -/

/-- The number of calls that a task opens around its parts. -/
def Task.frames : Task → Nat
  | .call _ _ _ => 1
  | _ => 0

/-- Parts that start with some number of open calls. -/
def AtDepth (n : Nat) (parts : List (Task × Machine)) : Prop := ∀ part ∈ parts, part.2.depth = n

namespace AtDepth

variable {n : Nat} {m : Machine} {t : Task} {parts : List (Task × Machine)}

theorem nil : AtDepth n [] := nofun

theorem cons (hm : m.depth = n) (h : AtDepth n parts) : AtDepth n ((t, m) :: parts) := by
  intro part hpart
  rcases List.mem_cons.1 hpart with rfl | hpart
  · exact hm
  · exact h part hpart

/-- Behind an action that restores the control there are as many open calls as in front of it. -/
theorem after {α : Type} {o : Outcome α} {g : α → Machine → List (Task × Machine)}
    (ho : o.Restores m) (hm : m.depth = n) (hg : ∀ a m', m'.depth = n → AtDepth n (g a m')) :
    AtDepth n (o.after g) := by
  cases o with
  | done a m' => exact hg a m' (ho.depth.trans hm)
  | failed e m' => exact .nil
  | starved => exact .nil

end AtDepth

section Depth

variable {setting : Setting} {fuel : Nat} {m : Machine}

theorem Expr.atDepth (e : Expr) : AtDepth m.depth (e.parts setting fuel m) := by
  have h := restoring setting fuel
  cases e with
  | constant mark value => exact .nil
  | grouping mark inner => exact .cons rfl .nil
  | unary mark op operand => exact .cons rfl .nil
  | binary mark left op opSpan right =>
      exact .cons rfl (.after (h.evaluate left m) rfl fun _ _ hm => .cons hm .nil)
  | logical mark left op right =>
      refine .cons rfl (.after (h.evaluate left m) rfl fun v m' hm => ?_)
      split
      · exact .nil
      · exact .cons hm .nil
  | ternary mark condition question thenBranch elseBranch =>
      exact .cons rfl (.after (h.evaluate condition m) rfl fun _ _ hm => .cons hm .nil)
  | «variable» mark name => exact .cons rfl .nil
  | assign mark name value =>
      exact .cons rfl (.after (h.evaluate value m) rfl fun _ _ hm => .cons hm .nil)
  | call mark callee arguments paren =>
      refine .cons rfl (.after (h.evaluate callee m) rfl fun f m₁ hm₁ => .cons hm₁ ?_)
      exact .after (h.evaluateAll arguments m₁) hm₁ fun vs m₂ hm₂ => .cons hm₂ .nil
  | get mark object name => exact .cons rfl .nil
  | set mark object name value =>
      refine .cons rfl (.after (h.evaluate object m) rfl fun v m' hm => ?_)
      split
      · exact .cons hm .nil
      · exact .nil
  | thisRef mark => exact .cons rfl .nil
  | superRef mark method => exact .cons rfl .nil

theorem Expr.allAtDepth (es : List Expr) :
    AtDepth m.depth (Expr.allParts setting fuel m es) := by
  cases es with
  | nil => exact .nil
  | cons e es =>
      refine .cons rfl (.after ((restoring setting fuel).evaluate e m) rfl fun _ _ hm => ?_)
      exact .cons hm .nil

theorem Value.atDepth (f : Value) (arguments : List Value) (site : Span) :
    AtDepth m.depth (f.parts m arguments site) := by
  cases f with
  | closure f =>
      rw [Value.parts]
      split
      · exact .cons rfl .nil
      · exact .nil
  | cls c =>
      rw [Value.parts]
      split
      · refine .after (Action.Restores.onStore _ m) rfl fun object m₁ hm₁ => ?_
        split
        · refine .after (Action.Restores.onStore _ m₁) hm₁ fun bound m₂ hm₂ => ?_
          exact .cons hm₂ .nil
        · exact .nil
      · exact .nil
  | _ =>
      rw [Value.parts]
      · exact .nil
      all_goals
        intros
        contradiction

/-- The body of a closure starts with one more open call. -/
theorem Closure.atDepth (f : Closure) (arguments : List Value) :
    AtDepth (m.depth + 1) (f.parts m arguments) := by
  rw [Closure.parts]
  split
  · exact .nil
  · exact .after (Action.Restores.bindArguments _ _ _) rfl fun _ _ hm => .cons hm .nil

theorem Decl.atDepth (d : Decl) : AtDepth m.depth (d.parts m) := by
  cases d with
  | varDecl name nameSpan initializer span =>
      cases initializer with
      | none => exact .nil
      | some value => exact .cons rfl .nil
  | funDecl routine span => exact .nil
  | classDecl name nameSpan superclass methods span =>
      cases superclass with
      | none => exact .nil
      | some parent => exact .cons rfl .nil
  | statement stmt => exact .cons rfl .nil

theorem Decl.allAtDepth (ds : List Decl) :
    AtDepth m.depth (Decl.allParts setting fuel m ds) := by
  cases ds with
  | nil => exact .nil
  | cons d ds =>
      refine .cons rfl (.after ((restoring setting fuel).execute d m) rfl fun c m' hm => ?_)
      cases c with
      | normal => exact .cons hm .nil
      | returned v => exact .nil

theorem Stmt.atDepth (stmt : Stmt) : AtDepth m.depth (stmt.parts setting fuel m) := by
  have h := restoring setting fuel
  cases stmt with
  | expression e span => exact .cons rfl .nil
  | print e span => exact .cons rfl .nil
  | ret keyword value span =>
      cases value with
      | none => exact .nil
      | some value => exact .cons rfl .nil
  | block body span => exact .cons rfl .nil
  | ifElse condition thenBranch elseBranch span =>
      refine .cons rfl (.after (h.evaluate condition m) rfl fun v m' hm => ?_)
      split
      · exact .cons hm .nil
      · cases elseBranch with
        | none => exact .nil
        | some stmt => exact .cons hm .nil
  | whileLoop condition body span =>
      refine .cons rfl (.after (h.evaluate condition m) rfl fun v m₁ hm₁ => ?_)
      split
      · refine .cons hm₁ (.after (h.perform body m₁) hm₁ fun c m₂ hm₂ => ?_)
        cases c with
        | normal => exact .cons hm₂ .nil
        | returned v => exact .nil
      · exact .nil

/-- **A part has as many open calls as its task, and those that the task opens.** -/
theorem Task.depth_of_part {t : Task} {part : Task × Machine}
    (h : part ∈ t.parts setting fuel m) : part.2.depth = m.depth + t.frames := by
  cases t with
  | evaluate e => exact e.atDepth part h
  | evaluateAll es => exact Expr.allAtDepth es part h
  | apply f arguments site => exact f.atDepth arguments site part h
  | call f arguments site => exact f.atDepth arguments part h
  | execute d => exact d.atDepth part h
  | executeAll ds => exact Decl.allAtDepth ds part h
  | perform stmt => exact stmt.atDepth part h
  | lookUp mark name => cases h
  | assign mark name v => cases h
  | superMethod mark method => cases h

/-- A task with parts opens a call only if there may be one more. -/
theorem Task.depth_le_of_part {t : Task} {part : Task × Machine}
    (h : part ∈ t.parts setting fuel m) (hm : m.depth ≤ callLimit) :
    part.2.depth ≤ callLimit := by
  rw [depth_of_part h]
  cases t with
  | call f arguments site =>
      have hdepth : ¬callLimit ≤ m.depth := by
        intro hdepth
        change part ∈ Closure.parts m arguments f at h
        rw [Closure.parts, if_pos hdepth] at h
        cases h
      exact Nat.lt_of_not_le hdepth
  | _ => exact hm

end Depth

/-! ### The moments of a run and the calls around them -/

section Entered

variable (setting : Setting) (fuel : Nat) (ds : List Decl) (m : Machine)

/-- **The moments of a run**, each with the number of calls in whose midst it is. -/
inductive Entered : Nat → Moment → Prop
  | top {k : Moment} (h : k ∈ topMoments setting fuel ds m) : Entered 0 k
  | part {n : Nat} {k l : Moment} (h : Entered n k) (hl : l ∈ k.next setting) :
      Entered (n + k.task.frames) l

end Entered

section Runs

variable {setting : Setting} {fuel n : Nat} {ds : List Decl} {m : Machine} {k l : Moment}

theorem Moment.mem_next {l : Moment} :
    l ∈ k.next setting ↔ ∃ left, k.fuel = left + 1 ∧ l.fuel = left ∧
      (l.task, l.machine) ∈ k.task.parts setting left k.machine := by
  obtain ⟨t, given, m⟩ := k
  obtain ⟨t', given', m'⟩ := l
  cases given with
  | zero => exact iff_of_false List.not_mem_nil nofun
  | succ left =>
      change _ ∈ List.map _ _ ↔ _
      rw [List.mem_map]
      constructor
      · rintro ⟨part, hpart, heq⟩
        cases heq
        exact ⟨_, rfl, rfl, hpart⟩
      · rintro ⟨left', heq, rfl, hpart⟩
        cases heq
        exact ⟨_, hpart, rfl⟩

/-- The moments of a run are those that are entered. -/
theorem occurs_iff_entered :
    Occurs setting fuel ds m k ↔ ∃ n, Entered setting fuel ds m n k := by
  constructor
  · rintro ⟨top, htop, hleads⟩
    induction hleads with
    | refl => exact ⟨0, .top htop⟩
    | tail _ hnext ih =>
        obtain ⟨n, hn⟩ := ih
        exact ⟨_, hn.part hnext⟩
  · rintro ⟨n, h⟩
    induction h with
    | top h => exact ⟨_, h, .refl⟩
    | part _ hl ih =>
        obtain ⟨top, htop, hleads⟩ := ih
        exact ⟨top, htop, hleads.tail hl⟩

/-- The declarations of a program all start under the same control. -/
theorem level_of_mem_topMoments (hk : k ∈ topMoments setting fuel ds m) : m.Level k.machine := by
  induction ds generalizing m with
  | nil => cases hk
  | cons d ds ih =>
      rcases mem_topMoments_cons.1 hk with rfl | ⟨m₁, hm₁, hk⟩
      · exact .refl m
      · have hd := (restoring setting fuel).execute d m
        rw [hm₁] at hd
        exact hd.trans (ih hk)

/-- **The machine knows how many calls are open**, and there are never too many. -/
theorem Entered.depth_eq (h : Entered setting fuel ds m n k) (hm : m.depth = 0) :
    k.machine.depth = n ∧ n ≤ callLimit := by
  induction h with
  | top htop => exact ⟨(level_of_mem_topMoments htop).depth.trans hm, Nat.zero_le _⟩
  | part _ hl ih =>
      obtain ⟨hdepth, hle⟩ := ih
      obtain ⟨fuel', -, -, hpart⟩ := Moment.mem_next.1 hl
      have hpart_depth := Task.depth_of_part hpart
      have hpart_le := Task.depth_le_of_part hpart (hdepth.symm ▸ hle)
      rw [hdepth] at hpart_depth
      exact ⟨hpart_depth, hpart_depth ▸ hpart_le⟩

/-! ### Where errors come up -/

/-- **An error comes up at a moment** that ends with it, though none of its parts does. -/
def Moment.Raises (setting : Setting) (k : Moment) (e : RuntimeError) : Prop :=
  k.error? setting = some e ∧ ∀ l ∈ k.next setting, l.error? setting ≠ some e

/-- What a part fails with, the whole fails with. -/
theorem Moment.error_of_next {e : RuntimeError} (hl : l ∈ k.next setting)
    (h : l.error? setting = some e) : k.error? setting = some e := by
  obtain ⟨t, fuel, m⟩ := k
  obtain ⟨fuel', rfl, rfl, hpart⟩ := mem_next.1 hl
  exact Task.stop?_eq_failed.1 (Task.stop?_of_part hpart (Task.stop?_eq_failed.2 h))

/-- **An error is the error of everything around it.** -/
theorem Moment.error_of_leads {e : RuntimeError} (hl : k.Leads setting l)
    (h : l.error? setting = some e) : k.error? setting = some e := by
  induction hl using Relation.ReflTransGen.head_induction_on with
  | refl => exact h
  | head hnext _ ih => exact error_of_next hnext ih

/-- Every error comes up somewhere. -/
theorem Moment.leads_raises {e : RuntimeError} (h : k.error? setting = some e) :
    ∃ l, k.Leads setting l ∧ l.Raises setting e := by
  obtain ⟨t, fuel, m⟩ := k
  -- the parts have less fuel, and where there is none left there are no parts
  induction fuel generalizing t m with
  | zero => exact ⟨_, .refl, h, fun l hl => by cases hl⟩
  | succ fuel ih =>
      by_cases hparts : ∃ l ∈ (⟨t, fuel + 1, m⟩ : Moment).next setting, l.error? setting = some e
      · obtain ⟨⟨t', fuel', m'⟩, hl, herror⟩ := hparts
        obtain ⟨_, heq, rfl, -⟩ := mem_next.1 hl
        cases heq
        obtain ⟨r, hr, hraises⟩ := ih t' m' herror
        exact ⟨r, .head hl hr, hraises⟩
      · refine ⟨_, .refl, h, fun l hl herror => hparts ⟨l, hl, herror⟩⟩

/-- **The stack overflows at the calls that are refused**, and nowhere else. -/
theorem Moment.overflows_iff {site : Span} :
    k.Raises setting ⟨.stackOverflow, site⟩ ↔
      0 < k.fuel ∧ k.task.overflow? k.machine = some site := by
  obtain ⟨t, fuel, m⟩ := k
  constructor
  · rintro ⟨herror, hnone⟩
    by_cases ht : t.reference? = none
    · cases fuel with
      | zero => exact absurd (herror.symm.trans (t.error?_zero ht)) (Option.some_ne_none _)
      | succ fuel =>
          refine ⟨Nat.succ_pos _, ?_⟩
          cases hover : t.overflow? m with
          | some site' =>
              have hstop := Task.stop?_eq_failed.2 herror
              change (t.outcome setting (fuel + 1) m).stop? = _ at hstop
              rw [(Task.of_overflow hover).1] at hstop
              cases hstop
              rfl
          | none =>
              -- the error is neither plain nor that of a part
              rcases (t.composed ht hover).to_part _ (Task.stop?_eq_failed.2 herror) with
                ⟨e, heq, hplain⟩ | ⟨part, hpart, hs⟩
              · cases heq
                cases hplain
              · refine absurd (Task.stop?_eq_failed.1 hs) (hnone ⟨part.1, fuel, part.2⟩ ?_)
                exact mem_next.2 ⟨fuel, rfl, rfl, hpart⟩
    · obtain ⟨⟨mark, name⟩, hmark⟩ := Option.ne_none_iff_exists'.1 ht
      rcases Task.stop_of_reference hmark (Task.stop?_eq_failed.2 herror) with
        ⟨_, heq, hplain⟩ | ⟨heq, -⟩ | ⟨heq, -⟩
      · cases heq
        cases hplain
      · cases heq
      · cases heq
  · rintro ⟨hfuel, hover⟩
    cases fuel with
    | zero => cases hfuel
    | succ fuel =>
        have hend : t.outcome setting (fuel + 1) m = .failed ⟨.stackOverflow, site⟩ m :=
          (Task.of_overflow hover).1
        have hparts : t.parts setting fuel m = [] := (Task.of_overflow hover).2
        refine ⟨Task.stop?_eq_failed.1 ?_, fun l hl => ?_⟩
        · change (t.outcome setting (fuel + 1) m).stop? = _
          rw [hend]
          rfl
        · obtain ⟨_, heq, -, hpart⟩ := mem_next.1 hl
          cases heq
          rw [hparts] at hpart
          cases hpart

theorem Task.overflow?_eq_some {t : Task} {site : Span} :
    t.overflow? m = some site ↔
      callLimit ≤ m.depth ∧ ∃ f arguments, t = .call f arguments site := by
  cases t with
  | call f arguments site' =>
      rw [overflow?]
      split
      case isTrue hdepth =>
          refine ⟨fun h => ?_, fun h => ?_⟩
          · cases h
            exact ⟨hdepth, f, arguments, rfl⟩
          · obtain ⟨-, _, _, heq⟩ := h
            cases heq
            rfl
      case isFalse hdepth =>
          refine iff_of_false (fun h => ?_) fun h => hdepth h.1
          cases h
  | _ =>
      refine iff_of_false (fun h => ?_) ?_
      · cases h
      · rintro ⟨-, _, _, h⟩
        cases h

/-- **The stack overflows exactly at a call in the midst of `callLimit` others.** -/
theorem Entered.overflows_iff (h : Entered setting fuel ds m n k) (hm : m.depth = 0)
    {site : Span} :
    k.Raises setting ⟨.stackOverflow, site⟩ ↔
      n = callLimit ∧ 0 < k.fuel ∧ ∃ f arguments, k.task = .call f arguments site := by
  obtain ⟨hdepth, hle⟩ := h.depth_eq hm
  rw [Moment.overflows_iff, Task.overflow?_eq_some, hdepth]
  constructor
  · rintro ⟨hfuel, hlimit, hcall⟩
    exact ⟨Nat.le_antisymm hle hlimit, hfuel, hcall⟩
  · rintro ⟨hn, hfuel, hcall⟩
    exact ⟨hfuel, hn ▸ Nat.le_refl _, hcall⟩

/-- A declaration that fails ends the run. -/
theorem run_error_of_top {e : RuntimeError} (hk : k ∈ topMoments setting fuel ds m)
    (he : k.error? setting = some e) : (runDeclarations setting fuel ds m).error? = some e := by
  induction ds generalizing m with
  | nil => cases hk
  | cons d ds ih =>
      rw [runDeclarations, Action.bind_apply]
      rcases mem_topMoments_cons.1 hk with rfl | ⟨m₁, hm₁, hk⟩
      · change (execute setting fuel d m).error? = some e at he
        cases h : execute setting fuel d m with
        | done c m₁ =>
            rw [h] at he
            cases he
        | failed e' m₁ =>
            rw [h] at he
            exact he
        | starved =>
            rw [h] at he
            cases he
      · rw [hm₁]
        exact ih hk

/-- **A run overflows the stack exactly if one of its moments does.** -/
theorem run_overflows_iff {site : Span} :
    (runDeclarations setting fuel ds m).error? = some ⟨.stackOverflow, site⟩ ↔
      ∃ n k, Entered setting fuel ds m n k ∧ k.Raises setting ⟨.stackOverflow, site⟩ := by
  constructor
  · intro h
    obtain ⟨top, htop, herror⟩ := mem_topMoments_of_error h nofun
    obtain ⟨k, hleads, hraises⟩ := Moment.leads_raises herror
    obtain ⟨n, hn⟩ := occurs_iff_entered.1 ⟨top, htop, hleads⟩
    exact ⟨n, k, hn, hraises⟩
  · rintro ⟨n, k, hn, hraises⟩
    obtain ⟨top, htop, hleads⟩ := occurs_iff_entered.2 ⟨n, hn⟩
    exact run_error_of_top htop (Moment.error_of_leads hleads hraises.1)

end Runs

end Scriptlet
