/-
**Tasks without loops come to an end.**

The parts of a task are smaller than the task, with one exception: the body of a closure may be of
any size, for closures are values and come from anywhere.  But when a call opens its body one call
less is left to be opened.  So a task has a rank, in which the calls that are left weigh more than
any body of a known routine, and the rank of a part is smaller.  Fuel as much as the rank suffices.

Main definitions:

* `Scriptlet.Task.size`, `Scriptlet.Task.rank` — the size of a task, and its rank on a machine.

Main results:

* `Scriptlet.Task.rank_of_part` — **the rank of a part is smaller**;
* `Scriptlet.Ready.not_starved` — a task that is ready does not run out of fuel that suffices;
* `Scriptlet.run_ne_starved` — **nor does the run of a program without loops**.
-/

import Scriptlet.Proofs.Control.Calls
import Scriptlet.Proofs.Session.Readiness
import Scriptlet.Proofs.Termination.LoopFree

set_option relaxedAutoImplicit false
set_option autoImplicit false

namespace Scriptlet

/-! ### The rank of a task -/

/-- Whether there are no loops in what a task evaluates or executes. -/
def Task.loopFree : Task → Bool
  | .execute d => d.loopFree
  | .executeAll ds => Decl.allLoopFree ds
  | .perform stmt => stmt.loopFree
  | _ => true

/-- The size of a task, not counting the bodies of closures. -/
noncomputable def Task.size : Task → Nat
  | .evaluate e => sizeOf e + 2
  | .evaluateAll es => sizeOf es + 2
  | .apply _ _ _ => 2
  | .call _ _ _ => 1
  | .execute d => sizeOf d + 2
  | .executeAll ds => sizeOf ds + 2
  | .perform stmt => sizeOf stmt + 2
  | .lookUp _ _ | .assign _ _ _ | .superMethod _ _ => 0

/-- **The rank of a task on a machine**: a call that may still be opened weighs `W`. -/
noncomputable def Task.rank (W : Nat) (m : Machine) (t : Task) : Nat :=
  (callLimit - m.depth) * W + t.size

/-- Parts that are smaller than some size, and have no loops. -/
def Smaller (n : Nat) (parts : List (Task × Machine)) : Prop :=
  ∀ part ∈ parts, part.1.size < n ∧ part.1.loopFree = true

namespace Smaller

variable {n : Nat} {m : Machine} {t : Task} {parts : List (Task × Machine)}

theorem nil : Smaller n [] := nofun

theorem cons (ht : t.size < n ∧ t.loopFree = true) (h : Smaller n parts) :
    Smaller n ((t, m) :: parts) := by
  intro part hpart
  rcases List.mem_cons.1 hpart with rfl | hpart
  · exact ht
  · exact h part hpart

theorem one (ht : t.size < n ∧ t.loopFree = true) : Smaller n [(t, m)] := .cons ht .nil

theorem after {α : Type} {o : Outcome α} {g : α → Machine → List (Task × Machine)}
    (hg : ∀ a m', Smaller n (g a m')) : Smaller n (o.after g) := by
  cases o with
  | done a m' => exact hg a m'
  | failed e m' => exact .nil
  | starved => exact .nil

end Smaller

section Parts

variable {setting : Setting} {fuel W : Nat} {m : Machine}

/-- An expression is smaller than one that it is an operand of. -/
theorem Expr.size_lt {e e' : Expr} (h : sizeOf e < sizeOf e') :
    (Task.evaluate e).size < (Task.evaluate e').size ∧ (Task.evaluate e).loopFree = true :=
  ⟨Nat.add_lt_add_right h 2, rfl⟩

theorem Expr.smaller (e : Expr) :
    Smaller (Task.evaluate e).size (e.parts setting fuel m) := by
  cases e with
  | constant mark value => exact .nil
  | grouping mark inner => exact .one (Expr.size_lt (by simp +arith))
  | unary mark op operand => exact .one (Expr.size_lt (by simp +arith))
  | binary mark left op opSpan right =>
      exact .cons (Expr.size_lt (by simp +arith))
        (.after fun _ _ => .one (Expr.size_lt (by simp +arith)))
  | logical mark left op right =>
      refine .cons (Expr.size_lt (by simp +arith)) (.after fun v m' => ?_)
      split
      · exact .nil
      · exact .one (Expr.size_lt (by simp +arith))
  | ternary mark condition question thenBranch elseBranch =>
      refine .cons (Expr.size_lt (by simp +arith)) (.after fun v m' => .one ?_)
      split
      · exact Expr.size_lt (by simp +arith)
      · exact Expr.size_lt (by simp +arith)
  | «variable» mark name => exact .one ⟨by simp [Task.size], rfl⟩
  | assign mark name value =>
      exact .cons (Expr.size_lt (by simp +arith))
        (.after fun _ _ => .one ⟨by simp [Task.size], rfl⟩)
  | call mark callee arguments paren =>
      refine .cons (Expr.size_lt (by simp +arith)) (.after fun f m₁ => ?_)
      refine .cons ⟨by simp +arith [Task.size], rfl⟩ (.after fun vs m₂ => ?_)
      exact .one ⟨by simp +arith [Task.size], rfl⟩
  | get mark object name => exact .one (Expr.size_lt (by simp +arith))
  | set mark object name value =>
      refine .cons (Expr.size_lt (by simp +arith)) (.after fun v m' => ?_)
      split
      · exact .one (Expr.size_lt (by simp +arith))
      · exact .nil
  | thisRef mark => exact .one ⟨by simp [Task.size], rfl⟩
  | superRef mark method => exact .one ⟨by simp [Task.size], rfl⟩

theorem Expr.allSmaller (es : List Expr) :
    Smaller (Task.evaluateAll es).size (Expr.allParts setting fuel m es) := by
  cases es with
  | nil => exact .nil
  | cons e es =>
      refine .cons ⟨by simp +arith [Task.size], rfl⟩ (.after fun v m' => ?_)
      exact .one ⟨by simp +arith [Task.size], rfl⟩

theorem Value.smaller (f : Value) (arguments : List Value) (site : Span) :
    Smaller (Task.apply f arguments site).size (f.parts m arguments site) := by
  cases f with
  | closure f =>
      rw [Value.parts]
      split
      · exact .one ⟨Nat.lt_succ_self 1, rfl⟩
      · exact .nil
  | cls c =>
      rw [Value.parts]
      split
      · refine .after fun object m₁ => ?_
        split
        · exact .after fun bound m₂ => .one ⟨Nat.lt_succ_self 1, rfl⟩
        · exact .nil
      · exact .nil
  | _ =>
      rw [Value.parts]
      · exact .nil
      all_goals
        intros
        contradiction

theorem Decl.smaller {d : Decl} (h : d.loopFree = true) :
    Smaller (Task.execute d).size (d.parts m) := by
  cases d with
  | varDecl name nameSpan initializer span =>
      cases initializer with
      | none => exact .nil
      | some value => exact .one ⟨by simp +arith [Task.size], rfl⟩
  | funDecl routine span => exact .nil
  | classDecl name nameSpan superclass methods span =>
      cases superclass with
      | none => exact .nil
      | some parent => exact .one ⟨by simp [Task.size], rfl⟩
  | statement stmt => exact .one ⟨by simp [Task.size], h⟩

theorem Decl.allSmaller {ds : List Decl} (h : Decl.allLoopFree ds = true) :
    Smaller (Task.executeAll ds).size (Decl.allParts setting fuel m ds) := by
  cases ds with
  | nil => exact .nil
  | cons d ds =>
      rw [Decl.allLoopFree, Bool.and_eq_true] at h
      refine .cons ⟨by simp +arith [Task.size], h.1⟩ (.after fun c m' => ?_)
      cases c with
      | normal => exact .one ⟨by simp +arith [Task.size], h.2⟩
      | returned v => exact .nil

theorem Stmt.smaller {stmt : Stmt} (h : stmt.loopFree = true) :
    Smaller (Task.perform stmt).size (stmt.parts setting fuel m) := by
  cases stmt with
  | expression e span => exact .one ⟨by simp +arith [Task.size], rfl⟩
  | print e span => exact .one ⟨by simp +arith [Task.size], rfl⟩
  | ret keyword value span =>
      cases value with
      | none => exact .nil
      | some value => exact .one ⟨by simp +arith [Task.size], rfl⟩
  | block body span => exact .one ⟨by simp +arith [Task.size], h⟩
  | ifElse condition thenBranch elseBranch span =>
      refine .cons ⟨by simp +arith [Task.size], rfl⟩ (.after fun v m' => ?_)
      cases elseBranch with
      | none =>
          split
          · exact .one ⟨by simp +arith [Task.size], h⟩
          · exact .nil
      | some elseBranch =>
          rw [Stmt.loopFree, Bool.and_eq_true] at h
          split
          · exact .one ⟨by simp +arith [Task.size], h.1⟩
          · exact .one ⟨by simp +arith [Task.size], h.2⟩
  | whileLoop condition body span => cases h

/-- **The rank of a part is smaller**, if the body of a closure that is called is smaller than what
a call weighs. -/
theorem Task.rank_of_part {t : Task} (ht : t.loopFree = true)
    (hbody : ∀ f arguments site, t = .call f arguments site →
      Decl.allLoopFree f.routine.body = true ∧ sizeOf f.routine.body + 2 ≤ W)
    {part : Task × Machine} (h : part ∈ t.parts setting fuel m) :
    part.1.rank W part.2 < t.rank W m ∧ part.1.loopFree = true := by
  have hdepth := depth_of_part h
  -- only a call opens something that may be bigger than itself
  have hsmaller : t.frames = 0 → part.1.size < t.size ∧ part.1.loopFree = true →
      part.1.rank W part.2 < t.rank W m ∧ part.1.loopFree = true := by
    rintro hframes ⟨hsize, hfree⟩
    rw [hframes, Nat.add_zero] at hdepth
    rw [rank, rank, hdepth]
    exact ⟨Nat.add_lt_add_left hsize _, hfree⟩
  cases t with
  | evaluate e => exact hsmaller rfl (e.smaller part h)
  | evaluateAll es => exact hsmaller rfl (Expr.allSmaller es part h)
  | apply f arguments site => exact hsmaller rfl (f.smaller arguments site part h)
  | execute d => exact hsmaller rfl (Decl.smaller ht part h)
  | executeAll ds => exact hsmaller rfl (Decl.allSmaller ht part h)
  | perform stmt => exact hsmaller rfl (Stmt.smaller ht part h)
  | call f arguments site =>
      obtain ⟨hfree, hsize⟩ := hbody f arguments site rfl
      change part ∈ Closure.parts m arguments f at h
      rw [Closure.parts] at h
      split at h
      case isTrue => cases h
      case isFalse hlimit =>
          have htask : part.1 = .executeAll f.routine.body := by
            generalize Action.bindArguments _ _ _ = o at h
            cases o with
            | done a m' =>
                obtain rfl := List.mem_singleton.1 h
                rfl
            | failed e m' => cases h
            | starved => cases h
          obtain ⟨left, hleft⟩ : ∃ left, callLimit - m.depth = left + 1 :=
            ⟨callLimit - (m.depth + 1), by omega⟩
          have hrest : callLimit - part.2.depth = left := by
            rw [hdepth, frames]
            omega
          refine ⟨?_, by rw [htask]; exact hfree⟩
          calc part.1.rank W part.2 = left * W + (sizeOf f.routine.body + 2) := by
                rw [rank, hrest, htask, size]
            _ ≤ left * W + W := Nat.add_le_add_left hsize _
            _ < (left + 1) * W + 1 := by
                rw [Nat.succ_mul]
                exact Nat.lt_succ_self _
            _ = rank W m (.call f arguments site) := by rw [rank, hleft, size]
  | lookUp mark name => cases h
  | assign mark name v => cases h
  | superMethod mark method => cases h

/-- To consult a reference takes no fuel. -/
theorem Task.not_starved_of_reference {t : Task} (ht : t.reference? ≠ none) :
    t.stop? setting fuel m ≠ some .starved := by
  intro h
  obtain ⟨⟨mark, x⟩, hmark⟩ := Option.ne_none_iff_exists'.1 ht
  rcases stop_of_reference hmark h with ⟨_, heq, -⟩ | ⟨heq, -⟩ | ⟨heq, -⟩ <;> cases heq

/-- A task that runs out of fuel has some left for its parts, one of which runs out of it. -/
theorem Task.part_of_starved {t : Task} (h : t.stop? setting (fuel + 1) m = some .starved) :
    ∃ part ∈ t.parts setting fuel m, part.1.stop? setting fuel part.2 = some .starved := by
  by_cases ht : t.reference? = none
  · cases hover : t.overflow? m with
    | some site =>
        rw [stop?, (of_overflow hover).1] at h
        cases h
    | none =>
        rcases (t.composed ht hover).to_part _ h with ⟨_, heq, -⟩ | hpart
        · cases heq
        · exact hpart
  · exact absurd h (not_starved_of_reference ht)

theorem Task.size_pos {t : Task} (ht : t.reference? = none) : 0 < t.size := by
  cases t with
  | lookUp mark name => cases ht
  | assign mark name v => cases ht
  | superMethod mark method => cases ht
  | _ => exact Nat.succ_pos _

end Parts

/-! ### Fuel that suffices -/

section Suffices

variable {K : Known} {setting : Setting} {W : Nat}

/-- What is known of the routines if there are no loops in them and their bodies are small. -/
def Mild (K : Known) (W : Nat) : Prop :=
  ∀ ctx r, K ⟨ctx, .routine r⟩ → r.loopFree = true ∧ sizeOf r.body + 2 ≤ W

/-- A closure that is ready to be called is one of a known routine. -/
theorem Ready.body (hW : Mild K W) {P : String → Environment → Prop} {m : Machine} {t : Task}
    (h : Ready K setting P t m) {f : Closure} {arguments : List Value} {site : Span}
    (ht : t = .call f arguments site) :
    Decl.allLoopFree f.routine.body = true ∧ sizeOf f.routine.body + 2 ≤ W := by
  cases h with
  | call sim alike arity arguments =>
      cases ht
      cases alike with
      | mk known settled steady headed receiver =>
          obtain ⟨hfree, hsize⟩ := hW _ _ known
          exact ⟨Routine.allLoopFree_body hfree, hsize⟩
  | consult task consulted =>
      rw [ht] at task
      cases task
  | _ => cases ht

/-- **A task that is ready does not run out of fuel that suffices.** -/
theorem Ready.not_starved (hK : Lawful K setting.distances) (hW : Mild K W) {fuel : Nat}
    {m : Machine} {t : Task} (h : Ready K setting (fun _ _ => True) t m)
    (ht : t.loopFree = true) (hrank : t.rank W m ≤ fuel) :
    t.stop? setting fuel m ≠ some .starved := by
  -- a task that ran out of fuel would have a part that did, and there would be an end to that
  induction fuel generalizing t m with
  | zero =>
      intro hstarved
      by_cases hreference : t.reference? = none
      · have hpos := Task.size_pos hreference
        unfold Task.rank at hrank
        omega
      · exact Task.not_starved_of_reference hreference hstarved
  | succ fuel ih =>
      intro hstarved
      obtain ⟨part, hpart, hpartstarved⟩ := Task.part_of_starved hstarved
      obtain ⟨hlt, hfree⟩ :=
        Task.rank_of_part ht (fun f arguments site heq => h.body hW heq) hpart
      refine ih (h.parts hK (fun _ _ _ _ _ => trivial) part hpart) hfree ?_ hpartstarved
      exact Nat.le_of_lt_succ (Nat.lt_of_lt_of_le hlt hrank)

/-- The declarations of a program are executed one by one. -/
theorem of_mem_topMoments {fuel : Nat} {ds : List Decl} {m : Machine} {k : Moment}
    (hk : k ∈ topMoments setting fuel ds m) : ∃ d ∈ ds, k.task = .execute d ∧ k.fuel = fuel := by
  induction ds generalizing m with
  | nil => cases hk
  | cons d ds ih =>
      rcases mem_topMoments_cons.1 hk with rfl | ⟨m₁, -, hk⟩
      · exact ⟨d, List.mem_cons_self .., rfl, rfl⟩
      · obtain ⟨d', hd', hrest⟩ := ih hk
        exact ⟨d', List.mem_cons_of_mem _ hd', hrest⟩

theorem Decl.loopFree_of_mem {ds : List Decl} (h : Decl.allLoopFree ds = true) {d : Decl}
    (hd : d ∈ ds) : d.loopFree = true := by
  induction ds with
  | nil => cases hd
  | cons d' ds ih =>
      rw [Decl.allLoopFree, Bool.and_eq_true] at h
      rcases List.mem_cons.1 hd with rfl | hd
      · exact h.1
      · exact ih h.2 hd

/-- **The run of a program without loops does not run out of fuel that suffices.** -/
theorem run_ne_starved (hK : Lawful K setting.distances) (hW : Mild K W) {A : Atlas}
    {m n : Machine} (hs : Sim K A m n) (hm : m.scope = ⟨[0]⟩) (hn : n.scope = ⟨[0]⟩)
    {ds : List Decl} (hfit : Fit K setting.distances (Decl.allSites .global ds))
    (hds : Decl.allLoopFree ds = true) {fuel : Nat}
    (hfuel : callLimit * W + sizeOf ds + 2 ≤ fuel) :
    runDeclarations setting fuel ds m ≠ .starved := by
  intro hstarved
  have hstop : (runDeclarations setting fuel ds m).stop? = some .starved := by
    rw [hstarved]
    rfl
  rcases mem_topMoments_of_stop hstop with ⟨_, heq⟩ | ⟨k, hk, hkstop⟩
  · cases heq
  · obtain ⟨d, hd, htask, hkfuel⟩ := of_mem_topMoments hk
    have hready : Ready K setting (fun _ _ => True) k.task k.machine :=
      (ready_of_mem_topMoments hK hs hm hn hfit hk).imp fun _ _ => False.elim
    refine hready.not_starved hK hW ?_ ?_ hkstop
    · rw [htask]
      exact Decl.loopFree_of_mem hds hd
    · have hsize : sizeOf d < sizeOf ds := List.sizeOf_lt_of_mem hd
      have hweight : (callLimit - k.machine.depth) * W ≤ callLimit * W :=
        Nat.mul_le_mul_right W (Nat.sub_le _ _)
      rw [htask, hkfuel, Task.rank, Task.size]
      omega

end Suffices

end Scriptlet
