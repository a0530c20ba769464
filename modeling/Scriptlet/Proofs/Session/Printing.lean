/-
**What a run prints.**

A run prints a text wherever a print statement is executed and its expression has a value.  The
texts of a run, each with the place of its statement, follow from its moments: a task prints what
its parts print, one behind the other, and a print statement at last prints a text of its own.

A sink takes texts, each followed by a line end, as long as there is room.  The first text for which
there is no room is dropped, or only its line end is.

Main definitions:

* `Scriptlet.Printing`, `Scriptlet.Task.prints`, `Scriptlet.allPrints` — what is printed, in the
  course of a task and of a program;
* `Scriptlet.Printing.join` — printed texts as lines of one text;
* `Scriptlet.pour` — **printed texts that are poured into a sink**.

Main results:

* `Scriptlet.mem_allPrints` — **what a program prints is printed by its print statements**;
* `Scriptlet.pour_append` — texts are poured one behind the other;
* `Scriptlet.pour_of_le`, `Scriptlet.pour_of_lt` — **what a sink takes**, if there is room for all
  texts, and if there is not.
-/

import Scriptlet.Proofs.Session.Moments

set_option relaxedAutoImplicit false
set_option autoImplicit false

namespace Scriptlet

/-! ### What is printed -/

/-- A text that is printed, and the place of the statement that prints it. -/
structure Printing where
  /-- The text, without its line end. -/
  text : String
  /-- The place of the print statement. -/
  span : Span
deriving DecidableEq, Repr

/-- What a task prints when its parts have been done. -/
def Task.own (setting : Setting) (fuel : Nat) (m : Machine) : Task → List Printing
  | .perform (.print e span) => (Scriptlet.evaluate setting fuel e m).after fun v _ =>
      [⟨v.text, span⟩]
  | _ => []

/-- **What a task prints**: what its parts print, and then what it prints itself. -/
def Task.prints (setting : Setting) : Nat → Task → Machine → List Printing
  | 0, _, _ => []
  | fuel + 1, t, m =>
      ((t.parts setting fuel m).flatMap fun part => prints setting fuel part.1 part.2) ++
        t.own setting fuel m

/-- What the parts of a task print. -/
def partsPrint (setting : Setting) (fuel : Nat) (parts : List (Task × Machine)) : List Printing :=
  parts.flatMap fun part => part.1.prints setting fuel part.2

/-- **What the declarations of a program print.** -/
def allPrints (setting : Setting) (fuel : Nat) (ds : List Decl) (m : Machine) : List Printing :=
  (topMoments setting fuel ds m).flatMap fun k => k.task.prints setting k.fuel k.machine

section Prints

variable {setting : Setting} {fuel : Nat} {m : Machine} {p : Printing}

theorem Task.prints_succ (t : Task) :
    t.prints setting (fuel + 1) m =
      partsPrint setting fuel (t.parts setting fuel m) ++ t.own setting fuel m := rfl

/-- Where a name is consulted, nothing is printed. -/
theorem Task.prints_of_reference {t : Task} (h : t.reference? ≠ none) :
    t.prints setting fuel m = [] := by
  cases t with
  | lookUp mark name => cases fuel <;> rfl
  | assign mark name v => cases fuel <;> rfl
  | superMethod mark method => cases fuel <;> rfl
  | _ => exact absurd rfl h

/-- The declarations behind another print if that one completes normally. -/
theorem allPrints_cons (d : Decl) (ds : List Decl) :
    allPrints setting fuel (d :: ds) m =
      (Task.execute d).prints setting fuel m ++ (execute setting fuel d m).after fun c m =>
        match c with
        | .normal => allPrints setting fuel ds m
        | .returned _ => [] := by
  rw [allPrints, topMoments, List.flatMap_cons]
  congr 1
  cases execute setting fuel d m with
  | done c m' => cases c <;> rfl
  | failed e m' => rfl
  | starved => rfl

theorem partsPrint_singleton (t : Task) :
    partsPrint setting fuel [(t, m)] = t.prints setting fuel m :=
  List.flatMap_singleton _ _

theorem partsPrint_after {α : Type} (x : Outcome α) (g : α → Machine → List (Task × Machine)) :
    partsPrint setting fuel (x.after g) = x.after fun a m => partsPrint setting fuel (g a m) := by
  cases x <;> rfl

/-- A text of its own is printed by a print statement whose expression has a value. -/
theorem Task.mem_own {t : Task} :
    p ∈ t.own setting fuel m ↔ ∃ e v m', t = .perform (.print e p.span) ∧
      Scriptlet.evaluate setting fuel e m = .done v m' ∧ p.text = v.text := by
  constructor
  · intro h
    cases t
    case perform stmt =>
        cases stmt
        case print e span =>
            rw [own] at h
            cases hv : Scriptlet.evaluate setting fuel e m with
            | done v m' =>
                rw [hv] at h
                obtain rfl := List.mem_singleton.1 h
                exact ⟨e, v, m', rfl, hv, rfl⟩
            | failed error m' =>
                rw [hv] at h
                cases h
            | starved =>
                rw [hv] at h
                cases h
        all_goals cases h
    all_goals cases h
  · rintro ⟨e, v, m', rfl, hv, htext⟩
    rw [own, hv]
    exact List.mem_singleton.2 (by rw [← htext])

/-- What a task prints is printed at the moments to which it leads. -/
theorem Task.mem_prints {t : Task} :
    p ∈ t.prints setting fuel m ↔ ∃ k f, (⟨t, fuel, m⟩ : Moment).Leads setting k ∧
      k.fuel = f + 1 ∧ p ∈ k.task.own setting f k.machine := by
  induction fuel generalizing t m with
  | zero =>
      constructor
      · exact nofun
      · rintro ⟨k, f, hk, hf, -⟩
        rcases Relation.ReflTransGen.cases_head hk with rfl | ⟨l, hl, -⟩
        · cases hf
        · cases hl
  | succ n ih =>
      rw [prints_succ, List.mem_append, partsPrint, List.mem_flatMap]
      constructor
      · rintro (⟨part, hpart, hp⟩ | hp)
        · obtain ⟨k, f, hk, hf, hp⟩ := ih.1 hp
          exact ⟨k, f, .head (List.mem_map_of_mem hpart) hk, hf, hp⟩
        · exact ⟨⟨t, n + 1, m⟩, n, .refl, rfl, hp⟩
      · rintro ⟨k, f, hk, hf, hp⟩
        rcases Relation.ReflTransGen.cases_head hk with rfl | ⟨l, hl, hlk⟩
        · cases hf
          exact .inr hp
        · obtain ⟨part, hpart, rfl⟩ := List.mem_map.1 hl
          exact .inl ⟨part, hpart, ih.2 ⟨k, f, hlk, hf, hp⟩⟩

/-- **What a program prints is printed by its print statements**: the text of the value of an
expression, at the place of the statement. -/
theorem mem_allPrints {ds : List Decl} :
    p ∈ allPrints setting fuel ds m ↔ ∃ k f e v m', Occurs setting fuel ds m k ∧
      k.fuel = f + 1 ∧ k.task = .perform (.print e p.span) ∧
      evaluate setting f e k.machine = .done v m' ∧ p.text = v.text := by
  rw [allPrints, List.mem_flatMap]
  constructor
  · rintro ⟨top, htop, hp⟩
    obtain ⟨k, f, hk, hf, hown⟩ := Task.mem_prints.1 hp
    obtain ⟨e, v, m', htask, hv, htext⟩ := Task.mem_own.1 hown
    exact ⟨k, f, e, v, m', ⟨top, htop, hk⟩, hf, htask, hv, htext⟩
  · rintro ⟨k, f, e, v, m', ⟨top, htop, hk⟩, hf, htask, hv, htext⟩
    exact ⟨top, htop, Task.mem_prints.2 ⟨k, f, hk, hf, Task.mem_own.2 ⟨e, v, m', htask, hv, htext⟩⟩⟩

end Prints

/-! ### Sinks -/

/-- Printed texts as lines of one text. -/
def Printing.join (ps : List Printing) : String := String.join (ps.map fun p => p.text ++ "\n")

/-- **Printed texts that are poured into a sink**: what the sink holds in the end, and the first
text for which, or for whose line end, there was no room. -/
def pour (capacity : Nat) : String → List Printing → String × Option Printing
  | written, [] => (written, none)
  | written, p :: ps =>
      if written.utf8ByteSize + p.text.utf8ByteSize + 1 ≤ capacity then
        pour capacity (written ++ p.text ++ "\n") ps
      else if written.utf8ByteSize + p.text.utf8ByteSize ≤ capacity then
        (written ++ p.text, some p)
      else
        (written, some p)

section Sinks

variable {capacity : Nat} {written : String} {ps qs : List Printing}

@[simp] theorem Printing.join_nil : join [] = "" := rfl

@[simp] theorem Printing.join_cons (p : Printing) (ps : List Printing) :
    join (p :: ps) = p.text ++ "\n" ++ join ps := by
  simp [join]

/-- A text that is printed is poured into the sink, and it could be printed if there was room for it
and its line end. -/
theorem emit_sink (text : String) :
    Output.emit text (.sink capacity written) =
      if written.utf8ByteSize + text.utf8ByteSize + 1 ≤ capacity then
        (true, .sink capacity (written ++ text ++ "\n"))
      else if written.utf8ByteSize + text.utf8ByteSize ≤ capacity then
        (false, .sink capacity (written ++ text))
      else
        (false, .sink capacity written) := by
  have hend : "\n".utf8ByteSize = 1 := rfl
  unfold Output.emit Output.write
  by_cases htext : written.utf8ByteSize + text.utf8ByteSize ≤ capacity
  · simp only [if_pos htext, String.utf8ByteSize_append, hend]
    split <;> rfl
  · simp only [if_neg htext]
    rw [if_neg (by omega)]

/-- Texts are poured one behind the other, until there is no more room. -/
theorem pour_append :
    pour capacity written (ps ++ qs) =
      match pour capacity written ps with
      | (written, none) => pour capacity written qs
      | full => full := by
  induction ps generalizing written with
  | nil => rfl
  | cons p ps ih =>
      rw [List.cons_append, pour, pour]
      split
      · exact ih
      · split <;> rfl

/-- **If there is room for all texts, the sink takes them all.** -/
theorem pour_of_le (h : written.utf8ByteSize + (Printing.join ps).utf8ByteSize ≤ capacity) :
    pour capacity written ps = (written ++ Printing.join ps, none) := by
  induction ps generalizing written with
  | nil => simp [pour]
  | cons p ps ih =>
      simp only [Printing.join_cons, String.utf8ByteSize_append] at h
      have hend : "\n".utf8ByteSize = 1 := rfl
      rw [pour, if_pos (by omega), ih]
      · simp [String.append_assoc]
      · simp only [String.utf8ByteSize_append]
        omega

/-- **If there is not room for all texts, the sink takes those in front of the first one for which,
or for whose line end, there is none**, and perhaps that one without its line end. -/
theorem pour_of_lt (hwritten : written.utf8ByteSize ≤ capacity)
    (h : capacity < written.utf8ByteSize + (Printing.join ps).utf8ByteSize) :
    ∃ before p after, ps = before ++ p :: after ∧
      (written ++ Printing.join before).utf8ByteSize ≤ capacity ∧
      capacity < (written ++ Printing.join before).utf8ByteSize + p.text.utf8ByteSize + 1 ∧
      pour capacity written ps = (written ++ Printing.join before ++
        (if (written ++ Printing.join before).utf8ByteSize + p.text.utf8ByteSize ≤ capacity
          then p.text else ""), some p) := by
  induction ps generalizing written with
  | nil =>
      have hempty : (Printing.join []).utf8ByteSize = 0 := rfl
      omega
  | cons p ps ih =>
      have hend : "\n".utf8ByteSize = 1 := rfl
      by_cases hroom : written.utf8ByteSize + p.text.utf8ByteSize + 1 ≤ capacity
      · have hsize : (written ++ p.text ++ "\n").utf8ByteSize =
            written.utf8ByteSize + p.text.utf8ByteSize + 1 := by
          rw [String.utf8ByteSize_append, String.utf8ByteSize_append, hend]
        rw [Printing.join_cons, String.utf8ByteSize_append, String.utf8ByteSize_append, hend] at h
        obtain ⟨before, q, after, rfl, hbefore, hfull, hpour⟩ :=
          @ih (written ++ p.text ++ "\n") (by omega) (by omega)
        have hjoin : written ++ Printing.join (p :: before) =
            written ++ p.text ++ "\n" ++ Printing.join before := by
          simp [String.append_assoc]
        refine ⟨p :: before, q, after, rfl, ?_⟩
        rw [hjoin, pour, if_pos hroom]
        exact ⟨hbefore, hfull, hpour⟩
      · refine ⟨[], p, ps, rfl, ?_⟩
        rw [Printing.join_nil, String.append_empty, pour, if_neg hroom]
        refine ⟨hwritten, by omega, ?_⟩
        split
        · rfl
        · rw [String.append_empty]

end Sinks

end Scriptlet
