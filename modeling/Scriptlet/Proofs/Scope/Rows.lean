/-
**The names of a context.**

How far out a name lives depends on the names that the open scopes have declared, and not on whether
they are ready.  The *rows* of a context are these names, scope by scope.

Main definitions:

* `Scriptlet.Context.rows` — the names of the open scopes;
* `Scriptlet.rowOf?` — the first row with a name;
* `Scriptlet.Plain` — names that are not the words `this` and `super`;
* `Scriptlet.Context.WellNested` — in a class with a superclass, `super` lives one scope further out
  than `this`;
* `Scriptlet.Context.Steady` — contexts outside the initialisers of variables.

Main results:

* `Scriptlet.Context.distance?_eq` — **distances are read off the rows**;
* `Scriptlet.Context.rows_define`, `Scriptlet.Context.rows_opening`, … — how contexts grow.
-/

import Scriptlet.Scope

set_option relaxedAutoImplicit false
set_option autoImplicit false

namespace Scriptlet

/-! ### Rows of names -/

/-- The first row with a name. -/
def rowOf? (rows : List (List String)) (name : String) : Option Nat :=
  rows.findIdx? fun row => row.contains name

@[simp] theorem rowOf?_nil (name : String) : rowOf? [] name = none := rfl

theorem rowOf?_cons (row : List String) (rows : List (List String)) (name : String) :
    rowOf? (row :: rows) name = if name ∈ row then some 0 else (rowOf? rows name).map (· + 1) := by
  unfold rowOf?
  rw [List.findIdx?_cons]
  by_cases h : name ∈ row
  · simp [h]
  · simp [h]

/-- A name that is entered into the first row, if there is one. -/
def enterRow (name : String) : List (List String) → List (List String)
  | [] => []
  | row :: rows => (name :: row) :: rows

theorem rowOf?_enterRow {name x : String} (h : x ≠ name) (rows : List (List String)) :
    rowOf? (enterRow name rows) x = rowOf? rows x := by
  cases rows with
  | nil => rfl
  | cons row rows => simp only [enterRow, rowOf?_cons, List.mem_cons, h, false_or]

/-- Names that are not the words for the receiver and the superclass. -/
def Plain (name : String) : Prop := name ≠ "this" ∧ name ≠ "super"

namespace Context

/-- The names of the open scopes, the innermost first. -/
def rows (ctx : Context) : List (List String) := ctx.scopes.map fun s => s.map Prod.fst

theorem declares_eq (s : Scope) (name : String) :
    s.declares name = (s.map Prod.fst).contains name := by
  induction s with
  | nil => rfl
  | cons entry s ih =>
      obtain ⟨x, ready⟩ := entry
      rw [Scope.declares_cons, ih]
      rfl

/-- **Distances are read off the rows.** -/
theorem distance?_eq (ctx : Context) (name : String) :
    ctx.distance? name = rowOf? ctx.rows name := by
  unfold distance? rowOf? rows
  rw [List.findIdx?_map]
  congr 1
  funext s
  exact declares_eq s name

/-! ### How contexts grow -/

@[simp] theorem rows_global : Context.global.rows = [] := rfl

@[simp] theorem rows_opening (ctx : Context) (names : List String) :
    (ctx.opening names).rows = names :: ctx.rows := by
  have h : Prod.fst ∘ (fun n : String => (n, true)) = id := rfl
  simp only [rows, opening, List.map_cons, List.map_map, h, List.map_id]

theorem rows_opening_ne_nil (ctx : Context) (names : List String) :
    (ctx.opening names).rows ≠ [] := by
  rw [rows_opening]
  exact List.cons_ne_nil _ _

theorem rows_enter (ctx : Context) (name : String) (ready : Bool) :
    (ctx.enter name ready).rows = enterRow name ctx.rows := by
  unfold enter rows
  cases hs : ctx.scopes with
  | nil => simp only [hs, List.map_nil, enterRow]
  | cons s ss => simp only [List.map_cons, enterRow]

@[simp] theorem rows_declare (ctx : Context) (name : String) :
    (ctx.declare name).rows = enterRow name ctx.rows := rows_enter ctx name false

@[simp] theorem rows_define (ctx : Context) (name : String) :
    (ctx.define name).rows = enterRow name ctx.rows := rows_enter ctx name true

@[simp] theorem initializing_enter (ctx : Context) (name : String) (ready : Bool) :
    (ctx.enter name ready).initializing = ctx.initializing := by
  unfold enter
  split <;> rfl

@[simp] theorem inRoutine_enter (ctx : Context) (name : String) (ready : Bool) :
    (ctx.enter name ready).inRoutine = ctx.inRoutine := by
  unfold enter
  split <;> rfl

@[simp] theorem classAround_enter (ctx : Context) (name : String) (ready : Bool) :
    (ctx.enter name ready).classAround = ctx.classAround := by
  unfold enter
  split <;> rfl

theorem isEmpty_enterRow (name : String) (rows : List (List String)) :
    (enterRow name rows).isEmpty = rows.isEmpty := by
  cases rows <;> rfl

/-- A row that a name has been entered into is not empty. -/
theorem ne_nil_of_mem_head?_enterRow {name : String} {rows : List (List String)} {row : List String}
    (h : row ∈ (enterRow name rows).head?) : row ≠ [] := by
  cases rows with
  | nil => cases h
  | cons r rows =>
      cases h
      exact List.cons_ne_nil _ _

/-- Outside of all scopes nothing changes. -/
theorem after_global (d : Decl) : d.after .global = .global := by
  cases d <;> rfl

/-- A declaration opens no scope. -/
theorem isEmpty_rows_after (ctx : Context) (d : Decl) :
    (d.after ctx).rows.isEmpty = ctx.rows.isEmpty := by
  cases d <;> simp only [Decl.after, rows_define, isEmpty_enterRow]

theorem inRoutine_after (ctx : Context) (d : Decl) : (d.after ctx).inRoutine = ctx.inRoutine := by
  cases d <;> simp only [Decl.after, define, inRoutine_enter]

/-- The body of a routine stands in a scope. -/
theorem rows_inRoutineOf_ne_nil (ctx : Context) (params : List Param) :
    (ctx.inRoutineOf params).rows ≠ [] := by
  have main : ∀ (ps : List Param) (c : Context),
      (ps.foldl (fun c p => c.define p.name) c).rows.isEmpty = c.rows.isEmpty := by
    intro ps
    induction ps with
    | nil => exact fun _ => rfl
    | cons p ps ih =>
        intro c
        rw [List.foldl_cons, ih, rows_define, isEmpty_enterRow]
  intro h
  have hempty := main params { ctx.opening [] with inRoutine := true }
  change (ctx.inRoutineOf params).rows.isEmpty = (ctx.opening []).rows.isEmpty at hempty
  rw [h, rows_opening] at hempty
  cases hempty

/-- The body of a routine stands inside a routine. -/
theorem inRoutine_inRoutineOf (ctx : Context) (params : List Param) :
    (ctx.inRoutineOf params).inRoutine = true := by
  have main : ∀ (ps : List Param) (c : Context),
      (ps.foldl (fun c p => c.define p.name) c).inRoutine = c.inRoutine := by
    intro ps
    induction ps with
    | nil => exact fun _ => rfl
    | cons p ps ih =>
        intro c
        rw [List.foldl_cons, ih, define, inRoutine_enter]
  exact main params { ctx.opening [] with inRoutine := true }

/-- Names that do not clash are new in the innermost scope. -/
theorem not_mem_of_clash {ctx : Context} {name : String} {span : Span} {row : List String}
    {rows : List (List String)} (h : ctx.clash name span = []) (hr : ctx.rows = row :: rows) :
    name ∉ row := by
  unfold clash at h
  unfold Context.rows at hr
  split at h
  · rename_i hs
    rw [hs] at hr
    cases hr
  · rename_i s ss hs
    rw [hs, List.map_cons] at hr
    cases hr
    split at h
    · cases h
    · rename_i hd
      rw [declares_eq] at hd
      simpa using hd

/-! ### Classes -/

/-- In a class with a superclass, `super` lives one scope further out than `this`. -/
def WellNested (ctx : Context) : Prop :=
  ctx.classAround = .derived →
    ∃ k, rowOf? ctx.rows "this" = some k ∧ rowOf? ctx.rows "super" = some (k + 1)

theorem wellNested_global : Context.global.WellNested := nofun

theorem WellNested.opening {ctx : Context} (h : ctx.WellNested) : (ctx.opening []).WellNested := by
  intro hc
  obtain ⟨k, hthis, hsuper⟩ := h hc
  refine ⟨k + 1, ?_, ?_⟩
  · simp [rowOf?_cons, hthis]
  · simp [rowOf?_cons, hsuper]

theorem WellNested.enter {ctx : Context} (h : ctx.WellNested) {name : String} (hn : Plain name)
    (ready : Bool) : (ctx.enter name ready).WellNested := by
  intro hc
  rw [classAround_enter] at hc
  obtain ⟨k, hthis, hsuper⟩ := h hc
  refine ⟨k, ?_, ?_⟩
  · rw [rows_enter, rowOf?_enterRow hn.1.symm, hthis]
  · rw [rows_enter, rowOf?_enterRow hn.2.symm, hsuper]

/-- The context in the body of a class does not depend on the context around. -/
theorem wellNested_inClass (ctx : Context) (superclass : Option Superclass) :
    (ctx.inClass superclass).WellNested := by
  cases superclass with
  | none => nofun
  | some parent =>
      intro _
      refine ⟨0, ?_, ?_⟩
      · change rowOf? ((ctx.opening ["super"]).opening ["this"]).rows "this" = some 0
        simp [rowOf?_cons]
      · change rowOf? ((ctx.opening ["super"]).opening ["this"]).rows "super" = some 1
        simp [rowOf?_cons]

/-- The rows in the body of a class. -/
theorem rows_inClass (ctx : Context) (superclass : Option Superclass) :
    (ctx.inClass superclass).rows =
      ["this"] :: (match superclass with
        | some _ => ["super"] :: ctx.rows
        | none => ctx.rows) := by
  cases superclass with
  | none => exact rows_opening ctx ["this"]
  | some parent =>
      change ((ctx.opening ["super"]).opening ["this"]).rows = _
      rw [rows_opening, rows_opening]

/-! ### Steady contexts -/

/-- A context outside the initialisers of variables. -/
structure Steady (ctx : Context) : Prop where
  nested : ctx.WellNested
  initializing : ctx.initializing = none

theorem steady_global : Context.global.Steady := ⟨wellNested_global, rfl⟩

theorem Steady.opening {ctx : Context} (h : ctx.Steady) : (ctx.opening []).Steady :=
  ⟨h.nested.opening, h.initializing⟩

theorem Steady.enter {ctx : Context} (h : ctx.Steady) {name : String} (hn : Plain name)
    (ready : Bool) : (ctx.enter name ready).Steady :=
  ⟨h.nested.enter hn ready, by rw [initializing_enter, h.initializing]⟩

theorem Steady.inClass {ctx : Context} (h : ctx.Steady) (superclass : Option Superclass) :
    (ctx.inClass superclass).Steady := by
  refine ⟨wellNested_inClass ctx superclass, ?_⟩
  cases superclass <;> exact h.initializing

end Context

end Scriptlet
