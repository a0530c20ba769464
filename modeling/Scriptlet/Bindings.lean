/-
**Names bound to things.**

A scope binds names to values, an object binds the names of its fields, and a class the names of
its methods.  Each name is bound once; binding it again replaces what it was bound to.

Main definitions:

* `Scriptlet.Bindings`, `Scriptlet.Bindings.get?`, `Scriptlet.Bindings.set` — bindings, looking up
  and binding a name.

Main results:

* `Scriptlet.Bindings.get?_set` — **a name that was set has its new value, and every other name
  the value it had**.
-/

set_option relaxedAutoImplicit false
set_option autoImplicit false

namespace Scriptlet

/-- Names, each bound to one thing. -/
structure Bindings (α : Type) where
  /-- The names and what they are bound to, in the order in which they were first bound. -/
  entries : List (String × α)

namespace Bindings

variable {α : Type}

/-- No bindings. -/
def empty : Bindings α := ⟨[]⟩

instance : EmptyCollection (Bindings α) := ⟨empty⟩

instance : Inhabited (Bindings α) := ⟨empty⟩

/-- What a name is bound to. -/
def get? (b : Bindings α) (name : String) : Option α := b.entries.lookup name

/-- The entries after a name has been bound. -/
def setEntry (name : String) (a : α) : List (String × α) → List (String × α)
  | [] => [(name, a)]
  | (x, old) :: rest => if x = name then (x, a) :: rest else (x, old) :: setEntry name a rest

/-- Binds a name. -/
def set (b : Bindings α) (name : String) (a : α) : Bindings α := ⟨setEntry name a b.entries⟩

/-- Whether a name is bound. -/
def binds (b : Bindings α) (name : String) : Bool := (b.get? name).isSome

@[simp] theorem get?_empty (name : String) : (∅ : Bindings α).get? name = none := rfl

private theorem lookup_setEntry (entries : List (String × α)) (name x : String) (a : α) :
    (setEntry name a entries).lookup x = if x = name then some a else entries.lookup x := by
  induction entries with
  | nil =>
      by_cases h : x = name
      · simp [setEntry, h]
      · have hx : (x == name) = false := by simpa using h
        simp [setEntry, List.lookup_cons, hx, h]
  | cons entry rest ih =>
      obtain ⟨y, old⟩ := entry
      unfold setEntry
      split
      · rename_i hy
        subst hy
        by_cases h : x = y
        · simp [h]
        · have hx : (x == y) = false := by simpa using h
          simp [List.lookup_cons, hx, h]
      · rename_i hy
        by_cases h : x = y
        · subst h
          simp [hy]
        · have hxy : (x == y) = false := by simpa using h
          simp [List.lookup_cons, hxy, ih]

/-- **A name that was set has its new value, and every other name the value it had.** -/
@[simp] theorem get?_set (b : Bindings α) (name x : String) (a : α) :
    (b.set name a).get? x = if x = name then some a else b.get? x :=
  lookup_setEntry b.entries name x a

@[simp] theorem binds_set (b : Bindings α) (name x : String) (a : α) :
    (b.set name a).binds x = (decide (x = name) || b.binds x) := by
  by_cases h : x = name <;> simp [binds, h]

end Bindings

end Scriptlet
