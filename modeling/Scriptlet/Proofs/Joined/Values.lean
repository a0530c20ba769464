/-
**Machines with programs that have moved.**

The values of a running program carry the routines they were made from.  If these move, so do the
values, and with them the stores and machines that hold them.  Nothing that a store answers depends
on where its routines stand, as long as routines with different labels keep different labels.

Main definitions:

* `Scriptlet.Bindings.map` — bindings of what becomes of things;
* `Scriptlet.Value.relocate`, `Scriptlet.Store.relocate`, `Scriptlet.Machine.relocate`,
  `Scriptlet.RuntimeError.relocate` — values, stores, machines and errors that have moved.

Main results:

* `Scriptlet.Value.same_relocate`, `Scriptlet.Value.text_relocate` — **values that have moved are
  equal if they were, and are printed alike**;
* `Scriptlet.Store.get?_relocate`, `Scriptlet.Store.property_relocate`, … — what a store answers
  moves with it;
* `Scriptlet.Machine.initial_relocate` — a machine at the start holds nothing that could move.
-/

import Scriptlet.Proofs.Joined.Relocation
import Scriptlet.Proofs.Lexical.Semantics

set_option relaxedAutoImplicit false
set_option autoImplicit false

namespace Scriptlet

/-! ### Bindings -/

namespace Bindings

variable {α β : Type} (f : α → β)

/-- Bindings of the same names to what becomes of the things they were bound to. -/
def map (b : Bindings α) : Bindings β := ⟨b.entries.map fun entry => (entry.1, f entry.2)⟩

@[simp] theorem map_empty : (∅ : Bindings α).map f = ∅ := rfl

@[simp] theorem get?_map (b : Bindings α) (name : String) :
    (b.map f).get? name = (b.get? name).map f := by
  obtain ⟨entries⟩ := b
  induction entries with
  | nil => rfl
  | cons entry rest ih =>
      obtain ⟨x, a⟩ := entry
      simp only [map, get?, List.map_cons, List.lookup_cons] at ih ⊢
      split
      · rfl
      · exact ih

@[simp] theorem binds_map (b : Bindings α) (name : String) :
    (b.map f).binds name = b.binds name := by
  rw [binds, binds, get?_map, Option.isSome_map]

theorem setEntry_map (entries : List (String × α)) (name : String) (a : α) :
    setEntry name (f a) (entries.map fun entry => (entry.1, f entry.2)) =
      (setEntry name a entries).map fun entry => (entry.1, f entry.2) := by
  induction entries with
  | nil => rfl
  | cons entry rest ih =>
      rw [List.map_cons, setEntry, setEntry]
      split
      · rfl
      · rw [List.map_cons, ih]

theorem set_map (b : Bindings α) (name : String) (a : α) :
    (b.set name a).map f = (b.map f).set name (f a) :=
  congrArg Bindings.mk (setEntry_map f b.entries name a).symm

end Bindings

variable (φ : Relocation)

/-! ### Closures, classes and values -/

/-- A closure whose routine has moved. -/
def Closure.relocate (f : Closure) : Closure := { f with routine := f.routine.relocate φ }

/-- A class whose methods have moved. -/
def Class.relocate : Class → Class
  | .base id name methods => .base id name (methods.map (Closure.relocate φ))
  | .derived id name methods parent =>
      .derived id name (methods.map (Closure.relocate φ)) parent.relocate

/-- A value whose routines have moved. -/
def Value.relocate : Value → Value
  | .closure f => .closure (f.relocate φ)
  | .cls c => .cls (c.relocate φ)
  | .object id c => .object id (c.relocate φ)
  | v => v

/-- A completion with a value that has moved. -/
def Completion.relocate : Completion → Completion
  | .normal => .normal
  | .returned v => .returned (v.relocate φ)

@[simp] theorem Closure.arity_relocate (f : Closure) : (f.relocate φ).arity = f.arity :=
  f.routine.arity_relocate φ

theorem Closure.ofMethod_relocate (r : Routine) (e : Environment) :
    Closure.ofMethod (r.relocate φ) e = (Closure.ofMethod r e).relocate φ := by
  rw [ofMethod, Routine.name_relocate]
  rfl

@[simp] theorem Class.id_relocate (c : Class) : (c.relocate φ).id = c.id := by
  cases c <;> rfl

@[simp] theorem Class.name_relocate (c : Class) : (c.relocate φ).name = c.name := by
  cases c <;> rfl

@[simp] theorem Class.findMethod?_relocate (c : Class) (name : String) :
    (c.relocate φ).findMethod? name = (c.findMethod? name).map (Closure.relocate φ) := by
  induction c with
  | base id n methods => exact methods.get?_map _ name
  | derived id n methods parent ih =>
      rw [relocate, findMethod?_derived, findMethod?_derived, Bindings.get?_map, ih]
      cases methods.get? name <;> rfl

@[simp] theorem Class.arity_relocate (c : Class) : (c.relocate φ).arity = c.arity := by
  rw [arity, arity, findMethod?_relocate]
  cases c.findMethod? "init" with
  | none => rfl
  | some f => exact f.arity_relocate φ

theorem Class.make_relocate (id : Nat) (name : String) (methods : Bindings Closure)
    (parent : Option Class) :
    Class.make id name (methods.map (Closure.relocate φ)) (parent.map (Class.relocate φ)) =
      (Class.make id name methods parent).relocate φ := by
  cases parent <;> rfl

theorem Class.methodTable_relocate (e : Environment) (methods : List Routine) :
    Class.methodTable e (Routine.allRelocate φ methods) =
      (Class.methodTable e methods).map (Closure.relocate φ) := by
  rw [Routine.allRelocate_eq_map, methodTable, methodTable, List.foldl_map]
  suffices h : ∀ table : Bindings Closure,
      methods.foldl (fun table r => table.set (r.relocate φ).name (.ofMethod (r.relocate φ) e))
          (table.map (Closure.relocate φ)) =
        (methods.foldl (fun table r => table.set r.name (.ofMethod r e)) table).map
          (Closure.relocate φ) from h ∅
  intro table
  refine List.foldl_hom (Bindings.map (Closure.relocate φ)) fun table r => ?_
  rw [Bindings.set_map, Closure.ofMethod_relocate, Routine.name_relocate]

@[simp] theorem Constant.value_relocate (c : Constant) : c.value.relocate φ = c.value := by
  cases c <;> rfl

@[simp] theorem Value.isTruthy_relocate (v : Value) : (v.relocate φ).isTruthy = v.isTruthy := by
  cases v <;> rfl

/-- **Values that have moved are printed alike.** -/
@[simp] theorem Value.text_relocate (v : Value) : (v.relocate φ).text = v.text := by
  cases v with
  | closure f => simp [relocate, text, Closure.relocate]
  | cls c => exact c.name_relocate φ
  | object id c => simp [relocate, text]
  | _ => rfl

/-- **Values that have moved are equal if they were.** -/
theorem Value.same_relocate {φ : Relocation} (hφ : Function.Injective φ.routine) (v w : Value) :
    (v.relocate φ).same (w.relocate φ) = v.same w := by
  cases v with
  | closure f =>
      cases w with
      | closure g =>
          have hlabel : ((f.routine.relocate φ).label == (g.routine.relocate φ).label) =
              (f.routine.label == g.routine.label) := by
            rw [Routine.label_relocate, Routine.label_relocate, Bool.eq_iff_iff, beq_iff_eq,
              beq_iff_eq]
            exact hφ.eq_iff
          exact congrArg (· && f.environment == g.environment) hlabel
      | _ => rfl
  | cls c =>
      cases w with
      | cls d => simp [relocate, same]
      | _ => rfl
  | _ => cases w <;> rfl

/-! ### Operators -/

theorem UnaryOp.apply_relocate (op : UnaryOp) (v : Value) :
    op.apply (v.relocate φ) = (op.apply v).map (Value.relocate φ) := by
  cases op with
  | negate => cases v <;> rfl
  | not =>
      rw [apply, Value.isTruthy_relocate]
      rfl

theorem onNumbers_relocate {f : Float → Float → Value}
    (hf : ∀ x y, (f x y).relocate φ = f x y) (v w : Value) :
    onNumbers f (v.relocate φ) (w.relocate φ) = (onNumbers f v w).map (Value.relocate φ) := by
  cases v with
  | number x =>
      cases w with
      | number y => exact congrArg Except.ok (hf x y).symm
      | _ => rfl
  | _ => rfl

theorem BinaryOp.apply_relocate {φ : Relocation} (hφ : Function.Injective φ.routine)
    (op : BinaryOp) (v w : Value) :
    op.apply (v.relocate φ) (w.relocate φ) = (op.apply v w).map (Value.relocate φ) := by
  cases op with
  | add => cases v <;> cases w <;> rfl
  | divide =>
      cases v with
      | number x =>
          cases w with
          | number y =>
              simp only [Value.relocate, apply]
              split <;> rfl
          | _ => rfl
      | _ => rfl
  | equal =>
      rw [apply, Value.same_relocate hφ]
      rfl
  | notEqual =>
      rw [apply, Value.same_relocate hφ]
      rfl
  | _ => exact onNumbers_relocate φ (fun _ _ => rfl) v w

theorem LogicalOp.decides_relocate (op : LogicalOp) (v : Value) :
    op.decides (v.relocate φ) = op.decides v := by
  cases op <;> simp [decides]

/-! ### Stores -/

/-- A store whose values have moved. -/
def Store.relocate (s : Store) : Store :=
  ⟨s.frames.map (Bindings.map (Value.relocate φ)), s.objects.map (Bindings.map (Value.relocate φ)),
    s.classes⟩

namespace Store

variable (s : Store)

theorem getD_map (bs : Array (Bindings Value)) (i : Nat) :
    (bs.map (Bindings.map (Value.relocate φ))).getD i ∅ =
      (bs.getD i ∅).map (Value.relocate φ) := by
  simp only [Array.getD_eq_getD_getElem?, Array.getElem?_map]
  cases bs[i]? <;> rfl

theorem modify_map (bs : Array (Bindings Value)) (i : Nat) (name : String) (v : Value) :
    (bs.map (Bindings.map (Value.relocate φ))).modify i (fun b => b.set name (v.relocate φ)) =
      (bs.modify i fun b => b.set name v).map (Bindings.map (Value.relocate φ)) := by
  refine Array.ext (by simp) fun j h₁ h₂ => ?_
  simp only [Array.getElem_modify, Array.getElem_map]
  split
  · exact (Bindings.set_map _ _ name v).symm
  · rfl

@[simp] theorem frame_relocate (a : FrameId) :
    (s.relocate φ).frame a = (s.frame a).map (Value.relocate φ) :=
  getD_map φ s.frames a

@[simp] theorem fields_relocate (i : ObjectId) :
    (s.relocate φ).fields i = (s.fields i).map (Value.relocate φ) :=
  getD_map φ s.objects i

theorem write_relocate (a : FrameId) (name : String) (v : Value) :
    (s.relocate φ).write a name (v.relocate φ) = (s.write a name v).relocate φ := by
  simp only [write, relocate, modify_map]

theorem setField_relocate (i : ObjectId) (name : String) (v : Value) :
    (s.relocate φ).setField i name (v.relocate φ) = (s.setField i name v).relocate φ := by
  simp only [setField, relocate, modify_map]

theorem child_relocate (e : Environment) :
    (s.relocate φ).child e = ((s.child e).1, (s.child e).2.relocate φ) := by
  simp [child, relocate]

theorem define_relocate (e : Environment) (name : String) (v : Value) :
    (s.relocate φ).define e name (v.relocate φ) = (s.define e name v).relocate φ := by
  unfold define
  cases e.chain with
  | nil => rfl
  | cons a as => exact s.write_relocate φ a name v

theorem allot_relocate (e : Environment) (name : String) (v : Value) :
    (s.relocate φ).allot e name (v.relocate φ) =
      ((s.allot e name v).1, (s.allot e name v).2.relocate φ) := by
  simp only [allot, child_relocate, define_relocate]

theorem holder?_relocate (e : Environment) (name : String) :
    (s.relocate φ).holder? e name = s.holder? e name := by
  simp only [holder?, frame_relocate, Bindings.binds_map]

/-- The value of a name moves with the store. -/
theorem get?_relocate (e : Environment) (name : String) :
    (s.relocate φ).get? e name = (s.get? e name).map (Value.relocate φ) := by
  unfold get?
  rw [holder?_relocate]
  cases s.holder? e name with
  | none => rfl
  | some a =>
      dsimp only
      rw [frame_relocate, Bindings.get?_map]

theorem assign_relocate (e : Environment) (name : String) (v : Value) :
    (s.relocate φ).assign e name (v.relocate φ) =
      ((s.assign e name v).1, (s.assign e name v).2.relocate φ) := by
  unfold assign
  rw [holder?_relocate]
  cases s.holder? e name with
  | none => rfl
  | some a =>
      dsimp only
      rw [write_relocate]

theorem newClass_relocate (name : String) (methods : Bindings Closure) (parent : Option Class) :
    (s.relocate φ).newClass name (methods.map (Closure.relocate φ))
        (parent.map (Class.relocate φ)) =
      ((s.newClass name methods parent).1.relocate φ,
        (s.newClass name methods parent).2.relocate φ) := by
  simp only [newClass, Class.make_relocate]
  rfl

theorem newObject_relocate (c : Class) :
    (s.relocate φ).newObject (c.relocate φ) =
      ((s.newObject c).1.relocate φ, (s.newObject c).2.relocate φ) := by
  simp [newObject, relocate, Value.relocate]

theorem bind_relocate (method : Closure) (receiver : Value) :
    (s.relocate φ).bind (method.relocate φ) (receiver.relocate φ) =
      ((s.bind method receiver).1.relocate φ, (s.bind method receiver).2.relocate φ) := by
  simp only [bind, Closure.relocate, child_relocate, define_relocate]

/-- A property moves with the store. -/
theorem property_relocate (i : ObjectId) (c : Class) (name : String) :
    (s.relocate φ).property i (c.relocate φ) name =
      ((s.property i c name).1.map (Value.relocate φ), (s.property i c name).2.relocate φ) := by
  unfold property
  rw [fields_relocate, Bindings.get?_map, Class.findMethod?_relocate]
  cases (s.fields i).get? name with
  | some v => rfl
  | none =>
      cases c.findMethod? name with
      | none => rfl
      | some method =>
          have hbind := s.bind_relocate φ method (.object i c)
          simp only [Option.map_none, Option.map_some, Value.relocate] at hbind ⊢
          rw [hbind]

end Store

/-! ### Machines -/

/-- A machine whose values have moved. -/
def Machine.relocate (m : Machine) : Machine := { m with store := m.store.relocate φ }

/-- A machine at the start holds nothing that could move. -/
theorem Machine.initial_relocate (output : Output) :
    (Machine.initial output).relocate φ = .initial output := by
  have hfresh : Store.empty.newEnvironment.2.relocate φ = Store.empty.newEnvironment.2 := by
    simp [Store.relocate, Store.newEnvironment, Store.empty]
  have hstore := Store.empty.newEnvironment.2.define_relocate φ ⟨[0]⟩ "clock" (.native .clock)
  rw [hfresh] at hstore
  exact congrArg (fun store => Machine.mk store ⟨[0]⟩ ⟨[0]⟩ 0 output 0) hstore.symm

/-- A runtime error at its new place. -/
def RuntimeError.relocate (e : RuntimeError) : RuntimeError := { e with span := φ.span e.span }

end Scriptlet
