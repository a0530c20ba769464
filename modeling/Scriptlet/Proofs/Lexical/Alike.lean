/-
**Values that are alike.**

A value of a machine that runs with resolutions and a value of one that looks names up are alike if
nothing a program does can tell them apart.  Numbers, strings and the like are alike if they are the
same.  Functions are alike if they come from the same declaration, and the frames one has captured
hold the same names as the locations the other has.  A method is alike to another in the same way,
but for its receiver, which it has not got yet.

Main definitions:

* `Scriptlet.Known` — the sites of the programs that there are;
* `Scriptlet.FunctionAlike`, `Scriptlet.MethodAlike`, `Scriptlet.ClassAlike`, `Scriptlet.Alike` —
  functions, methods, classes and values that are alike.

Main results:

* `Scriptlet.Alike.mono`, `Scriptlet.Alike.known_mono` — values stay alike as the atlas grows and
  when there are more programs;
* `Scriptlet.Alike.same_eq` — **alike values are equal to alike values**;
* `Scriptlet.Alike.binary`, `Scriptlet.Alike.unary` — operators do the same to alike operands;
* `Scriptlet.methodTable_alike` — the methods of one declaration in environments that belong
  together.
-/

import Scriptlet.Eval
import Scriptlet.Proofs.Lexical.Atlas
import Scriptlet.Proofs.Scope.Sites

set_option relaxedAutoImplicit false
set_option autoImplicit false

namespace Scriptlet

/-- The sites of the programs that there are. -/
abbrev Known := Site → Prop

/-- A label tells which routine it is and where it stands. -/
def Known.Labelled (K : Known) : Prop :=
  ∀ ⦃ctx ctx' r r'⦄, K ⟨ctx, .routine r⟩ → K ⟨ctx', .routine r'⟩ → r.label = r'.label →
    ctx = ctx' ∧ r = r'

/-! ### The relations -/

section Relations

variable (K : Known) (A : Atlas)

/-- Functions that are alike.  An initialiser has its receiver in its innermost frame. -/
inductive FunctionAlike : Closure → Closure → Prop
  | mk {ctx : Context} {r : Routine} {e e' : Environment} {isInitializer : Bool}
      (known : K ⟨ctx, .routine r⟩) (settled : Settled A ctx.rows e.chain e'.chain)
      (steady : ctx.Steady)
      (headed : ∀ row ∈ ctx.rows.head?, row ≠ [])
      (receiver : isInitializer = true → ∃ rows, ctx.rows = ["this"] :: rows) :
      FunctionAlike ⟨r, e, isInitializer⟩ ⟨r, e', isInitializer⟩

/-- Methods that are alike, without their receiver. -/
inductive MethodAlike : Closure → Closure → Prop
  | mk {ctx : Context} {r : Routine} {e e' : Environment} {isInitializer : Bool}
      {rows : List (List String)} (known : K ⟨ctx, .routine r⟩)
      (rows_eq : ctx.rows = ["this"] :: rows) (settled : Settled A rows e.chain e'.chain)
      (steady : ctx.Steady) :
      MethodAlike ⟨r, e, isInitializer⟩ ⟨r, e', isInitializer⟩

/-- Classes that are alike: they have the same number and name, and alike methods. -/
inductive ClassAlike : Class → Class → Prop
  | base {id : Nat} {name : String} {methods methods' : Bindings Closure}
      (alike : ∀ x, Option.Rel (MethodAlike K A) (methods.get? x) (methods'.get? x)) :
      ClassAlike (.base id name methods) (.base id name methods')
  | derived {id : Nat} {name : String} {methods methods' : Bindings Closure}
    {parent parent' : Class}
      (alike : ∀ x, Option.Rel (MethodAlike K A) (methods.get? x) (methods'.get? x))
      (parents : ClassAlike parent parent') :
      ClassAlike (.derived id name methods parent) (.derived id name methods' parent')

/-- **Values that are alike.** -/
inductive Alike : Value → Value → Prop
  | number (x : Float) : Alike (.number x) (.number x)
  | string (s : String) : Alike (.string s) (.string s)
  | bool (b : Bool) : Alike (.bool b) (.bool b)
  | nil : Alike .nil .nil
  | native (f : Native) : Alike (.native f) (.native f)
  | closure {f g : Closure} (alike : FunctionAlike K A f g) : Alike (.closure f) (.closure g)
  | cls {c d : Class} (alike : ClassAlike K A c d) : Alike (.cls c) (.cls d)
  | object (id : ObjectId) {c d : Class} (alike : ClassAlike K A c d) :
      Alike (.object id c) (.object id d)

end Relations

variable {K : Known} {A A' : Atlas} {own : Option FrameId}

/-! ### Growing atlases -/

theorem FunctionAlike.mono {f g : Closure} (h : FunctionAlike K A f g) (hg : A.Grows own A') :
    FunctionAlike K A' f g := by
  cases h with
  | mk known settled steady headed receiver =>
      exact .mk known (settled.mono hg) steady headed receiver

theorem MethodAlike.mono {f g : Closure} (h : MethodAlike K A f g) (hg : A.Grows own A') :
    MethodAlike K A' f g := by
  cases h with
  | mk known rows_eq settled steady => exact .mk known rows_eq (settled.mono hg) steady

theorem rel_imp {α β : Type} {R S : α → β → Prop} {a : Option α} {b : Option β}
    (h : Option.Rel R a b) (hRS : ∀ x y, R x y → S x y) : Option.Rel S a b := by
  cases h with
  | some h => exact .some (hRS _ _ h)
  | none => exact .none

theorem ClassAlike.mono {c d : Class} (h : ClassAlike K A c d) (hg : A.Grows own A') :
    ClassAlike K A' c d := by
  induction h with
  | base alike => exact .base fun x => rel_imp (alike x) fun _ _ h => h.mono hg
  | derived alike _ ih => exact .derived (fun x => rel_imp (alike x) fun _ _ h => h.mono hg) ih

/-- Values stay alike as the atlas grows. -/
theorem Alike.mono {v w : Value} (h : Alike K A v w) (hg : A.Grows own A') : Alike K A' v w := by
  cases h with
  | number x => exact .number x
  | string s => exact .string s
  | bool b => exact .bool b
  | nil => exact .nil
  | native f => exact .native f
  | closure h => exact .closure (h.mono hg)
  | cls h => exact .cls (h.mono hg)
  | object id h => exact .object id (h.mono hg)

theorem Alike.mono_all {vs ws : List Value} (h : List.Forall₂ (Alike K A) vs ws)
    (hg : A.Grows own A') : List.Forall₂ (Alike K A') vs ws :=
  h.imp fun _ _ hv => hv.mono hg

theorem Alike.mono_rel {v w : Option Value} (h : Option.Rel (Alike K A) v w)
    (hg : A.Grows own A') : Option.Rel (Alike K A') v w :=
  rel_imp h fun _ _ hv => hv.mono hg

/-! ### More programs -/

section Known

variable {K' : Known} (hK : ∀ s, K s → K' s)

include hK

theorem FunctionAlike.known_mono {f g : Closure} (h : FunctionAlike K A f g) :
    FunctionAlike K' A f g := by
  cases h with
  | mk known settled steady headed receiver =>
      exact .mk (hK _ known) settled steady headed receiver

theorem MethodAlike.known_mono {f g : Closure} (h : MethodAlike K A f g) :
    MethodAlike K' A f g := by
  cases h with
  | mk known rows_eq settled steady => exact .mk (hK _ known) rows_eq settled steady

theorem ClassAlike.known_mono {c d : Class} (h : ClassAlike K A c d) : ClassAlike K' A c d := by
  induction h with
  | base alike => exact .base fun x => rel_imp (alike x) fun _ _ h => h.known_mono hK
  | derived alike _ ih =>
      exact .derived (fun x => rel_imp (alike x) fun _ _ h => h.known_mono hK) ih

/-- Values stay alike when there are more programs. -/
theorem Alike.known_mono {v w : Value} (h : Alike K A v w) : Alike K' A v w := by
  cases h with
  | number x => exact .number x
  | string s => exact .string s
  | bool b => exact .bool b
  | nil => exact .nil
  | native f => exact .native f
  | closure h => exact .closure (h.known_mono hK)
  | cls h => exact .cls (h.known_mono hK)
  | object id h => exact .object id (h.known_mono hK)

end Known

/-! ### Functions and classes -/

theorem FunctionAlike.routine_eq {f g : Closure} (h : FunctionAlike K A f g) :
    f.routine = g.routine := by
  cases h
  rfl

theorem FunctionAlike.arity_eq {f g : Closure} (h : FunctionAlike K A f g) : f.arity = g.arity := by
  unfold Closure.arity
  rw [h.routine_eq]

theorem MethodAlike.arity_eq {f g : Closure} (h : MethodAlike K A f g) : f.arity = g.arity := by
  cases h
  rfl

namespace ClassAlike

theorem id_eq {c d : Class} (h : ClassAlike K A c d) : c.id = d.id := by
  cases h <;> rfl

theorem name_eq {c d : Class} (h : ClassAlike K A c d) : c.name = d.name := by
  cases h <;> rfl

/-- Classes that are alike have alike methods, their own or inherited. -/
theorem findMethod? {c d : Class} (h : ClassAlike K A c d) (name : String) :
    Option.Rel (MethodAlike K A) (c.findMethod? name) (d.findMethod? name) := by
  induction h with
  | base alike => exact alike name
  | derived alike _ ih =>
      simp only [Class.findMethod?_derived]
      have hown := alike name
      generalize Bindings.get? _ name = f at hown ⊢
      generalize Bindings.get? _ name = g at hown ⊢
      cases hown with
      | some h => exact .some h
      | none => exact ih

theorem arity_eq {c d : Class} (h : ClassAlike K A c d) : c.arity = d.arity := by
  have hinit := h.findMethod? "init"
  unfold Class.arity
  generalize c.findMethod? "init" = f at hinit ⊢
  generalize d.findMethod? "init" = g at hinit ⊢
  cases hinit with
  | some h => exact h.arity_eq
  | none => rfl

end ClassAlike

/-- The methods of one declaration in environments that belong together. -/
theorem methodTable_alike {e e' : Environment} {methods : List Routine}
    (h : ∀ r ∈ methods, MethodAlike K A (.ofMethod r e) (.ofMethod r e')) (x : String) :
    Option.Rel (MethodAlike K A) ((Class.methodTable e methods).get? x)
      ((Class.methodTable e' methods).get? x) := by
  have main : ∀ (methods : List Routine) (table table' : Bindings Closure),
      (∀ r ∈ methods, MethodAlike K A (.ofMethod r e) (.ofMethod r e')) →
      (∀ x, Option.Rel (MethodAlike K A) (table.get? x) (table'.get? x)) →
      ∀ x, Option.Rel (MethodAlike K A)
        ((methods.foldl (fun t r => t.set r.name (.ofMethod r e)) table).get? x)
        ((methods.foldl (fun t r => t.set r.name (.ofMethod r e')) table').get? x) := by
    -- induction on the methods, for all tables that are alike, since a later method replaces one
    intro methods
    induction methods with
    | nil => exact fun _ _ _ htable => htable
    | cons r rs ih =>
        intro table table' hrs htable
        refine ih _ _ (fun q hq => hrs q (List.mem_cons_of_mem _ hq)) fun y => ?_
        rw [Bindings.get?_set, Bindings.get?_set]
        split
        · exact .some (hrs r (List.mem_cons_self ..))
        · exact htable y
  exact main methods ∅ ∅ h (fun _ => .none) x

/-! ### What programs see of values -/

/-- Alike functions are the same as alike functions: the frames and the locations that they have
captured determine each other. -/
theorem FunctionAlike.same_eq (hK : K.Labelled) (hA : A.Injective) {f f' g g' : Closure}
    (h : FunctionAlike K A f f') (h' : FunctionAlike K A g g') : f.same g = f'.same g' := by
  cases h with
  | @mk ctx r e e' _ known settled _ headed _ =>
      cases h' with
      | @mk ctx' r' c c' _ known' settled' _ _ _ =>
          unfold Closure.same
          -- a label belongs to one routine, and this stands in one context; what is left to compare
          -- are the captured environments
          by_cases hlabel : r.label = r'.label
          · obtain ⟨rfl, rfl⟩ := hK known known' hlabel
            have hiff : e = c ↔ e' = c' := by
              constructor
              · rintro rfl
                exact congrArg Environment.mk (settled.placed.places_unique hA settled'.placed)
              · rintro rfl
                exact congrArg Environment.mk (settled.placed.chain_unique settled'.placed headed)
            simp only [beq_self_eq_true, Bool.true_and]
            exact Bool.eq_iff_iff.2 (by simpa only [beq_iff_eq] using hiff)
          · have hne : (r.label == r'.label) = false := by simpa using hlabel
            simp only [hne, Bool.false_and]

namespace Alike

variable {v v' w w' : Value}

/-- **Alike values are equal to alike values.** -/
theorem same_eq (hK : K.Labelled) (hA : A.Injective) (hv : Alike K A v v')
    (hw : Alike K A w w') : v.same w = v'.same w' := by
  cases hv with
  | closure hf =>
      cases hw with
      | closure hg => exact hf.same_eq hK hA hg
      | _ => rfl
  | cls hc =>
      cases hw with
      | cls hd =>
          simp only [Value.same, hc.id_eq, hd.id_eq]
      | _ => rfl
  | _ => cases hw <;> rfl

theorem isTruthy_eq (h : Alike K A v v') : v.isTruthy = v'.isTruthy := by
  cases h <;> rfl

theorem text_eq (h : Alike K A v v') : v.text = v'.text := by
  cases h with
  | closure h => simp only [Value.text, h.routine_eq]
  | cls h => simp only [Value.text, h.name_eq]
  | object id h => simp only [Value.text, h.name_eq]
  | _ => rfl

theorem decides_eq (op : LogicalOp) (h : Alike K A v v') : op.decides v = op.decides v' := by
  cases op <;> simp only [LogicalOp.decides, h.isTruthy_eq]

/-- Constants are alike. -/
theorem constant (c : Constant) : Alike K A c.value c.value := by
  cases c with
  | number x => exact .number x
  | string s => exact .string s
  | bool b => exact .bool b
  | nil => exact .nil

end Alike

/-! ### Operators -/

/-- Results of operators that are alike: both a value, or both the same fault of operators. -/
inductive ResultAlike (K : Known) (A : Atlas) :
    Except RuntimeFault Value → Except RuntimeFault Value → Prop
  | ok {v w : Value} : Alike K A v w → ResultAlike K A (.ok v) (.ok w)
  | error (fault : RuntimeFault) (h : fault = .operandNotNumber ∨ fault = .operandsNotNumbers ∨
      fault = .operandsNotAddable ∨ fault = .divisionByZero) :
      ResultAlike K A (.error fault) (.error fault)

namespace Alike

variable {v v' w w' : Value}

/-- An operator does the same to alike operands. -/
theorem unary (op : UnaryOp) (h : Alike K A v v') : ResultAlike K A (op.apply v) (op.apply v') := by
  cases op with
  | negate =>
      cases h with
      | number x => exact .ok (.number _)
      | _ => exact .error _ (.inl rfl)
  | not =>
      simp only [UnaryOp.apply, h.isTruthy_eq]
      exact .ok (.bool _)

/-- An operator on numbers does the same to alike operands. -/
theorem onNumbers (f : Float → Float → Value) (hf : ∀ x y, Alike K A (f x y) (f x y))
    (hv : Alike K A v v') (hw : Alike K A w w') :
    ResultAlike K A (Scriptlet.onNumbers f v w) (Scriptlet.onNumbers f v' w') := by
  cases hv with
  | number x =>
      cases hw with
      | number y => exact .ok (hf x y)
      | _ => exact .error _ (.inr (.inl rfl))
  | _ => exact .error _ (.inr (.inl rfl))

/-- An operator does the same to alike operands. -/
theorem binary (hK : K.Labelled) (hA : A.Injective) (op : BinaryOp) (hv : Alike K A v v')
    (hw : Alike K A w w') : ResultAlike K A (op.apply v w) (op.apply v' w') := by
  -- `+` looks at both operands, the arithmetic and the comparisons go through `onNumbers`, and only
  -- equality looks into values
  cases op with
  | add =>
      cases hv with
      | number x =>
          cases hw with
          | number y => exact .ok (.number _)
          | string t => exact .ok (.string _)
          | _ => exact .error _ (.inr (.inr (.inl rfl)))
      | string s =>
          cases hw with
          | number y => exact .ok (.string _)
          | string t => exact .ok (.string _)
          | _ => exact .error _ (.inr (.inr (.inl rfl)))
      | _ => cases hw <;> exact .error _ (.inr (.inr (.inl rfl)))
  | divide =>
      cases hv with
      | number x =>
          cases hw with
          | number y =>
              simp only [BinaryOp.apply]
              split
              · exact .error _ (.inr (.inr (.inr rfl)))
              · exact .ok (.number _)
          | _ => exact .error _ (.inr (.inl rfl))
      | _ => cases hw <;> exact .error _ (.inr (.inl rfl))
  | equal =>
      simp only [BinaryOp.apply, hv.same_eq hK hA hw]
      exact .ok (.bool _)
  | notEqual =>
      simp only [BinaryOp.apply, hv.same_eq hK hA hw]
      exact .ok (.bool _)
  | subtract => exact onNumbers _ (fun _ _ => .number _) hv hw
  | multiply => exact onNumbers _ (fun _ _ => .number _) hv hw
  | less => exact onNumbers _ (fun _ _ => .bool _) hv hw
  | lessEqual => exact onNumbers _ (fun _ _ => .bool _) hv hw
  | greater => exact onNumbers _ (fun _ _ => .bool _) hv hw
  | greaterEqual => exact onNumbers _ (fun _ _ => .bool _) hv hw

end Alike

end Scriptlet
