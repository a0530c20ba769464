/-
**The numbers that a source can write.**

A number literal is a natural number divided by a power of ten.  Whether it is computed with doubles
throughout or rounded once, all that is rounded has the positive sign, nothing is divided by zero, and
so the result is a number with the positive sign or, if it is too large, the positive infinity.  It is
the only double written as a literal that JSON has no text for.

Main definitions:

* `Scriptlet.Positive`, `Scriptlet.Decimal.Shape.Positive` — doubles with the positive sign.

Main results:

* `Scriptlet.Lexeme.positive_numberValue` — **a number literal has the positive sign**;
* `Scriptlet.Json.float_injective` — doubles with the positive sign are determined by their JSON.
-/

import Mathlib
import Scriptlet.Program.Dump
import Scriptlet.Proofs.Dump.Numbers
import Scriptlet.Token.Lexeme

set_option relaxedAutoImplicit false
set_option autoImplicit false

namespace Scriptlet

open Float.Model

/-! ### Rounding keeps the sign -/

/-- A double with the positive sign, taken apart. -/
def Positive : UnpackedFloat → Prop
  | .notANumber => False
  | .infinity s | .zero s | .finite s _ _ _ => s = .positive

section Positive

variable {spec : Format} {a b : UnpackedFloat}

theorem positive_roundWithAccuracy (m : Nat) (e : Int) (accuracy : UnpackedFloat.Accuracy) :
    Positive (UnpackedFloat.roundWithAccuracy spec .positive m e accuracy) := by
  unfold UnpackedFloat.roundWithAccuracy
  dsimp only
  split <;> exact rfl

theorem positive_round (m : Nat) (e : Int) :
    Positive (UnpackedFloat.round spec .positive m e) :=
  positive_roundWithAccuracy _ _ _

theorem positive_ofNat (n : Nat) : Positive (UnpackedFloat.ofNat spec n) := by
  unfold UnpackedFloat.ofNat UnpackedFloat.ofInt UnpackedFloat.normalize
  split
  · rename_i h
    rw [Int.compare_eq_lt] at h
    omega
  · exact rfl
  · exact positive_round _ _

/-- A double with the positive sign, divided by a positive number. -/
theorem positive_div {m : Nat} {e : Int} {h : 0 < m} (ha : Positive a) :
    Positive (UnpackedFloat.div spec a (.finite .positive m e h)) := by
  cases a with
  | notANumber => exact ha.elim
  | infinity s =>
      cases ha
      exact rfl
  | zero s =>
      cases ha
      exact rfl
  | finite s m' e' h' =>
      cases ha
      exact positive_roundWithAccuracy _ _ _

theorem positive_ofScientific (m : Nat) (e : Int) :
    Positive (UnpackedFloat.ofScientific spec m e) := by
  unfold UnpackedFloat.ofScientific
  split
  · exact rfl
  split
  · exact rfl
  split
  · exact rfl
  split
  · exact positive_roundWithAccuracy _ _ _
  · exact positive_div rfl

end Positive

/-! ### Bits -/

/-- The bits of a double with the positive sign. -/
def PositiveBits (bits : BitVec Format.binary64.numBits) : Prop :=
  ∃ exponent mantissa, bits = UnpackedFloat.packComponents .binary64 .positive exponent mantissa ∧
    (exponent = -1#11 → mantissa = 0#52)

theorem positiveBits_pack {a : UnpackedFloat} (h : Positive a) :
    PositiveBits (UnpackedFloat.pack .binary64 a) := by
  cases a with
  | notANumber => exact h.elim
  | infinity s =>
      cases h
      exact ⟨_, _, rfl, fun _ => rfl⟩
  | zero s =>
      cases h
      exact ⟨_, _, rfl, fun _ => rfl⟩
  | finite s m e hm =>
      cases h
      unfold UnpackedFloat.pack
      dsimp only
      split
      · exact ⟨_, _, rfl, fun _ => rfl⟩
      split
      · -- the exponent is below that of an infinity
        rename_i hsmall _
        refine ⟨_, _, rfl, fun hexponent => ?_⟩
        have hnat := congrArg BitVec.toNat hexponent
        rw [BitVec.toNat_ofNat, Nat.mod_eq_of_lt (by omega)] at hnat
        have hlast : (-1#11).toNat = 2047 := rfl
        have hcount : 2 ^ Format.binary64.exponentBits = 2048 := rfl
        omega
      · exact ⟨_, _, rfl, fun hexponent => by cases hexponent⟩

theorem positive_unpack {bits : BitVec Format.binary64.numBits} (h : PositiveBits bits) :
    Positive (UnpackedFloat.unpack .binary64 bits) := by
  obtain ⟨exponent, mantissa, rfl, hnan⟩ := h
  unfold UnpackedFloat.unpack
  simp only [UnpackedFloat.unpackMantissa_packComponents,
    UnpackedFloat.unpackExponent_packComponents, UnpackedFloat.unpackSign_packComponents]
  split
  · rename_i hexponent
    rw [if_pos (hnan hexponent)]
    exact rfl
  split
  · split <;> exact rfl
  · exact rfl

/-! ### Shapes -/

namespace Decimal

/-- A double with the positive sign. -/
def Shape.Positive : Shape → Prop
  | .nan => False
  | .infinite negative | .zero negative | .finite negative _ => negative = false

theorem positive_shapeOfBits {bits : BitVec Format.binary64.numBits} (h : PositiveBits bits) :
    (shapeOfBits bits.toNat).Positive := by
  obtain ⟨exponent, mantissa, rfl, hnan⟩ := h
  have hbits : (UnpackedFloat.packComponents .binary64 .positive exponent mantissa).toNat =
      exponent.toNat * 2 ^ 52 + mantissa.toNat := by
    show (0#1 ++ exponent ++ mantissa).toNat = _
    rw [BitVec.toNat_append, BitVec.toNat_append, ← Nat.shiftLeft_add_eq_or_of_lt mantissa.isLt]
    simp [Nat.shiftLeft_eq]
  have hexponent : exponent.toNat < 2 ^ 11 := exponent.isLt
  have hmantissa : mantissa.toNat < 2 ^ 52 := mantissa.isLt
  have hinfinite : exponent.toNat = 2047 → mantissa.toNat = 0 := fun h => by
    rw [hnan (BitVec.eq_of_toNat_eq h)]
    rfl
  rw [hbits]
  have hsign : ¬2 ^ 63 ≤ exponent.toNat * 2 ^ 52 + mantissa.toNat := by omega
  unfold shapeOfBits
  simp only [Nat.pow_eq, hsign, decide_false]
  split
  · rw [if_pos (by omega)]
    exact rfl
  · split
    · split <;> exact rfl
    · exact rfl

end Decimal

/-! ### Number literals -/

/-- A positive number. -/
def isPositiveNumber : UnpackedFloat → Bool
  | .finite .positive _ _ _ => true
  | _ => false

/-- The powers of ten that are doubles are positive numbers. -/
theorem isPositiveNumber_powersOfTen : ∀ i : Fin Float.exactlyRepresentablePowersOfTen.size,
    isPositiveNumber Float.exactlyRepresentablePowersOfTen[i].toModel.unpack = true := by
  decide +kernel

theorem positive_div_of_isPositiveNumber {spec : Format} {a b : UnpackedFloat} (ha : Positive a)
    (hb : isPositiveNumber b = true) : Positive (UnpackedFloat.div spec a b) := by
  cases b with
  | finite s m e h =>
      cases s with
      | positive => exact positive_div ha
      | negative => cases hb
  | _ => cases hb

theorem positive_shape {a : UnpackedFloat} (h : Positive a) :
    (Decimal.shape (.ofModel (.pack a))).Positive :=
  Decimal.positive_shapeOfBits (positiveBits_pack h)

/-- **A natural number divided by a power of ten has the positive sign.** -/
theorem positive_ofScientific_places (m places : Nat) :
    (Decimal.shape (Float.ofScientific m true places)).Positive := by
  unfold Float.ofScientific
  split
  · rename_i hsmall
    have hlt : places < Float.exactlyRepresentablePowersOfTen.size := by
      have hsize : Float.exactlyRepresentablePowersOfTen.size = 23 := rfl
      omega
    exact positive_shape (positive_div_of_isPositiveNumber
      (positive_unpack (positiveBits_pack (positive_ofNat _)))
      (isPositiveNumber_powersOfTen ⟨places, hlt⟩))
  · exact positive_shape (positive_ofScientific m _)

/-- **A number literal has the positive sign.** -/
theorem Lexeme.positive_numberValue (lexeme : List Char) :
    (Decimal.shape (numberValue lexeme)).Positive :=
  positive_ofScientific_places _ _

/-- **Doubles with the positive sign are determined by their JSON.** -/
theorem Json.float_injective {x y : Float} (hx : (Decimal.shape x).Positive)
    (hy : (Decimal.shape y).Positive) (h : Json.float x = Json.float y) : x = y := by
  have hinfinite : ∀ {z : Float}, (Decimal.shape z).Positive → Decimal.exchangeText? z = none →
      Decimal.shape z = .infinite false := by
    intro z hz hnone
    rcases Decimal.shape_of_exchangeText?_eq_none hnone with hshape | ⟨negative, hshape⟩
    · rw [hshape] at hz
      exact hz.elim
    · rw [hshape] at hz
      cases hz
      exact hshape
  unfold Json.float at h
  cases hwx : Decimal.exchangeText? x with
  | none =>
      cases hwy : Decimal.exchangeText? y with
      | none =>
          have hshape := hinfinite hx hwx
          refine Decimal.shape_injective (hshape.trans (hinfinite hy hwy).symm) ?_
          rw [hshape]
          exact nofun
      | some w =>
          rw [hwx, hwy] at h
          cases h
  | some w =>
      cases hwy : Decimal.exchangeText? y with
      | none =>
          rw [hwx, hwy] at h
          cases h
      | some w' =>
          rw [hwx, hwy] at h
          cases h
          exact Decimal.exchangeText?_injective hwx hwy

end Scriptlet
