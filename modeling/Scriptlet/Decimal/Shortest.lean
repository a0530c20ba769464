/-
**The shortest decimal that names a binary number.**

A positive binary number is `mantissa · 2 ^ exponent`, and it stands for an interval of reals: all
those that round to it.  A decimal names the number if it lies in that interval.  This module
selects the shortest such decimal: it walks through the grids of multiples of `10 ^ k` from coarse
to fine, tests on each grid the two points next to the number, and stops at the first grid that
has a point in the interval.  Of two hits the nearer wins, and an exact tie goes by a rule the
caller chooses.  All arithmetic is exact, on natural numbers.

Main definitions:

* `Scriptlet.Decimal.Binary` — a positive binary number with its rounding interval;
* `Scriptlet.Decimal.Binary.Names` — a decimal lies in the rounding interval of a number;
* `Scriptlet.Decimal.Binary.onGrid?` — the best point of one grid, if the grid has a hit;
* `Scriptlet.Decimal.shortest` — the decimal chosen, its digits read off the coarsest grid with
  a hit.

Main results:

* `Scriptlet.Decimal.Binary.names_of_onGrid?` — the point chosen on a grid names the number;
* `Scriptlet.Decimal.shortest_names` — **the chosen decimal names the number**.
-/

set_option relaxedAutoImplicit false
set_option autoImplicit false

namespace Scriptlet.Decimal

/-- The decimal numeral `digits · 10 ^ exponent`. -/
structure Numeral where
  /-- The digits, read as one natural number. -/
  digits : Nat
  /-- The power of ten of the last digit. -/
  exponent : Int
deriving DecidableEq, Repr

/-- Where an exact tie between two decimals goes. -/
inductive Tie
  /-- To the one farther from zero. -/
  | up
  /-- To the one whose last digit is even. -/
  | even
deriving DecidableEq, Repr

/-- The positive number `mantissa · 2 ^ exponent` of a binary format. -/
structure Binary where
  /-- The mantissa, a positive number. -/
  mantissa : Nat
  /-- The power of two of the last bit. -/
  exponent : Int
  /-- Whether the next number below is only half a step away: the mantissa is the least of its
  binade and the format has a finer binade below. -/
  narrowBelow : Bool
deriving DecidableEq, Repr

namespace Binary

/-! ### The rounding interval -/

/-- Four times the mantissa, so that the ends of the interval are whole numbers too. -/
def middle (b : Binary) : Nat := 4 * b.mantissa

/-- The lower end of the rounding interval, in quarters of the last bit. -/
def lower (b : Binary) : Nat := if b.narrowBelow then b.middle - 1 else b.middle - 2

/-- The upper end of the rounding interval, in quarters of the last bit. -/
def upper (b : Binary) : Nat := b.middle + 2

/-- The ends belong to the interval exactly when the mantissa is even. -/
def inclusive (b : Binary) : Bool := b.mantissa % 2 == 0

/-- The fraction `(n, d)` with which a quarter of the last bit is `n / d` steps of the grid of
multiples of `10 ^ k`. -/
def scale (b : Binary) (k : Int) : Nat × Nat :=
  (Nat.pow 2 (b.exponent - 2).toNat * Nat.pow 10 (-k).toNat,
    Nat.pow 2 (2 - b.exponent).toNat * Nat.pow 10 k.toNat)

/-- Whether the point `i · 10 ^ k` lies in the rounding interval. -/
def contains (b : Binary) (k : Int) (i : Nat) : Bool :=
  let (n, d) := b.scale k
  if b.inclusive then decide (b.lower * n ≤ i * d) && decide (i * d ≤ b.upper * n)
  else decide (b.lower * n < i * d) && decide (i * d < b.upper * n)

/-- **A decimal names a number** if it lies in the rounding interval of the number. -/
def Names (b : Binary) (x : Numeral) : Prop := b.contains x.exponent x.digits = true

/-! ### One grid -/

/-- The point of the grid just at or below the number. -/
def floorOn (b : Binary) (k : Int) : Nat := b.middle * (b.scale k).1 / (b.scale k).2

/-- Whether the point above is the better one of two hits `i` and `i + 1`. -/
def prefersAbove (b : Binary) (tie : Tie) (k : Int) (i : Nat) : Bool :=
  let (n, d) := b.scale k
  match compare (b.middle * n - i * d) ((i + 1) * d - b.middle * n) with
  | .lt => false
  | .gt => true
  | .eq => match tie with
    | .up => true
    | .even => i % 2 == 1

/-- The best point of the grid of multiples of `10 ^ k`, if one of the two points next to the
number names it. -/
def onGrid? (b : Binary) (tie : Tie) (k : Int) : Option Numeral :=
  let i := b.floorOn k
  match b.contains k i, b.contains k (i + 1) with
  | true, true => some ⟨if b.prefersAbove tie k i then i + 1 else i, k⟩
  | true, false => some ⟨i, k⟩
  | false, true => some ⟨i + 1, k⟩
  | false, false => none

/-- The point chosen on a grid names the number. -/
theorem names_of_onGrid? {b : Binary} {tie : Tie} {k : Int} {x : Numeral}
    (h : b.onGrid? tie k = some x) : b.Names x := by
  unfold onGrid? at h
  simp only at h
  split at h
  · rename_i h₀ h₁
    obtain rfl := Option.some.inj h
    simp only [Names]
    split
    · exact h₁
    · exact h₀
  · rename_i h₀ _
    obtain rfl := Option.some.inj h
    exact h₀
  · rename_i _ h₁
    obtain rfl := Option.some.inj h
    exact h₁
  · simp at h

/-! ### From coarse grids to fine ones -/

/-- The first hit on the grids `k`, `k - 1`, …, at most `count` of them. -/
def firstHit? (b : Binary) (tie : Tie) : Nat → Int → Option Numeral
  | 0, _ => none
  | count + 1, k => (b.onGrid? tie k).or (firstHit? b tie count (k - 1))

theorem names_of_firstHit? {b : Binary} {tie : Tie} {x : Numeral} :
    ∀ {count : Nat} {k : Int}, b.firstHit? tie count k = some x → b.Names x
  | 0, _, h => by simp [firstHit?] at h
  | count + 1, k, h => by
      rw [firstHit?, Option.or_eq_some_iff] at h
      rcases h with h | ⟨_, h⟩
      · exact names_of_onGrid? h
      · exact names_of_firstHit? h

/-- The number itself as a decimal: a power of two is a power of ten over a power of five. -/
def exact (b : Binary) : Numeral :=
  ⟨b.mantissa * Nat.pow 2 b.exponent.toNat * Nat.pow 5 (-b.exponent).toNat, min b.exponent 0⟩

/-- The number of decimal digits of `n`. -/
def digitCount (n : Nat) : Nat := (Nat.toDigits 10 n).length

/-- The power of ten of the leading decimal digit. -/
def leadingExponent (b : Binary) : Int :=
  let (n, d) := b.scale 0
  let value := b.middle * n
  if d ≤ value then (digitCount (value / d) : Int) - 1
  else -(digitCount ((d - 1) / value) : Int)

end Binary

/-- **The shortest decimal that names a number**, the nearest of them, a tie going as `tie` says.
Seventeen digits name every number of 53 bits, so the exact decimal at the end is only a bound on
the walk. -/
def shortest (tie : Tie) (b : Binary) : Numeral :=
  (b.firstHit? tie 19 (b.leadingExponent + 1)).getD b.exact

/-! ### The exact decimal names the number -/

theorem Binary.contains_exact {b : Binary} (h : 0 < b.mantissa) : b.Names b.exact := by
  have hmid : 0 < b.middle := by simp only [Binary.middle]; omega
  have key : ∀ n d i : Nat, 0 < n → i * d = b.middle * n →
      (if b.inclusive then decide (b.lower * n ≤ i * d) && decide (i * d ≤ b.upper * n)
        else decide (b.lower * n < i * d) && decide (i * d < b.upper * n)) = true := by
    intro n d i hn hi
    have hl : b.lower < b.middle := by
      simp only [Binary.lower]
      split <;> omega
    have hu : b.middle < b.upper := by simp only [Binary.upper]; omega
    have h₁ : b.lower * n < i * d := by
      rw [hi]; exact Nat.mul_lt_mul_of_pos_right hl hn
    have h₂ : i * d < b.upper * n := by
      rw [hi]; exact Nat.mul_lt_mul_of_pos_right hu hn
    split <;> simp [h₁, h₂, Nat.le_of_lt h₁, Nat.le_of_lt h₂]
  unfold Binary.Names Binary.contains
  simp only
  refine key _ _ _ ?_ ?_
  · simp only [Binary.scale, Nat.pow_eq]
    exact Nat.mul_pos (Nat.pow_pos (by omega)) (Nat.pow_pos (by omega))
  · simp only [Binary.scale, Binary.exact, Binary.middle, Nat.pow_eq]
    rcases Int.lt_or_le b.exponent 0 with hneg | hpos
    · obtain ⟨k, hk⟩ : ∃ k : Nat, b.exponent = -((k : Int) + 1) :=
        ⟨(-b.exponent - 1).toNat, by omega⟩
      have e₁ : min b.exponent 0 = -((k : Int) + 1) := by omega
      have e₂ : (b.exponent - 2).toNat = 0 := by omega
      have e₃ : (2 - b.exponent).toNat = k + 3 := by omega
      have e₄ : b.exponent.toNat = 0 := by omega
      have e₅ : (-b.exponent).toNat = k + 1 := by omega
      have e₆ : (- -((k : Int) + 1)).toNat = k + 1 := by omega
      have e₇ : (-((k : Int) + 1)).toNat = 0 := by omega
      have ten : (10 : Nat) ^ (k + 1) = 2 ^ (k + 1) * 5 ^ (k + 1) := by rw [← Nat.mul_pow]
      rw [e₁, e₂, e₃, e₄, e₅, e₆, e₇, ten, show k + 3 = (k + 1) + 2 from rfl,
        Nat.pow_add 2 (k + 1) 2]
      simp [Nat.mul_comm, Nat.mul_left_comm, Nat.mul_assoc]
    · have e₁ : min b.exponent 0 = 0 := by omega
      have e₅ : (-b.exponent).toNat = 0 := by omega
      rw [e₁, e₅]
      rcases Int.lt_or_le b.exponent 2 with h2 | h2
      · have hb : b.exponent = 0 ∨ b.exponent = 1 := by omega
        rcases hb with hb | hb <;> simp [hb, Nat.mul_comm, Nat.mul_left_comm]
      · obtain ⟨k, hk⟩ : ∃ k : Nat, b.exponent = (k : Int) + 2 := ⟨(b.exponent - 2).toNat, by omega⟩
        have e₂ : (b.exponent - 2).toNat = k := by omega
        have e₃ : (2 - b.exponent).toNat = 0 := by omega
        have e₄ : b.exponent.toNat = k + 2 := by omega
        rw [e₂, e₃, e₄, Nat.pow_add]
        simp [Nat.mul_comm, Nat.mul_left_comm]

/-- **The chosen decimal names the number.** -/
theorem shortest_names {tie : Tie} {b : Binary} (h : 0 < b.mantissa) :
    b.Names (shortest tie b) := by
  unfold shortest
  cases hit : b.firstHit? tie 19 (b.leadingExponent + 1) with
  | none => exact Binary.contains_exact h
  | some x => exact Binary.names_of_firstHit? hit

end Scriptlet.Decimal
