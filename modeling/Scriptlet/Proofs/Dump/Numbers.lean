/-
**The text of a number determines the number.**

A finite double is written as a JSON number, and the decimal that it denotes is the one that was
chosen for the double.  That decimal lies in the rounding interval of the double.  Two doubles of one
sign have no decimal in common: the intervals of neighbours touch at one point at most, and of two
neighbours only one has an even mantissa and takes the point.  So the text determines the double.

Main definitions:

* `Scriptlet.Json.magnitude` — the number that the text of a number without sign denotes;
* `Scriptlet.Decimal.Numeral.value` — the number that a numeral denotes;
* `Scriptlet.Decimal.Binary.Canonical` — the magnitudes of finite doubles.

Main results:

* `Scriptlet.Decimal.magnitude_write` — a numeral is written as the number that it denotes;
* `Scriptlet.Decimal.Binary.Canonical.eq_of_names` — **a decimal names one double at most**;
* `Scriptlet.Decimal.isNumber_of_exchangeText?` — the text of a finite double is a JSON number;
* `Scriptlet.Decimal.exchangeText?_injective` — **it is the text of that double alone.**
-/

import Mathlib
import Scriptlet.Decimal.Layout
import Scriptlet.Proofs.Dump.Grammar

set_option relaxedAutoImplicit false
set_option autoImplicit false

namespace Scriptlet

/-! ### Natural numbers -/

/-- The digits of a positive number do not begin with a zero. -/
theorem toDigits_of_pos {n : Nat} (h : 0 < n) :
    ∃ d ds, Nat.toDigits 10 n = d :: ds ∧ d ≠ '0' := by
  induction n using Nat.strong_induction_on with
  | _ n ih =>
      rw [Nat.toDigits_eq_if (by decide)]
      split
      · rename_i hlt
        refine ⟨_, [], rfl, ?_⟩
        have hdigit : ∀ m < 10, 0 < m → m.digitChar ≠ '0' := by decide
        exact hdigit n hlt h
      · obtain ⟨d, ds, hds, hd⟩ := ih (n / 10) (by omega) (by omega)
        exact ⟨d, _, by rw [hds]; rfl, hd⟩

theorem digits_toDigits (n : Nat) : Json.Digits (Nat.toDigits 10 n) :=
  ⟨Nat.toDigits_ne_nil, fun _ hc => Nat.isDigit_of_mem_toDigits (by decide) (by decide) hc⟩

theorem whole_toDigits (n : Nat) : Json.Whole (Nat.toDigits 10 n) := by
  rcases Nat.eq_zero_or_pos n with rfl | hn
  · exact .zero
  · obtain ⟨d, ds, hds, hd⟩ := toDigits_of_pos hn
    have hdigits := digits_toDigits n
    rw [hds] at hdigits ⊢
    exact .digits hd hdigits

/-- **A natural number is determined by its text.** -/
theorem Json.nat_injective {m n : Nat} (h : Json.nat m = Json.nat n) : m = n := by
  have hdigits := congrArg (Nat.ofDigitChars 10 · 0) (String.ofList_injective (Json.number.inj h))
  simpa using hdigits

theorem Json.isNumber_toDigits (n : Nat) : IsNumber (String.ofList (Nat.toDigits 10 n)).toList := by
  have hnumber := IsNumber.plain (.mk (whole_toDigits n) .none .none)
  rwa [List.append_nil, List.append_nil, ← String.toList_ofList (l := Nat.toDigits 10 n)] at hnumber

/-! ### What the text of a number denotes -/

namespace Json

/-- The number that an exponent denotes, behind its letter. -/
def power : List Char → Int
  | '+' :: ds => Nat.ofDigitChars 10 ds 0
  | '-' :: ds => -Nat.ofDigitChars 10 ds 0
  | ds => Nat.ofDigitChars 10 ds 0

/-- The digits of a text with a point or without one. -/
def allDigits (cs : List Char) : List Char :=
  cs.takeWhile (· != '.') ++ (cs.dropWhile (· != '.')).drop 1

/-- The number of digits behind the point. -/
def placeCount (cs : List Char) : Nat := ((cs.dropWhile (· != '.')).drop 1).length

/-- **The number that a text without sign denotes**: its digits, moved by its places and its
exponent. -/
def magnitude (cs : List Char) : ℚ :=
  Nat.ofDigitChars 10 (allDigits (cs.takeWhile (· != 'e'))) 0 *
    (10 : ℚ) ^ (power ((cs.dropWhile (· != 'e')).drop 1) - placeCount (cs.takeWhile (· != 'e')))

/-- A text up to the first of certain characters. -/
theorem takeWhile_ne {d : Char} {cs : List Char} (h : ∀ c ∈ cs, c ≠ d) (rest : List Char) :
    (cs ++ d :: rest).takeWhile (· != d) = cs ∧ (cs ++ d :: rest).dropWhile (· != d) = d :: rest := by
  have hcs : ∀ c ∈ cs, (c != d) = true := fun c hc => bne_iff_ne.2 (h c hc)
  rw [List.takeWhile_append_of_pos hcs, List.dropWhile_append_of_pos hcs]
  simp

theorem takeWhile_all {d : Char} {cs : List Char} (h : ∀ c ∈ cs, c ≠ d) :
    cs.takeWhile (· != d) = cs ∧ cs.dropWhile (· != d) = [] := by
  have hcs : ∀ c ∈ cs, (c != d) = true := fun c hc => bne_iff_ne.2 (h c hc)
  have htake : (cs ++ []).takeWhile (· != d) = cs ++ [] := List.takeWhile_append_of_pos hcs
  have hdrop : (cs ++ []).dropWhile (· != d) = [] := List.dropWhile_append_of_pos hcs
  rw [List.append_nil] at htake hdrop
  exact ⟨htake, hdrop⟩

section Parts

variable {whole places mantissa : List Char}

theorem allDigits_point (h : ∀ c ∈ whole, c.isDigit = true) (places : List Char) :
    allDigits (whole ++ '.' :: places) = whole ++ places ∧
      placeCount (whole ++ '.' :: places) = places.length := by
  have hpoint : ∀ c ∈ whole, c ≠ '.' := by
    rintro c hc rfl
    cases h _ hc
  unfold allDigits placeCount
  rw [(takeWhile_ne hpoint places).1, (takeWhile_ne hpoint places).2]
  exact ⟨rfl, rfl⟩

theorem allDigits_whole (h : ∀ c ∈ whole, c.isDigit = true) :
    allDigits whole = whole ∧ placeCount whole = 0 := by
  have hpoint : ∀ c ∈ whole, c ≠ '.' := by
    rintro c hc rfl
    cases h _ hc
  unfold allDigits placeCount
  rw [(takeWhile_all hpoint).1, (takeWhile_all hpoint).2]
  exact ⟨List.append_nil _, rfl⟩

theorem magnitude_plain (h : ∀ c ∈ mantissa, c ≠ 'e') :
    magnitude mantissa =
      Nat.ofDigitChars 10 (allDigits mantissa) 0 * (10 : ℚ) ^ (-placeCount mantissa : ℤ) := by
  unfold magnitude
  rw [(takeWhile_all h).1, (takeWhile_all h).2, List.drop_nil]
  simp [power]

theorem magnitude_exponent (h : ∀ c ∈ mantissa, c ≠ 'e') (exponent : List Char) :
    magnitude (mantissa ++ 'e' :: exponent) = Nat.ofDigitChars 10 (allDigits mantissa) 0 *
      (10 : ℚ) ^ (power exponent - placeCount mantissa) := by
  unfold magnitude
  rw [(takeWhile_ne h exponent).1, (takeWhile_ne h exponent).2]
  rfl

theorem ne_e_of_isDigit (h : ∀ c ∈ whole, c.isDigit = true) : ∀ c ∈ whole, c ≠ 'e' := by
  rintro c hc rfl
  cases h _ hc

theorem ne_e_point (hw : ∀ c ∈ whole, c.isDigit = true) (hp : ∀ c ∈ places, c.isDigit = true) :
    ∀ c ∈ whole ++ '.' :: places, c ≠ 'e' :=
  List.forall_mem_append.2 ⟨ne_e_of_isDigit hw,
    List.forall_mem_cons.2 ⟨by decide, ne_e_of_isDigit hp⟩⟩

end Parts

end Json

namespace Decimal

open Json (magnitude magnitude_plain magnitude_exponent allDigits_point allDigits_whole ne_e_point
  ne_e_of_isDigit)

/-! ### Numerals as they are written -/

/-- **The number that a numeral denotes.** -/
def Numeral.value (x : Numeral) : ℚ := x.digits * (10 : ℚ) ^ x.exponent

theorem ofDigitChars_zeros (ds : List Char) (n : Nat) :
    Nat.ofDigitChars 10 (ds ++ List.replicate n '0') 0 = Nat.ofDigitChars 10 ds 0 * 10 ^ n := by
  rw [Nat.ofDigitChars_append, Nat.ofDigitChars_replicate_zero, Nat.mul_comm]

theorem isDigit_zeros (n : Nat) : ∀ c ∈ List.replicate n '0', c.isDigit = true := by
  intro c hc
  rw [List.eq_of_mem_replicate hc]
  rfl

/-- Digits with a point between them denote the number of all digits, moved by the places. -/
theorem magnitude_digits {whole places : List Char} (hw : Json.Whole whole)
    (hp : Json.Digits places) :
    Json.Unsigned (whole ++ '.' :: places) ∧ magnitude (whole ++ '.' :: places) =
      Nat.ofDigitChars 10 (whole ++ places) 0 * (10 : ℚ) ^ (-places.length : ℤ) := by
  have hwhole := hw.isDigits.isDigit
  refine ⟨?_, ?_⟩
  · have hnumber := Json.Unsigned.mk hw (.some hp) .none
    rwa [List.append_nil] at hnumber
  · rw [magnitude_plain (ne_e_point hwhole hp.isDigit), (allDigits_point hwhole places).1,
      (allDigits_point hwhole places).2]

/-- The digits of a numeral with zeros in front, so that there is one more than the places. -/
theorem whole_padded {n : Nat} (hn : 0 < n) {places : Nat} (hplaces : 0 < places)
    {padded : List Char}
    (h : padded = List.replicate (places + 1 - (Nat.toDigits 10 n).length) '0' ++ Nat.toDigits 10 n) :
    Json.Whole (padded.take (padded.length - places)) ∧
      Json.Digits (padded.drop (padded.length - places)) ∧
      (padded.drop (padded.length - places)).length = places := by
  obtain ⟨d, ds, hds, hd⟩ := toDigits_of_pos hn
  have hlength : padded.length = max (places + 1) (Nat.toDigits 10 n).length := by
    rw [h, List.length_append, List.length_replicate]
    omega
  have hall : ∀ c ∈ padded, c.isDigit = true := by
    rw [h]
    exact List.forall_mem_append.2 ⟨isDigit_zeros _, (digits_toDigits n).isDigit⟩
  have hdrop : (padded.drop (padded.length - places)).length = places := by
    rw [List.length_drop]
    omega
  refine ⟨?_, ⟨?_, fun c hc => hall c (List.mem_of_mem_drop hc)⟩, hdrop⟩
  · rcases Nat.lt_or_ge places (Nat.toDigits 10 n).length with hlong | hshort
    · -- no zeros in front, and the first digit is none
      have hzeros : places + 1 - (Nat.toDigits 10 n).length = 0 := by omega
      rw [hzeros, List.replicate_zero, List.nil_append, hds] at h
      obtain ⟨k, hk⟩ : ∃ k, padded.length - places = k + 1 := ⟨padded.length - places - 1, by omega⟩
      rw [hk]
      rw [h] at hall ⊢
      have htake : ∀ c ∈ (d :: ds).take (k + 1), c.isDigit = true :=
        fun c hc => hall c (List.mem_of_mem_take hc)
      exact .digits hd ⟨List.cons_ne_nil _ _, htake⟩
    · -- a single zero in front of the point
      obtain ⟨k, hk⟩ : ∃ k, places + 1 - (Nat.toDigits 10 n).length = k + 1 :=
        ⟨places - (Nat.toDigits 10 n).length, by omega⟩
      have hone : padded.length - places = 1 := by omega
      rw [hone, h, hk]
      exact .zero
  · intro hnil
    rw [hnil, List.length_nil] at hdrop
    omega

/-- A numeral written with a point is a number and denotes what the numeral does. -/
theorem magnitude_point {x : Numeral} (hx : 0 < x.digits) :
    Json.Unsigned (Layout.point true (Nat.toDigits 10 x.digits) x.exponent) ∧
      magnitude (Layout.point true (Nat.toDigits 10 x.digits) x.exponent) = x.value := by
  obtain ⟨n, e⟩ := x
  have hvalue := Nat.ofDigitChars_ten_toDigits (n := n)
  simp only [Layout.point, Numeral.value]
  split
  · rename_i he
    obtain ⟨d, ds, hds, hd⟩ := toDigits_of_pos hx
    have hwhole : Json.Whole (Nat.toDigits 10 n ++ List.replicate e.toNat '0') := by
      have hdigits : ∀ c ∈ Nat.toDigits 10 n ++ List.replicate e.toNat '0', c.isDigit = true :=
        List.forall_mem_append.2 ⟨(digits_toDigits n).isDigit, isDigit_zeros _⟩
      rw [hds] at hdigits ⊢
      exact .digits hd ⟨List.cons_ne_nil _ _, hdigits⟩
    refine (magnitude_digits hwhole Json.digits_zero).imp_right fun hmagnitude => hmagnitude.trans ?_
    have hzeros := ofDigitChars_zeros (Nat.toDigits 10 n ++ List.replicate e.toNat '0') 1
    rw [List.replicate_one, ofDigitChars_zeros, hvalue] at hzeros
    rw [hzeros]
    obtain ⟨k, rfl⟩ := Int.eq_ofNat_of_zero_le he
    push_cast
    simp
  · rename_i he
    have hpositive : 0 < (-e).toNat := by omega
    obtain ⟨hwhole, hplaces, hlength⟩ := whole_padded hx hpositive rfl
    refine (magnitude_digits hwhole hplaces).imp_right fun hmagnitude => hmagnitude.trans ?_
    rw [hlength, List.take_append_drop, Nat.ofDigitChars_append, Nat.ofDigitChars_replicate_zero,
      Nat.mul_zero, hvalue, Int.toNat_of_nonneg (by omega), Int.neg_neg]

/-- An exponent with its sign. -/
theorem power_signed (e : Int) :
    Json.power ((if 0 ≤ e then '+' else '-') :: Nat.toDigits 10 e.natAbs) = e := by
  split
  · rw [Json.power, Nat.ofDigitChars_ten_toDigits]
    omega
  · rw [Json.power, Nat.ofDigitChars_ten_toDigits]
    omega

theorem exponent_signed (e : Int) :
    Json.Exponent ('e' :: (if 0 ≤ e then '+' else '-') :: Nat.toDigits 10 e.natAbs) := by
  refine .signed (.inl rfl) ?_ (digits_toDigits _)
  split
  · exact .inl rfl
  · exact .inr rfl

/-- A numeral written with an exponent is a number and denotes what the numeral does. -/
theorem magnitude_scientific {x : Numeral} (hx : 0 < x.digits) {leading : Int}
    (hleading : leading = x.exponent + (Nat.toDigits 10 x.digits).length - 1) :
    Json.Unsigned (Layout.scientific (Nat.toDigits 10 x.digits) leading) ∧
      magnitude (Layout.scientific (Nat.toDigits 10 x.digits) leading) = x.value := by
  obtain ⟨n, e⟩ := x
  have hvalue := Nat.ofDigitChars_ten_toDigits (n := n)
  have hdigits := digits_toDigits n
  obtain ⟨d, ds, hds, hd⟩ := toDigits_of_pos hx
  simp only [hds] at hleading hvalue hdigits ⊢
  have hfirst : Json.Digits [d] :=
    ⟨List.cons_ne_nil _ _, List.forall_mem_singleton.2 (hdigits.isDigit d List.mem_cons_self)⟩
  have hwhole : Json.Whole [d] := .digits hd hfirst
  unfold Layout.scientific Numeral.value
  cases ds with
  | nil =>
      refine ⟨?_, ?_⟩
      · have hnumber := Json.Unsigned.mk hwhole .none (exponent_signed leading)
        rwa [List.append_nil] at hnumber
      · obtain ⟨hall, hcount⟩ := allDigits_whole hfirst.isDigit
        dsimp only
        rw [magnitude_exponent (ne_e_of_isDigit hfirst.isDigit), hall, hcount, hvalue, power_signed,
          hleading]
        simp
  | cons d' ds =>
      have hplaces : Json.Digits (d' :: ds) :=
        ⟨List.cons_ne_nil _ _, fun c hc => hdigits.isDigit c (List.mem_cons_of_mem _ hc)⟩
      refine ⟨Json.Unsigned.mk hwhole (.some hplaces) (exponent_signed leading), ?_⟩
      obtain ⟨hall, hcount⟩ := allDigits_point hfirst.isDigit (d' :: ds)
      have hmagnitude := magnitude_exponent (ne_e_point hfirst.isDigit hplaces.isDigit)
        ((if 0 ≤ leading then '+' else '-') :: Nat.toDigits 10 leading.natAbs)
      have hjoin : [d] ++ d' :: ds = d :: d' :: ds := rfl
      rw [hall, hcount, hjoin, hvalue, power_signed] at hmagnitude
      refine hmagnitude.trans ?_
      rw [hleading]
      congr 2
      simp only [List.length_cons]
      omega

/-- **A numeral in exchanged data is a number without sign, and denotes what the numeral does.** -/
theorem magnitude_write {x : Numeral} (hx : 0 < x.digits) :
    Json.Unsigned (exchange.write x) ∧ magnitude (exchange.write x) = x.value := by
  unfold Layout.write
  dsimp only
  split
  · exact magnitude_point hx
  · exact magnitude_scientific hx rfl

/-! ### Rounding intervals -/

namespace Binary

/-- A quarter of the last bit. -/
def quarter (b : Binary) : ℚ := (2 : ℚ) ^ (b.exponent - 2)

theorem quarter_pos (b : Binary) : 0 < b.quarter := zpow_pos (by norm_num) _

theorem pow_toNat {x : ℚ} (hx : x ≠ 0) (a : ℤ) :
    x ^ a.toNat = x ^ a * x ^ (-a).toNat := by
  rcases Int.le_total 0 a with h | h
  · obtain ⟨k, rfl⟩ := Int.eq_ofNat_of_zero_le h
    have hneg : (-(k : ℤ)).toNat = 0 := by omega
    simp [hneg]
  · obtain ⟨k, hk⟩ := Int.eq_ofNat_of_zero_le (Int.neg_nonneg_of_nonpos h)
    obtain rfl : a = -(k : ℤ) := by omega
    simp [hx]

/-- A quarter of the last bit in steps of a grid. -/
theorem scale_eq (b : Binary) (k : ℤ) :
    0 < (b.scale k).2 ∧ ((b.scale k).1 : ℚ) * (10 : ℚ) ^ k = b.quarter * ((b.scale k).2 : ℚ) := by
  refine ⟨Nat.mul_pos (Nat.pow_pos (by decide)) (Nat.pow_pos (by decide)), ?_⟩
  have htwo := pow_toNat (x := 2) (by norm_num) (b.exponent - 2)
  have hten := pow_toNat (x := 10) (by norm_num) k
  have hneg : -(b.exponent - 2) = 2 - b.exponent := by omega
  rw [hneg] at htwo
  simp only [scale, quarter, Nat.pow_eq]
  push_cast
  rw [htwo, hten]
  ring

/-- **The numbers that round to a double.** -/
structure Rounds (b : Binary) (v : ℚ) : Prop where
  lower : b.lower * b.quarter ≤ v
  upper : v ≤ b.upper * b.quarter
  /-- An end of the interval rounds to the double only if its mantissa is even. -/
  ends : b.inclusive = false → b.lower * b.quarter < v ∧ v < b.upper * b.quarter

section Grid

variable (b : Binary) (k : ℤ) (m i : ℕ)

/-- A point of a grid, compared with a number of quarters, in steps of the grid. -/
theorem grid_eq : (m : ℚ) * b.quarter * (b.scale k).2 = ((m * (b.scale k).1 : ℕ) : ℚ) * (10 : ℚ) ^ k ∧
    (i : ℚ) * (10 : ℚ) ^ k * (b.scale k).2 = ((i * (b.scale k).2 : ℕ) : ℚ) * (10 : ℚ) ^ k := by
  have hscale := (b.scale_eq k).2
  push_cast
  refine ⟨?_, by ring⟩
  rw [mul_assoc, ← hscale]
  ring

theorem grid_le : (m : ℚ) * b.quarter ≤ i * (10 : ℚ) ^ k ↔
    m * (b.scale k).1 ≤ i * (b.scale k).2 := by
  have hpos : (0 : ℚ) < (b.scale k).2 := by exact_mod_cast (b.scale_eq k).1
  have hten : (0 : ℚ) < (10 : ℚ) ^ k := zpow_pos (by norm_num) _
  rw [← mul_le_mul_iff_of_pos_right hpos, (b.grid_eq k m i).1, (b.grid_eq k m i).2,
    mul_le_mul_iff_of_pos_right hten, Nat.cast_le]

theorem le_grid : (i : ℚ) * (10 : ℚ) ^ k ≤ m * b.quarter ↔
    i * (b.scale k).2 ≤ m * (b.scale k).1 := by
  have hpos : (0 : ℚ) < (b.scale k).2 := by exact_mod_cast (b.scale_eq k).1
  have hten : (0 : ℚ) < (10 : ℚ) ^ k := zpow_pos (by norm_num) _
  rw [← mul_le_mul_iff_of_pos_right hpos, (b.grid_eq k m i).1, (b.grid_eq k m i).2,
    mul_le_mul_iff_of_pos_right hten, Nat.cast_le]

end Grid

/-- A numeral names a double if the number that it denotes rounds to it. -/
theorem rounds_of_names {b : Binary} {x : Numeral} (h : b.Names x) : b.Rounds x.value := by
  unfold Names contains at h
  dsimp only at h
  split at h
  · rename_i hinclusive
    simp only [Bool.and_eq_true, decide_eq_true_eq] at h
    exact ⟨(b.grid_le _ _ _).2 h.1, (b.le_grid _ _ _).2 h.2, fun hnot => by simp [hinclusive] at hnot⟩
  · simp only [Bool.and_eq_true, decide_eq_true_eq] at h
    have hlower : b.lower * b.quarter < x.value :=
      lt_of_not_ge fun hge => absurd ((b.le_grid _ _ _).1 hge) (Nat.not_le_of_lt h.1)
    have hupper : x.value < b.upper * b.quarter :=
      lt_of_not_ge fun hge => absurd ((b.grid_le _ _ _).1 hge) (Nat.not_le_of_lt h.2)
    exact ⟨hlower.le, hupper.le, fun _ => ⟨hlower, hupper⟩⟩

/-- **The magnitudes of finite doubles**: those below the least binade, and those with a full
mantissa. -/
structure Canonical (b : Binary) : Prop where
  pos : 0 < b.mantissa
  lt : b.mantissa < 2 ^ 53
  least : -1074 ≤ b.exponent
  full : -1074 < b.exponent → 2 ^ 52 ≤ b.mantissa
  narrow : b.narrowBelow = true ↔ b.mantissa = 2 ^ 52 ∧ -1074 < b.exponent

section Neighbours

variable {b b' : Binary}

theorem inclusive_eq_false (h : b.mantissa % 2 = 1) : b.inclusive = false := by
  simp [inclusive, h]

/-- The interval of a double is below that of a greater one, and they share an end at most if only
one of them has it. -/
theorem Canonical.below (h : b.Canonical) (h' : b'.Canonical)
    (hlt : b.exponent < b'.exponent ∨ b.exponent = b'.exponent ∧ b.mantissa < b'.mantissa) :
    b.upper * b.quarter ≤ b'.lower * b'.quarter ∧
      (b.upper * b.quarter = b'.lower * b'.quarter → b.inclusive = false ∨ b'.inclusive = false) := by
  have hq := b.quarter_pos
  have hpos := h'.pos
  rcases hlt with hexponent | ⟨hexponent, hmantissa⟩
  · -- the greater one has a full mantissa, and its quarters are twice as long at least
    have hm := h.lt
    have hfull := h'.full (Int.lt_of_le_of_lt h.least hexponent)
    have hnarrow := h'.narrow
    have hlower : 2 ^ 54 - 1 ≤ b'.lower := by
      unfold lower middle
      split
      · omega
      · rename_i hnot
        have hne : b'.mantissa ≠ 2 ^ 52 := fun he =>
          hnot (hnarrow.2 ⟨he, Int.lt_of_le_of_lt h.least hexponent⟩)
        omega
    have htwice : 2 * b.quarter ≤ b'.quarter := by
      have hstep : (2 : ℚ) ^ (b.exponent - 2 + 1) ≤ (2 : ℚ) ^ (b'.exponent - 2) :=
        zpow_le_zpow_right₀ (by norm_num) (by omega)
      rw [zpow_add_one₀ (by norm_num)] at hstep
      unfold quarter
      linarith
    have hupper : (b.upper : ℚ) ≤ 2 ^ 55 - 2 := by
      have hnat : b.upper + 2 ≤ 2 ^ 55 := by
        unfold upper middle
        omega
      have hcast : (b.upper : ℚ) + 2 ≤ 2 ^ 55 := by exact_mod_cast hnat
      linarith
    have hlower' : (2 : ℚ) ^ 54 - 1 ≤ b'.lower := by
      have hnat : 2 ^ 54 ≤ b'.lower + 1 := by omega
      have hcast : (2 : ℚ) ^ 54 ≤ b'.lower + 1 := by exact_mod_cast hnat
      linarith
    have hleft : b.upper * b.quarter ≤ (2 ^ 55 - 2) * b.quarter :=
      mul_le_mul_of_nonneg_right hupper hq.le
    have hright : (2 ^ 54 - 1) * (2 * b.quarter) ≤ b'.lower * b'.quarter :=
      mul_le_mul hlower' htwice (by linarith) (Nat.cast_nonneg _)
    have hmiddle : (2 ^ 55 - 2) * b.quarter = (2 ^ 54 - 1) * (2 * b.quarter) := by ring
    refine ⟨by linarith, fun heq => .inl (inclusive_eq_false ?_)⟩
    -- only the greatest mantissa reaches the end of its binade
    have hend : (b.upper : ℚ) * b.quarter = (2 ^ 55 - 2) * b.quarter := by linarith
    have hend : (b.upper : ℚ) + 2 = 2 ^ 55 := by
      linarith [mul_right_cancel₀ hq.ne' hend]
    have hnat : b.upper + 2 = 2 ^ 55 := by exact_mod_cast hend
    unfold upper middle at hnat
    omega
  · have hquarter : b'.quarter = b.quarter := by rw [quarter, quarter, hexponent]
    have hle : b.upper ≤ b'.lower := by
      unfold upper lower middle
      split <;> omega
    rw [hquarter]
    refine ⟨mul_le_mul_of_nonneg_right (by exact_mod_cast hle) hq.le, fun heq => ?_⟩
    have hnat : b.upper = b'.lower := by exact_mod_cast mul_right_cancel₀ hq.ne' heq
    unfold upper lower middle at hnat
    rcases Nat.mod_two_eq_zero_or_one b.mantissa with heven | hodd
    · refine .inr (inclusive_eq_false ?_)
      split at hnat <;> omega
    · exact .inl (inclusive_eq_false hodd)

theorem not_rounds_of_below (h : b.Canonical) (h' : b'.Canonical)
    (hlt : b.exponent < b'.exponent ∨ b.exponent = b'.exponent ∧ b.mantissa < b'.mantissa) {v : ℚ}
    (hv : b.Rounds v) : ¬b'.Rounds v := by
  intro hv'
  obtain ⟨hle, hends⟩ := h.below h' hlt
  have heq : b.upper * b.quarter = b'.lower * b'.quarter :=
    le_antisymm hle (hv'.lower.trans hv.upper)
  rcases hends heq with hnot | hnot
  · have hlt := (hv.ends hnot).2
    linarith [hv'.lower]
  · have hlt := (hv'.ends hnot).1
    linarith [hv.upper]

/-- **A number rounds to one double at most.** -/
theorem Canonical.eq_of_rounds (h : b.Canonical) (h' : b'.Canonical) {v : ℚ} (hv : b.Rounds v)
    (hv' : b'.Rounds v) : b = b' := by
  have hexponent : b.exponent = b'.exponent := by
    rcases Int.lt_trichotomy b.exponent b'.exponent with hlt | heq | hgt
    · exact absurd hv' (not_rounds_of_below h h' (.inl hlt) hv)
    · exact heq
    · exact absurd hv (not_rounds_of_below h' h (.inl hgt) hv')
  have hmantissa : b.mantissa = b'.mantissa := by
    rcases Nat.lt_trichotomy b.mantissa b'.mantissa with hlt | heq | hgt
    · exact absurd hv' (not_rounds_of_below h h' (.inr ⟨hexponent, hlt⟩) hv)
    · exact heq
    · exact absurd hv (not_rounds_of_below h' h (.inr ⟨hexponent.symm, hgt⟩) hv')
  have hnarrow : b.narrowBelow = b'.narrowBelow := by
    rw [Bool.eq_iff_iff, h.narrow, h'.narrow, hexponent, hmantissa]
  obtain ⟨m, e, narrow⟩ := b
  obtain ⟨m', e', narrow'⟩ := b'
  cases hexponent
  cases hmantissa
  cases hnarrow
  rfl

/-- **A decimal names one double at most.** -/
theorem Canonical.eq_of_names (h : b.Canonical) (h' : b'.Canonical) {x y : Numeral}
    (hx : b.Names x) (hy : b'.Names y) (hvalue : x.value = y.value) : b = b' :=
  h.eq_of_rounds h' (rounds_of_names hx) (hvalue ▸ rounds_of_names hy)

end Neighbours

end Binary

/-! ### Doubles -/

/-- The bits of a double that is not `NaN`. -/
def Shape.bits : Shape → Nat
  | .nan => 0
  | .infinite negative => (if negative then 2 ^ 63 else 0) + 2047 * 2 ^ 52
  | .zero negative => if negative then 2 ^ 63 else 0
  | .finite negative b =>
      (if negative then 2 ^ 63 else 0) + if b.mantissa < 2 ^ 52 then b.mantissa
        else (b.exponent + 1075).toNat * 2 ^ 52 + (b.mantissa - 2 ^ 52)

/-- **What a double is, apart from `NaN`, tells its bits.** -/
theorem bits_shapeOfBits {n : Nat} (hn : n < 2 ^ 64) (h : shapeOfBits n ≠ .nan) :
    (shapeOfBits n).bits = n := by
  have hsign : (if decide (2 ^ 63 ≤ n) = true then 2 ^ 63 else 0) = n / 2 ^ 63 * 2 ^ 63 := by
    simp only [decide_eq_true_eq]
    split <;> omega
  unfold shapeOfBits at h ⊢
  simp only [Nat.pow_eq] at h ⊢
  split
  · split
    · simp only [Shape.bits, hsign]
      omega
    · rename_i hexponent hfraction
      simp [hexponent, hfraction] at h
  · split
    · split
      · simp only [Shape.bits, hsign]
        omega
      · dsimp only [Shape.bits]
        rw [hsign, if_pos (by omega)]
        omega
    · dsimp only [Shape.bits]
      rw [hsign, if_neg (by omega)]
      omega

theorem canonical_of_shapeOfBits {n : Nat} {negative : Bool} {b : Binary}
    (h : shapeOfBits n = .finite negative b) : b.Canonical := by
  unfold shapeOfBits at h
  simp only [Nat.pow_eq] at h
  split at h
  · split at h <;> cases h
  · split at h
    · split at h
      · cases h
      · cases h
        constructor <;> simp only [Bool.false_eq_true, false_iff] <;> omega
    · cases h
      constructor <;> simp only [Bool.and_eq_true, decide_eq_true_eq] <;> omega

/-- **A double that is not `NaN` is determined by what it is.** -/
theorem shape_injective {x y : Float} (h : shape x = shape y) (hx : shape x ≠ .nan) : x = y := by
  have hbits := bits_shapeOfBits x.toBits.toNat_lt hx
  have hbits' := bits_shapeOfBits y.toBits.toNat_lt (h ▸ hx : shape y ≠ .nan)
  refine Float.toBits_inj.1 (UInt64.toNat_inj.1 ?_)
  rw [← hbits, ← hbits']
  exact congrArg Shape.bits h

/-- The decimal chosen for a double has digits, and it is written as a number. -/
theorem Binary.Canonical.magnitude_write {b : Binary} (h : b.Canonical) (tie : Tie) :
    0 < (shortest tie b).value ∧ Json.Unsigned (exchange.write (shortest tie b)) ∧
      magnitude (exchange.write (shortest tie b)) = (shortest tie b).value := by
  have hnames : b.Names (shortest tie b) := shortest_names h.pos
  have hrounds := Binary.rounds_of_names hnames
  have hlower : 0 < b.lower := by
    have hpos := h.pos
    unfold Binary.lower Binary.middle
    split <;> omega
  have hvalue : 0 < (shortest tie b).value :=
    lt_of_lt_of_le (mul_pos (by exact_mod_cast hlower) b.quarter_pos) hrounds.lower
  have hdigits : 0 < (shortest tie b).digits := by
    refine Nat.pos_of_ne_zero fun hzero => ?_
    rw [Numeral.value, hzero] at hvalue
    simp at hvalue
  exact ⟨hvalue, Decimal.magnitude_write hdigits⟩

/-- The text of a finite double without its sign. -/
inductive Exchanged : Shape → Bool → List Char → Prop
  | zero (negative : Bool) : Exchanged (.zero negative) negative ['0', '.', '0']
  | finite (negative : Bool) {b : Binary} : b.Canonical →
      Exchanged (.finite negative b) negative (exchange.write (shortest exchange.tie b))

theorem magnitude_zero : Json.Unsigned ['0', '.', '0'] ∧ magnitude ['0', '.', '0'] = 0 := by
  refine (magnitude_digits .zero Json.digits_zero).imp_right fun h => h.trans ?_
  simp [Nat.ofDigitChars_cons]

namespace Exchanged

variable {s s' : Shape} {negative negative' : Bool} {cs : List Char}

theorem unsigned (h : Exchanged s negative cs) : Json.Unsigned cs := by
  cases h with
  | zero => exact magnitude_zero.1
  | finite _ hb => exact (hb.magnitude_write _).2.1

/-- **A text without sign is that of one magnitude.** -/
theorem unique (h : Exchanged s negative cs) (h' : Exchanged s' negative cs) : s = s' := by
  generalize hcs : cs = ds at h'
  cases h with
  | zero =>
      cases h' with
      | zero => rfl
      | finite _ hb' =>
          obtain ⟨hpos, -, hvalue⟩ := hb'.magnitude_write exchange.tie
          rw [← hcs, magnitude_zero.2] at hvalue
          exact absurd hpos (hvalue ▸ lt_irrefl _)
  | finite _ hb =>
      obtain ⟨hpos, -, hvalue⟩ := hb.magnitude_write exchange.tie
      cases h' with
      | zero =>
          rw [hcs, magnitude_zero.2] at hvalue
          exact absurd hpos (hvalue ▸ lt_irrefl _)
      | finite _ hb' =>
          obtain ⟨-, -, hvalue'⟩ := hb'.magnitude_write exchange.tie
          rw [hcs, hvalue'] at hvalue
          rw [hb'.eq_of_names hb (shortest_names hb'.pos) (shortest_names hb.pos) hvalue]

/-- The sign is the first character. -/
theorem sign_unique (h : Exchanged s negative cs) {ds : List Char}
    (h' : Exchanged s' negative' ds)
    (htext : (if negative then ['-'] else []) ++ cs = (if negative' then ['-'] else []) ++ ds) :
    negative = negative' ∧ cs = ds := by
  obtain ⟨⟨c, rest, rfl, hc⟩, -⟩ := h.unsigned.chars
  obtain ⟨⟨d, rest', rfl, hd⟩, -⟩ := h'.unsigned.chars
  cases negative with
  | true =>
      cases negative' with
      | true => exact ⟨rfl, (List.cons.inj htext).2⟩
      | false =>
          obtain rfl : '-' = d := (List.cons.inj htext).1
          cases hd
  | false =>
      cases negative' with
      | true =>
          obtain rfl : c = '-' := (List.cons.inj htext).1
          cases hc
      | false => exact ⟨rfl, htext⟩

end Exchanged

/-- The text of a finite double is its sign and a text without sign. -/
theorem exchanged_of_exchangeText? {x : Float} {w : String} (h : exchangeText? x = some w) :
    ∃ negative cs, w.toList = (if negative then ['-'] else []) ++ cs ∧
      Exchanged (shape x) negative cs := by
  unfold exchangeText? at h
  cases hshape : shape x with
  | nan =>
      rw [hshape] at h
      cases h
  | infinite negative =>
      rw [hshape] at h
      cases h
  | zero negative =>
      rw [hshape] at h
      cases h
      refine ⟨negative, _, ?_, .zero negative⟩
      cases negative <;> rfl
  | finite negative b =>
      rw [hshape] at h
      cases h
      exact ⟨negative, _, String.toList_ofList, .finite negative (canonical_of_shapeOfBits hshape)⟩

/-- **The text of a finite double is a JSON number.** -/
theorem isNumber_of_exchangeText? {x : Float} {w : String} (h : exchangeText? x = some w) :
    Json.IsNumber w.toList := by
  obtain ⟨negative, cs, hw, hexchanged⟩ := exchanged_of_exchangeText? h
  rw [hw]
  cases negative with
  | true => exact .negative hexchanged.unsigned
  | false => exact .plain hexchanged.unsigned

/-- **It is the text of that double alone.** -/
theorem exchangeText?_injective {x y : Float} {w : String} (hx : exchangeText? x = some w)
    (hy : exchangeText? y = some w) : x = y := by
  obtain ⟨negative, cs, hw, hexchanged⟩ := exchanged_of_exchangeText? hx
  obtain ⟨negative', ds, hw', hexchanged'⟩ := exchanged_of_exchangeText? hy
  obtain ⟨rfl, rfl⟩ := hexchanged.sign_unique hexchanged' (hw.symm.trans hw')
  refine shape_injective (hexchanged.unique hexchanged') fun hnan => ?_
  rw [hnan] at hexchanged
  cases hexchanged

/-- What is not written as a number is an infinity or not a number. -/
theorem shape_of_exchangeText?_eq_none {x : Float} (h : exchangeText? x = none) :
    shape x = .nan ∨ ∃ negative, shape x = .infinite negative := by
  unfold exchangeText? at h
  split at h
  · exact .inl ‹_›
  · exact .inr ⟨_, ‹_›⟩
  · cases h
  · cases h

end Decimal

end Scriptlet
