/-
**The text of a floating-point number.**

A double is taken apart into its sign and its magnitude, the magnitude is named by the shortest
decimal, and a `Layout` says how that decimal is written: which numbers are written with a point
and no exponent, and whether a whole number keeps `.0`.  Two layouts are used: `plain` is the one
of printed values, `exchange` the one of numbers in exchanged data.

Main definitions:

* `Scriptlet.Decimal.Shape`, `Scriptlet.Decimal.shape` — a double, taken apart;
* `Scriptlet.Decimal.Layout`, `Scriptlet.Decimal.Layout.write` — how a decimal is written;
* `Scriptlet.Decimal.plain`, `Scriptlet.Decimal.exchange` — the two layouts in use;
* `Scriptlet.Decimal.plainText`, `Scriptlet.Decimal.exchangeText?` — the texts of a double.
-/

import Scriptlet.Decimal.Shortest

set_option relaxedAutoImplicit false
set_option autoImplicit false

namespace Scriptlet.Decimal

/-! ### A double, taken apart -/

/-- What a double is, apart from how it is written. -/
inductive Shape
  /-- Not a number. -/
  | nan
  /-- An infinity. -/
  | infinite (negative : Bool)
  /-- A zero. -/
  | zero (negative : Bool)
  /-- A number with a sign and a positive magnitude. -/
  | finite (negative : Bool) (magnitude : Binary)
deriving DecidableEq, Repr

/-- The shape of the double with the given bits: one sign bit, eleven exponent bits, fifty-two
mantissa bits. -/
def shapeOfBits (bits : Nat) : Shape :=
  let negative := decide (Nat.pow 2 63 ≤ bits)
  let exponent : Nat := bits / Nat.pow 2 52 % Nat.pow 2 11
  let fraction : Nat := bits % Nat.pow 2 52
  if exponent = Nat.pow 2 11 - 1 then
    if fraction = 0 then .infinite negative else .nan
  else if exponent = 0 then
    if fraction = 0 then .zero negative else .finite negative ⟨fraction, -1074, false⟩
  else
    .finite negative
      ⟨Nat.pow 2 52 + fraction, (exponent : Int) - 1075,
        decide (fraction = 0) && decide (1 < exponent)⟩

/-- The shape of a double. -/
def shape (x : Float) : Shape := shapeOfBits x.toBits.toNat

/-! ### Layouts -/

/-- How a decimal is written. -/
structure Layout where
  /-- Where an exact tie between two shortest decimals goes. -/
  tie : Tie
  /-- Whether a number whose leading digit has this power of ten is written without exponent. -/
  positional : Int → Bool
  /-- Whether a whole number without exponent is written with `.0`. -/
  keepsPoint : Bool

/-- Printed values have no exponent and no idle point; a tie goes away from zero. -/
def plain : Layout := ⟨.up, fun _ => true, false⟩

/-- Exchanged numbers have an exponent from `1e+16` on and below `0.00001`, a whole number keeps
its point, and a tie goes to the even digit. -/
def exchange : Layout := ⟨.even, fun e => decide (-5 ≤ e) && decide (e ≤ 15), true⟩

namespace Layout

/-- The digits with a point set so that the last digit has the power of ten `e`. -/
def point (keepsPoint : Bool) (digits : List Char) (e : Int) : List Char :=
  if 0 ≤ e then
    digits ++ List.replicate e.toNat '0' ++ if keepsPoint then ['.', '0'] else []
  else
    let places := (-e).toNat
    let padded := List.replicate (places + 1 - digits.length) '0' ++ digits
    padded.take (padded.length - places) ++ '.' :: padded.drop (padded.length - places)

/-- The digits with a point behind the first, and the power of ten of the first digit. -/
def scientific (digits : List Char) (e : Int) : List Char :=
  (match digits with
    | [] => []
    | [d] => [d]
    | d :: ds => d :: '.' :: ds)
  ++ 'e' :: (if 0 ≤ e then '+' else '-') :: Nat.toDigits 10 e.natAbs

/-- A decimal as this layout writes it. -/
def write (l : Layout) (x : Numeral) : List Char :=
  let digits := Nat.toDigits 10 x.digits
  let leading := x.exponent + (digits.length : Int) - 1
  if l.positional leading then point l.keepsPoint digits x.exponent
  else scientific digits leading

/-- A number with a sign and a positive magnitude as this layout writes it. -/
def writeSigned (l : Layout) (negative : Bool) (b : Binary) : List Char :=
  (if negative then ['-'] else []) ++ l.write (shortest l.tie b)

end Layout

/-! ### The two texts of a double -/

/-- The text of a printed number; not-a-number has no sign. -/
def plainText (x : Float) : String :=
  match shape x with
  | .nan => "NaN"
  | .infinite negative => if negative then "-inf" else "inf"
  | .zero negative => if negative then "-0" else "0"
  | .finite negative b => String.ofList (plain.writeSigned negative b)

/-- The text of an exchanged number; only finite numbers have one. -/
def exchangeText? (x : Float) : Option String :=
  match shape x with
  | .nan => none
  | .infinite _ => none
  | .zero negative => some (if negative then "-0.0" else "0.0")
  | .finite negative b => some (String.ofList (exchange.writeSigned negative b))

end Scriptlet.Decimal
