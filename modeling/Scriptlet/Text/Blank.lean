/-
**Blank characters and the edges of a text.**

A character is blank if it has the Unicode property `White_Space`.  A line is trimmed by dropping
the blanks at both ends, and its first word is what stands before the first blank of the rest.

Main definitions:

* `Scriptlet.Text.blankRanges`, `Scriptlet.Text.isBlank` — the property, as a table of ranges;
* `Scriptlet.Text.trim`, `Scriptlet.Text.firstWord` — the trimmed text and its first word.

Main results:

* `Scriptlet.Text.head?_trim` — **a trimmed text does not start with a blank**.
-/

set_option relaxedAutoImplicit false
set_option autoImplicit false

namespace Scriptlet.Text

/-- The code points with the property `White_Space`, as inclusive ranges in increasing order. -/
def blankRanges : List (Nat × Nat) :=
  [(0x09, 0x0d), (0x20, 0x20), (0x85, 0x85), (0xa0, 0xa0), (0x1680, 0x1680), (0x2000, 0x200a),
    (0x2028, 0x2029), (0x202f, 0x202f), (0x205f, 0x205f), (0x3000, 0x3000)]

/-- Whether a character has the property `White_Space`. -/
def isBlank (c : Char) : Bool :=
  blankRanges.any fun r => decide (r.1 ≤ c.toNat) && decide (c.toNat ≤ r.2)

/-- The text without the blanks at its two ends. -/
def trim (cs : List Char) : List Char :=
  ((cs.dropWhile isBlank).reverse.dropWhile isBlank).reverse

/-- What stands before the first blank, once the blanks in front are dropped. -/
def firstWord (cs : List Char) : List Char :=
  (cs.dropWhile isBlank).takeWhile fun c => !isBlank c

private theorem head?_dropWhile_blank (cs : List Char) (c : Char)
    (h : (cs.dropWhile isBlank).head? = some c) : isBlank c = false := by
  have := List.head?_dropWhile_not isBlank cs
  rw [h] at this
  simpa using this

/-- A trimmed text does not start with a blank. -/
theorem head?_trim {cs : List Char} {c : Char} (h : (trim cs).head? = some c) :
    isBlank c = false := by
  have hsuffix := List.dropWhile_suffix isBlank (l := (cs.dropWhile isBlank).reverse)
  have hpre : trim cs <+: cs.dropWhile isBlank := by
    have := List.reverse_prefix.2 hsuffix
    simpa [trim] using this
  obtain ⟨t, ht⟩ := hpre
  cases htrim : trim cs with
  | nil => simp [htrim] at h
  | cons d ds =>
      rw [htrim] at h ht
      have hd : (cs.dropWhile isBlank).head? = some c := by
        rw [← ht]
        simpa using h
      exact head?_dropWhile_blank _ _ hd

end Scriptlet.Text
