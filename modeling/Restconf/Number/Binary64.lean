/-!
# Binary64 numbers

Finite double precision numbers as exact pairs of integers. Rounding, multiplication and division
are defined on natural numbers, so that every digit a document shows is the outcome of arithmetic
that a proof can follow.

## Main definitions

* `Binary64` — `± significand · 2 ^ exponent` in the canonical form of the format.
* `Binary64.ofRatio` — the number nearest to a quotient of natural numbers, a tie going to the even
  neighbour; `none` where it is too large for the format.
* `Binary64.ofNat`, `Binary64.powTen`, `mulTenPow?` — what reading a decimal numeral takes.

## Implementation notes

All rounding goes through `ofRatio`. A product of two binary64 numbers is a quotient with a power of
two below the line, and so is a quotient of two.
-/

namespace Restconf

/-- A finite binary64 number. Its canonical form has `2 ^ 52 ≤ significand < 2 ^ 53`, or the least
exponent and a significand below `2 ^ 52`. -/
structure Binary64 where
  negative : Bool := false
  significand : Nat
  exponent : Int
deriving DecidableEq, Repr

namespace Binary64

/-- The exponent of the smallest numbers. -/
def minExponent : Int := -1074

/-- The exponent of the largest numbers. -/
def maxExponent : Int := 971

/-- Zero, without a sign. -/
def zero : Binary64 := { significand := 0, exponent := minExponent }

/-- Both zeros are zero. -/
def isZero (x : Binary64) : Bool := x.significand == 0

instance : Neg Binary64 where
  neg x := { x with negative := !x.negative }

/-! ### Rounding -/

/-- A quotient rounded to the nearest integer, a tie going to the even one. -/
def roundDiv (num den : Nat) : Nat :=
  let quotient := num / den
  let rest := num % den
  if 2 * rest < den then quotient
  else if den < 2 * rest then quotient + 1
  else quotient + quotient % 2

/-- A quotient divided by a power of two, as numerator and denominator. -/
def shift (num den : Nat) (e : Int) : Nat × Nat :=
  (num * Nat.pow 2 (-e).toNat, den * Nat.pow 2 e.toNat)

/-- The largest `k` with `2 ^ k ≤ num / den`. -/
def floorLog2 (num den : Nat) : Int :=
  let k : Int := Int.ofNat num.log2 - Int.ofNat den.log2
  let (n, d) := shift num den k
  if d ≤ n then k else k - 1

/-- The binary64 number nearest to `num / den`, a tie going to the even significand, or `none` where
it lies beyond the largest number of the format. -/
def ofRatio (num den : Nat) : Option Binary64 :=
  if num = 0 then some zero
  else
    let e := max minExponent (floorLog2 num den - 52)
    let (n, d) := shift num den e
    let m := roundDiv n d
    let x : Binary64 :=
      if m = Nat.pow 2 53 then { significand := Nat.pow 2 52, exponent := e + 1 }
      else { significand := m, exponent := e }
    if x.exponent ≤ maxExponent then some x else none

/-- The number nearest to a natural number. -/
def ofNat (n : Nat) : Option Binary64 := ofRatio n 1

/-- The magnitude of a number as a quotient. -/
def toRatio (x : Binary64) : Nat × Nat :=
  (x.significand * Nat.pow 2 x.exponent.toNat, Nat.pow 2 (-x.exponent).toNat)

/-! ### Scaling by powers of ten -/

/-- The largest power of ten that is a number of the format. -/
def maxPowTen : Nat := 308

/-- The number nearest to a power of ten. -/
def powTen (k : Nat) : Option Binary64 := ofNat (Nat.pow 10 k)

/-- The rounded product of two magnitudes. -/
def mul (x y : Binary64) : Option Binary64 :=
  let (a, b) := x.toRatio
  let (c, d) := y.toRatio
  ofRatio (a * c) (b * d)

/-- The rounded quotient of two magnitudes. -/
def div (x y : Binary64) : Option Binary64 :=
  let (a, b) := x.toRatio
  let (c, d) := y.toRatio
  ofRatio (a * d) (b * c)

/-- A magnitude times `10 ^ e`. One multiplication or one division by a rounded power of ten where
the format has it; below that the magnitude is first divided by the largest power, as often as it
takes. -/
def mulTenPow? (x : Binary64) (e : Int) : Option Binary64 :=
  if x.isZero then some x
  else if 0 ≤ e then
    if e.toNat ≤ maxPowTen then do x.mul (← powTen e.toNat) else none
  else if (-e).toNat ≤ maxPowTen then do x.div (← powTen (-e).toNat)
  else do
    let y ← x.div (← powTen maxPowTen)
    y.mulTenPow? (e + maxPowTen)
termination_by (-e).toNat
decreasing_by simp only [maxPowTen] at *; omega

end Binary64

end Restconf
