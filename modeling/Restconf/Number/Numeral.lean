import Restconf.Number.Binary64

/-!
# Decimal numerals

A numeral divided into its parts, whatever the format it is written in.

## Main definitions

* `Numeral` — sign, digits and exponent.
* `Numeral.nearest?` — the binary64 number nearest to a numeral; `none` where it is too large for
  the format.

## Implementation notes

An exponent can have any number of digits, so `nearest?` looks at the decimal magnitude before it
spells a power of ten out. Far from the range of the format the answer is known without it.
-/

namespace Restconf

/-- A numeral as it is written. -/
structure Numeral where
  negative : Bool
  whole : List Nat
  fraction : List Nat := []
  /-- The sign and the digits of the exponent. -/
  exponent : Option (Bool × List Nat) := none
deriving DecidableEq, Repr

namespace Numeral

/-- A numeral without fraction and exponent. -/
def isInteger (n : Numeral) : Bool := n.fraction.isEmpty && n.exponent.isNone

/-- The natural number that digits spell. -/
def spell (ds : List Nat) : Nat := ds.foldl (fun n d => 10 * n + d) 0

/-- The exponent of a numeral, zero where none is written. -/
def exponentValue (n : Numeral) : Int :=
  match n.exponent with
  | none => 0
  | some (negative, ds) => if negative then - Int.ofNat (spell ds) else Int.ofNat (spell ds)

/-- The digits of a numeral from the first that is not zero. -/
def significantDigits (n : Numeral) : List Nat := (n.whole ++ n.fraction).dropWhile (· == 0)

/-- What the last digit of a numeral counts is this power of ten. -/
def unitExponent (n : Numeral) : Int := n.exponentValue - Int.ofNat n.fraction.length

/-- A power of ten beyond every number of the format, and its inverse nearer to zero than any. -/
def farExponent : Int := 400

/-- The magnitude of the binary64 number nearest to a numeral. The numeral is less than
`10 ^ top`, and unless it is zero not less than `10 ^ (top - 1)`. -/
def nearestMagnitude? (n : Numeral) : Option Binary64 :=
  let ds := n.significantDigits
  let e := n.unitExponent
  let top := Int.ofNat ds.length + e
  if ds.isEmpty || top < -farExponent then some .zero
  else if farExponent < top then none
  else Binary64.ofRatio (spell ds * Nat.pow 10 e.toNat) (Nat.pow 10 (-e).toNat)

/-- The binary64 number nearest to a numeral, a tie going to the even neighbour. -/
def nearest? (n : Numeral) : Option Binary64 :=
  n.nearestMagnitude?.map fun x => if n.negative then -x else x

end Numeral

end Restconf
