import Restconf.Number.Binary64

/-!
# Shortest decimal digits

The fewest decimal digits that read back as a given binary64 number, and of those the nearest.

## Main definitions

* `Decimal` — `digits · 10 ^ exponent`.
* `Binary64.RoundsTo` — the interval of decimals that read back as a number, as a decidable test.
* `Binary64.shortest` — the shortest decimal of a positive number.

## Implementation notes

Reading rounds to the nearest number, so the decimals that read back as `m · 2 ^ q` fill the
interval between the midpoints to its two neighbours. The midpoints belong to it if and only if `m`
is even. The neighbour below is only half as far away where `m` is the least significand of a
binade. If any point of a decimal grid lies in the interval, so does one of the two grid points
around the number itself; it is therefore enough to test those two, for one digit, two, and so on.
Seventeen digits always suffice.
-/

namespace Restconf

/-- The decimal `digits · 10 ^ exponent`. -/
structure Decimal where
  digits : Nat
  exponent : Int
deriving DecidableEq, Repr

namespace Decimal

/-- A decimal as a quotient. -/
def toRatio (d : Decimal) : Nat × Nat :=
  (d.digits * Nat.pow 10 d.exponent.toNat, Nat.pow 10 (-d.exponent).toNat)

end Decimal

/-- How many decimal digits a natural number has. -/
def decimalLength (n : Nat) : Nat := (Nat.toDigits 10 n).length

/-- The largest `k` with `10 ^ k ≤ num / den`, for a positive quotient. -/
def floorLog10 (num den : Nat) : Int :=
  if den ≤ num then Int.ofNat (decimalLength (num / den)) - 1
  else
    let k := decimalLength (den / num)
    if den ≤ num * Nat.pow 10 (k - 1) then 1 - Int.ofNat k else - Int.ofNat k

namespace Binary64

/-- The midpoints to the neighbours of a number, in units of `2 ^ (exponent - 2)`. -/
def bounds (x : Binary64) : Nat × Nat :=
  let m := 4 * x.significand
  (if x.significand = Nat.pow 2 52 ∧ minExponent < x.exponent then m - 1 else m - 2, m + 2)

/-- A decimal reads back as the positive number `x`: it lies between the midpoints to the neighbours
of `x`, which count if the significand is even. -/
def RoundsTo (x : Binary64) (d : Decimal) : Prop :=
  let (low, high) := x.bounds
  let (num, den) := d.toRatio
  -- Both sides times `den`, with the unit `2 ^ (exponent - 2)` on the side where it is an integer.
  let e := x.exponent - 2
  let point := num * Nat.pow 2 (-e).toNat
  let unit := den * Nat.pow 2 e.toNat
  if x.significand % 2 = 0 then low * unit ≤ point ∧ point ≤ high * unit
  else low * unit < point ∧ point < high * unit

instance (x : Binary64) (d : Decimal) : Decidable (x.RoundsTo d) := by
  unfold RoundsTo; infer_instance

/-- The point nearest to `x` among the two points around it on a decimal grid that read back, a tie
going to the even one. -/
def onGrid? (x : Binary64) (k : Int) : Option Decimal :=
  let (num, den) := x.toRatio
  let n := num * Nat.pow 10 (-k).toNat
  let d := den * Nat.pow 10 k.toNat
  let below : Decimal := ⟨n / d, k⟩
  let above : Decimal := ⟨n / d + 1, k⟩
  match decide (x.RoundsTo below), decide (x.RoundsTo above) with
  | true, true => some ⟨roundDiv n d, k⟩
  | true, false => some below
  | false, true => some above
  | false, false => none

/-- The first grid with a point that reads back, from `count` digits on. -/
def searchGrids (x : Binary64) (top : Int) (count : Nat) : Nat → Decimal
  | 0 => (x.onGrid? (top - 16)).getD ⟨0, 0⟩
  | fuel + 1 =>
    match x.onGrid? (top + 1 - count) with
    | some d => d
    | none => searchGrids x top (count + 1) fuel

/-- The shortest decimal that reads back as a positive number, and of those the nearest. -/
def shortest (x : Binary64) : Decimal :=
  let (num, den) := x.toRatio
  searchGrids x (floorLog10 num den) 1 16

end Binary64

end Restconf
