/-!
# Hexadecimal digits

## Main definitions

* `Hex.value?` — the value of a digit of either case.
* `Hex.upper`, `Hex.lower` — the digit of a value; reading it gives the value back.
-/

namespace Restconf.Hex

/-- The value of a hexadecimal digit of either case. -/
def value? (c : Char) : Option Nat :=
  if '0' ≤ c ∧ c ≤ '9' then some (c.toNat - '0'.toNat)
  else if 'a' ≤ c ∧ c ≤ 'f' then some (c.toNat - 'a'.toNat + 10)
  else if 'A' ≤ c ∧ c ≤ 'F' then some (c.toNat - 'A'.toNat + 10)
  else none

/-- The upper-case digit of a number below sixteen. -/
def upper (n : Nat) : Char :=
  if n < 10 then Char.ofNat ('0'.toNat + n) else Char.ofNat ('A'.toNat + (n - 10))

/-- The lower-case digit of a number below sixteen. -/
def lower (n : Nat) : Char :=
  if n < 10 then Char.ofNat ('0'.toNat + n) else Char.ofNat ('a'.toNat + (n - 10))

theorem value?_upper : ∀ n < 16, value? (upper n) = some n := by decide

theorem value?_lower : ∀ n < 16, value? (lower n) = some n := by decide

/-- The number that hexadecimal digits spell. -/
def spell? (digits : List Char) : Option Nat :=
  digits.foldlM (fun n c => (value? c).map (16 * n + ·)) 0

end Restconf.Hex
