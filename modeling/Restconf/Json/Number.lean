import Restconf.Number.Numeral
import Restconf.Number.Shortest

/-!
# JSON numbers

Numerals as a document writes them, the numbers they stand for, and the text of a number.

## Main definitions

* `Numeral.parse` — a numeral at the head of a text.
* `Number` — an integer, or a binary64 number.
* `Number.ofNumeral` — the number of a numeral; `none` where its magnitude is out of range.
* `Number.text` — the text of a number.

## What a numeral stands for

A numeral without fraction and exponent is an integer, if it lies between `-2 ^ 63` and
`2 ^ 64 - 1` and is not `-0`. Every other numeral is a binary64 number. Its significand is what its
digits spell, as far as this stays below `2 ^ 64`: integer digits beyond that only raise the
exponent, and digits of the fraction beyond that do not count. The significand is rounded, and then
multiplied or divided by a rounded power of ten, so the number is not always the one nearest to the
numeral.
-/

namespace Restconf

/-! ### Numerals -/

namespace Numeral

/-- A decimal digit. -/
def digit? (c : Char) : Option Nat :=
  if '0' ≤ c ∧ c ≤ '9' then some (c.toNat - '0'.toNat) else none

/-- The digits at the head of a text, and what follows them. -/
def digits : List Char → List Nat × List Char
  | [] => ([], [])
  | c :: rest =>
    match digit? c with
    | some d => let (ds, tail) := digits rest; (d :: ds, tail)
    | none => ([], c :: rest)

/-- At least one digit. -/
def digits₁ (text : List Char) : Option (List Nat × List Char) :=
  match digits text with
  | ([], _) => none
  | found => some found

/-- The integer part: a zero, or digits that do not begin with one. -/
def wholePart (text : List Char) : Option (List Nat × List Char) :=
  match text with
  | '0' :: rest => some ([0], rest)
  | _ => digits₁ text

/-- The fraction, if there is one. -/
def fractionPart (text : List Char) : Option (List Nat × List Char) :=
  match text with
  | '.' :: rest => digits₁ rest
  | _ => some ([], text)

/-- The sign and the digits of an exponent. -/
def signedDigits (text : List Char) : Option ((Bool × List Nat) × List Char) := do
  let (negative, rest) := match text with
    | '-' :: rest => (true, rest)
    | '+' :: rest => (false, rest)
    | _ => (false, text)
  let (ds, rest) ← digits₁ rest
  return ((negative, ds), rest)

/-- The exponent, if there is one. -/
def exponentPart (text : List Char) : Option (Option (Bool × List Nat) × List Char) :=
  match text with
  | 'e' :: rest | 'E' :: rest => (signedDigits rest).map fun (e, rest) => (some e, rest)
  | _ => some (none, text)

/-- Reads a numeral at the head of a text. -/
def parse (text : List Char) : Option (Numeral × List Char) := do
  let (negative, rest) := match text with
    | '-' :: rest => (true, rest)
    | _ => (false, text)
  let (whole, rest) ← wholePart rest
  let (fraction, rest) ← fractionPart rest
  let (exponent, rest) ← exponentPart rest
  return ({ negative, whole, fraction, exponent }, rest)

/-- Takes digits into a significand as long as it stays below `2 ^ 64`; also returns the number of
digits left over. -/
def absorb (significand : Nat) : List Nat → Nat × Nat
  | [] => (significand, 0)
  | d :: ds =>
    if significand * 10 + d < Nat.pow 2 64 then absorb (significand * 10 + d) ds
    else (significand, ds.length + 1)

end Numeral

/-! ### Numbers -/

/-- A number of a JSON document. -/
inductive Number where
  | integer (value : Int)
  | double (value : Binary64)
deriving DecidableEq, Repr

namespace Number

/-- The binary64 number `± significand · 10 ^ e`. -/
def scaled (negative : Bool) (significand : Nat) (e : Int) : Option Number := do
  let x ← (← Binary64.ofNat significand).mulTenPow? e
  return .double (if negative then -x else x)

/-- The number that a numeral stands for. -/
def ofNumeral (n : Numeral) : Option Number :=
  let (whole, raised) := Numeral.absorb 0 n.whole
  if n.isInteger && raised == 0 then
    if !n.negative then some (.integer whole)
    else if whole ≠ 0 ∧ whole ≤ Nat.pow 2 63 then some (.integer (-whole))
    else scaled true whole 0
  else
    let (significand, ignored) := Numeral.absorb whole n.fraction
    let e := n.exponentValue + raised - (n.fraction.length - ignored : Nat)
    scaled n.negative significand e

/-! ### Text -/

/-- The text of a decimal integer. -/
def intText (value : Int) : List Char :=
  if value < 0 then '-' :: Nat.toDigits 10 value.natAbs else Nat.toDigits 10 value.natAbs

/-- The decimal exponents that are written out in places instead of behind an `e`. -/
def isPositional (e : Int) : Bool := -5 ≤ e && e ≤ 15

/-- Digits behind an exponent mark: one digit, a point and the rest if there is one, the signed
exponent. -/
def scientificText (ds : List Char) (e : Int) : List Char :=
  let sign := if e < 0 then '-' else '+'
  ds.take 1 ++ (if ds.length ≤ 1 then [] else '.' :: ds.drop 1)
    ++ 'e' :: sign :: Nat.toDigits 10 e.natAbs

/-- Digits in their places, always with a fraction. -/
def positionalText (ds : List Char) (e : Int) : List Char :=
  if e < 0 then '0' :: '.' :: List.replicate (e.natAbs - 1) '0' ++ ds
  else
    let places := e.natAbs + 1
    if ds.length ≤ places then
      ds ++ List.replicate (places - ds.length) '0' ++ ['.', '0']
    else ds.take places ++ '.' :: ds.drop places

/-- The digits of a decimal without the zeros at their end. -/
def significantDigits (d : Decimal) : List Char :=
  ((Nat.toDigits 10 d.digits).reverse.dropWhile (· = '0')).reverse

/-- The text of a decimal whose digits do not spell zero. -/
def decimalText (d : Decimal) : List Char :=
  let ds := significantDigits d
  let e := d.exponent + (Nat.toDigits 10 d.digits).length - 1
  if isPositional e then positionalText ds e else scientificText ds e

/-- The text of a binary64 number: its shortest digits. -/
def doubleText (x : Binary64) : List Char :=
  let magnitude := if x.isZero then ['0', '.', '0'] else decimalText x.shortest
  if x.negative then '-' :: magnitude else magnitude

/-- The text of a number. -/
def text : Number → List Char
  | integer value => intText value
  | double value => doubleText value

end Number

end Restconf
