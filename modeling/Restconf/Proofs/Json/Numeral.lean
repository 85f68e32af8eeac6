import Mathlib.Data.List.DropRight
import Restconf.Proofs.Json.Reader

/-!
# Numbers are printed as numerals

The text of every number is a numeral, and a numeral is read up to its end wherever nothing stands
behind it that could go on with it.

## Why nothing is said about the value

What a printed number is read as depends on how numerals are rounded. Whoever passes over a number
does not ask for that, only for the place where it ends. So the statements here are about the form
of a text, and they hold of every number, also of those that no numeral is rounded to.

## Main definitions

* `Numeral.Stops` — a text does not go on with a numeral in front of it
* `Numeral.IsUnsigned`, `Numeral.IsSpelled` — the form of a numeral

## Main results

* `Numeral.parse_append` — a numeral is read up to its end
* `Number.isSpelled_text` — the text of a number is a numeral
-/

namespace Restconf

namespace Numeral

/-! ### The form of a numeral -/

/-- A text of decimal digits. -/
def AreDigits (text : List Char) : Prop := ∀ c ∈ text, (digit? c).isSome = true

/-- The integer part of a numeral: a zero, or digits that do not begin with one. -/
inductive IsIntegerPart : List Char → Prop where
  | zero : IsIntegerPart ['0']
  | digits {c : Char} {text : List Char} (h : AreDigits (c :: text)) (hzero : c ≠ '0') :
    IsIntegerPart (c :: text)

/-- The fraction of a numeral, if there is one. -/
inductive IsFraction : List Char → Prop where
  | nil : IsFraction []
  | point {text : List Char} (h : AreDigits text) (hne : text ≠ []) : IsFraction ('.' :: text)

/-- The exponent of a numeral, if there is one. -/
inductive IsExponent : List Char → Prop where
  | nil : IsExponent []
  | mark {sign : Char} {text : List Char} (hsign : sign = '-' ∨ sign = '+') (h : AreDigits text)
      (hne : text ≠ []) : IsExponent ('e' :: sign :: text)

/-- A numeral without a sign. -/
inductive IsUnsigned : List Char → Prop where
  | parts {whole fraction exponent : List Char} (hwhole : IsIntegerPart whole)
      (hfraction : IsFraction fraction) (hexponent : IsExponent exponent) :
    IsUnsigned (whole ++ fraction ++ exponent)

/-- A numeral. -/
inductive IsSpelled : List Char → Prop where
  | plain {text : List Char} (h : IsUnsigned text) : IsSpelled text
  | minus {text : List Char} (h : IsUnsigned text) : IsSpelled ('-' :: text)

/-! ### Where a numeral ends -/

/-- A text does not go on with digits in front of it. -/
def StopsDigits (rest : List Char) : Prop := ∀ c ∈ rest.head?, digit? c = none

/-- A text does not go on with a numeral in front of it. -/
structure Stops (rest : List Char) : Prop where
  digits : StopsDigits rest
  point : rest.head? ≠ some '.'
  mark : rest.head? ≠ some 'e' ∧ rest.head? ≠ some 'E'

variable {text rest : List Char} {c : Char}

theorem stopsDigits_cons (h : digit? c = none) (rest : List Char) : StopsDigits (c :: rest) := by
  intro d hd
  obtain rfl := Option.some.inj hd
  exact h

/-- Digits are read as long as there are some. -/
theorem digits_append (htext : AreDigits text) (hrest : StopsDigits rest) :
    ∃ ds, digits (text ++ rest) = (ds, rest) ∧ ds.length = text.length := by
  induction text with
  | nil =>
    refine ⟨[], ?_, rfl⟩
    cases rest with
    | nil => rfl
    | cons c rest => rw [List.nil_append, digits, hrest c rfl]
  | cons c text ih =>
    obtain ⟨hc, htext⟩ := List.forall_mem_cons.mp htext
    obtain ⟨d, hd⟩ := Option.isSome_iff_exists.mp hc
    obtain ⟨ds, hds, hlength⟩ := ih htext
    refine ⟨d :: ds, ?_, congrArg Nat.succ hlength⟩
    rw [List.cons_append, digits, hd]
    simp only [hds]

theorem digits₁_append (htext : AreDigits text) (hne : text ≠ []) (hrest : StopsDigits rest) :
    ∃ ds, digits₁ (text ++ rest) = some (ds, rest) := by
  obtain ⟨ds, hds, hlength⟩ := digits_append htext hrest
  cases ds with
  | nil => exact absurd (List.eq_nil_of_length_eq_zero hlength.symm) hne
  | cons d ds => exact ⟨d :: ds, by rw [digits₁, hds]⟩

theorem wholePart_append (h : IsIntegerPart text) (hrest : StopsDigits rest) :
    ∃ ds, wholePart (text ++ rest) = some (ds, rest) := by
  cases h with
  | zero => exact ⟨[0], rfl⟩
  | @digits c text h hzero =>
    obtain ⟨ds, hds⟩ := digits₁_append h (List.cons_ne_nil c text) hrest
    refine ⟨ds, ?_⟩
    rw [List.cons_append] at hds ⊢
    rw [wholePart]
    · exact hds
    · exact fun _ heq => hzero (List.cons.inj heq).1

theorem fractionPart_append (h : IsFraction text) (hrest : StopsDigits rest)
    (hpoint : rest.head? ≠ some '.') : ∃ ds, fractionPart (text ++ rest) = some (ds, rest) := by
  cases h with
  | nil =>
    refine ⟨[], ?_⟩
    rw [List.nil_append, fractionPart]
    rintro other rfl
    exact hpoint rfl
  | point h hne => exact digits₁_append h hne hrest

theorem exponentPart_append (h : IsExponent text) (hrest : Stops rest) :
    ∃ e, exponentPart (text ++ rest) = some (e, rest) := by
  cases h with
  | nil =>
    refine ⟨none, ?_⟩
    rw [List.nil_append, exponentPart]
    · rintro other rfl
      exact hrest.mark.1 rfl
    · rintro other rfl
      exact hrest.mark.2 rfl
  | @mark sign text hsign h hne =>
    obtain ⟨ds, hds⟩ := digits₁_append h hne hrest.digits
    rcases hsign with rfl | rfl
    · exact ⟨some (true, ds), by simp [exponentPart, signedDigits, hds]⟩
    · exact ⟨some (false, ds), by simp [exponentPart, signedDigits, hds]⟩

/-- Behind the integer part comes no digit, and behind the fraction no point either. -/
theorem IsExponent.stops (h : IsExponent text) (hrest : Stops rest) :
    StopsDigits (text ++ rest) ∧ (text ++ rest).head? ≠ some '.' := by
  cases h with
  | nil => exact ⟨hrest.digits, hrest.point⟩
  | mark => exact ⟨stopsDigits_cons rfl _, by simp⟩

theorem IsFraction.stops (h : IsFraction text) (hrest : StopsDigits rest) :
    StopsDigits (text ++ rest) := by
  cases h with
  | nil => exact hrest
  | point => exact stopsDigits_cons rfl _

/-- A numeral begins with a digit or with a minus sign. -/
theorem IsUnsigned.head (h : IsUnsigned text) :
    ∃ c tail, text = c :: tail ∧ (digit? c).isSome = true := by
  cases h with
  | parts hwhole =>
    cases hwhole with
    | zero => exact ⟨'0', _, rfl, rfl⟩
    | digits h => exact ⟨_, _, rfl, h _ List.mem_cons_self⟩

/-- The parts of a numeral behind its sign. -/
theorem unsigned_append (h : IsUnsigned text) (hrest : Stops rest) :
    ∃ whole behindWhole fraction behindFraction exponent,
      wholePart (text ++ rest) = some (whole, behindWhole)
        ∧ fractionPart behindWhole = some (fraction, behindFraction)
        ∧ exponentPart behindFraction = some (exponent, rest) := by
  cases h with
  | @parts whole fraction exponent hwhole hfraction hexponent =>
    obtain ⟨hdigits, hpoint⟩ := hexponent.stops hrest
    obtain ⟨w, hw⟩ := wholePart_append hwhole (hfraction.stops hdigits)
    obtain ⟨f, hf⟩ := fractionPart_append hfraction hdigits hpoint
    obtain ⟨e, he⟩ := exponentPart_append hexponent hrest
    rw [List.append_assoc, List.append_assoc]
    exact ⟨w, _, f, _, e, hw, hf, he⟩

/-- **A numeral is read up to its end.** -/
theorem parse_append (h : IsSpelled text) (hrest : Stops rest) :
    ∃ numeral, parse (text ++ rest) = some (numeral, rest) := by
  cases h with
  | plain h =>
    obtain ⟨c, tail, rfl, hc⟩ := h.head
    obtain ⟨whole, _, fraction, _, exponent, hwhole, hfraction, hexponent⟩ :=
      unsigned_append h hrest
    have hsign : c ≠ '-' := by
      rintro rfl
      cases hc
    refine ⟨{ negative := false, whole, fraction, exponent }, ?_⟩
    rw [List.cons_append] at hwhole ⊢
    simp [parse, hsign, hwhole, hfraction, hexponent]
  | minus h =>
    obtain ⟨whole, _, fraction, _, exponent, hwhole, hfraction, hexponent⟩ :=
      unsigned_append h hrest
    refine ⟨{ negative := true, whole, fraction, exponent }, ?_⟩
    simp [parse, hwhole, hfraction, hexponent]

end Numeral

/-! ### Printed numbers -/

namespace Number

open Numeral

theorem areDigits_toDigits (n : Nat) : AreDigits (Nat.toDigits 10 n) := by
  intro c hc
  have hdigit := Nat.isDigit_of_mem_toDigits (by decide) (by decide) hc
  rw [Char.isDigit, Bool.and_eq_true, decide_eq_true_eq, decide_eq_true_eq] at hdigit
  have hbetween : '0' ≤ c ∧ c ≤ '9' := hdigit
  rw [digit?, if_pos hbetween]
  rfl

/-- The digits of a positive number do not begin with zero. -/
theorem toDigits_head {n : Nat} (h : n ≠ 0) :
    ∃ c tail, Nat.toDigits 10 n = c :: tail ∧ c ≠ '0' := by
  induction n using Nat.strongRecOn with
  | ind n ih =>
    rw [Nat.toDigits_eq_if (by decide)]
    split
    · next hlt =>
      refine ⟨Nat.digitChar n, [], rfl, ?_⟩
      have hall : ∀ n < 10, n ≠ 0 → Nat.digitChar n ≠ '0' := by decide
      exact hall n hlt h
    · next hge =>
      obtain ⟨c, tail, hdigits, hc⟩ := ih (n / 10) (by omega) (by omega)
      exact ⟨c, tail ++ [Nat.digitChar (n % 10)], by rw [hdigits, List.cons_append], hc⟩

theorem isIntegerPart_toDigits (n : Nat) : IsIntegerPart (Nat.toDigits 10 n) := by
  by_cases h : n = 0
  · subst h
    exact .zero
  · obtain ⟨c, tail, hdigits, hc⟩ := toDigits_head h
    have hall := areDigits_toDigits n
    rw [hdigits] at hall ⊢
    exact .digits hall hc

theorem isSpelled_intText (value : Int) : IsSpelled (intText value) := by
  have hunsigned : IsUnsigned (Nat.toDigits 10 value.natAbs) := by
    have hparts := IsUnsigned.parts (isIntegerPart_toDigits value.natAbs) .nil .nil
    rwa [List.append_nil, List.append_nil] at hparts
  rw [intText]
  split
  · exact .minus hunsigned
  · exact .plain hunsigned

/-! ### Decimals -/

/-- The digits of a decimal that does not spell zero: they do not begin with zero either. -/
theorem significantDigits_head {d : Decimal} (h : d.digits ≠ 0) :
    ∃ c tail, significantDigits d = c :: tail ∧ c ≠ '0' ∧ AreDigits (c :: tail) := by
  obtain ⟨c, tail, hdigits, hc⟩ := toDigits_head h
  have hshown : significantDigits d
      = List.rdropWhile (fun c => decide (c = '0')) (Nat.toDigits 10 d.digits) := rfl
  have hprefix : significantDigits d <+: c :: tail := by
    rw [hshown, ← hdigits]
    exact List.rdropWhile_prefix _ _
  have hne : significantDigits d ≠ [] := by
    rw [hshown, ne_eq, List.rdropWhile_eq_nil_iff]
    intro hall
    exact hc (of_decide_eq_true (hall c (hdigits ▸ List.mem_cons_self)))
  obtain ⟨first, others, hfirst⟩ := List.exists_cons_of_ne_nil hne
  rw [hfirst] at hprefix ⊢
  obtain ⟨rfl, hothers⟩ := List.cons_prefix_cons.mp hprefix
  refine ⟨first, others, rfl, hc, fun e he => ?_⟩
  refine areDigits_toDigits d.digits e ?_
  rw [hdigits]
  exact hprefix.subset he

variable {c : Char} {tail : List Char} {e : Int}

theorem areDigits_append {text rest : List Char} (htext : AreDigits text)
    (hrest : AreDigits rest) : AreDigits (text ++ rest) :=
  List.forall_mem_append.mpr ⟨htext, hrest⟩

theorem areDigits_zeros (n : Nat) : AreDigits (List.replicate n '0') := by
  intro c hc
  rw [List.eq_of_mem_replicate hc]
  rfl

theorem isUnsigned_scientificText (hdigits : AreDigits (c :: tail)) (hc : c ≠ '0') (e : Int) :
    IsUnsigned (scientificText (c :: tail) e) := by
  obtain ⟨hfirst, htail⟩ := List.forall_mem_cons.mp hdigits
  have hwhole : IsIntegerPart [c] := .digits (List.forall_mem_singleton.mpr hfirst) hc
  have hexponent {sign : Char} (hsign : sign = '-' ∨ sign = '+') :
      IsExponent ('e' :: sign :: Nat.toDigits 10 e.natAbs) :=
    .mark hsign (areDigits_toDigits _) Nat.toDigits_ne_nil
  have hfraction : IsFraction (if (c :: tail).length ≤ 1 then [] else '.' :: tail) := by
    split
    · exact .nil
    · next hlength =>
      refine .point htail ?_
      rintro rfl
      exact hlength (Nat.le_refl 1)
  rw [scientificText]
  refine .parts hwhole hfraction (hexponent ?_)
  split
  · exact Or.inl rfl
  · exact Or.inr rfl

theorem isUnsigned_positionalText (hdigits : AreDigits (c :: tail)) (hc : c ≠ '0') (e : Int) :
    IsUnsigned (positionalText (c :: tail) e) := by
  have hplain {whole fraction : List Char} (hwhole : IsIntegerPart whole)
      (hfraction : AreDigits fraction) (hne : fraction ≠ []) :
      IsUnsigned (whole ++ '.' :: fraction) := by
    have hparts := IsUnsigned.parts hwhole (.point hfraction hne) .nil
    rwa [List.append_nil] at hparts
  rw [positionalText]
  split
  · exact hplain .zero (areDigits_append (areDigits_zeros _) hdigits) (by simp)
  · dsimp only
    split
    · exact hplain (.digits (areDigits_append hdigits (areDigits_zeros _)) hc)
        (areDigits_zeros 1) (by simp)
    · next hlength =>
      have hall : AreDigits ((c :: tail).take (e.natAbs + 1))
          ∧ AreDigits ((c :: tail).drop (e.natAbs + 1)) := by
        rw [← List.take_append_drop (e.natAbs + 1) (c :: tail)] at hdigits
        exact List.forall_mem_append.mp hdigits
      refine hplain ?_ hall.2 fun hnil => hlength (List.drop_eq_nil_iff.mp hnil)
      rw [List.take_succ_cons] at hall ⊢
      exact .digits hall.1 hc

theorem isUnsigned_zero : IsUnsigned ['0', '.', '0'] :=
  .parts .zero (.point (areDigits_zeros 1) (by decide)) .nil

theorem isUnsigned_decimalText {d : Decimal} (h : d.digits ≠ 0 ∨ d = ⟨0, 0⟩) :
    IsUnsigned (decimalText d) := by
  rcases h with h | rfl
  · obtain ⟨c, tail, hdigits, hc, hall⟩ := significantDigits_head h
    rw [decimalText, hdigits]
    split
    · exact isUnsigned_positionalText hall hc _
    · exact isUnsigned_scientificText hall hc _
  · exact isUnsigned_zero

/-! ### Shortest digits -/

end Number

namespace Binary64

variable {x : Binary64} {d : Decimal} {k : Int}

/-- Zero does not read back as a positive number. -/
theorem RoundsTo.digits_ne_zero (hx : x.significand ≠ 0) (h : x.RoundsTo d) : d.digits ≠ 0 := by
  intro hzero
  have hpos (n : Nat) : 0 < Nat.pow 2 n := Nat.two_pow_pos n
  have hlow : 0 < x.bounds.1 := by
    rw [bounds]
    dsimp only
    split <;> omega
  have hunit : 0 < Nat.pow 10 (-d.exponent).toNat * Nat.pow 2 (x.exponent - 2).toNat :=
    Nat.mul_pos (Nat.pow_pos (by decide)) (hpos _)
  have hbelow := Nat.mul_pos hlow hunit
  simp only [RoundsTo, Decimal.toRatio, hzero, Nat.zero_mul] at h
  split at h
  · exact absurd h.1 (Nat.not_le_of_lt hbelow)
  · exact absurd h.1 (Nat.not_lt_zero _)

/-- A point of a grid that reads back as a positive number is not zero. -/
theorem digits_ne_zero_of_onGrid? (hx : x.significand ≠ 0) (h : x.onGrid? k = some d) :
    d.digits ≠ 0 := by
  rw [onGrid?] at h
  dsimp only at h
  split at h
  · next hbelow _ =>
    have hquotient := RoundsTo.digits_ne_zero hx (of_decide_eq_true hbelow)
    cases h
    dsimp only [roundDiv] at hquotient ⊢
    split
    · exact hquotient
    split
    · exact Nat.succ_ne_zero _
    · exact fun hzero => hquotient (Nat.add_eq_zero_iff.mp hzero).1
  · next hbelow _ =>
    cases h
    exact RoundsTo.digits_ne_zero hx (of_decide_eq_true hbelow)
  · cases h
    exact Nat.succ_ne_zero _
  · cases h

theorem searchGrids_digits (hx : x.significand ≠ 0) (top : Int) (count fuel : Nat) :
    (x.searchGrids top count fuel).digits ≠ 0 ∨ x.searchGrids top count fuel = ⟨0, 0⟩ := by
  induction fuel generalizing count with
  | zero =>
    rw [searchGrids]
    cases hgrid : x.onGrid? (top - 16) with
    | none => exact Or.inr rfl
    | some d => exact Or.inl (digits_ne_zero_of_onGrid? hx hgrid)
  | succ fuel ih =>
    rw [searchGrids]
    split
    · next hgrid => exact Or.inl (digits_ne_zero_of_onGrid? hx hgrid)
    · exact ih (count + 1)

end Binary64

namespace Number

open Numeral

theorem isSpelled_doubleText (x : Binary64) : IsSpelled (doubleText x) := by
  have hmagnitude :
      IsUnsigned (if x.isZero = true then ['0', '.', '0'] else decimalText x.shortest) := by
    split
    · exact isUnsigned_zero
    · next hzero =>
      have hx : x.significand ≠ 0 := fun h => hzero (beq_iff_eq.mpr h)
      exact isUnsigned_decimalText (x.searchGrids_digits hx _ 1 16)
  rw [doubleText]
  split
  · exact .minus hmagnitude
  · exact .plain hmagnitude

/-- **The text of a number is a numeral.** -/
theorem isSpelled_text (n : Number) : IsSpelled n.text := by
  cases n with
  | integer value => exact isSpelled_intText value
  | double value => exact isSpelled_doubleText value

end Number

end Restconf
