import Mathlib.Tactic.SplitIfs
import Restconf.Proofs.Text.Percent

/-!
# The written forms of a text

A text has many written forms: any character up to `U+00FF` may be written as an escape, and its
digits may be of either case. `Percent.Renders` is the grammar of these forms, one character after
another, and `Percent.decode` accepts exactly what the grammar derives.

## Why the grammar goes by the text

Reading goes by the written form: at a percent sign it looks two characters ahead. The grammar goes
by the characters of the *text*, each of which is written in one of two ways, so that nothing has to
be looked up in the table of digits. The two agree because a digit of a given value is one of two
characters (`Hex.value?_eq_some_iff`). The percent sign is the only character with one way only: if
it could stand for itself, `%41` would be a form of two texts.

## Main definitions

* `Percent.IsEscapeOf` — the digits of the escape of a character
* `Percent.Renders` — the written forms of a text

## Main results

* `Hex.value?_eq_some_iff` — the digits of a number
* `Percent.decode_eq_some_iff` — reading inverts the grammar
-/

namespace Restconf

/-! ### Digits -/

namespace Hex

/-- A character between two others has its code between theirs. -/
theorem toNat_of_between {first last c : Char} (h : first ≤ c ∧ c ≤ last) :
    first.toNat ≤ c.toNat ∧ c.toNat ≤ last.toNat :=
  ⟨UInt32.le_iff_toNat_le.mp h.1, UInt32.le_iff_toNat_le.mp h.2⟩

/-- **The digits of a number below sixteen** are the upper-case one and the lower-case one. -/
theorem value?_eq_some_iff {c : Char} {n : Nat} :
    value? c = some n ↔ n < 16 ∧ (c = upper n ∨ c = lower n) := by
  constructor
  · intro h
    unfold value? at h
    split_ifs at h with decimal small large
    · have bounds : 48 ≤ c.toNat ∧ c.toNat ≤ 57 := toNat_of_between decimal
      obtain rfl : c.toNat - 48 = n := Option.some.inj h
      have code : 48 + (c.toNat - 48) = c.toNat := by omega
      refine ⟨by omega, Or.inl ?_⟩
      rw [upper, if_pos (by omega), show '0'.toNat = 48 from rfl, code, Char.ofNat_toNat]
    · have bounds : 97 ≤ c.toNat ∧ c.toNat ≤ 102 := toNat_of_between small
      obtain rfl : c.toNat - 97 + 10 = n := Option.some.inj h
      have code : 97 + (c.toNat - 97 + 10 - 10) = c.toNat := by omega
      refine ⟨by omega, Or.inr ?_⟩
      rw [lower, if_neg (by omega), show 'a'.toNat = 97 from rfl, code, Char.ofNat_toNat]
    · have bounds : 65 ≤ c.toNat ∧ c.toNat ≤ 70 := toNat_of_between large
      obtain rfl : c.toNat - 65 + 10 = n := Option.some.inj h
      have code : 65 + (c.toNat - 65 + 10 - 10) = c.toNat := by omega
      refine ⟨by omega, Or.inl ?_⟩
      rw [upper, if_neg (by omega), show 'A'.toNat = 65 from rfl, code, Char.ofNat_toNat]
  · rintro ⟨hn, rfl | rfl⟩
    · exact value?_upper n hn
    · exact value?_lower n hn

/-- A hexadecimal digit of either case. -/
def IsDigit (c : Char) : Prop :=
  ('0' ≤ c ∧ c ≤ '9') ∨ ('a' ≤ c ∧ c ≤ 'f') ∨ ('A' ≤ c ∧ c ≤ 'F')

instance (c : Char) : Decidable (IsDigit c) :=
  inferInstanceAs (Decidable (_ ∨ _ ∨ _))

/-- The digits are the characters that have a value. -/
theorem isDigit_iff {c : Char} : IsDigit c ↔ ∃ n, value? c = some n := by
  unfold IsDigit value?
  split_ifs with decimal small large
  · exact iff_of_true (Or.inl decimal) ⟨_, rfl⟩
  · exact iff_of_true (Or.inr (Or.inl small)) ⟨_, rfl⟩
  · exact iff_of_true (Or.inr (Or.inr large)) ⟨_, rfl⟩
  · refine iff_of_false ?_ fun ⟨_, h⟩ => nomatch h
    rintro (h | h | h)
    · exact decimal h
    · exact small h
    · exact large h

theorem IsDigit.ne_percent {c : Char} (h : IsDigit c) : c ≠ '%' := by
  rintro rfl
  exact absurd h (by decide)

end Hex

/-! ### Escapes -/

namespace Percent

/-- The two digits, of either case, that spell the code of a character. -/
structure IsEscapeOf (c high low : Char) : Prop where
  small : c.toNat ≤ 0xFF
  high : high = Hex.upper (c.toNat / 16) ∨ high = Hex.lower (c.toNat / 16)
  low : low = Hex.upper (c.toNat % 16) ∨ low = Hex.lower (c.toNat % 16)

theorem toNat_ofNat_of_lt {n : Nat} (h : n < 256) : (Char.ofNat n).toNat = n := by
  have valid : n.isValidChar := Or.inl (by omega)
  rw [Char.ofNat, dif_pos valid]
  rfl

/-- Two digits stand for the character whose code they spell, and for no other. -/
theorem isEscapeOf_iff {c high low : Char} :
    IsEscapeOf c high low ↔ ∃ h l, Hex.value? high = some h ∧ Hex.value? low = some l
      ∧ c = Char.ofNat (16 * h + l) := by
  simp only [Hex.value?_eq_some_iff]
  constructor
  · rintro ⟨small, hhigh, hlow⟩
    refine ⟨c.toNat / 16, c.toNat % 16, ⟨by omega, hhigh⟩, ⟨by omega, hlow⟩, ?_⟩
    rw [Nat.div_add_mod, Char.ofNat_toNat]
  · rintro ⟨h, l, ⟨hsmall, hhigh⟩, ⟨lsmall, hlow⟩, rfl⟩
    have code : (Char.ofNat (16 * h + l)).toNat = 16 * h + l := toNat_ofNat_of_lt (by omega)
    refine ⟨by omega, ?_, ?_⟩
    · rwa [code, show (16 * h + l) / 16 = h by omega]
    · rwa [code, show (16 * h + l) % 16 = l by omega]

theorem decode_of_isEscapeOf {c high low : Char} (h : IsEscapeOf c high low) (rest : List Char) :
    decode ('%' :: high :: low :: rest) = (decode rest).map (c :: ·) := by
  obtain ⟨a, b, hhigh, hlow, rfl⟩ := isEscapeOf_iff.mp h
  simp only [decode, hhigh, hlow]

/-! ### Written forms -/

/-- The written forms of a text. -/
inductive Renders : (written text : List Char) → Prop where
  | nil : Renders [] []
  /-- A character stands for itself, but the percent sign never does. -/
  | literal {c : Char} {written text : List Char} (plain : c ≠ '%')
      (rest : Renders written text) : Renders (c :: written) (c :: text)
  /-- A character up to `U+00FF` is written as the escape of its code. -/
  | escape {c high low : Char} {written text : List Char} (digits : IsEscapeOf c high low)
      (rest : Renders written text) : Renders ('%' :: high :: low :: written) (c :: text)

/-- **A text is read from its written forms**, and from nothing else. -/
theorem decode_eq_some_iff {written text : List Char} :
    decode written = some text ↔ Renders written text := by
  constructor
  · intro h
    -- the cases of the reader; in the third and the fourth a percent sign has no digits behind it
    fun_induction decode written generalizing text with
    | case1 =>
      obtain rfl := Option.some.inj h
      exact .nil
    | case2 high low rest a b hlow hhigh ih =>
      obtain ⟨text, htext, rfl⟩ := Option.map_eq_some_iff.mp h
      exact .escape (isEscapeOf_iff.mpr ⟨a, b, hhigh, hlow, rfl⟩) (ih htext)
    | case3 => cases h
    | case4 => cases h
    | case5 c rest _ plain ih =>
      obtain ⟨text, htext, rfl⟩ := Option.map_eq_some_iff.mp h
      exact .literal plain (ih htext)
  · intro h
    induction h with
    | nil => rfl
    | literal plain _ ih => rw [decode_cons_of_ne plain, ih, Option.map_some]
    | escape digits _ ih => rw [decode_of_isEscapeOf digits, ih, Option.map_some]

section Renders

variable {front text : List Char} {c high low : Char}

/-- Where one character ends and the next begins does not depend on what follows. -/
theorem Renders.decode_append (h : Renders front text) (rest : List Char) :
    decode (front ++ rest) = (decode rest).map (text ++ ·) := by
  induction h with
  | nil => simp
  | literal plain _ ih =>
    rw [List.cons_append, decode_cons_of_ne plain, ih, Option.map_map]
    rfl
  | escape digits _ ih =>
    rw [List.cons_append, List.cons_append, List.cons_append, decode_of_isEscapeOf digits, ih,
      Option.map_map]
    rfl

/-- **A literal character and its escape are the same to a reader.** -/
theorem Renders.decode_escape_append (h : Renders front text) (plain : c ≠ '%')
    (digits : IsEscapeOf c high low) (rest : List Char) :
    decode (front ++ '%' :: high :: low :: rest) = decode (front ++ c :: rest) := by
  rw [h.decode_append, h.decode_append, decode_of_isEscapeOf digits, decode_cons_of_ne plain]

end Renders

/-! ### What is a written form at all -/

/-- Two hexadecimal digits at the head of a text. -/
def BeginsWithDigits (text : List Char) : Prop :=
  ∃ high low rest, text = high :: low :: rest ∧ Hex.IsDigit high ∧ Hex.IsDigit low

/-- Every percent sign has two hexadecimal digits behind it. -/
def IsEscaped (written : List Char) : Prop :=
  ∀ behind, '%' :: behind <:+ written → BeginsWithDigits behind

section IsEscaped

variable {c high low : Char} {written rest : List Char}

theorem isEscaped_nil : IsEscaped [] := by
  intro behind h
  exact absurd (List.suffix_nil.mp h) (List.cons_ne_nil _ _)

theorem isEscaped_cons_iff :
    IsEscaped (c :: rest) ↔ (c = '%' → BeginsWithDigits rest) ∧ IsEscaped rest := by
  simp only [IsEscaped, List.suffix_cons_iff, List.cons.injEq]
  constructor
  · intro h
    refine ⟨fun hc => ?_, fun behind hbehind => h behind (Or.inr hbehind)⟩
    exact h rest (Or.inl ⟨hc.symm, rfl⟩)
  · rintro ⟨hdigits, hrest⟩ behind (⟨hc, rfl⟩ | hbehind)
    · exact hdigits hc.symm
    · exact hrest behind hbehind

theorem isEscaped_cons_of_ne (h : c ≠ '%') : IsEscaped (c :: rest) ↔ IsEscaped rest := by
  rw [isEscaped_cons_iff]
  exact and_iff_right fun hc => absurd hc h

/-- Behind the digits of an escape the text goes on as if it began there. -/
theorem isEscaped_escape_iff (hhigh : Hex.IsDigit high) (hlow : Hex.IsDigit low) :
    IsEscaped ('%' :: high :: low :: rest) ↔ IsEscaped rest := by
  rw [isEscaped_cons_iff, isEscaped_cons_of_ne hhigh.ne_percent,
    isEscaped_cons_of_ne hlow.ne_percent]
  exact and_iff_right fun _ => ⟨high, low, rest, rfl, hhigh, hlow⟩

/-- **What can be read is what has digits behind every percent sign.** -/
theorem isSome_decode_iff : (decode written).isSome ↔ IsEscaped written := by
  -- the cases of the reader; in the third and the fourth a percent sign has no digits behind it
  fun_induction decode written with
  | case1 => exact iff_of_true rfl isEscaped_nil
  | case2 high low rest a b hlow hhigh ih =>
    rw [Option.isSome_map, ih, isEscaped_escape_iff (Hex.isDigit_iff.mpr ⟨a, hhigh⟩)
      (Hex.isDigit_iff.mpr ⟨b, hlow⟩)]
  | case3 high low rest hnone =>
    refine iff_of_false Bool.false_ne_true fun h => ?_
    obtain ⟨_, _, _, heq, hhigh, hlow⟩ := (isEscaped_cons_iff.mp h).1 rfl
    obtain ⟨rfl, rfl, rfl⟩ : high = _ ∧ low = _ ∧ rest = _ := by simpa using heq
    obtain ⟨a, ha⟩ := Hex.isDigit_iff.mp hhigh
    obtain ⟨b, hb⟩ := Hex.isDigit_iff.mp hlow
    exact hnone a b ha hb
  | case4 rest hshort =>
    refine iff_of_false Bool.false_ne_true fun h => ?_
    obtain ⟨high, low, others, rfl, -⟩ := (isEscaped_cons_iff.mp h).1 rfl
    exact hshort high low others rfl rfl
  | case5 c rest _ plain ih => rw [Option.isSome_map, ih, isEscaped_cons_of_ne plain]

/-- A written text has no stray percent sign: it can be read. -/
theorem isEscaped_encode (text : List Char) : IsEscaped (encode text) := by
  refine isSome_decode_iff.mp ?_
  rw [decode_encode]
  rfl

end IsEscaped

end Percent

end Restconf
