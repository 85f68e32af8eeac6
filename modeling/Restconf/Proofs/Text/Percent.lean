import Restconf.Text.Percent

/-!
# Percent escapes read back

What `Percent.encode` writes, `Percent.decode` reads, and no character that has to be escaped stands
in the written form.

## Scope

The statements are about one segment: how segments are put together and cut apart is decided in the
modules on resource paths. Reading is described in front of any further text, since a segment is
written piece by piece and nothing weaker could be used there; a text on its own is the case where
nothing follows.

## Main definitions

* `Percent.delimiters` — the characters that mean something in a path

## Main results

* `Percent.decode_encode_append`, `Percent.decode_encode` — reading undoes writing
* `Percent.not_mem_encode` — a reserved character that escapes do not use never occurs
* `Percent.not_mem_encode_of_delimiter` — so no text brings a delimiter with it
-/

namespace Restconf.Percent

/-! ### Reading what was written -/

/-- A character that is no percent sign stands for itself. -/
theorem decode_cons_of_ne {c : Char} (h : c ≠ '%') (rest : List Char) :
    decode (c :: rest) = (decode rest).map (c :: ·) := by
  rw [decode.eq_3 c rest (fun _ _ _ hc _ => h hc), if_neg h]

/-- An escape written with upper-case digits stands for the character of its code. -/
theorem decode_escape {n : Nat} (h : n < 256) (rest : List Char) :
    decode ('%' :: Hex.upper (n / 16) :: Hex.upper (n % 16) :: rest)
      = (decode rest).map (Char.ofNat n :: ·) := by
  have high : Hex.value? (Hex.upper (n / 16)) = some (n / 16) :=
    Hex.value?_upper _ (by omega)
  have low : Hex.value? (Hex.upper (n % 16)) = some (n % 16) :=
    Hex.value?_upper _ (by omega)
  rw [decode]
  simp only [high, low]
  rw [show 16 * (n / 16) + n % 16 = n by omega]

theorem ne_percent_of_kept {c : Char} (h : (isUnreserved c || 0xFF < c.toNat) = true) :
    c ≠ '%' := by
  rintro rfl
  exact absurd h (by decide)

theorem toNat_lt_of_escaped {c : Char} (h : ¬(isUnreserved c || 0xFF < c.toNat) = true) :
    c.toNat < 256 := by
  simp only [Bool.or_eq_true, decide_eq_true_eq, not_or] at h
  omega

theorem decode_encodeChar_append (c : Char) (rest : List Char) :
    decode (encodeChar c ++ rest) = (decode rest).map (c :: ·) := by
  unfold encodeChar
  split
  · next kept => exact decode_cons_of_ne (ne_percent_of_kept kept) rest
  · next escaped =>
    have small : c.toNat < 256 := toNat_lt_of_escaped escaped
    rw [List.cons_append, List.cons_append, List.cons_append, List.nil_append,
      decode_escape small, Char.ofNat_toNat]

/-- **Reading undoes writing**, whatever follows. -/
theorem decode_encode_append (text rest : List Char) :
    decode (encode text ++ rest) = (decode rest).map (text ++ ·) := by
  induction text with
  | nil => simp
  | cons c text ih =>
    rw [encode_cons, List.append_assoc, decode_encodeChar_append, ih, Option.map_map]
    rfl

theorem decode_encode (text : List Char) : decode (encode text) = some text := by
  have h := decode_encode_append text []
  rwa [List.append_nil, decode, Option.map_some, List.append_nil] at h

theorem decodeText_encodeText (text : String) : decodeText (encodeText text) = some text := by
  rw [decodeText, encodeText, String.toList_ofList, decode_encode, Option.map_some,
    String.ofList_toList]

/-! ### Characters that cannot occur -/

theorem isUnreserved_upper : ∀ n < 16, isUnreserved (Hex.upper n) = true := by decide

/-- What the escape of a character is made of. -/
theorem mem_encodeChar {c d : Char} (h : d ∈ encodeChar c) :
    d = '%' ∨ isUnreserved d = true ∨ 0xFF < d.toNat := by
  unfold encodeChar at h
  split at h
  · next kept =>
    rw [List.mem_singleton] at h
    subst h
    simp only [Bool.or_eq_true, decide_eq_true_eq] at kept
    exact Or.inr kept
  · next escaped =>
    have small : c.toNat < 256 := toNat_lt_of_escaped escaped
    simp only [List.mem_cons, List.not_mem_nil, or_false] at h
    rcases h with rfl | rfl | rfl
    · exact Or.inl rfl
    · exact Or.inr (Or.inl (isUnreserved_upper _ (by omega)))
    · exact Or.inr (Or.inl (isUnreserved_upper _ (by omega)))

/-- A character that is escaped, and that escapes do not use, is not in the written form. -/
theorem not_mem_encode {d : Char} (hpercent : d ≠ '%') (hreserved : isUnreserved d = false)
    (hsmall : d.toNat ≤ 0xFF) (text : List Char) : d ∉ encode text := by
  intro h
  obtain ⟨c, -, hc⟩ := List.mem_flatMap.mp h
  rcases mem_encodeChar hc with h | h | h
  · exact hpercent h
  · rw [hreserved] at h
    exact Bool.false_ne_true h
  · omega

/-- The characters that mean something in a path: the slash between segments, the two that end the
path of a URI, and those that divide a segment. -/
def delimiters : List Char := ['/', '?', '#', ':', '=', ',']

/-- **No text brings a delimiter with it.** Each is escaped, and no escape is made of one. -/
theorem not_mem_encode_of_delimiter {d : Char} (h : d ∈ delimiters) (text : List Char) :
    d ∉ encode text := by
  have escaped : d ≠ '%' ∧ isUnreserved d = false ∧ d.toNat ≤ 0xFF := by
    simp only [delimiters, List.mem_cons, List.not_mem_nil, or_false] at h
    rcases h with rfl | rfl | rfl | rfl | rfl | rfl <;> decide
  obtain ⟨hpercent, hreserved, hsmall⟩ := escaped
  exact not_mem_encode hpercent hreserved hsmall text

theorem encodeChar_ne_nil (c : Char) : encodeChar c ≠ [] := by
  unfold encodeChar
  split <;> exact List.cons_ne_nil _ _

theorem encode_ne_nil {text : List Char} (h : text ≠ []) : encode text ≠ [] := by
  cases text with
  | nil => exact absurd rfl h
  | cons c text =>
    rw [encode_cons]
    exact List.append_ne_nil_of_left_ne_nil (encodeChar_ne_nil c) _

end Restconf.Percent
