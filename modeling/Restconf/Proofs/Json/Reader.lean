import Restconf.Json.Parser

/-!
# Reading compact text

What the printer puts between quotes and between brackets, the reader reads, and it stops where the
printer stopped.

## Streaming statements

Every statement here is about a text with something behind it. A string ends at its quote, so
anything may follow; an array or an object ends at its bracket, likewise. Only what stands *between*
the brackets depends on what follows it: a part has to be read wherever a comma or the bracket comes
next, which is the hypothesis `Reads` on the reader of a part.

## Readers that fail

`Reads` also says which parts are refused, so the same two lemmas give the text that is read and the
text that is not: the parts of an array are read exactly if each of them is.

## Main definitions

* `Json.Ends` — what may stand behind a part
* `Json.Reads` — what a reader of parts makes of each of them

## Main results

* `Json.readString_quote` — a string is read back
* `Json.readParts_commaSeparated` — parts with commas between them
* `Json.readField_quote` — a field that begins with its name and a colon
-/

namespace Restconf.Json

/-! ### Strings -/

/-- The escape of a control character spells its code. -/
theorem spell?_control : ∀ n < 32,
    Hex.spell? ['0', '0', Hex.lower (n / 16), Hex.lower (n % 16)] = some n := by decide

theorem stringTail_of_plain {c : Char} (hquote : c ≠ '"') (hslash : c ≠ '\\')
    (hcontrol : ¬ c.toNat < 0x20) (rest : List Char) :
    stringTail (c :: rest) = (stringTail rest).map fun found => (c :: found.1, found.2) := by
  have hplain : ¬ (c.toNat < 0x20 ∨ c = '\\') := not_or.mpr ⟨hcontrol, hslash⟩
  rw [stringTail.eq_def]
  split
  · next heq => exact absurd heq (List.cons_ne_nil _ _)
  · next heq => exact absurd (List.cons.inj heq).1 hquote
  · next heq => exact absurd (List.cons.inj heq).1 hslash
  · next heq => exact absurd (List.cons.inj heq).1 hslash
  · next heq =>
    obtain ⟨rfl, rfl⟩ := List.cons.inj heq
    rw [if_neg hplain]

theorem stringTail_short {c d : Char} (h : shortEscape c = some d) (rest : List Char) :
    stringTail ('\\' :: c :: rest)
      = (stringTail rest).map fun found => (d :: found.1, found.2) := by
  have hu : c ≠ 'u' := by
    rintro rfl
    cases h
  rw [stringTail.eq_def]
  split
  · next heq => exact absurd heq (List.cons_ne_nil _ _)
  · next heq => exact absurd (List.cons.inj heq).1 (by decide)
  · next heq => exact absurd (List.cons.inj (List.cons.inj heq).2).1 hu
  · next heq =>
    obtain ⟨rfl, rfl⟩ := List.cons.inj (List.cons.inj heq).2
    rw [h]
  · next hnone heq =>
    obtain ⟨rfl, rfl⟩ := List.cons.inj heq
    exact absurd rfl (hnone c rest rfl)

theorem stringTail_control {c : Char} (h : c.toNat < 0x20) (rest : List Char) :
    stringTail ('\\' :: 'u' :: '0' :: '0' :: Hex.lower (c.toNat / 16) :: Hex.lower (c.toNat % 16)
        :: rest)
      = (stringTail rest).map fun found => (c :: found.1, found.2) := by
  have hlow : isLowSurrogate c.toNat = false := by
    simp only [isLowSurrogate, Bool.and_eq_false_iff, decide_eq_false_iff_not]
    omega
  have hhigh : isHighSurrogate c.toNat = false := by
    simp only [isHighSurrogate, Bool.and_eq_false_iff, decide_eq_false_iff_not]
    omega
  rw [stringTail, spell?_control _ h]
  simp only [hlow, hhigh, Char.ofNat_toNat]
  rfl

/-- One character between quotes. -/
theorem stringTail_escapeChar (c : Char) (rest : List Char) :
    stringTail (escapeChar c ++ rest)
      = (stringTail rest).map fun found => (c :: found.1, found.2) := by
  unfold escapeChar
  split
  · exact stringTail_short rfl rest
  · exact stringTail_short rfl rest
  · exact stringTail_short rfl rest
  · exact stringTail_short rfl rest
  · exact stringTail_short rfl rest
  · exact stringTail_short rfl rest
  · exact stringTail_short rfl rest
  · next hquote hslash _ _ _ _ _ =>
    split
    · next hcontrol => exact stringTail_control hcontrol rest
    · next hcontrol => exact stringTail_of_plain hquote hslash hcontrol rest

theorem stringTail_flatMap (s rest : List Char) :
    stringTail (s.flatMap escapeChar ++ '"' :: rest) = some (s, rest) := by
  induction s with
  | nil => rfl
  | cons c s ih =>
    rw [List.flatMap_cons, List.append_assoc, stringTail_escapeChar, ih, Option.map_some]

/-- **A string is read back.** -/
theorem readString_quote (s rest : List Char) :
    readString (quote s ++ rest) = some (.ofList s, rest) := by
  have htail : stringTail (s.flatMap escapeChar ++ ['"'] ++ rest) = some (s, rest) := by
    rw [List.append_assoc, List.singleton_append, stringTail_flatMap]
  rw [quote, List.cons_append, List.cons_append, readString, htail, Option.map_some]

/-- A string begins with a quote. -/
theorem readString_of_ne {c : Char} (h : c ≠ '"') (rest : List Char) :
    readString (c :: rest) = none := by
  unfold readString
  split
  · next heq => exact absurd (List.cons.inj heq).1 h
  · rfl

/-! ### White space -/

theorem skipBlank_cons {c : Char} (h : isBlank c = false) (rest : List Char) :
    skipBlank (c :: rest) = c :: rest := by
  rw [skipBlank, List.dropWhile_cons, h]
  rfl

/-! ### Parts -/

/-- What stands behind a part of an array or an object: a comma, or the closing bracket. -/
def Ends (close : Char) (rest : List Char) : Prop :=
  ∃ c tail, rest = c :: tail ∧ (c = ',' ∨ c = close)

/-- What a reader makes of the parts of an array or an object: each of the given texts stands for
its value wherever a part may stand, or is refused there. -/
def Reads {β α : Type} (part : Reader α) (close : Char) (fuel : Nat) (text : β → List Char)
    (value : β → Option α) (items : List β) : Prop :=
  ∀ b ∈ items, (∃ c tail, text b = c :: tail ∧ isBlank c = false ∧ c ≠ close)
    ∧ ∀ rest, Ends close rest → (text b ++ rest).length ≤ fuel →
      part (text b ++ rest) = (value b).map fun a => (a, rest)

section Parts

variable {β α : Type} {part : Reader α} {close : Char} {fuel : Nat} {text : β → List Char}
  {value : β → Option α}

theorem ends_flatMap (items : List β) (rest : List Char) :
    Ends close ((items.flatMap fun b => ',' :: text b) ++ close :: rest) := by
  cases items with
  | nil => exact ⟨close, rest, rfl, Or.inr rfl⟩
  | cons b items => exact ⟨',', _, rfl, Or.inl rfl⟩

/-- The further parts, each behind its comma. The loop takes one unit of fuel for each, and the
length of what is still to be read bounds their number. -/
theorem readMore_flatMap (hclose : isBlank close = false) (hcomma : close ≠ ',')
    (rest : List Char) : ∀ {items : List β} {loop : Nat}, Reads part close fuel text value items →
      ((items.flatMap fun b => ',' :: text b) ++ close :: rest).length ≤ fuel →
      ((items.flatMap fun b => ',' :: text b) ++ close :: rest).length ≤ loop →
      readMore part close loop ((items.flatMap fun b => ',' :: text b) ++ close :: rest)
        = (items.mapM value).map fun found => (found, rest) := by
  intro items
  induction items with
  | nil =>
    intro loop _ _ hloop
    obtain ⟨loop, rfl⟩ : ∃ n, loop = n + 1 := Nat.exists_eq_succ_of_ne_zero (by
      rintro rfl
      simp at hloop)
    rw [List.flatMap_nil, List.nil_append, readMore, skipBlank_cons hclose]
    simp
  | cons b items ih =>
    intro loop hreads hfuel hloop
    obtain ⟨⟨⟨c, tail, htext, hblank, hne⟩, hread⟩, hitems⟩ := List.forall_mem_cons.mp hreads
    have hlength : (text b ++ ((items.flatMap fun b => ',' :: text b) ++ close :: rest)).length + 1
        = (((b :: items).flatMap fun b => ',' :: text b) ++ close :: rest).length := by
      simp [Nat.add_assoc, Nat.add_comm, Nat.add_left_comm]
    obtain ⟨loop, rfl⟩ : ∃ n, loop = n + 1 := Nat.exists_eq_succ_of_ne_zero (by omega)
    have hends : Ends close ((items.flatMap fun b => ',' :: text b) ++ close :: rest) :=
      ends_flatMap items rest
    have hpart := hread _ hends (by omega)
    rw [List.length_append] at hlength
    have hmore := @ih loop hitems (by omega) (by omega)
    rw [List.flatMap_cons, List.append_assoc, List.cons_append, readMore,
      skipBlank_cons (by decide)]
    simp only [if_neg (Ne.symm hcomma), if_true]
    rw [htext, List.cons_append, skipBlank_cons hblank, ← List.cons_append, ← htext, hpart]
    cases hvalue : value b with
    | none => simp [hvalue]
    | some a =>
      simp only [Option.map_some, Option.bind_eq_bind, Option.bind_some, hmore]
      cases hrest : items.mapM value <;> simp [hvalue, hrest]

/-- **Parts with commas between them**, up to the closing bracket. -/
theorem readParts_commaSeparated (hclose : isBlank close = false) (hcomma : close ≠ ',')
    {items : List β} (hreads : Reads part close fuel text value items) (rest : List Char)
    (hfuel : (commaSeparated (items.map text) ++ close :: rest).length ≤ fuel) :
    readParts part close fuel (commaSeparated (items.map text) ++ close :: rest)
      = (items.mapM value).map fun found => (found, rest) := by
  have hseparated : ∀ (b : β) (items : List β), commaSeparated ((b :: items).map text)
      = text b ++ items.flatMap fun b => ',' :: text b := by
    intro b items
    induction items generalizing b with
    | nil => simp [commaSeparated]
    | cons second items ih =>
      have := ih second
      rw [commaSeparated, List.map_cons] at this ⊢
      rw [List.map_cons, List.intercalate_cons_cons, this]
      simp
  cases items with
  | nil =>
    rw [List.map_nil, commaSeparated, List.intercalate_nil, List.nil_append, readParts,
      skipBlank_cons hclose]
    simp
  | cons b items =>
    obtain ⟨⟨⟨c, tail, htext, hblank, hne⟩, hread⟩, hitems⟩ := List.forall_mem_cons.mp hreads
    rw [hseparated, List.append_assoc] at hfuel ⊢
    have hends : Ends close ((items.flatMap fun b => ',' :: text b) ++ close :: rest) :=
      ends_flatMap items rest
    have hpart := hread _ hends hfuel
    have hshorter : ((items.flatMap fun b => ',' :: text b) ++ close :: rest).length ≤ fuel := by
      rw [List.length_append] at hfuel
      omega
    have hmore := readMore_flatMap hclose hcomma rest hitems hshorter hshorter
    rw [readParts, htext, List.cons_append, skipBlank_cons hblank]
    simp only [if_neg hne]
    rw [← List.cons_append, ← htext, hpart]
    cases hvalue : value b with
    | none => simp [hvalue]
    | some a =>
      simp only [Option.map_some, Option.bind_eq_bind, Option.bind_some, hmore]
      cases hrest : items.mapM value <;> simp [hvalue, hrest]

end Parts

/-! ### One level -/

theorem read_array (fuel limit : Nat) (rest : List Char) :
    read fuel (limit + 1) ('[' :: rest)
      = (readParts (read fuel limit) ']' fuel rest).map fun found => (array found.1, found.2) := by
  rw [read]

theorem read_object (fuel limit : Nat) (rest : List Char) :
    read fuel (limit + 1) ('{' :: rest)
      = (readParts (readField readString fun _ => read fuel limit) '}' fuel rest).map
          fun found => (object found.1, found.2) := by
  rw [read]

theorem read_quote (fuel limit : Nat) (s rest : List Char) :
    read fuel limit (quote s ++ rest) = some (string (.ofList s), rest) := by
  have hscalar : readScalar (quote s ++ rest) = some (string (.ofList s), rest) := by
    have := readString_quote s rest
    rw [quote, List.cons_append, List.cons_append] at this ⊢
    rw [readScalar, this, Option.map_some]
  rw [← hscalar, quote, List.cons_append, List.cons_append]
  cases limit <;> rw [read] <;> simp

/-- A field, once its name has been read. -/
theorem readField_colon {ν α : Type} {name : Reader ν} {n : ν} {text : List Char}
    (value : ν → Reader α) {c : Char} (h : isBlank c = false) {rest : List Char}
    (hname : name text = some (n, ':' :: c :: rest)) :
    readField name value text = (value n (c :: rest)).map fun found => ((n, found.1), found.2) := by
  rw [readField, hname]
  simp only [Option.bind_eq_bind, Option.bind_some]
  rw [skipBlank_cons (by decide)]
  simp only [skipBlank_cons h]
  cases value n (c :: rest) <;> rfl

/-- A field that begins with its name and a colon. -/
theorem readField_quote {α : Type} (name : List Char) (value : String → Reader α) {c : Char}
    (h : isBlank c = false) (rest : List Char) :
    readField readString value (quote name ++ ':' :: c :: rest)
      = (value (.ofList name) (c :: rest)).map fun found =>
          ((.ofList name, found.1), found.2) :=
  readField_colon value h (readString_quote name _)

/-! ### Values -/

theorem text_array (items : List Json) :
    text (.array items) = '[' :: commaSeparated (itemTexts items) ++ [']'] := rfl

theorem text_object (fields : List (String × Json)) :
    text (.object fields) = '{' :: commaSeparated (fieldTexts fields) ++ ['}'] := rfl

theorem itemTexts_eq_map (items : List Json) : itemTexts items = items.map text := by
  induction items with
  | nil => rfl
  | cons item items ih =>
    rw [itemTexts, ih, List.map_cons]

theorem fieldTexts_eq_map (fields : List (String × Json)) :
    fieldTexts fields = fields.map fun field => quote field.1.toList ++ ':' :: text field.2 := by
  induction fields with
  | nil => rfl
  | cons field fields ih =>
    rw [fieldTexts, ih, List.map_cons]

/-- The text of a field. -/
def labelled (field : String × Json) : List Char := quote field.1.toList ++ ':' :: text field.2

theorem text_array_append (items : List Json) (rest : List Char) :
    (array items).text ++ rest = '[' :: (commaSeparated (items.map text) ++ ']' :: rest) := by
  rw [text_array, itemTexts_eq_map, List.cons_append, List.cons_append, List.append_assoc,
    List.singleton_append]

theorem text_object_append (fields : List (String × Json)) (rest : List Char) :
    (object fields).text ++ rest
      = '{' :: (commaSeparated (fields.map labelled) ++ '}' :: rest) := by
  rw [text_object, fieldTexts_eq_map, List.cons_append, List.cons_append, List.append_assoc,
    List.singleton_append]
  rfl

end Restconf.Json
