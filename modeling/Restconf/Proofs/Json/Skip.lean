import Restconf.Json.Shape
import Restconf.Proofs.Json.Merge
import Restconf.Proofs.Json.Numeral

/-!
# Passing over compact text

Every value that is printed can be passed over, whatever it holds and however deep it nests, and
whoever passes over it ends up where its text ends.

## Reading and passing over

A value that nobody wants is not always one that could be read: it may nest too deep, and its
numbers may have no value. What can be read can be passed over, though, and of strings this is all
that is needed. So strings come from the reader, numbers from the form of numerals, and arrays and
objects from an induction that does not know of any limit.

## Main results

* `Json.text_eq_cons` — where a value can stand
* `Json.skipStringTail_of_stringTail` — what can be read can be passed over
* `Json.skip_text` — the headline
-/

namespace Restconf

theorem mapM_some {α β : Type} (f : α → β) (items : List α) :
    (items.mapM fun a => some (f a)) = some (items.map f) :=
  List.mapM_pure

namespace Json

open Numeral

/-! ### Where a value can stand -/

/-- A character that is no white space and closes nothing. -/
def BeginsPart (c : Char) : Prop := isBlank c = false ∧ c ≠ ']' ∧ c ≠ '}'

instance (c : Char) : Decidable (BeginsPart c) := by unfold BeginsPart; infer_instance

theorem beginsPart_of_digit {c : Char} (h : (digit? c).isSome = true) : BeginsPart c := by
  refine ⟨Bool.eq_false_iff.mpr fun hblank => ?_, ?_, ?_⟩
  · simp only [isBlank, Bool.or_eq_true, beq_iff_eq] at hblank
    rcases hblank with ((rfl | rfl) | rfl) | rfl <;> cases h
  · rintro rfl
    cases h
  · rintro rfl
    cases h

/-- The text of a number begins with a digit or with a minus sign. -/
theorem numberText_eq_cons (n : Number) :
    ∃ c tail, n.text = c :: tail ∧ ((digit? c).isSome = true ∨ c = '-') := by
  have hspelled := n.isSpelled_text
  generalize n.text = text at hspelled ⊢
  cases hspelled with
  | plain h =>
    obtain ⟨c, tail, rfl, hc⟩ := h.head
    exact ⟨c, tail, rfl, Or.inl hc⟩
  | minus h => exact ⟨'-', _, rfl, Or.inr rfl⟩

/-- **Where a value can stand**: its text begins a part of an array or an object. -/
theorem text_eq_cons (value : Json) : ∃ c tail, value.text = c :: tail ∧ BeginsPart c := by
  cases value with
  | null => exact ⟨'n', _, rfl, by decide⟩
  | bool b => cases b <;> exact ⟨_, _, rfl, by decide⟩
  | number n =>
    obtain ⟨c, tail, htext, hc⟩ := numberText_eq_cons n
    refine ⟨c, tail, htext, ?_⟩
    rcases hc with hc | rfl
    · exact beginsPart_of_digit hc
    · decide
  | string s => exact ⟨'"', _, rfl, by decide⟩
  | array items => exact ⟨'[', _, rfl, by decide⟩
  | object fields => exact ⟨'{', _, rfl, by decide⟩

/-- Where a part ends, a numeral ends too. -/
theorem Ends.stops {close : Char} {rest : List Char} (h : Ends close rest)
    (hclose : close = ']' ∨ close = '}') : Stops rest := by
  obtain ⟨c, tail, rfl, hc⟩ := h
  have hall : c = ',' ∨ c = ']' ∨ c = '}' := by
    rcases hc with rfl | rfl
    · exact Or.inl rfl
    · exact Or.inr hclose
  rcases hall with rfl | rfl | rfl <;>
    exact ⟨stopsDigits_cons rfl tail, by simp, by simp⟩

/-! ### Values without parts -/

/-- A reader that only adds to what another one finds stops where that one stops. -/
theorem exists_of_map {α β : Type} {o : Option (α × List Char)} {g : α × List Char → β × List Char}
    {found : β} {rest : List Char} (h : o.map g = some (found, rest)) (hg : ∀ x, (g x).2 = x.2) :
    ∃ a, o = some (a, rest) := by
  obtain ⟨⟨a, behind⟩, ho, heq⟩ := Option.map_eq_some_iff.mp h
  obtain rfl : behind = rest := (hg (a, behind)).symm.trans (congrArg Prod.snd heq)
  exact ⟨a, ho⟩

/-- **What can be read can be passed over**, inside of a string. -/
theorem skipStringTail_of_stringTail {text rest s : List Char}
    (h : stringTail text = some (s, rest)) : skipStringTail text = some ((), rest) := by
  fun_induction stringTail text generalizing s rest with
  | case1 | case3 | case4 | case5 | case7 | case8 | case11 | case12 => cases h
  | case2 =>
    cases h
    rfl
  | case6 a b c d high hhigh _ _ e f g h' behind low hlow _ ih =>
    obtain ⟨found, hfound⟩ := exists_of_map h fun _ => rfl
    simp only [skipStringTail, hhigh, hlow, Option.isSome_some, if_true]
    exact ih hfound
  | case9 a b c d behind unit hunit _ _ ih =>
    obtain ⟨found, hfound⟩ := exists_of_map h fun _ => rfl
    simp only [skipStringTail, hunit, Option.isSome_some, if_true]
    exact ih hfound
  | case10 c behind hshort d hescape ih =>
    obtain ⟨found, hfound⟩ := exists_of_map h fun _ => rfl
    rw [skipStringTail]
    · rw [hescape, Option.isSome_some, if_pos rfl]
      exact ih hfound
    · exact hshort
  | case13 c behind hquote hlong hshort hplain ih =>
    obtain ⟨found, hfound⟩ := exists_of_map h fun _ => rfl
    rw [skipStringTail]
    · rw [if_neg hplain]
      exact ih hfound
    · exact hquote
    · exact hlong
    · exact hshort

theorem skipString_quote (s rest : List Char) :
    skipString (quote s ++ rest) = some ((), rest) := by
  have hread := readString_quote s rest
  rw [quote, List.cons_append, List.cons_append] at hread ⊢
  rw [readString] at hread
  obtain ⟨found, hfound⟩ := exists_of_map hread fun _ => rfl
  exact skipStringTail_of_stringTail hfound

/-- A number is passed over as a numeral. -/
theorem skip_number (n : Number) (fuel : Nat) {rest : List Char} (hrest : Stops rest) :
    skip (fuel + 1) (n.text ++ rest) = some ((), rest) := by
  obtain ⟨numeral, hnumeral⟩ := parse_append n.isSpelled_text hrest
  obtain ⟨c, tail, htext, hc⟩ := numberText_eq_cons n
  have hne {d : Char} (hd : digit? d = none) (hminus : d ≠ '-') : c ≠ d := by
    rintro rfl
    rcases hc with hc | hc
    · rw [hd] at hc
      cases hc
    · exact hminus hc
  rw [htext, List.cons_append] at hnumeral ⊢
  rw [skip, skipScalar]
  · rw [ignored, hnumeral, Option.map_some]
  all_goals exact fun _ heq => hne rfl (by decide) (List.cons.inj heq).1

/-! ### Whole values -/

theorem exists_fuel {value : Json} {fuel : Nat} {rest : List Char}
    (hfuel : (value.text ++ rest).length ≤ fuel) : ∃ n, fuel = n + 1 := by
  obtain ⟨c, tail, htext, -⟩ := value.text_eq_cons
  rw [htext, List.cons_append, List.length_cons] at hfuel
  exact Nat.exists_eq_succ_of_ne_zero (Nat.ne_of_gt (Nat.lt_of_lt_of_le (Nat.succ_pos _) hfuel))

/-- **Every printed value can be passed over**, up to its end. -/
theorem skip_text (value : Json) {fuel : Nat} {rest : List Char} (hrest : Stops rest)
    (hfuel : (value.text ++ rest).length ≤ fuel) :
    skip fuel (value.text ++ rest) = some ((), rest) := by
  induction value using induction generalizing fuel rest with
  | null =>
    obtain ⟨fuel, rfl⟩ := exists_fuel hfuel
    rfl
  | bool b =>
    obtain ⟨fuel, rfl⟩ := exists_fuel hfuel
    cases b <;> rfl
  | number n =>
    obtain ⟨fuel, rfl⟩ := exists_fuel hfuel
    exact skip_number n fuel hrest
  | string s =>
    obtain ⟨fuel, rfl⟩ := exists_fuel hfuel
    exact skipString_quote s.toList rest
  | array items ih =>
    obtain ⟨fuel, rfl⟩ := exists_fuel hfuel
    rw [text_array_append, List.length_cons] at hfuel
    have hreads : Reads (skip fuel) ']' fuel text (fun _ => some ()) items := by
      intro item hmem
      obtain ⟨c, tail, htext, hblank, hclose, -⟩ := item.text_eq_cons
      exact ⟨⟨c, tail, htext, hblank, hclose⟩,
        fun rest hends hlength => ih item hmem (hends.stops (Or.inl rfl)) hlength⟩
    rw [text_array_append, skip, ignored,
      readParts_commaSeparated rfl (by decide) hreads rest (by omega), mapM_some]
    rfl
  | object fields ih =>
    obtain ⟨fuel, rfl⟩ := exists_fuel hfuel
    rw [text_object_append, List.length_cons] at hfuel
    have hreads : Reads (readField skipString fun _ => skip fuel) '}' fuel labelled
        (fun _ => some ((), ())) fields := by
      intro field hmem
      refine ⟨⟨'"', _, rfl, by decide⟩, fun rest hends hlength => ?_⟩
      obtain ⟨c, tail, htext, hblank, -⟩ := field.2.text_eq_cons
      have hvalue := @ih field hmem fuel rest (hends.stops (Or.inr rfl)) (by
        simp only [labelled, List.length_append, List.length_cons] at hlength ⊢
        omega)
      have hname : skipString (labelled field ++ rest) = some ((), ':' :: c :: (tail ++ rest)) := by
        simp only [labelled, htext, List.append_assoc, List.cons_append, skipString_quote]
      rw [htext, List.cons_append] at hvalue
      rw [readField_colon _ hblank hname, hvalue]
      rfl
    rw [text_object_append, skip, ignored,
      readParts_commaSeparated rfl (by decide) hreads rest (by omega), mapM_some]
    rfl

end Json

end Restconf
