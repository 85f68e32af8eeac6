/-!
# Balance

Sequences in which whatever is opened is closed by its counterpart. Brackets of a text are such a
sequence, and so are the calls that make a receiver write them.

## Main definitions

* `IsBalanced` — balanced sequences, for any pairs of opening and closing

## Main results

* `IsBalanced.insert` — something balanced may stand anywhere in something balanced
* `IsBalanced.flatMap` — what stands for a balanced sequence is balanced
* `IsBalanced.countP_eq` — as much is opened as is closed
-/

namespace Restconf

/-- **A balanced sequence.** Something opening and its counterpart stand around something balanced;
what is flat stands anywhere. -/
inductive IsBalanced {α : Type} (flat : α → Prop) (pair : α → α → Prop) : List α → Prop where
  | nil : IsBalanced flat pair []
  | append {first second : List α} (h : IsBalanced flat pair first)
      (h' : IsBalanced flat pair second) : IsBalanced flat pair (first ++ second)
  | single {a : α} (h : flat a) : IsBalanced flat pair [a]
  | enclosed {opening closing : α} (counterpart : pair opening closing) {inner : List α}
      (h : IsBalanced flat pair inner) : IsBalanced flat pair (opening :: inner ++ [closing])

variable {α : Type} {flat : α → Prop} {pair : α → α → Prop}

/-- A place in a sequence between two ends is in front of both, behind both, or between them. -/
theorem enclosed_cases {opening closing : α} {inner before after : List α}
    (h : opening :: inner ++ [closing] = before ++ after) :
    before = [] ∨ after = []
      ∨ ∃ first second, inner = first ++ second ∧ before = opening :: first
          ∧ after = second ++ [closing] := by
  cases before with
  | nil => exact Or.inl rfl
  | cons a before =>
    rcases List.eq_nil_or_concat after with rfl | ⟨second, last, rfl⟩
    · exact Or.inr (Or.inl rfl)
    · rw [List.concat_eq_append, List.cons_append, List.cons_append, List.cons.injEq,
        ← List.append_assoc] at h
      obtain ⟨rfl, hrest⟩ := h
      obtain ⟨rfl, hlast⟩ := List.append_inj' hrest rfl
      obtain rfl := List.head_eq_of_cons_eq hlast
      exact Or.inr (Or.inr ⟨before, second, rfl, rfl, List.concat_eq_append⟩)

namespace IsBalanced

/-- **Something balanced may stand anywhere in something balanced.** -/
theorem insert {whole before after inner : List α} (h : IsBalanced flat pair whole)
    (hwhole : whole = before ++ after) (hinner : IsBalanced flat pair inner) :
    IsBalanced flat pair (before ++ inner ++ after) := by
  induction h generalizing before after with
  | nil =>
    obtain ⟨rfl, rfl⟩ := List.append_eq_nil_iff.mp hwhole.symm
    simpa using hinner
  | append h h' ih ih' =>
    rcases List.append_eq_append_iff.mp hwhole with ⟨more, rfl, rfl⟩ | ⟨more, rfl, rfl⟩
    · simpa using h.append (ih' rfl)
    · simpa using (ih rfl).append h'
  | @single a h =>
    cases before with
    | nil =>
      obtain rfl : [a] = after := hwhole
      exact hinner.append (.single h)
    | cons b before =>
      obtain ⟨rfl, hrest⟩ := List.cons.inj hwhole
      obtain ⟨rfl, rfl⟩ := List.append_eq_nil_iff.mp hrest.symm
      simpa using (single h).append hinner
  | enclosed counterpart h ih =>
    rcases enclosed_cases hwhole with rfl | rfl | ⟨first, second, rfl, rfl, rfl⟩
    · obtain rfl : _ = after := hwhole
      exact hinner.append (.enclosed counterpart h)
    · obtain rfl : _ = before := hwhole.trans (List.append_nil _)
      simpa using (enclosed counterpart h).append hinner
    · simpa using enclosed counterpart (ih rfl)

/-- What stands for a balanced sequence is balanced, if it is for each pair. -/
theorem flatMap {β : Type} {flat' : β → Prop} {pair' : β → β → Prop} {f : α → List β}
    (hflat : ∀ a, flat a → IsBalanced flat' pair' (f a))
    (hpair : ∀ opening closing, pair opening closing →
      ∃ opening' closing', f opening = [opening'] ∧ f closing = [closing']
        ∧ pair' opening' closing')
    {whole : List α} (h : IsBalanced flat pair whole) :
    IsBalanced flat' pair' (whole.flatMap f) := by
  induction h with
  | nil => exact .nil
  | append _ _ ih ih' =>
    rw [List.flatMap_append]
    exact ih.append ih'
  | @single a h =>
    rw [List.flatMap_singleton]
    exact hflat a h
  | @enclosed opening closing counterpart inner _ ih =>
    obtain ⟨opening', closing', hopening, hclosing, counterpart'⟩ := hpair _ _ counterpart
    rw [List.cons_append, List.flatMap_cons, List.flatMap_append, List.flatMap_singleton, hopening,
      hclosing]
    exact .enclosed counterpart' ih

/-- As much is opened as is closed. -/
theorem countP_eq {opens closes : α → Bool} (hflat : ∀ a, flat a → opens a = closes a)
    (hpair : ∀ opening closing, pair opening closing →
      opens opening = closes closing ∧ opens closing = closes opening)
    {whole : List α} (h : IsBalanced flat pair whole) :
    whole.countP opens = whole.countP closes := by
  induction h with
  | nil => rfl
  | append _ _ ih ih' => rw [List.countP_append, List.countP_append, ih, ih']
  | single h => rw [List.countP_singleton, List.countP_singleton, hflat _ h]
  | enclosed counterpart _ ih =>
    obtain ⟨hopening, hclosing⟩ := hpair _ _ counterpart
    simp only [List.cons_append, List.countP_cons, List.countP_append, List.countP_nil, ih,
      hopening, hclosing]
    omega

end IsBalanced

end Restconf
