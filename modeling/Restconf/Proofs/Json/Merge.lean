import Restconf.Json.Basic

/-!
# Values without repeated fields

A value is unambiguous if no object in it has two fields of one name. Merging makes every value
unambiguous and leaves an unambiguous one as it is, so the unambiguous values are exactly those that
a document can denote.

## Why an induction of its own

A value nests through a list of items and through a list of pairs. The induction below asks for the
items and for the values of the fields only, and the `_eq_map` lemmas say that the functions on the
lists apply the function on values to every member.

## Main definitions

* `Json.induction` — induction on a value
* `Json.IsUnambiguous` — no object in a value repeats a name

## Main results

* `Json.isUnambiguous_merge`, `Json.merge_eq_self` — merging, and what it leaves alone
-/

namespace Restconf.Json

/-- Induction on a value: the property may be used for every item and for the value of every
field. -/
@[elab_as_elim]
theorem induction {motive : Json → Prop} (null : motive .null) (bool : ∀ b, motive (.bool b))
    (number : ∀ n, motive (.number n)) (string : ∀ s, motive (.string s))
    (array : ∀ items, (∀ item ∈ items, motive item) → motive (.array items))
    (object : ∀ fields, (∀ field ∈ fields, motive field.2) → motive (.object fields))
    (value : Json) : motive value :=
  @Json.rec motive (fun items => ∀ item ∈ items, motive item)
    (fun fields => ∀ field ∈ fields, motive field.2) (fun field => motive field.2)
    null bool number string array object (fun _ h => absurd h List.not_mem_nil)
    (fun _ _ hhead htail => List.forall_mem_cons.mpr ⟨hhead, htail⟩)
    (fun _ h => absurd h List.not_mem_nil)
    (fun _ _ hhead htail => List.forall_mem_cons.mpr ⟨hhead, htail⟩)
    (fun _ _ h => h) value

/-! ### Lists of values are mapped -/

theorem mergeItems_eq_map (items : List Json) : mergeItems items = items.map merge := by
  induction items with
  | nil => rfl
  | cons item items ih => rw [mergeItems, ih, List.map_cons]

theorem mergeValues_eq_map (fields : List (String × Json)) :
    mergeValues fields = fields.map fun field => (field.1, merge field.2) := by
  induction fields with
  | nil => rfl
  | cons field fields ih => rw [mergeValues, ih, List.map_cons]

/-- The names of the fields of an object, in their order. -/
def names (fields : List (String × Json)) : List String := fields.map Prod.fst

/-! ### Putting fields -/

theorem names_putField (fields : List (String × Json)) (name : String) (value : Json) :
    names (putField fields name value)
      = if name ∈ names fields then names fields else names fields ++ [name] := by
  induction fields with
  | nil => rfl
  | cons field fields ih =>
    obtain ⟨n, v⟩ := field
    rw [putField]
    by_cases hname : n = name
    · rw [if_pos hname, if_pos (hname ▸ List.mem_cons_self)]
      rfl
    · have hmem : name ∈ names ((n, v) :: fields) ↔ name ∈ names fields := by
        rw [names, List.map_cons, List.mem_cons, or_iff_right (Ne.symm hname), names]
      rw [if_neg hname, names, List.map_cons, ← names, ih]
      by_cases h : name ∈ names fields
      · rw [if_pos h, if_pos (hmem.mpr h)]
        rfl
      · rw [if_neg h, if_neg fun h' => h (hmem.mp h')]
        rfl

/-- A field of a new name goes to the end. -/
theorem putField_of_notMem {fields : List (String × Json)} {name : String}
    (h : name ∉ names fields) (value : Json) :
    putField fields name value = fields ++ [(name, value)] := by
  induction fields with
  | nil => rfl
  | cons field fields ih =>
    obtain ⟨n, v⟩ := field
    rw [names, List.map_cons, List.mem_cons, not_or] at h
    rw [putField, if_neg (Ne.symm h.1), ih h.2, List.cons_append]

theorem nodup_names_putField {fields : List (String × Json)} (h : (names fields).Nodup)
    (name : String) (value : Json) : (names (putField fields name value)).Nodup := by
  rw [names_putField]
  split
  · exact h
  · next hname =>
    refine List.nodup_append.mpr ⟨h, List.pairwise_singleton _ name, fun a ha b hb => ?_⟩
    rw [List.mem_singleton] at hb
    exact fun hab => hname (hb ▸ hab ▸ ha)

/-- Every value comes from somewhere: it is the new one, or it was there. -/
theorem value_of_mem_putField {fields : List (String × Json)} {name : String} {value : Json}
    {field : String × Json} (h : field ∈ putField fields name value) :
    field.2 = value ∨ ∃ old ∈ fields, old.2 = field.2 := by
  induction fields with
  | nil =>
    rw [putField, List.mem_singleton] at h
    exact Or.inl (by rw [h])
  | cons first fields ih =>
    obtain ⟨n, v⟩ := first
    rw [putField] at h
    split at h
    · rcases List.mem_cons.mp h with rfl | h
      · exact Or.inl rfl
      · exact Or.inr ⟨field, List.mem_cons_of_mem _ h, rfl⟩
    · rcases List.mem_cons.mp h with rfl | h
      · exact Or.inr ⟨_, List.mem_cons_self, rfl⟩
      · rcases ih h with h | ⟨old, hold, h⟩
        · exact Or.inl h
        · exact Or.inr ⟨old, List.mem_cons_of_mem _ hold, h⟩

/-! ### Merging fields -/

/-- What holds of no fields and is kept by putting one of the given fields holds of the merged
fields. -/
theorem mergeFields_of_putField (motive : List (String × Json) → Prop) (nil : motive [])
    {fields : List (String × Json)}
    (put : ∀ merged, ∀ field ∈ fields, motive merged → motive (putField merged field.1 field.2)) :
    motive (mergeFields fields) := by
  rw [mergeFields]
  generalize [] = merged at nil
  induction fields generalizing merged with
  | nil => exact nil
  | cons field fields ih =>
    exact ih (fun merged other hmem => put merged other (List.mem_cons_of_mem _ hmem)) _
      (put merged field List.mem_cons_self nil)

theorem nodup_names_mergeFields (fields : List (String × Json)) :
    (names (mergeFields fields)).Nodup := by
  refine mergeFields_of_putField (fun merged => (names merged).Nodup) List.nodup_nil ?_
  exact fun merged field _ h => nodup_names_putField h field.1 field.2

theorem value_of_mem_mergeFields {fields : List (String × Json)} {field : String × Json}
    (h : field ∈ mergeFields fields) : ∃ old ∈ fields, old.2 = field.2 := by
  revert field
  refine mergeFields_of_putField
    (fun merged => ∀ {field}, field ∈ merged → ∃ old ∈ fields, old.2 = field.2)
    (fun h => absurd h List.not_mem_nil) fun merged new hnew ih field h => ?_
  rcases value_of_mem_putField h with h | ⟨old, hold, h⟩
  · exact ⟨new, hnew, h.symm⟩
  · obtain ⟨first, hfirst, hvalue⟩ := ih hold
    exact ⟨first, hfirst, hvalue.trans h⟩

/-- Fields without a repeated name stay as they are. -/
theorem mergeFields_eq_self {fields : List (String × Json)} (h : (names fields).Nodup) :
    mergeFields fields = fields := by
  have hfold : ∀ merged, (names (merged ++ fields)).Nodup →
      fields.foldl (fun merged field => putField merged field.1 field.2) merged
        = merged ++ fields := by
    induction fields with
    | nil => exact fun merged _ => (List.append_nil merged).symm
    | cons field fields ih =>
      intro merged hmerged
      obtain ⟨name, value⟩ := field
      have hnew : name ∉ names merged := by
        rw [names, List.map_append, List.nodup_append] at hmerged
        exact fun hmem => hmerged.2.2 name hmem name List.mem_cons_self rfl
      rw [List.append_cons] at hmerged ⊢
      rw [← ih (List.nodup_cons.mp h).2 _ hmerged, ← putField_of_notMem hnew]
      rfl
  exact hfold [] h

/-! ### Unambiguous values -/

/-- A value in which no object has two fields of one name. -/
inductive IsUnambiguous : Json → Prop where
  | null : IsUnambiguous .null
  | bool (b : Bool) : IsUnambiguous (.bool b)
  | number (n : Number) : IsUnambiguous (.number n)
  | string (s : String) : IsUnambiguous (.string s)
  | array {list : List Json} (items : ∀ item ∈ list, IsUnambiguous item) :
    IsUnambiguous (.array list)
  | object {fields : List (String × Json)} (names : (names fields).Nodup)
    (values : ∀ field ∈ fields, IsUnambiguous field.2) : IsUnambiguous (.object fields)

/-- **Merging makes every value unambiguous.** -/
theorem isUnambiguous_merge (value : Json) : value.merge.IsUnambiguous := by
  induction value using induction with
  | null => exact .null
  | bool b => exact .bool b
  | number n => exact .number n
  | string s => exact .string s
  | array items ih =>
    rw [merge, mergeItems_eq_map]
    refine .array fun item hitem => ?_
    obtain ⟨first, hfirst, rfl⟩ := List.mem_map.mp hitem
    exact ih first hfirst
  | object fields ih =>
    rw [merge]
    refine .object (nodup_names_mergeFields _) fun field hfield => ?_
    obtain ⟨merged, hmerged, hvalue⟩ := value_of_mem_mergeFields hfield
    rw [mergeValues_eq_map] at hmerged
    obtain ⟨first, hfirst, rfl⟩ := List.mem_map.mp hmerged
    rw [← hvalue]
    exact ih first hfirst

/-- **Merging leaves an unambiguous value as it is.** -/
theorem merge_eq_self {value : Json} (h : value.IsUnambiguous) : value.merge = value := by
  induction h with
  | null => rfl
  | bool b => rfl
  | number n => rfl
  | string s => rfl
  | array _ ih =>
    rw [merge, mergeItems_eq_map, List.map_congr_left ih, List.map_id']
  | @object fields hnames _ ih =>
    have hvalues : mergeValues fields = fields := by
      rw [mergeValues_eq_map]
      refine (List.map_congr_left fun field hfield => ?_).trans (List.map_id fields)
      exact Prod.ext rfl (ih field hfield)
    rw [merge, hvalues, mergeFields_eq_self hnames]

end Restconf.Json
