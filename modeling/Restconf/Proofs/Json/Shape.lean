import Mathlib.Data.Option.Basic
import Restconf.Json.Record
import Restconf.Proofs.Json.Skip

/-!
# Reading a compact text for what is wanted of it

A printed value is read as itself, but for what nobody wants: `null` stands there. And what a record
makes of a value depends only on the fields that it has, in whatever order they come.

## Values that differ in what is not wanted

Two values may differ in the order of their fields, in fields that no record has, and in what these
hold, at every place that a shape reaches. `Alike` is this relation. Reading a text stays within it
(`alike_wanted`), and whatever reads records respects it (`Alike.record?`). So order and unknown
fields are dealt with once here, for all records.

## Main definitions

* `Json.IsNumberFree` — values without numbers, which are read back exactly
* `Json.wanted` — a value as far as a shape wants it
* `Json.Legible` — what is wanted of a value can be read
* `Json.Alike` — two values are the same as far as a shape wants them

## Main results

* `Json.read_text` — a value without numbers is read back
* `Json.readAs_text` — a value is read as far as it is wanted
* `Json.alike_wanted`, `Json.Legible.of_alike` — reading and likeness
* `Json.Alike.record?` — the records of values that are alike
-/

namespace Restconf

namespace Json

/-! ### Values that are read back -/

/-- Values without numbers. -/
inductive IsNumberFree : Json → Prop where
  | null : IsNumberFree .null
  | bool (b : Bool) : IsNumberFree (.bool b)
  | string (s : String) : IsNumberFree (.string s)
  | array {list : List Json} (items : ∀ item ∈ list, IsNumberFree item) :
    IsNumberFree (.array list)
  | object {fields : List (String × Json)} (values : ∀ field ∈ fields, IsNumberFree field.2) :
    IsNumberFree (.object fields)

theorem depthItems_le_iff {items : List Json} {n : Nat} :
    depthItems items ≤ n ↔ ∀ item ∈ items, item.depth ≤ n := by
  induction items with
  | nil => simp [depthItems]
  | cons item items ih => rw [depthItems, Nat.max_le, ih, List.forall_mem_cons]

theorem depthFields_le_iff {fields : List (String × Json)} {n : Nat} :
    depthFields fields ≤ n ↔ ∀ field ∈ fields, field.2.depth ≤ n := by
  induction fields with
  | nil => simp [depthFields]
  | cons field fields ih => rw [depthFields, Nat.max_le, ih, List.forall_mem_cons]

variable {fuel limit : Nat} {rest : List Char} {value other : Json} {shape : Shape}
  {fields : List (String × Shape)}

/-- The fields of an object are read if their values are, each as its name asks for. -/
theorem reads_labelled {valueOf : String → Reader Json} {found : String × Json → Json}
    {given : List (String × Json)}
    (h : ∀ field ∈ given, ∀ rest, Ends '}' rest → (field.2.text ++ rest).length ≤ fuel →
      valueOf field.1 (field.2.text ++ rest) = some (found field, rest)) :
    Reads (readField readString valueOf) '}' fuel labelled
      (fun field => some (field.1, found field)) given := by
  intro field hmem
  refine ⟨⟨'"', _, rfl, by decide⟩, fun rest hends hlength => ?_⟩
  obtain ⟨c, tail, htext, hblank, -⟩ := field.2.text_eq_cons
  have hvalue := h field hmem rest hends (by
    simp only [labelled, List.length_append, List.length_cons] at hlength ⊢
    omega)
  rw [htext, List.cons_append] at hvalue
  rw [labelled, htext, List.append_assoc, List.cons_append, List.cons_append,
    readField_quote _ _ hblank, String.ofList_toList, hvalue]
  rfl

/-- **A value without numbers is read back.** -/
theorem read_text (h : value.IsNumberFree) (hdepth : value.depth ≤ limit)
    (hfuel : (value.text ++ rest).length ≤ fuel) :
    read fuel limit (value.text ++ rest) = some (value, rest) := by
  induction h generalizing limit rest with
  | null => cases limit <;> rfl
  | bool b => cases b <;> cases limit <;> rfl
  | string s => exact (read_quote fuel limit s.toList rest).trans (by rw [String.ofList_toList])
  | @array items _ ih =>
    rw [depth] at hdepth
    obtain ⟨limit, rfl⟩ := Nat.exists_eq_succ_of_ne_zero (Nat.ne_zero_of_lt hdepth)
    have hitems := depthItems_le_iff.mp (Nat.le_of_succ_le_succ hdepth)
    rw [text_array_append, List.length_cons] at hfuel
    have hreads : Reads (read fuel limit) ']' fuel text some items := by
      intro item hmem
      obtain ⟨c, tail, htext, hblank, hclose, -⟩ := item.text_eq_cons
      exact ⟨⟨c, tail, htext, hblank, hclose⟩,
        fun rest _ hlength => ih item hmem (hitems item hmem) hlength⟩
    rw [text_array_append, read_array,
      readParts_commaSeparated rfl (by decide) hreads rest (by omega), mapM_some fun item => item,
      List.map_id']
    rfl
  | @object given _ ih =>
    rw [depth] at hdepth
    obtain ⟨limit, rfl⟩ := Nat.exists_eq_succ_of_ne_zero (Nat.ne_zero_of_lt hdepth)
    have hvalues := depthFields_le_iff.mp (Nat.le_of_succ_le_succ hdepth)
    rw [text_object_append, List.length_cons] at hfuel
    have hreads := @reads_labelled fuel (fun _ => read fuel limit) Prod.snd given
      fun field hmem rest _ hlength => ih field hmem (hvalues field hmem) hlength
    rw [text_object_append, read_object,
      readParts_commaSeparated rfl (by decide) hreads rest (by omega),
      mapM_some fun field : String × Json => field, List.map_id']
    rfl

/-! ### Reading for what is wanted -/

/-- A value as far as a shape wants it, with so many levels to go. -/
def wanted : Nat → Shape → Json → Json
  | limit + 1, .list item, array items => array (items.map (wanted limit item))
  | limit + 1, .record fields, object given =>
    object (given.map fun field =>
      (field.1, (fields.lookup field.1).elim null fun shape => wanted limit shape field.2))
  | _, _, value => value

/-- What is wanted of a value can be read, with so many levels to go. -/
inductive Legible : Nat → Shape → Json → Prop where
  | any {limit : Nat} {value : Json} (numberFree : value.IsNumberFree)
    (depth : value.depth ≤ limit) : Legible limit .any value
  | list {limit : Nat} {shape : Shape} {items : List Json}
    (h : ∀ item ∈ items, Legible limit shape item) : Legible (limit + 1) (.list shape) (array items)
  | record {limit : Nat} {fields : List (String × Shape)} {given : List (String × Json)}
    (h : ∀ field ∈ given, ∀ shape, fields.lookup field.1 = some shape →
      Legible limit shape field.2) : Legible (limit + 1) (.record fields) (object given)

theorem Legible.of_string (limit : Nat) (s : String) : Legible limit .any (.string s) :=
  .any (.string s) (Nat.zero_le limit)

/-- An array of strings nests one level deep. -/
theorem Legible.of_strings (limit : Nat) (texts : List String) :
    Legible (limit + 1) .any (.array (texts.map .string)) := by
  refine .any (.array fun item hitem => ?_) (Nat.succ_le_succ (depthItems_le_iff.mpr ?_))
  · obtain ⟨text, -, rfl⟩ := List.mem_map.mp hitem
    exact .string text
  · intro item hitem
    obtain ⟨text, -, rfl⟩ := List.mem_map.mp hitem
    exact Nat.zero_le limit

theorem readAs_list (fuel limit : Nat) (item : Shape) (rest : List Char) :
    readAs fuel (limit + 1) (.list item) ('[' :: rest)
      = (readParts (readAs fuel limit item) ']' fuel rest).map
          fun found => (array found.1, found.2) := by
  rw [readAs]

/-- What a record makes of the value of a field. -/
def readWanted (fuel limit : Nat) (fields : List (String × Shape)) (name : String) : Reader Json :=
  match fields.lookup name with
  | some shape => readAs fuel limit shape
  | none => fun text => (skip fuel text).map fun found => (null, found.2)

theorem readAs_record (fuel limit : Nat) (fields : List (String × Shape)) (rest : List Char) :
    readAs fuel (limit + 1) (.record fields) ('{' :: rest)
      = (readParts (readField readString (readWanted fuel limit fields)) '}' fuel rest).map
          fun found => (object found.1, found.2) := by
  rw [readAs]
  rfl

/-- **A value is read as far as it is wanted.** -/
theorem readAs_text (h : Legible limit shape value)
    (hfuel : (value.text ++ rest).length ≤ fuel) :
    readAs fuel limit shape (value.text ++ rest) = some (wanted limit shape value, rest) := by
  induction h generalizing rest with
  | any numberFree depth =>
    rw [readAs_any, read_text numberFree depth hfuel, wanted]
    all_goals simp
  | @list limit shape items _ ih =>
    rw [text_array_append, List.length_cons] at hfuel
    have hreads : Reads (readAs fuel limit shape) ']' fuel text
        (fun item => some (wanted limit shape item)) items := by
      intro item hmem
      obtain ⟨c, tail, htext, hblank, hclose, -⟩ := item.text_eq_cons
      exact ⟨⟨c, tail, htext, hblank, hclose⟩, fun rest _ hlength => ih item hmem hlength⟩
    rw [text_array_append, readAs_list,
      readParts_commaSeparated rfl (by decide) hreads rest (by omega), mapM_some]
    rfl
  | @record limit fields given _ ih =>
    rw [text_object_append, List.length_cons] at hfuel
    have hreads := @reads_labelled fuel (readWanted fuel limit fields)
      (fun field => (fields.lookup field.1).elim null fun shape => wanted limit shape field.2)
      given fun field hmem rest hends hlength => by
        rw [readWanted]
        cases hlookup : fields.lookup field.1 with
        | some shape => exact ih field hmem shape hlookup hlength
        | none =>
          simp only [skip_text field.2 (hends.stops (Or.inr rfl)) hlength]
          rfl
    rw [text_object_append, readAs_record,
      readParts_commaSeparated rfl (by decide) hreads rest (by omega), mapM_some]
    rfl

/-! ### Values that are alike -/

/-- The fields that a record with the given names has. -/
def known (names : List String) (given : List (String × Json)) : List (String × Json) :=
  given.filter fun field => names.contains field.1

/-- **Two values are the same as far as a shape wants them.** The fields of a record can be paired
by name, in any order, with values that are alike; other fields do not count. -/
inductive Alike : Shape → Json → Json → Prop where
  | refl (shape : Shape) (value : Json) : Alike shape value value
  | list {shape : Shape} (pairs : List (Json × Json))
    (h : ∀ pair ∈ pairs, Alike shape pair.1 pair.2) :
    Alike (.list shape) (array (pairs.map Prod.fst)) (array (pairs.map Prod.snd))
  | record {fields : List (String × Shape)} {given others : List (String × Json)}
    (pairs : List (String × Json × Json))
    (h : ∀ pair ∈ pairs, ∀ shape, fields.lookup pair.1 = some shape →
      Alike shape pair.2.1 pair.2.2)
    (left : (known (fields.map Prod.fst) given).Perm (pairs.map fun pair => (pair.1, pair.2.1)))
    (right : (known (fields.map Prod.fst) others).Perm (pairs.map fun pair => (pair.1, pair.2.2))) :
    Alike (.record fields) (object given) (object others)

/-- A value that is wanted as a whole. -/
theorem Alike.eq_of_any (h : Alike .any value other) : value = other := by
  cases h
  rfl

theorem Alike.decode_eq {α : Type} (decode : Json → Option α) :
    ∀ v w, Alike .any v w → decode v = decode w :=
  fun _ _ h => congrArg decode h.eq_of_any

/-- Objects are alike if they have the same fields of a record, in whatever order and whatever other
fields they have. -/
theorem Alike.of_perm {given others : List (String × Json)}
    (h : (known (fields.map Prod.fst) given).Perm (known (fields.map Prod.fst) others)) :
    Alike (.record fields) (object given) (object others) := by
  have hpairs : ((known (fields.map Prod.fst) others).map fun field =>
      (field.1, field.2, field.2)).map (fun pair => (pair.1, pair.2.2))
        = known (fields.map Prod.fst) others := by
    rw [List.map_map]
    exact List.map_id _
  refine .record ((known (fields.map Prod.fst) others).map fun field => (field.1, field.2, field.2))
    (fun pair hpair shape _ => ?_) ?_ (.of_eq hpairs.symm)
  · obtain ⟨field, -, rfl⟩ := List.mem_map.mp hpair
    exact .refl shape field.2
  · rw [List.map_map]
    rw [List.map_map] at hpairs
    exact h.trans (.of_eq hpairs.symm)

/-- **What is read of a value is like the value.** -/
theorem alike_wanted (limit : Nat) (shape : Shape) (value : Json) :
    Alike shape (wanted limit shape value) value := by
  induction limit generalizing shape value with
  | zero => exact .refl shape value
  | succ limit ih =>
    unfold wanted
    split
    · next item items heq =>
      cases heq
      have hpairs := Alike.list (items.map fun i => (wanted limit item i, i)) fun pair hpair => by
        obtain ⟨i, -, rfl⟩ := List.mem_map.mp hpair
        exact ih item i
      simpa [List.map_map, Function.comp_def] using hpairs
    · next fields given heq =>
      cases heq
      let found (field : String × Json) : Json :=
        (fields.lookup field.1).elim null fun shape => wanted limit shape field.2
      refine .record ((known (fields.map Prod.fst) given).map fun field =>
        (field.1, found field, field.2)) (fun pair hpair shape hshape => ?_) ?_ ?_
      · obtain ⟨field, -, rfl⟩ := List.mem_map.mp hpair
        simp only [found, hshape, Option.elim_some]
        exact ih shape field.2
      · rw [known, known, List.filter_map, List.map_map]
        exact .refl _
      · rw [List.map_map]
        exact .of_eq (List.map_id _).symm
    · exact .refl _ _

theorem mem_of_lookup {ν : Type} {given : List (String × ν)} {name : String} {found : ν}
    (h : given.lookup name = some found) : (name, found) ∈ given := by
  obtain ⟨before, after, rfl, -⟩ := List.lookup_eq_some_iff.mp h
  exact List.mem_append_right before List.mem_cons_self

theorem mem_known_of_lookup {given : List (String × Json)} {field : String × Json}
    (hmem : field ∈ given) (h : fields.lookup field.1 = some shape) :
    field ∈ known (fields.map Prod.fst) given := by
  exact List.mem_filter.mpr
    ⟨hmem, List.contains_iff_mem.mpr (List.mem_map_of_mem (mem_of_lookup h))⟩

/-- What can be read of a value can be read of every value like it. -/
theorem Legible.of_alike (h : Legible limit shape other) (halike : Alike shape value other) :
    Legible limit shape value := by
  induction h generalizing value with
  | any numberFree depth =>
    obtain rfl := halike.eq_of_any
    exact .any numberFree depth
  | list h ih =>
    cases halike with
    | refl => exact .list h
    | list pairs hpairs =>
      refine .list fun item hitem => ?_
      obtain ⟨pair, hpair, rfl⟩ := List.mem_map.mp hitem
      exact ih pair.2 (List.mem_map_of_mem hpair) (hpairs pair hpair)
  | record h ih =>
    cases halike with
    | refl => exact .record h
    | record pairs hpairs left right =>
      refine .record fun field hfield shape hshape => ?_
      obtain ⟨pair, hpair, rfl⟩ :=
        List.mem_map.mp (left.mem_iff.mp (mem_known_of_lookup hfield hshape))
      have hother := right.mem_iff.mpr (List.mem_map_of_mem hpair)
      exact ih _ (List.mem_filter.mp hother).1 shape hshape (hpairs pair hpair shape hshape)

/-! ### Records -/

theorem lookup_eq_some_iff_mem {ν : Type} {given : List (String × ν)}
    (h : (given.map Prod.fst).Nodup) {name : String} {found : ν} :
    given.lookup name = some found ↔ (name, found) ∈ given := by
  induction given with
  | nil => simp
  | cons field given ih =>
    obtain ⟨n, v⟩ := field
    obtain ⟨hnew, hnodup⟩ := List.nodup_cons.mp h
    by_cases hname : name = n
    · subst hname
      rw [List.lookup_cons_self, List.mem_cons, Option.some.injEq, Prod.mk.injEq]
      refine ⟨fun heq => Or.inl ⟨rfl, heq.symm⟩, ?_⟩
      rintro (⟨-, rfl⟩ | hmem)
      · rfl
      · exact absurd (List.mem_map_of_mem hmem) hnew
    · rw [List.lookup_cons, beq_eq_false_iff_ne.mpr hname, ih hnodup, List.mem_cons,
        Prod.mk.injEq, or_iff_right fun heq => hname heq.1]

/-- Where no name is repeated, the order of fields does not matter. -/
theorem lookup_eq_of_perm {ν : Type} {given others : List (String × ν)} (hperm : given.Perm others)
    (h : (given.map Prod.fst).Nodup) (name : String) : given.lookup name = others.lookup name := by
  ext found
  rw [lookup_eq_some_iff_mem h, lookup_eq_some_iff_mem ((hperm.map _).nodup_iff.mp h),
    hperm.mem_iff]

/-- Fields that are paired by name are found together. -/
theorem rel_lookup_pairs {r : Json → Json → Prop} {name : String}
    {pairs : List (String × Json × Json)}
    (h : ∀ pair ∈ pairs, pair.1 = name → r pair.2.1 pair.2.2) :
    Option.Rel r ((pairs.map fun pair => (pair.1, pair.2.1)).lookup name)
      ((pairs.map fun pair => (pair.1, pair.2.2)).lookup name) := by
  induction pairs with
  | nil => exact .none
  | cons pair pairs ih =>
    obtain ⟨hpair, hpairs⟩ := List.forall_mem_cons.mp h
    rw [List.map_cons, List.map_cons, List.lookup_cons, List.lookup_cons]
    by_cases hname : name = pair.1
    · rw [beq_iff_eq.mpr hname]
      exact .some (hpair hname.symm)
    · rw [beq_eq_false_iff_ne.mpr hname]
      exact ih hpairs

/-- **The records of values that are alike**: there is none of either, or the fields of both are
found together and are alike. -/
theorem Alike.record? (h : Alike (.record fields) value other) :
    Option.Rel (fun r s : Record Json => r.positional = s.positional
        ∧ ∀ name shape, fields.lookup name = some shape →
          Option.Rel (Alike shape) (r.fields.lookup name) (s.fields.lookup name))
      (value.record? (fields.map Prod.fst) false) (other.record? (fields.map Prod.fst) false) := by
  cases h with
  | refl =>
    cases value.record? (fields.map Prod.fst) false with
    | none => exact .none
    | some r =>
      refine .some ⟨rfl, fun name shape _ => ?_⟩
      cases r.fields.lookup name with
      | none => exact .none
      | some v => exact .some (.refl shape v)
  | @record _ given others pairs hpairs left right =>
    have hrecord (given : List (String × Json)) :
        (object given).record? (fields.map Prod.fst) false
          = if ((known (fields.map Prod.fst) given).map Prod.fst).Nodup then
              some ⟨known (fields.map Prod.fst) given, false⟩ else none := by
      rw [Json.record?]
      simp only [Bool.false_eq_true, false_implies, and_true]
      rfl
    have hnames : ((known (fields.map Prod.fst) given).map Prod.fst).Perm
        ((known (fields.map Prod.fst) others).map Prod.fst) := by
      refine (left.map _).trans (.trans (.of_eq ?_) (right.map _).symm)
      rw [List.map_map, List.map_map]
      rfl
    rw [hrecord, hrecord]
    by_cases hnodup : ((known (fields.map Prod.fst) given).map Prod.fst).Nodup
    · have hnodup' := hnames.nodup_iff.mp hnodup
      rw [if_pos hnodup, if_pos hnodup']
      refine .some ⟨rfl, fun name shape hshape => ?_⟩
      rw [lookup_eq_of_perm left hnodup, lookup_eq_of_perm right hnodup']
      exact rel_lookup_pairs fun pair hpair hname => hpairs pair hpair shape (hname ▸ hshape)
    · rw [if_neg hnodup, if_neg (mt hnames.nodup_iff.mpr hnodup)]
      exact .none

/-! ### Whole texts -/

/-- A printed value is read as far as it is wanted. -/
theorem ofTextAs?_text (h : Legible nestingLimit shape value) :
    ofTextAs? shape value.text = some (wanted nestingLimit shape value) := by
  obtain ⟨c, tail, htext, hblank, -⟩ := value.text_eq_cons
  have hread := @readAs_text value.text.length nestingLimit [] value shape h
    (Nat.le_of_eq (congrArg List.length (List.append_nil _)))
  have hskip : skipBlank value.text = value.text := by
    rw [htext, skipBlank_cons hblank]
  rw [List.append_nil] at hread
  rw [ofTextAs?, whole?, hskip, hread]
  rfl

end Json

/-! ### Fields of records that are found together -/

/-- What is related is found together and leads to the same. -/
theorem bind_eq_of_rel {α β γ : Type} {r : α → β → Prop} {f : α → Option γ} {g : β → Option γ}
    {a : Option α} {b : Option β} (h : Option.Rel r a b) (hfg : ∀ x y, r x y → f x = g y) :
    a.bind f = b.bind g := by
  cases h with
  | some h => exact hfg _ _ h
  | none => rfl

namespace Record

variable {α : Type} {r s : Record Json} {name : String} {same : Json → Json → Prop}
  {decode : Json → Option α}

theorem required?_congr (h : Option.Rel same (r.fields.lookup name) (s.fields.lookup name))
    (hdecode : ∀ v w, same v w → decode v = decode w) :
    r.required? name decode = s.required? name decode :=
  bind_eq_of_rel h hdecode

theorem optional?_congr {default : α}
    (h : Option.Rel same (r.fields.lookup name) (s.fields.lookup name))
    (hdecode : ∀ v w, same v w → decode v = decode w) :
    r.optional? name default decode = s.optional? name default decode := by
  rw [optional?, optional?]
  generalize r.fields.lookup name = v, s.fields.lookup name = w at h
  cases h with
  | some h => exact hdecode _ _ h
  | none => rfl

end Record

end Restconf
