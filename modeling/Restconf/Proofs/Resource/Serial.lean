import Restconf.Proofs.Json.Shape
import Restconf.Resource.Serial

/-!
# Serialized identifiers read back

Every identifier is found again in the text that serializes it, whatever its texts hold and whether
or not a path could hold its elements. The text says which identifier it serializes: no other has
the same one, and neither the order of its fields nor fields that an identifier does not have
change what is read.

## What is left out

The writer leaves out a namespace that is not there and keys that are not there, and the reader
takes what is not given for what was left out. The two sides have to mirror each other, and where
they do is `Element.ofJson?_toJson`: an empty namespace is one that is there, so it is written, and
whether keys are written depends on the keys alone and not on the kind of the element.

## Main results

* `Element.ofJson?_toJson`, `Identifier.ofJson?_toJson` — values are read back
* `Identifier.ofJson?_congr` — values that are alike serialize the same identifier
* `Identifier.ofText?_render` — printed values, fields in any order and others between them
* `Identifier.readsBack` — the headline
-/

namespace Restconf

open Json

/-! ### Lists -/

/-- Items that are read back one by one. -/
theorem mapM_map_of_forall {α β : Type} {write : α → β} {read : β → Option α}
    (h : ∀ a, read (write a) = some a) (items : List α) :
    (items.map write).mapM read = some items := by
  rw [List.mapM_map, Function.comp_def]
  simp only [h]
  rw [mapM_some fun a : α => a, List.map_id']

theorem mapM_congr {α β : Type} {f g : α → Option β} {items : List α}
    (h : ∀ a ∈ items, f a = g a) : items.mapM f = items.mapM g := by
  induction items with
  | nil => rfl
  | cons a items ih =>
    obtain ⟨ha, hitems⟩ := List.forall_mem_cons.mp h
    rw [List.mapM_cons, List.mapM_cons, ha, ih hitems]

theorem Json.strings?_map (texts : List String) :
    strings? (.array (texts.map .string)) = some texts :=
  @mapM_map_of_forall _ _ Json.string string? (fun _ => rfl) texts

/-! ### Elements -/

theorem ElementKind.ofJson?_serialName (kind : ElementKind) :
    ofJson? (.string kind.serialName) = some kind := by
  cases kind <;> rfl

namespace Element

variable {value other : Json}

/-- **An element is read back**: what the writer leaves out, the reader puts in. -/
theorem ofJson?_toJson (element : Element) : ofJson? element.toJson = some element := by
  obtain ⟨name, space, kind, keys⟩ := element
  have hkind := kind.ofJson?_serialName
  cases keys with
  | nil =>
    cases space <;>
      simp [ofJson?, toJson, shape, Shape.names, Json.record?, namespaceOf?, Record.required?,
        Record.optional?, List.lookup_cons, string?, nullableString?, hkind]
  | cons key keys =>
    have hkeys := strings?_map (key :: keys)
    rw [List.map_cons] at hkeys
    cases space <;>
      simp [ofJson?, toJson, shape, Shape.names, Json.record?, namespaceOf?, Record.required?,
        Record.optional?, List.lookup_cons, string?, nullableString?, hkind, hkeys]

/-- **What is left out** of a serialized element: a namespace that is not there, and no keys. -/
theorem field?_toJson (element : Element) :
    (element.toJson.field? "namespace" = none ↔ element.space = none)
      ∧ (element.toJson.field? "keys" = none ↔ element.keys = []) := by
  obtain ⟨name, space, kind, keys⟩ := element
  cases space <;> cases keys <;> simp [toJson, field?, List.lookup_cons]

/-- Values that are alike serialize the same element. -/
theorem ofJson?_congr (h : Alike shape value other) : ofJson? value = ofJson? other := by
  refine bind_eq_of_rel h.record? fun r s hrel => ?_
  obtain ⟨hpositional, hfields⟩ := hrel
  have hname := Record.required?_congr (hfields "name" .any rfl) (Alike.decode_eq string?)
  have hspace : namespaceOf? r = namespaceOf? s := by
    rw [namespaceOf?, namespaceOf?, hpositional,
      Record.required?_congr (hfields "namespace" .any rfl) (Alike.decode_eq nullableString?),
      Record.optional?_congr (hfields "namespace" .any rfl) (Alike.decode_eq nullableString?)]
  have hkind :=
    Record.required?_congr (hfields "kind" .any rfl) (Alike.decode_eq ElementKind.ofJson?)
  have hkeys := @Record.optional?_congr _ r s "keys" _ strings? []
    (hfields "keys" .any rfl) (Alike.decode_eq strings?)
  rw [hname, hspace, hkind, hkeys]

/-- The keys of an element nest one level deep, and nothing else nests in it. -/
theorem legible_toJson (element : Element) (limit : Nat) :
    Legible (limit + 2) shape element.toJson := by
  have hshape {name : String} {wanted : Shape}
      (h : [("name", Shape.any), ("namespace", .any), ("kind", .any), ("keys", .any)].lookup name
        = some wanted) : wanted = .any := by
    have hmem := mem_of_lookup h
    simp only [List.mem_cons, Prod.mk.injEq, List.not_mem_nil, or_false] at hmem
    rcases hmem with ⟨-, rfl⟩ | ⟨-, rfl⟩ | ⟨-, rfl⟩ | ⟨-, rfl⟩ <;> rfl
  refine .record fun field hfield wanted hwanted => ?_
  obtain rfl := hshape hwanted
  simp only [List.mem_append, List.mem_singleton] at hfield
  rcases hfield with ((rfl | hspace) | rfl) | hkeys
  · exact .of_string _ element.name
  · cases hs : element.space with
    | none =>
      rw [hs] at hspace
      cases hspace
    | some space =>
      rw [hs] at hspace
      obtain rfl := List.mem_singleton.mp hspace
      exact .of_string _ space
  · exact .of_string _ element.kind.serialName
  · split at hkeys
    · cases hkeys
    · obtain rfl := List.mem_singleton.mp hkeys
      exact .of_strings limit element.keys

end Element

namespace Identifier

variable {value other : Json} {identifier : Identifier}

/-! ### Values -/

theorem elementsOfJson?_congr (h : Alike (.list Element.shape) value other) :
    elementsOfJson? value = elementsOfJson? other := by
  cases h with
  | refl => rfl
  | list pairs hpairs =>
    rw [elementsOfJson?, elementsOfJson?, List.mapM_map, List.mapM_map]
    exact mapM_congr fun pair hpair => Element.ofJson?_congr (hpairs pair hpair)

/-- Values that are alike serialize the same identifier. -/
theorem ofJson?_congr (h : Alike shape value other) : ofJson? value = ofJson? other := by
  refine bind_eq_of_rel h.record? fun r s hrel => ?_
  obtain ⟨-, hfields⟩ := hrel
  have hroot := Record.required?_congr (hfields "root_path" .any rfl) (Alike.decode_eq string?)
  have helements := Record.required?_congr (hfields "elements" (.list Element.shape) rfl)
    fun v w => elementsOfJson?_congr
  rw [hroot, helements]

/-- **An identifier is read back.** -/
theorem ofJson?_toJson (identifier : Identifier) : ofJson? identifier.toJson = some identifier := by
  have helements : elementsOfJson? (.array (identifier.elements.map Element.toJson))
      = some identifier.elements := mapM_map_of_forall Element.ofJson?_toJson identifier.elements
  simp [ofJson?, toJson, shape, Shape.names, Json.record?, Record.required?, List.lookup_cons,
    string?, helements]

theorem legible_toJson (identifier : Identifier) :
    Legible nestingLimit shape identifier.toJson := by
  refine .record fun field hfield wanted hwanted => ?_
  have hwanted := mem_of_lookup hwanted
  rcases List.mem_cons.mp hfield with rfl | hfield
  · obtain rfl : wanted = .any := by simpa using hwanted
    exact .of_string _ identifier.root
  · obtain rfl := List.mem_singleton.mp hfield
    obtain rfl : wanted = .list Element.shape := by simpa using hwanted
    refine .list fun item hitem => ?_
    obtain ⟨element, -, rfl⟩ := List.mem_map.mp hitem
    exact element.legible_toJson 123

/-! ### Texts -/

/-- **Printed values**: the fields of an identifier in any order, and any other fields between
them. -/
theorem ofText?_render (h : Alike shape value identifier.toJson) :
    ofText? value.render = some identifier := by
  have hread := ofTextAs?_text (identifier.legible_toJson.of_alike h)
  rw [ofText?, decode?, render, String.toList_ofList, hread, Option.bind_some,
    ofJson?_congr (alike_wanted nestingLimit shape value), ofJson?_congr h, ofJson?_toJson]

/-- **Any two texts**, however they are laid out: where what is wanted of them is alike, the same is
read. -/
theorem ofText?_congr {text others : String} (htext : ofTextAs? shape text.toList = some value)
    (hothers : ofTextAs? shape others.toList = some other) (h : Alike shape value other) :
    ofText? text = ofText? others := by
  rw [ofText?, decode?, decode?, htext, hothers, Option.bind_some, Option.bind_some,
    ofJson?_congr h]

/-- **Serialized identifiers read back.** Every identifier is read from the text that serializes it,
though namespaces and keys that are not there are left out of it. Printed with its fields in any
order and with any other fields between them it is still read, and of two texts that differ in
nothing else the same is read, however they are laid out. Different identifiers have different
texts. -/
theorem readsBack (identifier : Identifier) :
    ofText? identifier.toJson.render = some identifier
      ∧ (∀ element ∈ identifier.elements,
        (element.toJson.field? "namespace" = none ↔ element.space = none)
          ∧ (element.toJson.field? "keys" = none ↔ element.keys = []))
      ∧ (∀ value, Alike shape value identifier.toJson → ofText? value.render = some identifier)
      ∧ (∀ text others value other, ofTextAs? shape text.toList = some value →
        ofTextAs? shape others.toList = some other → Alike shape value other →
        ofText? text = ofText? others)
      ∧ ∀ other : Identifier, other.toJson.render = identifier.toJson.render →
        other = identifier := by
  have hread (identifier : Identifier) : ofText? identifier.toJson.render = some identifier :=
    ofText?_render (.refl shape identifier.toJson)
  refine ⟨hread identifier, fun element _ => element.field?_toJson, fun value => ofText?_render,
    fun text others value other => ofText?_congr, fun other hother => ?_⟩
  have hsame := hread other
  rw [hother, hread identifier] at hsame
  exact (Option.some.inj hsame).symm

/-- A single instance with keys in an empty namespace, and a multi-instance without keys in none:
the fields of the identifier and of its first element come in another order, and there are fields
that neither of them has. -/
theorem readsBack_reordered :
    ∃ identifier : Identifier, identifier.elements =
        [⟨"a", some "", .single, ["k"]⟩, ⟨"b", none, .multi, []⟩]
      ∧ ofText? (Json.object [("extra", .number (.integer 1)),
          ("elements", .array [
            .object [("keys", .array [.string "k"]), ("kind", .string "single_instance"),
              ("extra", .array [.null]), ("namespace", .string ""), ("name", .string "a")],
            .object [("name", .string "b"), ("kind", .string "multi_instance")]]),
          ("root_path", .string "/r")]).render = some identifier := by
  refine ⟨⟨"/r", [⟨"a", some "", .single, ["k"]⟩, ⟨"b", none, .multi, []⟩]⟩, rfl,
    (readsBack _).2.2.1 _ ?_⟩
  refine .record [("elements", _, _), ("root_path", .string "/r", .string "/r")]
    (fun pair hpair wanted hwanted => ?_) (.refl _) (.swap _ _ _)
  rcases List.mem_cons.mp hpair with rfl | hpair
  · obtain rfl : wanted = .list Element.shape := (Option.some.inj hwanted).symm
    refine .list [(_, _), (_, _)] fun pair hpair => ?_
    rcases List.mem_cons.mp hpair with rfl | hpair
    · have hfields := List.reverse_perm [("name", Json.string "a"), ("namespace", .string ""),
        ("kind", .string "single_instance"), ("keys", .array [.string "k"])]
      exact .of_perm hfields
    · obtain rfl := List.mem_singleton.mp hpair
      exact .refl _ _
  · obtain rfl := List.mem_singleton.mp hpair
    exact .refl _ _

end Identifier

end Restconf
