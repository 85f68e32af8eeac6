import Mathlib.Data.List.Basic
import Mathlib.Data.List.Induction
import Restconf.Proofs.Json.Brackets
import Restconf.Proofs.Json.Merge
import Restconf.Proofs.Tree.Reading

/-!
# The document of a forest

When a forest is rendered as a document, and which document that is. Rendering needs a name for
every node and a text that does not nest too deep, and nothing else; in particular no sibling has to
have a name of its own. Of several siblings of one name the last is rendered, at the place of the
first.

## Where the siblings before the last are lost

All of them are written. They are lost when the text is read again, one object after the other, from
the inside out: so a sibling that is lost may still be what makes the text too deep, or what makes
it no document at all. That is why the two conditions are about all nodes, and the document is about
the last ones only.

## Main definitions

* `Json.lastFields` — one field for each name, with the last of its values
* `Node.value`, `Forest.document` — the document of a forest, by recursion

## Main results

* `Json.mergeFields_eq_lastFields` — which values stand after merging, and in which order
* `Forest.merge_object_fields` — what is read is the document
* `Forest.nesting_reference` — the text nests as deep as the forest
* `Forest.toJson_eq_iff` — the headline
-/

namespace Restconf

/-! ### Fields of one name -/

namespace Json

/-- One field for each name, in the order in which the names appear first, with the last value of
the name. -/
def lastFields (fields : List (String × Json)) : List (String × Json) :=
  (names fields).eraseDups.filterMap fun name => (fields.reverse.lookup name).map (Prod.mk name)

theorem isSome_lookup_reverse {fields : List (String × Json)} {name : String}
    (h : name ∈ names fields) : (fields.reverse.lookup name).isSome = true := by
  obtain ⟨field, hfield, rfl⟩ := List.mem_map.mp h
  rw [List.lookup_isSome_iff]
  exact ⟨field, List.mem_reverse.mpr hfield, beq_self_eq_true field.1⟩

/-- One more name is a new one, or it is known. -/
theorem eraseDups_concat (known : List String) (name : String) :
    (known ++ [name]).eraseDups
      = if name ∈ known then known.eraseDups else known.eraseDups ++ [name] := by
  rw [List.eraseDups_append]
  split
  · next h => simp [List.removeAll, h]
  · next h => simp [List.removeAll, h, List.eraseDups_cons]

theorem nodup_eraseDups (known : List String) : known.eraseDups.Nodup := by
  induction known using List.reverseRecOn with
  | nil => exact List.nodup_nil
  | append_singleton known name ih =>
    rw [eraseDups_concat]
    split
    · exact ih
    · next h =>
      refine List.nodup_append.mpr ⟨ih, List.pairwise_singleton _ name, ?_⟩
      rintro other hother _ hname rfl
      rw [List.mem_singleton] at hname
      exact h (hname ▸ List.mem_eraseDups.mp hother)

/-- Putting a field of a known name changes the value of that name. -/
theorem putField_filterMap {last : String → Option Json} {known : List String} {name : String}
    (nodup : known.Nodup) (hname : name ∈ known) (hlast : (last name).isSome = true)
    (value : Json) :
    putField (known.filterMap fun n => (last n).map (Prod.mk n)) name value
      = known.filterMap fun n => (if n = name then some value else last n).map (Prod.mk n) := by
  induction known with
  | nil => cases hname
  | cons n known ih =>
    obtain ⟨hnew, hrest⟩ := List.nodup_cons.mp nodup
    by_cases hn : n = name
    · subst hn
      obtain ⟨old, hold⟩ := Option.isSome_iff_exists.mp hlast
      rw [List.filterMap_cons_some (b := (n, old)) (by rw [hold]; rfl), putField, if_pos rfl,
        List.filterMap_cons_some (b := (n, value)) (by rw [if_pos rfl]; rfl)]
      refine congrArg _ (List.filterMap_congr fun other hother => ?_)
      have hother : other ≠ n := fun h => hnew (h ▸ hother)
      rw [if_neg hother]
    · have hmem : name ∈ known := (List.mem_cons.mp hname).resolve_left (Ne.symm hn)
      rw [List.filterMap_cons, List.filterMap_cons, if_neg hn]
      cases last n with
      | none => exact ih hrest hmem
      | some old =>
        show putField ((n, old) :: _) name value = (n, old) :: _
        rw [putField, if_neg hn, ih hrest hmem]

/-- One more field of a row goes to the place of its name, or to the end. -/
theorem lastFields_concat (fields : List (String × Json)) (name : String) (value : Json) :
    lastFields (fields ++ [(name, value)]) = putField (lastFields fields) name value := by
  have hlookup (n : String) : (fields ++ [(name, value)]).reverse.lookup n
      = if n = name then some value else fields.reverse.lookup n := by
    rw [List.reverse_append, List.reverse_singleton, List.singleton_append, List.lookup_cons]
    by_cases h : n = name
    · rw [if_pos h, beq_iff_eq.mpr h]
    · rw [if_neg h, beq_eq_false_iff_ne.mpr h]
  have hnames : names (fields ++ [(name, value)]) = names fields ++ [name] := List.map_append
  rw [lastFields, hnames, eraseDups_concat]
  simp only [hlookup]
  by_cases h : name ∈ names fields
  · rw [if_pos h, lastFields,
      putField_filterMap (nodup_eraseDups _) (List.mem_eraseDups.mpr h) (isSome_lookup_reverse h)]
  · have hother : ∀ n ∈ (names fields).eraseDups, n ≠ name := by
      rintro n hn rfl
      exact h (List.mem_eraseDups.mp hn)
    have hsame : (names fields).eraseDups.filterMap
          (fun n => (if n = name then some value else fields.reverse.lookup n).map (Prod.mk n))
        = lastFields fields :=
      List.filterMap_congr fun n hn => by rw [if_neg (hother n hn)]
    have hfresh : name ∉ names (lastFields fields) := by
      intro hmem
      obtain ⟨field, hfield, hname⟩ := List.mem_map.mp hmem
      obtain ⟨n, hn, hvalue⟩ := List.mem_filterMap.mp hfield
      obtain ⟨v, -, rfl⟩ := Option.map_eq_some_iff.mp hvalue
      exact hother n hn hname
    rw [if_neg h, List.filterMap_append, hsame, putField_of_notMem hfresh]
    simp

/-- **Merging keeps the last value of each name, at the place of the first.** -/
theorem mergeFields_eq_lastFields (fields : List (String × Json)) :
    mergeFields fields = lastFields fields := by
  -- from the end of the fields, which is where the next one is put
  induction fields using List.reverseRecOn with
  | nil => rfl
  | append_singleton fields field ih =>
    rw [lastFields_concat, ← ih, mergeFields, mergeFields, List.foldl_append]
    rfl

end Json

/-! ### The document -/

mutual

/-- The value of a node in a document: a leaf is a string, a leaf-list the array of its texts in
their order, a container an object, and a list an array of objects. -/
def Node.value : Node → Json
  | .container _ children => .object (Json.lastFields (Forest.namedValues children))
  | .list _ entries => .array (Forest.entryValues entries)
  | .leaf _ value => .string value
  | .leafList _ values => .array (values.values.map .string)

/-- Siblings with their names and values. -/
def Forest.namedValues : List Node → List (String × Json)
  | [] => []
  | node :: rest => (node.name, node.value) :: Forest.namedValues rest

/-- The entries of a list as objects. -/
def Forest.entryValues : List (List Node) → List Json
  | [] => []
  | entry :: rest =>
    .object (Json.lastFields (Forest.namedValues entry)) :: Forest.entryValues rest

end

namespace Forest

open Json

/-- **The document of a forest**: for each name, in the order in which the names appear first among
the siblings, the value of the last sibling of that name; and so at every level. -/
def document (nodes : List Node) : Json := .object (lastFields (namedValues nodes))

example :
    document [.leaf "a" "1", .container "c" [.leaf "x" "1", .leaf "y" "2", .leaf "x" "3"],
        .leafList "a" (.ofList ["q", "p"])]
      = .object [("a", .array [.string "p", .string "q"]),
          ("c", .object [("x", .string "3"), ("y", .string "2")])] := rfl

theorem namedValues_eq_map (nodes : List Node) :
    namedValues nodes = nodes.map fun node => (node.name, node.value) := by
  induction nodes with
  | nil => rfl
  | cons node nodes ih => rw [namedValues, ih, List.map_cons]

theorem entryValues_eq_map (entries : List (List Node)) :
    entryValues entries = entries.map document := by
  induction entries with
  | nil => rfl
  | cons entry entries ih => rw [entryValues, ih, List.map_cons, document]

theorem fst_field (node : Node) : (field node).1 = node.name := by
  cases node <;> rfl

theorem merge_object_of_forall {nodes : List Node}
    (h : ∀ node ∈ nodes, merge (field node).2 = node.value) :
    merge (.object (fields nodes)) = document nodes := by
  rw [merge, mergeValues_eq_map, fields_eq_map, List.map_map, mergeFields_eq_lastFields, document,
    namedValues_eq_map]
  refine congrArg _ (congrArg _ (List.map_congr_left fun node hmem => ?_))
  rw [Function.comp_apply, fst_field, h node hmem]

/-- What is read for a node is its value. -/
theorem merge_field (node : Node) : merge (field node).2 = node.value := by
  induction node using Node.induction with
  | container name children ih =>
    rw [field, merge_object_of_forall ih, document, Node.value]
  | list name entries ih =>
    rw [field, merge, mergeItems_eq_map, entryObjects_eq_map, List.map_map, Node.value,
      entryValues_eq_map]
    refine congrArg _ (List.map_congr_left fun entry hentry => ?_)
    exact merge_object_of_forall (ih entry hentry)
  | leaf name value => rfl
  | leafList name values =>
    rw [field, merge, mergeItems_eq_map, List.map_map, Node.value]
    rfl

/-- **What is read for a forest is its document.** -/
theorem merge_object_fields (nodes : List Node) :
    merge (.object (fields nodes)) = document nodes :=
  merge_object_of_forall fun node _ => merge_field node

/-! ### The text -/

theorem rowDepth_eq_foldr (nodes : List Node) :
    rowDepth nodes = (nodes.map Node.depth).foldr max 0 := by
  induction nodes with
  | nil => rfl
  | cons node nodes ih => rw [rowDepth, ih, List.map_cons, List.foldr_cons]

theorem entriesDepth_eq_foldr (entries : List (List Node)) :
    entriesDepth entries = (entries.map depth).foldr max 0 := by
  induction entries with
  | nil => rfl
  | cons entry entries ih => rw [entriesDepth, ih, List.map_cons, List.foldr_cons, depth]

theorem nests_fieldName (name : String) {d : Nat} {text : List Char} (h : Nests d text) :
    Nests d (TextWriter.fieldName name ++ text) := by
  unfold TextWriter.fieldName
  split
  · exact h
  · have hnamed := (Nests.quote name.toList).append (h.separated (Or.inr rfl))
    rwa [Nat.zero_max, ← List.singleton_append, ← List.append_assoc] at hnamed

theorem nests_braced {nodes : List Node} (h : ∀ node ∈ nodes, Nests node.depth (fieldText node)) :
    Nests (depth nodes) (braced (fieldTexts nodes)) := by
  rw [depth, rowDepth_eq_foldr, fieldTexts_eq_map]
  exact (Nests.commaSeparated h).enclose rfl rfl

/-- The text of a node nests as deep as the node, whether the nodes in it have names or not. -/
theorem nests_fieldText (node : Node) : Nests node.depth (fieldText node) := by
  induction node using Node.induction with
  | container name children ih =>
    rw [fieldText, Node.depth]
    exact nests_fieldName name (nests_braced ih)
  | list name entries ih =>
    rw [fieldText, Node.depth, entriesDepth_eq_foldr, entryTexts_eq_map]
    exact nests_fieldName name ((Nests.commaSeparated fun entry hentry =>
      nests_braced (ih entry hentry)).enclose rfl rfl)
  | leaf name value =>
    rw [fieldText, Node.depth]
    exact nests_fieldName name (.quote value.toList)
  | leafList name values =>
    have hflat (texts : List String) : (texts.map fun _ => 0).foldr max 0 = 0 := by
      induction texts with
      | nil => rfl
      | cons text texts ih => rw [List.map_cons, List.foldr_cons, ih, Nat.max_self]
    have hvalues : Nests 0 (commaSeparated (values.values.map fun v => quote v.toList)) := by
      rw [← hflat values.values]
      exact .commaSeparated fun v _ => .quote v.toList
    rw [fieldText, Node.depth]
    exact nests_fieldName name (hvalues.enclose rfl rfl)

/-- **The text of a forest nests as deep as the forest.** -/
theorem nesting_reference (nodes : List Node) : nesting (reference nodes) = depth nodes :=
  (nests_braced fun node _ => nests_fieldText node).nesting_eq

/-! ### Rendering -/

/-- **Rendering gives the document of the forest if and only if no name at any level is empty and
the text nests at most as deep as is read.** Otherwise the writer is blamed. -/
theorem toJson_eq_iff (nodes : List Node) :
    ∃ text, toText nodes = .ok text
      ∧ (∀ value, toJson nodes = .ok value
          ↔ (Everywhere (fun row => ∀ node ∈ row, node.name ≠ "") nodes
              ∧ nesting text.toList ≤ 127) ∧ value = document nodes)
      ∧ ∀ fault, toJson nodes = .error fault
          ↔ ¬ (Everywhere (fun row => ∀ node ∈ row, node.name ≠ "") nodes
              ∧ nesting text.toList ≤ 127)
            ∧ fault = .internal "tree writer produced invalid JSON" := by
  refine ⟨.ofList (reference nodes), toText_eq nodes, ?_⟩
  rw [String.toList_ofList, nesting_reference, ← isNamed_iff_everywhere, toJson_eq,
    merge_object_fields]
  by_cases h : isNamed nodes = true ∧ depth nodes ≤ nestingLimit
  · rw [if_pos h]
    refine ⟨fun value => ⟨fun hvalue => ⟨h, (Except.ok.inj hvalue).symm⟩, ?_⟩,
      fun fault => ⟨fun hfault => (by cases hfault), fun hfault => absurd h hfault.1⟩⟩
    rintro ⟨-, rfl⟩
    rfl
  · rw [if_neg h]
    refine ⟨fun value => ⟨fun hvalue => (by cases hvalue), fun hvalue => absurd hvalue.1 h⟩,
      fun fault => ⟨fun hfault => ⟨h, (Except.error.inj hfault).symm⟩, ?_⟩⟩
    rintro ⟨-, rfl⟩
    rfl

end Forest

end Restconf
