import Restconf.Proofs.Tree.Normal

/-!
# Regular forests

The forests that a document can hold: at every level the siblings have names, no two of them have
the same one, and no list among them is empty.

## Why these conditions and no others

Each condition fails for a reason of its own. A node without a name has no place in an object;
two fields of one name are merged; and an array without items is read as a leaf-list, so a list
without entries would come back as another kind of node. A leaf-list may be empty, and its values
are a set by their type. Conversely the reader of trees gives regular forests only, provided that
the document does not repeat a name, and it gives every regular forest back from the document that
is written for it.

## Main definitions

* `Forest.IsRegular` — the condition on one row; `Forest.IsWellNamed` is its part about names

## Main results

* `Forest.nodesOf_fields` — a regular forest comes back from its document
* `Json.everywhere_isRegular` — what a document is turned into is regular
-/

namespace Restconf

open Forest

/-! ### Regular rows -/

/-- What the siblings of one level have to be like for a document to hold them: they have names, no
two have the same, and no list among them is empty. -/
structure Forest.IsRegular (row : List Node) : Prop where
  named : ∀ node ∈ row, node.name ≠ ""
  distinct : (row.map Node.name).Nodup
  filled : ∀ name, .list name [] ∉ row

/-- What finding a node by its name relies on: the siblings of one level have names, and no two have
the same. -/
structure Forest.IsWellNamed (row : List Node) : Prop where
  named : ∀ node ∈ row, node.name ≠ ""
  distinct : (row.map Node.name).Nodup

namespace Forest

variable {nodes : List Node}

theorem IsRegular.isWellNamed (h : IsRegular nodes) : IsWellNamed nodes := ⟨h.named, h.distinct⟩

/-- Only the names count. -/
theorem isWellNamed_iff :
    IsWellNamed nodes ↔ "" ∉ nodes.map Node.name ∧ (nodes.map Node.name).Nodup := by
  have hnamed : "" ∉ nodes.map Node.name ↔ ∀ node ∈ nodes, node.name ≠ "" := by simp
  rw [hnamed]
  exact ⟨fun h => ⟨h.named, h.distinct⟩, fun h => ⟨h.1, h.2⟩⟩

theorem isNamed_of_wellNamed (h : Everywhere IsWellNamed nodes) : isNamed nodes = true :=
  isNamed_iff_everywhere.mpr (h.mono fun _ hrow => hrow.named)

theorem isNamed_of_everywhere (h : Everywhere IsRegular nodes) : isNamed nodes = true :=
  isNamed_of_wellNamed (h.mono fun _ hrow => hrow.isWellNamed)

theorem names_fields (nodes : List Node) : Json.names (fields nodes) = nodes.map Node.name := by
  rw [fields_eq_map, Json.names, List.map_map]
  refine List.map_congr_left fun node _ => ?_
  cases node <;> rfl

/-- The document of a forest does not repeat a name where no siblings share one. -/
theorem isUnambiguous_fields_of_wellNamed (h : Everywhere IsWellNamed nodes) :
    (Json.object (fields nodes)).IsUnambiguous := by
  induction h with
  | intro row _ _ hchildren hentries =>
    refine .object (names_fields _ ▸ row.distinct) fun found hfound => ?_
    rw [fields_eq_map] at hfound
    obtain ⟨node, hnode, rfl⟩ := List.mem_map.mp hfound
    cases node with
    | container name children => exact hchildren name children hnode
    | list name entries =>
      refine .array fun item hitem => ?_
      rw [entryObjects_eq_map] at hitem
      obtain ⟨entry, hentry, rfl⟩ := List.mem_map.mp hitem
      exact hentries name entries hnode entry hentry
    | leaf name value => exact .string value
    | leafList name values =>
      refine .array fun item hitem => ?_
      obtain ⟨value, -, rfl⟩ := List.mem_map.mp hitem
      exact .string value

/-- The document of a regular forest does not repeat a name. -/
theorem isUnambiguous_fields (h : Everywhere IsRegular nodes) :
    (Json.object (fields nodes)).IsUnambiguous :=
  isUnambiguous_fields_of_wellNamed (h.mono fun _ hrow => hrow.isWellNamed)

theorem memberTexts?_map_string (values : List String) :
    Json.memberTexts? (values.map .string) = some values := by
  induction values with
  | nil => rfl
  | cons value values ih =>
    rw [Json.memberTexts?] at ih ⊢
    rw [List.map_cons, List.mapM_cons, ih]
    rfl

/-- Inserting a text in front of larger ones puts it first. -/
theorem insertText_of_forall_lt {text : String} {texts : List String}
    (h : ∀ other ∈ texts, text < other) : TextSet.insertText text texts = text :: texts := by
  cases texts with
  | nil => rfl
  | cons first rest => rw [TextSet.insertText, if_pos (h first List.mem_cons_self)]

/-- The set of the members of a set is the set. -/
theorem ofList_values (set : TextSet) : TextSet.ofList set.values = set := by
  have hvalues {texts : List String} (h : texts.Pairwise (· < ·)) :
      (TextSet.ofList texts).values = texts := by
    induction texts with
    | nil => rfl
    | cons text texts ih =>
      obtain ⟨htext, htexts⟩ := List.pairwise_cons.mp h
      show TextSet.insertText text (TextSet.ofList texts).values = text :: texts
      rw [ih htexts, insertText_of_forall_lt htext]
  obtain ⟨values, ascending⟩ := set
  exact TextSet.mk.injEq .. ▸ hvalues ascending

/-- **The tree of the document of a regular forest is the forest.** -/
theorem nodesOf_fields (h : Everywhere IsRegular nodes) :
    Json.nodesOf (fields nodes) = .ok nodes := by
  induction h with
  | @intro nodes row _ _ hchildren hentries =>
    rw [Json.nodesOf_eq_ok_iff, fields_eq_map, List.forall₂_map_left_iff, List.forall₂_same]
    intro node hnode
    have hname := row.named node hnode
    cases node with
    | container name children => exact ⟨hname, .container (hchildren name children hnode)⟩
    | list name entries =>
      refine ⟨hname, .list ?_ ?_⟩
      · -- the first entry is an object, so the array is no leaf-list
        cases entries with
        | nil => exact absurd hnode (row.filled name)
        | cons entry entries => rfl
      · rw [Json.entriesOf_eq_ok_iff, entryObjects_eq_map, List.forall₂_map_left_iff,
          List.forall₂_same]
        exact fun entry hentry => ⟨_, rfl, hentries name entries hnode entry hentry⟩
    | leaf name value => exact ⟨hname, .string value⟩
    | leafList name values =>
      refine ⟨hname, ?_⟩
      have hset : Json.IsNodeOf name (.array (values.values.map .string))
          (.leafList name (.ofList values.values)) := .leafList (memberTexts?_map_string _)
      rw [ofList_values] at hset
      exact hset

end Forest

namespace Json

theorem exists_mem_of_forall₂ {α β : Type} {R : α → β → Prop} {l : List α} {u : List β}
    (h : List.Forall₂ R l u) {b : β} (hb : b ∈ u) : ∃ a ∈ l, R a b := by
  induction h with
  | nil => exact absurd hb List.not_mem_nil
  | cons hab _ ih =>
    rcases List.mem_cons.mp hb with rfl | hb
    · exact ⟨_, List.mem_cons_self, hab⟩
    · obtain ⟨a, ha, hR⟩ := ih hb
      exact ⟨a, List.mem_cons_of_mem _ ha, hR⟩

theorem map_name_of_nodesOf {fields : List (String × Json)} {nodes : List Node}
    (h : nodesOf fields = .ok nodes) : nodes.map Node.name = names fields := by
  have hrow := nodesOf_eq_ok_iff.mp h
  rw [names]
  clear h
  induction hrow with
  | nil => rfl
  | cons hfield _ ih => rw [List.map_cons, List.map_cons, hfield.2.name_eq, ih]

/-- **What a document without repeated fields is turned into is regular.** -/
theorem everywhere_isRegular {fields : List (String × Json)} {nodes : List Node}
    (hdocument : (object fields).IsUnambiguous) (h : nodesOf fields = .ok nodes) :
    Everywhere IsRegular nodes := by
  refine Everywhere.of_closed
    (q := fun row => ∃ fields, (object fields).IsUnambiguous ∧ nodesOf fields = .ok row)
    ?row ?children ?entries ⟨fields, hdocument, h⟩
  case row =>
    rintro row ⟨fields, hfields, hrow⟩
    have hmem {node : Node} (hnode : node ∈ row) :
        ∃ field ∈ fields, field.1 ≠ "" ∧ IsNodeOf field.1 field.2 node :=
      exists_mem_of_forall₂ (nodesOf_eq_ok_iff.mp hrow) hnode
    refine ⟨fun node hnode => ?_, ?_, fun name hnode => ?_⟩
    · obtain ⟨field, -, hname, hfield⟩ := hmem hnode
      rw [hfield.name_eq]
      exact hname
    · rw [map_name_of_nodesOf hrow]
      cases hfields with
      | object hnames _ => exact hnames
    · obtain ⟨⟨_, value⟩, -, -, hfield⟩ := hmem hnode
      cases hfield with
      | list hmixed hentries =>
        rw [entriesOf_eq_ok_iff, List.forall₂_nil_right_iff] at hentries
        rw [hentries] at hmixed
        cases hmixed
  case children =>
    rintro row name children ⟨fields, hfields, hrow⟩ hnode
    obtain ⟨⟨_, value⟩, hmem, -, hfield⟩ :=
      exists_mem_of_forall₂ (nodesOf_eq_ok_iff.mp hrow) hnode
    cases hfields with
    | object _ hvalues =>
      cases hfield with
      | container hchildren => exact ⟨_, hvalues _ hmem, hchildren⟩
  case entries =>
    rintro row name entries ⟨fields, hfields, hrow⟩ hnode entry hentry
    obtain ⟨⟨_, value⟩, hmem, -, hfield⟩ :=
      exists_mem_of_forall₂ (nodesOf_eq_ok_iff.mp hrow) hnode
    cases hfields with
    | object _ hvalues =>
      cases hfield with
      | list _ hentries =>
        obtain ⟨_, hitem, inner, rfl, hinner⟩ :=
          exists_mem_of_forall₂ (entriesOf_eq_ok_iff.mp hentries) hentry
        cases hvalues _ hmem with
        | array hitems => exact ⟨inner, hitems _ hitem, hinner⟩

end Json

end Restconf
