import Restconf.Proofs.Json.Reader
import Restconf.Proofs.Tree.Script

/-!
# What a tree keeps of its document

A tree that comes from a document is named, nests as deep as the document, and stands for its normal
form; and the text of a named tree is the compact text of the document it stands for.

## Why the induction goes over a value and its node

Which node a value is, `IsNodeOf` says case by case, but the rows below are given by the recursion
of the reader. `IsNodeOf.induct` replaces that recursion by a hypothesis on every child, so that a
fact about nodes and their values is proved once for a container, once for a list and once for what
has no rows.

## Main results

* `Json.IsNodeOf.induct` — induction on a value beside its node
* `Json.of_nodesOf_eq_ok` — normal form, depth and names
* `Forest.reference_eq_text` — the text of a named forest
-/

namespace Restconf

open Forest

/-! ### What a tree keeps of its document -/

namespace Json

theorem normalize_object (fields : List (String × Json)) :
    normalize (.object fields) = .object (normalizeFields fields) := rfl

theorem normalize_array (items : List Json) :
    normalize (.array items)
      = match memberTexts? items with
        | some members => .array ((TextSet.ofList members).values.map .string)
        | none => .array (normalizeItems items) := rfl

theorem normalizeFields_eq_map (fields : List (String × Json)) :
    normalizeFields fields = fields.map fun field => (field.1, normalize field.2) := by
  induction fields with
  | nil => rfl
  | cons field fields ih =>
    show (field.1, normalize field.2) :: normalizeFields fields = _
    rw [ih, List.map_cons]

theorem normalizeItems_eq_map (items : List Json) :
    normalizeItems items = items.map normalize := by
  induction items with
  | nil => rfl
  | cons item items ih =>
    show normalize item :: normalizeItems items = _
    rw [ih, List.map_cons]

/-- The nodes of a row beside the fields that they are, each with a name and with a property. -/
abbrev RowOf (p : String → Json → Node → Prop) (fields : List (String × Json))
    (row : List Node) : Prop :=
  List.Forall₂ (fun field node => field.1 ≠ "" ∧ p field.1 field.2 node) fields row

/-- Induction on a value beside the node that it is: the property may be used for every child, and
for every node in an entry of a list. -/
@[elab_as_elim]
theorem IsNodeOf.induct {motive : String → Json → Node → Prop}
    (container : ∀ name fields children, RowOf motive fields children →
      motive name (.object fields) (.container name children))
    (leafList : ∀ name items members, memberTexts? items = some members →
      motive name (.array items) (.leafList name (.ofList members)))
    (list : ∀ name items rows, memberTexts? items = none →
      List.Forall₂ (fun item row => ∃ fields, item = object fields ∧ RowOf motive fields row)
        items rows → motive name (.array items) (.list name rows))
    (string : ∀ name text, motive name (.string text) (.leaf name text))
    (number : ∀ name n, motive name (.number n) (.leaf name (.ofList n.text)))
    (bool : ∀ name b, motive name (.bool b) (.leaf name (boolText b)))
    {name : String} {value : Json} {node : Node} (h : IsNodeOf name value node) :
    motive name value node := by
  -- the entries of a list have no names, so what is proved of an object is proved of its row
  have strong : (∀ name node, IsNodeOf name value node → motive name value node)
      ∧ ∀ fields row, value = object fields → nodesOf fields = .ok row →
        RowOf motive fields row := by
    clear h
    induction value using induction with
    | object fields ih =>
      have hrow : ∀ row, nodesOf fields = .ok row → RowOf motive fields row := by
        intro row h
        have hboth := (List.forall₂_and_left _ _).mpr ⟨ih, nodesOf_eq_ok_iff.mp h⟩
        exact hboth.imp fun field node h => ⟨h.2.1, h.1.1 _ _ h.2.2⟩
      refine ⟨fun name node h => ?_, fun _ row heq => object.inj heq ▸ hrow row⟩
      cases h with
      | container h => exact container name fields _ (hrow _ h)
    | array items ih =>
      refine ⟨fun name node h => ?_, fun _ _ heq => by cases heq⟩
      cases h with
      | leafList htexts => exact leafList name items _ htexts
      | list hmixed hentries =>
        have hboth := (List.forall₂_and_left _ _).mpr ⟨ih, entriesOf_eq_ok_iff.mp hentries⟩
        refine list name items _ hmixed (hboth.imp fun item row h => ?_)
        obtain ⟨fields, hitem, hrow⟩ := h.2
        exact ⟨fields, hitem, h.1.2 fields row hitem hrow⟩
    | string text =>
      refine ⟨fun name node h => ?_, fun _ _ heq => by cases heq⟩
      cases h with
      | string => exact string name text
    | number n =>
      refine ⟨fun name node h => ?_, fun _ _ heq => by cases heq⟩
      cases h with
      | number => exact number name n
    | bool b =>
      refine ⟨fun name node h => ?_, fun _ _ heq => by cases heq⟩
      cases h with
      | bool => exact bool name b
    | null =>
      refine ⟨fun _ _ h => ?_, fun _ _ heq => ?_⟩
      · cases h
      · cases heq
  exact strong.1 name node h

section Rows

variable {fields : List (String × Json)} {row : List Node}

theorem fields_eq_of_rowOf
    (h : RowOf (fun name value node => field node = (name, value.normalize)) fields row) :
    Forest.fields row = normalizeFields fields := by
  rw [fields_eq_map, normalizeFields_eq_map]
  induction h with
  | nil => rfl
  | cons hfield _ ih => rw [List.map_cons, List.map_cons, hfield.2, ih]

theorem rowDepth_eq_of_rowOf (h : RowOf (fun _ value node => node.depth = value.depth) fields row) :
    rowDepth row = depthFields fields := by
  induction h with
  | nil => rfl
  | cons hfield _ ih => rw [rowDepth, depthFields, hfield.2, ih]

theorem isNamed_of_rowOf
    (h : RowOf (fun name _ node => name ≠ "" → node.isNamed = true) fields row) :
    isNamed row = true := by
  induction h with
  | nil => rfl
  | cons hfield _ ih => rw [isNamed, hfield.2 hfield.1, ih, Bool.and_self]

end Rows

/-- What is written for the node of a value is the normal form of the value. -/
theorem IsNodeOf.field_eq {name : String} {value : Json} {node : Node}
    (h : IsNodeOf name value node) : field node = (name, value.normalize) := by
  refine IsNodeOf.induct ?container ?leafList ?list (fun _ _ => rfl) (fun _ _ => rfl)
    (fun _ _ => rfl) h
  case container =>
    intro name fields children hrow
    rw [field, fields_eq_of_rowOf hrow, normalize_object]
  case leafList =>
    intro name items members htexts
    rw [field, normalize_array, htexts]
  case list =>
    intro name items rows hmixed hentries
    have hobjects : entryObjects rows = normalizeItems items := by
      rw [entryObjects_eq_map, normalizeItems_eq_map]
      clear hmixed
      induction hentries with
      | nil => rfl
      | cons hentry _ ih =>
        obtain ⟨fields, rfl, hrow⟩ := hentry
        rw [List.map_cons, List.map_cons, ih, fields_eq_of_rowOf hrow, normalize_object]
    rw [field, normalize_array, hmixed, hobjects]

theorem depthItems_of_memberTexts {items : List Json} {members : List String}
    (h : memberTexts? items = some members) : depthItems items = 0 := by
  induction items generalizing members with
  | nil => rfl
  | cons item items ih =>
    rw [memberTexts?, List.mapM_cons, Option.bind_eq_bind, Option.bind_eq_some_iff] at h
    obtain ⟨text, htext, h⟩ := h
    rw [Option.bind_eq_bind, Option.bind_eq_some_iff] at h
    obtain ⟨texts, htexts, -⟩ := h
    have hitem : depth item = 0 := by
      cases item with
      | string | number => rfl
      | _ => cases htext
    rw [depthItems, hitem, ih htexts, Nat.max_self]

/-- The text of a node nests as deep as the value. -/
theorem IsNodeOf.depth_eq {name : String} {value : Json} {node : Node}
    (h : IsNodeOf name value node) : node.depth = value.depth := by
  refine IsNodeOf.induct ?container ?leafList ?list (fun _ _ => rfl) (fun _ _ => rfl)
    (fun _ _ => rfl) h
  case container =>
    intro name fields children hrow
    rw [Node.depth, rowDepth_eq_of_rowOf hrow, depth]
  case leafList =>
    intro name items members htexts
    rw [Node.depth, depth, depthItems_of_memberTexts htexts]
  case list =>
    intro name items rows hmixed hentries
    have hdepth : entriesDepth rows = depthItems items := by
      clear hmixed
      induction hentries with
      | nil => rfl
      | cons hentry _ ih =>
        obtain ⟨fields, rfl, hrow⟩ := hentry
        rw [entriesDepth, depthItems, ih, rowDepth_eq_of_rowOf hrow, depth]
    rw [Node.depth, hdepth, depth]

theorem IsNodeOf.isNamed {name : String} {value : Json} {node : Node}
    (h : IsNodeOf name value node) : name ≠ "" → node.isNamed = true := by
  have hname {name : String} (hname : name ≠ "") : (!name.isEmpty) = true := by simpa using hname
  refine IsNodeOf.induct ?container (fun _ _ _ _ => hname) ?list (fun _ _ => hname)
    (fun _ _ => hname) (fun _ _ => hname) h
  case container =>
    intro name fields children hrow hne
    rw [Node.isNamed, isNamed_of_rowOf hrow, hname hne, Bool.and_self]
  case list =>
    intro name items rows hmixed hentries hne
    have hnamed : areNamed rows = true := by
      clear hmixed
      induction hentries with
      | nil => rfl
      | cons hentry _ ih =>
        obtain ⟨fields, rfl, hrow⟩ := hentry
        rw [areNamed, isNamed_of_rowOf hrow, ih, Bool.and_self]
    rw [Node.isNamed, hnamed, hname hne, Bool.and_self]

/-- What a tree keeps of the fields of its document. -/
theorem of_nodesOf_eq_ok {fields : List (String × Json)} {nodes : List Node}
    (h : nodesOf fields = .ok nodes) :
    Forest.fields nodes = normalizeFields fields ∧ rowDepth nodes = depthFields fields
      ∧ Forest.isNamed nodes = true := by
  have hrow := nodesOf_eq_ok_iff.mp h
  exact ⟨fields_eq_of_rowOf (hrow.imp fun _ _ h => ⟨h.1, h.2.field_eq⟩),
    rowDepth_eq_of_rowOf (hrow.imp fun _ _ h => ⟨h.1, h.2.depth_eq⟩),
    isNamed_of_rowOf (hrow.imp fun _ _ h => ⟨h.1, h.2.isNamed⟩)⟩

end Json

/-! ### The text of a named forest -/

namespace Forest

theorem fieldName_of_ne {name : String} (h : (!name.isEmpty) = true) (rest : List Char) :
    TextWriter.fieldName name ++ rest = Json.quote name.toList ++ ':' :: rest := by
  rw [TextWriter.fieldName, if_neg (by simpa using h), List.append_assoc, List.singleton_append]

theorem braced_eq_text {nodes : List Node} (h : isNamed nodes = true)
    (hnodes : ∀ node ∈ nodes, node.isNamed = true →
      fieldText node = Json.quote (field node).1.toList ++ ':' :: (field node).2.text) :
    braced (fieldTexts nodes) = (Json.object (fields nodes)).text := by
  have hnamed := isNamed_iff_forall_mem.mp h
  rw [braced, Json.text_object, fieldTexts_eq_map, Json.fieldTexts_eq_map, fields_eq_map,
    List.map_map, List.map_congr_left fun node hmem => hnodes node hmem (hnamed node hmem)]
  rfl

/-- A named node is written as the field that it is. -/
theorem fieldText_eq (node : Node) : node.isNamed = true →
    fieldText node = Json.quote (field node).1.toList ++ ':' :: (field node).2.text := by
  induction node using Node.induction with
  | container name children ih =>
    intro h
    rw [Node.isNamed, Bool.and_eq_true] at h
    rw [fieldText, fieldName_of_ne h.1, braced_eq_text h.2 ih, field]
  | list name entries ih =>
    intro h
    rw [Node.isNamed, Bool.and_eq_true, areNamed_iff_forall_mem] at h
    have hentries : entryTexts entries = Json.itemTexts (entryObjects entries) := by
      rw [entryTexts_eq_map, Json.itemTexts_eq_map, entryObjects_eq_map, List.map_map]
      exact List.map_congr_left fun entry hentry =>
        braced_eq_text (h.2 entry hentry) (ih entry hentry)
    rw [fieldText, fieldName_of_ne h.1, hentries, field, Json.text_array, bracketed]
  | leaf name value =>
    intro h
    rw [fieldText, fieldName_of_ne h, field]
    rfl
  | leafList name values =>
    intro h
    rw [fieldText, fieldName_of_ne h, field, Json.text_array, bracketed, Json.itemTexts_eq_map,
      List.map_map]
    rfl

theorem reference_eq_text {nodes : List Node} (h : isNamed nodes = true) :
    reference nodes = (Json.object (fields nodes)).text :=
  braced_eq_text h fun node _ => fieldText_eq node

end Forest

end Restconf
