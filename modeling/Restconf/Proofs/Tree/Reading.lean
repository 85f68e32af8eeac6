import Mathlib.Logic.Basic
import Restconf.Proofs.Json.Reader
import Restconf.Proofs.Tree.Replay

/-!
# Reading the text of a forest

The text that is written for a forest is read exactly if no name in it is empty and it does not nest
too deep, and then it is read to the document of the forest.

## Why failure is part of the statement

Whether the text of a forest can be read is decided by the forest alone, and both ways of failing
are real. A node without a name writes its value where the name of a field has to stand; a forest
can be nested deeper than any document is read. So the reading of a node is stated as a conditional,
and the reading of a row follows from that of its members.

## Main results

* `Forest.readField_fieldText` — a node as a field of an object
* `Forest.ofText?_reference` — a whole forest
* `Forest.toJson_eq` — when rendering succeeds, and what it gives
-/

namespace Restconf

theorem mapM_ite {α β : Type} (p : α → Prop) [DecidablePred p] (f : α → β) (items : List α) :
    (items.mapM fun a => if p a then some (f a) else none)
      = if ∀ a ∈ items, p a then some (items.map f) else none := by
  induction items with
  | nil => simp
  | cons a items ih =>
    rw [List.mapM_cons, ih]
    by_cases ha : p a
    · by_cases hitems : ∀ a ∈ items, p a
      · rw [if_pos ha, if_pos hitems, if_pos (List.forall_mem_cons.mpr ⟨ha, hitems⟩)]
        rfl
      · rw [if_pos ha, if_neg hitems, if_neg fun h => hitems (List.forall_mem_cons.mp h).2]
        rfl
    · rw [if_neg ha, if_neg fun h => ha (List.forall_mem_cons.mp h).1]
      rfl

namespace Forest

open Json

/-! ### Brackets -/

section Brackets

variable {β : Type} {fuel limit : Nat} {text : β → List Char} {items : List β} {p : β → Prop}
  [DecidablePred p]

/-- An array of texts is read if each of its items is. -/
theorem read_bracketed {value : β → Json}
    (hreads : Reads (read fuel limit) ']' fuel text
      (fun b => if p b then some (value b) else none) items)
    (rest : List Char) (hfuel : (bracketed (items.map text) ++ rest).length ≤ fuel) :
    read fuel (limit + 1) (bracketed (items.map text) ++ rest)
      = if ∀ b ∈ items, p b then some (.array (items.map value), rest) else none := by
  have hopened : bracketed (items.map text) ++ rest
      = '[' :: (commaSeparated (items.map text) ++ ']' :: rest) := by simp [bracketed]
  rw [hopened, List.length_cons] at hfuel
  rw [hopened, read_array, readParts_commaSeparated rfl (by decide) hreads rest (by omega),
    mapM_ite]
  split <;> rfl

/-- An object of field texts is read if each of its fields is. -/
theorem read_braced_of_reads {value : β → String × Json}
    (hreads : Reads (readField readString fun _ => read fuel limit) '}' fuel text
      (fun b => if p b then some (value b) else none) items)
    (rest : List Char) (hfuel : (braced (items.map text) ++ rest).length ≤ fuel) :
    read fuel (limit + 1) (braced (items.map text) ++ rest)
      = if ∀ b ∈ items, p b then some (.object (items.map value), rest) else none := by
  have hopened : braced (items.map text) ++ rest
      = '{' :: (commaSeparated (items.map text) ++ '}' :: rest) := by simp [braced]
  rw [hopened, List.length_cons] at hfuel
  rw [hopened, read_object, readParts_commaSeparated rfl (by decide) hreads rest (by omega),
    mapM_ite]
  split <;> rfl

end Brackets

theorem read_bracketed_zero (fuel : Nat) (texts : List (List Char)) (rest : List Char) :
    read fuel 0 (bracketed texts ++ rest) = none := by
  rw [bracketed, List.cons_append, List.cons_append, Json.read]

theorem read_braced_zero (fuel : Nat) (texts : List (List Char)) (rest : List Char) :
    read fuel 0 (braced texts ++ rest) = none := by
  rw [braced, List.cons_append, List.cons_append, Json.read]

/-! ### Nodes -/

/-- What a reader makes of a node in an object: the node has to be named and must not nest deeper
than is read. -/
def IsRead (fuel : Nat) (node : Node) : Prop :=
  ∀ limit rest, Ends '}' rest → (fieldText node ++ rest).length ≤ fuel →
    readField readString (fun _ => read fuel limit) (fieldText node ++ rest)
      = if node.isNamed = true ∧ node.depth ≤ limit then some (field node, rest) else none

/-- The text of a node begins with a quote or an opening bracket. -/
theorem fieldText_eq_cons (node : Node) :
    ∃ c tail, fieldText node = c :: tail ∧ isBlank c = false ∧ c ≠ '}' := by
  have hname (name : String) {c : Char} (tail : List Char) (hc : isBlank c = false ∧ c ≠ '}') :
      ∃ d rest, TextWriter.fieldName name ++ c :: tail = d :: rest
        ∧ isBlank d = false ∧ d ≠ '}' := by
    unfold TextWriter.fieldName
    split
    · exact ⟨c, tail, rfl, hc⟩
    · exact ⟨'"', _, rfl, by decide, by decide⟩
  cases node with
  | container name children =>
    rw [fieldText, braced, List.cons_append]
    exact hname name _ (by decide)
  | list name entries =>
    rw [fieldText, bracketed, List.cons_append]
    exact hname name _ (by decide)
  | leaf name value =>
    rw [fieldText, quote, List.cons_append]
    exact hname name _ (by decide)
  | leafList name values =>
    rw [fieldText, bracketed, List.cons_append]
    exact hname name _ (by decide)

/-- A row as an object. -/
theorem read_braced {nodes : List Node} {fuel : Nat} (hnodes : ∀ node ∈ nodes, IsRead fuel node)
    (limit : Nat) (rest : List Char)
    (hfuel : (braced (fieldTexts nodes) ++ rest).length ≤ fuel) :
    read fuel limit (braced (fieldTexts nodes) ++ rest)
      = if isNamed nodes = true ∧ depth nodes ≤ limit then some (.object (fields nodes), rest)
        else none := by
  cases limit with
  | zero => rw [read_braced_zero, if_neg fun h => absurd h.2 (Nat.not_succ_le_zero _)]
  | succ limit =>
    have hreads : Reads (readField readString fun _ => read fuel limit) '}' fuel fieldText
        (fun node => if node.isNamed = true ∧ node.depth ≤ limit then some (field node) else none)
        nodes := by
      intro node hmem
      refine ⟨fieldText_eq_cons node, fun rest hends hlength => ?_⟩
      rw [hnodes node hmem limit rest hends hlength, apply_ite (Option.map fun a => (a, rest))]
      rfl
    have hall : (∀ node ∈ nodes, node.isNamed = true ∧ node.depth ≤ limit)
        ↔ isNamed nodes = true ∧ depth nodes ≤ limit + 1 := by
      rw [isNamed_iff_forall_mem, depth, Nat.add_le_add_iff_right, rowDepth_le_iff]
      simp only [imp_and, forall_and]
    rw [fieldTexts_eq_map] at hfuel ⊢
    rw [read_braced_of_reads hreads rest hfuel, fields_eq_map]
    simp only [hall]

/-- The entries of a list as an array of objects. -/
theorem read_entryTexts {entries : List (List Node)} {fuel : Nat}
    (hentries : ∀ entry ∈ entries, ∀ node ∈ entry, IsRead fuel node) (limit : Nat)
    (rest : List Char) (hfuel : (bracketed (entryTexts entries) ++ rest).length ≤ fuel) :
    read fuel limit (bracketed (entryTexts entries) ++ rest)
      = if areNamed entries = true ∧ entriesDepth entries + 1 ≤ limit then
          some (.array (entryObjects entries), rest)
        else none := by
  cases limit with
  | zero => rw [read_bracketed_zero, if_neg fun h => absurd h.2 (Nat.not_succ_le_zero _)]
  | succ limit =>
    have hreads : Reads (read fuel limit) ']' fuel (fun entry => braced (fieldTexts entry))
        (fun entry => if isNamed entry = true ∧ depth entry ≤ limit then
          some (.object (fields entry)) else none) entries := by
      intro entry hmem
      refine ⟨⟨'{', _, rfl, by decide, by decide⟩, fun rest _ hlength => ?_⟩
      rw [read_braced (hentries entry hmem) limit rest hlength,
        apply_ite (Option.map fun a => (a, rest))]
      rfl
    have hall : (∀ entry ∈ entries, isNamed entry = true ∧ depth entry ≤ limit)
        ↔ areNamed entries = true ∧ entriesDepth entries + 1 ≤ limit + 1 := by
      rw [areNamed_iff_forall_mem, Nat.add_le_add_iff_right, entriesDepth_le_iff]
      simp only [imp_and, forall_and]
    rw [entryTexts_eq_map] at hfuel ⊢
    rw [read_bracketed hreads rest hfuel, entryObjects_eq_map]
    simp only [hall]

/-- The values of a leaf-list as an array of strings. -/
theorem read_values (values : List String) {fuel : Nat} (limit : Nat) (rest : List Char)
    (hfuel : (bracketed (values.map fun v => quote v.toList) ++ rest).length ≤ fuel) :
    read fuel limit (bracketed (values.map fun v => quote v.toList) ++ rest)
      = if 1 ≤ limit then some (.array (values.map .string), rest) else none := by
  cases limit with
  | zero => rw [read_bracketed_zero, if_neg (Nat.not_succ_le_zero _)]
  | succ limit =>
    have hreads : Reads (read fuel limit) ']' fuel (fun v : String => quote v.toList)
        (fun v => if True then some (.string v) else none) values := by
      intro v _
      refine ⟨⟨'"', _, rfl, by decide, by decide⟩, fun rest _ _ => ?_⟩
      rw [read_quote, String.ofList_toList]
      rfl
    rw [read_bracketed hreads rest hfuel, if_pos fun _ _ => trivial,
      if_pos (Nat.le_add_left 1 limit)]

/-- A value in brackets is a field if it can be read and has a name. Without a name it stands where
a name has to stand. -/
theorem readField_of_read {fuel limit : Nat} {c : Char} {body rest : List Char} {value : Json}
    {p : Prop} [Decidable p] (hblank : isBlank c = false) (hquote : c ≠ '"') (name : String)
    (hread : Json.read fuel limit (c :: body) = if p then some (value, rest) else none) :
    readField readString (fun _ => Json.read fuel limit) (TextWriter.fieldName name ++ c :: body)
      = if (!name.isEmpty) = true ∧ p then some ((name, value), rest) else none := by
  cases hname : name.isEmpty with
  | true =>
    rw [TextWriter.fieldName, hname, if_pos rfl, List.nil_append, readField,
      readString_of_ne hquote, if_neg fun h => absurd h.1 Bool.false_ne_true]
    rfl
  | false =>
    rw [TextWriter.fieldName, hname, if_neg Bool.false_ne_true, List.append_assoc,
      List.singleton_append, readField_quote _ _ hblank, String.ofList_toList, hread]
    by_cases hp : p
    · rw [if_pos hp, if_pos ⟨rfl, hp⟩, Option.map_some]
    · rw [if_neg hp, if_neg fun h => hp h.2, Option.map_none]

/-- A leaf is a field if it has a name. Without one its value is taken for the name, and what stands
behind the value is no colon. -/
theorem readField_leaf (name value : String) {fuel limit : Nat} {rest : List Char}
    (hends : Ends '}' rest) :
    readField readString (fun _ => Json.read fuel limit)
        (TextWriter.fieldName name ++ quote value.toList ++ rest)
      = if (!name.isEmpty) = true then some ((name, .string value), rest) else none := by
  have hread := read_quote fuel limit value.toList rest
  rw [List.append_assoc]
  cases hname : name.isEmpty with
  | true =>
    obtain ⟨c, tail, rfl, hc⟩ := hends
    have hblank : isBlank c = false := by rcases hc with rfl | rfl <;> decide
    have hcolon : c ≠ ':' := by rcases hc with rfl | rfl <;> decide
    rw [TextWriter.fieldName, hname, if_pos rfl, List.nil_append, readField, readString_quote,
      Bool.not_true, if_neg Bool.false_ne_true]
    simp only [Option.bind_eq_bind, Option.bind_some, skipBlank_cons hblank]
    split
    · next heq => exact absurd (List.cons.inj heq).1 hcolon
    · rfl
  | false =>
    rw [quote, List.cons_append, List.cons_append] at hread ⊢
    rw [TextWriter.fieldName, hname, if_neg Bool.false_ne_true, List.append_assoc,
      List.singleton_append, readField_quote _ _ rfl, String.ofList_toList, hread,
      String.ofList_toList]
    rfl

/-- **A node is read back** where its text stands among the fields of an object. -/
theorem readField_fieldText (fuel : Nat) (node : Node) : IsRead fuel node := by
  induction node using Node.induction with
  | container name children ih =>
    intro limit rest _ hfuel
    rw [fieldText, List.append_assoc] at hfuel ⊢
    rw [List.length_append] at hfuel
    have hread := read_braced ih limit rest (by omega)
    rw [braced, List.cons_append, List.cons_append] at hread ⊢
    rw [readField_of_read rfl (by decide) name hread, field]
    refine if_congr ?_ rfl rfl
    rw [Node.isNamed, Node.depth, depth, Bool.and_eq_true, and_assoc]
  | list name entries ih =>
    intro limit rest _ hfuel
    rw [fieldText, List.append_assoc] at hfuel ⊢
    rw [List.length_append] at hfuel
    have hread := read_entryTexts ih limit rest (by omega)
    rw [bracketed, List.cons_append, List.cons_append] at hread ⊢
    rw [readField_of_read rfl (by decide) name hread, field]
    refine if_congr ?_ rfl rfl
    rw [Node.isNamed, Node.depth, Bool.and_eq_true, and_assoc]
  | leaf name value =>
    intro limit rest hends _
    rw [fieldText, readField_leaf name value hends, field]
    refine if_congr ?_ rfl rfl
    rw [Node.isNamed, Node.depth, and_iff_left (Nat.zero_le limit)]
  | leafList name values =>
    intro limit rest _ hfuel
    rw [fieldText, List.append_assoc] at hfuel ⊢
    rw [List.length_append] at hfuel
    have hread := @read_values values.values fuel limit rest (by omega)
    rw [bracketed, List.cons_append, List.cons_append] at hread ⊢
    rw [readField_of_read rfl (by decide) name hread, field]
    refine if_congr ?_ rfl rfl
    rw [Node.isNamed, Node.depth]

/-! ### Whole forests -/

/-- What the text of a forest is read as. -/
theorem ofText?_reference (limit : Nat) (nodes : List Node) :
    ofText? limit (reference nodes)
      = if isNamed nodes = true ∧ depth nodes ≤ limit then some (.object (fields nodes))
        else none := by
  have hlength : (braced (fieldTexts nodes) ++ []).length ≤ (reference nodes).length := by
    exact Nat.le_of_eq (congrArg List.length (List.append_nil _))
  have hread := read_braced (fun node _ => readField_fieldText _ node) limit [] hlength
  rw [List.append_nil, ← reference] at hread
  have hblank : skipBlank (reference nodes) = reference nodes := skipBlank_cons (by decide) _
  rw [ofText?, whole?, hblank, hread]
  by_cases h : isNamed nodes = true ∧ depth nodes ≤ limit
  · rw [if_pos h, if_pos h]
    rfl
  · rw [if_neg h, if_neg h]

/-- A forest that is named and does not nest too deep has a text that is a document. -/
theorem parse?_reference (nodes : List Node) :
    parse? (.ofList (reference nodes))
      = if isNamed nodes = true ∧ depth nodes ≤ nestingLimit then
          some (merge (.object (fields nodes)))
        else none := by
  rw [parse?, String.toList_ofList, ofText?_reference, apply_ite (Option.map merge)]
  rfl

/-- **When rendering succeeds, and what it gives.** -/
theorem toJson_eq (nodes : List Node) :
    toJson nodes
      = if isNamed nodes = true ∧ depth nodes ≤ nestingLimit then
          .ok (merge (.object (fields nodes)))
        else .error TextWriter.invalidText := by
  obtain ⟨writer, hwrite, hfinal⟩ : ∃ writer, write nodes = .ok writer
      ∧ writer.finalize = .ok (.ofList (reference nodes)) := by
    have htext := toText_eq nodes
    rw [toText, write_eq] at htext
    exact ⟨_, write_eq nodes, htext⟩
  have hvalue : toJson nodes = writer.finalizeValue := by
    rw [toJson, hwrite]
    rfl
  rw [hvalue, TextWriter.finalizeValue, hfinal]
  simp only [bind, Except.bind, parse?_reference]
  by_cases h : isNamed nodes = true ∧ depth nodes ≤ nestingLimit
  · rw [if_pos h, if_pos h]
    rfl
  · rw [if_neg h, if_neg h]
    rfl

end Forest

end Restconf
