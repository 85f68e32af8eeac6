/-!
# Sets of texts

The values of a leaf-list: a set of texts, kept in the order of their code points. The order is part
of the type, so two sets with the same members are equal, and the members come out in one order.

## Main definitions

* `TextSet` — a strictly ascending list of texts.
* `TextSet.insert`, `TextSet.ofList`, `TextSet.erase` — with their members in `mem_insert`,
  `mem_ofList` and `mem_erase`.
-/

namespace Restconf

/-- A set of texts as the strictly ascending list of its members. -/
structure TextSet where
  values : List String
  ascending : values.Pairwise (· < ·)
deriving DecidableEq

namespace TextSet

instance : Membership String TextSet := ⟨fun set text => text ∈ set.values⟩

/-- The set without members. -/
def empty : TextSet := ⟨[], .nil⟩

/-- The set with one member. -/
def singleton (text : String) : TextSet := ⟨[text], List.pairwise_singleton _ _⟩

/-! ### Insertion -/

/-- Puts a text into an ascending list. -/
def insertText (text : String) : List String → List String
  | [] => [text]
  | first :: rest =>
    if text < first then text :: first :: rest
    else if text = first then first :: rest
    else first :: insertText text rest

@[simp]
theorem mem_insertText {x text : String} {texts : List String} :
    x ∈ insertText text texts ↔ x = text ∨ x ∈ texts := by
  induction texts with
  | nil => simp [insertText]
  | cons first rest ih =>
    unfold insertText
    split
    · simp
    · split
      · next h => simp [h]
      · simp [ih, or_left_comm]

theorem pairwise_insertText (text : String) {texts : List String}
    (h : texts.Pairwise (· < ·)) : (insertText text texts).Pairwise (· < ·) := by
  induction texts with
  | nil => simp [insertText]
  | cons first rest ih =>
    obtain ⟨hfirst, hrest⟩ := List.pairwise_cons.1 h
    unfold insertText
    split
    · next hlt =>
      refine List.pairwise_cons.2 ⟨fun x hx => ?_, h⟩
      rcases List.mem_cons.1 hx with rfl | hx
      · exact hlt
      · exact String.lt_trans hlt (hfirst x hx)
    · split
      · exact h
      · next hnlt hne =>
        refine List.pairwise_cons.2 ⟨fun x hx => ?_, ih hrest⟩
        rcases mem_insertText.1 hx with rfl | hx
        · exact Std.lt_of_le_of_ne (String.not_lt.1 hnlt) (Ne.symm hne)
        · exact hfirst x hx

/-- The set with a further member. -/
def insert (text : String) (set : TextSet) : TextSet :=
  ⟨insertText text set.values, pairwise_insertText text set.ascending⟩

@[simp]
theorem mem_insert {x text : String} {set : TextSet} :
    x ∈ set.insert text ↔ x = text ∨ x ∈ set := mem_insertText

/-- The set of the texts of a list. -/
def ofList (texts : List String) : TextSet := texts.foldr insert empty

@[simp]
theorem mem_ofList {x : String} {texts : List String} : x ∈ ofList texts ↔ x ∈ texts := by
  induction texts with
  | nil => simp [ofList, empty, Membership.mem]
  | cons text texts ih =>
    rw [show ofList (text :: texts) = (ofList texts).insert text from rfl, mem_insert, ih,
      List.mem_cons]

/-! ### Removal -/

/-- The set without a text. -/
def erase (set : TextSet) (text : String) : TextSet :=
  ⟨set.values.filter (· ≠ text), set.ascending.filter _⟩

@[simp]
theorem mem_erase {x text : String} {set : TextSet} :
    x ∈ set.erase text ↔ x ∈ set ∧ x ≠ text := by
  show x ∈ List.filter _ _ ↔ _
  rw [List.mem_filter, decide_eq_true_eq]
  rfl

end TextSet

end Restconf
