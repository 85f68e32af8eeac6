import Restconf.Proofs.Engine.Choice
import Restconf.Proofs.Engine.Names

/-!
# What a deletion takes out

A deletion leads to the row of its target along all elements but the last, and takes out of this
row what the last element names. A query goes the same way, and looks up what the last element
names. So there is something to take out if and only if there is something to find.

## Why what is deleted may be found again

After a deletion the row has nothing left of what the last element names. It does not follow that
the path finds nothing: the path leads to the row by the elements before the last, and if the last
of these chooses an entry by its keys, the deletion may have taken away one of the leaves that the
entry was chosen by. The next entry with the keys is chosen then, and it has nodes of its own. This
is the only way, and it takes a second entry with the same keys that has a node of the same name.

## Main definitions

* `Datastore.without` — a row without the nodes of a name
* `Datastore.Uncovers` — a deletion that makes a path lead to another entry

## Main results

* `Datastore.exists_removal_iff` — there is something to take out if there is something to find
* `Datastore.edit_delete_eq_ok_iff` — deletions that succeed
* `Datastore.deletes` — the headline
* `Datastore.find?_of_delete`, `Datastore.delete_again` — the same path after a deletion
-/

namespace Restconf

namespace Datastore

variable {target : Element} {path parents : List Element}
  {payload nodes row below left result : List Node} {identifier : Identifier} {fault : Fault}

/-! ### At the end of the path -/

/-- **There is something to take out if and only if there is something to find.** -/
theorem exists_removal_iff :
    (∃ left, Removal target row left) ↔ ∃ node, Found target row node := by
  constructor
  · rintro ⟨left, h⟩
    cases h with
    | nodes kind present =>
      obtain ⟨node, hmem, hname⟩ := present
      obtain ⟨found, hfound⟩ := Option.ne_none_iff_exists'.mp fun hnone =>
        sibling?_eq_none_iff.mp hnone node hmem hname
      exact ⟨found, .sibling kind hfound⟩
    | @entries before after entries kind first present =>
      obtain ⟨entry, hmem, hmatches⟩ := present
      obtain ⟨chosen, hchosen⟩ := Option.ne_none_iff_exists'.mp fun hnone =>
        List.find?_eq_none.mp hnone entry hmem hmatches
      exact ⟨_, .entry kind (sibling?_append_cons rfl first) hchosen⟩
    | value kind keys first present =>
      exact ⟨_, .value kind (sibling?_append_cons rfl first) keys present⟩
  · rintro ⟨node, h⟩
    cases h with
    | sibling kind found =>
      have present : ∃ node ∈ row, node.name = target.name :=
        ⟨node, mem_of_sibling? found, name_of_sibling? found⟩
      exact ⟨_, .nodes kind present⟩
    | entry kind list selected =>
      obtain ⟨before, after, rfl, -, first⟩ := sibling?_eq_some_iff.mp list
      exact ⟨_, .entries kind first
        ⟨_, List.mem_of_find?_eq_some selected, List.find?_some selected⟩⟩
    | value kind leafList keys present =>
      obtain ⟨before, after, rfl, -, first⟩ := sibling?_eq_some_iff.mp leafList
      exact ⟨_, .value kind keys first present⟩

theorem eq_of_sibling?_append_cons {before after : List Node} {node other : Node}
    (hname : node.name = target.name) (first : ∀ other ∈ before, other.name ≠ target.name)
    (h : sibling? target.name (before ++ node :: after) = some other) : node = other :=
  Option.some.inj ((sibling?_append_cons hname first).symm.trans h)

/-- **What is taken out is not found any more**, in the row that is left. -/
theorem Removal.not_found (h : Removal target row left) {node : Node} :
    ¬ Found target left node := by
  intro hfound
  cases h with
  | nodes kind =>
    cases hfound with
    | sibling _ found =>
      have hmem := List.mem_filter.mp (mem_of_sibling? found)
      exact of_decide_eq_true hmem.2 (name_of_sibling? found)
    | entry hkind | value hkind => rw [kind] at hkind; cases hkind
  | entries kind first =>
    cases hfound with
    | sibling hkind => rw [kind] at hkind; cases hkind
    | entry _ list selected =>
      obtain rfl := (Node.list.inj (eq_of_sibling?_append_cons rfl first list)).2
      have hmem := List.mem_filter.mp (List.mem_of_find?_eq_some selected)
      simp [List.find?_some selected] at hmem
    | value _ leafList => cases eq_of_sibling?_append_cons rfl first leafList
  | value kind keys first =>
    cases hfound with
    | sibling hkind => rw [kind] at hkind; cases hkind
    | entry _ list => cases eq_of_sibling?_append_cons rfl first list
    | value _ leafList keys' present =>
      obtain rfl := (Node.leafList.inj (eq_of_sibling?_append_cons rfl first leafList)).2
      rw [keys] at keys'
      obtain ⟨rfl, -⟩ := List.cons.inj keys'
      exact (TextSet.mem_erase.mp present).2 rfl

/-- Only a single node that is taken out can be a leaf, so keys that match the row do so still. -/
theorem Removal.leafValues_eq (h : Removal target row left) (kind : target.kind = .multi) :
    leafValues left = leafValues row := by
  cases h with
  | nodes hkind => rw [kind] at hkind; cases hkind
  | entries | value => simp [leafValues]

theorem fault_of_removeTarget (h : removeTarget identifier target row = .error fault) :
    fault = .notFound identifier.display := by
  rw [removeTarget] at h
  repeat' split at h
  all_goals first | exact (Except.error.inj h).symm | cases h

/-! ### The whole path -/

/-- An edit that adds nothing reaches children that were there. -/
theorem Graft.children_of_existing {changed : List Node}
    (h : Graft false path below changed nodes result) : children path nodes = .ok below := by
  induction h with
  | here => rfl
  | under level _ ih =>
    rw [children_cons, level.children_or_added.resolve_right (by simp)]
    exact ih

theorem edit_delete_of_eq_concat (hpath : identifier.elements = parents ++ [target]) :
    edit .delete identifier payload nodes
      = modify false (removeTarget identifier target) parents nodes := by
  rw [edit, hpath, List.getLast?_concat, List.dropLast_concat]

/-- **Deletions that succeed** take something out of the row at all elements but the last. -/
theorem edit_delete_eq_ok_iff :
    edit .delete identifier payload nodes = .ok result
      ↔ ∃ parents target row left, identifier.elements = parents ++ [target]
          ∧ Graft false parents row left nodes result ∧ Removal target row left := by
  constructor
  · intro h
    cases htarget : identifier.elements.getLast? with
    | none =>
      rw [edit, htarget] at h
      cases h
    | some target =>
      obtain ⟨parents, hpath⟩ := List.getLast?_eq_some_iff.mp htarget
      rw [edit_delete_of_eq_concat hpath] at h
      obtain ⟨row, left, hgraft, hremoved⟩ := modify_eq_ok_iff.mp h
      exact ⟨parents, target, row, left, hpath, hgraft, removeTarget_eq_ok_iff.mp hremoved⟩
  · rintro ⟨parents, target, row, left, hpath, hgraft, hremoval⟩
    rw [edit_delete_of_eq_concat hpath]
    exact modify_eq_ok_iff.mpr ⟨row, left, hgraft, removeTarget_eq_ok_iff.mpr hremoval⟩

/-- **Deletions that fail** do so because the row cannot be reached, or because it has nothing to
take out. -/
theorem fault_of_delete (hpath : identifier.elements = parents ++ [target])
    (h : edit .delete identifier payload nodes = .error fault) :
    children parents nodes = .error fault ∨ fault = .notFound identifier.display := by
  rw [edit_delete_of_eq_concat hpath] at h
  cases hrow : children parents nodes with
  | error stop =>
    obtain ⟨element, hstop⟩ := children_eq_error_iff.mp hrow
    rw [hstop.modify (Or.inl rfl)] at h
    exact Or.inl h
  | ok row =>
    obtain ⟨put, -, -, hmodify⟩ := exists_put hrow
    have hrest := hmodify false (removeTarget identifier target) []
    rw [List.append_nil, h, modify] at hrest
    cases hremoved : removeTarget identifier target row with
    | ok left =>
      rw [hremoved] at hrest
      cases hrest
    | error other =>
      rw [hremoved] at hrest
      obtain rfl := Except.error.inj hrest
      exact Or.inr (fault_of_removeTarget hremoved)

/-- **A deletion succeeds if and only if a query finds something.** -/
theorem exists_delete_iff :
    (∃ result, edit .delete identifier payload nodes = .ok result)
      ↔ ∃ node, find? nodes identifier.elements = some node := by
  constructor
  · rintro ⟨result, h⟩
    obtain ⟨parents, target, row, left, hpath, hgraft, hremoval⟩ := edit_delete_eq_ok_iff.mp h
    obtain ⟨node, hnode⟩ := exists_removal_iff.mp ⟨left, hremoval⟩
    exact ⟨node, find?_eq_some_iff.mpr
      ⟨parents, target, row, hpath, hgraft.children_of_existing, hnode⟩⟩
  · rintro ⟨node, h⟩
    obtain ⟨parents, target, row, hpath, hrow, hnode⟩ := find?_eq_some_iff.mp h
    obtain ⟨left, hremoval⟩ := exists_removal_iff.mpr ⟨node, hnode⟩
    obtain ⟨put, -, hgraft, -⟩ := exists_put hrow
    exact ⟨put left, edit_delete_eq_ok_iff.mpr
      ⟨parents, target, row, left, hpath, hgraft false left, hremoval⟩⟩

/-- **When a deletion succeeds, and what it takes out.** The row that holds the target is the one
that queries find below the elements before the last, and nothing else in the forest changes. -/
theorem deletes (identifier : Identifier) (payload nodes : List Node) :
    ((∃ result, edit .delete identifier payload nodes = .ok result)
        ↔ ∃ node, find? nodes identifier.elements = some node)
      ∧ ∀ result, edit .delete identifier payload nodes = .ok result →
          ∃ parents target row left, identifier.elements = parents ++ [target]
            ∧ IsRowOf nodes parents row ∧ Removal target row left
            ∧ Graft false parents row left nodes result := by
  refine ⟨exists_delete_iff, fun result h => ?_⟩
  obtain ⟨parents, target, row, left, hpath, hgraft, hremoval⟩ := edit_delete_eq_ok_iff.mp h
  have hrow : IsRowOf nodes parents row := isRowOf_iff.mpr hgraft.children_of_existing
  exact ⟨parents, target, row, left, hpath, hrow, hremoval, hgraft⟩

/-- All entries with the key go, and the leaf of the same name stays. -/
example :
    edit .delete ⟨"/r", [⟨"top", none, .single, []⟩, ⟨"if", none, .multi, ["a"]⟩]⟩ []
        [.container "top" [.leaf "x" "a", .list "if" [[.leaf "id" "a"], [.leaf "id" "b"],
          [.leaf "id" "a", .leaf "mtu" "9"]]]]
      = .ok [.container "top" [.leaf "x" "a", .list "if" [[.leaf "id" "b"]]]] := by
  decide

/-! ### The same path after a deletion -/

/-- A row without the nodes of a name. -/
def without (name : String) (row : List Node) : List Node :=
  row.filter fun node => decide (node.name ≠ name)

theorem Removal.eq_without (h : Removal target row left) (kind : target.kind = .single) :
    left = without target.name row := by
  cases h with
  | nodes => rfl
  | entries hkind | value hkind => rw [kind] at hkind; cases hkind

/-- **A deletion uncovers a node of another entry**: it takes from an entry one of the leaves that
the entry was chosen by, and the next entry with the keys has a node of the same name. -/
def Uncovers (nodes : List Node) (path : List Element) (node : Node) : Prop :=
  ∃ parents target next others, path = parents ++ [target] ∧ target.kind = .single
    ∧ LosesKeys nodes parents (without target.name) (next :: others)
    ∧ sibling? target.name next = some node

/-- **Where the elements before the last lead after a deletion**: to the row that is left, or, if an
entry has lost its keys, to the next entry with them. -/
theorem Removal.children_cases (h : Removal target row left)
    (hgraft : Graft false parents row left nodes result) :
    children parents result = .ok left
      ∨ ∃ owner others, target.kind = .single
          ∧ LosesKeys nodes parents (without target.name) others
          ∧ children parents result = others.head?.elim (.error (missing owner)) .ok := by
  by_cases hlost : target.kind = .single
      ∧ ∃ others, LosesKeys nodes parents (without target.name) others
  · obtain ⟨kind, others, hlost⟩ := hlost
    obtain rfl := h.eq_without kind
    obtain ⟨above, owner, rfl, hnext⟩ := hlost.chooses hgraft
    exact Or.inr ⟨owner, others, kind, hlost, hnext.children⟩
  · left
    cases kind : target.kind with
    | single =>
      obtain rfl := h.eq_without kind
      exact hgraft.children_of_keepsKeys fun others hothers => hlost ⟨kind, others, hothers⟩
    | multi =>
      refine hgraft.children_result fun _ _ _ selected => ?_
      rw [entryMatches] at selected ⊢
      rwa [h.leafValues_eq kind]

/-- **What is found at the path of a deletion after it** has been uncovered by it. -/
theorem find?_of_delete (h : edit .delete identifier payload nodes = .ok result) {node : Node} :
    find? result identifier.elements = some node ↔ Uncovers nodes identifier.elements node := by
  obtain ⟨parents, target, row, left, hpath, hgraft, hremoval⟩ := edit_delete_eq_ok_iff.mp h
  rw [hpath, find?_concat_eq_some_iff]
  constructor
  · rintro ⟨inner, hinner, hfound⟩
    rcases hremoval.children_cases hgraft with hleft | ⟨owner, others, kind, hlost, hnext⟩
    · rw [hleft] at hinner
      obtain rfl := Except.ok.inj hinner
      exact absurd hfound hremoval.not_found
    · rw [hinner] at hnext
      cases others with
      | nil => cases hnext
      | cons next others =>
        obtain rfl := Except.ok.inj hnext
        cases hfound with
        | sibling _ hsibling => exact ⟨parents, target, inner, others, rfl, kind, hlost, hsibling⟩
        | entry hkind | value hkind => rw [kind] at hkind; cases hkind
  · rintro ⟨parents', target', next, others, hpath', kind, hlost, hsibling⟩
    obtain ⟨rfl, hlast⟩ := List.append_inj' hpath' rfl
    obtain ⟨rfl, -⟩ := List.cons.inj hlast
    obtain rfl := hremoval.eq_without kind
    obtain ⟨above, owner, rfl, hnext⟩ := hlost.chooses hgraft
    exact ⟨next, hnext.children, .sibling kind hsibling⟩

/-- **A deletion that is repeated in vain** finds that its target does not exist. -/
theorem delete_again (h : edit .delete identifier payload nodes = .ok result)
    (hnone : find? result identifier.elements = none) :
    ∃ detail, edit .delete identifier payload result = .error (.notFound detail) := by
  cases hagain : edit .delete identifier payload result with
  | ok again =>
    obtain ⟨node, hnode⟩ := exists_delete_iff.mp ⟨again, hagain⟩
    rw [hnone] at hnode
    cases hnode
  | error fault =>
    obtain ⟨parents, target, row, left, hpath, hgraft, hremoval⟩ := edit_delete_eq_ok_iff.mp h
    rcases fault_of_delete hpath hagain with hstop | rfl
    · rcases hremoval.children_cases hgraft with hleft | ⟨owner, others, -, -, hnext⟩
      · rw [hleft] at hstop
        cases hstop
      · rw [hstop] at hnext
        cases others with
        | nil => exact ⟨owner.display, congrArg _ (Except.error.inj hnext)⟩
        | cons => cases hnext
    · exact ⟨identifier.display, rfl⟩

end Datastore

end Restconf
