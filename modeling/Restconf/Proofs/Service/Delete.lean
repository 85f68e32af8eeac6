import Restconf.Proofs.Engine.Deletion
import Restconf.Proofs.Service.Run

/-!
# What a deletion leaves to be found

A deletion that succeeds has taken its target out of the row in which it stood. Whether the same
identifier finds something afterwards depends on where it leads then.

## Entries with the same keys

A store can hold entries with the same keys: a document may have them, and requests may add a leaf
to an entry or take one away. Which of them an identifier is about is settled anew by every request,
from the leaves that are there. Deleting a leaf by which an entry was chosen is therefore not only
a change of the entry, but of what the identifier means. It is then about the next entry with the
keys, and what that one has under the name is still there.

## Main results

* `Service.gone_of_delete` — what an identifier finds after it was deleted
-/

namespace Restconf

open Forest

namespace Service

/-- **What is deleted is gone**: no query of the identifier finds anything, and a deletion that is
repeated fails and changes nothing. The one exception is a node of another entry with the same keys,
where the deletion took away a leaf that they were compared with. -/
theorem gone_of_delete {store : Datastore} {identifier : Identifier}
    (h : (TreeEngine.execute store { operation := .edit .delete, identifier }).1 = .ok none) :
    let after := (TreeEngine.execute store { operation := .edit .delete, identifier }).2
    ((∀ node, ¬ Datastore.Uncovers store.nodes identifier.elements node) →
        (TreeEngine.execute after { operation := .query, identifier }).1 = .ok none
          ∧ ∃ detail, TreeEngine.execute after { operation := .edit .delete, identifier }
              = (.error (.notFound detail), after))
      ∧ ∀ node, Datastore.Uncovers store.nodes identifier.elements node →
          (TreeEngine.execute after { operation := .query, identifier }).1 = .ok (some node)
            ∧ (TreeEngine.execute after { operation := .edit .delete, identifier }).1
                = .ok none := by
  intro after
  cases hedit : Datastore.edit .delete identifier [] store.nodes with
  | error fault =>
    rw [Datastore.execute_edit_of_eq_error hedit] at h
    cases h
  | ok nodes =>
    have hafter : after.nodes = nodes := by
      simp only [after, Datastore.execute_edit_of_eq_ok hedit]
      rfl
    refine ⟨fun hnone => ?_, fun node huncovers => ?_⟩
    · have hfind : Datastore.find? after.nodes identifier.elements = none := by
        refine Option.eq_none_iff_forall_ne_some.mpr fun node hnode => hnone node ?_
        exact (Datastore.find?_of_delete hedit).mp (hafter ▸ hnode)
      obtain ⟨detail, hagain⟩ := Datastore.delete_again hedit (hafter ▸ hfind)
      refine ⟨congrArg Except.ok hfind, detail, ?_⟩
      exact Datastore.execute_edit_of_eq_error (hafter.symm ▸ hagain)
    · have hfind : Datastore.find? after.nodes identifier.elements = some node :=
        hafter ▸ (Datastore.find?_of_delete hedit).mpr huncovers
      obtain ⟨again, hagain⟩ := Datastore.exists_delete_iff.mpr ⟨node, hfind⟩
      refine ⟨congrArg Except.ok hfind, ?_⟩
      rw [Datastore.execute_edit_of_eq_ok hagain]

/-- In the first of two entries with the same key. A leaf beside the key is gone when it is deleted,
though the other entry has one of the name; the key is found again, in the other entry. -/
theorem gone_of_delete_entries :
    let entry : Element := ⟨"l", none, .multi, ["a"]⟩
    let store : Datastore :=
      { nodes := [.list "l" [[.leaf "id" "a", .leaf "x" "1"], [.leaf "id" "a", .leaf "x" "2"]]] }
    let beside : Identifier := ⟨"/r", [entry, ⟨"x", none, .single, []⟩]⟩
    let key : Identifier := ⟨"/r", [entry, ⟨"id", none, .single, []⟩]⟩
    let after (identifier : Identifier) : Datastore :=
      (TreeEngine.execute store { operation := .edit .delete, identifier }).2
    (TreeEngine.execute store { operation := .edit .delete, identifier := beside }).1 = .ok none
      ∧ (TreeEngine.execute (after beside) { operation := .query, identifier := beside }).1
          = .ok none
      ∧ (∃ detail, TreeEngine.execute (after beside)
            { operation := .edit .delete, identifier := beside }
          = (.error (.notFound detail), after beside))
      ∧ (TreeEngine.execute store { operation := .edit .delete, identifier := key }).1 = .ok none
      ∧ (TreeEngine.execute (after key) { operation := .query, identifier := key }).1
          = .ok (some (.leaf "id" "a"))
      ∧ (TreeEngine.execute (after key) { operation := .edit .delete, identifier := key }).1
          = .ok none := by
  intro entry store beside key after
  have hbeside : (TreeEngine.execute store
      { operation := .edit .delete, identifier := beside }).1 = .ok none := rfl
  have hkey : (TreeEngine.execute store
      { operation := .edit .delete, identifier := key }).1 = .ok none := rfl
  have hchooses : Datastore.Chooses store.nodes [] entry
      [[.leaf "id" "a", .leaf "x" "1"], [.leaf "id" "a", .leaf "x" "2"]] :=
    ⟨rfl, store.nodes, _, Or.inl ⟨rfl, rfl⟩, rfl, rfl⟩
  have hnone (node : Node) : ¬ Datastore.Uncovers store.nodes beside.elements node := by
    rintro ⟨parents, target, next, others, hpath, -, hlost, -⟩
    have hpath : [entry] ++ [⟨"x", none, .single, []⟩] = parents ++ [target] := hpath
    obtain ⟨rfl, hlast⟩ := List.append_inj' hpath rfl
    obtain ⟨rfl, -⟩ := List.cons.inj hlast
    exact hchooses.not_losesKeys rfl hlost
  have huncovers : Datastore.Uncovers store.nodes key.elements (.leaf "id" "a") :=
    ⟨[entry], _, _, [], rfl, rfl, ⟨[], entry, _, rfl, hchooses, rfl⟩, rfl⟩
  obtain ⟨hgone, hagain⟩ := (gone_of_delete hbeside).1 hnone
  obtain ⟨hfound, hother⟩ := (gone_of_delete hkey).2 _ huncovers
  exact ⟨hbeside, hgone, hagain, hkey, hfound, hother⟩

/-- The key of one of two entries that were seeded: it is deleted, and it is there. -/
theorem gone_of_delete_key :
    let config : ServiceConfig := { rootPath := "/r" }
    let store : Datastore := { nodes := [.list "l" [[.leaf "id" "a"], [.leaf "id" "a"]]] }
    let key : Identifier := ⟨"/r", [⟨"l", none, .multi, ["a"]⟩, ⟨"id", none, .single, []⟩]⟩
    let after : Datastore :=
      (TreeEngine.execute store { operation := .edit .delete, identifier := key }).2
    IsReachable config store ∧ identifier config "/r/data/l=a/id" = .ok key
      ∧ (TreeEngine.execute store { operation := .edit .delete, identifier := key }).1 = .ok none
      ∧ (TreeEngine.execute after { operation := .query, identifier := key }).1
          = .ok (some (.leaf "id" "a"))
      ∧ (TreeEngine.execute after { operation := .edit .delete, identifier := key }).1
          = .ok none := by
  intro config store key after
  have hseed : (Json.object [("l", .array [.object [("id", .string "a")],
      .object [("id", .string "a")]])]).merge.toTree = .ok store.nodes := rfl
  refine ⟨isReachable_start (Or.inr (isFromDocument_of_merge hseed)), ?_, rfl, rfl, rfl⟩
  decide

end Service

end Restconf
