import Restconf.Proofs.Tree.Reading
import Restconf.Proofs.Tree.Regular

/-!
# The round trips between documents and trees

A document that is a tree comes back normalized, and a tree that is written comes back unchanged if
and only if a document could have been its source.

## Where the two directions meet

Writing succeeds for every forest, and reading decides: the forest has to be named and must not nest
too deep. What is read back has its fields merged, and merging loses nothing exactly if it had
nothing to merge. So both directions come down to regular forests: a document without repeated
fields is turned into one, and one comes back from its document as it was.

## Main results

* `Json.toTree_roundTrip` — the document side
* `Forest.toJson_roundTrip` — the tree side
-/

namespace Restconf

open Forest

/-! ### The document side -/

/-- **A document that is a tree comes back normalized.** As text it always does; as a document it
does up to the depth that is read. -/
theorem Json.toTree_roundTrip {document : Json} {nodes : List Node}
    (htree : document.toTree = .ok nodes) :
    Forest.toText nodes = .ok document.normalize.render
      ∧ (document.IsUnambiguous →
          Forest.toJson nodes
            = if document.depth ≤ nestingLimit then .ok document.normalize
              else .error TextWriter.invalidText) := by
  rw [toTree_eq] at htree
  cases document with
  | object fields =>
    obtain ⟨hfields, hdepth, hnamed⟩ := of_nodesOf_eq_ok htree
    have hnormal : Json.object (Forest.fields nodes) = (object fields).normalize := by
      rw [normalize_object, hfields]
    refine ⟨?_, fun hdocument => ?_⟩
    · rw [toText_eq, reference_eq_text hnamed, hnormal, render]
    · have hunambiguous := isUnambiguous_fields (everywhere_isRegular hdocument htree)
      rw [toJson_eq, merge_eq_self hunambiguous, hnormal, Forest.depth, hdepth, Json.depth]
      exact if_congr (and_iff_right hnamed) rfl rfl
  | _ => cases htree

/-- Members of a leaf-list that have one text come back as one, in the order of the texts, and an
empty array inside a container stays one. -/
theorem Json.toTree_roundTrip_leafLists :
    toTree (.object [("l", .array [.string "b", .number (.integer 1), .string "1"]),
        ("c", .object [("e", .array []), ("t", .bool true)]),
        ("r", .array [.object [("n", .number (.integer 2))], .object []])])
      = .ok [.leafList "l" (.ofList ["b", "1", "1"]),
          .container "c" [.leafList "e" .empty, .leaf "t" "true"],
          .list "r" [[.leaf "n" "2"], []]]
    ∧ Forest.toText [.leafList "l" (.ofList ["b", "1", "1"]),
          .container "c" [.leafList "e" .empty, .leaf "t" "true"],
          .list "r" [[.leaf "n" "2"], []]]
      = .ok (render (.object [("l", .array [.string "1", .string "b"]),
          ("c", .object [("e", .array []), ("t", .string "true")]),
          ("r", .array [.object [("n", .string "2")], .object []])]))
    ∧ Forest.toJson [.leafList "l" (.ofList ["b", "1", "1"]),
          .container "c" [.leafList "e" .empty, .leaf "t" "true"],
          .list "r" [[.leaf "n" "2"], []]]
      = .ok (.object [("l", .array [.string "1", .string "b"]),
          ("c", .object [("e", .array []), ("t", .string "true")]),
          ("r", .array [.object [("n", .string "2")], .object []])]) := by
  have htree : toTree (.object [("l", .array [.string "b", .number (.integer 1), .string "1"]),
        ("c", .object [("e", .array []), ("t", .bool true)]),
        ("r", .array [.object [("n", .number (.integer 2))], .object []])])
      = .ok [.leafList "l" (.ofList ["b", "1", "1"]),
          .container "c" [.leafList "e" .empty, .leaf "t" "true"],
          .list "r" [[.leaf "n" "2"], []]] := rfl
  obtain ⟨htext, hjson⟩ := toTree_roundTrip htree
  exact ⟨htree, htext, hjson (isUnambiguous_merge (.object [
    ("l", .array [.string "b", .number (.integer 1), .string "1"]),
    ("c", .object [("e", .array []), ("t", .bool true)]),
    ("r", .array [.object [("n", .number (.integer 2))], .object []])]))⟩

/-! ### The tree side -/

namespace Forest

/-- A well-named forest is rendered as the object of its fields, unless it nests too deep. -/
theorem toJson_of_wellNamed {nodes : List Node} (h : Everywhere IsWellNamed nodes) :
    toJson nodes
      = if depth nodes ≤ Json.nestingLimit then .ok (.object (fields nodes))
        else .error TextWriter.invalidText := by
  rw [toJson_eq, Json.merge_eq_self (isUnambiguous_fields_of_wellNamed h)]
  exact if_congr (and_iff_right (isNamed_of_wellNamed h)) rfl rfl

/-- A regular forest that does not nest too deep comes back unchanged. -/
theorem exists_toJson_of_everywhere {nodes : List Node} (h : Everywhere IsRegular nodes)
    (hdepth : depth nodes ≤ Json.nestingLimit) :
    ∃ document, toJson nodes = .ok document ∧ document.toTree = .ok nodes := by
  refine ⟨.object (fields nodes), ?_, ?_⟩
  · rw [toJson_eq, if_pos ⟨isNamed_of_everywhere h, hdepth⟩,
      Json.merge_eq_self (isUnambiguous_fields h)]
  · rw [Json.toTree_eq, Json.treeOf, nodesOf_fields h]

/-- **A forest comes back unchanged if and only if it is regular at every level and does not nest
too deep**, and every forest that a document of that depth is turned into is of this kind. -/
theorem toJson_roundTrip :
    (∀ nodes : List Node, (∃ document, toJson nodes = .ok document ∧ document.toTree = .ok nodes)
      ↔ Everywhere IsRegular nodes ∧ depth nodes ≤ Json.nestingLimit)
    ∧ ∀ (document : Json) (nodes : List Node), document.IsUnambiguous →
        document.depth ≤ Json.nestingLimit → document.toTree = .ok nodes →
        ∃ image, toJson nodes = .ok image ∧ image.toTree = .ok nodes := by
  refine ⟨fun nodes => ⟨?_, fun h => exists_toJson_of_everywhere h.1 h.2⟩, ?_⟩
  · rintro ⟨document, hjson, htree⟩
    rw [toJson_eq] at hjson
    split at hjson
    · next hread =>
      refine ⟨?_, hread.2⟩
      obtain rfl := Except.ok.inj hjson
      rw [Json.toTree_eq, Json.merge, Json.treeOf] at htree
      exact Json.everywhere_isRegular (Json.isUnambiguous_merge (.object (fields nodes))) htree
    · cases hjson
  · intro document nodes hdocument hdepth htree
    rw [Json.toTree_eq] at htree
    cases document with
    | object inner =>
      refine exists_toJson_of_everywhere (Json.everywhere_isRegular hdocument htree) ?_
      rw [depth, (Json.of_nodesOf_eq_ok htree).2.1]
      exact hdepth
    | _ => cases htree

/-- An empty leaf-list comes back, and a list without entries does not. -/
theorem toJson_roundTrip_empty :
    (∃ image, toJson [.container "c" [.leafList "l" .empty]] = .ok image
      ∧ image.toTree = .ok [.container "c" [.leafList "l" .empty]])
    ∧ ¬ ∃ image, toJson [.container "c" [.list "l" []]] = .ok image
      ∧ image.toTree = .ok [.container "c" [.list "l" []]] := by
  constructor
  · exact toJson_roundTrip.2 (.object [("c", .object [("l", .array [])])]) _
      (Json.isUnambiguous_merge (.object [("c", .object [("l", .array [])])])) (by decide) rfl
  · intro h
    obtain ⟨hregular, -⟩ := (toJson_roundTrip.1 _).mp h
    exact (hregular.children (List.mem_singleton_self _)).row.filled "l" (List.mem_singleton_self _)

end Forest

end Restconf
