import Restconf.Proofs.Engine.Locality

/-!
# Edits one after another in the same row

Several edits that go to the same row are made in that row one after another, while the forest
around it stays what it is. This file makes it a law about the forest around a row, and from the law
it follows that what a creation has added can be deleted again, in any order, with nothing left
behind.

## Why the forest around is a function

After the first edit the row is another one, and so is the forest. What the edits have in common is
what surrounds the row, so this is kept as a function of the row. `Datastore.Surrounds` says of such
a function that an edit along the path, wherever it begins among the forests that the function
makes, ends in another one of them. A path that ends with keys finds its entry only as long as the
entry has these keys, and the law asks for no more than that.

A creation adds behind the row, so it never takes an entry its keys, and what is deleted afterwards
are nodes that stand behind the leaves that the entry was chosen by.

## Main definitions

* `Datastore.IsChosenBy` — a row that a path can lead to
* `Datastore.Surrounds` — the forest around a row
* `Identifier.child` — the identifier of a node below another

## Main results

* `Datastore.exists_surrounds` — every row that a path leads to is surrounded
* `Datastore.deletes_created` — the headline
-/

namespace Restconf

/-- The identifier of a node below the one that an identifier addresses. -/
def Identifier.child (identifier : Identifier) (element : Element) : Identifier :=
  { identifier with elements := identifier.elements ++ [element] }

namespace Datastore

variable {create : Bool} {element : Element} {path rest : List Element}
  {payload nodes row changed below result created : List Node} {put : List Node → List Node}
  {identifier : Identifier} {name : String}

/-! ### Rows that a path can lead to -/

/-- If a path ends with keys, the row has them. -/
def IsChosenBy (path : List Element) (row : List Node) : Prop :=
  ∀ owner ∈ path.getLast?, owner.kind = .multi → entryMatches owner.keys row = true

theorem isChosenBy_of_single (h : ∀ element ∈ path, element.kind = .single) (row : List Node) :
    IsChosenBy path row := by
  intro owner howner kind
  rw [h owner (List.mem_of_getLast? howner)] at kind
  cases kind

/-- Keys are compared with the leaves of a row and nothing else. -/
theorem IsChosenBy.of_leafValues_eq (h : IsChosenBy path row)
    (hleaves : leafValues changed = leafValues row) : IsChosenBy path changed := by
  intro owner howner kind
  have hrow := h owner howner kind
  rw [entryMatches] at hrow ⊢
  rwa [hleaves]

theorem IsChosenBy.append (h : IsChosenBy path row) (others : List Node) :
    IsChosenBy path (row ++ others) :=
  fun owner howner kind => entryMatches_append others (h owner howner kind)

/-- A path leads to a row that it can lead to. -/
theorem isChosenBy_of_children (h : children path nodes = .ok row) : IsChosenBy path row := by
  intro owner howner kind
  obtain ⟨parents, rfl⟩ := List.getLast?_eq_some_iff.mp howner
  rw [children_append] at h
  obtain ⟨inner, -, hrow⟩ := bind_eq_ok_iff.mp h
  rcases children_singleton_eq_ok_iff.mp hrow with ⟨hkind, -⟩ | ⟨-, entries, -, selected⟩
  · rw [kind] at hkind
    cases hkind
  · exact List.find?_some selected

/-! ### The forest around a row -/

/-- **The forest around a row.** Edits along the path change the row, whichever row was put there,
and leave the forest around it. -/
def Surrounds (path : List Element) (put : List Node → List Node) : Prop :=
  ∀ row, IsChosenBy path row → ∀ create change rest,
    modify create change (path ++ rest) (put row) = (modify create change rest row).map put

/-- What is changed in the forest around a row is the row. -/
theorem Surrounds.modify (h : Surrounds path put) (hrow : IsChosenBy path row)
    (create : Bool) (change : List Node → Except Fault (List Node)) :
    modify create change path (put row) = (change row).map put := by
  have hwhole := h row hrow create change []
  rwa [List.append_nil] at hwhole

/-- One row in the place of another. -/
theorem Surrounds.graft (h : Surrounds path put) (hrow : IsChosenBy path row) (create : Bool)
    (changed : List Node) : Graft create path row changed (put row) (put changed) := by
  -- a change that accepts this row alone shows which row the edit is handed
  let change (found : List Node) : Except Fault (List Node) :=
    if found = row then .ok changed else .error .sinkClosed
  have hchange : change row = .ok changed := if_pos rfl
  have hmodify := h.modify hrow create change
  rw [hchange] at hmodify
  obtain ⟨below, result, hgraft, hresult⟩ := modify_eq_ok_iff.mp hmodify
  by_cases hbelow : below = row
  · rw [hbelow, hchange] at hresult
    obtain rfl := Except.ok.inj hresult
    exact hbelow ▸ hgraft
  · rw [show change below = .error .sinkClosed from if_neg hbelow] at hresult
    cases hresult

theorem Graft.leafValues_eq (h : Graft create path below changed row result) (hpath : path ≠ []) :
    leafValues result = leafValues row := by
  cases h with
  | here => exact absurd rfl hpath
  | under level _ => exact level.leafValues_eq

/-- Nothing is around the whole forest. -/
theorem surrounds_id : Surrounds [] id := by
  intro row _ create change rest
  rw [List.nil_append, id_eq]
  cases Datastore.modify create change rest row <;> rfl

/-- Around the children of a container. -/
theorem surrounds_container {before after : List Node} (kind : element.kind = .single)
    (first : ∀ node ∈ before, node.name ≠ element.name) :
    Surrounds [element] fun row => before ++ .container element.name row :: after := by
  intro row _ create change rest
  have hname : (Node.container element.name row).name = element.name := rfl
  rw [List.singleton_append, Datastore.modify, splitFirst_name_append_cons hname first, kind]
  dsimp only
  cases Datastore.modify create change rest row <;> rfl

/-- Around an entry of a list. -/
theorem surrounds_entry {before after : List Node} {earlier later : List (List Node)}
    (kind : element.kind = .multi) (first : ∀ node ∈ before, node.name ≠ element.name)
    (firstEntry : ∀ other ∈ earlier, entryMatches element.keys other = false) :
    Surrounds [element]
      fun row => before ++ .list element.name (earlier ++ row :: later) :: after := by
  intro row hrow create change rest
  have hname : (Node.list element.name (earlier ++ row :: later)).name = element.name := rfl
  have selected : entryMatches element.keys row = true := hrow element rfl kind
  rw [List.singleton_append, Datastore.modify, splitFirst_name_append_cons hname first, kind]
  simp only [splitFirst_append_cons selected firstEntry]
  cases Datastore.modify create change rest row <;> rfl

theorem exists_surrounds_singleton (h : children [element] nodes = .ok row) :
    ∃ put, put row = nodes ∧ Surrounds [element] put := by
  rcases children_singleton_eq_ok_iff.mp h with ⟨kind, hsibling⟩ | ⟨kind, entries, hsibling, hentry⟩
  · obtain ⟨before, after, rfl, -, first⟩ := sibling?_eq_some_iff.mp hsibling
    exact ⟨_, rfl, surrounds_container kind first⟩
  · obtain ⟨before, after, rfl, -, first⟩ := sibling?_eq_some_iff.mp hsibling
    obtain ⟨-, earlier, later, rfl, hearlier⟩ := List.find?_eq_some_iff_append.mp hentry
    exact ⟨_, rfl, surrounds_entry kind first (by simpa using hearlier)⟩

/-- A forest around a forest around a row. -/
theorem Surrounds.comp {inner : List Node → List Node} (h : Surrounds path put)
    (hinner : Surrounds rest inner)
    (hchosen : ∀ row, IsChosenBy (path ++ rest) row → IsChosenBy path (inner row)) :
    Surrounds (path ++ rest) (put ∘ inner) := by
  intro row hrow create change deeper
  have hrest : IsChosenBy rest row := fun owner howner =>
    hrow owner (by rw [List.getLast?_append, howner]; rfl)
  rw [List.append_assoc, Function.comp_apply, h _ (hchosen row hrow), hinner row hrest]
  cases Datastore.modify create change deeper row <;> rfl

/-- **Every row that a path leads to is surrounded** by the rest of the forest. -/
theorem exists_surrounds (h : children path nodes = .ok row) :
    ∃ put, put row = nodes ∧ Surrounds path put := by
  induction path generalizing nodes with
  | nil =>
    obtain rfl := Except.ok.inj h
    exact ⟨id, rfl, surrounds_id⟩
  | cons element path ih =>
    rw [children_cons] at h
    obtain ⟨below, hbelow, hrow⟩ := bind_eq_ok_iff.mp h
    obtain ⟨put, hput, houter⟩ := exists_surrounds_singleton hbelow
    by_cases hpath : path = []
    · subst hpath
      obtain rfl := Except.ok.inj hrow
      exact ⟨put, hput, houter⟩
    · obtain ⟨inner, hinner, hdeeper⟩ := ih hrow
      refine ⟨put ∘ inner, (congrArg put hinner).trans hput,
        houter.comp hdeeper fun changed _ => ?_⟩
      -- the keys of the first element are compared with leaves that stand above the row
      have hgraft := hdeeper.graft (isChosenBy_of_children hrow) false changed
      rw [hinner] at hgraft
      exact (isChosenBy_of_children hbelow).of_leafValues_eq (hgraft.leafValues_eq hpath)

/-! ### Deleting what was created -/

/-- A deletion from a row in the forest around it. -/
theorem Surrounds.delete_child (h : Surrounds path put) (hrow : IsChosenBy path row)
    (hpath : identifier.elements = path) {left : List Node} (hremoval : Removal element row left) :
    edit .delete (identifier.child element) [] (put row) = .ok (put left) := by
  have htarget : (identifier.child element).elements = path ++ [element] := by
    rw [Identifier.child, hpath]
  rw [edit_delete_of_eq_concat htarget, h.modify hrow, removeTarget_eq_ok_iff.mpr hremoval]
  rfl

/-- What a deletion takes from behind a row that has no node of the name. -/
theorem without_append (h : ∀ node ∈ row, node.name ≠ name) (others : List Node) :
    without name (row ++ others) = row ++ without name others := by
  rw [without, List.filter_append, ← without, ← without, without_eq_self h]

theorem map_name_without (name : String) (row : List Node) :
    (without name row).map Node.name = (row.map Node.name).filter (· ≠ name) := by
  rw [without, List.filter_map]
  rfl

/-- **What stands behind a row can be deleted in any order**, node by node. -/
theorem Surrounds.delete_all (h : Surrounds path put) (hrow : IsChosenBy path row)
    (hpath : identifier.elements = path) {targets : List Element}
    (hsingle : ∀ target ∈ targets, target.kind = .single)
    (horder : (targets.map Element.name).Perm (payload.map Node.name))
    (hdistinct : (payload.map Node.name).Nodup)
    (hfresh : ∀ node ∈ payload, ∀ old ∈ row, old.name ≠ node.name) :
    targets.foldlM (fun nodes target => edit .delete (identifier.child target) [] nodes)
      (put (row ++ payload)) = .ok (put row) := by
  induction targets generalizing payload with
  | nil =>
    obtain rfl : payload = [] := by simpa using horder.symm.eq_nil
    rw [List.append_nil]
    rfl
  | cons target targets ih =>
    obtain ⟨kind, hsingle⟩ := List.forall_mem_cons.mp hsingle
    rw [List.map_cons] at horder
    obtain ⟨node, hnode, hname⟩ := List.mem_map.mp (horder.subset List.mem_cons_self)
    have hold : ∀ old ∈ row, old.name ≠ target.name := hname ▸ hfresh node hnode
    have hremoval : Removal target (row ++ payload) (row ++ without target.name payload) := by
      rw [← without_append hold]
      exact .nodes kind ⟨node, List.mem_append_right row hnode, hname⟩
    have hdelete := h.delete_child (hrow.append payload) hpath hremoval
    -- what is left of the payload has the names that are left of the order
    have hunique : target.name ∉ targets.map Element.name :=
      (List.nodup_cons.mp (horder.nodup_iff.mpr hdistinct)).1
    have horder' : (targets.map Element.name).Perm
        ((without target.name payload).map Node.name) := by
      have hothers := horder.filter (· ≠ target.name)
      rwa [List.filter_cons_of_neg (by simp), ← map_name_without, List.filter_eq_self.mpr]
        at hothers
      exact fun name hmem => decide_eq_true (ne_of_mem_of_not_mem hmem hunique)
    have hdistinct' : ((without target.name payload).map Node.name).Nodup := by
      rw [map_name_without]
      exact hdistinct.filter _
    have hfresh' : ∀ node ∈ without target.name payload, ∀ old ∈ row, old.name ≠ node.name :=
      fun node hmem => hfresh node (List.mem_of_mem_filter hmem)
    rw [List.foldlM_cons, hdelete]
    exact ih hsingle horder' hdistinct' hfresh'

/-- **What a creation below an existing node has added can be deleted in any order**, node by node,
and then everything is as it was. -/
theorem deletes_created {name : String} (hfound : find? nodes identifier.elements
      = some (.container name row)) (hpayload : Forest.IsFromDocument payload)
    (hcreated : edit .create identifier payload nodes = .ok created) {targets : List Element}
    (hsingle : ∀ target ∈ targets, target.kind = .single)
    (horder : (targets.map Element.name).Perm (payload.map Node.name)) :
    targets.foldlM (fun nodes target => edit .delete (identifier.child target) [] nodes) created
      = .ok nodes := by
  have hpath : identifier.elements ≠ [] := by
    intro hnil
    rw [hnil] at hfound
    cases hfound
  have hchildren : children identifier.elements nodes = .ok row :=
    (children_eq_ok_iff hpath).mpr ⟨name, hfound⟩
  have hrow := isChosenBy_of_children hchildren
  obtain ⟨put, rfl, hput⟩ := exists_surrounds hchildren
  rw [edit, hput.modify hrow] at hcreated
  obtain ⟨changed, hadded, rfl⟩ := Json.except_map_eq_ok_iff.mp hcreated
  obtain ⟨hfresh, rfl⟩ := addNodes_eq_ok_iff.mp hadded
  have hdistinct : (payload.map Node.name).Nodup := hpayload.wellNamed.row.distinct
  exact hput.delete_all hrow rfl hsingle horder hdistinct hfresh

/-- In the first of two entries with the same key, a leaf and a container, deleted the other way
round. -/
theorem deletes_created_entry :
    let identifier : Identifier := ⟨"/r", [⟨"if", none, .multi, ["a"]⟩]⟩
    let first : List Node := [.leaf "id" "a", .leaf "mtu" "1"]
    let second : List Node := [.leaf "id" "a"]
    let payload : List Node := [.leaf "note" "x", .container "ip" [.leaf "v" "4"]]
    let targets : List Element := [⟨"ip", none, .single, []⟩, ⟨"note", some "m", .single, []⟩]
    let nodes : List Node := [.list "if" [first, second]]
    let created : List Node := [.list "if" [first ++ payload, second]]
    find? nodes identifier.elements = some (.container "if" first)
      ∧ edit .create identifier payload nodes = .ok created
      ∧ targets.foldlM (fun nodes target => edit .delete (identifier.child target) [] nodes) created
          = .ok nodes := by
  intro identifier first second payload targets nodes created
  have hfound : find? nodes identifier.elements = some (.container "if" first) := rfl
  have hcreated : edit .create identifier payload nodes = .ok created := by decide
  have hdocument : (Json.object [("note", .string "x"),
      ("ip", .object [("v", .string "4")])]).merge.toTree = .ok payload := rfl
  have horder : (targets.map Element.name).Perm (payload.map Node.name) := .swap _ _ _
  exact ⟨hfound, hcreated, deletes_created hfound (Forest.isFromDocument_of_merge hdocument)
    hcreated (by decide) horder⟩

end Datastore

end Restconf
