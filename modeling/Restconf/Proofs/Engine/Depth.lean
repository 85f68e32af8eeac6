import Restconf.Proofs.Engine.Names

/-!
# How deep a datastore nests

The text of a node may nest only so deep if it is to be read again. A request adds to the depth of a
datastore in two ways: its path leads down through nodes, some of which it may create, and at the
end of the path it puts the nodes of its body.

## The bound

An element of a path leads one level down if it names a single node and two levels down if it
chooses an entry, because a list is an array of objects. A datastore is therefore never deeper after
an edit than it was before, unless the levels of the path and the depth of the body together are
more. The nodes that were already at the end of the path do not count: the path leads to them, so
they and the levels above them are within the old depth.

## Main definitions

* `Element.levels`, `Datastore.pathLevels` — how far a path leads down

## Main results

* `Datastore.depth_le_of_find?` — what a query finds is no deeper than the datastore
* `Datastore.rowDepth_edit` — the bound
-/

namespace Restconf

open Forest

/-- How many levels an element leads down: a single node is an object, and an entry is an object in
an array. -/
def Element.levels (element : Element) : Nat :=
  match element.kind with
  | .single => 1
  | .multi => 2

namespace Forest

variable {row : List Node} {entries : List (List Node)}

theorem depth_le_rowDepth {node : Node} (h : node ∈ row) : node.depth ≤ rowDepth row :=
  rowDepth_le_iff.mp (Nat.le_refl _) node h

theorem depth_le_entriesDepth {entry : List Node} (h : entry ∈ entries) :
    depth entry ≤ entriesDepth entries :=
  entriesDepth_le_iff.mp (Nat.le_refl _) entry h

/-- A node in the place of another one. -/
theorem rowDepth_replace (before after : List Node) (node new : Node) :
    rowDepth (before ++ new :: after) ≤ max (rowDepth (before ++ node :: after)) new.depth := by
  simp only [rowDepth_append, rowDepth]
  omega

/-- An entry in the place of another one. -/
theorem entriesDepth_replace (earlier later : List (List Node)) (entry new : List Node) :
    entriesDepth (earlier ++ new :: later)
      ≤ max (entriesDepth (earlier ++ entry :: later)) (depth new) := by
  simp only [entriesDepth_append, entriesDepth, depth]
  omega

end Forest

namespace Datastore

/-- How many levels a path leads down. -/
def pathLevels : List Element → Nat
  | [] => 0
  | element :: rest => element.levels + pathLevels rest

variable {create : Bool} {element target : Element} {path : List Element}
  {below changed row result : List Node}

/-! ### What a path leads to -/

/-- The children at the end of a path are as deep below the top as the path leads down. -/
theorem pathLevels_add_rowDepth_le (h : children path row = .ok below) :
    pathLevels path + rowDepth below ≤ rowDepth row := by
  induction path generalizing row with
  | nil => exact Except.ok.inj h ▸ (Nat.zero_add _).le
  | cons element path ih =>
    rw [children_cons] at h
    obtain ⟨inner, hinner, hbelow⟩ := bind_eq_ok_iff.mp h
    have hdeeper := ih hbelow
    have hlevel : element.levels + rowDepth inner ≤ rowDepth row := by
      rw [Element.levels]
      rcases children_singleton_eq_ok_iff.mp hinner with
        ⟨kind, hsibling⟩ | ⟨kind, entries, hsibling, hentry⟩
      · have hnode := depth_le_rowDepth (mem_of_sibling? hsibling)
        rw [Node.depth] at hnode
        simp only [kind]
        omega
      · have hnode := depth_le_rowDepth (mem_of_sibling? hsibling)
        have hrow := depth_le_entriesDepth (List.mem_of_find?_eq_some hentry)
        rw [Node.depth] at hnode
        rw [depth] at hrow
        simp only [kind]
        omega
    rw [pathLevels]
    omega

/-- **What a query finds is no deeper than the datastore.** -/
theorem depth_le_of_find? {node : Node} (h : find? row path = some node) :
    node.depth ≤ rowDepth row := by
  obtain ⟨parents, target, inner, -, hinner, hfound⟩ := find?_eq_some_iff.mp h
  have hrow := pathLevels_add_rowDepth_le hinner
  have hnode : node.depth ≤ rowDepth inner := by
    cases hfound with
    | sibling _ found => exact depth_le_rowDepth (mem_of_sibling? found)
    | entry _ list selected =>
      have hlist := depth_le_rowDepth (mem_of_sibling? list)
      have hentry := depth_le_entriesDepth (List.mem_of_find?_eq_some selected)
      simp only [Node.depth] at hlist ⊢
      rw [depth] at hentry
      omega
    | value _ leafList =>
      have hset := depth_le_rowDepth (mem_of_sibling? leafList)
      simp only [Node.depth] at hset ⊢
      exact hset
  omega

/-! ### Along the path -/

theorem Level.rowDepth_result (h : Level create element below changed row result) :
    rowDepth result ≤ max (rowDepth row) (element.levels + rowDepth changed) := by
  rw [Element.levels]
  cases h with
  | @container before after _ _ kind first =>
    have hrow := rowDepth_replace before after (.container element.name below)
      (.container element.name changed)
    simp only [Node.depth] at hrow
    simp only [kind]
    omega
  | @entry before after _ _ earlier later kind first firstEntry selected =>
    have hrow := rowDepth_replace before after (.list element.name (earlier ++ below :: later))
      (.list element.name (earlier ++ changed :: later))
    have hmem : Node.list element.name (earlier ++ below :: later)
        ∈ before ++ Node.list element.name (earlier ++ below :: later) :: after :=
      List.mem_append_cons_self
    have hlist := depth_le_rowDepth hmem
    have hentries := entriesDepth_replace earlier later below changed
    simp only [Node.depth] at hrow hlist
    rw [depth] at hentries
    simp only [kind]
    omega
  | added kind allowed new =>
    simp only [rowDepth_append, rowDepth, Node.depth, kind]
    omega

theorem Graft.rowDepth_result (h : Graft create path below changed row result) :
    rowDepth result ≤ max (rowDepth row) (pathLevels path + rowDepth changed) := by
  induction h with
  | here below changed =>
    rw [pathLevels]
    omega
  | @under element rest inner innerResult below changed row result level deeper ih =>
    have hresult := level.rowDepth_result
    -- what was below the element is within the old depth, or there was nothing
    have hinner : element.levels + rowDepth inner ≤ rowDepth row ∨ rowDepth inner = 0 := by
      rcases level.children_row with hchildren | ⟨rfl, -⟩
      · have := pathLevels_add_rowDepth_le hchildren
        rw [pathLevels, pathLevels, Nat.add_zero] at this
        exact Or.inl this
      · exact Or.inr rfl
    rw [pathLevels]
    omega

/-- The nodes that were at the end of the path are within the depth of the row, with the levels of
the path above them. -/
theorem Graft.rowDepth_below (h : Graft create path below changed row result) :
    pathLevels path + rowDepth below ≤ rowDepth row ∨ below = [] := by
  rcases h.children_row with hchildren | ⟨hnil, -⟩
  · exact Or.inl (pathLevels_add_rowDepth_le hchildren)
  · exact Or.inr hnil

/-! ### At the end of the path -/

theorem rowDepth_putNode (row : List Node) (node : Node) :
    rowDepth (putNode row node) ≤ max (rowDepth row) node.depth := by
  rcases putNode_cases row node with ⟨before, old, after, rfl, -, hput⟩ | ⟨-, hput⟩
  · rw [hput]
    exact rowDepth_replace before after old node
  · simp only [hput, rowDepth_append, rowDepth]
    omega

theorem rowDepth_foldl_putNode (payload row : List Node) :
    rowDepth (payload.foldl putNode row) ≤ max (rowDepth row) (rowDepth payload) := by
  induction payload generalizing row with
  | nil => exact Nat.le_max_left _ _
  | cons node payload ih =>
    have hput := rowDepth_putNode row node
    have hrest := ih (putNode row node)
    rw [List.foldl_cons, rowDepth]
    omega

theorem Removal.rowDepth_le (h : Removal target row result) : rowDepth result ≤ rowDepth row := by
  cases h with
  | nodes =>
    exact rowDepth_le_iff.mpr fun node hmem => depth_le_rowDepth (List.mem_of_mem_filter hmem)
  | @entries before after entries =>
    have hentries : entriesDepth (entries.filter fun e => !entryMatches target.keys e)
        ≤ entriesDepth entries :=
      entriesDepth_le_iff.mpr fun entry hmem => depth_le_entriesDepth (List.mem_of_mem_filter hmem)
    simp only [rowDepth_append, rowDepth, Node.depth]
    omega
  | value =>
    simp only [rowDepth_append, rowDepth, Node.depth]
    omega

theorem Removal.ne_nil (h : Removal target row result) : row ≠ [] := by
  cases h with
  | nodes _ present =>
    obtain ⟨node, hmem, -⟩ := present
    exact List.ne_nil_of_mem hmem
  | entries | value => exact List.append_ne_nil_of_right_ne_nil _ (List.cons_ne_nil _ _)

/-! ### One edit -/

/-- Where the nodes at the end of a path come to be those that were there and others, the forest is
no deeper than it was or than the others make it. -/
theorem Graft.rowDepth_le {others : List Node} (h : Graft create path below changed row result)
    (hchanged : rowDepth changed ≤ max (rowDepth below) (rowDepth others)) :
    rowDepth result ≤ rowDepth row ∨ rowDepth result ≤ pathLevels path + rowDepth others := by
  have hresult := h.rowDepth_result
  rcases h.rowDepth_below with hbelow | rfl
  · omega
  · rw [rowDepth] at hchanged
    omega

/-- **An edit makes a datastore no deeper**, unless it brings a body that nests deeper at the end of
its path. -/
theorem rowDepth_edit {intent : Intent} {identifier : Identifier} {payload : List Node}
    (h : edit intent identifier payload row = .ok result) :
    rowDepth result ≤ rowDepth row
      ∨ intent ≠ .delete ∧ rowDepth result ≤ pathLevels identifier.elements + rowDepth payload := by
  cases intent with
  | create =>
    obtain ⟨below, changed, hgraft, hchange⟩ := modify_eq_ok_iff.mp h
    obtain ⟨-, rfl⟩ := addNodes_eq_ok_iff.mp hchange
    refine (hgraft.rowDepth_le ?_).imp_right fun hresult => ⟨by decide, hresult⟩
    exact (rowDepth_append below payload).le
  | replace =>
    obtain ⟨below, changed, hgraft, hchange⟩ := modify_eq_ok_iff.mp h
    obtain rfl := Except.ok.inj hchange
    refine (hgraft.rowDepth_le ?_).imp_right fun hresult => ⟨by decide, hresult⟩
    exact rowDepth_foldl_putNode payload below
  | delete =>
    left
    rw [edit] at h
    split at h
    · cases h
    · next target htarget =>
      obtain ⟨below, changed, hgraft, hchange⟩ := modify_eq_ok_iff.mp h
      have hremoval := removeTarget_eq_ok_iff.mp hchange
      have hresult := hgraft.rowDepth_result
      have hchanged := hremoval.rowDepth_le
      have hbelow := hgraft.rowDepth_below.resolve_right hremoval.ne_nil
      omega

end Datastore

end Restconf
