import Restconf.Proofs.Engine.Choice

/-!
# What a replacement makes of what it has made

A replacement puts each node of its payload over the node of the same name, or behind the others.
Made twice with the same payload in the same row, it changes nothing the second time. Whether it is
made in the same row is a question of where its path leads after the first time.

## Main definitions

* `Datastore.overwrite` — a row with the nodes of a payload put over it

## Main results

* `Datastore.overwrite_overwrite` — putting the same nodes twice
* `Datastore.replace_of_keepsKeys`, `Datastore.replace_of_losesKeys` — the replacement that follows
  the same one
-/

namespace Restconf

namespace Datastore

variable {name : String} {node : Node} {payload nodes row once : List Node}
  {others : List (List Node)} {identifier : Identifier}

/-! ### One row -/

/-- A row with nodes put over those of the same names, or behind it. -/
def overwrite (payload row : List Node) : List Node := payload.foldl putNode row

theorem sibling?_cons (name : String) (first : Node) (rest : List Node) :
    sibling? name (first :: rest)
      = if first.name = name then some first else sibling? name rest := by
  rw [sibling?, List.find?_cons]
  split <;> simp_all [sibling?]

/-- What is put is found under its name, and nothing else changes. -/
theorem sibling?_putNode :
    sibling? name (putNode row node)
      = if node.name = name then some node else sibling? name row := by
  induction row with
  | nil => rw [putNode, sibling?_cons]
  | cons first rest ih =>
    rw [putNode]
    by_cases hfirst : first.name = node.name
    · rw [if_pos hfirst, sibling?_cons, sibling?_cons, hfirst]
      split <;> rfl
    · rw [if_neg hfirst, sibling?_cons, sibling?_cons, ih]
      split <;> split <;> simp_all

/-- A node that is found under its name already is put where it is. -/
theorem putNode_of_sibling? (h : sibling? node.name row = some node) : putNode row node = row := by
  induction row with
  | nil => cases h
  | cons first rest ih =>
    rw [sibling?_cons] at h
    rw [putNode]
    split at h
    · next hfirst =>
      obtain rfl := Option.some.inj h
      exact if_pos rfl
    · next hfirst => rw [if_neg hfirst, ih h]

/-- Nodes of other names leave what is found under a name. -/
theorem sibling?_overwrite_of_notMem (h : name ∉ payload.map Node.name) :
    sibling? name (overwrite payload row) = sibling? name row := by
  induction payload generalizing row with
  | nil => rfl
  | cons first rest ih =>
    rw [List.map_cons, List.mem_cons, not_or] at h
    obtain ⟨hfirst, hrest⟩ := h
    change sibling? name (overwrite rest (putNode row first)) = _
    rw [ih hrest, sibling?_putNode, if_neg (Ne.symm hfirst)]

/-- **What was put is found**, if nothing of its name was put after it. -/
theorem sibling?_overwrite (hdistinct : (payload.map Node.name).Nodup) (h : node ∈ payload) :
    sibling? node.name (overwrite payload row) = some node := by
  induction payload generalizing row with
  | nil => cases h
  | cons first rest ih =>
    obtain ⟨hfresh, hrest⟩ := List.nodup_cons.mp hdistinct
    change sibling? node.name (overwrite rest (putNode row first)) = _
    rcases List.mem_cons.mp h with rfl | hmem
    · rw [sibling?_overwrite_of_notMem hfresh, sibling?_putNode, if_pos rfl]
    · exact ih hrest hmem

/-- Nodes that are all there are put where they are. -/
theorem overwrite_of_forall (h : ∀ node ∈ payload, sibling? node.name row = some node) :
    overwrite payload row = row := by
  induction payload with
  | nil => rfl
  | cons first rest ih =>
    obtain ⟨hfirst, hrest⟩ := List.forall_mem_cons.mp h
    change overwrite rest (putNode row first) = row
    rw [putNode_of_sibling? hfirst, ih hrest]

/-- **Putting the same nodes twice is putting them once.** -/
theorem overwrite_overwrite (hdistinct : (payload.map Node.name).Nodup) :
    overwrite payload (overwrite payload row) = overwrite payload row :=
  overwrite_of_forall fun _ hmem => sibling?_overwrite hdistinct hmem

/-! ### The whole path -/

/-- **Replacements that succeed** put their nodes over the row at the end of the path. -/
theorem edit_replace_eq_ok_iff :
    edit .replace identifier payload nodes = .ok once
      ↔ ∃ row, Graft true identifier.elements row (overwrite payload row) nodes once := by
  rw [edit, modify_eq_ok_iff]
  constructor
  · rintro ⟨row, changed, hgraft, hchanged⟩
    obtain rfl : overwrite payload row = changed := Except.ok.inj hchanged
    exact ⟨row, hgraft⟩
  · rintro ⟨row, hgraft⟩
    exact ⟨row, _, hgraft, rfl⟩

/-- Where the path leads to a row, a replacement succeeds, and only this row is changed. -/
theorem exists_replace (payload : List Node) (h : children identifier.elements nodes = .ok row) :
    ∃ put : List Node → List Node, put row = nodes
      ∧ edit .replace identifier payload nodes = .ok (put (overwrite payload row))
      ∧ Graft false identifier.elements row (overwrite payload row) nodes
          (put (overwrite payload row)) := by
  obtain ⟨put, hput, hgraft, -⟩ := exists_put h
  exact ⟨put, hput, edit_replace_eq_ok_iff.mpr ⟨row, hgraft true _⟩, hgraft false _⟩

/-- **A replacement that is repeated changes nothing**, unless it took an entry its keys. -/
theorem replace_of_keepsKeys (hdistinct : (payload.map Node.name).Nodup)
    (h : edit .replace identifier payload nodes = .ok once)
    (hkeys : ∀ others, ¬ LosesKeys nodes identifier.elements (overwrite payload) others) :
    edit .replace identifier payload once = .ok once := by
  obtain ⟨row, hgraft⟩ := edit_replace_eq_ok_iff.mp h
  obtain ⟨put, hput, hagain, -⟩ :=
    exists_replace payload (hgraft.children_of_keepsKeys hkeys)
  rw [overwrite_overwrite hdistinct, hput] at hagain
  exact hagain

/-- **A replacement that took an entry its keys**, when it is repeated, finds the next entry with
these keys, or none. -/
theorem replace_of_losesKeys (h : edit .replace identifier payload nodes = .ok once)
    (hkeys : LosesKeys nodes identifier.elements (overwrite payload) others) :
    (others = [] → ∃ owner, identifier.target? = some owner
        ∧ edit .replace identifier payload once = .error (missing owner))
      ∧ ∀ next ∈ others.head?, ∃ twice, edit .replace identifier payload once = .ok twice
        ∧ Graft false identifier.elements next (overwrite payload next) once twice := by
  obtain ⟨row, hgraft⟩ := edit_replace_eq_ok_iff.mp h
  obtain ⟨above, owner, hpath, hchooses⟩ := hkeys.chooses hgraft
  refine ⟨?_, fun next hnext => ?_⟩
  · rintro rfl
    refine ⟨owner, by rw [Identifier.target?, hpath, List.getLast?_concat], ?_⟩
    rw [edit, hpath]
    exact hchooses.stopsAt.modify (Or.inr (Or.inl hchooses.kind))
  · have hchildren : children identifier.elements once = .ok next := by
      rw [hpath, hchooses.children, hnext]
      rfl
    obtain ⟨put, -, hagain, honly⟩ := exists_replace payload hchildren
    exact ⟨_, hagain, honly⟩

end Datastore

end Restconf
