import Restconf.Proofs.Engine.Deletion

/-!
# An edit leaves the other branches as they are

Two paths that have some elements in common and then name different siblings go through the same row
and part there. An edit along one of them does not change what a query finds along the other.

## What has to be seen at the parting

Of the row where the paths part an edit may change the node of the name that it goes through, or add
one, or, if its path ends there, take out nodes of this name. Nodes of other names are neither
changed nor moved past each other, so every other name finds what it found before.

That is not all, because the shared elements have to lead to this row again. An entry is found by
its leading leaves, and the only edit that changes the leaves of the row at the parting is the
deletion of a single node that stands in it. In an entry this may be one of the leaves that the
entry was chosen by. Everything that happens further down is out of sight: on its way an edit
changes no leaf.

## Main results

* `Datastore.exists_branch` — what an edit does to the row where it parts from another path
* `Datastore.Graft.find?_of_parting` — queries that part from the path of an edit
* `Datastore.find?_of_edit` — an edit that takes no entry its keys
* `Datastore.LosesKeys.find?_of_delete` — a deletion that does
* `Datastore.find?_execute_of_parting` — the headline
-/

namespace Restconf

namespace Datastore

variable {create : Bool} {intent : Intent} {element other : Element}
  {shared rest others : List Element} {payload nodes row left below changed result : List Node}
  {identifier : Identifier} {name : String}

/-! ### Among other names -/

theorem without_eq_self (h : ∀ node ∈ row, node.name ≠ name) : without name row = row :=
  List.filter_eq_self.mpr fun node hmem => decide_eq_true (h node hmem)

/-- Without the nodes of a name every other name finds the same. -/
theorem sibling?_without (h : other.name ≠ name) :
    sibling? other.name (without name row) = sibling? other.name row := by
  rw [sibling?, sibling?, without, List.find?_filter]
  congr 1
  funext node
  by_cases hnode : node.name = other.name
  · simp [hnode, h]
  · simp [hnode]

/-- What a query finds depends on the first sibling of the name that it starts with. -/
theorem find?_of_sibling?_eq (h : sibling? element.name left = sibling? element.name row) :
    find? left (element :: rest) = find? row (element :: rest) := by
  rw [find?, find?, h]

/-- Rows that differ in the nodes of one name are the same to queries of any other. -/
theorem find?_of_without_eq (h : without name left = without name row) (hname : other.name ≠ name) :
    find? left (other :: others) = find? row (other :: others) := by
  refine find?_of_sibling?_eq ?_
  rw [← sibling?_without hname, h, sibling?_without hname]

/-- A level keeps the nodes of all names but its own. -/
theorem Level.without_eq (h : Level create element below changed row result) :
    without element.name result = without element.name row := by
  cases h with
  | container | entry | added => simp [without, Node.name]

/-- What is taken out of a row has the name of the target. -/
theorem Removal.without_eq (h : Removal element row left) :
    without element.name left = without element.name row := by
  cases h with
  | nodes => simp [without]
  | entries | value => simp [without, Node.name]

/-! ### Where the paths part -/

/-- **What an edit does to a row on its path.** It leads on below the next element, or it is a
deletion and takes out what this element names. -/
theorem exists_branch (hpath : identifier.elements = shared ++ element :: rest)
    (h : edit intent identifier payload nodes = .ok result) :
    ∃ create row left, Graft create shared row left nodes result
      ∧ ((∃ below changed, Level create element below changed row left)
        ∨ intent = .delete ∧ rest = [] ∧ Removal element row left) := by
  have hdivide {create : Bool} {rest : List Element} {below changed : List Node}
      (hgraft : Graft create (shared ++ element :: rest) below changed nodes result) :
      ∃ row left, Graft create shared row left nodes result
        ∧ ∃ below changed, Level create element below changed row left := by
    obtain ⟨row, left, hshared, hrest⟩ := graft_append_iff.mp hgraft
    cases hrest with
    | under level deeper => exact ⟨row, left, hshared, _, _, level⟩
  cases intent with
  | create | replace =>
    obtain ⟨below, changed, hgraft, -⟩ := modify_eq_ok_iff.mp h
    rw [hpath] at hgraft
    obtain ⟨row, left, hshared, hlevel⟩ := hdivide hgraft
    exact ⟨true, row, left, hshared, Or.inl hlevel⟩
  | delete =>
    obtain ⟨parents, target, row, left, htarget, hgraft, hremoval⟩ := edit_delete_eq_ok_iff.mp h
    rw [hpath] at htarget
    rcases List.eq_nil_or_concat rest with rfl | ⟨between, last, rfl⟩
    · obtain ⟨rfl, hlast⟩ := List.append_inj' htarget rfl
      obtain ⟨rfl, -⟩ := List.cons.inj hlast
      exact ⟨false, row, left, hgraft, Or.inr ⟨rfl, rfl, hremoval⟩⟩
    · rw [List.concat_eq_append, ← List.cons_append, ← List.append_assoc] at htarget
      obtain ⟨rfl, -⟩ := List.append_inj' htarget rfl
      obtain ⟨row, left, hshared, hlevel⟩ := hdivide hgraft
      exact ⟨false, row, left, hshared, Or.inl hlevel⟩

/-- An edit is handed the children at the end of its path, or nothing where there are none. -/
theorem Graft.below_eq {path : List Element} (h : Graft create path below changed row result) :
    below = (children path row).toOption.getD [] := by
  rcases h.children_row with hbelow | ⟨rfl, hnone⟩
  · rw [hbelow]
    rfl
  · cases hfound : children path row with
    | error fault => rfl
    | ok found =>
      cases path with
      | nil =>
        cases h
        exact Except.ok.inj hfound
      | cons first rest =>
        obtain ⟨name, hfind⟩ := (children_eq_ok_iff (List.cons_ne_nil first rest)).mp hfound
        rw [hnone] at hfind
        cases hfind

/-- **Queries that part from the path of an edit** find what they found before, if the shared
elements lead to the row that the edit left. -/
theorem Graft.find?_of_parting (h : Graft create shared row left nodes result)
    (hleads : children shared result = .ok left) (hspared : without name left = without name row)
    (hname : other.name ≠ name) :
    find? result (shared ++ other :: others) = find? nodes (shared ++ other :: others) := by
  have hne : other :: others ≠ [] := List.cons_ne_nil other others
  calc find? result (shared ++ other :: others)
      = find? left (other :: others) := by rw [find?_append hne, hleads]; rfl
    _ = find? row (other :: others) := find?_of_without_eq hspared hname
    _ = find? nodes (shared ++ other :: others) := by
      rw [find?_append hne, h.below_eq]
      cases children shared nodes <;> rfl

/-! ### One edit -/

/-- **An edit leaves what is found on other branches**, unless it takes an entry its keys. -/
theorem find?_of_edit (hpath : identifier.elements = shared ++ element :: rest)
    (h : edit intent identifier payload nodes = .ok result) (hname : other.name ≠ element.name)
    (hkeys : intent = .delete → rest = [] → element.kind = .single →
      ∀ candidates, ¬ LosesKeys nodes shared (without element.name) candidates) :
    find? result (shared ++ other :: others) = find? nodes (shared ++ other :: others) := by
  obtain ⟨create, row, left, hgraft, hbranch⟩ := exists_branch hpath h
  -- whatever keys chose the row choose it still, if none of its leaves has changed
  have hleads (hleaves : leafValues left = leafValues row) : children shared result = .ok left :=
    hgraft.children_result fun owner _ _ selected => by
      rw [entryMatches] at selected ⊢
      rwa [hleaves]
  rcases hbranch with ⟨_, _, hlevel⟩ | ⟨hdelete, hrest, hremoval⟩
  · exact hgraft.find?_of_parting (hleads hlevel.leafValues_eq) hlevel.without_eq hname
  · refine hgraft.find?_of_parting ?_ hremoval.without_eq hname
    cases kind : element.kind with
    | multi => exact hleads (hremoval.leafValues_eq kind)
    | single =>
      obtain rfl := hremoval.eq_without kind
      exact hgraft.children_of_keepsKeys (hkeys hdelete hrest kind)

/-- **A deletion that takes an entry its keys** makes all paths through the entry lead to the next
one with these keys, or nowhere. -/
theorem LosesKeys.find?_of_delete {candidates : List (List Node)} (payload : List Node)
    (h : LosesKeys nodes shared (without element.name) candidates)
    (hpath : identifier.elements = shared ++ [element]) (kind : element.kind = .single) :
    ∃ result, edit .delete identifier payload nodes = .ok result
      ∧ ∀ other others, find? result (shared ++ other :: others)
          = candidates.head?.bind fun next => find? next (other :: others) := by
  obtain ⟨above, owner, entry, hshared, hchooses, hlost⟩ := id h
  have hentry : children shared nodes = .ok entry := by
    rw [hshared, hchooses.children]
    rfl
  have hselected : entryMatches owner.keys entry = true := by
    obtain ⟨_, entries, -, -, hcandidates⟩ := hchooses.among
    exact (List.mem_filter.mp (hcandidates ▸ List.mem_cons_self)).2
  have hpresent : ∃ node ∈ entry, node.name = element.name := by
    refine Classical.byContradiction fun hnone => ?_
    have hsame : without element.name entry = entry :=
      without_eq_self fun node hmem hname => hnone ⟨node, hmem, hname⟩
    rw [hsame, hselected] at hlost
    cases hlost
  obtain ⟨put, -, hput, -⟩ := exists_put hentry
  have hgraft := hput false (without element.name entry)
  refine ⟨_, edit_delete_eq_ok_iff.mpr
    ⟨shared, element, entry, _, hpath, hgraft, .nodes kind hpresent⟩, fun other others => ?_⟩
  obtain ⟨above', owner', hshared', hnext⟩ := h.chooses hgraft
  rw [find?_append (List.cons_ne_nil other others), hshared', hnext.children]
  cases candidates <;> rfl

/-! ### The answers of the engine -/

/-- **An edit leaves the answers on other branches as they are**, whether it succeeds or not. The
one exception is the deletion of a single node in an entry itself, if the entry was chosen by this
node: then its next candidate answers. -/
theorem find?_execute_of_parting {store : Datastore} {query : Identifier}
    (hedit : identifier.elements = shared ++ element :: rest)
    (hquery : query.elements = shared ++ other :: others) (hnames : element.name ≠ other.name) :
    let edited :=
      (TreeEngine.execute store { operation := .edit intent, identifier, payload }).2
    let answer (store : Datastore) :=
      (TreeEngine.execute store { operation := .query, identifier := query }).1
    (¬ (intent = .delete ∧ rest = [] ∧ element.kind = .single
          ∧ ∃ owner ∈ shared.getLast?, owner.kind = .multi) →
        answer edited = answer store)
      ∧ ∀ candidates, intent = .delete → rest = [] → element.kind = .single →
          LosesKeys store.nodes shared (without element.name) candidates →
          answer edited = .ok (candidates.head?.bind fun next => find? next (other :: others)) := by
  intro edited answer
  refine ⟨fun hentry => ?_, fun candidates hintent hrest kind hlost => ?_⟩
  · cases hresult : edit intent identifier payload store.nodes with
    | error fault => simp only [edited, execute_edit_of_eq_error hresult]
    | ok result =>
      simp only [answer, edited, execute_edit_of_eq_ok hresult, execute_query, hquery]
      refine congrArg Except.ok (find?_of_edit hedit hresult (Ne.symm hnames) ?_)
      rintro hdelete hrest kind candidates ⟨above, owner, _, rfl, hchooses, -⟩
      exact hentry ⟨hdelete, hrest, kind, owner, List.getLast?_concat, hchooses.kind⟩
  · subst hintent hrest
    obtain ⟨result, hresult, hfound⟩ := hlost.find?_of_delete payload hedit kind
    simp only [answer, edited, execute_edit_of_eq_ok hresult, execute_query, hquery]
    exact congrArg Except.ok (hfound other others)

/-- In the first of two entries with the same key. Without one of its values the entry answers as
before, and without the leaf that is its key the other one answers. -/
theorem find?_execute_of_parting_entry :
    let entry : Element := ⟨"if", none, .multi, ["a"]⟩
    let id : Element := ⟨"id", none, .single, []⟩
    let tag : Element := ⟨"tag", none, .multi, ["x"]⟩
    let mtu : Element := ⟨"mtu", none, .single, []⟩
    let first : List Node := [.leaf "id" "a", .leafList "tag" (.singleton "x"), .leaf "mtu" "1"]
    let second : List Node := [.leaf "id" "a", .leaf "mtu" "2"]
    let store : Datastore := { nodes := [.list "if" [first, second]] }
    let after (target : Element) : Datastore := (TreeEngine.execute store
      { operation := .edit .delete, identifier := ⟨"/r", [entry, target]⟩ }).2
    let answer (store : Datastore) := (TreeEngine.execute store
      { operation := .query, identifier := ⟨"/r", [entry, mtu]⟩ }).1
    answer store = .ok (some (.leaf "mtu" "1"))
      ∧ (after tag).nodes ≠ store.nodes ∧ answer (after tag) = answer store
      ∧ answer (after id) = .ok (some (.leaf "mtu" "2")) := by
  intro entry id tag mtu first second store after answer
  have hquery : (⟨"/r", [entry, mtu]⟩ : Identifier).elements = [entry] ++ mtu :: [] := rfl
  have htag : (⟨"/r", [entry, tag]⟩ : Identifier).elements = [entry] ++ tag :: [] := rfl
  have hid : (⟨"/r", [entry, id]⟩ : Identifier).elements = [entry] ++ id :: [] := rfl
  have hlost : LosesKeys store.nodes [entry] (without id.name) [second] :=
    ⟨[], entry, first, rfl, ⟨rfl, store.nodes, _, Or.inl ⟨rfl, rfl⟩, rfl, rfl⟩, rfl⟩
  refine ⟨by decide, by decide, ?_, ?_⟩
  · exact (find?_execute_of_parting htag hquery (by decide)).1 (by decide)
  · exact (find?_execute_of_parting hid hquery (by decide)).2 [second] rfl rfl rfl hlost

end Datastore

end Restconf
