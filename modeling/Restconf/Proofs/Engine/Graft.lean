import Restconf.Engine.Datastore

/-!
# What an edit does along its path

An edit descends to the children of one node and puts other children in their place. Everything
else in the forest stays where it is. This file says so once, as a relation between the forest
before and after, and everything that is proved about edits is proved from the relation.

## Why a relation and not the recursion

`Datastore.modify` decides at every element whether to go into a container, into an entry of a list
or into a container that it adds, and three times in six it fails instead. Of an edit that succeeds
only three cases are left, and they are all that an invariant has to be checked for. `Level` names
them for one element, and `Graft` strings levels together along the path.

## Reading along a path

A query takes the same way as an edit. `Datastore.find?` is therefore divided into the children at
all but the last element and a lookup of the last one, so that a statement about queries needs no
induction of its own.

## Main definitions

* `Datastore.Found` — what a query finds at its last element
* `Datastore.Level` — one level of an edit
* `Datastore.Graft` — an edit from the top of the forest to the end of its path

## Main results

* `Datastore.modify_eq_ok_iff` — edits that succeed are grafts
* `Datastore.graft_append_iff` — edits along a path in two parts
* `Datastore.find?_append`, `Datastore.find?_eq_some_iff`, `Datastore.children_eq_ok_iff` — queries
  by way of children
* `Datastore.Graft.children_result`, `Datastore.Graft.children_row` — what stands at the end of the
  path after the edit and before it
-/

namespace Restconf

namespace Datastore

/-! ### The first of its kind -/

section First

variable {α : Type} {p : α → Bool} {items before after : List α} {a : α}

theorem splitFirst_eq_none_iff : splitFirst p items = none ↔ ∀ b ∈ items, p b = false := by
  induction items with
  | nil => simp [splitFirst]
  | cons b items ih =>
    by_cases hb : p b
    · simp [splitFirst, hb]
    · simp [splitFirst, hb, ih]

theorem splitFirst_append_cons (ha : p a = true) (h : ∀ b ∈ before, p b = false) :
    splitFirst p (before ++ a :: after) = some (before, a, after) := by
  induction before with
  | nil => simp [splitFirst, ha]
  | cons b before ih =>
    obtain ⟨hb, hbefore⟩ := List.forall_mem_cons.mp h
    simp [splitFirst, hb, ih hbefore]

theorem splitFirst_eq_some_iff :
    splitFirst p items = some (before, a, after)
      ↔ items = before ++ a :: after ∧ p a = true ∧ ∀ b ∈ before, p b = false := by
  refine ⟨fun h => ?_, fun ⟨hitems, ha, hbefore⟩ => hitems ▸ splitFirst_append_cons ha hbefore⟩
  induction items generalizing before with
  | nil => cases h
  | cons b items ih =>
    rw [splitFirst] at h
    split at h
    · next hb =>
      obtain ⟨rfl, rfl, rfl⟩ : [] = before ∧ b = a ∧ items = after := by simpa using h
      exact ⟨rfl, hb, fun _ hmem => absurd hmem List.not_mem_nil⟩
    · next hb =>
      obtain ⟨⟨first, found, last⟩, hsplit, heq⟩ := Option.map_eq_some_iff.mp h
      obtain ⟨rfl, rfl, rfl⟩ : b :: first = before ∧ found = a ∧ last = after := by
        simpa using heq
      obtain ⟨rfl, ha, hfirst⟩ := ih hsplit
      exact ⟨rfl, ha, List.forall_mem_cons.mpr ⟨by simpa using hb, hfirst⟩⟩

theorem find?_append_cons (ha : p a = true) (h : ∀ b ∈ before, p b = false) :
    (before ++ a :: after).find? p = some a :=
  List.find?_eq_some_iff_append.mpr
    ⟨ha, before, after, rfl, fun b hmem => by rw [h b hmem, Bool.not_false]⟩

end First

section Sibling

variable {name : String} {row before after : List Node} {node : Node}

theorem splitFirst_name_eq_none_iff :
    splitFirst (fun node => decide (node.name = name)) row = none
      ↔ ∀ node ∈ row, node.name ≠ name := by
  simp [splitFirst_eq_none_iff]

theorem splitFirst_name_eq_some_iff :
    splitFirst (fun node => decide (node.name = name)) row = some (before, node, after)
      ↔ row = before ++ node :: after ∧ node.name = name ∧ ∀ other ∈ before, other.name ≠ name := by
  simp [splitFirst_eq_some_iff]

theorem splitFirst_name_append_cons (hname : node.name = name)
    (first : ∀ other ∈ before, other.name ≠ name) :
    splitFirst (fun node => decide (node.name = name)) (before ++ node :: after)
      = some (before, node, after) :=
  splitFirst_name_eq_some_iff.mpr ⟨rfl, hname, first⟩

theorem sibling?_eq_none_iff : sibling? name row = none ↔ ∀ node ∈ row, node.name ≠ name := by
  simp [sibling?]

theorem sibling?_append_cons (hname : node.name = name)
    (first : ∀ other ∈ before, other.name ≠ name) :
    sibling? name (before ++ node :: after) = some node :=
  find?_append_cons (by simpa using hname) fun other hmem => by simpa using first other hmem

theorem sibling?_eq_some_iff :
    sibling? name row = some node ↔ ∃ before after, row = before ++ node :: after
      ∧ node.name = name ∧ ∀ other ∈ before, other.name ≠ name := by
  constructor
  · intro h
    obtain ⟨hname, before, after, hrow, hbefore⟩ := List.find?_eq_some_iff_append.mp h
    exact ⟨before, after, hrow, by simpa using hname, by simpa using hbefore⟩
  · rintro ⟨before, after, rfl, hname, hbefore⟩
    exact sibling?_append_cons hname hbefore

theorem name_of_sibling? (h : sibling? name row = some node) : node.name = name := by
  simpa using List.find?_some h

theorem mem_of_sibling? (h : sibling? name row = some node) : node ∈ row :=
  List.mem_of_find?_eq_some h

end Sibling

/-! ### One level -/

/-- One level of an edit: what stands below the node of an element, before and after, and the row
around that node, before and after. -/
inductive Level (create : Bool) (element : Element) :
    (below changed row result : List Node) → Prop where
  /-- Into the first sibling of the name, a container. -/
  | container {before after children changed : List Node} (kind : element.kind = .single)
      (first : ∀ node ∈ before, node.name ≠ element.name) :
      Level create element children changed
        (before ++ .container element.name children :: after)
        (before ++ .container element.name changed :: after)
  /-- Into the first entry with the keys, in the first sibling of the name, a list. -/
  | entry {before after entry changed : List Node} {earlier later : List (List Node)}
      (kind : element.kind = .multi) (first : ∀ node ∈ before, node.name ≠ element.name)
      (firstEntry : ∀ other ∈ earlier, entryMatches element.keys other = false)
      (selected : entryMatches element.keys entry = true) :
      Level create element entry changed
        (before ++ .list element.name (earlier ++ entry :: later) :: after)
        (before ++ .list element.name (earlier ++ changed :: later) :: after)
  /-- Into a new container behind all siblings. -/
  | added {row changed : List Node} (kind : element.kind = .single) (allowed : create = true)
      (new : ∀ node ∈ row, node.name ≠ element.name) :
      Level create element [] changed row (row ++ [.container element.name changed])

section Level

variable {create : Bool} {element : Element} {below changed row result : List Node}

theorem Level.modify {change : List Node → Except Fault (List Node)} {rest : List Element}
    (h : Level create element below changed row result)
    (hrest : modify create change rest below = .ok changed) :
    modify create change (element :: rest) row = .ok result := by
  rw [Datastore.modify]
  cases h with
  | container kind first =>
    have hname : (Node.container element.name below).name = element.name := rfl
    rw [splitFirst_name_append_cons hname first, kind]
    simp only [hrest, bind, Except.bind]
    rfl
  | @entry before after _ _ earlier later kind first firstEntry selected =>
    have hname : (Node.list element.name (earlier ++ below :: later)).name = element.name := rfl
    rw [splitFirst_name_append_cons hname first, kind]
    simp only [splitFirst_append_cons selected firstEntry, hrest, bind, Except.bind]
    rfl
  | added kind allowed new =>
    rw [splitFirst_name_eq_none_iff.mpr new, kind]
    simp only [if_pos allowed, hrest, bind, Except.bind]
    rfl

/-- **One level of an edit that succeeds** is one of the three. -/
theorem modify_cons_eq_ok_iff {change : List Node → Except Fault (List Node)}
    {rest : List Element} :
    modify create change (element :: rest) row = .ok result
      ↔ ∃ below changed, Level create element below changed row result
          ∧ modify create change rest below = .ok changed := by
  refine ⟨fun h => ?_, fun ⟨_, _, hlevel, hrest⟩ => hlevel.modify hrest⟩
  rw [Datastore.modify] at h
  split at h
  case h_1 before name below after hsplit kind =>
    obtain ⟨rfl, rfl, first⟩ := splitFirst_name_eq_some_iff.mp hsplit
    obtain ⟨changed, hchanged, heq⟩ := bind_eq_ok_iff.mp h
    obtain rfl := Except.ok.inj heq
    exact ⟨below, changed, .container kind first, hchanged⟩
  case h_3 hsplit kind =>
    have new := splitFirst_name_eq_none_iff.mp hsplit
    split at h
    · next allowed =>
      obtain ⟨changed, hchanged, heq⟩ := bind_eq_ok_iff.mp h
      obtain rfl := Except.ok.inj heq
      exact ⟨[], changed, .added kind allowed new, hchanged⟩
    · cases h
  case h_4 before name entries after hsplit kind =>
    obtain ⟨rfl, rfl, first⟩ := splitFirst_name_eq_some_iff.mp hsplit
    split at h
    · cases h
    · next earlier entry later hentries =>
      obtain ⟨rfl, selected, firstEntry⟩ := splitFirst_eq_some_iff.mp hentries
      obtain ⟨changed, hchanged, heq⟩ := bind_eq_ok_iff.mp h
      obtain rfl := Except.ok.inj heq
      exact ⟨entry, changed, .entry kind first firstEntry selected, hchanged⟩
  all_goals cases h

end Level

/-! ### The whole path -/

/-- An edit: what stands at the end of its path, before and after, and the forest, before and
after. -/
inductive Graft (create : Bool) : List Element → (below changed row result : List Node) → Prop where
  | here (below changed : List Node) : Graft create [] below changed below changed
  | under {element : Element} {rest : List Element}
      {inner innerResult below changed row result : List Node}
      (level : Level create element inner innerResult row result)
      (deeper : Graft create rest below changed inner innerResult) :
      Graft create (element :: rest) below changed row result

section Graft

variable {create : Bool} {path : List Element} {below changed row result : List Node}

/-- **Edits that succeed are grafts.** -/
theorem modify_eq_ok_iff {change : List Node → Except Fault (List Node)} :
    modify create change path row = .ok result
      ↔ ∃ below changed, Graft create path below changed row result
          ∧ change below = .ok changed := by
  induction path generalizing row result with
  | nil =>
    rw [modify]
    refine ⟨fun h => ⟨row, result, .here row result, h⟩, ?_⟩
    rintro ⟨_, _, hgraft, hchange⟩
    cases hgraft
    exact hchange
  | cons element rest ih =>
    rw [modify_cons_eq_ok_iff]
    constructor
    · rintro ⟨inner, innerResult, hlevel, hrest⟩
      obtain ⟨below, changed, hdeeper, hchange⟩ := ih.mp hrest
      exact ⟨below, changed, .under hlevel hdeeper, hchange⟩
    · rintro ⟨below, changed, hgraft, hchange⟩
      cases hgraft with
      | under level deeper => exact ⟨_, _, level, ih.mpr ⟨below, changed, deeper, hchange⟩⟩

/-- An edit along a path in two parts is one along the first part whose change is one along the
second. -/
theorem graft_append_iff {rest : List Element} :
    Graft create (path ++ rest) below changed row result
      ↔ ∃ inner innerResult, Graft create path inner innerResult row result
          ∧ Graft create rest below changed inner innerResult := by
  induction path generalizing row result with
  | nil =>
    refine ⟨fun h => ⟨row, result, .here row result, h⟩, ?_⟩
    rintro ⟨_, _, hgraft, hrest⟩
    cases hgraft
    exact hrest
  | cons element path ih =>
    rw [List.cons_append]
    constructor
    · intro h
      cases h with
      | under level deeper =>
        obtain ⟨inner, innerResult, hpath, hrest⟩ := ih.mp deeper
        exact ⟨inner, innerResult, .under level hpath, hrest⟩
    · rintro ⟨inner, innerResult, hgraft, hrest⟩
      cases hgraft with
      | under level deeper => exact .under level (ih.mpr ⟨inner, innerResult, deeper, hrest⟩)

end Graft

/-! ### Children along a path -/

section Children

variable {element : Element} {path rest : List Element} {row found : List Node}

/-- The children at one element. -/
theorem children_singleton_eq_ok_iff :
    children [element] row = .ok found
      ↔ (element.kind = .single ∧ sibling? element.name row = some (.container element.name found))
        ∨ element.kind = .multi ∧ ∃ entries,
            sibling? element.name row = some (.list element.name entries)
              ∧ entries.find? (entryMatches element.keys) = some found := by
  rw [children]
  cases hsibling : sibling? element.name row with
  | none => simp
  | some node =>
    have hname := name_of_sibling? hsibling
    cases node with
    | container name below =>
      obtain rfl : name = element.name := hname
      cases element.kind <;> simp [children]
    | list name entries =>
      obtain rfl : name = element.name := hname
      cases element.kind with
      | single => simp
      | multi =>
        cases hentry : entries.find? (entryMatches element.keys) <;> simp [children, hentry]
    | leaf name value | leafList name values => cases element.kind <;> simp

theorem children_cons :
    children (element :: rest) row = children [element] row >>= children rest := by
  rw [children, children]
  cases sibling? element.name row with
  | none => cases element.kind <;> rfl
  | some node =>
    cases node with
    | container name below => cases element.kind <;> rfl
    | list name entries =>
      cases element.kind with
      | single => rfl
      | multi =>
        cases hentry : entries.find? (entryMatches element.keys) <;> simp only [hentry] <;> rfl
    | leaf name value | leafList name values => cases element.kind <;> rfl

theorem children_append :
    children (path ++ rest) row = children path row >>= children rest := by
  induction path generalizing row with
  | nil => rfl
  | cons element path ih =>
    rw [List.cons_append, children_cons, @children_cons element path row]
    cases children [element] row with
    | error fault => rfl
    | ok inner => exact ih

end Children

/-! ### Queries by way of children -/

section Query

variable {element target : Element} {path rest : List Element} {row found : List Node}

theorem find?_cons (h : rest ≠ []) :
    find? row (element :: rest)
      = (children [element] row).toOption.bind fun found => find? found rest := by
  obtain ⟨next, others, rfl⟩ := List.exists_cons_of_ne_nil h
  rw [find?, children]
  cases sibling? element.name row with
  | none => cases element.kind <;> rfl
  | some node =>
    cases node with
    | container name below => cases element.kind <;> rfl
    | list name entries =>
      cases element.kind with
      | single => rfl
      | multi =>
        cases hentry : entries.find? (entryMatches element.keys) <;> simp only [hentry] <;> rfl
    | leaf name value | leafList name values => cases element.kind <;> rfl

/-- **A query goes down to the children** at any elements before the last one. -/
theorem find?_append (h : rest ≠ []) :
    find? row (path ++ rest) = (children path row).toOption.bind fun found => find? found rest := by
  induction path generalizing row with
  | nil => rfl
  | cons element path ih =>
    have hne : path ++ rest ≠ [] := List.append_ne_nil_of_right_ne_nil path h
    rw [List.cons_append, find?_cons hne, @children_cons element path row]
    cases children [element] row with
    | error fault => rfl
    | ok inner => exact ih

/-- What a query finds at its last element: a sibling of the name, or an entry or a value of one. -/
inductive Found (element : Element) (row : List Node) : Node → Prop where
  | sibling {node : Node} (kind : element.kind = .single)
      (found : sibling? element.name row = some node) : Found element row node
  /-- An entry is given as a container with the name of its list. -/
  | entry {entries : List (List Node)} {entry : List Node} (kind : element.kind = .multi)
      (list : sibling? element.name row = some (.list element.name entries))
      (selected : entries.find? (entryMatches element.keys) = some entry) :
      Found element row (.container element.name entry)
  /-- A value is given as a leaf-list of its own. -/
  | value {values : TextSet} {key : String} (kind : element.kind = .multi)
      (leafList : sibling? element.name row = some (.leafList element.name values))
      (keys : element.keys = [key]) (present : key ∈ values) :
      Found element row (.leafList element.name (.singleton key))

theorem Found.name_eq {node : Node} (h : Found element row node) : node.name = element.name := by
  cases h with
  | sibling _ found => exact name_of_sibling? found
  | entry | value => rfl

theorem find?_singleton_eq_some_iff {node : Node} :
    find? row [element] = some node ↔ Found element row node := by
  rw [find?]
  constructor
  · intro h
    split at h
    case h_1 => cases h
    case h_2 hsibling kind => exact Option.some.inj h ▸ .sibling kind hsibling
    case h_3 hsibling kind =>
      obtain rfl := name_of_sibling? hsibling
      split at h
      · cases h
      · next hentry => exact Option.some.inj h ▸ .entry kind hsibling hentry
    case h_4 hsibling kind =>
      obtain rfl := name_of_sibling? hsibling
      split at h
      · next keys =>
        split at h
        · next present => exact Option.some.inj h ▸ .value kind hsibling keys present
        · cases h
      · cases h
    case h_5 => cases h
  · intro h
    cases h with
    | sibling kind found =>
      rw [found, kind]
      rfl
    | entry kind list selected =>
      rw [list, kind]
      simp only [selected]
      rfl
    | value kind leafList keys present =>
      rw [leafList, kind, keys]
      exact if_pos present

/-- **What a query finds** stands among the children at all elements but the last. -/
theorem find?_eq_some_iff {node : Node} :
    find? row path = some node
      ↔ ∃ parents target inner, path = parents ++ [target] ∧ children parents row = .ok inner
          ∧ Found target inner node := by
  constructor
  · intro h
    rcases List.eq_nil_or_concat path with rfl | ⟨parents, target, hpath⟩
    · cases h
    rw [List.concat_eq_append] at hpath
    rw [hpath, find?_append (List.cons_ne_nil target [])] at h
    obtain ⟨inner, hinner, h⟩ := Option.bind_eq_some_iff.mp h
    refine ⟨parents, target, inner, hpath, ?_, find?_singleton_eq_some_iff.mp h⟩
    cases hchildren : children parents row with
    | error fault =>
      rw [hchildren] at hinner
      cases hinner
    | ok found =>
      rw [hchildren] at hinner
      exact congrArg Except.ok (Option.some.inj hinner)
  · rintro ⟨parents, target, inner, rfl, hinner, hfound⟩
    rw [find?_append (List.cons_ne_nil target []), hinner]
    exact find?_singleton_eq_some_iff.mpr hfound

theorem find?_concat_eq_some_iff {node : Node} :
    find? row (path ++ [target]) = some node
      ↔ ∃ inner, children path row = .ok inner ∧ Found target inner node := by
  rw [find?_eq_some_iff]
  constructor
  · rintro ⟨parents, last, inner, hpath, hinner, hfound⟩
    obtain ⟨rfl, hlast⟩ := List.append_inj' hpath rfl
    obtain ⟨rfl, -⟩ := List.cons.inj hlast
    exact ⟨inner, hinner, hfound⟩
  · rintro ⟨inner, hinner, hfound⟩
    exact ⟨path, target, inner, rfl, hinner, hfound⟩

/-- **What has children is found as a container of them**, with the name of the last element. -/
theorem find?_of_children (hpath : path.getLast? = some target)
    (h : children path row = .ok found) :
    find? row path = some (.container target.name found) := by
  obtain ⟨parents, rfl⟩ := List.getLast?_eq_some_iff.mp hpath
  rw [children_append] at h
  obtain ⟨inner, hinner, hfound⟩ := bind_eq_ok_iff.mp h
  refine find?_eq_some_iff.mpr ⟨parents, target, inner, rfl, hinner, ?_⟩
  rcases children_singleton_eq_ok_iff.mp hfound with
    ⟨kind, hsibling⟩ | ⟨kind, entries, hsibling, selected⟩
  · exact .sibling kind hsibling
  · exact .entry kind hsibling selected

/-- **Having children and being found as a container are the same**, for the node at a path. -/
theorem children_eq_ok_iff (h : path ≠ []) :
    children path row = .ok found ↔ ∃ name, find? row path = some (.container name found) := by
  constructor
  · exact fun hfound =>
      ⟨(path.getLast h).name, find?_of_children (List.getLast?_eq_some_getLast h) hfound⟩
  · rintro ⟨name, hfind⟩
    obtain ⟨parents, target, inner, rfl, hinner, hfound⟩ := find?_eq_some_iff.mp hfind
    rw [children_append, hinner]
    refine children_singleton_eq_ok_iff.mpr ?_
    cases hfound with
    | sibling kind hsibling =>
      obtain rfl : name = target.name := name_of_sibling? hsibling
      exact Or.inl ⟨kind, hsibling⟩
    | entry kind list selected => exact Or.inr ⟨kind, _, list, selected⟩

/-- A node is found under the name of the last element. -/
theorem name_of_find? {node : Node} (h : find? row path = some node) :
    ∃ target, path.getLast? = some target ∧ node.name = target.name := by
  obtain ⟨parents, target, inner, rfl, -, hfound⟩ := find?_eq_some_iff.mp h
  exact ⟨target, List.getLast?_concat, hfound.name_eq⟩

end Query

/-! ### What an edit leaves along its path -/

section Along

variable {create : Bool} {element : Element} {path : List Element}
  {below changed row result : List Node}

/-- A level changes no leaf of its row, so whatever keys chose the row choose it still. -/
theorem Level.leafValues_eq (h : Level create element below changed row result) :
    leafValues result = leafValues row := by
  cases h <;> simp [leafValues]

theorem leafValues_append (row others : List Node) :
    leafValues (row ++ others) = leafValues row ++ leafValues others := List.filterMap_append

/-- Keys are compared with the leading leaves, so nodes behind the others do not matter to them. -/
theorem entryMatches_append {keys : List String} {entry : List Node} (others : List Node)
    (h : entryMatches keys entry = true) : entryMatches keys (entry ++ others) = true := by
  rw [entryMatches, beq_iff_eq] at h ⊢
  have hlength : keys.length ≤ (leafValues entry).length := by
    rw [← h, List.length_take]
    exact Nat.min_le_right _ _
  rw [leafValues_append, List.take_append_of_le_length hlength, h]

theorem Level.children_result (h : Level create element below changed row result)
    (hkeys : element.kind = .multi → entryMatches element.keys below = true →
      entryMatches element.keys changed = true) : children [element] result = .ok changed := by
  rw [children_singleton_eq_ok_iff]
  cases h with
  | container kind first => exact Or.inl ⟨kind, sibling?_append_cons rfl first⟩
  | entry kind first firstEntry selected =>
    exact Or.inr ⟨kind, _, sibling?_append_cons rfl first,
      find?_append_cons (hkeys kind selected) firstEntry⟩
  | added kind allowed new => exact Or.inl ⟨kind, sibling?_append_cons rfl new⟩

/-- Before the edit the children were the same ones, or there was no such node. -/
theorem Level.children_row (h : Level create element below changed row result) :
    children [element] row = .ok below ∨ below = [] ∧ sibling? element.name row = none := by
  rw [children_singleton_eq_ok_iff]
  cases h with
  | container kind first => exact Or.inl (Or.inl ⟨kind, sibling?_append_cons rfl first⟩)
  | entry kind first firstEntry selected =>
    exact Or.inl (Or.inr ⟨kind, _, sibling?_append_cons rfl first,
      find?_append_cons selected firstEntry⟩)
  | added kind allowed new => exact Or.inr ⟨rfl, sibling?_eq_none_iff.mpr new⟩

/-- Where there was no such node, a container was made for a single one. -/
theorem Level.children_or_added (h : Level create element below changed row result) :
    children [element] row = .ok below
      ∨ create = true ∧ below = [] ∧ element.kind = .single
          ∧ ∀ node ∈ row, node.name ≠ element.name := by
  refine h.children_row.imp_right fun ⟨hbelow, hnone⟩ => ?_
  have new := sibling?_eq_none_iff.mp hnone
  cases h with
  | container | entry => exact absurd rfl (new _ List.mem_append_cons_self)
  | added kind allowed => exact ⟨allowed, hbelow, kind, new⟩

/-- **After an edit its path leads to what it put there**, provided that it does not take away from
an entry the leaves that it was chosen by. -/
theorem Graft.children_result (h : Graft create path below changed row result)
    (hkeys : ∀ target, path.getLast? = some target → target.kind = .multi →
      entryMatches target.keys below = true → entryMatches target.keys changed = true) :
    children path result = .ok changed := by
  induction h with
  | here => rfl
  | @under element rest inner innerResult below changed row result level deeper ih =>
    have hinner : children [element] result = .ok innerResult := by
      refine level.children_result fun kind selected => ?_
      -- above the end of the path an edit changes no leaf of an entry
      cases deeper with
      | here => exact hkeys element rfl kind selected
      | under deeperLevel _ =>
        rw [entryMatches] at selected ⊢
        rwa [deeperLevel.leafValues_eq]
    rw [children_cons, hinner]
    exact ih fun target htarget => hkeys target (by rw [List.getLast?_cons, htarget]; rfl)

/-- In nothing there is nothing to change. -/
theorem Graft.below_of_nil {row : List Node} (h : Graft create path below changed row result)
    (hrow : row = []) : below = [] := by
  induction h with
  | here => exact hrow
  | under level _ ih =>
    cases level with
    | container | entry => simp at hrow
    | added => exact ih rfl

/-- **Before an edit its path led to the same children**, or it led to no node at all. -/
theorem Graft.children_row (h : Graft create path below changed row result) :
    children path row = .ok below ∨ below = [] ∧ find? row path = none := by
  induction h with
  | here => exact Or.inl rfl
  | @under element rest inner innerResult below changed row result level deeper ih =>
    rcases level.children_row with hinner | ⟨rfl, hnone⟩
    · rw [children_cons, hinner]
      -- at the last element `find?` does not go down to the children, so it is a case of its own
      by_cases hrest : rest = []
      · subst hrest
        cases deeper
        exact Or.inl rfl
      · rw [find?_cons hrest, hinner]
        exact ih
    · refine Or.inr ⟨deeper.below_of_nil rfl, ?_⟩
      rw [find?, hnone]

end Along

end Datastore

end Restconf
