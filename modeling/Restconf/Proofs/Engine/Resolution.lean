import Restconf.Proofs.Engine.Graft

/-!
# Queries and edits find the same node

A query copies the node at its path, an edit changes it in place, and each has a recursion of its
own that goes down the forest. This file says that they go down the same way: among siblings of one
name and among entries with the same keys they choose the same one, and where one of them cannot go
on neither can the other.

## How it can be told that two nodes are the same

Two siblings may be equal in every respect, so comparing what is found says too little about *which*
of them it was. What tells them apart is a change: an edit that has been handed some children puts
others in their place, and a query of the same path that shows the new ones has found the node that
was changed. The forest around the children is kept for this as a function `put`, which gives the
forest back if it is given the old children.

## What stops a descent

An element asks for a node of its name and for a role: a single instance for a container, one with
keys for an entry of a list. The first of these that is not met is the fault, and `Obstacle` has one
constructor for each way. Only a name that no sibling has can be remedied, by adding a container,
and only for a single instance; every other obstacle stops all edits alike.

## Main definitions

* `Datastore.Obstacle` — what stops a descent at one element
* `Datastore.StopsAt` — the element of a path at which a descent is stopped
* `Datastore.ResolvesAlike` — what an edit makes of a path, told by queries

## Main results

* `Datastore.exists_put` — an edit below a node that can be reached
* `Datastore.children_eq_error_iff`, `Datastore.StopsAt.modify` — an edit that is stopped
* `Datastore.resolvesAlike` — the headline
-/

namespace Restconf

namespace Datastore

variable {element : Element} {path rest : List Element} {row below : List Node} {fault : Fault}

/-! ### What an edit is handed -/

/-- One level: the children at an element, with the row around them. -/
theorem exists_put_singleton {inner : List Node} (h : children [element] row = .ok inner) :
    ∃ put : List Node → List Node, put inner = row
      ∧ (∀ create changed, Level create element inner changed row (put changed))
      ∧ ∀ create change rest,
        modify create change (element :: rest) row
          = (modify create change rest inner).map put := by
  rcases children_singleton_eq_ok_iff.mp h with ⟨kind, hsibling⟩ | ⟨kind, entries, hsibling, hentry⟩
  · obtain ⟨before, after, rfl, hname, first⟩ := sibling?_eq_some_iff.mp hsibling
    refine ⟨fun changed => before ++ .container element.name changed :: after, rfl,
      fun create changed => .container kind first, fun create change rest => ?_⟩
    rw [modify, splitFirst_name_append_cons hname first, kind]
    dsimp only
    cases modify create change rest inner <;> rfl
  · obtain ⟨before, after, rfl, hname, first⟩ := sibling?_eq_some_iff.mp hsibling
    obtain ⟨selected, earlier, later, rfl, hearlier⟩ := List.find?_eq_some_iff_append.mp hentry
    have firstEntry : ∀ other ∈ earlier, entryMatches element.keys other = false := by
      simpa using hearlier
    refine ⟨fun changed => before ++ .list element.name (earlier ++ changed :: later) :: after, rfl,
      fun create changed => .entry kind first firstEntry selected, fun create change rest => ?_⟩
    rw [modify, splitFirst_name_append_cons hname first, kind]
    simp only [splitFirst_append_cons selected firstEntry]
    cases modify create change rest inner <;> rfl

/-- **What an edit makes of a node that can be reached**: it goes on with the children there, and
puts what comes of them into the forest around. -/
theorem exists_put (h : children path row = .ok below) :
    ∃ put : List Node → List Node, put below = row
      ∧ (∀ create changed, Graft create path below changed row (put changed))
      ∧ ∀ create change rest,
        modify create change (path ++ rest) row = (modify create change rest below).map put := by
  induction path generalizing row with
  | nil =>
    obtain rfl := Except.ok.inj h
    refine ⟨id, rfl, fun create changed => .here row changed, fun create change rest => ?_⟩
    rw [List.nil_append]
    cases modify create change rest row <;> rfl
  | cons element path ih =>
    rw [children_cons] at h
    obtain ⟨inner, hinner, h⟩ := bind_eq_ok_iff.mp h
    obtain ⟨putInner, hputInner, hlevel, hmodifyInner⟩ := exists_put_singleton hinner
    obtain ⟨put, hput, hgraft, hmodify⟩ := ih h
    refine ⟨fun changed => putInner (put changed), (congrArg putInner hput).trans hputInner,
      fun create changed => .under (hlevel create _) (hgraft create changed),
      fun create change rest => ?_⟩
    rw [List.cons_append, hmodifyInner, hmodify]
    cases modify create change rest below <;> rfl

/-! ### What stops an edit -/

/-- The kind of node in which an element goes down. -/
def parentKind : ElementKind → NodeKind
  | .single => .container
  | .multi => .list

/-- What stops a descent at an element, among the siblings where its node is looked for. -/
inductive Obstacle (row : List Node) (element : Element) : Fault → Prop where
  /-- No sibling has the name. -/
  | noSibling (absent : sibling? element.name row = none) :
      Obstacle row element (.notFound element.display)
  /-- The list of the name has no entry with the keys. -/
  | noEntry {entries : List (List Node)} (kind : element.kind = .multi)
      (list : sibling? element.name row = some (.list element.name entries))
      (unmatched : ∀ entry ∈ entries, entryMatches element.keys entry = false) :
      Obstacle row element (.notFound element.display)
  /-- The node of the name cannot have children for such an element. -/
  | noParent {node : Node} (present : sibling? element.name row = some node)
      (unfit : node.kind ≠ parentKind element.kind) :
      Obstacle row element (notAParent element node)

/-- **Without children there is an obstacle**, and with an obstacle no children. -/
theorem children_singleton_eq_error_iff :
    children [element] row = .error fault ↔ Obstacle row element fault := by
  constructor
  · intro h
    rw [children] at h
    split at h
    case h_1 => cases h
    case h_2 name entries list kind =>
      obtain rfl : name = element.name := name_of_sibling? list
      cases hentry : entries.find? (entryMatches element.keys) with
      | none =>
        simp only [hentry] at h
        have unmatched := List.find?_eq_none.mp hentry
        exact Except.error.inj h ▸ .noEntry kind list (by simpa using unmatched)
      | some entry =>
        simp only [hentry] at h
        cases h
    case h_3 node present noContainer noList =>
      refine Except.error.inj h ▸ .noParent present fun fit => ?_
      cases node <;> cases kind : element.kind <;> rw [kind] at fit <;> cases fit
      · exact noContainer _ _ kind rfl
      · exact noList _ _ kind rfl
    case h_4 absent => exact Except.error.inj h ▸ .noSibling absent
  · intro h
    rw [children]
    cases h with
    | noSibling absent =>
      rw [absent]
      cases element.kind <;> rfl
    | noEntry kind list unmatched =>
      have hentry := List.find?_eq_none.mpr fun entry hmem =>
        ne_true_of_eq_false (unmatched entry hmem)
      rw [list, kind]
      simp only [hentry]
      rfl
    | @noParent node present unfit =>
      rw [present]
      cases node <;> cases hkind : element.kind <;> rw [hkind] at unfit
      all_goals first | rfl | exact absurd rfl unfit

/-- **An obstacle stops an edit**, unless a container may be added and the element asks for no
more. -/
theorem Obstacle.modify {create : Bool} {change : List Node → Except Fault (List Node)}
    (h : Obstacle row element fault)
    (hcreate : create = false ∨ element.kind = .multi
      ∨ ∃ detail, fault = .treeEngineFailure detail) :
    modify create change (element :: rest) row = .error fault := by
  rw [Datastore.modify]
  cases h with
  | noSibling absent =>
    rw [splitFirst_name_eq_none_iff.mpr (sibling?_eq_none_iff.mp absent)]
    rcases hcreate with rfl | kind | ⟨detail, hfault⟩
    · cases element.kind <;> rfl
    · rw [kind]
      rfl
    · cases hfault
  | noEntry kind list unmatched =>
    obtain ⟨before, after, rfl, hname, first⟩ := sibling?_eq_some_iff.mp list
    rw [splitFirst_name_append_cons hname first, kind]
    simp only [splitFirst_eq_none_iff.mpr unmatched]
    rfl
  | @noParent node present unfit =>
    obtain ⟨before, after, rfl, hname, first⟩ := sibling?_eq_some_iff.mp present
    rw [splitFirst_name_append_cons hname first]
    cases node <;> cases kind : element.kind <;> rw [kind] at unfit
    all_goals first | rfl | exact absurd rfl unfit

/-- The row of nodes below a path: the forest itself, or what is in the container or in the entry
that a query finds. -/
def IsRowOf (nodes : List Node) (path : List Element) (row : List Node) : Prop :=
  path = [] ∧ row = nodes ∨ ∃ name, find? nodes path = some (.container name row)

theorem isRowOf_iff {nodes : List Node} :
    IsRowOf nodes path row ↔ children path nodes = .ok row := by
  by_cases h : path = []
  · subst h
    simp [IsRowOf, children, find?, eq_comm]
  · simp [IsRowOf, h, children_eq_ok_iff h]

/-- **A descent is stopped** at an element of its path: the row where the node of the element is
looked for can be reached, and there is an obstacle in it. -/
def StopsAt (nodes : List Node) (path : List Element) (element : Element) (fault : Fault) : Prop :=
  ∃ parents rest row, path = parents ++ element :: rest ∧ IsRowOf nodes parents row
    ∧ Obstacle row element fault

theorem StopsAt.cons {nodes : List Node} (hrow : children [element] nodes = .ok row)
    {stop : Element} (h : StopsAt row rest stop fault) :
    StopsAt nodes (element :: rest) stop fault := by
  obtain ⟨parents, others, inner, rfl, hinner, hobstacle⟩ := h
  refine ⟨element :: parents, others, inner, rfl, isRowOf_iff.mpr ?_, hobstacle⟩
  rw [children_cons, hrow]
  exact isRowOf_iff.mp hinner

/-- **A path without children is one on which a descent is stopped.** -/
theorem children_eq_error_iff {nodes : List Node} :
    children path nodes = .error fault ↔ ∃ stop, StopsAt nodes path stop fault := by
  constructor
  · intro h
    induction path generalizing nodes with
    | nil => cases h
    | cons element rest ih =>
      rw [children_cons] at h
      rcases bind_eq_error_iff.mp h with hobstacle | ⟨row, hrow, hrest⟩
      · exact ⟨element, [], rest, nodes, rfl, Or.inl ⟨rfl, rfl⟩,
          children_singleton_eq_error_iff.mp hobstacle⟩
      · obtain ⟨stop, hstop⟩ := ih hrest
        exact ⟨stop, hstop.cons hrow⟩
  · rintro ⟨stop, parents, rest, row, rfl, hrow, hobstacle⟩
    rw [children_append, isRowOf_iff.mp hrow]
    change children (stop :: rest) row = .error fault
    rw [children_cons, children_singleton_eq_error_iff.mpr hobstacle]
    rfl

/-- **A query finds a container, or the descent is stopped**, and then at an element of the path. -/
theorem find?_or_stopsAt {nodes : List Node} (h : path ≠ []) :
    (∃ name below, find? nodes path = some (.container name below))
      ∨ ∃ stop fault, StopsAt nodes path stop fault := by
  cases hchildren : children path nodes with
  | ok below =>
    obtain ⟨name, hfind⟩ := (children_eq_ok_iff h).mp hchildren
    exact Or.inl ⟨name, below, hfind⟩
  | error fault =>
    obtain ⟨stop, hstop⟩ := children_eq_error_iff.mp hchildren
    exact Or.inr ⟨stop, fault, hstop⟩

/-- **An edit is stopped where a query is**, unless the node that is missing can be added. -/
theorem StopsAt.modify {nodes : List Node} {create : Bool}
    {change : List Node → Except Fault (List Node)} (h : StopsAt nodes path element fault)
    (hcreate : create = false ∨ element.kind = .multi
      ∨ ∃ detail, fault = .treeEngineFailure detail) :
    modify create change path nodes = .error fault := by
  obtain ⟨parents, rest, row, rfl, hrow, hobstacle⟩ := h
  obtain ⟨put, -, -, hmodify⟩ := exists_put (isRowOf_iff.mp hrow)
  rw [hmodify, hobstacle.modify hcreate]
  rfl

/-! ### Queries and edits -/

/-- **What an edit makes of a path, told by queries.** A change that an edit makes is any function
of the children at the end of its path. -/
structure ResolvesAlike (nodes : List Node) (path : List Element) : Prop where
  /-- An edit that may add nothing reaches the end of the path if a query finds a container there,
  or an entry, which is given as one, and otherwise it does not. -/
  reaches : (∃ result, modify false .ok path nodes = .ok result)
    ↔ ∃ name below, find? nodes path = some (.container name below)
  /-- The children that an edit is handed are those that a query finds, whether the edit may add
  containers or not. What the edit makes of them stands where they stood, and it is what a query
  finds there from then on, provided that an entry keeps the leaves that it was chosen by. -/
  handed : ∀ name below, find? nodes path = some (.container name below) →
    ∃ put : List Node → List Node, put below = nodes
      ∧ (∀ create change, modify create change path nodes = (change below).map put)
      ∧ ∀ changed,
        (∀ target, path.getLast? = some target → target.kind = .multi →
          entryMatches target.keys changed = true) →
        find? (put changed) path = some (.container name changed)
  /-- Where a query finds anything else, or nothing, the descent is stopped at some element. -/
  stopped : (∀ name below, find? nodes path ≠ some (.container name below)) →
    ∃ stop fault, StopsAt nodes path stop fault
  /-- An edit that may add nothing fails with what stops the descent. So does one that may add
  containers, if an entry is missing or if a node is there that cannot have children. -/
  fails : ∀ stop fault, StopsAt nodes path stop fault →
    (∀ change, modify false change path nodes = .error fault)
      ∧ (stop.kind = .multi ∨ (∃ detail, fault = .treeEngineFailure detail) →
        ∀ change, modify true change path nodes = .error fault)

/-- **Queries and edits find the same node**, in every forest and for every path. -/
theorem resolvesAlike (nodes : List Node) (element : Element) (rest : List Element) :
    ResolvesAlike nodes (element :: rest) := by
  have hpath : element :: rest ≠ [] := List.cons_ne_nil element rest
  refine ⟨⟨?_, ?_⟩, ?_, ?_, ?_⟩
  · rintro ⟨result, hresult⟩
    rcases find?_or_stopsAt hpath with hfind | ⟨stop, fault, hstop⟩
    · exact hfind
    · rw [hstop.modify (Or.inl rfl)] at hresult
      cases hresult
  · rintro ⟨name, below, hfind⟩
    obtain ⟨put, -, -, hmodify⟩ := exists_put ((children_eq_ok_iff hpath).mpr ⟨name, hfind⟩)
    exact ⟨put below, by simpa [modify, Except.map] using hmodify false .ok []⟩
  · intro name below hfind
    obtain ⟨put, hput, hgraft, hmodify⟩ :=
      exists_put ((children_eq_ok_iff hpath).mpr ⟨name, hfind⟩)
    refine ⟨put, hput, fun create change => by simpa [modify] using hmodify create change [],
      fun changed hkeys => ?_⟩
    have hchanged := (hgraft false changed).children_result fun target htarget kind _ =>
      hkeys target htarget kind
    obtain ⟨target, htarget, hname⟩ := name_of_find? hfind
    obtain rfl : name = target.name := hname
    exact find?_of_children htarget hchanged
  · intro hnone
    rcases find?_or_stopsAt hpath with ⟨name, below, hfind⟩ | hstop
    · exact absurd hfind (hnone name below)
    · exact hstop
  · intro stop fault hstop
    exact ⟨fun change => hstop.modify (Or.inl rfl), fun h change => hstop.modify (Or.inr h)⟩

/-- Of two entries with the same keys both choose the first. -/
example :
    let path : List Element := [⟨"a", none, .multi, ["1"]⟩]
    let first : List Node := [.leaf "id" "1"]
    let second : List Node := [.leaf "id" "1", .leaf "b" "2"]
    find? [.list "a" [first, second]] path = some (.container "a" first)
      ∧ modify false (fun _ => .ok []) path [.list "a" [first, second]]
        = .ok [.list "a" [[], second]] :=
  ⟨rfl, rfl⟩

end Datastore

end Restconf
