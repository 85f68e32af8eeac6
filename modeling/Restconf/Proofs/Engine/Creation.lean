import Restconf.Proofs.Engine.Names
import Restconf.Proofs.Engine.Resolution

/-!
# What a creation needs, and what it makes

A creation leads along its path as far as there are nodes, and from there on it makes containers.
Whether it succeeds can be told from the forest alone: by queries, without running the edit.

## The place where a path leaves the forest

A path is divided in two: up to some element it leads to children that exist, and the next element
names no sibling among them. There is at most one such place, but the statements below do not
compute it. They say that a creation succeeds if the path *can* be divided so, with nothing but
single nodes behind the division, and that any such division describes the result. If nothing is
absent, the second part is empty and the payload goes behind the children that the path leads to;
hence `already`, the nodes that are at the end of the path before the creation.

## The keys of entries

The path may go through entries of lists, or end in one. What is created there stands behind all
that was there, so it is not among the leading leaves with which keys are compared, and the path
leads to the same entry after the creation as before.

## Main definitions

* `Datastore.nest` — containers inside each other
* `Datastore.Admits` — what a creation needs
* `Datastore.IsCreated` — what a creation makes

## Main results

* `Datastore.Graft.exists_division` — where the path of an edit leaves the forest
* `Datastore.Admits.exists_create` — a creation that has what it needs
* `Datastore.creates` — the headline
-/

namespace Restconf

namespace Datastore

variable {create : Bool} {path known absent : List Element}
  {payload nodes row below changed result : List Node} {identifier : Identifier}

/-- Containers inside each other, one for each element, with nodes in the innermost. -/
def nest : List Element → List Node → List Node
  | [], inner => inner
  | element :: rest, inner => [.container element.name (nest rest inner)]

/-- The nodes that are at the end of a path whose first part leads to a row: those of the row, or
none if the path goes on behind it. -/
def already : (absent : List Element) → (row : List Node) → List Node
  | [], row => row
  | _ :: _, _ => []

/-- **What a creation needs.** The first part of its path leads to a row, and behind that it asks
for containers that do not exist. -/
structure Admits (nodes payload : List Node) (known absent : List Element) (row : List Node) :
    Prop where
  reached : IsRowOf nodes known row
  /-- An entry of a list is never made. -/
  single : ∀ element ∈ absent, element.kind = .single
  /-- The path leaves the forest at the first of them. -/
  fresh : ∀ first ∈ absent.head?, ∀ node ∈ row, node.name ≠ first.name
  /-- No node of the payload exists at the end of the path. -/
  free : ∀ node ∈ payload, ∀ old ∈ already absent row, old.name ≠ node.name

/-- **What a creation makes.** -/
structure IsCreated (nodes payload : List Node) (known absent : List Element)
    (row result : List Node) : Prop where
  /-- A query of the path finds a container with the name of the target. Its children are those
  that were there before, and then the payload. -/
  found : ∀ target, (known ++ absent).getLast? = some target →
    find? result (known ++ absent)
      = some (.container target.name (already absent row ++ payload))
  /-- The first part of the path leads to the row as it was, with the payload behind it or with
  one container behind it, in which the others are. -/
  kept : IsRowOf result known (row ++ nest absent payload)
  /-- Nothing else in the forest has changed. -/
  elsewhere : Graft false known row (row ++ nest absent payload) nodes result

/-! ### The place where a path leaves the forest -/

/-- In nothing an edit makes a container for each element of its path. -/
theorem Graft.single_of_nil (h : Graft create path below changed row result) (hrow : row = []) :
    ∀ element ∈ path, element.kind = .single := by
  induction h with
  | here => simp
  | under level _ ih =>
    cases level with
    | container | entry => simp at hrow
    | added kind => exact List.forall_mem_cons.mpr ⟨kind, ih rfl⟩

/-- **The path of an edit that succeeds leaves the forest at some place**, if only at its end. -/
theorem Graft.exists_division (h : Graft create path below changed row result) :
    ∃ known absent inner, path = known ++ absent ∧ children known row = .ok inner
      ∧ (∀ element ∈ absent, element.kind = .single)
      ∧ (∀ first ∈ absent.head?, ∀ node ∈ inner, node.name ≠ first.name)
      ∧ below = already absent inner := by
  induction h with
  | here below changed => exact ⟨[], [], below, rfl, rfl, by simp, by simp, rfl⟩
  | @under element rest inner innerResult below changed row result level deeper ih =>
    rcases level.children_or_added with hinner | ⟨-, hnil, kind, new⟩
    · obtain ⟨known, absent, found, rfl, hfound, hsingle, hfresh, hbelow⟩ := ih
      refine ⟨element :: known, absent, found, rfl, ?_, hsingle, hfresh, hbelow⟩
      rw [children_cons, hinner]
      exact hfound
    · refine ⟨[], element :: rest, row, rfl, rfl, ?_, by simpa using new, deeper.below_of_nil hnil⟩
      exact List.forall_mem_cons.mpr ⟨kind, deeper.single_of_nil hnil⟩

/-! ### Behind that place -/

/-- Where there is nothing, containers are made around the nodes. -/
theorem graft_nest (h : ∀ element ∈ path, element.kind = .single) (inner : List Node) :
    Graft true path [] inner [] (nest path inner) := by
  induction path with
  | nil => exact .here [] inner
  | cons element rest ih =>
    obtain ⟨kind, hrest⟩ := List.forall_mem_cons.mp h
    exact .under (.added kind rfl (by simp)) (ih hrest)

/-- Behind the place where its path leaves the forest, a creation makes what is absent. -/
theorem Admits.graft (h : Admits nodes payload known absent row) :
    Graft true absent (already absent row) (already absent row ++ payload)
      row (row ++ nest absent payload) := by
  cases absent with
  | nil => exact .here row (row ++ payload)
  | cons first rest =>
    obtain ⟨kind, hrest⟩ := List.forall_mem_cons.mp h.single
    have new : ∀ node ∈ row, node.name ≠ first.name := h.fresh first rfl
    exact .under (.added kind rfl new) (graft_nest hrest payload)

/-- **A creation that has what it needs succeeds**, and this is what it makes. -/
theorem Admits.exists_create (h : Admits nodes payload known absent row)
    (hpath : identifier.elements = known ++ absent) :
    ∃ result, edit .create identifier payload nodes = .ok result
      ∧ IsCreated nodes payload known absent row result := by
  have hknown : children known nodes = .ok row := isRowOf_iff.mp h.reached
  obtain ⟨put, -, hgraft, -⟩ := exists_put hknown
  have hpayload : addNodes identifier payload (already absent row)
      = .ok (already absent row ++ payload) := addNodes_eq_ok_iff.mpr ⟨h.free, rfl⟩
  have hwhole : Graft true identifier.elements (already absent row)
      (already absent row ++ payload) nodes (put (row ++ nest absent payload)) := by
    rw [hpath]
    exact graft_append_iff.mpr ⟨row, row ++ nest absent payload, hgraft true _, h.graft⟩
  refine ⟨put (row ++ nest absent payload), ?_, ?_, ?_, hgraft false _⟩
  · exact modify_eq_ok_iff.mpr ⟨_, _, hwhole, hpayload⟩
  · intro target htarget
    rw [hpath] at hwhole
    exact find?_of_children htarget
      (hwhole.children_result fun _ _ _ => entryMatches_append payload)
  · refine isRowOf_iff.mpr ((hgraft false _).children_result fun _ _ _ => ?_)
    exact entryMatches_append (nest absent payload)

/-- **When a creation succeeds, and what it makes.** -/
theorem creates (identifier : Identifier) (payload nodes : List Node) :
    ((∃ result, edit .create identifier payload nodes = .ok result)
        ↔ ∃ known absent row, identifier.elements = known ++ absent
            ∧ Admits nodes payload known absent row)
      ∧ ∀ result known absent row, edit .create identifier payload nodes = .ok result →
          identifier.elements = known ++ absent → Admits nodes payload known absent row →
          IsCreated nodes payload known absent row result := by
  refine ⟨⟨?_, ?_⟩, ?_⟩
  · rintro ⟨result, hresult⟩
    obtain ⟨below, changed, hgraft, hchange⟩ := modify_eq_ok_iff.mp hresult
    obtain ⟨known, absent, row, hpath, hrow, hsingle, hfresh, rfl⟩ := hgraft.exists_division
    obtain ⟨hfree, -⟩ := addNodes_eq_ok_iff.mp hchange
    exact ⟨known, absent, row, hpath, isRowOf_iff.mpr hrow, hsingle, hfresh, hfree⟩
  · rintro ⟨known, absent, row, hpath, hadmits⟩
    obtain ⟨result, hresult, -⟩ := hadmits.exists_create hpath
    exact ⟨result, hresult⟩
  · intro result known absent row hresult hpath hadmits
    obtain ⟨result', hresult', hcreated⟩ := hadmits.exists_create hpath
    rw [hresult] at hresult'
    obtain rfl := Except.ok.inj hresult'
    exact hcreated

/-- Two containers are made below an entry, behind what it has, and the entry is chosen still. -/
example :
    let path : List Element :=
      [⟨"if", none, .multi, ["a"]⟩, ⟨"b", none, .single, []⟩, ⟨"c", none, .single, []⟩]
    edit .create ⟨"/r", path⟩ [.leaf "x" "1"] [.list "if" [[.leaf "id" "a"]]]
        = .ok [.list "if" [[.leaf "id" "a", .container "b" [.container "c" [.leaf "x" "1"]]]]]
      ∧ find? [.list "if" [[.leaf "id" "a", .container "b" [.container "c" [.leaf "x" "1"]]]]] path
        = some (.container "c" [.leaf "x" "1"]) :=
  ⟨rfl, rfl⟩

end Datastore

end Restconf
