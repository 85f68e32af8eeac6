import Restconf.Proofs.Engine.Resolution

/-!
# Which entry the keys choose, before an edit and after

An entry of a list has no name. A path chooses it by its content: the first entry whose leading
leaves have the keys of the element for their values. Nothing keeps two entries from having the same
keys, and nothing keeps an edit from changing a leaf that was among the leading ones, because no
schema says which leaves are keys.

## What an edit of an entry does to the choice

The entries with the keys, in their order, are the candidates, and the first one is chosen. An edit
of the chosen entry leaves the others as they are. If what it makes of the entry still has the keys,
the candidates are the same but for this one, and the path leads to what was made. If it has not,
the entry is no candidate any more, and the same path leads to the next one, or to none. Above the
last element of its path an edit changes no leaf at all, so at most one choice is ever affected.

## Main definitions

* `Datastore.Chooses` — the candidates of an element with keys
* `Datastore.LosesKeys` — a change that takes an entry the keys it was chosen by

## Main results

* `Datastore.Graft.chooses` — the candidates before an edit and after
* `Datastore.Graft.children_of_keepsKeys`, `Datastore.LosesKeys.chooses` — where the path of an
  edit leads after it
-/

namespace Restconf

namespace Datastore

variable {create : Bool} {element : Element} {above path : List Element}
  {nodes below changed result : List Node} {candidates others : List (List Node)}
  {change : List Node → List Node}

/-! ### Candidates -/

/-- **The candidates of an element with keys**: the entries that have the keys, in the first list of
its name. -/
structure Chooses (nodes : List Node) (above : List Element) (element : Element)
    (candidates : List (List Node)) : Prop where
  kind : element.kind = .multi
  among : ∃ row entries, IsRowOf nodes above row
    ∧ sibling? element.name row = some (.list element.name entries)
    ∧ candidates = entries.filter (entryMatches element.keys)

theorem Chooses.eq (h : Chooses nodes above element candidates)
    (h' : Chooses nodes above element others) : candidates = others := by
  obtain ⟨row, entries, hrow, hlist, rfl⟩ := h.among
  obtain ⟨row', entries', hrow', hlist', rfl⟩ := h'.among
  obtain rfl : row = row' :=
    Except.ok.inj ((isRowOf_iff.mp hrow).symm.trans (isRowOf_iff.mp hrow'))
  obtain rfl : entries = entries' := by simpa [hlist] using hlist'
  rfl

/-- **The first candidate is chosen.** -/
theorem Chooses.children (h : Chooses nodes above element candidates) :
    children (above ++ [element]) nodes
      = candidates.head?.elim (.error (missing element)) .ok := by
  obtain ⟨row, entries, hrow, hlist, rfl⟩ := h.among
  rw [children_append, isRowOf_iff.mp hrow, List.head?_filter]
  change Datastore.children [element] row = _
  rw [Datastore.children, hlist, h.kind]
  cases hentry : entries.find? (entryMatches element.keys) with
  | none => simp only [hentry, Option.elim]
  | some entry => simp only [hentry, Option.elim, Datastore.children]

/-- Without candidates the descent is stopped, and no edit can remedy it. -/
theorem Chooses.stopsAt (h : Chooses nodes above element []) :
    StopsAt nodes (above ++ [element]) element (missing element) := by
  obtain ⟨row, entries, hrow, hlist, hnone⟩ := h.among
  have unmatched : ∀ entry ∈ entries, entryMatches element.keys entry = false := by
    simpa using hnone.symm
  exact ⟨above, [], row, rfl, hrow, .noEntry h.kind hlist unmatched⟩

/-! ### The choice after an edit -/

/-- **An edit of an entry changes the first of the candidates**, and takes it from among them if it
takes the keys from it. -/
theorem Graft.chooses (h : Graft create (above ++ [element]) below changed nodes result)
    (kind : element.kind = .multi) :
    ∃ others, Chooses nodes above element (below :: others)
      ∧ Chooses result above element
          (if entryMatches element.keys changed then changed :: others else others) := by
  obtain ⟨row, rowResult, hgraft, hlast⟩ := graft_append_iff.mp h
  cases hlast with
  | under level deeper =>
    cases deeper
    have hleaves := level.leafValues_eq
    cases level with
    | container hkind | added hkind =>
      rw [kind] at hkind
      cases hkind
    | @entry before after _ _ earlier later _ first firstEntry selected =>
      have hrow := hgraft.children_row.resolve_right (by simp)
      -- on the way to the list an edit changes no leaf, so the list is found again
      have hresult := hgraft.children_result fun target _ _ selected => by
        rw [entryMatches] at selected ⊢
        rwa [hleaves]
      have hearlier : earlier.filter (entryMatches element.keys) = [] := by
        simpa [List.filter_eq_nil_iff] using firstEntry
      refine ⟨later.filter (entryMatches element.keys), ⟨kind, ?_⟩, ⟨kind, ?_⟩⟩
      · refine ⟨_, _, isRowOf_iff.mpr hrow, sibling?_append_cons rfl first, ?_⟩
        rw [List.filter_append, hearlier, List.nil_append, List.filter_cons_of_pos selected]
      · refine ⟨_, _, isRowOf_iff.mpr hresult, sibling?_append_cons rfl first, ?_⟩
        rw [List.filter_append, hearlier, List.nil_append, List.filter_cons]

/-- **A change takes an entry its keys**: the entry that a path leads to has the keys of the last
element, and what is made of it has not. The other candidates are left. -/
def LosesKeys (nodes : List Node) (path : List Element) (change : List Node → List Node)
    (others : List (List Node)) : Prop :=
  ∃ above owner entry, path = above ++ [owner] ∧ Chooses nodes above owner (entry :: others)
    ∧ entryMatches owner.keys (change entry) = false

/-- A change takes nothing from a path if the entry that is chosen has the keys after it. -/
theorem Chooses.not_losesKeys {entry : List Node}
    (h : Chooses nodes above element (entry :: candidates))
    (hkeys : entryMatches element.keys (change entry) = true) :
    ¬ LosesKeys nodes (above ++ [element]) change others := by
  rintro ⟨above', owner, entry', hpath, hchooses, hlost⟩
  obtain ⟨rfl, hlast⟩ := List.append_inj' hpath rfl
  obtain ⟨rfl, -⟩ := List.cons.inj hlast
  obtain ⟨rfl, -⟩ := List.cons.inj (h.eq hchooses)
  rw [hkeys] at hlost
  cases hlost

/-- **The path of an edit leads to what it made**, unless it took an entry its keys. -/
theorem Graft.children_of_keepsKeys (h : Graft create path below (change below) nodes result)
    (hkeys : ∀ others, ¬ LosesKeys nodes path change others) :
    children path result = .ok (change below) := by
  refine h.children_result fun target htarget kind _ => ?_
  cases hmatches : entryMatches target.keys (change below) with
  | true => rfl
  | false =>
    obtain ⟨above, rfl⟩ := List.getLast?_eq_some_iff.mp htarget
    obtain ⟨others, hbefore, -⟩ := h.chooses kind
    exact absurd ⟨above, target, below, rfl, hbefore, hmatches⟩ (hkeys others)

/-- **Without its keys the entry is passed over**: it is chosen from the other candidates. -/
theorem LosesKeys.chooses (h : LosesKeys nodes path change others)
    (hgraft : Graft create path below (change below) nodes result) :
    ∃ above owner, path = above ++ [owner] ∧ Chooses result above owner others := by
  obtain ⟨above, owner, entry, rfl, hchooses, hlost⟩ := h
  obtain ⟨others', hbefore, hafter⟩ := hgraft.chooses hchooses.kind
  obtain ⟨rfl, rfl⟩ := List.cons.inj (hbefore.eq hchooses)
  rw [hlost] at hafter
  exact ⟨above, owner, rfl, hafter⟩

end Datastore

end Restconf
