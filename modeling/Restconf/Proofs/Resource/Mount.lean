import Mathlib.Data.List.Induction
import Restconf.Proofs.Resource.Uri

/-!
# Mount points and queries

A URI is taken apart from both ends. At its end the query and the fragment are cut off, in front
the mount point and the data marker, and what is left in the middle is a data path. All of it is a
comparison of texts: no escape is read, and slashes count where they stand.

## What is taken away where

The cut at the query comes first, so a mount point with a question mark in it can never be found.
The slashes at the end of a root belong to nobody: they are taken off the root, and the marker
brings its own. Behind the marker only the end or a slash may follow, which keeps `/datastore` apart
from `/data`. A written data path contains no character that begins a query, since both are escaped
inside segments and no delimiter is one of them; this is what the way back relies on.

## Main definitions

* `Path.IsTrimmed` — a root without its trailing slashes
* `Path.IsQueried` — a URI divided at its query

## Main results

* `Path.trimSlashes_eq_iff`, `Path.withoutQuery_eq_iff` — what the two cuts leave
* `Identifier.ofUri_strips` — the headline
-/

namespace Restconf

namespace Path

/-! ### The two cuts -/

/-- A root and what is left of it without the slashes at its end. -/
structure IsTrimmed (root mount : List Char) : Prop where
  slashes : ∃ n, root = mount ++ List.replicate n '/'
  trimmed : mount.getLast? ≠ some '/'

/-- A URI divided into its path and what follows it: nothing, or a query or a fragment. -/
structure IsQueried (uri path query : List Char) : Prop where
  joined : uri = path ++ query
  noQuery : '?' ∉ path
  noFragment : '#' ∉ path
  mark : query = [] ∨ query.head? = some '?' ∨ query.head? = some '#'

variable {root mount uri path query : List Char}

theorem trimSlashes_concat (front : List Char) (c : Char) :
    trimSlashes (front ++ [c]) = if c = '/' then trimSlashes front else front ++ [c] := by
  by_cases h : c = '/' <;> simp [trimSlashes, h]

/-- What is left of a root ends with no slash, and slashes are all that is gone. -/
theorem trimSlashes_eq_iff : trimSlashes root = mount ↔ IsTrimmed root mount := by
  constructor
  · rintro rfl
    induction root using List.reverseRecOn with
    | nil => exact ⟨⟨0, rfl⟩, by decide⟩
    | append_singleton front c ih =>
      rw [trimSlashes_concat]
      split_ifs with h
      · obtain ⟨⟨n, hslashes⟩, htrimmed⟩ := ih
        refine ⟨⟨n + 1, ?_⟩, htrimmed⟩
        rw [List.replicate_succ', ← List.append_assoc, ← hslashes, h]
      · exact ⟨⟨0, (List.append_nil _).symm⟩, by simpa using h⟩
  · rintro ⟨⟨n, rfl⟩, htrimmed⟩
    induction n with
    | zero =>
      rw [List.replicate_zero, List.append_nil]
      rcases List.eq_nil_or_concat mount with rfl | ⟨front, c, rfl⟩
      · rfl
      · rw [List.concat_eq_append] at htrimmed ⊢
        rw [trimSlashes_concat, if_neg (by simpa using htrimmed)]
    | succ n ih =>
      rw [List.replicate_succ', ← List.append_assoc, trimSlashes_concat, if_pos rfl, ih]

/-- What stands before the query holds no mark of a query, and such a mark ends it. -/
theorem withoutQuery_eq_iff : withoutQuery uri = path ↔ ∃ query, IsQueried uri path query := by
  constructor
  · rintro rfl
    induction uri with
    | nil => exact ⟨[], rfl, List.not_mem_nil, List.not_mem_nil, Or.inl rfl⟩
    | cons c uri ih =>
      rw [withoutQuery, List.takeWhile_cons]
      split_ifs with h
      · obtain ⟨query, hjoined, hquery, hfragment, hmark⟩ := ih
        have hne : c ≠ '?' ∧ c ≠ '#' := by simpa using h
        refine ⟨query, congrArg (c :: ·) hjoined, ?_, ?_, hmark⟩
        · exact List.not_mem_cons_of_ne_of_not_mem hne.1.symm hquery
        · exact List.not_mem_cons_of_ne_of_not_mem hne.2.symm hfragment
      · refine ⟨c :: uri, rfl, List.not_mem_nil, List.not_mem_nil, Or.inr ?_⟩
        simp only [Bool.and_eq_true, decide_eq_true_eq, ne_eq, not_and_or, not_not] at h
        simpa using h
  · rintro ⟨query, rfl, hquery, hfragment, hmark⟩
    have hpath : path.takeWhile (fun c => c ≠ '?' && c ≠ '#') = path :=
      withoutQuery_eq_self hquery hfragment
    have hnone : query.takeWhile (fun c => c ≠ '?' && c ≠ '#') = [] := by
      rcases hmark with rfl | hmark | hmark
      · rfl
      all_goals
        obtain ⟨rest, rfl⟩ := List.head?_eq_some_iff.mp hmark
        rfl
    rw [withoutQuery, List.takeWhile_append, hpath, if_pos rfl, hnone, List.append_nil]

end Path

namespace Identifier

/-! ### What is left in the middle -/

/-- The path of a list of elements below a mount point, with a query behind it. -/
theorem isQueried_display {root : String} {mount query : List Char}
    (hmount : Path.IsTrimmed root.toList mount) (hquery : '?' ∉ root.toList)
    (hfragment : '#' ∉ root.toList) (elements : List Element)
    (hmark : query = [] ∨ query.head? = some '?' ∨ query.head? = some '#') :
    Path.IsQueried (mount ++ (dataMarker.toList ++ displayFrom none elements) ++ query)
      (mount ++ (dataMarker.toList ++ displayFrom none elements)) query := by
  obtain ⟨n, hroot⟩ := hmount.slashes
  have hfree {c : Char} (hc : c ∉ root.toList) (hmarker : c ∉ dataMarker.toList)
      (hdisplay : c ∉ displayFrom none elements) :
      c ∉ mount ++ (dataMarker.toList ++ displayFrom none elements) := by
    rw [hroot, List.mem_append, not_or] at hc
    simp only [List.mem_append, not_or]
    exact ⟨hc.1, hmarker, hdisplay⟩
  refine ⟨rfl, hfree hquery (by decide) ?_, hfree hfragment (by decide) ?_, hmark⟩
  all_goals
    exact notMem_displayFrom (Percent.not_mem_encode_of_delimiter (by decide))
      (by decide) (by decide) (by decide) (by decide) none elements

/-- **A URI is read from its mount point to its query.** Its path has to be the mount point, the
data marker, and a rest that is empty or begins with a slash; then the elements are those of the
rest, and so is the fault if it has none. Any other URI is no data resource. So the path of any
list of elements that a path can hold comes back from below the mount point, whatever the query. -/
theorem ofUri_strips {root : String} {mount : List Char}
    (hmount : Path.IsTrimmed root.toList mount) :
    (∀ (uri : String) (path query : List Char), Path.IsQueried uri.toList path query →
      (∀ identifier, ofUri root uri = .ok identifier ↔ ∃ rest found, IsBelow mount path rest
        ∧ ofDataPath (.ofList rest) = .ok found
        ∧ identifier = { root := .ofList mount, elements := found.elements })
      ∧ ((∀ rest, ¬ IsBelow mount path rest) →
        ∃ detail, ofUri root uri = .error (.notADataResource detail))
      ∧ ∀ rest fault, IsBelow mount path rest → ofDataPath (.ofList rest) = .error fault →
        ofUri root uri = .error fault)
    ∧ ('?' ∉ root.toList → '#' ∉ root.toList → ∀ (elements : List Element) (query : List Char),
      IsWellFormedPath elements →
      (query = [] ∨ query.head? = some '?' ∨ query.head? = some '#') →
      ofUri root (.ofList (mount ++ (dataMarker.toList ++ (display { elements }).toList) ++ query))
        = .ok { root := .ofList mount, elements }) := by
  obtain rfl := Path.trimSlashes_eq_iff.mpr hmount
  refine ⟨fun uri path query hqueried => ?_, fun hquery hfragment elements query hwell hmark => ?_⟩
  · obtain rfl := Path.withoutQuery_eq_iff.mpr ⟨query, hqueried⟩
    refine ⟨fun identifier => ⟨fun h => ?_, ?_⟩, ofUri_of_not_isBelow,
      fun rest fault hbelow h => ?_⟩
    · obtain ⟨rest, elements, hpath, hslash, hfound, rfl⟩ := ofUri_eq_ok_iff.mp h
      exact ⟨rest, { elements }, ⟨hpath, hslash⟩, hfound, rfl⟩
    · rintro ⟨rest, found, hbelow, hfound, rfl⟩
      rw [ofUri_of_isBelow hbelow, hfound]
      rfl
    · rw [ofUri_of_isBelow hbelow, h]
      rfl
  · have hpath := Path.withoutQuery_eq_iff.mpr
      ⟨query, isQueried_display hmount hquery hfragment elements hmark⟩
    rw [display, String.toList_ofList]
    have hslash : displayFrom none elements = []
        ∨ (displayFrom none elements).head? = some '/' := by
      rcases displayFrom_eq none elements with h | ⟨rest, h⟩
      · exact Or.inl h
      · exact Or.inr (by rw [h]; rfl)
    rw [ofUri_of_isBelow ⟨by rw [String.toList_ofList, hpath], hslash⟩]
    have hread := ofDataPath_display hwell ""
    rw [display] at hread
    rw [hread]
    rfl

/-- A root with slashes at its end and a query behind the path; a word that only begins like the
marker; and a segment outside the grammar. -/
theorem ofUri_strips_query :
    Path.IsTrimmed "/rc//".toList "/rc".toList
      ∧ ofUri "/rc//" "/rc/data/m:a?depth=2" = .ok ⟨"/rc", [⟨"a", some "m", .single, []⟩]⟩
      ∧ (∃ detail, ofUri "/rc//" "/rc/datastore/m:a" = .error (.notADataResource detail))
      ∧ ofUri "/rc//" "/rc/data/:a#top" = .error (.malformedSegment ":a" "empty namespace") := by
  have hmount : Path.IsTrimmed "/rc//".toList "/rc".toList := ⟨⟨2, rfl⟩, by decide⟩
  obtain ⟨hread, hdisplay⟩ := ofUri_strips hmount
  refine ⟨hmount, ?_, ?_, ?_⟩
  · exact hdisplay (by decide) (by decide) [⟨"a", some "m", .single, []⟩] "?depth=2".toList
      (by decide) (Or.inr (Or.inl rfl))
  · have hqueried : Path.IsQueried "/rc/datastore/m:a".toList "/rc/datastore/m:a".toList [] :=
      ⟨rfl, by decide, by decide, Or.inl rfl⟩
    refine (hread _ _ _ hqueried).2.1 fun rest hbelow => ?_
    have hrest : "/rc/data".toList ++ "store/m:a".toList = "/rc/data".toList ++ rest := hbelow.1
    obtain rfl := List.append_cancel_left hrest
    exact absurd hbelow.2 (by decide)
  · have hqueried : Path.IsQueried "/rc/data/:a#top".toList "/rc/data/:a".toList "#top".toList :=
      ⟨rfl, by decide, by decide, Or.inr (Or.inr rfl)⟩
    exact (hread _ _ _ hqueried).2.2 "/:a".toList _ ⟨rfl, Or.inr rfl⟩ rfl

end Identifier

end Restconf
