import Mathlib.Data.List.Basic
import Mathlib.Data.List.Forall2
import Mathlib.Data.List.TakeWhile
import Restconf.Proofs.Resource.RoundTrip

/-!
# URIs of data resources

What the identifier of a URI is made of, which faults a URI can have, and what one more segment at
its end adds.

## Why one more segment is a case of its own

A name that is written behind a URI is read on its own: its escapes are read before it is divided,
and the division does not look at what stands in front of it. So the elements of the longer URI are
those of the shorter one and one more, and the name comes back as that element's name exactly if it
holds none of the delimiters that an escape cannot hide.

## Main definitions

* `Fault.IsPathFault` — the faults that a URI can have
* `Identifier.IsBelow` — the paths below a mount point

## Main results

* `mapM_eq_ok_iff`, `mapM_eq_error_iff` — a step for each of a list of items
* `Identifier.ofUri_of_isBelow`, `Identifier.ofUri_of_not_isBelow` — the two outcomes of looking for
  the mount point
* `Identifier.ofUri_eq_ok_iff` — a URI is its mount point, the data marker and a data path
* `Identifier.isPathFault_of_ofUri` — whatever else it is, it has a fault of a path
* `Identifier.ofUri_slash` — a URI with one more name at its end
-/

namespace Restconf

/-- The faults that a URI can have: an escape that is none, a segment outside the grammar, or a
place that is no data resource. -/
inductive Fault.IsPathFault : Fault → Prop where
  | decode (segment reason : String) : IsPathFault (.decode segment reason)
  | malformedSegment (segment reason : String) : IsPathFault (.malformedSegment segment reason)
  | notADataResource (detail : String) : IsPathFault (.notADataResource detail)

/-! ### Outcomes of several steps -/

section Outcomes

variable {α β : Type} {step : α → Except Fault β} {items : List α}

theorem mapM_eq_ok_iff {results : List β} :
    items.mapM step = .ok results
      ↔ List.Forall₂ (fun item result => step item = .ok result) items results := by
  induction items generalizing results with
  | nil =>
    rw [List.mapM_nil, List.forall₂_nil_left_iff]
    exact ⟨fun h => (Except.ok.inj h).symm, fun h => h ▸ rfl⟩
  | cons item items ih =>
    rw [List.mapM_cons, bind_eq_ok_iff, List.forall₂_cons_left_iff]
    constructor
    · rintro ⟨result, hresult, h⟩
      obtain ⟨others, hothers, heq⟩ := bind_eq_ok_iff.mp h
      exact ⟨result, others, hresult, ih.mp hothers, (Except.ok.inj heq).symm⟩
    · rintro ⟨result, others, hresult, hothers, rfl⟩
      exact ⟨result, hresult, bind_eq_ok_iff.mpr ⟨others, ih.mpr hothers, rfl⟩⟩

/-- Several steps fail as the first of them that fails. -/
theorem mapM_eq_error_iff {fault : Fault} :
    items.mapM step = .error fault ↔ ∃ before item after, items = before ++ item :: after
      ∧ (∀ other ∈ before, ∃ result, step other = .ok result) ∧ step item = .error fault := by
  induction items with
  | nil =>
    constructor
    · intro h
      cases h
    · rintro ⟨before, item, after, heq, -⟩
      simp at heq
  | cons first items ih =>
    rw [List.mapM_cons, bind_eq_error_iff]
    constructor
    · rintro (h | ⟨result, hresult, h⟩)
      · exact ⟨[], first, items, rfl, fun _ hmem => absurd hmem List.not_mem_nil, h⟩
      · rcases bind_eq_error_iff.mp h with h | ⟨results, -, h⟩
        · obtain ⟨before, item, after, rfl, hbefore, hitem⟩ := ih.mp h
          exact ⟨first :: before, item, after, rfl,
            List.forall_mem_cons.mpr ⟨⟨result, hresult⟩, hbefore⟩, hitem⟩
        · cases h
    · rintro ⟨before, item, after, heq, hbefore, hitem⟩
      cases before with
      | nil =>
        obtain ⟨rfl, rfl⟩ := List.cons.inj heq
        exact Or.inl hitem
      | cons _ before =>
        obtain ⟨rfl, rfl⟩ := List.cons.inj heq
        obtain ⟨⟨result, hresult⟩, hbefore⟩ := List.forall_mem_cons.mp hbefore
        exact Or.inr ⟨result, hresult, bind_eq_error_iff.mpr
          (Or.inl (ih.mpr ⟨before, item, after, rfl, hbefore, hitem⟩))⟩

end Outcomes

/-! ### Data paths -/

namespace Identifier

/-- The namespace in force behind a list of elements. -/
def inForceAfter (inherited : Option String) (elements : List Element) : Option String :=
  elements.foldl Element.inForce inherited

theorem elementsOf_append (inherited : Option String) (texts others : List String) :
    elementsOf inherited (texts ++ others) = (do
      let elements ← elementsOf inherited texts
      let rest ← elementsOf (inForceAfter inherited elements) others
      return elements ++ rest) := by
  induction texts generalizing inherited with
  | nil =>
    show elementsOf inherited others
      = elementsOf inherited others >>= fun rest => pure ([] ++ rest)
    simp
  | cons text texts ih =>
    simp only [List.cons_append, elementsOf, ih, bind_assoc, pure_bind, inForceAfter,
      List.foldl_cons]

theorem isPathFault_of_elementsOf {inherited : Option String} {texts : List String} {fault : Fault}
    (h : elementsOf inherited texts = .error fault) : fault.IsPathFault := by
  induction texts generalizing inherited with
  | nil => cases h
  | cons text texts ih =>
    rw [elementsOf, bind_eq_error_iff] at h
    rcases h with h | ⟨element, -, h⟩
    · rw [Element.parse] at h
      split at h
      · obtain rfl := Except.error.inj h
        exact .malformedSegment _ _
      · cases h
    · rcases bind_eq_error_iff.mp h with h | ⟨elements, -, h⟩
      · exact ih h
      · cases h

end Identifier

namespace Path

theorem pieces_append_slash (path rest : List Char) :
    pieces (path ++ '/' :: rest) = pieces path ++ pieces rest := by
  rw [pieces, List.splitOn_append_cons_self, List.filter_append]
  rfl

/-- A text without slashes is one piece. -/
theorem pieces_eq_singleton {piece : List Char} (hne : piece ≠ []) (hslash : '/' ∉ piece) :
    pieces piece = [piece] := by
  have := pieces_append hne hslash (Or.inl rfl)
  rwa [List.append_nil] at this

theorem isPathFault_of_segments {path : String} {fault : Fault}
    (h : segments path = .error fault) : fault.IsPathFault := by
  rw [segments] at h
  obtain ⟨-, piece, -, -, -, hpiece⟩ := mapM_eq_error_iff.mp h
  rw [decodeSegment] at hpiece
  split at hpiece
  · cases hpiece
  · obtain rfl := Except.error.inj hpiece
    exact .decode _ _

/-- A piece that a text was written as is read as that text. -/
theorem decodeSegment_encodeText (text : String) :
    decodeSegment (Percent.encodeText text) = .ok text := by
  rw [decodeSegment, Percent.decodeText_encodeText]

/-- A path with an encoded text at its end has that text for its last segment. -/
theorem segments_slash_encode {path : List Char} {segments : List String} {text : String}
    (h : Path.segments (.ofList path) = .ok segments) (htext : text ≠ "") :
    Path.segments (.ofList (path ++ '/' :: Percent.encode text.toList))
      = .ok (segments ++ [text]) := by
  have hpiece : pieces (Percent.encode text.toList) = [Percent.encode text.toList] :=
    pieces_eq_singleton (Percent.encode_ne_nil (by simpa using htext))
      (Percent.not_mem_encode_of_delimiter (by decide) text.toList)
  have hread : decodeSegment (.ofList (Percent.encode text.toList)) = .ok text :=
    decodeSegment_encodeText text
  rw [Path.segments, String.toList_ofList] at h ⊢
  rw [pieces_append_slash, hpiece, List.mapM_append, h]
  simp only [List.mapM_cons, List.mapM_nil, hread, bind, Except.bind]
  rfl

end Path

namespace Identifier

theorem ofDataPath_eq_ok_iff {path : String} {identifier : Identifier} :
    ofDataPath path = .ok identifier ↔ ∃ segments elements, Path.segments path = .ok segments
      ∧ elementsOf none segments = .ok elements ∧ identifier = { elements } := by
  rw [ofDataPath, bind_eq_ok_iff]
  constructor
  · rintro ⟨segments, hsegments, h⟩
    obtain ⟨elements, helements, heq⟩ := bind_eq_ok_iff.mp h
    exact ⟨segments, elements, hsegments, helements, (Except.ok.inj heq).symm⟩
  · rintro ⟨segments, elements, hsegments, helements, rfl⟩
    exact ⟨segments, hsegments, bind_eq_ok_iff.mpr ⟨elements, helements, rfl⟩⟩

theorem isPathFault_of_ofDataPath {path : String} {fault : Fault}
    (h : ofDataPath path = .error fault) : fault.IsPathFault := by
  rcases bind_eq_error_iff.mp h with h | ⟨segments, -, h⟩
  · exact Path.isPathFault_of_segments h
  · rcases bind_eq_error_iff.mp h with h | ⟨elements, -, h⟩
    · exact isPathFault_of_elementsOf h
    · cases h

/-- The element that a label is read as: a single instance in the namespace in force. -/
theorem parse_of_isLabel {inherited : Option String} {name : String} (h : IsLabel name.toList) :
    Element.parse inherited name
      = .ok { name, space := inherited, kind := .single, keys := [] } := by
  have hsegment : (⟨none, name.toList, none⟩ : Segment).IsWellFormed :=
    ⟨fun _ hspace => absurd hspace (Option.some_ne_none _).symm, h, (Option.some_ne_none _).symm⟩
  have htext : Segment.text ⟨none, name.toList, none⟩ = name.toList := by simp [Segment.text]
  have hdivided := Segment.ofText_text hsegment
  rw [htext] at hdivided
  rw [Element.parse_eq_ok_iff, hdivided]
  refine ⟨hsegment, ?_⟩
  simp [Element.ofSegment]

/-! ### URIs -/

theorem afterMarker?_eq_some_iff {path rest : List Char} :
    afterMarker? path = some rest
      ↔ path = dataMarker.toList ++ rest ∧ (rest = [] ∨ rest.head? = some '/') := by
  rw [afterMarker?, Option.filter_eq_some_iff, Path.strip?, List.isPrefixOf?_eq_some_iff_append_eq,
    Bool.or_eq_true, decide_eq_true_eq, decide_eq_true_eq]
  exact and_congr_left' eq_comm

/-- A path below a mount point: the mount point, the data marker, and the rest, which is empty or
begins with a slash. -/
def IsBelow (mount path rest : List Char) : Prop :=
  path = mount ++ (dataMarker.toList ++ rest) ∧ (rest = [] ∨ rest.head? = some '/')

/-- **Below its mount point a URI is read as a data path.** -/
theorem ofUri_of_isBelow {root uri : String} {rest : List Char}
    (h : IsBelow (Path.trimSlashes root.toList) (Path.withoutQuery uri.toList) rest) :
    ofUri root uri = (do
      let identifier ← ofDataPath (.ofList rest)
      return { identifier with root := .ofList (Path.trimSlashes root.toList) }) := by
  have hstrip : Path.strip? (Path.trimSlashes root.toList) (Path.withoutQuery uri.toList)
      = some (dataMarker.toList ++ rest) :=
    List.isPrefixOf?_eq_some_iff_append_eq.mpr h.1.symm
  have hmarker : afterMarker? (dataMarker.toList ++ rest) = some rest :=
    afterMarker?_eq_some_iff.mpr ⟨rfl, h.2⟩
  simp only [ofUri, hstrip, hmarker]

/-- **A URI elsewhere is no data resource.** -/
theorem ofUri_of_not_isBelow {root uri : String}
    (h : ∀ rest, ¬ IsBelow (Path.trimSlashes root.toList) (Path.withoutQuery uri.toList) rest) :
    ∃ detail, ofUri root uri = .error (.notADataResource detail) := by
  rw [ofUri]
  split
  · exact ⟨_, rfl⟩
  · next path hpath =>
    split
    · exact ⟨_, rfl⟩
    · next rest hrest =>
      obtain ⟨rfl, hslash⟩ := afterMarker?_eq_some_iff.mp hrest
      exact absurd ⟨(List.isPrefixOf?_eq_some_iff_append_eq.mp hpath).symm, hslash⟩ (h rest)

/-- **A URI is its mount point, the data marker and a data path**, up to its query. -/
theorem ofUri_eq_ok_iff {root uri : String} {identifier : Identifier} :
    ofUri root uri = .ok identifier ↔ ∃ rest elements,
      Path.withoutQuery uri.toList
          = Path.trimSlashes root.toList ++ (dataMarker.toList ++ rest)
        ∧ (rest = [] ∨ rest.head? = some '/') ∧ ofDataPath (.ofList rest) = .ok { elements }
        ∧ identifier = { root := .ofList (Path.trimSlashes root.toList), elements } := by
  constructor
  · intro h
    by_cases hbelow : ∃ rest,
        IsBelow (Path.trimSlashes root.toList) (Path.withoutQuery uri.toList) rest
    · obtain ⟨rest, hbelow⟩ := hbelow
      rw [ofUri_of_isBelow hbelow] at h
      obtain ⟨found, hfound, heq⟩ := bind_eq_ok_iff.mp h
      have hroot := (isWellFormedPath_of_ofDataPath hfound).2
      exact ⟨rest, found.elements, hbelow.1, hbelow.2, hroot ▸ hfound, (Except.ok.inj heq).symm⟩
    · obtain ⟨detail, hfault⟩ := ofUri_of_not_isBelow (not_exists.mp hbelow)
      rw [hfault] at h
      cases h
  · rintro ⟨rest, elements, hpath, hslash, hfound, rfl⟩
    rw [ofUri_of_isBelow ⟨hpath, hslash⟩, hfound]
    rfl

/-- **Every URI has an identifier or a fault of a path.** -/
theorem isPathFault_of_ofUri {root uri : String} {fault : Fault}
    (h : ofUri root uri = .error fault) : fault.IsPathFault := by
  by_cases hbelow : ∃ rest,
      IsBelow (Path.trimSlashes root.toList) (Path.withoutQuery uri.toList) rest
  · obtain ⟨rest, hbelow⟩ := hbelow
    rw [ofUri_of_isBelow hbelow] at h
    rcases bind_eq_error_iff.mp h with h | ⟨found, -, h⟩
    · exact isPathFault_of_ofDataPath h
    · cases h
  · obtain ⟨detail, hfault⟩ := ofUri_of_not_isBelow (not_exists.mp hbelow)
    rw [hfault] at h
    exact Except.error.inj h ▸ .notADataResource detail

theorem isWellFormedPath_of_ofUri {root uri : String} {identifier : Identifier}
    (h : ofUri root uri = .ok identifier) : IsWellFormedPath identifier.elements := by
  obtain ⟨rest, elements, -, -, hfound, rfl⟩ := ofUri_eq_ok_iff.mp h
  exact (isWellFormedPath_of_ofDataPath hfound).1

/-- The elements of a URI have names. -/
theorem name_ne_of_ofUri {root uri : String} {identifier : Identifier}
    (h : ofUri root uri = .ok identifier) : ∀ element ∈ identifier.elements, element.name ≠ "" := by
  intro element hmem
  have hname := ((isWellFormedPath_of_ofUri h).1 element hmem).name.1
  simpa using hname

end Identifier

namespace Path

theorem withoutQuery_eq_self {uri : List Char} (hquery : '?' ∉ uri) (hfragment : '#' ∉ uri) :
    withoutQuery uri = uri := by
  rw [withoutQuery, List.takeWhile_eq_self_iff]
  intro c hc
  have hne : c ≠ '?' ∧ c ≠ '#' := ⟨fun h => hquery (h ▸ hc), fun h => hfragment (h ▸ hc)⟩
  simpa using hne

end Path

namespace Identifier

/-- **A URI with a name at its end** has one more element, a single instance of that name, unless a
delimiter in the name divides it. -/
theorem ofUri_slash {root uri name : String} {identifier : Identifier} (hquery : '?' ∉ uri.toList)
    (hfragment : '#' ∉ uri.toList) (h : ofUri root uri = .ok identifier)
    (hname : IsLabel name.toList) :
    ofUri root (uri ++ "/" ++ Percent.encodeText name)
      = .ok { identifier with
          elements := identifier.elements
            ++ [⟨name, inForceAfter none identifier.elements, .single, []⟩] } := by
  obtain ⟨rest, elements, hpath, hslash, hfound, rfl⟩ := ofUri_eq_ok_iff.mp h
  obtain ⟨segments, _, hsegments, helements, heq⟩ := ofDataPath_eq_ok_iff.mp hfound
  obtain rfl : elements = _ := congrArg Identifier.elements heq
  rw [Path.withoutQuery_eq_self hquery hfragment] at hpath
  have hlonger : (uri ++ "/" ++ Percent.encodeText name).toList
      = uri.toList ++ '/' :: Percent.encode name.toList := by
    simp [Percent.encodeText]
  have hfree (c : Char) (hc : c ∈ Percent.delimiters) : c ∉ Percent.encode name.toList :=
    Percent.not_mem_encode_of_delimiter hc _
  refine ofUri_eq_ok_iff.mpr ⟨rest ++ '/' :: Percent.encode name.toList, _, ?_, ?_, ?_, rfl⟩
  · rw [hlonger, Path.withoutQuery_eq_self, hpath]
    · simp only [List.append_assoc]
    · simp [hquery, hfree '?' (by decide)]
    · simp [hfragment, hfree '#' (by decide)]
  · rcases hslash with rfl | hslash
    · exact Or.inr rfl
    · refine Or.inr ?_
      rw [List.head?_append, hslash]
      rfl
  · refine ofDataPath_eq_ok_iff.mpr ⟨segments ++ [name], _,
      Path.segments_slash_encode hsegments (by simpa using hname.1), ?_, rfl⟩
    rw [elementsOf_append, helements]
    simp only [elementsOf, parse_of_isLabel hname, bind, Except.bind]
    rfl

end Identifier

end Restconf
