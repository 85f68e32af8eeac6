import Restconf.Resource.Identifier
import Restconf.Proofs.Resource.Segment

/-!
# Data paths written and read again

`Identifier.display` and `Identifier.ofDataPath` are inverse to each other on the lists of elements
that a path can hold, and `ofDataPath` never gives any other list.

## What both directions share

Writer and reader pass the namespace in force from left to right by the same rule,
`Element.inForce`. A namespace is left out exactly where it is the one in force, so the reader finds
it again, with one exception: an element *without* a namespace cannot be written behind one that
has it, since the reader would let it inherit. This is the only condition on a list that is not a
condition on its elements.

Percent escapes play no part in it. They are read before a delimiter is looked for, so what matters
is the segment with its escapes read, `Element.toSegment`.

## Main definitions

* `Identifier.IsWellFormedPath` — the lists of elements that a path can hold
* `Identifier.spelledFrom` — the segments of a list of elements, escapes read

## Main results

* `Identifier.segments_displayFrom`, `Identifier.elementsOf_spelledFrom` — the two stages of reading
* `Identifier.isWellFormedPath_of_elementsOf` — what is read can be held by a path
* `Identifier.dataPath_roundTrip` — the headline
-/

namespace Restconf

/-! ### Segments in their written form -/

namespace Element

variable {inherited : Option String} {element : Element}

theorem decode_keys (keys : List String) :
    Percent.decode ([','].intercalate (keys.map fun key => Percent.encode key.toList))
      = some ([','].intercalate (keys.map String.toList)) := by
  induction keys with
  | nil => rfl
  | cons key keys ih =>
    cases keys with
    | nil => simpa using Percent.decode_encode key.toList
    | cons next keys =>
      simp only [List.map_cons] at ih ⊢
      rw [List.intercalate_cons_cons, List.append_assoc, Percent.decode_encode_append,
        List.cons_append, List.nil_append, Percent.decode_cons_of_ne (by decide), ih,
        List.intercalate_cons_cons]
      simp

theorem decode_spacePrefix (inherited : Option String) (element : Element) (rest : List Char) :
    Percent.decode (element.spacePrefix inherited ++ rest)
      = (Percent.decode rest).map
          (((element.toSegment inherited).declared.map fun space => space ++ [':']).getD [] ++ ·)
      := by
  obtain ⟨name, space, kind, keys⟩ := element
  cases space with
  | none => simp [spacePrefix, toSegment]
  | some space =>
    by_cases hsame : inherited = some space
    · simp [spacePrefix, toSegment, hsame]
    · simp only [spacePrefix, if_neg hsame, toSegment, if_neg (Ne.symm hsame)]
      rw [List.append_assoc, Percent.decode_encode_append, List.cons_append, List.nil_append,
        Percent.decode_cons_of_ne (by decide), Option.map_map]
      simp [Function.comp_def]

/-- Once its escapes are read, the segment of an element is its parts joined. -/
theorem decode_segment (inherited : Option String) (element : Element) :
    Percent.decode (element.segment inherited) = some (element.toSegment inherited).text := by
  have hkeys : Percent.decode element.keySuffix
      = some (((element.toSegment inherited).keys.map fun keys => '=' :: keys).getD []) := by
    rw [keySuffix, toSegment]
    cases element.kind with
    | single => rfl
    | multi =>
      simp only [Option.map_some, Option.getD_some]
      rw [Percent.decode_cons_of_ne (by decide), decode_keys, Option.map_some]
  have hname : Percent.decode (Percent.encode element.name.toList ++ element.keySuffix)
      = some (element.name.toList
        ++ ((element.toSegment inherited).keys.map fun keys => '=' :: keys).getD []) := by
    rw [Percent.decode_encode_append, hkeys, Option.map_some]
  rw [segment, List.append_assoc, decode_spacePrefix, hname, Option.map_some, Segment.text,
    List.append_assoc]
  rfl

theorem notMem_intercalate {c : Char} (hcomma : c ≠ ',') {pieces : List (List Char)}
    (h : ∀ piece ∈ pieces, c ∉ piece) : c ∉ [','].intercalate pieces := by
  induction pieces with
  | nil => simp
  | cons first others ih =>
    have hfirst : c ∉ first := h first List.mem_cons_self
    have hothers := ih fun piece hpiece => h piece (List.mem_cons_of_mem _ hpiece)
    cases others with
    | nil => simpa using hfirst
    | cons second others =>
      rw [List.intercalate_cons_cons]
      simp [hfirst, hcomma, hothers]

/-- A character that is always escaped, and that is no delimiter inside a segment, does not occur in
one. -/
theorem notMem_segment {c : Char} (hescaped : ∀ text, c ∉ Percent.encode text)
    (hcolon : c ≠ ':') (hequals : c ≠ '=') (hcomma : c ≠ ',') (inherited : Option String)
    (element : Element) : c ∉ element.segment inherited := by
  have hspace : c ∉ element.spacePrefix inherited := by
    unfold spacePrefix
    split
    · exact List.not_mem_nil
    · split_ifs
      · exact List.not_mem_nil
      · simp [hescaped, hcolon]
  have hkeys : c ∉ element.keySuffix := by
    unfold keySuffix
    split
    · exact List.not_mem_nil
    · have : c ∉ [','].intercalate (element.keys.map fun key => Percent.encode key.toList) :=
        notMem_intercalate hcomma (by simp [hescaped])
      simpa [hequals] using this
  simp [segment, hspace, hescaped, hkeys]

theorem segment_ne_nil (h : element.name.toList ≠ []) : element.segment inherited ≠ [] := by
  have := Percent.encode_ne_nil h
  simp [segment, this]

end Element

/-! ### Paths -/

namespace Path

theorem pieces_slash (path : List Char) : pieces ('/' :: path) = pieces path := by
  rw [pieces, pieces, List.splitOn_cons_eq_if_modifyHead]
  simp

/-- A piece ends at the next slash, or at the end of the path. -/
theorem pieces_append {piece path : List Char} (hne : piece ≠ []) (hslash : '/' ∉ piece)
    (hpath : path = [] ∨ ∃ rest, path = '/' :: rest) :
    pieces (piece ++ path) = piece :: pieces path := by
  rcases hpath with rfl | ⟨rest, rfl⟩
  · rw [List.append_nil, pieces, List.splitOn_eq_singleton hslash]
    simp [pieces, hne]
  · rw [pieces_slash, pieces, List.splitOn_append_cons_self_of_not_mem hslash, List.filter_cons,
      if_pos (by simpa using hne)]
    rfl

end Path

namespace Identifier

/-- The lists of elements that a path can hold. Behind an element with a namespace each has one. -/
def IsWellFormedPath (elements : List Element) : Prop :=
  (∀ element ∈ elements, element.IsWellFormed)
    ∧ elements.Pairwise fun before after => before.space.isSome → after.space.isSome

instance (elements : List Element) : Decidable (IsWellFormedPath elements) :=
  inferInstanceAs (Decidable (_ ∧ _))

/-- The segments of a list of elements, escapes read, given the namespace in force before them. -/
def spelledFrom (inherited : Option String) : List Element → List String
  | [] => []
  | element :: rest =>
    .ofList (element.toSegment inherited).text :: spelledFrom (element.inForce inherited) rest

/-! ### Reading what was written -/

theorem displayFrom_eq (inherited : Option String) (elements : List Element) :
    displayFrom inherited elements = [] ∨ ∃ rest, displayFrom inherited elements = '/' :: rest := by
  cases elements with
  | nil => exact Or.inl rfl
  | cons element rest => exact Or.inr ⟨_, rfl⟩

/-- **First stage.** The path of a list of elements is cut where its elements were joined. -/
theorem segments_displayFrom {inherited : Option String} {elements : List Element}
    (h : ∀ element ∈ elements, element.IsWellFormed) :
    Path.segments (.ofList (displayFrom inherited elements))
      = .ok (spelledFrom inherited elements) := by
  induction elements generalizing inherited with
  | nil => rfl
  | cons element rest ih =>
    have hrest : Path.segments (.ofList (displayFrom (element.inForce inherited) rest))
        = .ok (spelledFrom (element.inForce inherited) rest) :=
      ih fun e he => h e (List.mem_cons_of_mem _ he)
    have hslash : '/' ∉ element.segment inherited :=
      Element.notMem_segment (Percent.not_mem_encode_of_delimiter (by decide))
        (by decide) (by decide) (by decide) inherited element
    rw [Path.segments, String.toList_ofList] at hrest ⊢
    rw [displayFrom, List.cons_append, Path.pieces_slash,
      Path.pieces_append (Element.segment_ne_nil (h element List.mem_cons_self).name.1)
        hslash (displayFrom_eq _ rest),
      List.mapM_cons, hrest]
    have hread : Path.decodeSegment (.ofList (element.segment inherited))
        = .ok (.ofList (element.toSegment inherited).text) := by
      rw [Path.decodeSegment, Percent.decodeText, String.toList_ofList, Element.decode_segment]
      rfl
    rw [hread]
    rfl

/-- Between the slashes of a path stand segments, so it has no character that they cannot have. -/
theorem notMem_displayFrom {c : Char} (hescaped : ∀ text, c ∉ Percent.encode text)
    (hslash : c ≠ '/') (hcolon : c ≠ ':') (hequals : c ≠ '=') (hcomma : c ≠ ',')
    (inherited : Option String) (elements : List Element) :
    c ∉ displayFrom inherited elements := by
  induction elements generalizing inherited with
  | nil => exact List.not_mem_nil
  | cons element rest ih =>
    have hsegment := Element.notMem_segment hescaped hcolon hequals hcomma inherited element
    simp [displayFrom, hslash, hsegment, ih]

/-- **Second stage.** The segments are read to the elements they were written for. -/
theorem elementsOf_spelledFrom {inherited : Option String} {elements : List Element}
    (h : IsWellFormedPath elements)
    (hinherited : inherited.isSome → ∀ element ∈ elements, element.space.isSome) :
    elementsOf inherited (spelledFrom inherited elements) = .ok elements := by
  induction elements generalizing inherited with
  | nil => rfl
  | cons element rest ih =>
    obtain ⟨hmem, hpair⟩ := h
    obtain ⟨hfirst, hrest⟩ := List.pairwise_cons.mp hpair
    have hread := Element.parse_toSegment (hmem element List.mem_cons_self) fun hsome =>
      hinherited hsome element List.mem_cons_self
    have hsome : (element.inForce inherited).isSome → ∀ e ∈ rest, e.space.isSome := by
      intro hforce e he
      cases hspace : element.space with
      | none =>
        rw [Element.inForce, hspace, Option.none_or] at hforce
        exact hinherited hforce e (List.mem_cons_of_mem _ he)
      | some space => exact hfirst e he (by rw [hspace]; rfl)
    rw [spelledFrom, elementsOf, hread]
    have := ih ⟨fun e he => hmem e (List.mem_cons_of_mem _ he), hrest⟩ hsome
    simp only [bind, Except.bind, this]
    rfl

/-! ### What is read -/

theorem isWellFormedPath_of_elementsOf {inherited : Option String} {texts : List String}
    {elements : List Element}
    (hinherited : ∀ space, inherited = some space → IsLabel space.toList)
    (h : elementsOf inherited texts = .ok elements) :
    IsWellFormedPath elements
      ∧ (inherited.isSome → ∀ element ∈ elements, element.space.isSome) := by
  induction texts generalizing inherited elements with
  | nil =>
    obtain rfl : [] = elements := Except.ok.inj h
    exact ⟨⟨fun _ he => absurd he List.not_mem_nil, List.Pairwise.nil⟩,
      fun _ _ he => absurd he List.not_mem_nil⟩
  | cons text texts ih =>
    rw [elementsOf] at h
    cases hparse : Element.parse inherited text with
    | error fault => rw [hparse] at h; cases h
    | ok element =>
      rw [hparse] at h
      cases htail : elementsOf (element.inForce inherited) texts with
      | error fault =>
        simp only [bind, Except.bind, htail] at h
        cases h
      | ok rest =>
        simp only [bind, Except.bind, htail] at h
        obtain rfl : element :: rest = elements := Except.ok.inj h
        obtain ⟨hwell, hsome⟩ := Element.isWellFormed_of_parse hinherited hparse
        have hforce : ∀ space, element.inForce inherited = some space → IsLabel space.toList := by
          intro space hspace
          rw [Element.inForce] at hspace
          cases hown : element.space with
          | none => rw [hown, Option.none_or] at hspace; exact hinherited space hspace
          | some own =>
            rw [hown, Option.some_or] at hspace
            exact hwell.space space (hown.trans hspace)
        obtain ⟨⟨hmem, hpair⟩, hrest⟩ := ih hforce htail
        refine ⟨⟨List.forall_mem_cons.mpr ⟨hwell, hmem⟩, List.pairwise_cons.mpr ⟨?_, hpair⟩⟩, ?_⟩
        · intro e he hown
          refine hrest ?_ e he
          rw [Element.inForce, Option.isSome_or, hown, Bool.true_or]
        · intro hin
          refine List.forall_mem_cons.mpr ⟨hsome hin, hrest ?_⟩
          rw [Element.inForce, Option.isSome_or, hsome hin, Bool.true_or]

/-! ### Both directions -/

theorem ofDataPath_display {elements : List Element} (h : IsWellFormedPath elements)
    (root : String) : ofDataPath (display { root, elements }) = .ok { elements } := by
  rw [ofDataPath, display, segments_displayFrom h.1]
  have : elementsOf none (spelledFrom none elements) = .ok elements :=
    elementsOf_spelledFrom h fun hsome => by cases hsome
  simp only [bind, Except.bind, ofSegments, this]
  rfl

/-- The identifier of a path has no root, and elements that a path can hold. -/
theorem isWellFormedPath_of_ofDataPath {path : String} {identifier : Identifier}
    (h : ofDataPath path = .ok identifier) :
    IsWellFormedPath identifier.elements ∧ identifier = { elements := identifier.elements } := by
  rw [ofDataPath] at h
  cases hsegments : Path.segments path with
  | error fault => rw [hsegments] at h; cases h
  | ok segments =>
    rw [hsegments] at h
    simp only [bind, Except.bind, ofSegments] at h
    cases helements : elementsOf none segments with
    | error fault => rw [helements] at h; cases h
    | ok elements =>
      rw [helements] at h
      obtain rfl : { elements } = identifier := Except.ok.inj h
      have hnone : ∀ space, (none : Option String) = some space → IsLabel space.toList :=
        fun _ hspace => absurd hspace.symm (Option.some_ne_none _)
      exact ⟨(isWellFormedPath_of_elementsOf hnone helements).1, rfl⟩

/-- **Writing an identifier and reading it again.** A list of elements comes back from its path
exactly if it is one that a path can hold; a path never gives any other list, so reading, writing
and reading again is reading once; and two such lists do not share a path. -/
theorem dataPath_roundTrip :
    (∀ identifier : Identifier,
      (ofDataPath identifier.display).map elements = .ok identifier.elements
        ↔ IsWellFormedPath identifier.elements)
    ∧ (∀ (path : String) (identifier : Identifier), ofDataPath path = .ok identifier →
      IsWellFormedPath identifier.elements ∧ ofDataPath identifier.display = .ok identifier)
    ∧ ∀ a b : List Element, IsWellFormedPath a → IsWellFormedPath b → a ≠ b →
      display { elements := a } ≠ display { elements := b } := by
  refine ⟨fun identifier => ⟨fun h => ?_, fun h => ?_⟩, fun path identifier h => ?_,
    fun a b ha hb hne heq => ?_⟩
  · cases hread : ofDataPath identifier.display with
    | error fault => rw [hread] at h; cases h
    | ok found =>
      rw [hread] at h
      obtain heq : found.elements = identifier.elements := Except.ok.inj h
      rw [← heq]
      exact (isWellFormedPath_of_ofDataPath hread).1
  · rw [ofDataPath_display h identifier.root]
    rfl
  · obtain ⟨hwell, hid⟩ := isWellFormedPath_of_ofDataPath h
    refine ⟨hwell, ?_⟩
    rw [ofDataPath_display hwell identifier.root, ← hid]
  · have hread := ofDataPath_display ha ""
    rw [heq, ofDataPath_display hb ""] at hread
    exact hne (congrArg elements (Except.ok.inj hread)).symm

/-- A path with an inherited namespace, an escaped delimiter inside a key and an empty key. -/
theorem dataPath_roundTrip_keys :
    let identifier : Identifier := { elements := [⟨"top", some "m", .single, []⟩,
      ⟨"list", some "m", .multi, ["a=b/c", "null"]⟩] }
    ofDataPath "/m:top//list=a%3Db%2Fc," = .ok identifier
      ∧ IsWellFormedPath identifier.elements ∧ ofDataPath identifier.display = .ok identifier := by
  intro identifier
  have hread : ofDataPath "/m:top//list=a%3Db%2Fc," = .ok identifier := rfl
  exact ⟨hread, dataPath_roundTrip.2.1 _ identifier hread⟩

end Identifier

end Restconf
