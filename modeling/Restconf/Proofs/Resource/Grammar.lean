import Mathlib.Data.List.Forall2
import Restconf.Proofs.Resource.Uri

/-!
# Segments and their elements

Which lists of segments have elements, what these are, and which segment is to blame if there are
none.

## One division or none

Of the many ways to divide a segment into a namespace, a name and keys at most one is in the
grammar, because neither the namespace nor the name may hold a delimiter. Reading makes one division
(`Segment.ofText`), so it is enough to see that nothing is lost in it: the parts joined again are
the text. Then it finds the one division if there is one, and if it finds another there is none.

## The namespace in force

Reading passes a namespace from left to right. Seen from an element it is the namespace of the
nearest segment that declares one, the element's own segment counted. `Identifier.IsInForceAt` says
it this way, by positions, so that the statement about elements does not repeat the loop.

## Main definitions

* `Segment.IsDivisionOf` — the division of a text that the grammar allows
* `Identifier.IsInForceAt` — the namespace in force at a segment
* `Element.IsOf` — what the parts of a segment say about its element

## Main results

* `Segment.isDivisionOf_iff` — the only division that comes into question
* `Identifier.elementsOf_eq_ok_iff`, `Identifier.elementsOf_eq_error_iff` — what is read, and what
  is not
* `Identifier.ofSegments_grammar` — the headline
-/

namespace Restconf

/-! ### Divisions -/

namespace Segment

variable {segment other : Segment} {t : String}

/-- The parts of a text, divided as the grammar allows. -/
structure IsDivisionOf (segment : Segment) (t : String) : Prop where
  wellFormed : segment.IsWellFormed
  joined : segment.text = t.toList

theorem joined_splitNamespace (t : List Char) :
    ((splitNamespace t).1.map fun space => space ++ [':']).getD [] ++ (splitNamespace t).2 = t := by
  unfold splitNamespace
  split
  · next space rest hcut =>
    split
    · rfl
    · obtain ⟨rfl, -⟩ := eq_of_cut_eq_some hcut
      simp
  · rfl

/-- **Nothing is lost in a division.** -/
theorem text_ofText (t : List Char) : (ofText t).text = t := by
  have hjoined := joined_splitNamespace t
  unfold ofText
  generalize splitNamespace t = parts at hjoined
  obtain ⟨declared, rest⟩ := parts
  dsimp only at hjoined ⊢
  split
  · next name keys hcut =>
    obtain ⟨rfl, -⟩ := eq_of_cut_eq_some hcut
    rw [← hjoined, text, List.append_assoc]
    rfl
  · rw [← hjoined, text, Option.map_none, Option.getD_none, List.append_nil]

theorem isDivisionOf_iff :
    segment.IsDivisionOf t ↔ (ofText t.toList).IsWellFormed ∧ segment = ofText t.toList := by
  constructor
  · rintro ⟨hwell, hjoined⟩
    rw [← hjoined, ofText_text hwell]
    exact ⟨hwell, rfl⟩
  · rintro ⟨hwell, rfl⟩
    exact ⟨hwell, text_ofText _⟩

/-- A text has one division or none. -/
theorem IsDivisionOf.eq (h : segment.IsDivisionOf t) (hother : other.IsDivisionOf t) :
    segment = other :=
  (isDivisionOf_iff.mp h).2.trans (isDivisionOf_iff.mp hother).2.symm

/-- A text has no division exactly if its parts break a rule. -/
theorem exists_flaw_iff :
    (∃ flaw, (ofText t.toList).flaw? = some flaw)
      ↔ ¬ ∃ segment : Segment, segment.IsDivisionOf t := by
  simp only [isDivisionOf_iff, exists_and_left, exists_eq, and_true, ← flaw?_eq_none_iff]
  exact Option.ne_none_iff_exists'.symm

end Segment

/-! ### Elements -/

namespace Element

variable {inherited : Option String} {t : String}

theorem parse_eq_ok_iff_division {element : Element} :
    parse inherited t = .ok element
      ↔ ∃ segment : Segment, segment.IsDivisionOf t ∧ element = ofSegment inherited segment := by
  simp only [parse_eq_ok_iff, Segment.isDivisionOf_iff, and_assoc, exists_and_left, exists_eq_left]

theorem parse_eq_error_iff {fault : Fault} :
    parse inherited t = .error fault ↔ ∃ flaw, (Segment.ofText t.toList).flaw? = some flaw
      ∧ fault = .malformedSegment t flaw.reason := by
  rw [parse]
  cases (Segment.ofText t.toList).flaw? with
  | none => simp
  | some flaw => simp [eq_comm]

/-- What the parts of a segment say about its element, given the namespace in force. The keys are
the pieces between the commas, an empty one read as `null`. -/
structure IsOf (element : Element) (segment : Segment) (space : Option String) : Prop where
  name : element.name = .ofList segment.name
  space : element.space = space
  single : segment.keys = none → element.kind = .single ∧ element.keys = []
  multi : ∀ text, segment.keys = some text → element.kind = .multi
    ∧ ∃ pieces, pieces ≠ [] ∧ [','].intercalate pieces = text ∧ (∀ piece ∈ pieces, ',' ∉ piece)
      ∧ element.keys = pieces.map fun piece => if piece = [] then "null" else .ofList piece

theorem isOf_ofSegment (inherited : Option String) (segment : Segment) :
    (ofSegment inherited segment).IsOf segment (ofSegment inherited segment).space := by
  refine ⟨rfl, rfl, fun hkeys => ?_, fun text hkeys => ?_⟩
  · simp [ofSegment, hkeys]
  · refine ⟨by simp [ofSegment, hkeys], text.splitOn ',', List.splitOn_ne_nil _ _,
      List.intercalate_splitOn _, fun piece => notMem_of_mem_splitOn, ?_⟩
    simp [ofSegment, hkeys, keysOf, nullKey]

end Element

namespace Identifier

/-! ### The namespace in force -/

/-- The namespace that a segment of a list declares. -/
def declaredAt (segments : List Segment) (i : Nat) : Option (List Char) :=
  segments[i]?.bind Segment.declared

/-- The namespace in force at a segment: the one that the nearest segment declares, or the one
inherited by all where no segment so far declares any. -/
inductive IsInForceAt (inherited : Option String) (segments : List Segment) (i : Nat) :
    Option String → Prop where
  | declared {j : Nat} {label : List Char} (reached : j ≤ i)
      (declares : declaredAt segments j = some label)
      (nearest : ∀ k, j < k → k ≤ i → declaredAt segments k = none) :
      IsInForceAt inherited segments i (some (.ofList label))
  | inherited (silent : ∀ k ≤ i, declaredAt segments k = none) :
      IsInForceAt inherited segments i inherited

section InForce

variable {inherited : Option String} {segment : Segment} {segments : List Segment} {i : Nat}

theorem isInForceAt_zero (inherited : Option String) (segment : Segment)
    (segments : List Segment) :
    IsInForceAt inherited (segment :: segments) 0
      (Element.ofSegment inherited segment).space := by
  rw [Element.ofSegment]
  cases hdeclared : segment.declared with
  | none =>
    refine .inherited fun k hk => ?_
    obtain rfl := Nat.le_zero.mp hk
    exact hdeclared
  | some label => exact .declared le_rfl hdeclared fun k hpos hk => by omega

/-- The first segment is all that the others see of what stands in front of them. -/
theorem IsInForceAt.cons {space : Option String}
    (h : IsInForceAt (Element.ofSegment inherited segment).space segments i space) :
    IsInForceAt inherited (segment :: segments) (i + 1) space := by
  have later {j : Nat} (hsilent : ∀ k, j < k → k ≤ i + 1 → 0 < k →
      declaredAt segments (k - 1) = none) (k : Nat) (hj : j < k) (hk : k ≤ i + 1) :
      declaredAt (segment :: segments) k = none := by
    obtain ⟨k, rfl⟩ := Nat.exists_eq_add_one_of_ne_zero (show k ≠ 0 by omega)
    exact hsilent (k + 1) hj hk k.succ_pos
  cases h with
  | @declared j label reached declares nearest =>
    exact .declared (Nat.succ_le_succ reached) declares
      (later fun k hj hk _ => nearest (k - 1) (by omega) (by omega))
  | inherited silent =>
    have hlater := later (j := 0) fun k _ hk _ => silent (k - 1) (by omega)
    rw [Element.ofSegment]
    cases hdeclared : segment.declared with
    | none =>
      refine .inherited fun k hk => ?_
      rcases Nat.eq_zero_or_pos k with rfl | hpos
      · exact hdeclared
      · exact hlater k hpos hk
    | some label => exact .declared (Nat.zero_le _) hdeclared hlater

end InForce

/-! ### Lists of segments -/

section Lists

variable {inherited : Option String} {texts : List String}

/-- The elements of divided segments. -/
def elementsFrom (inherited : Option String) : List Segment → List Element
  | [] => []
  | segment :: segments =>
    let element := Element.ofSegment inherited segment
    element :: elementsFrom element.space segments

/-- An element that inherits its namespace leaves it in force, and so does one that has its own. -/
theorem inForce_ofSegment (inherited : Option String) (segment : Segment) :
    (Element.ofSegment inherited segment).inForce inherited
      = (Element.ofSegment inherited segment).space := by
  rw [Element.inForce, Element.ofSegment]
  cases segment.declared <;> simp

theorem elementsOf_eq_ok_iff {elements : List Element} :
    elementsOf inherited texts = .ok elements ↔ ∃ segments,
      List.Forall₂ (fun text segment => segment.IsDivisionOf text) texts segments
        ∧ elements = elementsFrom inherited segments := by
  induction texts generalizing inherited elements with
  | nil =>
    simp only [elementsOf, List.forall₂_nil_left_iff, exists_eq_left, elementsFrom]
    exact ⟨fun h => (Except.ok.inj h).symm, fun h => congrArg Except.ok h.symm⟩
  | cons text texts ih =>
    rw [elementsOf, bind_eq_ok_iff]
    simp only [Element.parse_eq_ok_iff_division, List.forall₂_cons_left_iff]
    constructor
    · rintro ⟨_, ⟨segment, hsegment, rfl⟩, h⟩
      obtain ⟨rest, hrest, heq⟩ := bind_eq_ok_iff.mp h
      rw [inForce_ofSegment] at hrest
      obtain ⟨segments, hsegments, rfl⟩ := ih.mp hrest
      exact ⟨segment :: segments, ⟨segment, segments, hsegment, hsegments, rfl⟩,
        (Except.ok.inj heq).symm⟩
    · rintro ⟨_, ⟨segment, segments, hsegment, hsegments, rfl⟩, rfl⟩
      refine ⟨_, ⟨segment, hsegment, rfl⟩, bind_eq_ok_iff.mpr ⟨_, ?_, rfl⟩⟩
      rw [inForce_ofSegment]
      exact ih.mpr ⟨segments, hsegments, rfl⟩

/-- Segments can be divided one by one. -/
theorem exists_divisions_iff :
    (∃ segments : List Segment,
      List.Forall₂ (fun text segment => segment.IsDivisionOf text) texts segments)
      ↔ ∀ text ∈ texts, ∃ segment : Segment, segment.IsDivisionOf text := by
  induction texts with
  | nil => simp
  | cons text texts ih =>
    simp only [List.forall_mem_cons, ← ih, List.forall₂_cons_left_iff]
    constructor
    · rintro ⟨_, segment, segments, hsegment, hsegments, rfl⟩
      exact ⟨⟨segment, hsegment⟩, segments, hsegments⟩
    · rintro ⟨⟨segment, hsegment⟩, segments, hsegments⟩
      exact ⟨_, segment, segments, hsegment, hsegments, rfl⟩

theorem elementsOf_eq_error_iff {fault : Fault} :
    elementsOf inherited texts = .error fault ↔ ∃ before text after flaw,
      texts = before ++ text :: after
        ∧ (∀ other ∈ before, ∃ segment : Segment, segment.IsDivisionOf other)
        ∧ (Segment.ofText text.toList).flaw? = some flaw
        ∧ fault = .malformedSegment text flaw.reason := by
  induction texts generalizing inherited with
  | nil =>
    constructor
    · intro h
      cases h
    · rintro ⟨before, text, after, flaw, heq, -⟩
      simp at heq
  | cons first texts ih =>
    rw [elementsOf, bind_eq_error_iff]
    constructor
    · rintro (h | ⟨element, helement, h⟩)
      · obtain ⟨flaw, hflaw, rfl⟩ := Element.parse_eq_error_iff.mp h
        exact ⟨[], first, texts, flaw, rfl, fun _ hmem => absurd hmem List.not_mem_nil, hflaw, rfl⟩
      · obtain ⟨segment, hsegment, -⟩ := Element.parse_eq_ok_iff_division.mp helement
        rcases bind_eq_error_iff.mp h with h | ⟨elements, -, h⟩
        · obtain ⟨before, text, after, flaw, rfl, hbefore, hflaw, rfl⟩ := ih.mp h
          exact ⟨first :: before, text, after, flaw, rfl,
            List.forall_mem_cons.mpr ⟨⟨segment, hsegment⟩, hbefore⟩, hflaw, rfl⟩
        · cases h
    · rintro ⟨before, text, after, flaw, heq, hbefore, hflaw, rfl⟩
      cases before with
      | nil =>
        obtain ⟨rfl, rfl⟩ := List.cons.inj heq
        exact Or.inl (Element.parse_eq_error_iff.mpr ⟨flaw, hflaw, rfl⟩)
      | cons _ before =>
        obtain ⟨rfl, rfl⟩ := List.cons.inj heq
        obtain ⟨⟨segment, hsegment⟩, hbefore⟩ := List.forall_mem_cons.mp hbefore
        exact Or.inr ⟨_, Element.parse_eq_ok_iff_division.mpr ⟨segment, hsegment, rfl⟩,
          bind_eq_error_iff.mpr
            (Or.inl (ih.mpr ⟨before, text, after, flaw, rfl, hbefore, hflaw, rfl⟩))⟩

/-- **Each element is of its own segment and in the namespace in force there.** -/
theorem isOf_of_getElem? {segments : List Segment} {i : Nat} {segment : Segment} {element : Element}
    (hsegment : segments[i]? = some segment)
    (helement : (elementsFrom inherited segments)[i]? = some element) :
    ∃ space, IsInForceAt inherited segments i space ∧ element.IsOf segment space := by
  induction segments generalizing inherited i with
  | nil => cases hsegment
  | cons first segments ih =>
    cases i with
    | zero =>
      obtain rfl := Option.some.inj hsegment
      obtain rfl := Option.some.inj helement
      exact ⟨_, isInForceAt_zero inherited first segments, Element.isOf_ofSegment inherited first⟩
    | succ i =>
      obtain ⟨space, hspace, hof⟩ := ih hsegment helement
      exact ⟨space, hspace.cons, hof⟩

theorem length_elementsFrom (segments : List Segment) :
    (elementsFrom inherited segments).length = segments.length := by
  induction segments generalizing inherited with
  | nil => rfl
  | cons segment segments ih => rw [elementsFrom, List.length_cons, List.length_cons, ih]

end Lists

/-- **The grammar of segments.** A list of segments has elements exactly if each segment has a
division that the grammar allows. The division is then unique, there is one element for each
segment, and it is as the parts of its segment say, in the namespace of the nearest segment that
declares one. Otherwise the first segment without a division is to blame, for the first rule that
it breaks. -/
theorem ofSegments_grammar (inherited : Option String) (texts : List String) :
    ((∃ identifier, ofSegments inherited texts = .ok identifier)
      ↔ ∀ text ∈ texts, ∃ segment : Segment, segment.IsDivisionOf text)
    ∧ (∀ (text : String) (segment other : Segment), segment.IsDivisionOf text →
      other.IsDivisionOf text → segment = other)
    ∧ (∀ identifier, ofSegments inherited texts = .ok identifier → ∃ segments,
      List.Forall₂ (fun text segment => segment.IsDivisionOf text) texts segments
        ∧ identifier.root = "" ∧ identifier.elements.length = segments.length
        ∧ ∀ i segment element, segments[i]? = some segment →
          identifier.elements[i]? = some element →
          ∃ space, IsInForceAt inherited segments i space ∧ element.IsOf segment space)
    ∧ ∀ fault, ofSegments inherited texts = .error fault → ∃ before text after flaw,
      texts = before ++ text :: after
        ∧ (∀ other ∈ before, ∃ segment : Segment, segment.IsDivisionOf other)
        ∧ (¬ ∃ segment : Segment, segment.IsDivisionOf text)
        ∧ (Segment.ofText text.toList).flaw? = some flaw
        ∧ fault = .malformedSegment text flaw.reason := by
  refine ⟨⟨?_, fun hall => ?_⟩, fun text segment other h hother => h.eq hother,
    fun identifier h => ?_, fun fault h => ?_⟩
  · rintro ⟨identifier, h⟩
    obtain ⟨elements, helements, -⟩ := bind_eq_ok_iff.mp h
    obtain ⟨segments, hsegments, -⟩ := elementsOf_eq_ok_iff.mp helements
    exact exists_divisions_iff.mp ⟨segments, hsegments⟩
  · obtain ⟨segments, hsegments⟩ := exists_divisions_iff.mpr hall
    exact ⟨_, bind_eq_ok_iff.mpr ⟨_, elementsOf_eq_ok_iff.mpr ⟨segments, hsegments, rfl⟩, rfl⟩⟩
  · obtain ⟨elements, helements, heq⟩ := bind_eq_ok_iff.mp h
    obtain ⟨segments, hsegments, rfl⟩ := elementsOf_eq_ok_iff.mp helements
    obtain rfl := Except.ok.inj heq
    exact ⟨segments, hsegments, rfl, length_elementsFrom segments,
      fun i segment element => isOf_of_getElem?⟩
  · rcases bind_eq_error_iff.mp h with h | ⟨elements, -, h⟩
    · obtain ⟨before, text, after, flaw, htexts, hbefore, hflaw, hfault⟩ :=
        elementsOf_eq_error_iff.mp h
      exact ⟨before, text, after, flaw, htexts, hbefore,
        Segment.exists_flaw_iff.mp ⟨flaw, hflaw⟩, hflaw, hfault⟩
    · cases h

/-- A namespace inherited from outside, one declared on the way and passed on, keys with further
delimiters in them and an empty one; and a list whose second segment is the first without a name. -/
theorem ofSegments_grammar_keys :
    let texts := ["a", "ns:b=1,,x:y=z", "c"]
    let identifier : Identifier := { elements := [⟨"a", some "m", .single, []⟩,
      ⟨"b", some "ns", .multi, ["1", "null", "x:y=z"]⟩, ⟨"c", some "ns", .single, []⟩] }
    ofSegments (some "m") texts = .ok identifier
      ∧ (∀ text ∈ texts, ∃ segment : Segment, segment.IsDivisionOf text)
      ∧ (∃ segments : List Segment,
        List.Forall₂ (fun text segment => segment.IsDivisionOf text) texts segments
        ∧ ∀ segment, segments[2]? = some segment →
          ∃ space, IsInForceAt (some "m") segments 2 space
            ∧ (⟨"c", some "ns", .single, []⟩ : Element).IsOf segment space)
      ∧ ∃ (before : List String) (text : String) (after : List String) (flaw : SegmentFlaw),
        ["a", "n:=1", ":b"] = before ++ text :: after
        ∧ (¬ ∃ segment : Segment, segment.IsDivisionOf text)
        ∧ ofSegments none ["a", "n:=1", ":b"] = .error (.malformedSegment text flaw.reason) := by
  intro texts identifier
  have hread : ofSegments (some "m") texts = .ok identifier := rfl
  have hfault : ofSegments none ["a", "n:=1", ":b"]
      = .error (.malformedSegment "n:=1" "empty node name") := rfl
  obtain ⟨hiff, -, hok, -⟩ := ofSegments_grammar (some "m") texts
  obtain ⟨segments, hsegments, -, -, hof⟩ := hok identifier hread
  obtain ⟨before, text, after, flaw, htexts, -, hnone, -, heq⟩ :=
    (ofSegments_grammar none ["a", "n:=1", ":b"]).2.2.2 _ hfault
  exact ⟨hread, hiff.mp ⟨identifier, hread⟩,
    ⟨segments, hsegments, fun segment hsegment => hof 2 segment _ hsegment rfl⟩,
    before, text, after, flaw, htexts, hnone, hfault.trans (congrArg Except.error heq)⟩

end Identifier

end Restconf
