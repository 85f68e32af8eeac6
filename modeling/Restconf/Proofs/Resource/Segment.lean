import Restconf.Resource.Element
import Restconf.Proofs.Text.Percent
import Mathlib.Tactic.SplitIfs

/-!
# The grammar of segments

A segment that breaks no rule divides at its delimiters in one way only, and the element that is
read from it says the same as its three parts.

## The distinction that decides it

A colon belongs to the namespace only in front of the first equals sign. Behind it a colon is part
of a key, and so is a second equals sign. The division of a segment is therefore decided by the
*name*: once neither the namespace nor the name has a delimiter in it, the keys are free.

## Main definitions

* `IsLabel` — a text that can be a name or a namespace
* `Segment.text` — the three parts of a segment joined again
* `Segment.IsWellFormed`, `Element.IsWellFormed` — the grammar, of a segment and of an element
* `Element.toSegment` — the parts that stand for an element, given the namespace in force

## Main results

* `Segment.ofText_text`, `Segment.flaw?_eq_none_iff` — the division is unique, and breaks no rule
  exactly if it is well formed
* `Element.parse_toSegment` — an element is read back from its segment
* `Element.isWellFormed_of_parse` — nothing else is ever read
-/

namespace Restconf

/-! ### Dividing at a character -/

theorem cut_append_of_notMem {separator : Char} {before : List Char} (h : separator ∉ before)
    (rest : List Char) :
    cut separator (before ++ rest)
      = (cut separator rest).map fun parts => (before ++ parts.1, parts.2) := by
  induction before with
  | nil => simp
  | cons c before ih =>
    rw [List.mem_cons, not_or] at h
    rw [List.cons_append, cut, if_neg (Ne.symm h.1), ih h.2, Option.map_map]
    rfl

/-- The parts of a text put together give the text, and the separator is not in the first. -/
theorem eq_of_cut_eq_some {separator : Char} {text before after : List Char}
    (h : cut separator text = some (before, after)) :
    text = before ++ separator :: after ∧ separator ∉ before := by
  induction text generalizing before with
  | nil => rw [cut] at h; exact absurd h (by simp)
  | cons c text ih =>
    rw [cut] at h
    split at h
    · next hc =>
      obtain ⟨rfl, rfl⟩ : [] = before ∧ text = after := by simpa using h
      exact ⟨by rw [hc, List.nil_append], List.not_mem_nil⟩
    · next hc =>
      obtain ⟨⟨first, second⟩, hcut, heq⟩ := Option.map_eq_some_iff.mp h
      obtain ⟨rfl, rfl⟩ : c :: first = before ∧ second = after := by simpa using heq
      obtain ⟨rfl, hfirst⟩ := ih hcut
      refine ⟨rfl, fun hmem => ?_⟩
      rcases List.mem_cons.mp hmem with rfl | hmem
      · exact hc rfl
      · exact hfirst hmem

/-- The pieces of a text are made of its characters, without the separators. -/
theorem ne_and_mem_of_mem_splitOn {separator c : Char} {text piece : List Char}
    (h : piece ∈ text.splitOn separator) (hc : c ∈ piece) : c ≠ separator ∧ c ∈ text := by
  induction text generalizing piece with
  | nil => simp_all
  | cons d text ih =>
    rw [List.splitOn_cons_eq_if_modifyHead] at h
    obtain ⟨first, others, hsplit⟩ :=
      List.exists_cons_of_ne_nil (List.splitOn_ne_nil separator text)
    rw [hsplit] at h ih
    have hrest {other : List Char} (hother : other ∈ first :: others) (hc : c ∈ other) :
        c ≠ separator ∧ c ∈ d :: text := (ih hother hc).imp_right (List.mem_cons_of_mem d)
    split at h
    · rcases List.mem_cons.mp h with rfl | h
      · cases hc
      · exact hrest h hc
    · next hd =>
      rw [List.modifyHead_cons] at h
      rcases List.mem_cons.mp h with rfl | h
      · rcases List.mem_cons.mp hc with rfl | hc
        · exact ⟨fun heq => hd (by rw [heq, beq_self_eq_true]), List.mem_cons_self⟩
        · exact hrest List.mem_cons_self hc
      · exact hrest (List.mem_cons_of_mem _ h) hc

theorem notMem_of_mem_splitOn {separator : Char} {text piece : List Char}
    (h : piece ∈ text.splitOn separator) : separator ∉ piece :=
  fun hmem => (ne_and_mem_of_mem_splitOn h hmem).1 rfl

/-! ### Segments -/

/-- A text that can be a name or a namespace: not empty, and without the delimiters in front of
which it may stand. -/
def IsLabel (text : List Char) : Prop := text ≠ [] ∧ ':' ∉ text ∧ '=' ∉ text

instance (text : List Char) : Decidable (IsLabel text) :=
  inferInstanceAs (Decidable (_ ∧ _ ∧ _))

namespace Segment

/-- The parts of a segment, joined by their delimiters. -/
def text (segment : Segment) : List Char :=
  (segment.declared.map fun space => space ++ [':']).getD [] ++ segment.name
    ++ (segment.keys.map fun keys => '=' :: keys).getD []

/-- The grammar `[namespace ":"] name ["=" keys]`. -/
structure IsWellFormed (segment : Segment) : Prop where
  declared : ∀ space, segment.declared = some space → IsLabel space
  name : IsLabel segment.name
  keys : segment.keys ≠ some []

/-- A colon behind the first equals sign is no delimiter. -/
theorem splitNamespace_name {name : List Char} (h : IsLabel name) (keys : Option (List Char)) :
    splitNamespace (name ++ (keys.map fun keys => '=' :: keys).getD [])
      = (none, name ++ (keys.map fun keys => '=' :: keys).getD []) := by
  rw [splitNamespace, cut_append_of_notMem h.2.1]
  cases keys with
  | none => rfl
  | some keys =>
    rw [Option.map_some, Option.getD_some, cut, if_neg (by decide)]
    cases cut ':' keys with
    | none => rfl
    | some parts => simp

theorem splitNamespace_declared {space : List Char} (h : IsLabel space) (rest : List Char) :
    splitNamespace (space ++ ':' :: rest) = (some space, rest) := by
  rw [splitNamespace, cut_append_cons h.2.1]
  exact if_neg h.2.2

/-- Behind the namespace, the first equals sign ends the name. -/
theorem cut_name {name : List Char} (h : IsLabel name) (keys : Option (List Char)) :
    cut '=' (name ++ (keys.map fun keys => '=' :: keys).getD [])
      = keys.map fun keys => (name, keys) := by
  cases keys with
  | none =>
    rw [Option.map_none, Option.getD_none, List.append_nil, Option.map_none, cut_eq_none_iff]
    exact h.2.2
  | some keys => exact cut_append_cons h.2.2 keys

/-- **The division of a segment is unique.** -/
theorem ofText_text {segment : Segment} (h : segment.IsWellFormed) :
    ofText segment.text = segment := by
  obtain ⟨declared, name, keys⟩ := segment
  have split : splitNamespace (text ⟨declared, name, keys⟩)
      = (declared, name ++ (keys.map fun keys => '=' :: keys).getD []) := by
    cases declared with
    | none => exact splitNamespace_name h.name keys
    | some space =>
      have := splitNamespace_declared (h.declared space rfl)
        (name ++ (keys.map fun keys => '=' :: keys).getD [])
      simpa [text] using this
  rw [ofText, split]
  simp only [cut_name h.name]
  cases keys with
  | none => rw [Option.map_none, Option.map_none, Option.getD_none, List.append_nil]
  | some keys => rfl

theorem splitNamespace_spec (t : List Char) :
    (splitNamespace t).1.elim True (fun space => ':' ∉ space ∧ '=' ∉ space) := by
  unfold splitNamespace
  split
  · next space rest hcut =>
    split
    · exact trivial
    · next hmem => exact ⟨(eq_of_cut_eq_some hcut).2, hmem⟩
  · exact trivial

/-- What a text is divided into never has a delimiter where the next part begins. -/
theorem free_of_ofText (t : List Char) :
    (∀ space, (ofText t).declared = some space → ':' ∉ space ∧ '=' ∉ space)
      ∧ '=' ∉ (ofText t).name := by
  have hspec := splitNamespace_spec t
  unfold ofText
  split
  next declared rest hsplit =>
  rw [hsplit] at hspec
  split
  · next name keys hcut =>
    refine ⟨fun space hspace => ?_, (eq_of_cut_eq_some hcut).2⟩
    obtain rfl : declared = some space := hspace
    exact hspec
  · next hcut =>
    refine ⟨fun space hspace => ?_, cut_eq_none_iff.mp hcut⟩
    obtain rfl : declared = some space := hspace
    exact hspec

/-- **The rules are the grammar.** What a text is divided into breaks none of them exactly if it is
well formed. -/
theorem flaw?_eq_none_iff (t : List Char) :
    (ofText t).flaw? = none ↔ (ofText t).IsWellFormed := by
  obtain ⟨hdeclared, hname⟩ := free_of_ofText t
  constructor
  · intro h
    unfold flaw? at h
    split_ifs at h with h₁ h₂ h₃ h₄
    refine ⟨fun space hspace => ⟨?_, hdeclared space hspace⟩, ⟨h₂, h₃, hname⟩, h₄⟩
    rintro rfl
    exact h₁ hspace
  · intro h
    unfold flaw?
    rw [if_neg fun he => (h.declared [] he).1 rfl, if_neg h.name.1, if_neg h.name.2.1,
      if_neg h.keys]

end Segment

/-! ### Elements -/

namespace Element

/-- What a path can hold: names and namespaces are labels, a single instance has no keys, and the
keys of a multiple instance can be told apart. -/
structure IsWellFormed (element : Element) : Prop where
  name : IsLabel element.name.toList
  space : ∀ space, element.space = some space → IsLabel space.toList
  single : element.kind = .single → element.keys = []
  multi : element.kind = .multi → element.keys ≠ []
  keys : ∀ key ∈ element.keys, key ≠ "" ∧ ',' ∉ key.toList

instance (element : Element) : Decidable element.IsWellFormed :=
  decidable_of_iff
    (IsLabel element.name.toList ∧ (∀ space ∈ element.space, IsLabel space.toList)
      ∧ (element.kind = .single → element.keys = []) ∧ (element.kind = .multi → element.keys ≠ [])
      ∧ ∀ key ∈ element.keys, key ≠ "" ∧ ',' ∉ key.toList)
    ⟨fun ⟨name, space, single, multi, keys⟩ => ⟨name, space, single, multi, keys⟩,
      fun h => ⟨h.name, h.space, h.single, h.multi, h.keys⟩⟩

/-- The parts of the segment that stands for an element. -/
def toSegment (inherited : Option String) (element : Element) : Segment where
  declared :=
    if element.space = inherited then none else element.space.map String.toList
  name := element.name.toList
  keys :=
    match element.kind with
    | .single => none
    | .multi => some ([','].intercalate (element.keys.map String.toList))

/-- The element that a segment stands for. -/
def ofSegment (inherited : Option String) (segment : Segment) : Element where
  name := .ofList segment.name
  space := (segment.declared.map String.ofList).or inherited
  kind := if segment.keys.isSome then .multi else .single
  keys := (segment.keys.map keysOf).getD []

theorem parse_eq_ok_iff {inherited : Option String} {t : String} {element : Element} :
    parse inherited t = .ok element ↔
      (Segment.ofText t.toList).IsWellFormed
        ∧ element = ofSegment inherited (Segment.ofText t.toList) := by
  rw [← Segment.flaw?_eq_none_iff, parse]
  cases (Segment.ofText t.toList).flaw? with
  | none =>
    simp only [true_and]
    exact ⟨fun h => (Except.ok.inj h).symm, fun h => congrArg Except.ok h.symm⟩
  | some flaw => simp

/-! ### Keys -/

theorem intercalate_ne_nil {pieces : List (List Char)} (hne : pieces ≠ [])
    (h : ∀ piece ∈ pieces, piece ≠ []) : [','].intercalate pieces ≠ [] := by
  obtain ⟨first, others, rfl⟩ := List.exists_cons_of_ne_nil hne
  have hfirst : first ≠ [] := h first List.mem_cons_self
  cases others with
  | nil => simpa using hfirst
  | cons second others =>
    rw [List.intercalate_cons_cons]
    simp [hfirst]

theorem keysOf_intercalate {keys : List String} (hne : keys ≠ [])
    (h : ∀ key ∈ keys, key ≠ "" ∧ ',' ∉ key.toList) :
    keysOf ([','].intercalate (keys.map String.toList)) = keys := by
  have hsplit : ([','].intercalate (keys.map String.toList)).splitOn ','
      = keys.map String.toList := by
    refine List.splitOn_intercalate ',' (fun piece hpiece => ?_) (by simpa using hne)
    obtain ⟨key, hkey, rfl⟩ := List.mem_map.mp hpiece
    exact (h key hkey).2
  rw [keysOf, hsplit, List.map_map]
  refine (List.map_congr_left fun key hkey => ?_).trans (List.map_id keys)
  have hempty : key.toList ≠ [] := by
    simpa using (h key hkey).1
  rw [Function.comp_apply, if_neg hempty, String.ofList_toList, id]

/-- Whatever stands behind the equals sign, the keys read from it can be told apart. -/
theorem keysOf_spec (t : List Char) :
    keysOf t ≠ [] ∧ ∀ key ∈ keysOf t, key ≠ "" ∧ ',' ∉ key.toList := by
  refine ⟨by simp [keysOf], fun key hkey => ?_⟩
  obtain ⟨piece, hpiece, rfl⟩ := List.mem_map.mp hkey
  split
  · exact ⟨by decide, by decide⟩
  · next hne =>
    rw [String.toList_ofList]
    exact ⟨by simpa using hne, notMem_of_mem_splitOn hpiece⟩

/-! ### Reading and writing elements -/

variable {inherited : Option String} {element : Element}

theorem isWellFormed_toSegment (h : element.IsWellFormed) :
    (element.toSegment inherited).IsWellFormed := by
  refine ⟨fun space hspace => ?_, h.name, ?_⟩
  · rw [toSegment] at hspace
    split_ifs at hspace
    obtain ⟨label, hlabel, rfl⟩ := Option.map_eq_some_iff.mp hspace
    exact h.space label hlabel
  · rw [toSegment]
    cases hkind : element.kind with
    | single => exact Option.some_ne_none _ |>.symm
    | multi =>
      intro hkeys
      refine intercalate_ne_nil (by simpa using h.multi hkind) (fun piece hpiece => ?_)
        (Option.some.inj hkeys)
      obtain ⟨key, hkey, rfl⟩ := List.mem_map.mp hpiece
      simpa using (h.keys key hkey).1

/-- A namespace that is left out is the one in force. The only case in which it would not come back
is an element without a namespace behind one that has it. -/
theorem ofSegment_toSegment (h : element.IsWellFormed)
    (hspace : inherited.isSome → element.space.isSome) :
    ofSegment inherited (element.toSegment inherited) = element := by
  obtain ⟨name, space, kind, keys⟩ := element
  have hspace' : (((if space = inherited then none else space.map String.toList).map
      String.ofList).or inherited) = space := by
    split_ifs with hsame
    · rw [hsame]
      rfl
    · cases space with
      | none =>
        cases inherited with
        | none => exact absurd rfl hsame
        | some space => exact absurd (hspace rfl) (by simp)
      | some space => simp
  cases kind with
  | single =>
    have hkeys : keys = [] := h.single rfl
    simp only [ofSegment, toSegment, String.ofList_toList, hspace', hkeys]
    rfl
  | multi =>
    simp only [ofSegment, toSegment, String.ofList_toList, hspace', Option.map_some,
      keysOf_intercalate (h.multi rfl) h.keys]
    rfl

/-- **An element is read back from its segment.** -/
theorem parse_toSegment (h : element.IsWellFormed)
    (hspace : inherited.isSome → element.space.isSome) :
    parse inherited (.ofList (element.toSegment inherited).text) = .ok element := by
  rw [parse_eq_ok_iff, String.toList_ofList, Segment.ofText_text (isWellFormed_toSegment h)]
  exact ⟨isWellFormed_toSegment h, (ofSegment_toSegment h hspace).symm⟩

/-- **Nothing but well-formed elements is ever read.** -/
theorem isWellFormed_of_parse {t : String}
    (hinherited : ∀ space, inherited = some space → IsLabel space.toList)
    (h : parse inherited t = .ok element) :
    element.IsWellFormed ∧ (inherited.isSome → element.space.isSome) := by
  obtain ⟨hsegment, rfl⟩ := parse_eq_ok_iff.mp h
  generalize Segment.ofText t.toList = segment at hsegment
  obtain ⟨declared, name, keys⟩ := segment
  refine ⟨⟨?_, fun space hspace => ?_, fun hkind => ?_, fun hkind => ?_, fun key hkey => ?_⟩,
    fun hsome => ?_⟩
  · simpa [ofSegment] using hsegment.name
  · cases declared with
    | none => exact hinherited space (by simpa [ofSegment] using hspace)
    | some label =>
      obtain rfl : String.ofList label = space := by simpa [ofSegment] using hspace
      simpa using hsegment.declared label rfl
  · cases keys with
    | none => rfl
    | some keys => exact absurd hkind (by simp [ofSegment])
  · cases keys with
    | none => exact absurd hkind (by simp [ofSegment])
    | some keys => exact (keysOf_spec keys).1
  · cases keys with
    | none => exact absurd hkey List.not_mem_nil
    | some keys => exact (keysOf_spec keys).2 key hkey
  · cases declared with
    | none => simpa [ofSegment] using hsome
    | some label => rfl

end Element

end Restconf
