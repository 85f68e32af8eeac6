import Restconf.Proofs.Tree.Script

/-!
# Which documents are trees, and what is blamed in the others

A document is turned into a tree exactly if it is an object whose fields are named and hold nothing
that has no place in a tree. In any other document several things may be wrong, nested in one
another or side by side. The fault names the one that comes first in the document, and it is always
a node type that is not supported.

## What first means

Everything in a document has a position, the way that leads down to it: the place of a field in its
object and then `0` for the name or `1` for the value, or the place of an item in its array.
Positions are compared from above, so that what stands around something comes before it and siblings
come in their order. `Offends` lists everything that is wrong with its position, also what stands
behind or inside of something that is wrong already, and reads nothing of how a tree is built.

## Why every outcome is compared with all offences

The reader goes from left to right and stops at the first fault. `Blames` says of an outcome what
this means for the part that was read: there is nothing wrong in it, or the fault is that of the
first thing that is. In this form the outcomes of the parts give that of the whole, and a row of
fields and the entries of a list are one case, `blames_mapM`.

## Main definitions

* `Json.IsRepresentable` — a value that has a place in a tree
* `Json.Position.NotAfter` — the order of a document
* `Json.Offends`, `Json.IsOffence` — what is wrong, and where

## Main results

* `Json.not_offends_iff` — nothing is wrong with a representable value, and with no other
* `Json.toTree_blames` — the headline
-/

namespace Restconf.Json

/-! ### What has a place in a tree -/

/-- A string or a number. -/
def isText : Json → Bool
  | string _ | number _ => true
  | _ => false

def isObject : Json → Bool
  | object _ => true
  | _ => false

/-- A value that a field may have. -/
inductive IsRepresentable : Json → Prop where
  | string (text : String) : IsRepresentable (.string text)
  | number (n : Number) : IsRepresentable (.number n)
  | bool (b : Bool) : IsRepresentable (.bool b)
  | object {fields : List (String × Json)} (names : ∀ field ∈ fields, field.1 ≠ "")
      (values : ∀ field ∈ fields, IsRepresentable field.2) : IsRepresentable (.object fields)
  | texts {items : List Json} (texts : ∀ item ∈ items, item.isText = true) :
      IsRepresentable (.array items)
  | objects {items : List Json} (objects : ∀ item ∈ items, item.isObject = true)
      (values : ∀ item ∈ items, IsRepresentable item) : IsRepresentable (.array items)

/-! ### Positions -/

/-- The way down to a part of a document. -/
abbrev Position := List Nat

/-- **The order of a document.** What stands around something comes before it, and siblings come in
their order. -/
def Position.NotAfter : Position → Position → Prop
  | [], _ => True
  | _ :: _, [] => False
  | place :: inner, other :: rest => place < other ∨ place = other ∧ NotAfter inner rest

namespace Position

theorem notAfter_cons (place : Nat) {inner rest : Position} :
    NotAfter (place :: inner) (place :: rest) ↔ NotAfter inner rest := by
  simp [NotAfter]

theorem notAfter_of_lt {place other : Nat} (h : place < other) (inner rest : Position) :
    NotAfter (place :: inner) (other :: rest) := Or.inl h

/-- Two positions of which neither comes after the other are the same. -/
theorem NotAfter.antisymm {position other : Position} (h : NotAfter position other)
    (h' : NotAfter other position) : position = other := by
  induction position generalizing other with
  | nil =>
    cases other with
    | nil => rfl
    | cons place rest => exact h'.elim
  | cons place inner ih =>
    cases other with
    | nil => exact h.elim
    | cons otherPlace rest =>
      obtain hlt | ⟨rfl, hinner⟩ := h
      · obtain hlt' | ⟨heq, -⟩ := h' <;> omega
      · rw [ih hinner ((notAfter_cons place).mp h')]

end Position

/-! ### Offences -/

/-- What is blamed: a field, and the type of what stands there. -/
structure Offence where
  field : String
  nodeType : String

/-- The fault that reports an offence. -/
def Offence.fault (offence : Offence) : Fault :=
  .unsupportedNodeType offence.field offence.nodeType

/-- **What is wrong** with the value of a field, and where in the value. -/
inductive Offends : String → Json → Position → Offence → Prop where
  | null {field : String} : Offends field .null [] ⟨field, "null"⟩
  /-- A name comes before its value. -/
  | unnamed {field : String} {fields : List (String × Json)} {place : Nat} {value : Json}
      (at_place : fields[place]? = some ("", value)) :
      Offends field (.object fields) [place, 0] ⟨"", "unnamed field"⟩
  | value {field name : String} {fields : List (String × Json)} {place : Nat} {value : Json}
      {position : Position} {offence : Offence} (at_place : fields[place]? = some (name, value))
      (h : Offends name value position offence) :
      Offends field (.object fields) (place :: 1 :: position) offence
  /-- In an array that is no leaf-list every item has to be an object. -/
  | item {field : String} {items : List Json} {place : Nat} {item : Json}
      (mixed : ¬ ∀ item ∈ items, item.isText = true) (at_place : items[place]? = some item)
      (h : ¬ item.isObject = true) : Offends field (.array items) [place] ⟨field, item.typeName⟩
  | entry {field : String} {items : List Json} {place : Nat} {fields : List (String × Json)}
      {position : Position} {offence : Offence} (mixed : ¬ ∀ item ∈ items, item.isText = true)
      (at_place : items[place]? = some (.object fields))
      (h : Offends field (.object fields) position offence) :
      Offends field (.array items) (place :: position) offence

/-- **What is wrong with a document**, and where. A document that is no object is wrong itself. -/
inductive IsOffence : Json → Position → Offence → Prop where
  | root {document : Json} (h : ¬ document.isObject = true) :
      IsOffence document [] ⟨"", document.typeName⟩
  | inside {fields : List (String × Json)} {position : Position} {offence : Offence}
      (h : Offends "" (.object fields) position offence) :
      IsOffence (.object fields) position offence

/-- At one position one thing is wrong. -/
theorem Offends.unique {field : String} {value : Json} {position : Position}
    {offence another : Offence} (h : Offends field value position offence)
    (h' : Offends field value position another) : offence = another := by
  induction h with
  | null => cases h'; rfl
  | unnamed at_place => cases h'; rfl
  | value at_place _ ih =>
    cases h' with
    | value at_place' h' =>
      obtain ⟨rfl, rfl⟩ := Prod.mk.inj (Option.some.inj (at_place.symm.trans at_place'))
      exact ih h'
  | item mixed at_place h =>
    cases h' with
    | item _ at_place' _ =>
      rw [Option.some.inj (at_place.symm.trans at_place')]
    | entry _ at_place' _ =>
      rw [Option.some.inj (at_place.symm.trans at_place')] at h
      exact absurd rfl h
  | entry mixed at_place h ih =>
    cases h' with
    | item _ at_place' h' =>
      rw [Option.some.inj (at_place'.symm.trans at_place)] at h'
      exact absurd rfl h'
    | entry _ at_place' h' =>
      obtain rfl := object.inj (Option.some.inj (at_place.symm.trans at_place'))
      exact ih h'

theorem IsOffence.unique {document : Json} {position : Position} {offence another : Offence}
    (h : IsOffence document position offence) (h' : IsOffence document position another) :
    offence = another := by
  cases h with
  | root h =>
    cases h' with
    | root _ => rfl
    | inside _ => exact absurd rfl h
  | inside h =>
    cases h' with
    | root h' => exact absurd rfl h'
    | inside h' => exact h.unique h'

/-! ### Nothing is wrong -/

/-- **Nothing is wrong with a representable value**, and with no other. -/
theorem not_offends_iff {field : String} {value : Json} :
    (∀ position offence, ¬ Offends field value position offence) ↔ IsRepresentable value := by
  constructor
  · intro h
    induction value using induction generalizing field with
    | null => exact absurd .null (h [] _)
    | bool b => exact .bool b
    | number n => exact .number n
    | string text => exact .string text
    | array items ih =>
      by_cases htexts : ∀ item ∈ items, item.isText = true
      · exact .texts htexts
      · have hobjects : ∀ item ∈ items, item.isObject = true := by
          intro item hitem
          obtain ⟨place, hplace⟩ := List.mem_iff_getElem?.mp hitem
          exact Decidable.not_not.mp fun hobject => h _ _ (.item htexts hplace hobject)
        refine .objects hobjects fun item hitem => ?_
        have hitems : ∀ position offence, ¬ Offends field item position offence := by
          intro position offence hoffends
          obtain ⟨place, hplace⟩ := List.mem_iff_getElem?.mp hitem
          cases item with
          | object fields => exact h _ _ (.entry htexts hplace hoffends)
          | _ => cases hobjects _ hitem
        exact ih item hitem hitems
    | object fields ih =>
      refine .object (fun found hfound hname => ?_) fun found hfound => ?_
      · obtain ⟨place, hplace⟩ := List.mem_iff_getElem?.mp hfound
        obtain ⟨name, value⟩ := found
        obtain rfl : name = "" := hname
        exact h _ _ (.unnamed hplace)
      · obtain ⟨place, hplace⟩ := List.mem_iff_getElem?.mp hfound
        exact ih found hfound fun position offence hoffends => h _ _ (.value hplace hoffends)
  · intro h position offence hoffends
    induction hoffends with
    | null => cases h
    | unnamed at_place =>
      cases h with
      | object names _ => exact names _ (List.mem_of_getElem? at_place) rfl
    | value at_place _ ih =>
      cases h with
      | object _ values => exact ih (values _ (List.mem_of_getElem? at_place))
    | item mixed at_place hobject =>
      cases h with
      | texts texts => exact mixed texts
      | objects objects _ => exact hobject (objects _ (List.mem_of_getElem? at_place))
    | entry mixed at_place _ ih =>
      cases h with
      | texts texts => exact mixed texts
      | objects _ values => exact ih (values _ (List.mem_of_getElem? at_place))

/-! ### The first offence is blamed -/

section Blames

variable {α β γ : Type} {wrong : Position → Offence → Prop} {outcome : Except Fault α}

/-- **The outcome of reading a part of a document**, beside what is wrong in it: nothing, or the
fault is that of the first offence. -/
def Blames (wrong : Position → Offence → Prop) : Except Fault α → Prop
  | .ok _ => ∀ position offence, ¬ wrong position offence
  | .error fault => ∃ position offence, fault = offence.fault ∧ wrong position offence
      ∧ ∀ other another, wrong other another → position.NotAfter other

theorem Blames.map (h : Blames wrong outcome) (f : α → β) : Blames wrong (outcome.map f) := by
  cases outcome <;> exact h

theorem Blames.congr {also : Position → Offence → Prop} (h : Blames wrong outcome)
    (heq : ∀ position offence, also position offence ↔ wrong position offence) :
    Blames also outcome := by
  rwa [funext fun position => funext fun offence => propext (heq position offence)]

/-- What is wrong in the members of a list: the place of the member leads to it. -/
def Within (wrong : β → Position → Offence → Prop) (items : List β) (position : Position)
    (offence : Offence) : Prop :=
  ∃ place item inner, items[place]? = some item ∧ position = place :: inner
    ∧ wrong item inner offence

theorem within_cons {wrong : β → Position → Offence → Prop} {item : β} {items : List β}
    {position : Position} {offence : Offence} :
    Within wrong (item :: items) position offence
      ↔ (∃ inner, position = 0 :: inner ∧ wrong item inner offence)
        ∨ ∃ place inner, position = (place + 1) :: inner
          ∧ Within wrong items (place :: inner) offence := by
  constructor
  · rintro ⟨place, found, inner, hplace, rfl, hwrong⟩
    cases place with
    | zero =>
      obtain rfl : item = found := Option.some.inj hplace
      exact Or.inl ⟨inner, rfl, hwrong⟩
    | succ place => exact Or.inr ⟨place, inner, rfl, place, found, inner, hplace, rfl, hwrong⟩
  · rintro (⟨inner, rfl, hwrong⟩ | ⟨place, inner, rfl, _, found, _, hplace, heq, hwrong⟩)
    · exact ⟨0, item, inner, rfl, rfl, hwrong⟩
    · obtain ⟨rfl, rfl⟩ := List.cons.inj heq
      exact ⟨place + 1, found, inner, hplace, rfl, hwrong⟩

/-- **The members of a list are read in their order**, up to the first in which something is
wrong. -/
theorem blames_mapM {wrong : β → Position → Offence → Prop} {reads : β → Except Fault γ}
    {items : List β} (h : ∀ item ∈ items, Blames (wrong item) (reads item)) :
    Blames (Within wrong items) (items.mapM reads) := by
  induction items with
  | nil =>
    rintro position offence ⟨place, item, inner, hplace, -⟩
    cases hplace
  | cons item items ih =>
    obtain ⟨hitem, hitems⟩ := List.forall_mem_cons.mp h
    rw [List.mapM_cons]
    cases hread : reads item with
    | error fault =>
      -- whatever is wrong in the other members comes later
      rw [hread] at hitem
      obtain ⟨position, offence, rfl, hwrong, hfirst⟩ := hitem
      refine ⟨0 :: position, offence, rfl, within_cons.mpr (Or.inl ⟨_, rfl, hwrong⟩), ?_⟩
      intro other another hother
      rcases within_cons.mp hother with ⟨inner, rfl, hinner⟩ | ⟨place, inner, rfl, -⟩
      · exact (Position.notAfter_cons 0).mpr (hfirst inner another hinner)
      · exact Position.notAfter_of_lt (Nat.succ_pos place) position inner
    | ok value =>
      rw [hread] at hitem
      have hrest := ih hitems
      cases hreads : items.mapM reads with
      | error fault =>
        rw [hreads] at hrest
        obtain ⟨_, offence, rfl, ⟨place, found, inner, hplace, rfl, hwrong⟩, hfirst⟩ := hrest
        have hwithin : Within wrong items (place :: inner) offence :=
          ⟨place, found, inner, hplace, rfl, hwrong⟩
        refine ⟨(place + 1) :: inner, offence, rfl,
          within_cons.mpr (Or.inr ⟨place, inner, rfl, hwithin⟩), ?_⟩
        intro other another hother
        rcases within_cons.mp hother with ⟨inner, rfl, hinner⟩ | ⟨otherPlace, inner, rfl, hinner⟩
        · exact absurd hinner (hitem inner another)
        · exact (hfirst _ another hinner).imp Nat.succ_lt_succ fun h => ⟨congrArg _ h.1, h.2⟩
      | ok values =>
        rw [hreads] at hrest
        intro position offence hwrong
        rcases within_cons.mp hwrong with ⟨inner, -, hinner⟩ | ⟨place, inner, -, hinner⟩
        · exact hitem inner offence hinner
        · exact hrest _ offence hinner

end Blames

/-! ### Rows and entries -/

theorem nodesOf_eq_mapM (fields : List (String × Json)) :
    nodesOf fields = fields.mapM fun field => nodeOf field.1 field.2 := by
  induction fields with
  | nil => rfl
  | cons field fields ih =>
    obtain ⟨name, value⟩ := field
    rw [nodesOf, ih, List.mapM_cons]

/-- The entry that an item of an array is. -/
def entryOf (name : String) : Json → Except Fault (List Node)
  | object fields => nodesOf fields
  | other => .error (unsupported name other)

theorem entriesOf_eq_mapM (name : String) (items : List Json) :
    entriesOf name items = items.mapM (entryOf name) := by
  induction items with
  | nil => rfl
  | cons item items ih =>
    rw [List.mapM_cons, ← ih]
    cases item <;> rfl

/-- What is wrong with a field: its name, or something in its value. -/
def FieldOffends (field : String × Json) (position : Position) (offence : Offence) : Prop :=
  (field.1 = "" ∧ position = [0] ∧ offence = ⟨"", "unnamed field"⟩)
    ∨ ∃ inner, position = 1 :: inner ∧ Offends field.1 field.2 inner offence

/-- What is wrong with an item that has to be an entry. -/
def ItemOffends (name : String) (item : Json) (position : Position) (offence : Offence) : Prop :=
  (¬ item.isObject = true ∧ position = [] ∧ offence = ⟨name, item.typeName⟩)
    ∨ item.isObject = true ∧ Offends name item position offence

theorem offends_object_iff {name : String} {fields : List (String × Json)} {position : Position}
    {offence : Offence} :
    Offends name (.object fields) position offence
      ↔ Within FieldOffends fields position offence := by
  constructor
  · intro h
    cases h with
    | unnamed at_place => exact ⟨_, _, _, at_place, rfl, Or.inl ⟨rfl, rfl, rfl⟩⟩
    | value at_place h => exact ⟨_, _, _, at_place, rfl, Or.inr ⟨_, rfl, h⟩⟩
  · rintro ⟨place, ⟨inner, value⟩, _, hplace, rfl, ⟨hname, rfl, rfl⟩ | ⟨_, rfl, h⟩⟩
    · obtain rfl : inner = "" := hname
      exact .unnamed hplace
    · exact .value hplace h

theorem offends_array_iff {name : String} {items : List Json} {position : Position}
    {offence : Offence} (hmixed : ¬ ∀ item ∈ items, item.isText = true) :
    Offends name (.array items) position offence
      ↔ Within (ItemOffends name) items position offence := by
  constructor
  · intro h
    cases h with
    | item _ at_place h => exact ⟨_, _, _, at_place, rfl, Or.inl ⟨h, rfl, rfl⟩⟩
    | entry _ at_place h => exact ⟨_, _, _, at_place, rfl, Or.inr ⟨rfl, h⟩⟩
  · rintro ⟨place, item, _, hplace, rfl, ⟨hitem, rfl, rfl⟩ | ⟨hitem, h⟩⟩
    · exact .item hmixed hplace hitem
    · cases item with
      | object fields => exact .entry hmixed hplace h
      | _ => cases hitem

/-- An array is a leaf-list if all its items are texts. -/
theorem memberTexts?_eq_none_iff {items : List Json} :
    memberTexts? items = none ↔ ¬ ∀ item ∈ items, item.isText = true := by
  induction items with
  | nil => simp [memberTexts?]
  | cons item items ih =>
    rw [memberTexts?, List.mapM_cons] at *
    rw [List.forall_mem_cons, not_and_or, ← ih]
    cases item with
    | string | number =>
      simp only [memberText?, isText]
      cases List.mapM memberText? items <;> simp
    | _ => simp [memberText?, isText]

/-! ### Every value -/

/-- What holds of every value: it is read as a field, and as an object so are its fields, and in
both cases the first offence is blamed. -/
structure IsBlamed (value : Json) : Prop where
  field : ∀ name, Blames (FieldOffends (name, value)) (nodeOf name value)
  row : ∀ name fields, value = object fields →
    Blames (Offends name (.object fields)) (nodesOf fields)

/-- A field has a name or is wrong at once; behind its name stands its value. -/
theorem blames_field {name : String} {value : Json}
    (hnode : name ≠ "" → Blames (Offends name value) (nodeOf name value)) :
    Blames (FieldOffends (name, value)) (nodeOf name value) := by
  by_cases hname : name = ""
  · have hfault : nodeOf name value = .error unnamedField := by
      rw [nodeOf.eq_def, if_pos (by simpa using hname)]
    rw [hfault]
    refine ⟨[0], ⟨"", "unnamed field"⟩, rfl, Or.inl ⟨hname, rfl, rfl⟩, ?_⟩
    rintro other another (⟨-, rfl, -⟩ | ⟨inner, rfl, -⟩)
    · exact (Position.notAfter_cons 0).mpr trivial
    · exact Position.notAfter_of_lt Nat.zero_lt_one [] inner
  · have hvalue (position : Position) (offence : Offence) :
        FieldOffends (name, value) position offence
          ↔ ∃ inner, position = 1 :: inner ∧ Offends name value inner offence :=
      or_iff_right fun h => hname h.1
    have hblames := hnode hname
    cases hread : nodeOf name value with
    | error fault =>
      rw [hread] at hblames
      obtain ⟨position, offence, rfl, hwrong, hfirst⟩ := hblames
      refine ⟨1 :: position, offence, rfl, (hvalue _ _).mpr ⟨_, rfl, hwrong⟩, ?_⟩
      intro other another hother
      obtain ⟨inner, rfl, hinner⟩ := (hvalue _ _).mp hother
      exact (Position.notAfter_cons 1).mpr (hfirst inner another hinner)
    | ok node =>
      rw [hread] at hblames
      intro position offence hwrong
      obtain ⟨inner, -, hinner⟩ := (hvalue _ _).mp hwrong
      exact hblames inner offence hinner

theorem blames_nodesOf (name : String) {fields : List (String × Json)}
    (h : ∀ field ∈ fields, IsBlamed field.2) :
    Blames (Offends name (.object fields)) (nodesOf fields) := by
  rw [nodesOf_eq_mapM]
  exact (blames_mapM fun field hfield => (h field hfield).field field.1).congr
    fun _ _ => offends_object_iff

theorem blames_entriesOf (name : String) {items : List Json}
    (hmixed : ¬ ∀ item ∈ items, item.isText = true) (h : ∀ item ∈ items, IsBlamed item) :
    Blames (Offends name (.array items)) (entriesOf name items) := by
  rw [entriesOf_eq_mapM]
  refine (blames_mapM fun item hitem => ?_).congr fun _ _ => offends_array_iff hmixed
  cases item with
  | object fields =>
    exact ((h _ hitem).row name fields rfl).congr fun _ _ =>
      ⟨fun h => h.elim (fun h => absurd rfl h.1) And.right, fun h => Or.inr ⟨rfl, h⟩⟩
  | _ =>
    refine ⟨[], _, rfl, Or.inl ⟨Bool.false_ne_true, rfl, rfl⟩, fun _ _ _ => trivial⟩

/-- **The outcome of reading a value** blames the first offence in it. -/
theorem isBlamed (value : Json) : IsBlamed value := by
  induction value using induction with
  | object fields ih =>
    refine ⟨fun name => blames_field fun hname => ?_,
      fun name _ heq => object.inj heq ▸ blames_nodesOf name ih⟩
    rw [nodeOf.eq_def, if_neg (by simpa using hname)]
    exact (blames_nodesOf name ih).map _
  | array items ih =>
    refine ⟨fun name => blames_field fun hname => ?_, fun _ _ heq => by cases heq⟩
    rw [nodeOf.eq_def, if_neg (by simpa using hname)]
    cases htexts : memberTexts? items with
    | some members =>
      simp only [htexts]
      have hall : ∀ item ∈ items, item.isText = true := by
        refine Decidable.not_not.mp fun hmixed => ?_
        rw [memberTexts?_eq_none_iff.mpr hmixed] at htexts
        cases htexts
      exact not_offends_iff.mpr (.texts hall)
    | none =>
      simp only [htexts]
      exact (blames_entriesOf name (memberTexts?_eq_none_iff.mp htexts) ih).map _
  | null =>
    refine ⟨fun name => blames_field fun hname => ?_, fun _ _ heq => by cases heq⟩
    rw [nodeOf.eq_def, if_neg (by simpa using hname)]
    exact ⟨[], _, rfl, .null, fun _ _ _ => trivial⟩
  | string | number | bool =>
    refine ⟨fun name => blames_field fun hname => ?_, fun _ _ heq => by cases heq⟩
    rw [nodeOf.eq_def, if_neg (by simpa using hname)]
    exact not_offends_iff.mpr (by constructor)

/-! ### Whole documents -/

theorem blames_toTree (document : Json) : Blames (IsOffence document) document.toTree := by
  rw [toTree_eq]
  cases document with
  | object fields =>
    refine ((isBlamed (object fields)).row "" fields rfl).congr fun _ _ => ⟨fun h => ?_, .inside⟩
    cases h with
    | root h => exact absurd rfl h
    | inside h => exact h
  | _ => exact ⟨[], _, rfl, .root Bool.false_ne_true, fun _ _ _ => trivial⟩

/-- **A document is a tree if and only if it is an object and representable**, and in any other
document the first offence is blamed. -/
theorem toTree_blames (document : Json) :
    ((∃ nodes, document.toTree = .ok nodes)
        ↔ document.isObject = true ∧ document.IsRepresentable)
      ∧ ∀ fault, document.toTree = .error fault
        ↔ ∃ position offence, fault = .unsupportedNodeType offence.field offence.nodeType
          ∧ IsOffence document position offence
          ∧ ∀ other another, IsOffence document other another → position.NotAfter other := by
  have hblames := blames_toTree document
  cases htree : document.toTree with
  | ok nodes =>
    rw [htree] at hblames
    refine ⟨iff_of_true ⟨nodes, rfl⟩ ?_, fun fault => iff_of_false (by simp) ?_⟩
    · cases document with
      | object fields =>
        exact ⟨rfl, not_offends_iff.mp fun position offence h => hblames _ _ (.inside h)⟩
      | _ => exact absurd (.root Bool.false_ne_true) (hblames [] _)
    · rintro ⟨position, offence, -, hwrong, -⟩
      exact hblames position offence hwrong
  | error fault =>
    rw [htree] at hblames
    obtain ⟨position, offence, rfl, hwrong, hfirst⟩ := hblames
    refine ⟨iff_of_false (by simp) ?_, fun fault => ⟨fun h => ?_, ?_⟩⟩
    · rintro ⟨hobject, hvalue⟩
      cases hwrong with
      | root h => exact h hobject
      | inside h => exact not_offends_iff.mpr hvalue position offence h
    · exact ⟨position, offence, (Except.error.inj h).symm, hwrong, hfirst⟩
    · rintro ⟨other, another, rfl, hother, hleast⟩
      obtain rfl := (hfirst _ _ hother).antisymm (hleast _ _ hwrong)
      rw [hwrong.unique hother]
      rfl

/-- Offences inside and behind one another. The null in the first entry of the list comes before the
second item, which is no entry, and before the field without a name. -/
theorem toTree_blames_nested :
    let document : Json :=
      .object [("l", .array [.object [("n", .null)], .bool true]), ("", .null)]
    IsOffence document [0, 1, 1] ⟨"l", "boolean"⟩
      ∧ IsOffence document [1, 0] ⟨"", "unnamed field"⟩
      ∧ ∃ position : Position, IsOffence document position ⟨"n", "null"⟩
        ∧ position.NotAfter [0, 1, 1] ∧ position.NotAfter [1, 0] := by
  intro document
  have hmixed : ¬ ∀ item ∈ [object [("n", null)], bool true], item.isText = true := by decide
  have hbool : ¬ isObject (bool true) = true := Bool.false_ne_true
  have hitem : IsOffence document [0, 1, 1] ⟨"l", "boolean"⟩ :=
    .inside (.value rfl (.item hmixed rfl hbool))
  have hname : IsOffence document [1, 0] ⟨"", "unnamed field"⟩ := .inside (.unnamed rfl)
  obtain ⟨position, ⟨field, nodeType⟩, hfault, hwrong, hfirst⟩ :=
    ((toTree_blames document).2 (.unsupportedNodeType "n" "null")).mp rfl
  cases hfault
  exact ⟨hitem, hname, position, hwrong, hfirst _ _ hitem, hfirst _ _ hname⟩

end Restconf.Json
