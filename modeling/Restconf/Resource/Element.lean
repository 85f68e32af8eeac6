import Restconf.Resource.Path

/-!
# Path elements

One node on the way from the root of the datastore to a target, read from one segment of a path:

    [namespace ":"] name ["=" key ("," key)*]

## Main definitions

* `Element` — name, namespace, kind and keys.
* `Segment` — a segment divided at its delimiters, and `Segment.flaw?`, the first rule it breaks.
* `Element.parse` — the element of a segment, given the namespace in force.
* `Element.segment` — the segment of an element; the inverse for the elements that a segment has.

## Implementation notes

`Element` can hold combinations that no segment spells, such as a single instance with keys,
because identifiers also arrive in serialized form, where nothing excludes them.
-/

namespace Restconf

/-- How a path element addresses its node. -/
inductive ElementKind where
  /-- A container or a leaf: there is one node of the name. -/
  | single
  /-- A list entry or a value of a leaf-list, chosen by its keys. -/
  | multi
deriving DecidableEq, Repr

/-- One node of a resource path. -/
structure Element where
  /-- The local name of the node. -/
  name : String
  /-- The namespace that was declared for the node or is inherited by it. -/
  space : Option String
  kind : ElementKind
  /-- The keys of the instance in the order of the segment. -/
  keys : List String := []
deriving DecidableEq, Repr

/-! ### Segments -/

/-- A segment divided at its delimiters. -/
structure Segment where
  /-- The text before the first colon, where that colon stands before any equals sign. -/
  declared : Option (List Char)
  name : List Char
  /-- The text after the first equals sign. -/
  keys : Option (List Char)
deriving DecidableEq, Repr

/-- The rules that a segment can break. -/
inductive SegmentFlaw where
  | emptyNamespace | emptyName | secondNamespace | noKey
deriving DecidableEq, Repr

/-- The wording of a broken rule. -/
def SegmentFlaw.reason : SegmentFlaw → String
  | emptyNamespace => "empty namespace"
  | emptyName => "empty node name"
  | secondNamespace => "more than one namespace in segment"
  | noKey => "multi-instance node requires at least one key"

namespace Segment

/-- Takes off the declared namespace. A colon behind an equals sign belongs to a key. -/
def splitNamespace (text : List Char) : Option (List Char) × List Char :=
  match cut ':' text with
  | some (space, rest) => if '=' ∈ space then (none, text) else (some space, rest)
  | none => (none, text)

/-- Divides a segment at its delimiters. -/
def ofText (text : List Char) : Segment :=
  let (declared, rest) := splitNamespace text
  match cut '=' rest with
  | some (name, keys) => ⟨declared, name, some keys⟩
  | none => ⟨declared, rest, none⟩

/-- The first rule that a segment breaks. -/
def flaw? (segment : Segment) : Option SegmentFlaw :=
  if segment.declared = some [] then some .emptyNamespace
  else if segment.name = [] then some .emptyName
  else if ':' ∈ segment.name then some .secondNamespace
  else if segment.keys = some [] then some .noKey
  else none

end Segment

namespace Element

/-- The key that stands for an empty one. -/
def nullKey : String := "null"

/-- The keys of a multi-instance segment. An empty key reads as `nullKey`. -/
def keysOf (text : List Char) : List String :=
  (text.splitOn ',').map fun key => if key = [] then nullKey else .ofList key

/-- Reads a segment whose escapes have been read. A segment that declares no namespace is in the
inherited one. -/
def parse (inherited : Option String) (text : String) : Except Fault Element :=
  let segment := Segment.ofText text.toList
  match segment.flaw? with
  | some flaw => .error (.malformedSegment text flaw.reason)
  | none =>
    .ok {
      name := .ofList segment.name
      space := (segment.declared.map String.ofList).or inherited
      kind := if segment.keys.isSome then .multi else .single
      keys := (segment.keys.map keysOf).getD [] }

/-- The keys part of a segment. -/
def keySuffix (element : Element) : List Char :=
  match element.kind with
  | .single => []
  | .multi => '=' :: [','].intercalate (element.keys.map fun key => Percent.encode key.toList)

/-- The namespace part of a segment, left out where the namespace is the inherited one. -/
def spacePrefix (inherited : Option String) (element : Element) : List Char :=
  match element.space with
  | none => []
  | some space =>
    if inherited = some space then [] else Percent.encode space.toList ++ [':']

/-- The segment of an element, escapes written. -/
def segment (inherited : Option String) (element : Element) : List Char :=
  element.spacePrefix inherited ++ Percent.encode element.name.toList ++ element.keySuffix

/-- The element on its own, its namespace always shown. -/
def display (element : Element) : String :=
  .ofList (element.segment none)

end Element

end Restconf
