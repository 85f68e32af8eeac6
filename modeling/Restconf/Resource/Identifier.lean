import Restconf.Resource.Element

/-!
# Resource identifiers

The structured form of a data resource path such as `/onos/restconf/data/test:top/list=1,2`: the
elements from the root of the datastore to the target, and the root path under which they were
found.

## Main definitions

* `Identifier.ofSegments`, `Identifier.ofDataPath`, `Identifier.ofUri` — reading, from segments,
  from the path below the data marker, and from the URI of a request.
* `Identifier.display` — the data path of an identifier.

## Implementation notes

The namespace in force is passed along the segments in reading (`elementsOf`) and along the elements
in writing (`displayFrom`), by the same rule `Element.inForce`: an element that has a namespace
sets it, one that has none leaves it.
-/

namespace Restconf

/-- The path from the root of the datastore to a node. -/
structure Identifier where
  /-- The mount point under which the identifier was found; empty where it came from no URI. -/
  root : String := ""
  elements : List Element
deriving DecidableEq, Repr

/-- The namespace in force after an element. -/
def Element.inForce (inherited : Option String) (element : Element) : Option String :=
  element.space.or inherited

namespace Identifier

/-- The marker between the root path and the data path. -/
def dataMarker : String := "/data"

/-! ### Reading -/

/-- The elements of segments, left to right. -/
def elementsOf (inherited : Option String) : List String → Except Fault (List Element)
  | [] => .ok []
  | text :: rest => do
    let element ← Element.parse inherited text
    let elements ← elementsOf (element.inForce inherited) rest
    return element :: elements

/-- The identifier of segments whose escapes have been read. -/
def ofSegments (inherited : Option String) (segments : List String) : Except Fault Identifier := do
  return { elements := ← elementsOf inherited segments }

/-- The identifier of a path below the data marker. -/
def ofDataPath (path : String) : Except Fault Identifier := do
  ofSegments none (← Path.segments path)

/-- What stands after the data marker, if the rest of the path begins with it as a whole piece. -/
def afterMarker? (rest : List Char) : Option (List Char) :=
  (Path.strip? dataMarker.toList rest).filter fun path => path = [] || path.head? = some '/'

/-- The identifier of a request URI. The path has to be the root path, the data marker, and then
nothing or a slash; query and fragment do not count. -/
def ofUri (root uri : String) : Except Fault Identifier :=
  let path := Path.withoutQuery uri.toList
  let mount := Path.trimSlashes root.toList
  let pathText := String.ofList path
  let mountText := String.ofList mount
  match Path.strip? mount path with
  | none =>
    .error (.notADataResource s!"'{pathText}' is outside the RESTCONF root '{mountText}'")
  | some rest =>
    match afterMarker? rest with
    | none =>
      .error (.notADataResource
        s!"'{pathText}' has no '{dataMarker}' marker after the RESTCONF root")
    | some dataPath => do
      let identifier ← ofDataPath (.ofList dataPath)
      return { identifier with root := mountText }

/-! ### Views -/

/-- An identifier addresses a node if it has an element. -/
def isValid (identifier : Identifier) : Bool :=
  !identifier.elements.isEmpty

/-- The deepest element. -/
def target? (identifier : Identifier) : Option Element :=
  identifier.elements.getLast?

/-- The data path of elements, given the namespace in force before them. -/
def displayFrom (inherited : Option String) : List Element → List Char
  | [] => []
  | element :: rest =>
    '/' :: element.segment inherited ++ displayFrom (element.inForce inherited) rest

/-- The data path of an identifier. A namespace is shown where it changes. -/
def display (identifier : Identifier) : String :=
  .ofList (displayFrom none identifier.elements)

end Identifier

end Restconf
