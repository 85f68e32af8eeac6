import Restconf.Json.Record
import Restconf.Json.Shape
import Restconf.Resource.Identifier

/-!
# Serialized identifiers

Elements and identifiers as JSON. The namespace is left out where there is none, and the keys where
there are none; reading puts both back.

## Main definitions

* `Element.toJson`, `Element.ofJson?`
* `Identifier.toJson`, `Identifier.ofJson?`
* `Element.ofText?`, `Identifier.ofText?` — what a text serializes.
-/

namespace Restconf

namespace ElementKind

/-- The serialized names of the kinds. -/
def names : List (String × ElementKind) :=
  [("single_instance", single), ("multi_instance", multi)]

/-- The serialized name of a kind. -/
def serialName : ElementKind → String
  | single => "single_instance"
  | multi => "multi_instance"

/-- Reads a serialized kind. -/
def ofJson? : Json → Option ElementKind := Json.choice? names

end ElementKind

namespace Element

/-- The serialized form of an element. -/
def toJson (element : Element) : Json :=
  .object <|
    [("name", .string element.name)]
      ++ (match element.space with
        | none => []
        | some space => [("namespace", .string space)])
      ++ [("kind", .string element.kind.serialName)]
      ++ (if element.keys.isEmpty then [] else [("keys", .array (element.keys.map .string))])

/-- What is wanted of a serialized element. -/
def shape : Json.Shape :=
  .record [("name", .any), ("namespace", .any), ("kind", .any), ("keys", .any)]

/-- The namespace of a serialized element. Among fields by position it cannot be passed over. -/
def namespaceOf? (record : Record Json) : Option (Option String) :=
  if record.positional then record.required? "namespace" Json.nullableString?
  else record.optional? "namespace" none Json.nullableString?

/-- Reads a serialized element. -/
def ofJson? (value : Json) : Option Element := do
  let record ← value.record? shape.names false
  return {
    name := ← record.required? "name" Json.string?
    space := ← namespaceOf? record
    kind := ← record.required? "kind" ElementKind.ofJson?
    keys := ← record.optional? "keys" [] Json.strings? }

/-- The element that a text serializes. -/
def ofText? : String → Option Element := Json.decode? shape ofJson?

end Element

namespace Identifier

/-- The serialized form of an identifier. -/
def toJson (identifier : Identifier) : Json :=
  .object [("root_path", .string identifier.root),
    ("elements", .array (identifier.elements.map Element.toJson))]

/-- What is wanted of a serialized identifier. -/
def shape : Json.Shape := .record [("root_path", .any), ("elements", .list Element.shape)]

/-- Reads serialized elements. -/
def elementsOfJson? : Json → Option (List Element)
  | .array items => items.mapM Element.ofJson?
  | _ => none

/-- Reads a serialized identifier. -/
def ofJson? (value : Json) : Option Identifier := do
  let record ← value.record? shape.names false
  return {
    root := ← record.required? "root_path" Json.string?
    elements := ← record.required? "elements" elementsOfJson? }

/-- The identifier that a text serializes. -/
def ofText? : String → Option Identifier := Json.decode? shape ofJson?

end Identifier

end Restconf
