import Restconf.Tree.Builder
import Restconf.Tree.TextWriter

/-!
# Documents and trees

The two directions between JSON documents and data trees.

A document has to be an object, and its fields are the top-level nodes:

* an object is a container, and its fields are the children in their order;
* an array of strings and numbers, the empty one included, is a leaf-list;
* any other array is a list, and each of its items has to be an object, the entry;
* a string, a number or a truth value is a leaf with its text;
* `null` is nothing, and neither is a field without a name.

## Main definitions

* `Json.script` — the calls that build the tree of a document, and the fault of its first
  unsupported part.
* `Json.toTree` — the tree of a document.
* `Forest.toText`, `Forest.toJson` — the text of a tree, and the document it denotes.
* `Forest.fields` — the document of a tree, by recursion; `Forest.reference` is its text, by
  recursion.
* `Json.normalize` — the document that comes back when a document is turned into a tree.
-/

namespace Restconf

/-! ### From documents to trees -/

namespace Json

/-- A value that has no place in a tree. -/
def unsupported (field : String) (value : Json) : Fault :=
  .unsupportedNodeType field value.typeName

/-- A field without a name. -/
def unnamedField : Fault := .unsupportedNodeType "" "unnamed field"

/-- The text of a string or a number. -/
def memberText? : Json → Option String
  | string text => some text
  | number n => some (.ofList n.text)
  | _ => none

/-- The members of an array of strings and numbers. -/
def memberTexts? (items : List Json) : Option (List String) := items.mapM memberText?

/-- The text of a truth value. -/
def boolText (value : Bool) : String := if value then "true" else "false"

mutual

/-- The calls that build the node of a field. -/
def nodeScript (name : String) (value : Json) : Script :=
  if name.isEmpty then .stop unnamedField
  else
    match value with
    | object fields =>
      ((Script.single (.enterContainer name)).andThen (fieldsScript fields)).andThen
        (.single (.exit .container))
    | array items =>
      match memberTexts? items with
      | some members => .single (.addLeafList name (.ofList members))
      | none =>
        ((Script.single (.enterList name)).andThen (entriesScript name items)).andThen
          (.single (.exit .list))
    | string text => .single (.addLeaf name text)
    | number n => .single (.addLeaf name (.ofList n.text))
    | bool b => .single (.addLeaf name (boolText b))
    | null => .stop (unsupported name null)

/-- The calls that build the nodes of fields. -/
def fieldsScript : List (String × Json) → Script
  | [] => .nil
  | (name, value) :: rest => (nodeScript name value).andThen (fieldsScript rest)

/-- The calls that build the entries of a list. -/
def entriesScript (name : String) : List Json → Script
  | [] => .nil
  | item :: rest =>
    match item with
    | object fields =>
      (((Script.single (.enterContainer "")).andThen (fieldsScript fields)).andThen
        (.single (.exit .container))).andThen (entriesScript name rest)
    | other => .stop (unsupported name other)

end

/-- The calls that build the tree of a document. -/
def script : Json → Script
  | object fields => fieldsScript fields
  | other => .stop (unsupported "" other)

/-- Builds a document into any receiver. -/
def build {σ : Type} [TreeSink σ] (document : Json) (sink : σ) : Reply σ :=
  document.script.run sink

/-- The top-level nodes of a document. -/
def toTree (document : Json) : Except Fault (List Node) :=
  let reply := document.build ({} : TreeBuilder)
  match reply.fault with
  | some fault => .error fault
  | none => reply.sink.finish

end Json

/-! ### From trees to documents -/

namespace Forest

/-- Writes siblings as the fields of one object. -/
def write (nodes : List Node) : Except Fault TextWriter := do
  let opened := ({} : TextWriter).openNode "" .container
  opened.result
  let filled := TreeSink.replay opened.sink (Walk.start nodes).toList
  filled.result
  let closed := filled.sink.close .container
  closed.result
  return closed.sink

/-- Siblings as the text of one object. -/
def toText (nodes : List Node) : Except Fault String := do
  (← write nodes).finalize

/-- Siblings as one object. -/
def toJson (nodes : List Node) : Except Fault Json := do
  (← write nodes).finalizeValue

/-! ### By recursion -/

mutual

/-- A node as a field of an object. -/
def field : Node → String × Json
  | .container name children => (name, .object (fields children))
  | .list name entries => (name, .array (entryObjects entries))
  | .leaf name value => (name, .string value)
  | .leafList name values => (name, .array (values.values.map .string))

/-- Siblings as the fields of an object. -/
def fields : List Node → List (String × Json)
  | [] => []
  | node :: rest => field node :: fields rest

/-- The entries of a list as objects. -/
def entryObjects : List (List Node) → List Json
  | [] => []
  | entry :: rest => .object (fields entry) :: entryObjects rest

end

/-- The text of an object from the texts of its fields. -/
def braced (texts : List (List Char)) : List Char :=
  '{' :: Json.commaSeparated texts ++ ['}']

/-- The text of an array from the texts of its items. -/
def bracketed (texts : List (List Char)) : List Char :=
  '[' :: Json.commaSeparated texts ++ [']']

mutual

/-- The text of a node inside an object. -/
def fieldText : Node → List Char
  | .container name children => TextWriter.fieldName name ++ braced (fieldTexts children)
  | .list name entries => TextWriter.fieldName name ++ bracketed (entryTexts entries)
  | .leaf name value => TextWriter.fieldName name ++ Json.quote value.toList
  | .leafList name values =>
    TextWriter.fieldName name ++ bracketed (values.values.map fun v => Json.quote v.toList)

/-- The texts of siblings. -/
def fieldTexts : List Node → List (List Char)
  | [] => []
  | node :: rest => fieldText node :: fieldTexts rest

/-- The texts of the entries of a list. -/
def entryTexts : List (List Node) → List (List Char)
  | [] => []
  | entry :: rest => braced (fieldTexts entry) :: entryTexts rest

end

/-- Siblings as the text of one object. -/
def reference (nodes : List Node) : List Char := braced (fieldTexts nodes)

end Forest

/-! ### The round trip of a document -/

namespace Json

mutual

/-- What comes back when a document is turned into a tree and the tree into a document: numbers and
truth values as their texts, and arrays of strings and numbers as sets. -/
def normalize : Json → Json
  | object fields => object (normalizeFields fields)
  | array items =>
    match memberTexts? items with
    | some members => array ((TextSet.ofList members).values.map string)
    | none => array (normalizeItems items)
  | number n => string (.ofList n.text)
  | bool b => string (boolText b)
  | string text => string text
  | null => null

/-- `normalize` on the values of fields. -/
def normalizeFields : List (String × Json) → List (String × Json)
  | [] => []
  | (name, value) :: rest => (name, normalize value) :: normalizeFields rest

/-- `normalize` on the items of an array. -/
def normalizeItems : List Json → List Json
  | [] => []
  | item :: rest => normalize item :: normalizeItems rest

end

end Json

end Restconf
