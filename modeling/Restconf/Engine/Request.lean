import Restconf.Resource.Serial
import Restconf.Tree.Node

/-!
# Requests to an engine

What the gateway asks of the engine that holds the data: an operation, the identifier of its target,
and the nodes to put there.

## Main definitions

* `Intent`, `Operation`, `Request`.
* `Operation.ofText?` — the operation that a text serializes.
* `TreeEngine` — whatever executes requests.
-/

namespace Restconf

/-- What an edit is to do. -/
inductive Intent where
  /-- Adds nodes under the target; none of them may exist there. -/
  | create
  /-- Puts nodes under the target, over those of the same name. -/
  | replace
  /-- Removes the target. -/
  | delete
deriving DecidableEq, Repr

namespace Intent

/-- The serialized name of an intent. -/
def label : Intent → String
  | create => "create"
  | replace => "replace"
  | delete => "delete"

/-- The serialized names of the intents. -/
def names : List (String × Intent) :=
  [("create", create), ("replace", replace), ("delete", delete)]

/-- The serialized form of an intent. -/
def toJson (intent : Intent) : Json := .string intent.label

/-- Reads a serialized intent. -/
def ofJson? : Json → Option Intent := Json.choice? names

/-- Reads an intent that stands in front of the type of its operation. There an empty object is as
good as `null` for the content of a name. -/
def ofLeadingJson? : Json → Option Intent
  | .object [(name, .object [])] => names.lookup name
  | value => ofJson? value

end Intent

/-- What a request asks for. -/
inductive Operation where
  | query
  | edit (intent : Intent)
deriving DecidableEq, Repr

namespace Operation

/-- The name of an operation in notifications. -/
def label : Operation → String
  | query => "query"
  | edit intent => intent.label

/-- The serialized form of an operation: its type, and the intent of an edit. -/
def toJson : Operation → Json
  | query => .object [("type", .string "query")]
  | edit intent => .object [("type", .string "edit_config"), ("intent", intent.toJson)]

/-- What is wanted of a serialized operation. -/
def shape : Json.Shape := .record [("type", .any), ("intent", .any)]

/-- The types of operations. -/
inductive Kind where
  | query
  | edit

/-- The serialized names of the types. -/
def Kind.names : List (String × Kind) := [("query", .query), ("edit_config", .edit)]

/-- The type of a serialized operation. Among fields by position it is no more than a name. -/
def kindOf? (record : Record Json) : Option Kind :=
  record.required? "type" fun value =>
    if record.positional then value.string?.bind fun name => Kind.names.lookup name
    else Json.choice? Kind.names value

/-- A query may carry an empty intent; among fields by position it has to. -/
def queryOf? (record : Record Json) : Option Operation :=
  match record.fields.lookup "intent" with
  | some .null => some query
  | none => if record.positional then none else some query
  | some _ => none

/-- An edit carries an intent. -/
def editOf? (record : Record Json) : Option Operation :=
  let leads := record.fields.head?.map Prod.fst == some "intent"
  edit <$> record.required? "intent" (if leads then Intent.ofLeadingJson? else Intent.ofJson?)

/-- Reads a serialized operation. -/
def ofJson? (value : Json) : Option Operation := do
  let record ← value.record? shape.names false
  match ← kindOf? record with
  | .query => queryOf? record
  | .edit => editOf? record

/-- The operation that a text serializes. -/
def ofText? : String → Option Operation := Json.decode? shape ofJson?

end Operation

/-- A request to an engine. -/
structure Request where
  operation : Operation
  /-- The target. -/
  identifier : Identifier
  /-- The nodes to put under the target. -/
  payload : List Node := []
deriving DecidableEq

/-- An engine executes requests. A query answers with the node at its target, if there is one; an
edit has no answer as a rule. -/
class TreeEngine (ε : Type) where
  execute : ε → Request → Except Fault (Option Node) × ε

/-! ### An engine with fixed answers -/

/-- An engine that gives the same answer to every query and to every edit, or fails every request,
and remembers what it was asked. -/
structure ScriptedEngine where
  queryAnswer : Option Node := none
  editAnswer : Option Node := none
  fault : Option Fault := none
  /-- The requests so far, oldest first. -/
  requests : List Request := []

instance : TreeEngine ScriptedEngine where
  execute engine request :=
    let answer := match engine.fault, request.operation with
      | some fault, _ => .error fault
      | none, .query => .ok engine.queryAnswer
      | none, .edit _ => .ok engine.editAnswer
    (answer, { engine with requests := engine.requests ++ [request] })

end Restconf
