import Restconf.Engine.Request
import Restconf.Tree.Document

/-!
# The service

The operations on data resources, over any engine: a request URI is read as an identifier, a JSON
body as a tree, and the node that a query finds is rendered as JSON.

## Main definitions

* `ServiceConfig` — where the service is mounted.
* `Service.identifier`, `Service.read`, `Service.create`, `Service.replace`, `Service.delete`.

## Implementation notes

A request that cannot be read never reaches the engine: the identifier is read first, then the body.
-/

namespace Restconf

/-- Where the service is mounted. -/
structure ServiceConfig where
  /-- The root path; data resources lie under its data marker. -/
  rootPath : String := "/onos/restconf"
deriving DecidableEq, Repr

namespace ServiceConfig

/-- The serialized form of the configuration. -/
def toJson (config : ServiceConfig) : Json := .object [("root_path", .string config.rootPath)]

/-- Reads a serialized configuration. Fields that are not given keep their defaults. -/
def ofJson? (value : Json) : Option ServiceConfig := do
  let record ← value.record? ["root_path"] true
  let default : ServiceConfig := {}
  return { rootPath := ← record.optional? "root_path" default.rootPath Json.string? }

end ServiceConfig

namespace Service

/-- A URI that addresses the whole datastore. -/
def namesNoNode (uri : String) : Fault :=
  .notADataResource s!"{uri} does not name a data node"

/-- The identifier of a request URI. It has to name a node. -/
def identifier (config : ServiceConfig) (uri : String) : Except Fault Identifier := do
  let identifier ← Identifier.ofUri config.rootPath uri
  if identifier.isValid then return identifier else throw (namesNoNode uri)

variable {ε : Type} [TreeEngine ε]

/-- The subtree at a URI as a JSON object. -/
def read (config : ServiceConfig) (engine : ε) (uri : String) : Except Fault Json × ε :=
  match identifier config uri with
  | .error fault => (.error fault, engine)
  | .ok identifier =>
    match TreeEngine.execute engine { operation := .query, identifier } with
    | (.error fault, engine) => (.error fault, engine)
    | (.ok none, engine) => (.error (.notFound uri), engine)
    | (.ok (some node), engine) => (Forest.toJson [node], engine)

/-- The payload of an edit: the nodes of its body. -/
def payload : Option Json → Except Fault (List Node)
  | none => .ok []
  | some body => body.toTree

/-- An edit at a URI. What an engine answers to an edit does not count. -/
def edit (config : ServiceConfig) (engine : ε) (intent : Intent) (uri : String)
    (body : Option Json) : Except Fault Unit × ε :=
  match (do return (← identifier config uri, ← payload body)) with
  | .error fault => (.error fault, engine)
  | .ok (identifier, payload) =>
    match TreeEngine.execute engine { operation := .edit intent, identifier, payload } with
    | (.error fault, engine) => (.error fault, engine)
    | (.ok _, engine) => (.ok (), engine)

/-- Creates the nodes of a body under a URI. -/
def create (config : ServiceConfig) (engine : ε) (uri : String) (body : Json) :
    Except Fault Unit × ε :=
  edit config engine .create uri (some body)

/-- Creates or replaces the nodes of a body under a URI. -/
def replace (config : ServiceConfig) (engine : ε) (uri : String) (body : Json) :
    Except Fault Unit × ε :=
  edit config engine .replace uri (some body)

/-- Removes the node at a URI. -/
def delete (config : ServiceConfig) (engine : ε) (uri : String) : Except Fault Unit × ε :=
  edit config engine .delete uri none

end Service

end Restconf
