import Restconf.Engine.Notification
import Restconf.Engine.Request

/-!
# The datastore in memory

Top-level nodes that requests read and change. Nodes are found by their local name; the first
sibling of a name counts. An element with keys chooses the entry of a list whose leading leaves have
the keys for values, or the value of a leaf-list.

## Main definitions

* `Datastore.find?` — the node at a path.
* `Datastore.modify` — changes the children of the node at a path; `Datastore.children` reads them.
* `Datastore.edit` — what an edit makes of the nodes, or the fault that prevents it.
* `Datastore.commit`, `Datastore.announce` — the two halves of executing an edit.

## Implementation notes

`modify` is the only place that descends for an edit. It builds the changed nodes and returns them
at the end, so an edit that fails on the way changes nothing. Committing and announcing are separate
operations: between the two another edit may come in.
-/

namespace Restconf

namespace Datastore

/-! ### Looking up -/

/-- The values of the leaves of a row of nodes. -/
def leafValues (nodes : List Node) : List String :=
  nodes.filterMap fun
    | .leaf _ value => some value
    | _ => none

/-- The leading leaves of an entry have the keys for values. -/
def entryMatches (keys : List String) (entry : List Node) : Bool :=
  (leafValues entry).take keys.length == keys

/-- The first sibling of a name. -/
def sibling? (name : String) (nodes : List Node) : Option Node :=
  nodes.find? fun node => node.name = name

/-- The node at a path. A list entry is given as a container with the name of the list, a value of a
leaf-list as the leaf-list of this value. -/
def find? (nodes : List Node) : List Element → Option Node
  | [] => none
  | element :: rest =>
    match sibling? element.name nodes, element.kind with
    | none, _ => none
    | some node, .single =>
      if rest.isEmpty then some node
      else
        match node with
        | .container _ children => find? children rest
        | _ => none
    | some (.list _ entries), .multi =>
      match entries.find? (entryMatches element.keys) with
      | none => none
      | some entry =>
        if rest.isEmpty then some (.container element.name entry) else find? entry rest
    | some (.leafList _ values), .multi =>
      match rest, element.keys with
      | [], [key] =>
        if key ∈ values.values then some (.leafList element.name (.singleton key)) else none
      | _, _ => none
    | some _, .multi => none

/-! ### Changing -/

/-- A node on the path that does not exist. -/
def missing (element : Element) : Fault := .notFound element.display

/-- A node on the path that has no children. -/
def notAParent (element : Element) (node : Node) : Fault :=
  let name := element.name
  let label := node.kind.label
  .treeEngineFailure s!"'{name}' is a {label}, it cannot hold child nodes"

/-- Divides a list at the first item with a property. -/
def splitFirst {α : Type} (p : α → Bool) : List α → Option (List α × α × List α)
  | [] => none
  | a :: rest =>
    if p a then some ([], a, rest)
    else (splitFirst p rest).map fun (before, found, after) => (a :: before, found, after)

/-- Changes the children of the node at a path. Where `create` is set, containers that are missing
on the way are added at the end of their siblings; list entries never are. -/
def modify (create : Bool) (change : List Node → Except Fault (List Node)) :
    List Element → List Node → Except Fault (List Node)
  | [], nodes => change nodes
  | element :: rest, nodes =>
    match splitFirst (fun node => node.name = element.name) nodes, element.kind with
    | some (before, .container name children, after), .single => do
      let children ← modify create change rest children
      return before ++ .container name children :: after
    | some (_, node, _), .single => .error (notAParent element node)
    | none, .single =>
      if create then do
        let children ← modify create change rest []
        return nodes ++ [.container element.name children]
      else .error (missing element)
    | some (before, .list name entries, after), .multi =>
      match splitFirst (entryMatches element.keys) entries with
      | none => .error (missing element)
      | some (earlier, entry, later) => do
        let entry ← modify create change rest entry
        return before ++ .list name (earlier ++ entry :: later) :: after
    | some (_, node, _), .multi => .error (notAParent element node)
    | none, .multi => .error (missing element)

/-- The children of the node at a path. -/
def children : List Element → List Node → Except Fault (List Node)
  | [], nodes => .ok nodes
  | element :: rest, nodes =>
    match sibling? element.name nodes, element.kind with
    | some (.container _ below), .single => children rest below
    | some (.list _ entries), .multi =>
      match entries.find? (entryMatches element.keys) with
      | none => .error (missing element)
      | some entry => children rest entry
    | some node, _ => .error (notAParent element node)
    | none, _ => .error (missing element)

/-! ### Edits -/

/-- Puts a node over the first sibling of its name, or at the end. -/
def putNode (nodes : List Node) (node : Node) : List Node :=
  match nodes with
  | [] => [node]
  | first :: rest => if first.name = node.name then node :: rest else first :: putNode rest node

/-- Adds nodes, none of which may exist. -/
def addNodes (identifier : Identifier) (payload nodes : List Node) : Except Fault (List Node) :=
  match payload.find? fun node => (sibling? node.name nodes).isSome with
  | some existing =>
    let path := identifier.display
    let name := existing.name
    .error (.conflict s!"{path}/{name}")
  | none => .ok (nodes ++ payload)

/-- Removes what an element names from a row of nodes: the nodes of the name, or the matching
entries, or the value. -/
def removeTarget (identifier : Identifier) (target : Element) (nodes : List Node) :
    Except Fault (List Node) :=
  let notFound := .error (.notFound identifier.display)
  match target.kind with
  | .single =>
    if (sibling? target.name nodes).isSome then
      .ok (nodes.filter fun node => node.name ≠ target.name)
    else notFound
  | .multi =>
    match splitFirst (fun node => node.name = target.name) nodes with
    | some (before, .list name entries, after) =>
      if entries.any (entryMatches target.keys) then
        .ok (before ++ .list name (entries.filter fun e => !entryMatches target.keys e) :: after)
      else notFound
    | some (before, .leafList name values, after) =>
      match target.keys with
      | [key] =>
        if key ∈ values.values then .ok (before ++ .leafList name (values.erase key) :: after)
        else notFound
      | _ => notFound
    | _ => notFound

/-- What an edit makes of the nodes of a datastore. -/
def edit (intent : Intent) (identifier : Identifier) (payload nodes : List Node) :
    Except Fault (List Node) :=
  match intent with
  | .create => modify true (addNodes identifier payload) identifier.elements nodes
  | .replace =>
    modify true (fun found => .ok (payload.foldl putNode found)) identifier.elements nodes
  | .delete =>
    match identifier.elements.getLast? with
    | none => .error (.notFound identifier.display)
    | some target =>
      modify false (removeTarget identifier target) identifier.elements.dropLast nodes

end Datastore

/-! ### The engine -/

/-- The datastore with its announcements. -/
structure Datastore where
  nodes : List Node := []
  /-- The announcements of committed edits. -/
  announcements : Channel Notification := .ofCapacity 64

namespace Datastore

/-- The announcement of a committed edit. -/
def announcement (intent : Intent) (identifier : Identifier) : Notification where
  kind := .yang
  data := .object [("data-change", .object [("operation", .string intent.label),
    ("target", .string identifier.display)])]

/-- Makes an edit, or leaves everything as it is. -/
def commit (store : Datastore) (intent : Intent) (identifier : Identifier) (payload : List Node) :
    Except Fault Datastore := do
  return { store with nodes := ← edit intent identifier payload store.nodes }

/-- Announces a committed edit. -/
def announce (store : Datastore) (intent : Intent) (identifier : Identifier) : Datastore :=
  { store with announcements := store.announcements.send (announcement intent identifier) }

instance : TreeEngine Datastore where
  execute store request :=
    match request.operation with
    | .query => (.ok (find? store.nodes request.identifier.elements), store)
    | .edit intent =>
      match store.commit intent request.identifier request.payload with
      | .ok changed => (.ok none, changed.announce intent request.identifier)
      | .error fault => (.error fault, store)

end Datastore

end Restconf
