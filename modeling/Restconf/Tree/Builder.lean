import Restconf.Tree.Sink

/-!
# Building trees from calls

The receiver that turns construction calls into nodes.

## Main definitions

* `Frame` — a node that is open, with what it has collected.
* `TreeBuilder` — the finished top-level nodes and the open frames, innermost first.
* `TreeBuilder.finish` — the nodes, if nothing is open.

## Implementation notes

A container entered directly inside a list is an entry of the list, and its name does not matter. A
closing call takes the innermost frame off before it looks at it, so a frame that a wrong call
closes is lost with its content; the same holds for a node that its list refuses to take.
-/

namespace Restconf

/-- An open node. -/
inductive Frame where
  | container (name : String) (children : List Node)
  | entry (children : List Node)
  | list (name : String) (entries : List (List Node))

/-- Nodes under construction. -/
structure TreeBuilder where
  roots : List Node := []
  /-- The open nodes, innermost first. -/
  frames : List Frame := []

namespace TreeBuilder

/-- A call that closes what is not open. -/
def unbalanced (kind : NodeKind) : Fault :=
  let label := kind.label
  .internal s!"unbalanced exit({label}) in tree builder"

/-- A node that is neither inside an entry nor outside of lists. -/
def directlyUnderList (node : Node) (parent : String) : Fault :=
  let label := node.kind.label
  let name := node.name
  .internal s!"{label} '{name}' added directly under list '{parent}'"

/-- A list that is not inside an entry of the list around it. -/
def listInsideList (name : String) : Fault :=
  .internal s!"list '{name}' opened directly inside another list"

/-- Nodes that were never closed. -/
def leftOpen (count : Nat) : Fault := .internal s!"{count} node(s) left open"

/-- Adds a finished node to the innermost open one. -/
def attach (builder : TreeBuilder) (node : Node) : Reply TreeBuilder :=
  match builder.frames with
  | [] => { sink := { builder with roots := builder.roots ++ [node] } }
  | .container name children :: rest =>
    { sink := { builder with frames := .container name (children ++ [node]) :: rest } }
  | .entry children :: rest =>
    { sink := { builder with frames := .entry (children ++ [node]) :: rest } }
  | .list name _ :: _ => { sink := builder, fault := some (directlyUnderList node name) }

/-- Opens a container, or an entry where a list is innermost. -/
def enterContainer (builder : TreeBuilder) (name : String) : Reply TreeBuilder :=
  match builder.frames with
  | .list .. :: _ => { sink := { builder with frames := .entry [] :: builder.frames } }
  | _ => { sink := { builder with frames := .container name [] :: builder.frames } }

/-- Opens a list. -/
def enterList (builder : TreeBuilder) (name : String) : Reply TreeBuilder :=
  match builder.frames with
  | .list .. :: _ => { sink := builder, fault := some (listInsideList name) }
  | _ => { sink := { builder with frames := .list name [] :: builder.frames } }

/-- Takes off the innermost frame and puts its node where it belongs. -/
def exit (builder : TreeBuilder) (kind : NodeKind) : Reply TreeBuilder :=
  match builder.frames with
  | [] => { sink := builder, fault := some (unbalanced kind) }
  | frame :: rest =>
    let outer := { builder with frames := rest }
    match frame, kind, rest with
    | .entry children, .container, .list name entries :: around =>
      { sink := { builder with frames := .list name (entries ++ [children]) :: around } }
    | .container name children, .container, _ => outer.attach (.container name children)
    | .list name entries, .list, _ => outer.attach (.list name entries)
    | _, _, _ => { sink := outer, fault := some (unbalanced kind) }

instance : TreeSink TreeBuilder where
  call builder
    | .enterContainer name => builder.enterContainer name
    | .enterList name => builder.enterList name
    | .addLeaf name value => builder.attach (.leaf name value)
    | .addLeafList name values => builder.attach (.leafList name values)
    | .exit kind => builder.exit kind

/-- The top-level nodes, if everything has been closed. -/
def finish (builder : TreeBuilder) : Except Fault (List Node) :=
  if builder.frames.isEmpty then .ok builder.roots
  else .error (leftOpen builder.frames.length)

end TreeBuilder

end Restconf
