import Restconf.Fault
import Restconf.Tree.Event

/-!
# Tree sinks

A receiver of construction calls. A document can be turned into such calls without ever being held
as a tree, and a tree can be replayed into any receiver that takes them.

## Main definitions

* `Call` — one construction call; `Event.call` is the call that an event makes.
* `TreeSink` — a receiver; `TreeSink.feed` gives it calls until it refuses one.
* `Script` — calls, and the fault that ends them if there is one; `TreeSink.run` performs a script.
* `CallLog` — the receiver that only records.

## Implementation notes

A call that is refused may still change the receiver, so a `Reply` holds the receiver beside the
fault. `Except` would lose it.
-/

namespace Restconf

/-- A construction call. -/
inductive Call where
  | enterContainer (name : String)
  | enterList (name : String)
  | addLeaf (name value : String)
  | addLeafList (name : String) (values : TextSet)
  | exit (kind : NodeKind)
deriving DecidableEq

/-- The call that an event makes on a receiver. What is entered and is no list is a container. -/
def Event.call : Event → Call
  | .enter name .list => .enterList name
  | .enter name _ => .enterContainer name
  | .leaf name value => .addLeaf name value
  | .leafList name values => .addLeafList name values
  | .exit kind => .exit kind

/-- What a receiver is after a call, and why it refused the call if it did. -/
structure Reply (σ : Type) where
  sink : σ
  fault : Option Fault := none

/-- The outcome of a call without the receiver. -/
def Reply.result {σ : Type} (reply : Reply σ) : Except Fault Unit :=
  match reply.fault with
  | none => .ok ()
  | some fault => .error fault

/-- A receiver of construction calls. -/
class TreeSink (σ : Type) where
  /-- One call. -/
  call : σ → Call → Reply σ

namespace TreeSink

variable {σ : Type} [TreeSink σ]

/-- Makes calls in order, up to the first that is refused. -/
def feed (sink : σ) : List Call → Reply σ
  | [] => { sink }
  | c :: rest =>
    let reply := call sink c
    if reply.fault.isSome then reply else feed reply.sink rest

/-- Makes all calls and collects the outcome of each. -/
def feedAll (sink : σ) : List Call → List (Except Fault Unit) × σ
  | [] => ([], sink)
  | c :: rest =>
    let reply := call sink c
    let (results, last) := feedAll reply.sink rest
    (reply.result :: results, last)

/-- Makes the calls of events, up to the first that is refused. -/
def replay (sink : σ) (events : List Event) : Reply σ :=
  feed sink (events.map Event.call)

end TreeSink

/-! ### Scripts -/

/-- Calls, and the fault that stops them at their end. -/
structure Script where
  calls : List Call
  fault : Option Fault := none
deriving DecidableEq

namespace Script

/-- The script without calls. -/
def nil : Script := ⟨[], none⟩

/-- The script of one call. -/
def single (c : Call) : Script := ⟨[c], none⟩

/-- The script that stops at once. -/
def stop (fault : Fault) : Script := ⟨[], some fault⟩

/-- One script after another. A script that stops is not gone beyond. -/
def andThen (first second : Script) : Script :=
  match first.fault with
  | some _ => first
  | none => ⟨first.calls ++ second.calls, second.fault⟩

/-- Performs a script on a receiver. A refused call comes before the fault at the end. -/
def run {σ : Type} [TreeSink σ] (script : Script) (sink : σ) : Reply σ :=
  let reply := TreeSink.feed sink script.calls
  if reply.fault.isSome then reply else { reply with fault := script.fault }

end Script

/-! ### Recording -/

/-- A receiver that records the calls it accepts and may refuse one of them. -/
structure CallLog where
  calls : List Call := []
  /-- The number of the call to refuse, counted from zero. -/
  refuseAt : Option Nat := none

instance : TreeSink CallLog where
  call log c :=
    if log.refuseAt = some log.calls.length then
      { sink := log, fault := some (.internal "sink refused") }
    else { sink := { log with calls := log.calls ++ [c] } }

end Restconf
