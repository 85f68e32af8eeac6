import Restconf.Json.Record
import Restconf.Json.Shape
import Restconf.Time.Instant

/-!
# Notifications

What an engine announces on its own account, and the channel that carries it to any number of
listeners.

## Main definitions

* `Notification` — a kind and a document; `TimedNotification` adds the time and has a serialized
  form.
* `Channel` — the newest items of a stream. Every listener has a position of its own in the stream
  and never holds up the sender; `Channel.receive` says what stands at a position.

## Implementation notes

Positions count the items ever sent. A channel keeps the last `capacity` of them, so the item at a
position is found from the end of the kept ones, and a listener whose position is older than all of
them has missed items and goes on at the oldest.
-/

namespace Restconf

/-- The kinds of notification. -/
inductive NotificationKind where
  | yang | netconf | syslog | snmp
deriving DecidableEq, Repr

namespace NotificationKind

/-- The serialized name of a kind. -/
def label : NotificationKind → String
  | yang => "yang_notification"
  | netconf => "netconf_notification"
  | syslog => "syslog_event"
  | snmp => "snmp_event"

/-- The serialized names of the kinds. -/
def names : List (String × NotificationKind) :=
  [("yang_notification", yang), ("netconf_notification", netconf), ("syslog_event", syslog),
    ("snmp_event", snmp)]

/-- Reads a serialized kind. -/
def ofJson? : Json → Option NotificationKind := Json.choice? names

end NotificationKind

/-- A notification of an engine. -/
structure Notification where
  kind : NotificationKind
  /-- The document for the subscribers. -/
  data : Json

/-- A notification with the time at which it arose. -/
structure TimedNotification extends Notification where
  time : Instant

namespace TimedNotification

/-- The serialized form of a notification. -/
def toJson (event : TimedNotification) : Json :=
  .object [("kind", .string event.kind.label), ("time", .string event.time.text),
    ("data", event.data)]

/-- What is wanted of a serialized notification. -/
def shape : Json.Shape := .record [("kind", .any), ("time", .any), ("data", .any)]

/-- Reads a serialized notification. -/
def ofJson? (value : Json) : Option TimedNotification := do
  let record ← value.record? shape.names false
  return {
    kind := ← record.required? "kind" NotificationKind.ofJson?
    time := ← record.required? "time" fun time => time.string?.bind Instant.parse?
    data := ← record.required? "data" fun data => some data.merge }

/-- The notification that a text serializes. -/
def ofText? : String → Option TimedNotification := Json.decode? shape ofJson?

end TimedNotification

/-! ### Channels -/

/-- A stream of which the newest items are kept. -/
structure Channel (α : Type) where
  /-- How many items are kept. -/
  capacity : Nat
  /-- The kept items, oldest first. -/
  kept : List α := []
  /-- How many items were ever sent. -/
  sent : Nat := 0
  /-- Nothing more will be sent. -/
  isClosed : Bool := false

/-- What a listener finds at its position. -/
inductive Reception (α : Type) where
  | item (value : α)
  /-- The items from the position on are gone; the oldest that is kept has the given position. -/
  | lagged (oldest : Nat)
  /-- Everything has been received so far. -/
  | empty
  /-- Everything has been received, and nothing more will come. -/
  | closed

namespace Channel

variable {α : Type}

/-- An empty channel for at least the given number of items; a power of two. -/
def ofCapacity (capacity : Nat) : Channel α := { capacity := capacity.nextPowerOfTwo }

/-- Sends an item. The oldest kept one makes room for it where there is none. -/
def send (channel : Channel α) (value : α) : Channel α :=
  let kept := channel.kept ++ [value]
  { channel with kept := kept.drop (kept.length - channel.capacity), sent := channel.sent + 1 }

/-- Ends the stream. -/
def close (channel : Channel α) : Channel α := { channel with isClosed := true }

/-- The position of the oldest kept item. -/
def oldest (channel : Channel α) : Nat := channel.sent - channel.kept.length

/-- What a listener finds at a position. -/
def receive (channel : Channel α) (position : Nat) : Reception α :=
  if position < channel.oldest then .lagged channel.oldest
  else
    match channel.kept[position - channel.oldest]? with
    | some value => .item value
    | none => if channel.isClosed then .closed else .empty

end Channel

end Restconf
