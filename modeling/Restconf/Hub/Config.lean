import Restconf.Json.Record

/-!
# Configuration of the hub

## Main definitions

* `OverflowPolicy` — what a publisher does at a full queue.
* `HubConfig` — the size of the worker pool, the capacity of queues, and the policy.
* `permitLimit` — how large a pool or a queue can be.
* `Phase` — the state of a subscription, and `Ending` the two states in which it can end.

## Implementation notes

Workers and the room in queues are counted in permits, and a counter holds only so many of them.
This limit belongs to the counter. Reading a configuration does not look at it: a pool that is too
large cannot be made, and a queue that is too long brings down who makes it.
-/

namespace Restconf

/-- What a publisher does at a full queue. -/
inductive OverflowPolicy where
  /-- It waits for room. -/
  | block
  /-- It leaves the subscriber out. -/
  | drop
deriving DecidableEq, Repr

namespace OverflowPolicy

/-- The serialized name of a policy. -/
def label : OverflowPolicy → String
  | block => "block"
  | drop => "drop"

/-- The serialized names of the policies. -/
def names : List (String × OverflowPolicy) := [("block", block), ("drop", drop)]

/-- Reads a serialized policy. -/
def ofJson? : Json → Option OverflowPolicy := Json.choice? names

end OverflowPolicy

/-- The most permits that a counter holds. -/
def permitLimit : Nat := Nat.pow 2 61 - 1

/-- Sizes and policy of the hub. -/
structure HubConfig where
  /-- How many subscriptions there can be at a time. -/
  workerPoolSize : Nat := 5
  /-- How many lines a queue holds; zero counts as one. -/
  queueCapacity : Nat := 64
  overflow : OverflowPolicy := .block
deriving DecidableEq, Repr

namespace HubConfig

/-- How many lines a queue holds. -/
def capacity (config : HubConfig) : Nat := max 1 config.queueCapacity

/-- The serialized form of a configuration. -/
def toJson (config : HubConfig) : Json :=
  .object [("worker_pool_size", .number (.integer config.workerPoolSize)),
    ("queue_capacity", .number (.integer config.queueCapacity)),
    ("overflow", .string config.overflow.label)]

/-- Sizes are numbers of 64 bits. -/
def sizeBound : Nat := Nat.pow 2 64

/-- Reads a serialized configuration. Fields that are not given keep their defaults. -/
def ofJson? (value : Json) : Option HubConfig := do
  let record ← value.record? ["worker_pool_size", "queue_capacity", "overflow"] true
  let default : HubConfig := {}
  return {
    workerPoolSize :=
      ← record.optional? "worker_pool_size" default.workerPoolSize (Json.natBelow? sizeBound)
    queueCapacity :=
      ← record.optional? "queue_capacity" default.queueCapacity (Json.natBelow? sizeBound)
    overflow := ← record.optional? "overflow" default.overflow OverflowPolicy.ofJson? }

end HubConfig

/-! ### The life of a subscription -/

/-- How a subscription ends. -/
inductive Ending where
  /-- The sink was closed by its reader, or the hub let go of the queue. -/
  | closed
  /-- The sink failed. -/
  | failed
deriving DecidableEq, Repr

/-- The state of a subscription. -/
inductive Phase where
  /-- The consumer has not run yet. -/
  | registered
  /-- The consumer delivers. -/
  | streaming
  | ended (how : Ending)
deriving DecidableEq, Repr

namespace Phase

/-- The serialized name of a state. -/
def label : Phase → String
  | registered => "registered"
  | streaming => "streaming"
  | ended .closed => "closed"
  | ended .failed => "failed"

/-- The serialized names of the states. -/
def names : List (String × Phase) :=
  [("registered", registered), ("streaming", streaming), ("closed", ended .closed),
    ("failed", ended .failed)]

/-- Reads a serialized state. -/
def ofJson? : Json → Option Phase := Json.choice? names

end Phase

end Restconf
