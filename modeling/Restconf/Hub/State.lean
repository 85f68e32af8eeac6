import Restconf.Hub.Config
import Restconf.Hub.Sink

/-!
# The state of the hub

Every subscription has a bounded queue of lines and one consumer, which takes lines off the queue
and writes them to a sink. A consumer is bound to a worker of a fixed pool as long as it runs.
Publishers visit the queues of the subscriptions that were registered when they began.

## Main definitions

* `Subscription` — registration, queue, waiting publishers, consumer and sink.
* `Progress` — how far a consumer is.
* `Publication`, `Publisher` — a line on its way into queues, and who brings it there.
* `Hub` — the whole state; `Hub.isHeld` says whether a queue can still receive.

## Implementation notes

Subscriptions and publishers are numbered in the order in which they came and stay in their lists
for good; a subscription that has left the registry is one with `isRegistered` unset. So a number
always means the same subscription, and the registry, the pool and the queues are all read off the
same list.

Room in a queue that is promised to a waiting publisher counts as taken. That is what keeps waiting
publishers in the order of their arrival.
-/

namespace Restconf

/-- The number of a subscription. -/
abbrev SubscriptionId := Nat

/-- The number of a publisher. -/
abbrev PublisherId := Nat

/-- How far a consumer is. -/
inductive Progress where
  /-- It has not run yet. -/
  | starting
  /-- It waits for a line. -/
  | receiving
  /-- It writes a line to its sink. -/
  | writing (line : String)
  /-- It has noted how it ends. -/
  | stopping (how : Ending)
  /-- It has left the registry. -/
  | closing (how : Ending)
  /-- It has closed its sink. -/
  | releasing (how : Ending)
  /-- It has given back its worker and let go of its queue. -/
  | returned (how : Ending)
  /-- It came down in its sink: in closing it, if it had noted how it ends, and otherwise in a
  write. Its worker is back, and its queue is gone. -/
  | crashed (noted : Option Ending)
deriving DecidableEq, Repr

/-- The consumer no longer runs. -/
def Progress.isOver : Progress → Bool
  | returned _ | crashed _ => true
  | _ => false

/-- A publisher that waits for room in a queue. -/
structure Waiter where
  publisher : PublisherId
  /-- Room is kept for it. -/
  granted : Bool := false
deriving DecidableEq, Repr

/-- A subscription. -/
structure Subscription (σ : Type) where
  stream : String
  phase : Phase := .registered
  /-- It has an entry in the registry. -/
  isRegistered : Bool := true
  progress : Progress := .starting
  /-- The lines that the queue holds, oldest first. -/
  queue : List String := []
  /-- The publishers that wait for room, in the order of their arrival. -/
  waiters : List Waiter := []
  sink : σ

/-- A line on its way. -/
structure Publication where
  line : String
  /-- The subscriptions still to visit. -/
  targets : List SubscriptionId
  /-- How many queues have taken the line. -/
  delivered : Nat := 0
deriving DecidableEq, Repr

/-- A task that publishes one line after another. -/
structure Publisher where
  current : Option Publication := none
  /-- How many queues took each finished line, oldest first. -/
  counts : List Nat := []
deriving DecidableEq, Repr

/-- The hub. -/
structure Hub (σ : Type) where
  config : HubConfig
  /-- The workers that are bound to no consumer. -/
  idleWorkers : Nat
  subscriptions : List (Subscription σ) := []
  publishers : List Publisher := []

namespace Hub

variable {σ : Type}

/-- A hub without subscriptions. -/
def ofConfig (config : HubConfig) : Hub σ := { config, idleWorkers := config.workerPoolSize }

/-- The registered subscriptions, oldest first. -/
def registry (hub : Hub σ) : List SubscriptionId :=
  (List.range hub.subscriptions.length).filter fun id =>
    (hub.subscriptions[id]?.map Subscription.isRegistered).getD false

/-- How many subscriptions are registered. -/
def count (hub : Hub σ) : Nat := hub.registry.length

/-- The state of a registered subscription. -/
def phase? (hub : Hub σ) (id : SubscriptionId) : Option Phase :=
  match hub.subscriptions[id]? with
  | some s => if s.isRegistered then some s.phase else none
  | none => none

/-- How a consumer ended. One that came down has failed. -/
def ending? (hub : Hub σ) (id : SubscriptionId) : Option Ending :=
  match hub.subscriptions[id]?.map Subscription.progress with
  | some (.returned how) => some how
  | some (.crashed _) => some .failed
  | _ => none

/-- A publisher has still to visit a subscription. -/
def Publisher.holds (id : SubscriptionId) (publisher : Publisher) : Bool :=
  match publisher.current with
  | some publication => publication.targets.contains id
  | none => false

/-- Something may still be put into the queue of a subscription: it is registered, or a publisher
has still to visit it. -/
def isHeld (hub : Hub σ) (id : SubscriptionId) : Bool :=
  hub.registry.contains id || hub.publishers.any (Publisher.holds id)

/-- A queue has room that is promised to nobody. -/
def hasRoom (hub : Hub σ) (s : Subscription σ) : Bool :=
  s.queue.length + s.waiters.countP Waiter.granted < hub.config.capacity

/-- Changes one subscription. -/
def update (hub : Hub σ) (id : SubscriptionId) (f : Subscription σ → Subscription σ) : Hub σ :=
  { hub with subscriptions := hub.subscriptions.modify id f }

/-- Changes one publisher. -/
def updatePublisher (hub : Hub σ) (id : PublisherId) (f : Publisher → Publisher) : Hub σ :=
  { hub with publishers := hub.publishers.modify id f }

end Hub

end Restconf
