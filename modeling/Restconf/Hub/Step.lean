import Restconf.Hub.State

/-!
# The steps of the hub

Everything that can happen in the hub, one step at a time. A step that cannot be taken is `none`;
which of the possible steps comes next is not decided here.

## Main definitions

* `Hub.subscribe`, `Hub.shutdown`, `Hub.touchSink` — what is done to the hub from outside.
* `Hub.publishTo` — a publisher begins a line; `Hub.visit` is its next step.
* `Hub.consume` — the next step of a consumer.
* `HubEvent` — what a step shows.
* `Hub.Step` — one step of whatever kind, publishers visiting their targets in any order; `Hub.Run`
  is any number of steps, with what they show in order.

## Implementation notes

A step also says which consumers and publishers have reason to try again after it: `Stepped.woken`.
This does not bear on what steps are possible. It is what a scheduler needs in order not to ask
everybody after each step.

The hub keeps no history. What lines a queue has taken and a sink has been given stands in the
events of a run.
-/

namespace Restconf

/-- Those that take steps of their own. -/
inductive Runner where
  | consumer (id : SubscriptionId)
  | publisher (id : PublisherId)
deriving DecidableEq, Repr

/-- What a step shows. -/
inductive HubEvent where
  | subscribed (id : SubscriptionId)
  /-- A publisher begins a line for the subscriptions that are registered. -/
  | began (publisher : PublisherId) (line : String) (targets : List SubscriptionId)
  /-- A queue has taken the line of a publisher. -/
  | accepted (publisher : PublisherId) (id : SubscriptionId) (line : String)
  /-- A publisher has gone on without a queue. -/
  | passed (publisher : PublisherId) (id : SubscriptionId)
  /-- A publisher begins to wait for room in a queue. -/
  | waits (publisher : PublisherId) (id : SubscriptionId)
  /-- A publisher ends a line that so many queues have taken. -/
  | completed (publisher : PublisherId) (count : Nat)
  /-- A consumer runs for the first time. -/
  | started (id : SubscriptionId)
  /-- A consumer has taken a line off its queue. -/
  | took (id : SubscriptionId) (line : String)
  /-- A consumer has come to the end of its queue. -/
  | ended (id : SubscriptionId)
  /-- A sink has taken a line. -/
  | wrote (id : SubscriptionId) (line : String)
  /-- A sink has refused a line. -/
  | refused (id : SubscriptionId) (fault : Fault)
  /-- A sink has brought its consumer down: in closing it, if the consumer had noted how it ends,
  and otherwise in a write. -/
  | crashed (id : SubscriptionId) (noted : Option Ending)
  /-- A consumer has left the registry. -/
  | left (id : SubscriptionId)
  /-- A sink has been closed. -/
  | closed (id : SubscriptionId)
  /-- A consumer has given back its worker. -/
  | returned (id : SubscriptionId) (how : Ending)
  | shutdown
deriving DecidableEq, Repr

/-- Why a subscription is not made. -/
inductive SubscribeError where
  /-- It is refused. -/
  | refused (fault : Fault)
  /-- There are no queues as long as that, and the attempt to make one brings down who makes it. -/
  | crashed
deriving DecidableEq, Repr

/-- The hub after a step, those who have reason to try again, in order, and what the step shows. -/
structure Stepped (σ : Type) where
  hub : Hub σ
  woken : List Runner := []
  event : Option HubEvent := none

namespace Hub

variable {σ : Type}

/-! ### From outside -/

/-- Registers a subscription and binds a worker to its consumer. An attempt that comes down has not
changed anything; the worker that it had taken is idle again. -/
def subscribe (hub : Hub σ) (stream : String) (sink : σ) :
    Except SubscribeError (SubscriptionId × Stepped σ) :=
  if hub.idleWorkers = 0 then .error (.refused (.poolExhausted hub.config.workerPoolSize))
  else if permitLimit < hub.config.capacity then .error .crashed
  else
    let id := hub.subscriptions.length
    .ok (id,
      { hub := { hub with
          idleWorkers := hub.idleWorkers - 1
          subscriptions := hub.subscriptions ++ [{ stream, sink }] }
        woken := [.consumer id]
        event := some (.subscribed id) })

/-- A consumer that waits for a line has reason to look again. -/
def wakeReceiver (hub : Hub σ) (id : SubscriptionId) : List Runner :=
  if hub.subscriptions[id]?.map Subscription.progress = some .receiving then [.consumer id] else []

/-- Empties the registry. Consumers whose queues nobody holds any more find out. -/
def shutdown (hub : Hub σ) : Stepped σ :=
  let emptied := { hub with
    subscriptions := hub.subscriptions.map fun s => { s with isRegistered := false } }
  { hub := emptied
    woken := hub.registry.flatMap fun id =>
      if emptied.isHeld id then [] else emptied.wakeReceiver id
    event := some .shutdown }

/-- Something happens to a sink at its far end. A consumer that is writing may get on. -/
def touchSink (hub : Hub σ) (id : SubscriptionId) (f : σ → σ) : Stepped σ :=
  { hub := hub.update id fun s => { s with sink := f s.sink }
    woken :=
      match hub.subscriptions[id]?.map Subscription.progress with
      | some (.writing _) => [.consumer id]
      | _ => [] }

/-! ### Publishers -/

/-- Adds a publisher that has nothing to do yet. -/
def addPublisher (hub : Hub σ) : PublisherId × Hub σ :=
  (hub.publishers.length, { hub with publishers := hub.publishers ++ [{}] })

/-- A publisher begins a line, to be brought to the targets in the order given. -/
def publishTo (hub : Hub σ) (id : PublisherId) (line : String) (targets : List SubscriptionId) :
    Stepped σ :=
  { hub := hub.updatePublisher id fun p => { p with current := some { line, targets } }
    event := some (.began id line targets) }

/-- A publisher goes on to its next target. -/
def passTarget (hub : Hub σ) (id : PublisherId) (accepted : Bool) : Hub σ :=
  hub.updatePublisher id fun p =>
    { p with
      current := p.current.map fun publication =>
        { publication with
          targets := publication.targets.tail
          delivered := publication.delivered + accepted.toNat } }

/-- The target of a publisher has taken the line. -/
def accept (hub : Hub σ) (id : PublisherId) (target : SubscriptionId) (line : String) : Stepped σ :=
  let filled := hub.update target fun s =>
    { s with
      queue := s.queue ++ [line]
      waiters := s.waiters.filter fun w => w.publisher ≠ id }
  { hub := filled.passTarget id true
    woken := filled.wakeReceiver target
    event := some (.accepted id target line) }

/-- The target of a publisher is left out. -/
def skip (hub : Hub σ) (id : PublisherId) (target : SubscriptionId) : Stepped σ :=
  let passed := hub.passTarget id false
  { hub := passed
    woken := if passed.isHeld target then [] else passed.wakeReceiver target
    event := some (.passed id target) }

/-- The queue of the target is gone, and with it the registration. -/
def forget (hub : Hub σ) (id : PublisherId) (target : SubscriptionId) : Stepped σ :=
  { hub := (hub.update target fun s => { s with isRegistered := false }).passTarget id false
    event := some (.passed id target) }

/-- A publisher gets in line for room in a queue. -/
def enqueue (hub : Hub σ) (id : PublisherId) (target : SubscriptionId) : Stepped σ :=
  { hub := hub.update target fun s => { s with waiters := s.waiters ++ [{ publisher := id }] }
    event := some (.waits id target) }

/-- A publisher ends its line. -/
def finishLine (hub : Hub σ) (id : PublisherId) (count : Nat) : Stepped σ :=
  { hub := hub.updatePublisher id fun p => { current := none, counts := p.counts ++ [count] }
    event := some (.completed id count) }

/-- A publisher at a target whose queue exists. -/
def offer (hub : Hub σ) (id : PublisherId) (target : SubscriptionId) (s : Subscription σ)
    (line : String) : Option (Stepped σ) :=
  match hub.config.overflow, s.waiters.find? fun w => w.publisher = id with
  | .drop, _ => some (if hub.hasRoom s then hub.accept id target line else hub.skip id target)
  | .block, some waiter => if waiter.granted then some (hub.accept id target line) else none
  | .block, none =>
    some (if hub.hasRoom s then hub.accept id target line else hub.enqueue id target)

/-- The next step of a publisher on its line. -/
def visit (hub : Hub σ) (id : PublisherId) : Option (Stepped σ) :=
  match hub.publishers[id]?.bind Publisher.current with
  | none => none
  | some publication =>
    match publication.targets with
    | [] => some (hub.finishLine id publication.delivered)
    | target :: _ =>
      match hub.subscriptions[target]? with
      | none => some (hub.skip id target)
      | some s =>
        if s.progress.isOver then some (hub.forget id target)
        else hub.offer id target s publication.line

/-! ### Consumers -/

/-- Keeps room for the first waiter that has none. -/
def grantFirst : List Waiter → List Waiter × List Runner
  | [] => ([], [])
  | waiter :: rest =>
    if waiter.granted then
      let (rest, woken) := grantFirst rest
      (waiter :: rest, woken)
    else ({ waiter with granted := true } :: rest, [.publisher waiter.publisher])

/-- A consumer notes how it ends. -/
def stop (hub : Hub σ) (id : SubscriptionId) (how : Ending) : Hub σ :=
  hub.update id fun s => { s with phase := .ended how, progress := .stopping how }

/-- A consumer takes a line off its queue. -/
def dequeue (hub : Hub σ) (id : SubscriptionId) (s : Subscription σ) (line : String)
    (rest : List String) : Stepped σ :=
  let (waiters, woken) := grantFirst s.waiters
  { hub := hub.update id fun s => { s with queue := rest, waiters, progress := .writing line }
    woken
    event := some (.took id line) }

/-- A consumer gives back its worker and lets go of its queue. The publishers that wait there find
out. -/
def release (hub : Hub σ) (id : SubscriptionId) (s : Subscription σ) (progress : Progress)
    (event : HubEvent) : Stepped σ :=
  { hub := { hub.update id fun s => { s with progress, queue := [], waiters := [] } with
      idleWorkers := hub.idleWorkers + 1 }
    woken := s.waiters.map fun w => .publisher w.publisher
    event := some event }

variable [LineSink σ]

/-- A consumer attempts to write a line. -/
def writeLine (hub : Hub σ) (id : SubscriptionId) (s : Subscription σ) (line : String) :
    Option (Stepped σ) :=
  match LineSink.write s.sink line with
  | .written sink =>
    some {
      hub := hub.update id fun s => { s with sink, progress := .receiving }
      event := some (.wrote id line) }
  | .refused fault =>
    some {
      hub := hub.stop id (if fault = .sinkClosed then .closed else .failed)
      event := some (.refused id fault) }
  | .pending => none
  | .crashed => some (hub.release id s (.crashed none) (.crashed id none))

/-- A consumer that is to end in some way attempts to close its sink. -/
def closeSink (hub : Hub σ) (id : SubscriptionId) (s : Subscription σ) (how : Ending) :
    Option (Stepped σ) :=
  match LineSink.close s.sink with
  | .closed sink =>
    some {
      hub := hub.update id fun s => { s with sink, progress := .releasing how }
      event := some (.closed id) }
  | .pending => none
  | .crashed => some (hub.release id s (.crashed (some how)) (.crashed id (some how)))

/-- The next step of a consumer. -/
def consume (hub : Hub σ) (id : SubscriptionId) : Option (Stepped σ) :=
  match hub.subscriptions[id]? with
  | none => none
  | some s =>
    match s.progress with
    | .starting =>
      some {
        hub := hub.update id fun s => { s with phase := .streaming, progress := .receiving }
        event := some (.started id) }
    | .receiving =>
      match s.queue with
      | line :: rest => some (hub.dequeue id s line rest)
      | [] =>
        if hub.isHeld id then none
        else some { hub := hub.stop id .closed, event := some (.ended id) }
    | .writing line => hub.writeLine id s line
    | .stopping how =>
      some {
        hub := hub.update id fun s => { s with isRegistered := false, progress := .closing how }
        event := some (.left id) }
    | .closing how => hub.closeSink id s how
    | .releasing how => some (hub.release id s (.returned how) (.returned id how))
    | .returned _ | .crashed _ => none

/-- The next step of a consumer or of a publisher on its line. -/
def advance (hub : Hub σ) : Runner → Option (Stepped σ)
  | .consumer id => hub.consume id
  | .publisher id => hub.visit id

/-! ### All steps -/

/-- One step of the hub, and what it shows. Publishers begin lines at any time they have none, and
visit the registered subscriptions in any order. -/
inductive Step : Hub σ → Option HubEvent → Hub σ → Prop where
  | subscribe {hub : Hub σ} {stream : String} {sink : σ} {id : SubscriptionId} {next : Stepped σ}
      (h : hub.subscribe stream sink = .ok (id, next)) : Step hub next.event next.hub
  | addPublisher (hub : Hub σ) : Step hub none hub.addPublisher.2
  | publish {hub : Hub σ} {id : PublisherId} {p : Publisher} {targets : List SubscriptionId}
      (line : String) (h : hub.publishers[id]? = some p) (idle : p.current = none)
      (order : targets.Perm hub.registry) :
      Step hub (hub.publishTo id line targets).event (hub.publishTo id line targets).hub
  | advance {hub : Hub σ} {runner : Runner} {next : Stepped σ}
      (h : hub.advance runner = some next) : Step hub next.event next.hub
  | touchSink {hub : Hub σ} {id : SubscriptionId} {s : Subscription σ} {sink : σ}
      (h : hub.subscriptions[id]? = some s) (far : LineSink.FarStep s.sink sink) :
      Step hub none (hub.touchSink id fun _ => sink).hub
  | shutdown (hub : Hub σ) : Step hub hub.shutdown.event hub.shutdown.hub

/-- Any number of steps, and what they show in order. -/
inductive Run : Hub σ → List HubEvent → Hub σ → Prop where
  | refl (hub : Hub σ) : Run hub [] hub
  | tail {a b c : Hub σ} {events : List HubEvent} {event : Option HubEvent} (h : Run a events b)
      (s : Step b event c) : Run a (events ++ event.toList) c

/-- Nobody can take a step of their own. -/
def IsQuiescent (hub : Hub σ) : Prop := ∀ runner, hub.advance runner = none

end Hub

end Restconf
