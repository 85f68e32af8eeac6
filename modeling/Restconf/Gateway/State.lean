import Restconf.Engine.Datastore
import Restconf.Gateway.Schedule
import Restconf.Service

/-!
# The running gateway

A service over an engine, the hub, and the tasks that bring documents into the hub.

## Main definitions

* `Engine` — the datastore, or an engine with fixed answers.
* `Wire` — a notification channel: the engine's, or one of those made later.
* `Feed` — where a publisher takes its lines from.
* `Gateway` — the whole state.
* `Gateway.advance` — the next step of a task.
* `Gateway.step` — one step of the task whose turn it is; `Gateway.settle` runs all tasks until none
  can proceed.

## Implementation notes

What a single step does is the business of the hub, which allows every order of tasks, and every
order in which a publisher visits its targets. The schedule only picks one of these orders. It
decides in what order lines of different publishers come, and where lines are dropped, how many fit
before a consumer runs. Targets are then visited in the order in which they were registered.
-/

namespace Restconf

/-- The engines that a gateway can run over. -/
inductive Engine where
  | datastore (store : Datastore)
  | scripted (script : ScriptedEngine)

namespace Engine

instance : TreeEngine Engine where
  execute
    | datastore store, request =>
      let (answer, store) := TreeEngine.execute store request
      (answer, datastore store)
    | scripted script, request =>
      let (answer, script) := TreeEngine.execute script request
      (answer, scripted script)

/-- The announcements of an engine, if it makes any. -/
def announcements? : Engine → Option (Channel Notification)
  | datastore store => some store.announcements
  | scripted _ => none

end Engine

/-- A notification channel of the gateway. -/
inductive Wire where
  | engine
  | made (number : Nat)
deriving DecidableEq, Repr

/-- Where a publisher takes its lines from. -/
inductive Feed where
  /-- Lines one after another, until there are no more. -/
  | documents (lines : List String)
  /-- The notifications of a channel from a position on, those of one kind only. -/
  | listener (wire : Wire) (position : Nat)
  | finished
deriving DecidableEq, Repr

/-- A running gateway. -/
structure Gateway where
  service : ServiceConfig := {}
  engine : Engine
  hub : Hub Sink
  /-- The feed of each publisher of the hub. -/
  feeds : List Feed := []
  /-- The channels that were made. -/
  wires : List (Channel Notification) := []
  /-- The publishers that wait for a notification, in the order in which they began. -/
  listening : List PublisherId := []
  schedule : Schedule := {}

namespace Gateway

/-! ### Parts -/

/-- A notification channel; one that does not exist is closed. -/
def channel (g : Gateway) : Wire → Channel Notification
  | .engine => (g.engine.announcements?).getD { capacity := 1, isClosed := true }
  | .made number => (g.wires[number]?).getD { capacity := 1, isClosed := true }

/-- Sets the feed of a publisher. -/
def setFeed (g : Gateway) (id : PublisherId) (feed : Feed) : Gateway :=
  { g with feeds := g.feeds.set id feed }

/-- Gives tasks reason to run, one after another. -/
def wake (g : Gateway) (runners : List Runner) : Gateway :=
  { g with schedule := runners.foldl Schedule.wake g.schedule }

/-- Takes over a step of the hub. -/
def follow (g : Gateway) (next : Stepped Sink) : Gateway :=
  ({ g with hub := next.hub } : Gateway).wake next.woken

/-- The gateway after a step of a task, and what the step shows of the hub. -/
structure Moved where
  gateway : Gateway
  event : Option HubEvent := none
  /-- All that has happened is that the task begins to wait. -/
  waits : Bool := false

/-- An event is that of a publisher that begins to wait. -/
def beginsWait : HubEvent → Bool
  | .waits _ _ => true
  | _ => false

/-- A step of the hub as one of the gateway. -/
def moved (g : Gateway) (next : Stepped Sink) : Moved :=
  { gateway := g.follow next, event := next.event, waits := next.event.any beginsWait }

/-- A publisher listens to a channel. -/
def listensTo (g : Gateway) (wire : Wire) (id : PublisherId) : Bool :=
  match g.feeds[id]? with
  | some (.listener own _) => own == wire
  | _ => false

/-- Puts the listeners in line that wait for a notification of a channel. -/
def wakeListeners (g : Gateway) (wire : Wire) : Gateway :=
  let (woken, rest) := g.listening.partition (g.listensTo wire)
  ({ g with listening := rest } : Gateway).wake (woken.map .publisher)

/-! ### Running -/

/-- The next step of a publisher that has no line: it takes one from its feed, to be brought to the
targets in the order given. -/
def fetch (g : Gateway) (id : PublisherId) (targets : List SubscriptionId) : Option Moved :=
  match g.feeds[id]? with
  | some (.documents []) => some { gateway := g.setFeed id .finished }
  | some (.documents (line :: rest)) =>
    some ((g.setFeed id (.documents rest)).moved (g.hub.publishTo id line targets))
  | some (.listener wire position) =>
    match (g.channel wire).receive position with
    | .item event =>
      let g := g.setFeed id (.listener wire (position + 1))
      some (if event.kind = .yang then g.moved (g.hub.publishTo id event.data.render targets)
        else { gateway := g })
    | .lagged oldest => some { gateway := g.setFeed id (.listener wire oldest) }
    | .closed => some { gateway := g.setFeed id .finished }
    | .empty =>
      if g.listening.contains id then none
      else some { gateway := { g with listening := g.listening ++ [id] }, waits := true }
  | some .finished | none => none

/-- The next step of a task. A publisher that has a line brings it to its targets first. One that
begins a line will visit the targets in the order given. -/
def advance (g : Gateway) (runner : Runner) (targets : List SubscriptionId) : Option Moved :=
  match g.hub.advance runner, runner with
  | some next, _ => some (g.moved next)
  | none, .consumer _ => none
  | none, .publisher id =>
    if (g.hub.publishers[id]?.bind Publisher.current).isSome then none else g.fetch id targets

/-- What a task does next counts in its turn: it goes through a queue or a channel that could make
it wait. A queue that drops lines never does. -/
def countsInTurn (g : Gateway) : Runner → Bool
  | .consumer id =>
    match g.hub.subscriptions[id]? with
    | some { progress := .receiving, .. } => true
    | some { progress := .writing _, sink := .channel _, .. } => true
    | _ => false
  | .publisher id =>
    match g.hub.publishers[id]?.bind Publisher.current, g.feeds[id]? with
    | some publication, _ => g.hub.config.overflow = .block && !publication.targets.isEmpty
    | none, some (.listener _ _) => true
    | none, _ => false

/-- One step of the task whose turn it is. The turn ends where the task has to wait, or has used it
up. -/
def step (g : Gateway) : Option Gateway :=
  match g.schedule.ready with
  | [] =>
    if g.schedule.resting.isEmpty then none
    else some { g with schedule := g.schedule.callBack }
  | runner :: _ =>
    let counts := g.countsInTurn runner
    if counts && g.schedule.isSpent then some { g with schedule := g.schedule.rest }
    else
      match g.advance runner g.hub.registry with
      | none => some { g with schedule := g.schedule.endTurn }
      | some { gateway, waits, .. } =>
        some (if counts && !waits then { gateway with schedule := gateway.schedule.spend }
          else gateway)

/-- A number of steps. -/
def run : Nat → Gateway → Gateway
  | 0, g => g
  | fuel + 1, g =>
    match g.step with
    | none => g
    | some next => run fuel next

/-- How many lines a feed can still give. -/
def feedLength (g : Gateway) : Feed → Nat
  | .documents lines => lines.length
  | .listener wire _ => (g.channel wire).kept.length
  | .finished => 0

/-- A bound on the steps that the tasks can take by themselves: every line that is on its way or
still to come visits every subscription, and every step has reasons for at most all tasks. -/
def workload (g : Gateway) : Nat :=
  let subscriptions := g.hub.subscriptions.length + 1
  let publishers := g.hub.publishers.length + 1
  let coming := g.feeds.foldl (fun n feed => n + g.feedLength feed + 2) 0
  let queued := g.hub.subscriptions.foldl (fun n s => n + s.queue.length + 1) 0
  let lines := coming + queued + publishers
  16 * lines * subscriptions * (subscriptions + publishers) + 2 * g.schedule.size

/-- Runs all tasks until none can proceed. -/
def settle (g : Gateway) : Gateway :=
  run g.workload { g with schedule := { g.schedule with turns := 0 } }

/-! ### Tasks -/

/-- Starts a publisher with a feed. -/
def spawn (g : Gateway) (feed : Feed) : PublisherId × Gateway :=
  let (id, hub) := g.hub.addPublisher
  (id, ({ g with hub, feeds := g.feeds ++ [feed] } : Gateway).wake [.publisher id])

/-- Starts a task that publishes documents one after another. -/
def publishAll (g : Gateway) (documents : List Json) : PublisherId × Gateway :=
  g.spawn (.documents (documents.map Json.render))

/-- A publisher has come to the end of its feed. -/
def hasFinished (g : Gateway) (id : PublisherId) : Bool := g.feeds[id]? == some .finished

/-- How many subscribers each document of a task reached, once all are published. -/
def deliveries? (g : Gateway) (id : PublisherId) : Option (List Nat) :=
  if g.hasFinished id then (g.hub.publishers[id]?).map Publisher.counts else none

/-- Starts a listener on the announcements of the engine. An engine without any has none. -/
def bridge (g : Gateway) : Bool × Gateway :=
  match g.engine.announcements? with
  | some channel => (true, (g.spawn (.listener .engine channel.sent)).2)
  | none => (false, g)

/-- Makes a notification channel and starts a listener on it. -/
def listen (g : Gateway) (capacity : Nat) : Nat × PublisherId × Gateway :=
  let number := g.wires.length
  let wired : Gateway := { g with wires := g.wires ++ [Channel.ofCapacity capacity] }
  let (id, g) := wired.spawn (.listener (.made number) 0)
  (number, id, g)

/-- How many listeners there are on a channel. -/
def listenerCount (g : Gateway) (wire : Wire) : Nat :=
  (List.range g.feeds.length).countP (g.listensTo wire)

/-- Sends a notification on a channel that was made. -/
def notify (g : Gateway) (number : Nat) (event : Notification) : Nat × Gateway :=
  (g.listenerCount (.made number),
    ({ g with wires := g.wires.modify number fun c => c.send event } : Gateway).wakeListeners
      (.made number))

/-- Closes a channel that was made. -/
def closeWire (g : Gateway) (number : Nat) : Gateway :=
  ({ g with wires := g.wires.modify number Channel.close } : Gateway).wakeListeners (.made number)

/-! ### Subscriptions -/

/-- Subscribes a sink to a stream. A gateway is started only where its queues can be made, so that
no attempt comes down. -/
def subscribe (g : Gateway) (stream : String) (sink : Sink) :
    Except Fault (SubscriptionId × Gateway) :=
  match g.hub.subscribe stream sink with
  | .ok (id, next) => .ok (id, g.follow next)
  | .error (.refused fault) => .error fault
  | .error .crashed => .error (.internal s!"no queue holds {g.hub.config.capacity} lines")

/-- Shuts the hub down. -/
def shutdown (g : Gateway) : Gateway := g.follow g.hub.shutdown

/-- The reader of a subscription goes away. -/
def abandon (g : Gateway) (id : SubscriptionId) : Gateway :=
  g.follow (g.hub.touchSink id Sink.abandon)

/-- The sink of a subscription. -/
def sink? (g : Gateway) (id : SubscriptionId) : Option Sink :=
  g.hub.subscriptions[id]?.map Subscription.sink

/-- The reader of a channel takes a chunk, if one waits there. -/
def takeChunk? (g : Gateway) (id : SubscriptionId) : Option (String × Gateway) :=
  match g.sink? id with
  | some (.channel c) => do
    let (chunk, rest) ← c.take?
    return (chunk, g.follow (g.hub.touchSink id fun _ => .channel rest))
  | _ => none

/-- The reader of a channel has seen its end. -/
def atEnd (g : Gateway) (id : SubscriptionId) : Bool :=
  match g.sink? id with
  | some (.channel c) => c.isExhausted
  | _ => false

/-- The reader of a channel takes chunks: as many as it wants, or until nothing more comes. Where
none waits, all tasks run before it gives up. Also says whether the end was seen. -/
def takeChunks (id : SubscriptionId) : (most : Nat) → Gateway → List String × Bool × Gateway
  | 0, g => ([], false, g)
  | most + 1, g =>
    match g.takeChunk? id with
    | some (chunk, g) =>
      let (chunks, ended, g) := takeChunks id most g
      (chunk :: chunks, ended, g)
    | none =>
      if g.atEnd id then ([], true, g)
      else
        let g := g.settle
        match g.takeChunk? id with
        | some (chunk, g) =>
          let (chunks, ended, g) := takeChunks id most g
          (chunk :: chunks, ended, g)
        | none => ([], g.atEnd id, g)

/-- What the reader of a subscription gets: the chunks of a channel, at most so many if a number is
given, or all lines of a recorder since the last time. A reader that has gone away sees the end as
soon as it wants a chunk. -/
def receive (g : Gateway) (id : SubscriptionId) (most : Option Nat) :
    List String × Bool × Gateway :=
  match g.sink? id with
  | some (.recorder r) => (r.lines, false, g.follow (g.hub.touchSink id fun _ => .recorder r.drain))
  | some (.channel c) =>
    if c.isAbandoned then ([], most.getD 1 ≠ 0, g)
    else takeChunks id (most.getD (g.workload + c.chunks.length + 1)) g
  | none => ([], false, g)

/-! ### Data resources -/

/-- Takes over what a request has done to the engine. Its listeners hear of announcements. -/
def withEngine (g : Gateway) (engine : Engine) : Gateway :=
  let sent (e : Engine) := e.announcements?.map Channel.sent
  let changed := sent engine != sent g.engine
  let g := { g with engine }
  if changed then g.wakeListeners .engine else g

/-- Reads the subtree at a URI. -/
def read (g : Gateway) (uri : String) : Except Fault Json × Gateway :=
  let (answer, engine) := Service.read g.service g.engine uri
  (answer, g.withEngine engine)

/-- Edits the datastore at a URI. -/
def edit (g : Gateway) (intent : Intent) (uri : String) (body : Option Json) :
    Except Fault Unit × Gateway :=
  let (answer, engine) := Service.edit g.service g.engine intent uri body
  (answer, g.withEngine engine)

/-- Gives a request to the engine as it is. -/
def execute (g : Gateway) (request : Request) : Except Fault (Option Node) × Gateway :=
  let (answer, engine) := TreeEngine.execute g.engine request
  (answer, g.withEngine engine)

end Gateway

end Restconf
