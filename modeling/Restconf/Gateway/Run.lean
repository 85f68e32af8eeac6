import Restconf.Gateway.State

/-!
# Runs of the gateway

Everything that can happen in a gateway, one step at a time, in every order of tasks and in every
order in which publishers visit their targets. `settle` is one of these orders: what tasks do does
not depend on the schedule, which may change at any time.

## Main definitions

* `Gateway.Step`, `Gateway.Run` — one step and any number of steps, with what they show of the hub.
* `Gateway.IsQuiescent` — no task can take a step.
-/

namespace Restconf.Gateway

/-- One step of a gateway, and what it shows of the hub. -/
inductive Step : Gateway → Option HubEvent → Gateway → Prop where
  | advance {g : Gateway} {runner : Runner} {targets : List SubscriptionId} {next : Moved}
      (h : g.advance runner targets = some next) (order : targets.Perm g.hub.registry) :
      Step g next.event next.gateway
  | subscribe {g next : Gateway} {stream : String} {sink : Sink} {id : SubscriptionId}
      (h : g.subscribe stream sink = .ok (id, next)) : Step g (some (.subscribed id)) next
  | reader {g : Gateway} {id : SubscriptionId} {s : Subscription Sink} {sink : Sink}
      (h : g.hub.subscriptions[id]? = some s) (far : LineSink.FarStep s.sink sink) :
      Step g none (g.follow (g.hub.touchSink id fun _ => sink))
  | publishAll (g : Gateway) (documents : List Json) : Step g none (g.publishAll documents).2
  | bridge (g : Gateway) : Step g none g.bridge.2
  | listen (g : Gateway) (capacity : Nat) : Step g none (g.listen capacity).2.2
  /-- Whoever holds a channel that was made sends on it until it closes it. -/
  | notify {g : Gateway} {number : Nat} {channel : Channel Notification} (event : Notification)
      (made : g.wires[number]? = some channel) (isOpen : channel.isClosed = false) :
      Step g none (g.notify number event).2
  | closeWire (g : Gateway) (number : Nat) : Step g none (g.closeWire number)
  | execute (g : Gateway) (request : Request) : Step g none (g.execute request).2
  | shutdown (g : Gateway) : Step g (some .shutdown) g.shutdown
  | reschedule (g : Gateway) (schedule : Schedule) : Step g none { g with schedule }

/-- Any number of steps, and what they show of the hub in order. -/
inductive Run : Gateway → List HubEvent → Gateway → Prop where
  | refl (g : Gateway) : Run g [] g
  | tail {a b c : Gateway} {events : List HubEvent} {event : Option HubEvent} (h : Run a events b)
      (s : Step b event c) : Run a (events ++ event.toList) c

/-- No task can take a step. In what order targets would be visited does not matter for that. -/
def IsQuiescent (g : Gateway) : Prop := ∀ runner, g.advance runner g.hub.registry = none

end Restconf.Gateway
