import Restconf.Proofs.Hub.Count
import Restconf.Proofs.Hub.Frontier

/-!
# Fan-out

What the hub promises of the lines of its publishers, on all runs: whatever subscriptions come and
go, however publishers and consumers alternate, in whatever order a publisher visits those that were
registered, and whatever happens to sinks.

## What the promise is about

A line is known by its publisher and its number, not by its text: two lines of one publisher may be
equal. So the order of what a sink has seen is an order of numbers, and that a queue takes a line at
most once is a statement about numbers. The text of a delivery is that of the line with its number.

## Main definitions

* `Hub.FanOut` — the promise, of the hub behind a run and of what the run has shown

## Main results

* `Hub.Run.fanOut` — it holds at every moment of every run
-/

namespace Restconf.Hub

open Ledger

variable {σ : Type} [LineSink σ] {start hub : Hub σ} {config : HubConfig} {events : List HubEvent}

/-! ### Moments of a run -/

/-- Whatever a run shows, it shows in a step between two moments of the run. -/
theorem Run.split {earlier later : List HubEvent} {event : HubEvent}
    (h : Run start (earlier ++ event :: later) hub) :
    ∃ before behind : Hub σ, Run start earlier before ∧ Step before (some event) behind
      ∧ Run behind later hub := by
  generalize hevents : earlier ++ event :: later = events at h
  induction h generalizing later with
  | refl => exact absurd hevents (List.append_ne_nil_of_right_ne_nil _ (List.cons_ne_nil _ _))
  | @tail b c shown last run step ih =>
    cases last with
    | none =>
      obtain ⟨before, behind, hearlier, hstep, hlater⟩ := ih (hevents.trans (List.append_nil _))
      exact ⟨before, behind, hearlier, hstep, by simpa using hlater.tail step⟩
    | some last =>
      rcases List.eq_nil_or_concat later with rfl | ⟨later, e, rfl⟩
      · obtain ⟨rfl, hlast⟩ := List.append_inj' hevents rfl
        obtain rfl := List.head_eq_of_cons_eq hlast
        exact ⟨b, c, run, step, .refl c⟩
      · rw [List.concat_eq_append, ← List.cons_append, ← List.append_assoc] at hevents
        obtain ⟨hshown, hlast⟩ := List.append_inj' hevents rfl
        obtain ⟨before, behind, hearlier, hstep, hlater⟩ := ih hshown
        obtain rfl := List.head_eq_of_cons_eq hlast
        exact ⟨before, behind, hearlier, hstep, List.concat_eq_append ▸ hlater.tail step⟩

/-- A publisher begins a line for those that are registered at that moment. -/
theorem Run.perm_registry {earlier later : List HubEvent} {p : PublisherId} {line : String}
    {targets : List SubscriptionId}
    (h : Run start (earlier ++ .began p line targets :: later) hub) :
    ∃ before behind : Hub σ, Run start earlier before ∧ targets.Perm before.registry
      ∧ Step before (some (.began p line targets)) behind ∧ Run behind later hub := by
  obtain ⟨before, behind, hearlier, step, hlater⟩ := h.split
  refine ⟨before, behind, hearlier, ?_, step, hlater⟩
  generalize hevent : some (HubEvent.began p line targets) = event at step
  cases step.move <;> cases hevent
  assumption

/-! ### Sinks -/

section Runs

variable (h : Run (ofConfig config) events hub)

include h

/-- What a sink has been given is what it has seen of the queue. -/
theorem Run.writtenTo_eq (id : SubscriptionId) :
    (ofEvents events).writtenTo id = ((ofEvents events).seenBy id).map Delivery.line := by
  rw [seenBy, List.map_take]
  exact List.prefix_iff_eq_take.mp (h.balanced id).prefix_linesTo

/-- A queue takes a line at most once, and lines of a publisher in their order. -/
theorem Run.pairwise_numbers (p : PublisherId) (id : SubscriptionId) :
    ((ofEvents events).numbers p id).Pairwise (· < ·) := by
  refine List.Pairwise.sublist (h.numbers_sublist_due p id) ?_
  exact List.pairwise_lt_range.filter _

theorem Run.pairwise_numbersSeen (p : PublisherId) (id : SubscriptionId) :
    ((ofEvents events).numbersSeen p id).Pairwise (· < ·) := by
  refine List.Pairwise.sublist (List.Sublist.map _ (List.Sublist.filter _ ?_))
    (h.pairwise_numbers p id)
  exact List.take_sublist _ _

/-- The queues that have taken a line are different ones. -/
theorem Run.nodup_takers (p : PublisherId) (number : Nat) :
    ((ofEvents events).takers p number).Nodup := by
  refine List.nodup_iff_count.mpr fun id => ?_
  have hcount : ((ofEvents events).takers p number).count id
      = ((ofEvents events).numbers p id).count number := by
    rw [takers, numbers, deliveriesTo, List.count, List.count, List.countP_map, List.countP_map,
      List.countP_filter, List.countP_filter, List.countP_filter]
    refine List.countP_congr fun delivery _ => ?_
    simp only [Function.comp_apply, beq_iff_eq, Bool.and_eq_true, decide_eq_true_eq]
    constructor
    · rintro ⟨htarget, hpublisher, hnumber⟩
      exact ⟨⟨hnumber, hpublisher⟩, htarget⟩
    · rintro ⟨⟨hnumber, hpublisher⟩, htarget⟩
      exact ⟨htarget, hpublisher, hnumber⟩
  rw [hcount]
  refine List.nodup_iff_count.mp ?_ number
  exact (h.pairwise_numbers p id).imp Nat.ne_of_lt

end Runs

/-! ### The promise -/

/-- What fan-out promises of the hub behind a run, and of what the run has shown. -/
structure FanOut (config : HubConfig) (events : List HubEvent) (hub : Hub σ) : Prop where
  /-- What the queue of a consumer that has not stopped has taken, in this order, is what its sink
  has been given, then at most one line in the hand of the consumer, then what the queue holds. -/
  balanced : ∀ id s, hub.subscriptions[id]? = some s → s.progress.isDelivering = true →
    s.progress.inHand.length ≤ 1
      ∧ (ofEvents events).linesTo id
        = (ofEvents events).writtenTo id ++ s.progress.inHand ++ s.queue
  /-- A line is begun for those that are registered at that moment of the run. -/
  snapshot : ∀ earlier p line targets later, events = earlier ++ .began p line targets :: later →
    ∃ before behind : Hub σ, Run (ofConfig config) earlier before
      ∧ targets.Perm before.registry ∧ Step before (some (.began p line targets)) behind
      ∧ Run behind later hub
  /-- A queue takes a line only if it was among them. -/
  addressed : ∀ delivery ∈ (ofEvents events).deliveries, IsAddressed (ofEvents events) delivery
  /-- A queue takes a line at most once, and the lines of a publisher in the order in which they
  were begun. -/
  ordered : ∀ p id, ((ofEvents events).numbers p id).Pairwise (· < ·)
  /-- For the lines it has ended a publisher has returned how many queues have taken them, and those
  are different queues. -/
  returned : ∀ p, hub.returnedBy p
      = (List.range (ended (ofEvents events) hub p)).map fun number =>
        ((ofEvents events).takers p number).length
  distinct : ∀ p number, ((ofEvents events).takers p number).Nodup
  /-- A sink has been given the lines that its queue has taken, as far as it has seen them. -/
  seen : ∀ id, (ofEvents events).writtenTo id = ((ofEvents events).seenBy id).map Delivery.line
  /-- It sees the lines of a publisher in the order in which they were begun, each at most once. -/
  seenInOrder : ∀ p id, ((ofEvents events).numbersSeen p id).Pairwise (· < ·)
  /-- Under any policy a queue takes a selection of the lines that were begun for it. -/
  selected : ∀ p id, ((ofEvents events).numbers p id).Sublist ((ofEvents events).owed p id)
  /-- Under `block` it leaves none out between two that it takes. -/
  contiguous : config.overflow = .block → ∀ p id, ∃ first count,
    (ofEvents events).numbers p id = List.range' first count
  /-- Under `block` it takes them from the first one on, and as long as it is registered it has
  taken all of them between two lines of the publisher. -/
  complete : config.overflow = .block → ∀ p id,
    (ofEvents events).numbers p id <+: (ofEvents events).owed p id
      ∧ (id ∈ hub.registry → hub.current p = none →
        (ofEvents events).numbers p id = (ofEvents events).owed p id)

/-- **Fan-out loses, doubles and reorders nothing.** -/
theorem Run.fanOut (h : Run (ofConfig config) events hub) : FanOut config events hub where
  balanced id s hs hdelivering := by
    have hbalanced := h.balanced id
    rw [hs] at hbalanced
    exact ⟨s.progress.length_inHand_le, hbalanced.2 hdelivering⟩
  snapshot earlier p line targets later hevents := by
    subst hevents
    exact h.perm_registry
  addressed := h.addressed
  ordered := h.pairwise_numbers
  returned p := (h.returnedBy_eq p).trans (h.counted p).returned
  distinct := h.nodup_takers
  seen := h.writtenTo_eq
  seenInOrder := h.pairwise_numbersSeen
  selected p id := (h.numbers_sublist_due p id).trans (due_prefix_owed _ hub p id).sublist
  contiguous hblock p id := by
    obtain ⟨first, count, hnumbers, -⟩ := h.contiguous hblock p id
    exact ⟨first, count, hnumbers⟩
  complete hblock p id := by
    obtain ⟨hbeginning, hopen⟩ := h.lossless hblock p id
    refine ⟨hbeginning.trans (due_prefix_owed _ hub p id), fun hregistered hidle => ?_⟩
    rw [← due_eq_owed hidle]
    exact hopen (Or.inl hregistered)

/-- A publisher brings two lines to a queue that holds one, and waits with the second one. -/
theorem Run.fanOut_waits :
    ∃ hub : Hub Recorder,
      Run (ofConfig { queueCapacity := 1 })
        [.subscribed 0, .began 0 "a" [0], .accepted 0 0 "a", .completed 0 1, .began 0 "b" [0],
          .waits 0 0, .started 0, .took 0 "a", .accepted 0 0 "b"] hub
      ∧ FanOut { queueCapacity := 1 }
        [.subscribed 0, .began 0 "a" [0], .accepted 0 0 "a", .completed 0 1, .began 0 "b" [0],
          .waits 0 0, .started 0, .took 0 "a", .accepted 0 0 "b"] hub
      ∧ hub.subscriptions.map (fun s => (s.progress, s.queue)) = [(.writing "a", ["b"])] := by
  have subscribed := (Run.refl (ofConfig { queueCapacity := 1 } : Hub Recorder)).tail
    (@Step.subscribe _ _ _ "updates" {} _ _ rfl)
  have came := subscribed.tail (.addPublisher _)
  have began := came.tail (@Step.publish _ _ _ 0 _ [0] "a" rfl rfl (.refl [0]))
  have accepted := began.tail (@Step.advance _ _ _ (.publisher 0) _ rfl)
  have completed := accepted.tail (@Step.advance _ _ _ (.publisher 0) _ rfl)
  have beganAgain := completed.tail (@Step.publish _ _ _ 0 _ [0] "b" rfl rfl (.refl [0]))
  have waits := beganAgain.tail (@Step.advance _ _ _ (.publisher 0) _ rfl)
  have started := waits.tail (@Step.advance _ _ _ (.consumer 0) _ rfl)
  have took := started.tail (@Step.advance _ _ _ (.consumer 0) _ rfl)
  have acceptedAgain := took.tail (@Step.advance _ _ _ (.publisher 0) _ rfl)
  exact ⟨_, acceptedAgain, acceptedAgain.fanOut, rfl⟩

end Restconf.Hub
