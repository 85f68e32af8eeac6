import Restconf.Proofs.Hub.Ending
import Restconf.Proofs.Hub.FanOut
import Restconf.Proofs.Hub.Stall

/-!
# Hubs with one source

Fan-out is a promise about the lines of each publisher, and says nothing of the order between lines
of different publishers. Where all lines come from one publisher there is nothing left to say: a
queue takes a selection of what was begun, in the order in which it was begun. Under `block` it
leaves nothing out, and then the lines of a queue are the lines that were begun.

## From numbers to texts

The selection is one of numbers, since lines may have equal texts. Here it is everything, and a
delivery has the text of the line with its number, so the texts are the same lists.

## Main results

* `Hub.Run.mem_snapshot` — who is registered from the first line on is a target of every line
* `Hub.Run.linesTo_eq_of_sole` — its queue has taken all lines, in their order
* `Hub.Run.writtenTo_eq_linesTo` — where its consumer can go no further, they have been written
-/

namespace Restconf

namespace Ledger

variable {ledger : Ledger} {p : PublisherId} {id : SubscriptionId}

/-- Where all lines are of one publisher, its lines are all lines. -/
theorem broadcastsOf_of_sole (sole : ∀ broadcast ∈ ledger.broadcasts, broadcast.publisher = p) :
    ledger.broadcastsOf p = ledger.broadcasts :=
  List.filter_eq_self.mpr fun broadcast hmem => decide_eq_true (sole broadcast hmem)

/-- A target of every line is owed every line. -/
theorem owed_eq_range (targets : ∀ broadcast ∈ ledger.broadcastsOf p, id ∈ broadcast.snapshot) :
    ledger.owed p id = List.range (ledger.broadcastsOf p).length := by
  refine List.filter_eq_self.mpr fun number hnumber => ?_
  have found := List.getElem?_eq_getElem (List.mem_range.mp hnumber)
  rw [includes, found, Option.any_some, List.contains_iff_mem]
  exact targets _ (List.mem_of_getElem? found)

/-- **A queue that has taken the lines of one publisher only, and all of those, has taken their
texts.** -/
theorem linesTo_eq_of_numbers_eq
    (addressed : ∀ delivery ∈ ledger.deliveries, Hub.IsAddressed ledger delivery)
    (sole : ∀ broadcast ∈ ledger.broadcasts, broadcast.publisher = p)
    (numbers : ledger.numbers p id = List.range (ledger.broadcastsOf p).length) :
    ledger.linesTo id = ledger.broadcasts.map Broadcast.line := by
  have own : ∀ delivery ∈ ledger.deliveriesTo id, delivery.publisher = p
      ∧ (ledger.broadcasts[delivery.number]?).map Broadcast.line = some delivery.line := by
    intro delivery hdelivery
    obtain ⟨broadcast, found, hline, -⟩ := addressed delivery (List.mem_filter.mp hdelivery).1
    obtain ⟨hmem, hpublisher⟩ := List.mem_filter.mp (List.mem_of_getElem? found)
    have hp : delivery.publisher = p := (of_decide_eq_true hpublisher).symm.trans (sole _ hmem)
    rw [hp, broadcastsOf_of_sole sole] at found
    exact ⟨hp, by rw [found, Option.map_some, hline]⟩
  have all : (ledger.deliveriesTo id).filter (·.publisher = p) = ledger.deliveriesTo id :=
    List.filter_eq_self.mpr fun delivery hmem => decide_eq_true (own delivery hmem).1
  rw [Ledger.numbers, all, broadcastsOf_of_sole sole] at numbers
  refine (List.map_inj_right fun _ _ => Option.some.inj).mp ?_
  calc (ledger.linesTo id).map some
      = ((ledger.deliveriesTo id).map Delivery.number).map
          fun number => (ledger.broadcasts[number]?).map Broadcast.line := by
        rw [linesTo, List.map_map, List.map_map]
        exact List.map_congr_left fun delivery hmem => ((own delivery hmem).2).symm
    _ = (ledger.broadcasts.map Broadcast.line).map some := by
        rw [numbers]
        refine List.ext_getElem (by simp) fun number hlt _ => ?_
        rw [List.length_map, List.length_range] at hlt
        simp [List.getElem?_eq_getElem hlt]

end Ledger

namespace Hub

open Ledger

variable {σ : Type} [LineSink σ] {start hub last : Hub σ} {config : HubConfig}
  {events prior later : List HubEvent} {p : PublisherId} {id : SubscriptionId} {s : Subscription σ}

/-- Who is registered at the end has been registered since its subscription was made. -/
theorem Run.mem_registry_start (h : Run start events hub) (known : id < start.subscriptions.length)
    (registered : id ∈ hub.registry) : id ∈ start.registry :=
  Decidable.byContradiction fun left => h.not_mem_registry known left registered

/-- **Who is registered from the first line on, until now, is a target of every line.** -/
theorem Run.mem_snapshot (rest : Run start later last)
    (silent : ∀ q line targets, .began q line targets ∉ prior) (from' : id ∈ start.registry)
    (until' : id ∈ last.registry) :
    ∀ broadcast ∈ (ofEvents (prior ++ later)).broadcastsOf p, id ∈ broadcast.snapshot := by
  intro broadcast hbroadcast
  rcases List.mem_append.mp (mem_broadcastsOf hbroadcast) with hearly | hlate
  · exact absurd hearly (silent _ _ _)
  · obtain ⟨earlier, behind, rfl⟩ := List.append_of_mem hlate
    obtain ⟨before, after, hearlier, order, step, hbehind⟩ := rest.perm_registry
    obtain ⟨s, found, -⟩ := mem_registry.mp from'
    obtain ⟨t, ht⟩ := hearlier.exists_subscription found
    have known : id < before.subscriptions.length := (List.getElem?_eq_some_iff.mp ht).1
    exact order.mem_iff.mpr ((hbehind.cons step).mem_registry_start known until')

/-- **Under `block`, a queue that is registered from the first line of the only publisher on has
taken all its lines, between two of them.** -/
theorem Run.linesTo_eq_of_sole (h : Run (ofConfig config) prior start) (rest : Run start later last)
    (block : config.overflow = .block) (silent : ∀ q line targets, .began q line targets ∉ prior)
    (sole : ∀ broadcast ∈ (ofEvents (prior ++ later)).broadcasts, broadcast.publisher = p)
    (from' : id ∈ start.registry) (until' : id ∈ last.registry) (idle : last.current p = none) :
    (ofEvents (prior ++ later)).linesTo id
      = (ofEvents (prior ++ later)).broadcasts.map Broadcast.line := by
  have promise := (h.trans rest).fanOut
  refine linesTo_eq_of_numbers_eq promise.addressed sole ?_
  rw [(promise.complete block p id).2 until' idle]
  exact owed_eq_range (rest.mem_snapshot silent from' until')

/-- **Where the consumer of a registered subscription can go no further, and is not inside its sink,
all that the queue has taken has been written, if no write has failed.** -/
theorem Run.writtenTo_eq_linesTo (h : Run (ofConfig config) events hub)
    (found : hub.subscriptions[id]? = some s) (registered : s.isRegistered = true)
    (unfailed : Unfailed id events) (quiet : hub.consume id = none) (runs : ¬ IsSuspended s) :
    (ofEvents events).writtenTo id = (ofEvents events).linesTo id := by
  have delivering := h.isDelivering_of_isRegistered found unfailed registered
  have alive := Progress.isOver_of_isDelivering delivering
  rcases consume_eq_none found alive quiet with suspended | ⟨receiving, empty, -⟩
  · exact absurd suspended runs
  · have balanced := h.balanced id
    rw [found] at balanced
    have lines := balanced.2 delivering
    rw [receiving, empty, Progress.inHand_receiving, List.append_nil, List.append_nil] at lines
    exact lines.symm

/-- Before the first line, nothing is written. -/
theorem Run.writtenTo_eq_nil (h : Run (ofConfig config) events hub)
    (silent : ∀ q line targets, .began q line targets ∉ events) (id : SubscriptionId) :
    (ofEvents events).writtenTo id = [] := by
  have undelivered : (ofEvents events).deliveries = [] := by
    refine List.eq_nil_iff_forall_not_mem.mpr fun delivery hdelivery => ?_
    obtain ⟨broadcast, found, -, -⟩ := h.addressed delivery hdelivery
    exact silent _ _ _ (mem_broadcastsOf (List.mem_of_getElem? found))
  have written := (h.balanced id).prefix_linesTo
  rw [linesTo, deliveriesTo, undelivered] at written
  exact List.prefix_nil.mp written

end Hub

end Restconf
