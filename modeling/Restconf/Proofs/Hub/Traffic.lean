import Restconf.Proofs.Hub.Ledger

/-!
# Publishers and their lines

A publisher has at most one line under way. What a move means to publishers is a matter of five
cases: nothing, or the beginning, the next target taken or passed over, and the end of one line.

## What is said of the registry

Nobody comes into the registry except by being made, and under `block` a subscription that a
publisher passes over is not in it any more. The second is why the registry is mentioned here: it is
what keeps the deliveries of a publisher to one subscription without gaps.

## Main definitions

* `Hub.Traffic` — what a move means to publishers
* `Hub.UnderWay` — what is known of the line under way

## Main results

* `Hub.Move.traffic` — every move is one of the five cases
* `Hub.Run.underWay` — the line under way is the last one begun
-/

namespace Restconf.Hub

open Ledger

variable {σ : Type}

/-! ### What a move means to publishers -/

/-- An event has nothing to do with publishers. -/
def IsQuiet (event : Option HubEvent) : Prop :=
  ∀ ledger : Ledger, (ledger.after event).broadcasts = ledger.broadcasts
    ∧ (ledger.after event).deliveries = ledger.deliveries
    ∧ (ledger.after event).counts = ledger.counts

/-- What a move means to publishers: which line is under way behind it, and who can be registered
behind it. -/
inductive Traffic (hub next : Hub σ) : Option HubEvent → Prop where
  /-- Nothing, except that a subscription may have been made. -/
  | quiet {event : Option HubEvent} (quiet : IsQuiet event)
    (current : ∀ q, next.current q = hub.current q)
    (registry : ∀ id ∈ next.registry, id ∈ hub.registry ∨ hub.subscriptions[id]? = none) :
    Traffic hub next event
  /-- A publisher begins a line. -/
  | begun {p : PublisherId} {line : String} {targets : List SubscriptionId}
    (idle : hub.current p = none) (order : targets.Perm hub.registry)
    (current : ∀ q, next.current q = if p = q then some { line, targets } else hub.current q)
    (registry : next.registry = hub.registry) : Traffic hub next (some (.began p line targets))
  /-- The next target has taken the line. -/
  | accepted {p : PublisherId} {publication : Publication} {target : SubscriptionId}
    (isAt : hub.IsAt p publication target)
    (current : ∀ q, next.current q
      = if p = q then some (publication.passed true) else hub.current q)
    (registry : ∀ id ∈ next.registry, id ∈ hub.registry) :
    Traffic hub next (some (.accepted p target publication.line))
  /-- The next target has not taken the line. Under `block` this means that it is not registered
  behind the move. -/
  | passed {p : PublisherId} {publication : Publication} {target : SubscriptionId}
    (isAt : hub.IsAt p publication target)
    (current : ∀ q, next.current q
      = if p = q then some (publication.passed false) else hub.current q)
    (registry : ∀ id ∈ next.registry, id ∈ hub.registry)
    (gone : hub.config.overflow = .block → target ∉ next.registry) :
    Traffic hub next (some (.passed p target))
  /-- A line has been brought to all targets. -/
  | completed {p : PublisherId} {publication : Publication}
    (underWay : hub.current p = some publication) (visited : publication.targets = [])
    (current : ∀ q, next.current q = if p = q then none else hub.current q)
    (registry : ∀ id ∈ next.registry, id ∈ hub.registry) :
    Traffic hub next (some (.completed p publication.delivered))

variable {hub next : Hub σ} {event : Option HubEvent}

/-- A move of a consumer or of a sink means nothing to publishers. -/
theorem Traffic.of_modify {id : SubscriptionId} {f : Subscription σ → Subscription σ}
    (quiet : IsQuiet event) (hpublishers : next.publishers = hub.publishers)
    (hmodify : next.subscriptions = hub.subscriptions.modify id f)
    (hf : ∀ s, (f s).isRegistered = true → s.isRegistered = true) : Traffic hub next event := by
  refine .quiet quiet (fun q => ?_) fun _ h => Or.inl (mem_registry_of_modify hmodify hf h)
  rw [current, current, hpublishers]

theorem IsAt.current_passTarget {p : PublisherId} {publication : Publication}
    {target : SubscriptionId} (isAt : hub.IsAt p publication target) (accepted : Bool)
    (q : PublisherId) : (hub.passTarget p accepted).current q
      = if p = q then some (publication.passed accepted) else hub.current q := by
  rw [Hub.current_passTarget]
  by_cases h : p = q
  · rw [if_pos h, if_pos h, ← h, isAt.current, Option.map_some]
  · rw [if_neg h, if_neg h]

/-- **What a move means to publishers.** -/
theorem Move.traffic [LineSink σ] (h : Move hub event next) : Traffic hub next event := by
  cases h with
  | subscribe stream sink idle fits =>
    refine .quiet (fun _ => ⟨rfl, rfl, rfl⟩) (fun _ => rfl) fun id hid => ?_
    obtain ⟨s, hs, hregistered⟩ := mem_registry.mp hid
    by_cases hlt : id < hub.subscriptions.length
    · rw [List.getElem?_append_left hlt] at hs
      exact Or.inl (mem_registry.mpr ⟨s, hs, hregistered⟩)
    · exact Or.inr (List.getElem?_eq_none (Nat.le_of_not_lt hlt))
  | addPublisher =>
    exact .quiet (fun _ => ⟨rfl, rfl, rfl⟩) hub.current_addPublisher fun _ h => Or.inl h
  | begin line found idle order =>
    refine .begun ?_ order (fun q => current_publishTo hub _ q found line _) rfl
    rw [current, found]
    exact idle
  | accept isAt found =>
    refine .accepted isAt (fun q => ?_) fun id hid => ?_
    · exact isAt.current_passTarget true q
    · exact mem_registry_of_modify (hub.subscriptions_accept ..) (fun _ h => h) hid
  | skip isAt found alive policy =>
    refine .passed isAt (isAt.current_passTarget false) (fun _ h => h) fun hblock => ?_
    rw [policy] at hblock
    cases hblock
  | skipUnknown isAt unknown =>
    refine .passed isAt (isAt.current_passTarget false) (fun _ h => h) fun _ hmem => ?_
    obtain ⟨s, hs, -⟩ := mem_registry.mp hmem
    cases (unknown.symm.trans hs)
  | forget isAt found gone =>
    refine .passed isAt (isAt.current_passTarget false) (fun _ h => ?_) fun _ hmem => ?_
    · exact mem_registry_of_modify (hub.subscriptions_forget ..)
        (fun _ h => absurd h Bool.false_ne_true) h
    · obtain ⟨s, hs, hregistered⟩ := mem_registry.mp hmem
      rw [subscriptions_forget, List.getElem?_modify, found, Option.map_eq_map, Option.map_some,
        if_pos rfl] at hs
      rw [← Option.some.inj hs] at hregistered
      exact absurd hregistered Bool.false_ne_true
  | finish underWay visited =>
    exact .completed underWay visited (current_finishLine hub _ · _) fun _ h => h
  | shutdown =>
    refine .quiet (fun _ => ⟨rfl, rfl, rfl⟩) (fun _ => rfl) fun id hid => ?_
    obtain ⟨s, hs, hregistered⟩ := mem_registry.mp hid
    rw [List.getElem?_map, Option.map_eq_some_iff] at hs
    obtain ⟨old, -, rfl⟩ := hs
    exact absurd hregistered Bool.false_ne_true
  | leave =>
    exact .of_modify (fun _ => ⟨rfl, rfl, rfl⟩) rfl rfl fun _ h => absurd h Bool.false_ne_true
  | enqueue | start | take | finishQueue | write | refuse | crash | close | crashClosing | giveBack
    | touch =>
    exact .of_modify (fun _ => ⟨rfl, rfl, rfl⟩) rfl rfl fun _ h => h

/-! ### The line under way -/

/-- The line that a publisher has under way is the last one it has begun, and the targets still to
be visited are different subscriptions of its snapshot. -/
structure UnderWay (ledger : Ledger) (p : PublisherId) (publication : Publication) : Prop where
  nodup : publication.targets.Nodup
  last : ∃ earlier broadcast, ledger.broadcastsOf p = earlier ++ [broadcast]
    ∧ broadcast.line = publication.line ∧ ∀ id ∈ publication.targets, id ∈ broadcast.snapshot

section Steps

variable {ledger : Ledger}

theorem UnderWay.passed {p : PublisherId} {publication : Publication}
    (h : UnderWay ledger p publication) (accepted : Bool) :
    UnderWay ledger p (publication.passed accepted) := by
  obtain ⟨earlier, broadcast, hlast, hline, hsnapshot⟩ := h.last
  refine ⟨h.nodup.tail, earlier, broadcast, hlast, hline, fun id hid => ?_⟩
  exact hsnapshot id (List.mem_of_mem_tail hid)

theorem IsQuiet.broadcastsOf_eq (quiet : IsQuiet event) (p : PublisherId) :
    (ledger.after event).broadcastsOf p = ledger.broadcastsOf p := by
  rw [broadcastsOf, (quiet ledger).1, ← broadcastsOf]

/-- A step keeps the line under way the last one begun. -/
theorem Traffic.underWay (h : Traffic hub next event)
    (before : ∀ p publication, hub.current p = some publication → UnderWay ledger p publication)
    (q : PublisherId) (after : Publication) (hafter : next.current q = some after) :
    UnderWay (ledger.after event) q after := by
  have hsame {event : Option HubEvent}
      (hledger : (ledger.after event).broadcastsOf q = ledger.broadcastsOf q)
      {publication : Publication} (h : UnderWay ledger q publication) :
      UnderWay (ledger.after event) q publication := ⟨h.nodup, hledger ▸ h.last⟩
  cases h with
  | quiet quiet current =>
    rw [current] at hafter
    exact hsame (quiet.broadcastsOf_eq q) (before q after hafter)
  | @begun p line targets _ order current =>
    rw [current] at hafter
    have hledger := ledger.broadcastsOf_after_began p q line targets
    by_cases hpq : p = q
    · rw [if_pos hpq] at hafter hledger
      obtain rfl := Option.some.inj hafter
      exact ⟨order.nodup_iff.mpr (nodup_registry hub), _, _, hledger, rfl, fun _ h => h⟩
    · rw [if_neg hpq] at hafter hledger
      exact hsame hledger (before q after hafter)
  | @accepted p publication _ isAt current =>
    rw [current] at hafter
    by_cases hpq : p = q
    · rw [if_pos hpq] at hafter
      obtain rfl := Option.some.inj hafter
      exact hsame rfl ((before q publication (hpq ▸ isAt.current)).passed true)
    · rw [if_neg hpq] at hafter
      exact hsame rfl (before q after hafter)
  | @passed p publication _ isAt current =>
    rw [current] at hafter
    by_cases hpq : p = q
    · rw [if_pos hpq] at hafter
      obtain rfl := Option.some.inj hafter
      exact (before q publication (hpq ▸ isAt.current)).passed false
    · rw [if_neg hpq] at hafter
      exact before q after hafter
  | @completed p _ _ _ current =>
    rw [current] at hafter
    by_cases hpq : p = q
    · rw [if_pos hpq] at hafter
      cases hafter
    · rw [if_neg hpq] at hafter
      exact hsame rfl (before q after hafter)

end Steps

section Runs

variable [LineSink σ] {config : HubConfig} {events : List HubEvent}

/-- **The line under way is the last one begun.** -/
theorem Run.underWay (h : Run (ofConfig config) events hub) :
    ∀ p publication, hub.current p = some publication →
      UnderWay (ofEvents events) p publication := by
  refine h.ledger_induction (fun hub ledger => ∀ p publication,
    hub.current p = some publication → UnderWay ledger p publication) ?_
    fun _ before move => move.traffic.underWay before
  intro p publication hcurrent
  cases hcurrent

end Runs

end Restconf.Hub
