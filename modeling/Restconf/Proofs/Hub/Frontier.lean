import Restconf.Proofs.Hub.Queue
import Restconf.Proofs.Hub.Traffic

/-!
# The order of deliveries

Which of its lines a publisher has brought into a queue: in the order in which it has begun them,
each at most once, only lines that were meant for the subscription, and under `block` all of them,
without gaps, until the subscription leaves the registry.

## The frontier

Between two lines a publisher is done with every subscription, and while it has a line under way it
is done with those that are no longer among the targets. So for each publisher and subscription
there is a number of lines that are settled, `Hub.settled`: all that have been begun, except the one
under way if the subscription still waits for it. A delivery is always of the first line that is not
settled. That is why the numbers of deliveries ascend. Under `block` a subscription that is
registered is never passed over, so as long as it may be given lines at all, there is no gap in
front of the frontier either.

## Main definitions

* `Hub.awaits`, `Hub.settled` — the frontier of a publisher at a subscription
* `Hub.due` — the settled lines that were meant for the subscription
* `Hub.Advance` — what a step does there

## Main results

* `Hub.Traffic.advance` — a step does one of three things at the frontier
* `Hub.Run.numbers_sublist_due` — a queue takes a selection of what is due, in order
* `Hub.Run.lossless` — under `block` it takes all of it as long as it is registered
* `Hub.Run.contiguous` — under `block` no line is left out between two that are taken
-/

namespace Restconf.Hub

open Ledger

variable {σ : Type} {hub next : Hub σ} {event : Option HubEvent}

/-! ### The frontier -/

/-- A publisher has still to visit a subscription on the line it has under way. -/
def awaits (hub : Hub σ) (p : PublisherId) (id : SubscriptionId) : Bool :=
  (hub.current p).any fun publication => publication.targets.contains id

/-- How many lines of a publisher are settled at a subscription. -/
def settled (ledger : Ledger) (hub : Hub σ) (p : PublisherId) (id : SubscriptionId) : Nat :=
  (ledger.broadcastsOf p).length - (hub.awaits p id).toNat

/-- The lines of a publisher that are settled at a subscription and were meant for it. -/
def due (ledger : Ledger) (hub : Hub σ) (p : PublisherId) (id : SubscriptionId) : List Nat :=
  (List.range (settled ledger hub p id)).filter (ledger.includes p · id)

/-- A subscription may still be given lines of a publisher. -/
def IsOpen (hub : Hub σ) (p : PublisherId) (id : SubscriptionId) : Prop :=
  id ∈ hub.registry ∨ hub.awaits p id = true

theorem awaits_of_none {p : PublisherId} (h : hub.current p = none) (id : SubscriptionId) :
    hub.awaits p id = false := by
  rw [awaits, h]
  rfl

theorem awaits_of_some {p : PublisherId} {publication : Publication}
    (h : hub.current p = some publication) (id : SubscriptionId) :
    hub.awaits p id = publication.targets.contains id := by
  rw [awaits, h]
  rfl

theorem awaits_congr {q : PublisherId} (h : next.current q = hub.current q) (id : SubscriptionId) :
    next.awaits q id = hub.awaits q id := by
  rw [awaits, awaits, h]

/-- What a step does at the frontier of a publisher at a subscription. -/
inductive Advance (ledger : Ledger) (hub next : Hub σ) (event : Option HubEvent) (p : PublisherId)
    (id : SubscriptionId) : Prop where
  /-- The first line that is not settled is taken. -/
  | taken (numbers : (ledger.after event).numbers p id
      = ledger.numbers p id ++ [settled ledger hub p id])
    (frontier : settled (ledger.after event) next p id = settled ledger hub p id + 1)
    (meant : (ledger.after event).includes p (settled ledger hub p id) id = true)
    (isOpen : hub.IsOpen p id)
  /-- It is passed over. Under `block` the subscription is given no more lines then. -/
  | passed (numbers : (ledger.after event).numbers p id = ledger.numbers p id)
    (frontier : settled (ledger.after event) next p id = settled ledger hub p id + 1)
    (shut : hub.config.overflow = .block → ¬ next.IsOpen p id)
  /-- Nothing happens there, except that the subscription may have been made. -/
  | stays (numbers : (ledger.after event).numbers p id = ledger.numbers p id)
    (frontier : settled (ledger.after event) next p id = settled ledger hub p id)
    (opened : next.IsOpen p id → hub.IsOpen p id ∨ hub.subscriptions[id]? = none)

section Steps

variable {ledger : Ledger}

/-- Where a publisher waits behind a step if and only if it did before, nothing has happened. -/
theorem Advance.of_awaits_eq {q : PublisherId} {id : SubscriptionId}
    (numbers : (ledger.after event).numbers q id = ledger.numbers q id)
    (broadcasts : (ledger.after event).broadcastsOf q = ledger.broadcastsOf q)
    (awaits : next.awaits q id = hub.awaits q id)
    (registry : id ∈ next.registry → id ∈ hub.registry ∨ hub.subscriptions[id]? = none) :
    Advance ledger hub next event q id := by
  refine .stays numbers ?_ fun hopen => ?_
  · rw [settled, settled, broadcasts, awaits]
  · rcases hopen with hregistered | hwaiting
    · exact (registry hregistered).imp_left Or.inl
    · exact Or.inl (Or.inr (awaits ▸ hwaiting))

section Passing

variable {p : PublisherId} {publication : Publication} {target : SubscriptionId} {accepted : Bool}

theorem IsAt.awaits_target (isAt : hub.IsAt p publication target) : hub.awaits p target = true := by
  rw [awaits_of_some isAt.current, isAt.next]
  simp

/-- Behind its next target a publisher does not wait for it any more. -/
theorem IsAt.awaits_passed (isAt : hub.IsAt p publication target)
    (nodup : publication.targets.Nodup)
    (hcurrent : next.current p = some (publication.passed accepted)) :
    next.awaits p target = false := by
  rw [isAt.next, List.nodup_cons] at nodup
  rw [awaits_of_some hcurrent]
  simpa [Publication.passed] using nodup.1

/-- It waits for the other targets as before. -/
theorem IsAt.awaits_passed_of_ne (isAt : hub.IsAt p publication target)
    (hcurrent : next.current p = some (publication.passed accepted)) {id : SubscriptionId}
    (hid : target ≠ id) : next.awaits p id = hub.awaits p id := by
  rw [awaits_of_some hcurrent, awaits_of_some isAt.current, isAt.next, List.contains_cons]
  simp [Publication.passed, Ne.symm hid]

/-- One more line is settled at the target. -/
theorem IsAt.settled_passed (isAt : hub.IsAt p publication target)
    (hunder : UnderWay ledger p publication)
    (hcurrent : next.current p = some (publication.passed accepted))
    (broadcasts : (ledger.after event).broadcastsOf p = ledger.broadcastsOf p) :
    settled (ledger.after event) next p target = settled ledger hub p target + 1 := by
  obtain ⟨earlier, broadcast, hlast, -⟩ := hunder.last
  rw [settled, settled, broadcasts, isAt.awaits_passed hunder.nodup hcurrent, isAt.awaits_target,
    hlast, List.length_append]
  rfl

/-- The line was meant for the target. -/
theorem IsAt.includes_settled (isAt : hub.IsAt p publication target)
    (hunder : UnderWay ledger p publication) :
    ledger.includes p (settled ledger hub p target) target = true := by
  obtain ⟨earlier, broadcast, hlast, -, hsnapshot⟩ := hunder.last
  have hsettled : settled ledger hub p target = earlier.length := by
    rw [settled, isAt.awaits_target, hlast, List.length_append]
    rfl
  rw [hsettled, includes, hlast, List.getElem?_concat_length, Option.any_some]
  simpa using hsnapshot target (isAt.next ▸ List.mem_cons_self)

/-- A target that takes the line takes the first one that is not settled. -/
theorem IsAt.advance_accepted (isAt : hub.IsAt p publication target)
    (hunder : UnderWay ledger p publication)
    (hcurrent : next.current p = some (publication.passed true)) :
    Advance ledger hub next (some (.accepted p target publication.line)) p target := by
  have hnumbers := ledger.numbers_after_accepted p p target target publication.line
  have hmeant : ledger.includes p (settled ledger hub p target) target = true :=
    isAt.includes_settled hunder
  refine .taken ?_ (isAt.settled_passed hunder hcurrent rfl) hmeant (Or.inr isAt.awaits_target)
  rw [hnumbers, if_pos ⟨rfl, rfl⟩, settled, isAt.awaits_target]
  rfl

theorem IsAt.advance_passed (isAt : hub.IsAt p publication target)
    (hunder : UnderWay ledger p publication)
    (hcurrent : next.current p = some (publication.passed false))
    (gone : hub.config.overflow = .block → target ∉ next.registry) :
    Advance ledger hub next (some (.passed p target)) p target := by
  refine .passed rfl (isAt.settled_passed hunder hcurrent rfl) fun hblock hopen => ?_
  rcases hopen with hregistered | hwaits
  · exact gone hblock hregistered
  · rw [isAt.awaits_passed hunder.nodup hcurrent] at hwaits
    exact absurd hwaits Bool.false_ne_true

end Passing

/-- A line that begins is settled at once where it is not meant to go. -/
theorem Advance.of_begun {p : PublisherId} {line : String} {targets : List SubscriptionId}
    (idle : hub.current p = none) (order : targets.Perm hub.registry)
    (hcurrent : next.current p = some { line, targets }) (registry : next.registry = hub.registry)
    (id : SubscriptionId) : Advance ledger hub next (some (.began p line targets)) p id := by
  have hledger := ledger.broadcastsOf_after_began p p line targets
  rw [if_pos rfl] at hledger
  have hwaiting := awaits_of_some hcurrent id
  have hidle := awaits_of_none idle id
  by_cases hid : id ∈ hub.registry
  · have hcontains : targets.contains id = true := by
      simpa using order.mem_iff.mpr hid
    refine .stays rfl ?_ fun _ => Or.inl (Or.inl hid)
    rw [settled, settled, hledger, hwaiting, hcontains, hidle, List.length_append]
    rfl
  · have hcontains : targets.contains id = false := by
      simpa using fun h => hid (order.mem_iff.mp h)
    refine .passed rfl ?_ fun _ hopen => ?_
    · rw [settled, settled, hledger, hwaiting, hcontains, hidle, List.length_append]
      rfl
    · rcases hopen with hregistered | hwaits
      · exact hid (registry ▸ hregistered)
      · rw [hwaiting, hcontains] at hwaits
        exact absurd hwaits Bool.false_ne_true

/-- **What a step does at the frontier.** -/
theorem Traffic.advance (h : Traffic hub next event)
    (before : ∀ p publication, hub.current p = some publication → UnderWay ledger p publication)
    (q : PublisherId) (id : SubscriptionId) : Advance ledger hub next event q id := by
  cases h with
  | quiet quiet current registry =>
    refine .of_awaits_eq ?_ (quiet.broadcastsOf_eq q) (awaits_congr (current q) id) (registry id)
    rw [numbers, deliveriesTo, (quiet ledger).2.1]
    rfl
  | @begun p line targets idle order current registry =>
    by_cases hpq : p = q
    · subst hpq
      exact .of_begun idle order (by rw [current, if_pos rfl]) registry id
    · have hledger := ledger.broadcastsOf_after_began p q line targets
      rw [if_neg hpq] at hledger
      have hcurrent : next.current q = hub.current q := by rw [current, if_neg hpq]
      exact .of_awaits_eq rfl hledger (awaits_congr hcurrent id) fun h => Or.inl (registry ▸ h)
  | @accepted p publication target isAt current registry =>
    have hnumbers := ledger.numbers_after_accepted p q id target publication.line
    have hregistry := fun h => Or.inl (b := hub.subscriptions[id]? = none) (registry id h)
    by_cases hpq : p = q
    · subst hpq
      have hcurrent : next.current p = some (publication.passed true) := by
        rw [current, if_pos rfl]
      by_cases hid : target = id
      · subst hid
        exact isAt.advance_accepted (before p publication isAt.current) hcurrent
      · rw [if_neg fun h => hid h.2] at hnumbers
        exact .of_awaits_eq hnumbers rfl (isAt.awaits_passed_of_ne hcurrent hid) hregistry
    · rw [if_neg fun h => hpq h.1] at hnumbers
      have hcurrent : next.current q = hub.current q := by rw [current, if_neg hpq]
      exact .of_awaits_eq hnumbers rfl (awaits_congr hcurrent id) hregistry
  | @passed p publication target isAt current registry gone =>
    have hregistry := fun h => Or.inl (b := hub.subscriptions[id]? = none) (registry id h)
    by_cases hpq : p = q
    · subst hpq
      have hcurrent : next.current p = some (publication.passed false) := by
        rw [current, if_pos rfl]
      by_cases hid : target = id
      · subst hid
        exact isAt.advance_passed (before p publication isAt.current) hcurrent gone
      · exact .of_awaits_eq rfl rfl (isAt.awaits_passed_of_ne hcurrent hid) hregistry
    · have hcurrent : next.current q = hub.current q := by rw [current, if_neg hpq]
      exact .of_awaits_eq rfl rfl (awaits_congr hcurrent id) hregistry
  | @completed p publication underWay visited current registry =>
    refine .of_awaits_eq rfl rfl ?_ fun h => Or.inl (registry id h)
    by_cases hpq : p = q
    · rw [awaits_of_none (by rw [current, if_pos hpq]), ← hpq, awaits_of_some underWay, visited]
      rfl
    · exact awaits_congr (by rw [current, if_neg hpq]) id

end Steps

/-! ### The lines that are due -/

section Due

variable (ledger : Ledger) (hub next : Hub σ) {p : PublisherId} {id : SubscriptionId}

theorem filter_includes_after (event : Option HubEvent) :
    (List.range (settled ledger hub p id)).filter ((ledger.after event).includes p · id)
      = due ledger hub p id := by
  refine List.filter_congr fun number hnumber => ?_
  have hsettled : settled ledger hub p id ≤ (ledger.broadcastsOf p).length := Nat.sub_le ..
  exact ledger.includes_after event (Nat.lt_of_lt_of_le (List.mem_range.mp hnumber) hsettled) id

variable {ledger hub next}

theorem due_after_of_settled_eq
    (h : settled (ledger.after event) next p id = settled ledger hub p id) :
    due (ledger.after event) next p id = due ledger hub p id := by
  rw [due, h, filter_includes_after]

/-- The line behind the frontier becomes due if it was meant for the subscription. -/
theorem due_after_of_settled_succ
    (h : settled (ledger.after event) next p id = settled ledger hub p id + 1) :
    due (ledger.after event) next p id
      = due ledger hub p id
        ++ [settled ledger hub p id].filter ((ledger.after event).includes p · id) := by
  rw [due, h, List.range_succ, List.filter_append, filter_includes_after]

theorem due_after_of_meant
    (h : settled (ledger.after event) next p id = settled ledger hub p id + 1)
    (meant : (ledger.after event).includes p (settled ledger hub p id) id = true) :
    due (ledger.after event) next p id = due ledger hub p id ++ [settled ledger hub p id] := by
  have hkept : [settled ledger hub p id].filter ((ledger.after event).includes p · id)
      = [settled ledger hub p id] := by simp [meant]
  rw [due_after_of_settled_succ h, hkept]

theorem due_prefix_owed (ledger : Ledger) (hub : Hub σ) (p : PublisherId) (id : SubscriptionId) :
    due ledger hub p id <+: ledger.owed p id := by
  refine List.IsPrefix.filter _ ?_
  have hsettled : settled ledger hub p id ≤ (ledger.broadcastsOf p).length := Nat.sub_le ..
  rw [← Nat.min_eq_left hsettled, ← List.take_range]
  exact List.take_prefix _ _

/-- Between two lines everything that was meant for a subscription is due. -/
theorem due_eq_owed (h : hub.current p = none) : due ledger hub p id = ledger.owed p id := by
  rw [due, settled, awaits_of_none h]
  rfl

end Due

/-! ### What is taken of them -/

/-- What a queue has taken of a publisher is what was due, or a beginning of it, which it stays as
soon as the queue may not be given lines any more. -/
def IsLossless (ledger : Ledger) (hub : Hub σ) (p : PublisherId) (id : SubscriptionId) : Prop :=
  ledger.numbers p id <+: due ledger hub p id
    ∧ (hub.IsOpen p id → ledger.numbers p id = due ledger hub p id)

/-- What a queue has taken of a publisher has no gaps, and none in front of the frontier as long as
it may still be given lines. -/
def IsContiguous (ledger : Ledger) (hub : Hub σ) (p : PublisherId) (id : SubscriptionId) : Prop :=
  ∃ first count, ledger.numbers p id = List.range' first count
    ∧ (hub.IsOpen p id → count = 0 ∨ first + count = settled ledger hub p id)

section Steps

variable {ledger : Ledger} {p : PublisherId} {id : SubscriptionId}

theorem Advance.numbers_sublist (h : Advance ledger hub next event p id)
    (before : (ledger.numbers p id).Sublist (due ledger hub p id)) :
    ((ledger.after event).numbers p id).Sublist (due (ledger.after event) next p id) := by
  cases h with
  | taken numbers frontier meant =>
    rw [numbers, due_after_of_meant frontier meant]
    exact before.append (List.Sublist.refl _)
  | passed numbers frontier =>
    rw [numbers, due_after_of_settled_succ frontier]
    exact before.trans (List.sublist_append_left _ _)
  | stays numbers frontier =>
    rw [numbers, due_after_of_settled_eq frontier]
    exact before

theorem Advance.lossless (h : Advance ledger hub next event p id)
    (hblock : hub.config.overflow = .block)
    (hunknown : hub.subscriptions[id]? = none → due ledger hub p id = [])
    (before : IsLossless ledger hub p id) : IsLossless (ledger.after event) next p id := by
  obtain ⟨hbeginning, hopen⟩ := before
  cases h with
  | taken numbers frontier meant isOpen =>
    have hall : (ledger.after event).numbers p id = due (ledger.after event) next p id := by
      rw [numbers, hopen isOpen, due_after_of_meant frontier meant]
    exact ⟨hall ▸ List.prefix_rfl, fun _ => hall⟩
  | passed numbers frontier shut =>
    refine ⟨?_, fun h => absurd h (shut hblock)⟩
    rw [numbers, due_after_of_settled_succ frontier]
    exact hbeginning.trans (List.prefix_append _ _)
  | stays numbers frontier opened =>
    rw [IsLossless, numbers, due_after_of_settled_eq frontier]
    refine ⟨hbeginning, fun h => ?_⟩
    rcases opened h with h | hnone
    · exact hopen h
    · rw [hunknown hnone] at hbeginning ⊢
      exact List.prefix_nil.mp hbeginning

theorem Advance.contiguous (h : Advance ledger hub next event p id)
    (hblock : hub.config.overflow = .block)
    (hunknown : hub.subscriptions[id]? = none → ledger.numbers p id = [])
    (before : IsContiguous ledger hub p id) : IsContiguous (ledger.after event) next p id := by
  obtain ⟨first, count, hnumbers, hfrontier⟩ := before
  cases h with
  | taken numbers frontier meant isOpen =>
    rcases hfrontier isOpen with rfl | hend
    · refine ⟨settled ledger hub p id, 1, ?_, fun _ => Or.inr frontier.symm⟩
      rw [numbers, hnumbers]
      rfl
    · refine ⟨first, count + 1, ?_, fun _ => Or.inr ?_⟩
      · rw [numbers, hnumbers, ← hend, List.range'_1_concat]
      · omega
  | passed numbers frontier shut =>
    exact ⟨first, count, numbers.trans hnumbers, fun hopen => absurd hopen (shut hblock)⟩
  | stays numbers frontier opened =>
    refine ⟨first, count, numbers.trans hnumbers, fun hopen => ?_⟩
    rw [frontier]
    rcases opened hopen with hopen | hnone
    · exact hfrontier hopen
    · refine Or.inl ?_
      have hnil := hnumbers.symm.trans (hunknown hnone)
      rw [List.range'_eq_nil_iff] at hnil
      exact hnil

end Steps

section Runs

variable [LineSink σ] {config : HubConfig} {events : List HubEvent}

/-- **What a queue takes of a publisher is a selection of the lines meant for it, in their
order.** -/
theorem Run.numbers_sublist_due (h : Run (ofConfig config) events hub) (p : PublisherId)
    (id : SubscriptionId) :
    ((ofEvents events).numbers p id).Sublist (due (ofEvents events) hub p id) := by
  refine h.ledger_induction
    (fun hub ledger => (ledger.numbers p id).Sublist (due ledger hub p id)) (List.nil_sublist _) ?_
  intro hub next events event run before move
  exact (move.traffic.advance run.underWay p id).numbers_sublist before

/-- Nothing was begun for a subscription that there is not. -/
theorem Run.not_mem_snapshot (h : Run (ofConfig config) events hub) {id : SubscriptionId}
    (hid : hub.subscriptions[id]? = none) :
    ∀ broadcast ∈ (ofEvents events).broadcasts, id ∉ broadcast.snapshot := by
  refine h.ledger_induction (fun hub ledger => hub.subscriptions[id]? = none →
    ∀ broadcast ∈ ledger.broadcasts, id ∉ broadcast.snapshot) ?_ ?_ hid
  · exact fun _ _ hbroadcast => absurd hbroadcast List.not_mem_nil
  · intro hub next events event run before move hnext broadcast hbroadcast
    have hbefore : hub.subscriptions[id]? = none := by
      have handling := move.handling id
      rw [hnext] at handling
      cases hhub : hub.subscriptions[id]? with
      | none => rfl
      | some s => rw [hhub] at handling; cases handling
    rcases mem_broadcasts_after _ hbroadcast with hbroadcast | rfl
    · exact before hbefore broadcast hbroadcast
    · cases move with
      | begin line found idle order =>
        intro hmem
        obtain ⟨s, hs, -⟩ := mem_registry.mp (order.mem_iff.mp hmem)
        cases (hbefore.symm.trans hs)

theorem Run.due_of_none (h : Run (ofConfig config) events hub) {id : SubscriptionId}
    (hid : hub.subscriptions[id]? = none) (p : PublisherId) :
    due (ofEvents events) hub p id = [] := by
  refine List.filter_eq_nil_iff.mpr fun number _ hincludes => ?_
  obtain ⟨broadcast, hbroadcast, hcontains⟩ := (Option.any_eq_true ..).mp hincludes
  have hmem := (List.mem_filter.mp (List.mem_of_getElem? hbroadcast)).1
  exact h.not_mem_snapshot hid broadcast hmem (by simpa using hcontains)

/-- Nothing has been taken by a queue that there is not. -/
theorem Run.numbers_of_none (h : Run (ofConfig config) events hub) {id : SubscriptionId}
    (hid : hub.subscriptions[id]? = none) (p : PublisherId) :
    (ofEvents events).numbers p id = [] := by
  have hsublist := h.numbers_sublist_due p id
  rw [h.due_of_none hid] at hsublist
  exact List.sublist_nil.mp hsublist

/-- **Under `block` nothing that is due to a queue is left out as long as it is registered.** -/
theorem Run.lossless (h : Run (ofConfig config) events hub) (hblock : config.overflow = .block)
    (p : PublisherId) (id : SubscriptionId) : IsLossless (ofEvents events) hub p id := by
  refine h.ledger_induction (fun hub ledger => IsLossless ledger hub p id) ?_ ?_
  · exact ⟨List.nil_prefix, fun _ => rfl⟩
  · intro hub next events event run before move
    refine (move.traffic.advance run.underWay p id).lossless ?_ ?_ before
    · rw [run.config_eq]
      exact hblock
    · exact fun hid => run.due_of_none hid p

/-- **Under `block` no line is left out between two that are taken.** -/
theorem Run.contiguous (h : Run (ofConfig config) events hub) (hblock : config.overflow = .block)
    (p : PublisherId) (id : SubscriptionId) : IsContiguous (ofEvents events) hub p id := by
  refine h.ledger_induction (fun hub ledger => IsContiguous ledger hub p id) ?_ ?_
  · exact ⟨0, 0, rfl, fun _ => Or.inl rfl⟩
  · intro hub next events event run before move
    refine (move.traffic.advance run.underWay p id).contiguous ?_ ?_ before
    · rw [run.config_eq]
      exact hblock
    · exact fun hid => run.numbers_of_none hid p

end Runs

end Restconf.Hub
