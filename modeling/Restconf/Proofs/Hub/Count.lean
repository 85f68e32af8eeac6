import Restconf.Proofs.Hub.Traffic

/-!
# Addressees and counts

A queue takes a line only if it was registered when the line was begun, and a publisher returns how
many queues have taken its line.

## Why the two belong together

A publisher counts the line that it has under way. That the count is right at the beginning means
that no queue has taken a line before it was begun, which is a consequence of the first statement:
every delivery is of a line that its publisher has begun.

## Main definitions

* `Hub.IsAddressed` — a delivery is of a line for a snapshot with its target
* `Hub.IsCounted` — a publisher has counted right
* `Hub.returnedBy` — what a publisher has returned

## Main results

* `Hub.Run.addressed`, `Hub.Run.counted`
* `Hub.Run.returnedBy_eq` — what the hub keeps of the counts is what it has shown
-/

namespace Restconf.Hub

open Ledger

variable {σ : Type} {hub next : Hub σ} {event : Option HubEvent}

/-! ### Addressees -/

/-- A delivery is of a line that its publisher has begun when the subscription was registered. -/
def IsAddressed (ledger : Ledger) (delivery : Delivery) : Prop :=
  ∃ broadcast, (ledger.broadcastsOf delivery.publisher)[delivery.number]? = some broadcast
    ∧ broadcast.line = delivery.line ∧ delivery.target ∈ broadcast.snapshot

section Steps

variable {ledger : Ledger}

theorem IsAddressed.after {delivery : Delivery} (h : IsAddressed ledger delivery)
    (event : Option HubEvent) : IsAddressed (ledger.after event) delivery := by
  obtain ⟨broadcast, hbroadcast, hline, htarget⟩ := h
  obtain ⟨more, hmore⟩ := ledger.broadcastsOf_after event delivery.publisher
  refine ⟨broadcast, ?_, hline, htarget⟩
  rw [hmore, List.getElem?_append_left (List.getElem?_eq_some_iff.mp hbroadcast).1]
  exact hbroadcast

theorem Traffic.addressed (h : Traffic hub next event)
    (hunder : ∀ p publication, hub.current p = some publication → UnderWay ledger p publication)
    (before : ∀ delivery ∈ ledger.deliveries, IsAddressed ledger delivery) :
    ∀ delivery ∈ (ledger.after event).deliveries, IsAddressed (ledger.after event) delivery := by
  intro delivery hdelivery
  cases h with
  | quiet quiet =>
    rw [(quiet ledger).2.1] at hdelivery
    exact (before delivery hdelivery).after event
  | @accepted p publication target isAt =>
    rcases List.mem_append.mp hdelivery with hdelivery | hnew
    · exact (before delivery hdelivery).after _
    · rw [List.mem_singleton.mp hnew]
      obtain ⟨earlier, broadcast, hlast, hline, hsnapshot⟩ := (hunder p _ isAt.current).last
      refine ⟨broadcast, ?_, hline, hsnapshot target ?_⟩
      · show (ledger.broadcastsOf p)[(ledger.broadcastsOf p).length - 1]? = some broadcast
        rw [← List.getLast?_eq_getElem?, hlast, List.getLast?_concat]
      · rw [isAt.next]
        exact List.mem_cons_self
  | begun | passed | completed => exact (before delivery hdelivery).after _

end Steps

section Runs

variable [LineSink σ] {config : HubConfig} {events : List HubEvent}

/-- **A queue takes a line only if it was registered when the line was begun.** -/
theorem Run.addressed (h : Run (ofConfig config) events hub) :
    ∀ delivery ∈ (ofEvents events).deliveries, IsAddressed (ofEvents events) delivery := by
  refine h.ledger_induction
    (fun _ ledger => ∀ delivery ∈ ledger.deliveries, IsAddressed ledger delivery) ?_ ?_
  · exact fun _ hdelivery => absurd hdelivery List.not_mem_nil
  · exact fun run before move => move.traffic.addressed run.underWay before

end Runs

/-! ### Counts -/

/-- How many lines a publisher has ended. -/
def ended (ledger : Ledger) (hub : Hub σ) (p : PublisherId) : Nat :=
  (ledger.broadcastsOf p).length - (hub.current p).isSome.toNat

/-- What a publisher has returned is how many queues have taken each line that it has ended, and it
has counted right so far on the line under way. -/
structure IsCounted (ledger : Ledger) (hub : Hub σ) (p : PublisherId) : Prop where
  returned : ledger.countsOf p = (List.range (ended ledger hub p)).map (ledger.taken p)
  delivered : ∀ publication, hub.current p = some publication →
    publication.delivered = ledger.taken p ((ledger.broadcastsOf p).length - 1)

section Steps

variable {ledger : Ledger}

/-- Nothing has been taken of a line that has not been begun. -/
theorem taken_eq_zero (h : ∀ delivery ∈ ledger.deliveries, IsAddressed ledger delivery)
    {p : PublisherId} {number : Nat} (hnumber : (ledger.broadcastsOf p).length ≤ number) :
    ledger.taken p number = 0 := by
  rw [Ledger.taken, List.length_eq_zero_iff, takers, List.map_eq_nil_iff, List.filter_eq_nil_iff]
  intro delivery hdelivery heq
  obtain ⟨rfl, rfl⟩ := of_decide_eq_true heq
  obtain ⟨broadcast, hbroadcast, -⟩ := h delivery hdelivery
  have := (List.getElem?_eq_some_iff.mp hbroadcast).1
  omega

/-- A step that is not about a publisher. -/
theorem IsCounted.of_eq {q : PublisherId} (before : IsCounted ledger hub q)
    (hbroadcasts : (ledger.after event).broadcastsOf q = ledger.broadcastsOf q)
    (htaken : (ledger.after event).taken q = ledger.taken q)
    (hcounts : (ledger.after event).countsOf q = ledger.countsOf q)
    (hcurrent : next.current q = hub.current q) : IsCounted (ledger.after event) next q := by
  constructor
  · rw [hcounts, ended, hbroadcasts, htaken, hcurrent]
    exact before.returned
  · rw [hcurrent, hbroadcasts, htaken]
    exact before.delivered

section Publisher

variable {p : PublisherId} {publication : Publication} {target : SubscriptionId}

/-- What a publisher has returned is about the lines it has ended, as long as it ends no other. -/
theorem IsCounted.returned_of_some (before : IsCounted ledger hub p)
    (hcurrent : hub.current p = some publication) {after : Publication}
    (hnext : next.current p = some after) :
    ledger.countsOf p = (List.range (ended ledger next p)).map (ledger.taken p) := by
  have hreturned := before.returned
  rw [ended, hcurrent] at hreturned
  rw [ended, hnext]
  exact hreturned

theorem IsCounted.begun {line : String} {targets : List SubscriptionId}
    (before : IsCounted ledger hub p) (idle : hub.current p = none)
    (haddressed : ∀ delivery ∈ ledger.deliveries, IsAddressed ledger delivery)
    (hnext : next.current p = some { line, targets }) :
    IsCounted (ledger.after (some (.began p line targets))) next p := by
  have hledger := ledger.broadcastsOf_after_began p p line targets
  rw [if_pos rfl] at hledger
  constructor
  · have hreturned := before.returned
    rw [ended, idle] at hreturned
    rw [ended, hledger, hnext, List.length_append]
    exact hreturned
  · intro after hafter
    obtain rfl := Option.some.inj (hnext.symm.trans hafter)
    rw [hledger, List.length_append]
    exact (taken_eq_zero haddressed (Nat.le_refl _)).symm

/-- A queue that takes the line under way adds one to its count, and to no other. -/
theorem IsCounted.accepted (before : IsCounted ledger hub p)
    (isAt : hub.IsAt p publication target)
    (hnext : next.current p = some (publication.passed true)) :
    IsCounted (ledger.after (some (.accepted p target publication.line))) next p := by
  have htaken := ledger.taken_after_accepted p p target publication.line
  constructor
  · refine (before.returned_of_some isAt.current hnext).trans
      (List.map_congr_left fun number hnumber => ?_)
    rw [htaken, if_neg]
    rintro ⟨-, rfl⟩
    rw [ended, hnext] at hnumber
    exact absurd (List.mem_range.mp hnumber) (Nat.lt_irrefl _)
  · intro after hafter
    obtain rfl := Option.some.inj (hnext.symm.trans hafter)
    have hsame : (ledger.after (some (.accepted p target publication.line))).broadcastsOf p
        = ledger.broadcastsOf p := rfl
    rw [hsame, htaken, if_pos ⟨rfl, rfl⟩, ← before.delivered publication isAt.current]
    rfl

theorem IsCounted.passed (before : IsCounted ledger hub p) (isAt : hub.IsAt p publication target)
    (hnext : next.current p = some (publication.passed false)) :
    IsCounted (ledger.after (some (.passed p target))) next p := by
  refine ⟨before.returned_of_some isAt.current hnext, fun after hafter => ?_⟩
  obtain rfl := Option.some.inj (hnext.symm.trans hafter)
  exact before.delivered publication isAt.current

/-- The count of a line that ends is the next one returned. -/
theorem IsCounted.completed (before : IsCounted ledger hub p)
    (hunder : UnderWay ledger p publication) (hcurrent : hub.current p = some publication)
    (hnext : next.current p = none) :
    IsCounted (ledger.after (some (.completed p publication.delivered))) next p := by
  refine ⟨?_, fun after hafter => by cases hnext.symm.trans hafter⟩
  obtain ⟨earlier, broadcast, hlast, -⟩ := hunder.last
  have hcounts := ledger.countsOf_after_completed p p publication.delivered
  have hreturned := before.returned
  have hdelivered := before.delivered publication hcurrent
  have hsame : (ledger.after (some (.completed p publication.delivered))).broadcastsOf p
      = ledger.broadcastsOf p := rfl
  rw [ended, hcurrent, hlast, List.length_append] at hreturned
  rw [hlast, List.length_append] at hdelivered
  rw [hcounts, if_pos rfl, hreturned, ended, hnext, hsame, hlast, List.length_append]
  show (List.range earlier.length).map (ledger.taken p) ++ [publication.delivered]
    = (List.range (earlier.length + 1)).map (ledger.taken p)
  rw [hdelivered, List.range_succ, List.map_append]
  rfl

end Publisher

theorem Traffic.counted (h : Traffic hub next event)
    (hunder : ∀ p publication, hub.current p = some publication → UnderWay ledger p publication)
    (haddressed : ∀ delivery ∈ ledger.deliveries, IsAddressed ledger delivery)
    (q : PublisherId) (before : IsCounted ledger hub q) :
    IsCounted (ledger.after event) next q := by
  cases h with
  | quiet quiet current =>
    refine before.of_eq (quiet.broadcastsOf_eq q) ?_ ?_ (current q)
    · funext number
      rw [Ledger.taken, takers, (quiet ledger).2.1]
      rfl
    · rw [countsOf, (quiet ledger).2.2, ← countsOf]
  | @begun p line targets idle order current =>
    by_cases hpq : p = q
    · subst hpq
      exact before.begun idle haddressed (by rw [current, if_pos rfl])
    · have hledger := ledger.broadcastsOf_after_began p q line targets
      rw [if_neg hpq] at hledger
      exact before.of_eq hledger rfl rfl (by rw [current, if_neg hpq])
  | @accepted p publication target isAt current =>
    by_cases hpq : p = q
    · subst hpq
      exact before.accepted isAt (by rw [current, if_pos rfl])
    · refine before.of_eq rfl ?_ rfl (by rw [current, if_neg hpq])
      funext number
      rw [ledger.taken_after_accepted, if_neg fun h => hpq h.1]
  | @passed p publication target isAt current =>
    by_cases hpq : p = q
    · subst hpq
      exact before.passed isAt (by rw [current, if_pos rfl])
    · exact before.of_eq rfl rfl rfl (by rw [current, if_neg hpq])
  | @completed p publication underWay visited current =>
    by_cases hpq : p = q
    · subst hpq
      exact before.completed (hunder p publication underWay) underWay (by rw [current, if_pos rfl])
    · have hcounts := ledger.countsOf_after_completed p q publication.delivered
      rw [if_neg hpq] at hcounts
      exact before.of_eq rfl rfl hcounts (by rw [current, if_neg hpq])

end Steps

section Runs

variable [LineSink σ] {config : HubConfig} {events : List HubEvent}

/-- **Publishers return how many queues have taken a line.** -/
theorem Run.counted (h : Run (ofConfig config) events hub) (p : PublisherId) :
    IsCounted (ofEvents events) hub p := by
  refine h.ledger_induction (fun hub ledger => IsCounted ledger hub p) ⟨rfl, ?_⟩ ?_
  · intro publication hcurrent
    cases hcurrent
  · exact fun run before move => move.traffic.counted run.underWay run.addressed p before

end Runs

/-! ### What is returned -/

/-- What a publisher has returned for the lines it has ended, as the hub keeps it. -/
def returnedBy (hub : Hub σ) (p : PublisherId) : List Nat :=
  (hub.publishers[p]?.map Publisher.counts).getD []

section Steps

variable {ledger : Ledger}

theorem returnedBy_updatePublisher (hub : Hub σ) (p q : PublisherId) {f : Publisher → Publisher}
    (hf : ∀ publisher, (f publisher).counts = publisher.counts) :
    (hub.updatePublisher p f).returnedBy q = hub.returnedBy q := by
  rw [returnedBy, updatePublisher, List.getElem?_modify, returnedBy]
  cases hub.publishers[q]? with
  | none => rfl
  | some publisher => by_cases h : p = q <;> simp [h, hf]

theorem returnedBy_passTarget (hub : Hub σ) (p q : PublisherId) (accepted : Bool) :
    (hub.passTarget p accepted).returnedBy q = hub.returnedBy q := by
  rw [passTarget]
  exact hub.returnedBy_updatePublisher p q fun _ => rfl

theorem returnedBy_publishTo (hub : Hub σ) (p q : PublisherId) (line : String)
    (targets : List SubscriptionId) :
    (hub.publishTo p line targets).hub.returnedBy q = hub.returnedBy q := by
  rw [publishTo]
  exact hub.returnedBy_updatePublisher p q fun _ => rfl

theorem returnedBy_finishLine {p : PublisherId} {publication : Publication}
    (hcurrent : hub.current p = some publication) (count : Nat) (q : PublisherId) :
    (hub.finishLine p count).hub.returnedBy q
      = if p = q then hub.returnedBy q ++ [count] else hub.returnedBy q := by
  rw [returnedBy, finishLine, updatePublisher, List.getElem?_modify, returnedBy]
  by_cases h : p = q
  · subst h
    rw [current] at hcurrent
    obtain ⟨publisher, hpublisher, -⟩ := Option.bind_eq_some_iff.mp hcurrent
    rw [hpublisher]
    simp
  · cases hub.publishers[q]? <;> simp [h]

/-- A publisher that has just come has returned nothing. -/
theorem returnedBy_addPublisher (hub : Hub σ) (q : PublisherId) :
    hub.addPublisher.2.returnedBy q = hub.returnedBy q := by
  rw [returnedBy, returnedBy, addPublisher]
  by_cases h : q < hub.publishers.length
  · rw [List.getElem?_append_left h]
  · rw [List.getElem?_append_right (Nat.le_of_not_lt h),
      List.getElem?_eq_none (Nat.le_of_not_lt h)]
    cases q - hub.publishers.length <;> rfl

theorem Move.returnedBy_eq [LineSink σ] (h : Move hub event next) (q : PublisherId)
    (before : hub.returnedBy q = ledger.countsOf q) :
    next.returnedBy q = (ledger.after event).countsOf q := by
  cases h with
  | finish underWay visited =>
    rw [returnedBy_finishLine underWay, countsOf_after_completed, before]
  | addPublisher => exact (returnedBy_addPublisher hub q).trans before
  | begin => exact (hub.returnedBy_publishTo _ q _ _).trans before
  | accept | skip | skipUnknown | forget => exact (returnedBy_passTarget _ _ q _).trans before
  | _ => exact before

end Steps

/-- **What the hub keeps of the counts is what it has shown.** -/
theorem Run.returnedBy_eq [LineSink σ] {config : HubConfig} {events : List HubEvent}
    (h : Run (ofConfig config) events hub) (p : PublisherId) :
    hub.returnedBy p = (ofEvents events).countsOf p :=
  h.ledger_induction (fun hub ledger => hub.returnedBy p = ledger.countsOf p) rfl
    fun _ before move => move.returnedBy_eq p before

end Restconf.Hub
