import Restconf.Proofs.Hub.Move

/-!
# What a run has shown

The hub keeps no history, so what has been published, accepted and written is read off the events of
a run. The ledger is that reading: a fold over the events, one entry for each that matters.

## The distinction that decides it

Two lines of a publisher may have the same text, and then an order of texts says little about an
order of lines. So a line is known by its publisher and by its number among the lines of that
publisher, and a delivery records the number. An event of acceptance does not show a number, but a
publisher has only one line under way, so it is the last one begun.

## Main definitions

* `Ledger` — the broadcasts begun, the deliveries, the lines written, and the counts returned
* `Ledger.ofEvents` — the ledger of a run
* `Ledger.numbers` — which lines of a publisher a queue has taken

## Main results

* `Hub.Run.ledger_induction` — what holds of a hub beside the ledger of its run
-/

namespace Restconf

/-- A line that a publisher has begun, and the subscriptions that were registered then. -/
structure Broadcast where
  publisher : PublisherId
  line : String
  snapshot : List SubscriptionId
deriving DecidableEq, Repr

/-- A line that a queue has taken. -/
structure Delivery where
  publisher : PublisherId
  /-- The number of the line among those of its publisher, counted from zero. -/
  number : Nat
  target : SubscriptionId
  line : String
deriving DecidableEq, Repr

/-- What a run has shown, each part in the order of the run. -/
structure Ledger where
  broadcasts : List Broadcast := []
  deliveries : List Delivery := []
  /-- The lines that sinks have taken. -/
  written : List (SubscriptionId × String) := []
  /-- What publishers have returned for the lines they have ended. -/
  counts : List (PublisherId × Nat) := []
deriving DecidableEq, Repr

namespace Ledger

/-! ### Reading a ledger -/

section Reading

variable (ledger : Ledger)

/-- The lines that a publisher has begun. -/
def broadcastsOf (p : PublisherId) : List Broadcast :=
  ledger.broadcasts.filter (·.publisher = p)

/-- What a queue has taken. -/
def deliveriesTo (id : SubscriptionId) : List Delivery :=
  ledger.deliveries.filter (·.target = id)

/-- The lines that a queue has taken. -/
def linesTo (id : SubscriptionId) : List String := (ledger.deliveriesTo id).map Delivery.line

/-- The lines that a sink has taken. -/
def writtenTo (id : SubscriptionId) : List String :=
  (ledger.written.filter (·.1 = id)).map Prod.snd

/-- What the sink of a subscription has seen: as many of the lines that the queue has taken as have
been written. -/
def seenBy (id : SubscriptionId) : List Delivery :=
  (ledger.deliveriesTo id).take (ledger.writtenTo id).length

/-- The numbers of the lines of a publisher that a queue has taken. -/
def numbers (p : PublisherId) (id : SubscriptionId) : List Nat :=
  ((ledger.deliveriesTo id).filter (·.publisher = p)).map Delivery.number

/-- The numbers of the lines of a publisher that a sink has seen. -/
def numbersSeen (p : PublisherId) (id : SubscriptionId) : List Nat :=
  ((ledger.seenBy id).filter (·.publisher = p)).map Delivery.number

/-- A line of a publisher was begun when a subscription was registered. -/
def includes (p : PublisherId) (number : Nat) (id : SubscriptionId) : Bool :=
  (ledger.broadcastsOf p)[number]?.any fun broadcast => broadcast.snapshot.contains id

/-- The numbers of the lines of a publisher that were begun when a subscription was registered. -/
def owed (p : PublisherId) (id : SubscriptionId) : List Nat :=
  (List.range (ledger.broadcastsOf p).length).filter (ledger.includes p · id)

/-- The subscriptions whose queues have taken a line of a publisher. -/
def takers (p : PublisherId) (number : Nat) : List SubscriptionId :=
  (ledger.deliveries.filter fun d => d.publisher = p ∧ d.number = number).map Delivery.target

/-- How many queues have taken a line of a publisher. -/
def taken (p : PublisherId) (number : Nat) : Nat := (ledger.takers p number).length

/-- What a publisher has returned for the lines it has ended. -/
def countsOf (p : PublisherId) : List Nat := (ledger.counts.filter (·.1 = p)).map Prod.snd

end Reading

/-! ### Keeping a ledger -/

/-- Enters an event. -/
def note (ledger : Ledger) : HubEvent → Ledger
  | .began publisher line snapshot =>
    { ledger with broadcasts := ledger.broadcasts ++ [{ publisher, line, snapshot }] }
  | .accepted publisher target line =>
    let number := (ledger.broadcastsOf publisher).length - 1
    { ledger with deliveries := ledger.deliveries ++ [{ publisher, number, target, line }] }
  | .wrote id line => { ledger with written := ledger.written ++ [(id, line)] }
  | .completed publisher count =>
    { ledger with counts := ledger.counts ++ [(publisher, count)] }
  | _ => ledger

/-- Enters what a step shows. -/
def after (ledger : Ledger) (event : Option HubEvent) : Ledger :=
  event.toList.foldl note ledger

/-- The ledger of the events of a run. -/
def ofEvents (events : List HubEvent) : Ledger := events.foldl note {}

theorem ofEvents_append (events : List HubEvent) (event : Option HubEvent) :
    ofEvents (events ++ event.toList) = (ofEvents events).after event := by
  rw [ofEvents, List.foldl_append]
  rfl

/-- The broadcast that an event shows. -/
def broadcast? : HubEvent → Option Broadcast
  | .began publisher line snapshot => some { publisher, line, snapshot }
  | _ => none

theorem broadcasts_foldl (ledger : Ledger) (events : List HubEvent) :
    (events.foldl note ledger).broadcasts = ledger.broadcasts ++ events.filterMap broadcast? := by
  induction events generalizing ledger with
  | nil => exact (List.append_nil _).symm
  | cons event events ih =>
    rw [List.foldl_cons, ih]
    cases event with
    | began => exact List.append_assoc ..
    | _ => rfl

theorem mem_broadcastsOf {events : List HubEvent} {p : PublisherId} {broadcast : Broadcast}
    (h : broadcast ∈ (ofEvents events).broadcastsOf p) :
    .began p broadcast.line broadcast.snapshot ∈ events := by
  rw [broadcastsOf, List.mem_filter, decide_eq_true_eq, ofEvents, broadcasts_foldl,
    List.nil_append, List.mem_filterMap] at h
  obtain ⟨⟨event, hevent, hshows⟩, rfl⟩ := h
  cases event with
  | began =>
    obtain rfl := Option.some.inj hshows
    exact hevent
  | _ => cases hshows

section Entries

variable (ledger : Ledger)

theorem mem_broadcasts_after {event : Option HubEvent} {broadcast : Broadcast}
    (h : broadcast ∈ (ledger.after event).broadcasts) : broadcast ∈ ledger.broadcasts
      ∨ event = some (.began broadcast.publisher broadcast.line broadcast.snapshot) := by
  cases event with
  | none => exact Or.inl h
  | some event =>
    cases event with
    | began p line snapshot =>
      rcases List.mem_append.mp h with h | h
      · exact Or.inl h
      · rw [List.mem_singleton.mp h]
        exact Or.inr rfl
    | _ => exact Or.inl h

/-- What has been begun stays begun. -/
theorem broadcastsOf_after (event : Option HubEvent) (p : PublisherId) :
    ∃ more, (ledger.after event).broadcastsOf p = ledger.broadcastsOf p ++ more := by
  cases event with
  | none => exact ⟨[], (List.append_nil _).symm⟩
  | some event =>
    cases event with
    | began => exact ⟨_, List.filter_append ..⟩
    | _ => exact ⟨[], (List.append_nil _).symm⟩

/-- For whom a line was begun does not change. -/
theorem includes_after (event : Option HubEvent) {p : PublisherId} {number : Nat}
    (h : number < (ledger.broadcastsOf p).length) (id : SubscriptionId) :
    (ledger.after event).includes p number id = ledger.includes p number id := by
  obtain ⟨more, hmore⟩ := ledger.broadcastsOf_after event p
  rw [includes, hmore, List.getElem?_append_left h, includes]

variable (p q : PublisherId) (id target : SubscriptionId) (line : String)

theorem broadcastsOf_after_began (snapshot : List SubscriptionId) :
    (ledger.after (some (.began p line snapshot))).broadcastsOf q
      = if p = q then ledger.broadcastsOf q ++ [{ publisher := p, line, snapshot }]
        else ledger.broadcastsOf q := by
  show (ledger.broadcasts ++ [_]).filter _ = _
  rw [List.filter_append]
  by_cases h : p = q <;> simp [h, broadcastsOf]

theorem deliveriesTo_after_accepted :
    (ledger.after (some (.accepted p target line))).deliveriesTo id
      = if target = id then
          ledger.deliveriesTo id
            ++ [{ publisher := p, number := (ledger.broadcastsOf p).length - 1, target, line }]
        else ledger.deliveriesTo id := by
  show (ledger.deliveries ++ [_]).filter _ = _
  rw [List.filter_append]
  by_cases h : target = id <;> simp [h, deliveriesTo]

theorem linesTo_after_accepted :
    (ledger.after (some (.accepted p target line))).linesTo id
      = if target = id then ledger.linesTo id ++ [line] else ledger.linesTo id := by
  rw [linesTo, deliveriesTo_after_accepted]
  by_cases h : target = id <;> simp [h, linesTo]

theorem numbers_after_accepted :
    (ledger.after (some (.accepted p target line))).numbers q id
      = if p = q ∧ target = id then ledger.numbers q id ++ [(ledger.broadcastsOf p).length - 1]
        else ledger.numbers q id := by
  rw [numbers, deliveriesTo_after_accepted]
  by_cases hid : target = id
  · rw [if_pos hid, List.filter_append]
    by_cases hp : p = q <;> simp [hid, hp, numbers]
  · rw [if_neg hid, if_neg fun h => hid h.2, numbers]

theorem taken_after_accepted (number : Nat) :
    (ledger.after (some (.accepted p target line))).taken q number
      = if p = q ∧ (ledger.broadcastsOf p).length - 1 = number then ledger.taken q number + 1
        else ledger.taken q number := by
  show (((ledger.deliveries ++ [_]).filter _).map _).length = _
  rw [List.filter_append, List.map_append, List.length_append]
  by_cases h : p = q ∧ (ledger.broadcastsOf p).length - 1 = number
  · obtain ⟨rfl, rfl⟩ := h
    simp [taken, takers]
  · simp [h, taken, takers]

theorem writtenTo_after_wrote :
    (ledger.after (some (.wrote target line))).writtenTo id
      = if target = id then ledger.writtenTo id ++ [line] else ledger.writtenTo id := by
  show ((ledger.written ++ [_]).filter _).map _ = _
  rw [List.filter_append]
  by_cases h : target = id <;> simp [h, writtenTo]

theorem countsOf_after_completed (count : Nat) :
    (ledger.after (some (.completed p count))).countsOf q
      = if p = q then ledger.countsOf q ++ [count] else ledger.countsOf q := by
  show ((ledger.counts ++ [_]).filter _).map _ = _
  rw [List.filter_append]
  by_cases h : p = q <;> simp [h, countsOf]

end Entries

end Ledger

/-! ### Runs -/

namespace Hub

open Ledger

variable {σ : Type} [LineSink σ]

/-- What holds of a hub beside the ledger of its run: it holds at the start, and every move keeps
it. That the hub is the last one of a run may be used for what has been proved before. -/
theorem Run.ledger_induction {start : Hub σ} (motive : Hub σ → Ledger → Prop)
    (init : motive start {})
    (step : ∀ {hub next events event}, Run start events hub → motive hub (ofEvents events) →
      Move hub event next → motive next ((ofEvents events).after event))
    {hub : Hub σ} {events : List HubEvent} (h : Run start events hub) :
    motive hub (ofEvents events) := by
  induction h with
  | refl => exact init
  | tail h s ih =>
    rw [ofEvents_append]
    exact step h ih s.move

end Hub

end Restconf
