import Restconf.Proofs.Hub.Frontier
import Restconf.Proofs.Hub.Visit

/-!
# What a subscription sees

All that a subscription can see of a hub is its own state, the lines that publishers have still to
bring to it, and what it has been given so far. This is its sight. A consumer decides by nothing
else: whether it can go on is a matter of its sight.

## Why the lines on their way are part of it

A consumer that waits at an empty queue ends when nobody can put anything into the queue any more.
That is so if it is not registered and no publisher has still to visit it. The second is not a
property of its own state, but it is no property of other subscriptions either: a publisher that
began while the subscription was registered has still to visit it until it has done so.

## Main definitions

* `Sight`, `Hub.sight` — what a subscription sees
* `Sight.noting` — the sight behind a step, from what the step shows

## Main results

* `Hub.Move.sight_eq` — what a move changes in the sight of a subscription
* `Hub.Move.sight_eq_of_other` — nothing, if it is about something else
* `Hub.isSome_consume_eq` — whether a consumer can go on is a matter of its sight
* `Hub.noting_eq_of_consume`, `Hub.noting_eq_of_visit` — so is what comes of a step
-/

namespace Restconf

/-- What a subscription sees. -/
structure Sight (σ : Type) where
  /-- Its own state, if it has been made. -/
  subscription : Option (Subscription σ)
  /-- The lines that publishers have still to bring to it. -/
  awaited : PublisherId → Option String
  /-- The lines that its queue has taken. -/
  lines : List String
  /-- The lines that its sink has been given. -/
  written : List String

namespace HubEvent

/-- The lines that an event adds to what a queue has taken. -/
def linesTaken (id : SubscriptionId) : HubEvent → List String
  | accepted _ i line => if i = id then [line] else []
  | _ => []

/-- The lines that an event adds to what a sink has been given. -/
def linesGiven (id : SubscriptionId) : HubEvent → List String
  | wrote i line => if i = id then [line] else []
  | _ => []

/-- The line that a publisher has still to bring to a subscription behind an event. -/
def lineAwaited (id : SubscriptionId) (q : PublisherId) (before : Option String) :
    HubEvent → Option String
  | began p line targets => if p = q then (if id ∈ targets then some line else none) else before
  | accepted p target _ | passed p target => if p = q ∧ target = id then none else before
  | _ => before

/-- An event shows that a publisher begins a line. -/
def isBeginning : HubEvent → Bool
  | began .. => true
  | _ => false

theorem isBeginning_of_consumer? {id : SubscriptionId} {event : HubEvent}
    (h : event.consumer? = some id) : event.isBeginning = false := by
  cases event with
  | began => cases h
  | _ => rfl

end HubEvent

/-- The sight of a subscription behind a step, from what the step shows and what has become of the
subscription. -/
def Sight.noting {σ : Type} (id : SubscriptionId) (event : Option HubEvent)
    (subscription : Option (Subscription σ)) (sight : Sight σ) : Sight σ where
  subscription
  awaited q := event.elim (sight.awaited q) (·.lineAwaited id q (sight.awaited q))
  lines := sight.lines ++ event.toList.flatMap (·.linesTaken id)
  written := sight.written ++ event.toList.flatMap (·.linesGiven id)

/-- An event that is about something else changes nothing, unless a publisher begins. -/
theorem Sight.noting_of_other {σ : Type} {id : SubscriptionId} {e : HubEvent}
    (other : e.concerns id = false) (begins : e.isBeginning = false)
    (subscription : Option (Subscription σ)) (sight : Sight σ) :
    sight.noting id (some e) subscription = { sight with subscription } := by
  have htaken : e.linesTaken id = [] := by
    cases e with
    | accepted p i line => simpa [HubEvent.linesTaken, HubEvent.concerns] using other
    | _ => rfl
  have hgiven : e.linesGiven id = [] := by
    cases e with
    | wrote i line => simpa [HubEvent.linesGiven, HubEvent.concerns] using other
    | _ => rfl
  have hawaited (q : PublisherId) (before : Option String) :
      e.lineAwaited id q before = before := by
    cases e with
    | began => cases begins
    | accepted p i line | passed p i =>
      have hne : i ≠ id := by simpa [HubEvent.concerns] using other
      simp [HubEvent.lineAwaited, hne]
    | _ => rfl
  simp [noting, htaken, hgiven, hawaited]

/-- Two steps that show the same leave the same sight. -/
theorem Sight.noting_eq {σ : Type} {id₁ id₂ : SubscriptionId} {e₁ e₂ : HubEvent}
    {subscription₁ subscription₂ : Option (Subscription σ)} (sight : Sight σ)
    (subscription : subscription₁ = subscription₂)
    (taken : e₁.linesTaken id₁ = e₂.linesTaken id₂) (given : e₁.linesGiven id₁ = e₂.linesGiven id₂)
    (awaited : ∀ q before, e₁.lineAwaited id₁ q before = e₂.lineAwaited id₂ q before) :
    sight.noting id₁ (some e₁) subscription₁ = sight.noting id₂ (some e₂) subscription₂ := by
  simp only [noting, subscription, taken, given, awaited, Option.elim_some, Option.toList_some,
    List.flatMap_singleton]

namespace Ledger

variable (ledger : Ledger) (id : SubscriptionId) (event : Option HubEvent)

theorem linesTo_after :
    (ledger.after event).linesTo id
      = ledger.linesTo id ++ event.toList.flatMap (·.linesTaken id) := by
  cases event with
  | none => simp [after]
  | some e =>
    cases e with
    | accepted p target line =>
      rw [linesTo_after_accepted]
      by_cases h : target = id <;> simp [HubEvent.linesTaken, h]
    | _ => exact (List.append_nil _).symm

theorem writtenTo_after :
    (ledger.after event).writtenTo id
      = ledger.writtenTo id ++ event.toList.flatMap (·.linesGiven id) := by
  cases event with
  | none => simp [after]
  | some e =>
    cases e with
    | wrote target line =>
      rw [writtenTo_after_wrote]
      by_cases h : target = id <;> simp [HubEvent.linesGiven, h]
    | _ => exact (List.append_nil _).symm

end Ledger

namespace Hub

open Ledger

variable {σ : Type}

/-- The line that a publisher has still to bring to a subscription. -/
def awaited (hub : Hub σ) (id : SubscriptionId) (p : PublisherId) : Option String :=
  if hub.awaits p id then (hub.current p).map Publication.line else none

/-- What a subscription sees behind a run. -/
def sight (hub : Hub σ) (id : SubscriptionId) (events : List HubEvent) : Sight σ where
  subscription := hub.subscriptions[id]?
  awaited := hub.awaited id
  lines := (ofEvents events).linesTo id
  written := (ofEvents events).writtenTo id

/-! ### Lines on their way -/

section Awaited

variable {hub next : Hub σ} {event : Option HubEvent} {id : SubscriptionId}

/-- Nobody has a target twice. -/
def IsSingular (hub : Hub σ) : Prop :=
  ∀ p publication, hub.current p = some publication → publication.targets.Nodup

theorem awaited_of_current {p : PublisherId} {publication : Publication}
    (current : hub.current p = some publication) (id : SubscriptionId) :
    hub.awaited id p = if hub.awaits p id then some publication.line else none := by
  rw [awaited, current, Option.map_some]

theorem awaited_congr {q : PublisherId} (h : next.current q = hub.current q)
    (id : SubscriptionId) : next.awaited id q = hub.awaited id q := by
  rw [awaited, awaited, awaits_congr h, h]

theorem IsAt.awaited_eq {p : PublisherId} {publication : Publication}
    (isAt : hub.IsAt p publication id) : hub.awaited id p = some publication.line := by
  rw [awaited_of_current isAt.current, isAt.awaits_target, if_pos rfl]

/-- Whoever awaits a line awaits the one that is under way. -/
theorem isSome_awaited (p : PublisherId) : (hub.awaited id p).isSome = hub.awaits p id := by
  cases current : hub.current p with
  | none => simp [awaited, awaits_of_none current]
  | some publication =>
    rw [awaited_of_current current]
    cases hub.awaits p id <;> rfl

/-- A publisher that goes on has one line less to bring, to the target behind it. -/
theorem awaited_of_passed (singular : hub.IsSingular) {p : PublisherId} {publication : Publication}
    {target : SubscriptionId} {accepted : Bool} (isAt : hub.IsAt p publication target)
    (current : ∀ q, next.current q
      = if p = q then some (publication.passed accepted) else hub.current q) (q : PublisherId) :
    next.awaited id q = if p = q ∧ target = id then none else hub.awaited id q := by
  by_cases hp : p = q
  · subst hp
    have passed : next.current p = some (publication.passed accepted) :=
      (current p).trans (if_pos rfl)
    rw [awaited_of_current passed, awaited_of_current isAt.current]
    by_cases h : target = id
    · subst h
      have nodup := singular p publication isAt.current
      simp [isAt.awaits_passed nodup passed]
    · simp [isAt.awaits_passed_of_ne passed h, h, Publication.passed]
  · rw [awaited_congr ((current q).trans (if_neg hp)), if_neg fun h => hp h.1]

/-- What a move changes in the lines on their way. -/
theorem Move.awaited_eq [LineSink σ] (h : Move hub event next) (singular : hub.IsSingular)
    (id : SubscriptionId) (q : PublisherId) :
    next.awaited id q
      = event.elim (hub.awaited id q) (·.lineAwaited id q (hub.awaited id q)) := by
  cases h with
  | @begin p publisher targets line found idle order =>
    have current := current_publishTo hub p q found line targets
    by_cases hp : p = q
    · rw [if_pos hp] at current
      rw [awaited_of_current current, awaits_of_some current]
      simp [HubEvent.lineAwaited, hp]
    · rw [if_neg hp] at current
      rw [awaited_congr current]
      simp [HubEvent.lineAwaited, hp]
  | accept isAt => exact awaited_of_passed singular isAt (isAt.current_passTarget true) q
  | skip isAt | skipUnknown isAt | forget isAt =>
    exact awaited_of_passed singular isAt (isAt.current_passTarget false) q
  | @finish p publication underWay visited =>
    have current := current_finishLine hub p q publication.delivered
    by_cases hp : p = q
    · subst hp
      rw [if_pos rfl] at current
      simp [HubEvent.lineAwaited, awaited, awaits_of_none current, awaits_of_some underWay, visited]
    · rw [if_neg hp] at current
      exact awaited_congr current id
  | addPublisher => exact awaited_congr (current_addPublisher hub q) id
  | _ => rfl

end Awaited

/-! ### Moves -/

section Moves

variable [LineSink σ] {hub next : Hub σ} {event : Option HubEvent} {id : SubscriptionId}

/-- **What a move changes in the sight of a subscription.** -/
theorem Move.sight_eq (h : Move hub event next) (singular : hub.IsSingular) (id : SubscriptionId)
    (events : List HubEvent) :
    next.sight id (events ++ event.toList)
      = (hub.sight id events).noting id event next.subscriptions[id]? := by
  rw [sight, ofEvents_append, linesTo_after, writtenTo_after, Sight.noting]
  congr
  funext q
  exact h.awaited_eq singular id q

/-- What is about something else changes nothing. -/
theorem Move.subscriptions_eq_of_other {e : HubEvent} (h : Move hub (some e) next)
    (other : e.concerns id = false) : next.subscriptions[id]? = hub.subscriptions[id]? := by
  cases found : hub.subscriptions[id]? with
  | none =>
    cases hafter : next.subscriptions[id]? with
    | none => rfl
    | some s =>
      obtain ⟨-, hevent, -⟩ := h.made found hafter
      obtain rfl := Option.some.inj hevent
      simp [HubEvent.concerns] at other
  | some s =>
    obtain ⟨after, hafter, move⟩ := h.moveAt found
    rw [hafter]
    cases move with
    | elsewhere => rfl
    | _ => simp [HubEvent.concerns] at other

theorem Move.sight_eq_of_other {e : HubEvent} (h : Move hub (some e) next)
    (singular : hub.IsSingular) (other : e.concerns id = false) (begins : e.isBeginning = false)
    (events : List HubEvent) : next.sight id (events ++ [e]) = hub.sight id events := by
  have hsight := h.sight_eq singular id events
  rw [h.subscriptions_eq_of_other other, Sight.noting_of_other other begins] at hsight
  exact hsight

end Moves

/-! ### What a sight decides -/

section Decided

variable {hub hub₁ hub₂ : Hub σ} {id id₁ id₂ : SubscriptionId} {s : Subscription σ}
  {next₁ next₂ : Stepped σ} {events₁ events₂ : List HubEvent}

/-- Who holds a queue: the registry, or a publisher that has still to bring a line. -/
theorem isHeld_iff : hub.isHeld id = true
    ↔ (∃ s, hub.subscriptions[id]? = some s ∧ s.isRegistered = true)
      ∨ ∃ p, hub.awaits p id = true := by
  have holds (publisher : Publisher) : Publisher.holds id publisher
      = publisher.current.any fun publication => publication.targets.contains id := by
    rw [Publisher.holds]
    cases publisher.current <;> rfl
  rw [isHeld, Bool.or_eq_true, List.contains_iff_mem, mem_registry, List.any_eq_true]
  refine or_congr Iff.rfl ⟨?_, ?_⟩
  · rintro ⟨publisher, hpublisher, hholds⟩
    obtain ⟨p, hp⟩ := List.mem_iff_getElem?.mp hpublisher
    refine ⟨p, ?_⟩
    rw [awaits, current, hp, Option.bind_some, ← holds]
    exact hholds
  · rintro ⟨p, hp⟩
    rw [awaits, current] at hp
    cases hpublisher : hub.publishers[p]? with
    | none => simp [hpublisher] at hp
    | some publisher =>
      rw [hpublisher, Option.bind_some, ← holds] at hp
      exact ⟨publisher, List.mem_of_getElem? hpublisher, hp⟩

theorem isHeld_eq (same : hub₁.sight id₁ events₁ = hub₂.sight id₂ events₂) :
    hub₁.isHeld id₁ = hub₂.isHeld id₂ := by
  have subscription : hub₁.subscriptions[id₁]? = hub₂.subscriptions[id₂]? :=
    congrArg Sight.subscription same
  have awaited : hub₁.awaited id₁ = hub₂.awaited id₂ := congrArg Sight.awaited same
  rw [Bool.eq_iff_iff, isHeld_iff, isHeld_iff, subscription]
  simp only [← isSome_awaited, awaited]

/-- Equal changes of equal subscriptions. -/
theorem update_eq_of_found (found₁ : hub₁.subscriptions[id₁]? = some s)
    (found₂ : hub₂.subscriptions[id₂]? = some s) (f : Subscription σ → Subscription σ) :
    (hub₁.update id₁ f).subscriptions[id₁]? = (hub₂.update id₂ f).subscriptions[id₂]? := by
  rw [getElem?_update, getElem?_update, found₁, found₂, Option.map_some, if_pos rfl,
    Option.map_some, if_pos rfl]

/-- What comes of the step of a publisher at a subscription is a matter of the subscription, of the
line, of the policy, and of the capacity of queues. -/
theorem noting_eq_of_visit {p : PublisherId} {publication₁ publication₂ : Publication}
    (isAt₁ : hub₁.IsAt p publication₁ id₁) (isAt₂ : hub₂.IsAt p publication₂ id₂)
    (found₁ : hub₁.subscriptions[id₁]? = some s) (found₂ : hub₂.subscriptions[id₂]? = some s)
    (line : publication₁.line = publication₂.line)
    (policy : hub₁.config.overflow = hub₂.config.overflow)
    (capacity : hub₁.config.capacity = hub₂.config.capacity) (h₁ : hub₁.visit p = some next₁)
    (h₂ : hub₂.visit p = some next₂) (sight : Sight σ) :
    sight.noting id₁ next₁.event next₁.hub.subscriptions[id₁]?
      = sight.noting id₂ next₂.event next₂.hub.subscriptions[id₂]? := by
  have same := update_eq_of_found found₁ found₂
  have room : hub₁.hasRoom s = hub₂.hasRoom s := by rw [hasRoom, hasRoom, capacity]
  have accepted : sight.noting id₁ (hub₁.accept p id₁ publication₁.line).event
        (hub₁.accept p id₁ publication₁.line).hub.subscriptions[id₁]?
      = sight.noting id₂ (hub₂.accept p id₂ publication₂.line).event
        (hub₂.accept p id₂ publication₂.line).hub.subscriptions[id₂]? := by
    rw [line]
    exact sight.noting_eq (same _) (by simp [HubEvent.linesTaken]) rfl fun _ _ => by
      simp [HubEvent.lineAwaited]
  rw [visit_eq isAt₁ found₁] at h₁
  rw [visit_eq isAt₂ found₂] at h₂
  cases gone : s.progress.isOver with
  | true =>
    rw [if_pos gone, Option.some.injEq] at h₁ h₂
    subst h₁ h₂
    exact sight.noting_eq (same _) rfl rfl fun _ _ => by simp [HubEvent.lineAwaited]
  | false =>
    rw [if_neg (by simp [gone]), offer] at h₁ h₂
    rw [policy, room] at h₁
    cases hpolicy : hub₂.config.overflow with
    | drop =>
      simp only [hpolicy, Option.some.injEq] at h₁ h₂
      subst h₁ h₂
      cases hub₂.hasRoom s with
      | true => exact accepted
      | false =>
        exact sight.noting_eq (found₁.trans found₂.symm) rfl rfl fun _ _ => by
          simp [HubEvent.lineAwaited]
    | block =>
      cases hwaiter : s.waiters.find? fun w => w.publisher = p with
      | some waiter =>
        simp only [hpolicy, hwaiter, Option.ite_none_right_eq_some, Option.some.injEq] at h₁ h₂
        obtain ⟨-, rfl⟩ := h₁
        obtain ⟨-, rfl⟩ := h₂
        exact accepted
      | none =>
        simp only [hpolicy, hwaiter, Option.some.injEq] at h₁ h₂
        subst h₁ h₂
        cases hub₂.hasRoom s with
        | true => exact accepted
        | false => exact sight.noting_eq (same _) rfl rfl fun _ _ => rfl

variable [LineSink σ]

/-- **Whether a consumer can go on is a matter of its sight.** -/
theorem isSome_consume_eq (same : hub₁.sight id₁ events₁ = hub₂.sight id₂ events₂) :
    (hub₁.consume id₁).isSome = (hub₂.consume id₂).isSome := by
  have subscription : hub₁.subscriptions[id₁]? = hub₂.subscriptions[id₂]? :=
    congrArg Sight.subscription same
  have held := isHeld_eq same
  rw [consume, consume, subscription, held]
  cases hub₂.subscriptions[id₂]? with
  | none => rfl
  | some s =>
    cases progress : s.progress with
    | receiving => cases queue : s.queue <;> cases hub₂.isHeld id₂ <;> simp [progress, queue]
    | writing line =>
      cases outcome : LineSink.write s.sink line <;> simp [progress, writeLine, outcome]
    | closing how =>
      cases outcome : LineSink.close s.sink <;> simp [progress, closeSink, outcome]
    | _ => simp [progress]

/-- What comes of the step of a consumer is a matter of its subscription. -/
theorem noting_eq_of_consume (found₁ : hub₁.subscriptions[id₁]? = some s)
    (found₂ : hub₂.subscriptions[id₂]? = some s) (h₁ : hub₁.consume id₁ = some next₁)
    (h₂ : hub₂.consume id₂ = some next₂) (sight : Sight σ) :
    sight.noting id₁ next₁.event next₁.hub.subscriptions[id₁]?
      = sight.noting id₂ next₂.event next₂.hub.subscriptions[id₂]? := by
  have same := update_eq_of_found found₁ found₂
  rw [consume, found₁] at h₁
  rw [consume, found₂] at h₂
  cases progress : s.progress with
  | starting =>
    simp only [progress, Option.some.injEq] at h₁ h₂
    subst h₁ h₂
    exact sight.noting_eq (same _) rfl rfl fun _ _ => rfl
  | receiving =>
    cases queue : s.queue with
    | cons line rest =>
      simp only [progress, queue, Option.some.injEq] at h₁ h₂
      subst h₁ h₂
      exact sight.noting_eq (same _) rfl rfl fun _ _ => rfl
    | nil =>
      simp only [progress, queue, Option.ite_none_left_eq_some, Option.some.injEq] at h₁ h₂
      obtain ⟨-, rfl⟩ := h₁
      obtain ⟨-, rfl⟩ := h₂
      exact sight.noting_eq (same _) rfl rfl fun _ _ => rfl
  | writing line =>
    simp only [progress, writeLine] at h₁ h₂
    cases outcome : LineSink.write s.sink line with
    | pending => simp [outcome] at h₁
    | _ =>
      simp only [outcome, Option.some.injEq] at h₁ h₂
      subst h₁ h₂
      exact sight.noting_eq (same _) rfl (by simp [HubEvent.linesGiven]) fun _ _ => rfl
  | closing how =>
    simp only [progress, closeSink] at h₁ h₂
    cases outcome : LineSink.close s.sink with
    | pending => simp [outcome] at h₁
    | _ =>
      simp only [outcome, Option.some.injEq] at h₁ h₂
      subst h₁ h₂
      exact sight.noting_eq (same _) rfl rfl fun _ _ => rfl
  | stopping how | releasing how =>
    simp only [progress, Option.some.injEq] at h₁ h₂
    subst h₁ h₂
    exact sight.noting_eq (same _) rfl rfl fun _ _ => rfl
  | returned how | crashed => simp [progress] at h₁

end Decided

end Hub

end Restconf
