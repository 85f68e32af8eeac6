import Restconf.Proofs.Hub.Channel
import Restconf.Proofs.Hub.Isolation
import Restconf.Proofs.Hub.Pool
import Restconf.Proofs.Hub.Queue

/-!
# How subscriptions end

A consumer stops because a write to its sink fails, or because its queue has come to an end. Where
no write fails, only the second is left, and then nothing is lost: the queue ends when it is empty
and nobody holds it, and that stays so.

## Why nothing comes later

Behind the end of its queue a consumer has still three steps to take, and the queue is there until
the last of them. A line that it took meanwhile would never be written. But whoever could bring one
would hold the queue: the registry, from which publishers learn of it, or a publisher that has still
to visit it. A subscription does not come back into the registry, and only who is registered becomes
a target. So a queue that nobody holds is never held again.

## Main definitions

* `Hub.Unfailed` — no write of a sink has failed
* `Hub.ClosedAfterLast` — a sink was closed once, and given nothing afterwards

## Main results

* `Hub.Move.isHeld_eq_false` — a queue that nobody holds is not held again
* `Hub.Run.mem_registry_of_unfailed` — only a shutdown removes a subscription whose sink works
* `Hub.Run.settled` — behind the end of a queue, all that it has taken has been written
* `Hub.Run.closedAfterLast` — a consumer closes its sink once, behind its last line
-/

namespace Restconf

/-- How the call that closes the sink has come to its end, if it has. -/
def Progress.closing? (id : SubscriptionId) : Progress → Option HubEvent
  | releasing _ | returned _ => some (.closed id)
  | crashed (some how) => some (.crashed id (some how))
  | starting | receiving | writing _ | stopping _ | closing _ | crashed none => none

namespace Hub

open Ledger

variable {σ : Type} [LineSink σ] {hub next start : Hub σ} {event : Option HubEvent}
  {id : SubscriptionId} {s after : Subscription σ} {config : HubConfig}
  {events prior later : List HubEvent}

/-! ### Sinks that work -/

/-- No write of the sink of a subscription has failed. -/
def Unfailed (id : SubscriptionId) (events : List HubEvent) : Prop :=
  ∀ e ∈ events, e.failsWrite id = false

theorem unfailed_append :
    Unfailed id (events ++ later) ↔ Unfailed id events ∧ Unfailed id later :=
  List.forall_mem_append

/-- **Where no write has failed, the consumer of a registered subscription has not stopped.** -/
theorem Run.isDelivering_of_isRegistered (h : Run (ofConfig config) events hub)
    (found : hub.subscriptions[id]? = some s) (unfailed : Unfailed id events)
    (registered : s.isRegistered = true) : s.progress.isDelivering = true := by
  refine h.subscription_induction id (fun events s => Unfailed id events →
    s.isRegistered = true → s.progress.isDelivering = true) (fun _ _ _ => rfl) ?_ found unfailed
    registered
  intro hub events s event after _ found before move unfailed registered
  obtain ⟨earlier, last⟩ := unfailed_append.mp unfailed
  cases move with
  | start | take | write => rfl
  | forget | leave | shutdown => exact absurd registered Bool.false_ne_true
  | finishQueue _ _ released =>
    have held := isHeld_iff.mpr (Or.inl ⟨s, found, registered⟩)
    exact absurd (released.symm.trans held) Bool.false_ne_true
  | refuse | crash =>
    have failed := last _ List.mem_cons_self
    simp [HubEvent.failsWrite] at failed
  | close progress | crashClosing progress | giveBack progress =>
    have delivering := before earlier registered
    rw [progress] at delivering
    cases delivering
  | _ => exact before earlier registered

/-- **Only a shutdown removes a subscription whose sink works.** -/
theorem Run.mem_registry_of_unfailed (h : Run (ofConfig config) prior start)
    (rest : Run start later hub) (registered : id ∈ start.registry)
    (unfailed : Unfailed id (prior ++ later)) (stays : .shutdown ∉ later) : id ∈ hub.registry := by
  have step {hub : Hub σ} {events : List HubEvent} {s : Subscription σ} {event : Option HubEvent}
      {after : Subscription σ} (run : Run start events hub)
      (found : hub.subscriptions[id]? = some s)
      (before : Unfailed id (prior ++ events) → .shutdown ∉ events → s.isRegistered = true)
      (move : hub.MoveAt id s event after)
      (unfailed : Unfailed id (prior ++ (events ++ event.toList)))
      (stays : .shutdown ∉ events ++ event.toList) : after.isRegistered = true := by
    rw [← List.append_assoc] at unfailed
    have unfailed := (unfailed_append.mp unfailed).1
    have registered := before unfailed fun hmem => stays (List.mem_append_left _ hmem)
    have delivering := (h.trans run).isDelivering_of_isRegistered found unfailed registered
    cases move with
    | forget _ gone =>
      have alive := Progress.isOver_of_isDelivering delivering
      exact absurd (alive.symm.trans gone) Bool.false_ne_true
    | leave progress =>
      rw [progress] at delivering
      cases delivering
    | shutdown => exact absurd (List.mem_append_right _ List.mem_cons_self) stays
    | _ => exact registered
  obtain ⟨t, ht, hregistered⟩ := mem_registry.mp registered
  obtain ⟨after, hafter, kept⟩ := rest.induction_at
    (fun events s => Unfailed id (prior ++ events) → .shutdown ∉ events → s.isRegistered = true)
    (fun _ _ => hregistered) step ht
  exact mem_registry.mpr ⟨after, hafter, kept unfailed stays⟩

/-- Where no write has failed, a consumer ends as closed, if it ends. -/
theorem Run.isGraceful_of_unfailed (h : Run (ofConfig config) events hub)
    (found : hub.subscriptions[id]? = some s) (unfailed : Unfailed id events) :
    s.progress.isGraceful = true := by
  refine h.subscription_induction id (fun events s => Unfailed id events →
    s.progress.isGraceful = true) (fun _ _ => rfl) ?_ found unfailed
  intro hub events s event after _ _ before move unfailed
  obtain ⟨earlier, last⟩ := unfailed_append.mp unfailed
  cases move with
  | start | take | finishQueue | write => rfl
  | refuse | crash =>
    have failed := last _ List.mem_cons_self
    simp [HubEvent.failsWrite] at failed
  | leave progress | close progress | crashClosing progress | giveBack progress =>
    have graceful := before earlier
    rw [progress] at graceful
    exact graceful
  | _ => exact before earlier

/-! ### Queues that nobody holds -/

/-- **A queue that nobody holds is not held again.** -/
theorem Move.isHeld_eq_false (h : Move hub event next) (singular : hub.IsSingular)
    (found : hub.subscriptions[id]? = some s) (free : hub.isHeld id = false) :
    next.isHeld id = false := by
  have unregistered : id ∉ hub.registry := fun hmem => by
    have held := isHeld_iff.mpr (Or.inl (mem_registry.mp hmem))
    exact absurd (free.symm.trans held) Bool.false_ne_true
  have unawaited (q : PublisherId) : hub.awaits q id = false := by
    cases hq : hub.awaits q id with
    | false => rfl
    | true => exact absurd (free.symm.trans (isHeld_iff.mpr (Or.inr ⟨q, hq⟩))) Bool.false_ne_true
  rw [← Bool.not_eq_true, isHeld_iff]
  rintro (⟨after, hafter, registered⟩ | ⟨q, hq⟩)
  · obtain ⟨other, hother, move⟩ := h.moveAt found
    obtain rfl := Option.some.inj (hother.symm.trans hafter)
    exact unregistered (mem_registry.mpr ⟨s, found, move.isRegistered registered⟩)
  · have hnone : hub.awaited id q = none := by
      rw [awaited, unawaited, if_neg Bool.false_ne_true]
    rw [← isSome_awaited, h.awaited_eq singular id q, hnone] at hq
    cases h with
    | begin line found idle order =>
      simp only [Option.elim_some, HubEvent.lineAwaited] at hq
      split at hq
      · rw [if_neg fun hmem => unregistered (order.mem_iff.mp hmem)] at hq
        cases hq
      · cases hq
    | _ => simp [HubEvent.lineAwaited] at hq

/-- Nobody brings a line to a queue that nobody holds, and a consumer that has stopped writes
none. -/
theorem MoveAt.lines_eq_nil (h : hub.MoveAt id s event after) (free : hub.isHeld id = false)
    (stopped : s.progress.isDelivering = false) :
    event.toList.flatMap (·.linesTaken id) = [] ∧ event.toList.flatMap (·.linesGiven id) = [] := by
  cases h with
  | elsewhere other =>
    cases event with
    | none => exact ⟨rfl, rfl⟩
    | some e => cases e <;> simp_all [HubEvent.linesTaken, HubEvent.linesGiven, HubEvent.concerns]
  | accept isAt =>
    have held := isHeld_iff.mpr (Or.inr ⟨_, isAt.awaits_target⟩)
    exact absurd (free.symm.trans held) Bool.false_ne_true
  | write progress =>
    rw [progress] at stopped
    cases stopped
  | _ => exact ⟨rfl, rfl⟩

/-- **Where no write has failed and the consumer has stopped, nobody holds the queue, and all that
it has taken has been written.** -/
theorem Run.settled (h : Run (ofConfig config) events hub)
    (found : hub.subscriptions[id]? = some s) (unfailed : Unfailed id events)
    (stopped : s.progress.isDelivering = false) :
    hub.isHeld id = false ∧ (ofEvents events).linesTo id = (ofEvents events).writtenTo id := by
  induction h generalizing s with
  | refl => cases found
  | @tail b c events event h last ih =>
    obtain ⟨earlier, hlast⟩ := unfailed_append.mp unfailed
    cases hb : b.subscriptions[id]? with
    | none =>
      obtain ⟨-, -, stream, sink, rfl⟩ := last.move.made hb found
      cases stopped
    | some before =>
      obtain ⟨after, hafter, move⟩ := last.move.moveAt hb
      obtain rfl := Option.some.inj (hafter.symm.trans found)
      rw [ofEvents_append, linesTo_after, writtenTo_after]
      cases hdelivering : before.progress.isDelivering with
      | false =>
        obtain ⟨free, lines⟩ := ih hb earlier hdelivering
        obtain ⟨taken, given⟩ := move.lines_eq_nil free hdelivering
        rw [taken, given, lines]
        exact ⟨last.move.isHeld_eq_false h.isSingular hb free, rfl⟩
      | true =>
        -- the consumer stops here, and the end of its queue is the only reason left
        cases move with
        | finishQueue progress queue released =>
          have balanced := h.balanced id
          rw [hb] at balanced
          have lines := balanced.2 hdelivering
          rw [progress, queue, Progress.inHand_receiving, List.append_nil, List.append_nil] at lines
          rw [lines]
          exact ⟨last.move.isHeld_eq_false h.isSingular hb released, rfl⟩
        | refuse | crash =>
          have failed := hlast _ List.mem_cons_self
          simp [HubEvent.failsWrite] at failed
        | start | take | write => cases stopped
        | leave progress | close progress | crashClosing progress | giveBack progress =>
          rw [progress] at hdelivering
          cases hdelivering
        | _ => exact absurd (stopped.symm.trans hdelivering) Bool.false_ne_true

/-! ### Closing -/

/-- The call that closes the sink of a subscription came to its end once, as an event shows, and
behind that the consumer has only returned. -/
def ClosedAfterLast (id : SubscriptionId) (call : HubEvent) (events : List HubEvent) : Prop :=
  ∃ before behind, events = before ++ call :: behind ∧ (∀ e ∈ before, e.endsClosing id = false)
    ∧ ∀ e ∈ behind, e.consumer? = some id → ∃ how, e = .returned id how

theorem ClosedAfterLast.append {call : HubEvent} (h : ClosedAfterLast id call events)
    (last : ∀ e ∈ event, e.consumer? = some id → ∃ how, e = .returned id how) :
    ClosedAfterLast id call (events ++ event.toList) := by
  obtain ⟨before, behind, rfl, fresh, returned⟩ := h
  refine ⟨before, behind ++ event.toList, by simp, fresh, fun e he => ?_⟩
  rcases List.mem_append.mp he with he | he
  · exact returned e he
  · exact last e (Option.mem_toList.mp he)

/-- A consumer that has closed its sink has done so once, behind its last line, and one that has not
has not done so before. -/
theorem Run.closedAfterLast (h : Run (ofConfig config) events hub)
    (found : hub.subscriptions[id]? = some s) :
    (∀ call, s.progress.closing? id = some call → ClosedAfterLast id call events)
      ∧ (s.progress.closing? id = none → ∀ e ∈ events, e.endsClosing id = false) := by
  refine h.subscription_induction id (fun events s =>
    (∀ call, s.progress.closing? id = some call → ClosedAfterLast id call events)
      ∧ (s.progress.closing? id = none → ∀ e ∈ events, e.endsClosing id = false)) ?_ ?_ found
  · intro events stream sink fresh
    refine ⟨fun call h => (by cases h), fun _ e he => Bool.eq_false_iff.mpr fun closes => ?_⟩
    have own := e.consumer?_of_endsClosing closes
    rcases List.mem_append.mp he with he | he
    · exact fresh e he own
    · obtain rfl := List.mem_singleton.mp he
      cases own
  intro hub events s event after _ _ before move
  obtain ⟨closed, unclosed⟩ := before
  -- a step that does not close the sink, behind which it is closed if it was before
  have kept (same : after.progress.closing? id = s.progress.closing? id)
      (last : ∀ e ∈ event, e.consumer? = some id → s.progress.closing? id = none
        ∧ e.endsClosing id = false ∨ ∃ how, e = .returned id how) :
      (∀ call, after.progress.closing? id = some call →
          ClosedAfterLast id call (events ++ event.toList))
        ∧ (after.progress.closing? id = none →
          ∀ e ∈ events ++ event.toList, e.endsClosing id = false) := by
    rw [same]
    refine ⟨fun call h => (closed call h).append fun e he own => ?_, fun h e he => ?_⟩
    · rcases last e he own with ⟨hopen, -⟩ | hreturned
      · cases hopen.symm.trans h
      · exact hreturned
    · rcases List.mem_append.mp he with he | he
      · exact unclosed h e he
      · refine Bool.eq_false_iff.mpr fun closes => ?_
        rcases last e (Option.mem_toList.mp he) (e.consumer?_of_endsClosing closes) with
          ⟨-, hopen⟩ | ⟨how, rfl⟩
        · exact absurd (hopen.symm.trans closes) Bool.false_ne_true
        · cases closes
  have closes {call : HubEvent} (hopen : s.progress.closing? id = none)
      (hclosed : after.progress.closing? id = some call) :
      (∀ call', after.progress.closing? id = some call' →
          ClosedAfterLast id call' (events ++ [call]))
        ∧ (after.progress.closing? id = none →
          ∀ e ∈ events ++ [call], e.endsClosing id = false) := by
    refine ⟨fun call' h => ?_, fun h => by cases h.symm.trans hclosed⟩
    obtain rfl := Option.some.inj (hclosed.symm.trans h)
    exact ⟨events, [], rfl, unclosed hopen, fun e he => absurd he List.not_mem_nil⟩
  cases move with
  | elsewhere other =>
    refine kept rfl fun e he own => ?_
    obtain rfl := he
    have hconcerns := e.concerns_of_consumer? own
    simp [hconcerns] at other
  | close progress | crashClosing progress =>
    exact closes (by rw [progress]; rfl) rfl
  | giveBack progress =>
    exact kept (by rw [progress]; rfl) fun e he _ => Or.inr ⟨_, Option.some.inj he.symm⟩
  | start progress | take progress | finishQueue progress | write progress | refuse progress
    | crash progress | leave progress =>
    refine kept (by rw [progress]; rfl) fun e he _ => Or.inl ⟨by rw [progress]; rfl, ?_⟩
    obtain rfl := Option.some.inj he
    rfl
  | accept | skip | forget | enqueue | shutdown =>
    refine kept rfl fun e he own => ?_
    obtain rfl := Option.some.inj he
    cases own
  | touch => exact kept rfl fun e he => absurd he (by simp)

end Hub

end Restconf
