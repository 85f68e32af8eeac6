import Restconf.Proofs.Hub.Ledger

/-!
# Queues and sinks

What a queue has taken is what its sink has been given, then the line in the hand of the consumer,
then what the queue still holds.

## One subscription at a time

A move is about one subscription, or about none. `Handling` says what it does there: the queue takes
a line, the consumer takes one off, the sink takes one, or nothing of this kind, in which case the
subscription keeps its lines as long as its consumer delivers. Everything else about the moves does
not matter here, and is dealt with once, in `Move.handling`.

## Stopped consumers

A consumer that stops loses the line in its hand and, at its end, the queue. So what is claimed of
it is less: what its sink has been given is a beginning of what the queue has taken.

## Main definitions

* `Progress.isDelivering`, `Progress.inHand` — a consumer that has not stopped, and its line
* `Hub.Balanced` — the account of one subscription

## Main results

* `Hub.Run.balanced` — the account holds at every moment of a run
-/

namespace Restconf

/-- The consumer has not stopped. -/
def Progress.isDelivering : Progress → Bool
  | starting | receiving | writing _ => true
  | stopping _ | closing _ | releasing _ | returned _ | crashed _ => false

theorem Progress.isOver_of_isDelivering {progress : Progress} (h : progress.isDelivering = true) :
    progress.isOver = false := by
  cases progress with
  | returned | crashed => cases h
  | _ => rfl

/-- The line that the consumer is writing. -/
def Progress.inHand : Progress → List String
  | writing line => [line]
  | _ => []

theorem Progress.inHand_writing (line : String) : (writing line).inHand = [line] := rfl

theorem Progress.inHand_receiving : receiving.inHand = [] := rfl

theorem Progress.length_inHand_le (progress : Progress) : progress.inHand.length ≤ 1 := by
  cases progress with
  | writing => exact Nat.le_refl 1
  | _ => exact Nat.zero_le 1

namespace Hub

open Ledger

variable {σ : Type}

/-! ### What a move does to a subscription -/

/-- An event has nothing to do with the lines of a subscription. -/
def IsQuietAt (i : SubscriptionId) (event : Option HubEvent) : Prop :=
  ∀ ledger : Ledger, (ledger.after event).linesTo i = ledger.linesTo i
    ∧ (ledger.after event).writtenTo i = ledger.writtenTo i

theorem isQuietAt_accepted {i target : SubscriptionId} (h : target ≠ i) (p : PublisherId)
    (line : String) : IsQuietAt i (some (.accepted p target line)) := by
  intro ledger
  rw [linesTo_after_accepted, if_neg h]
  exact ⟨rfl, rfl⟩

theorem isQuietAt_wrote {i target : SubscriptionId} (h : target ≠ i) (line : String) :
    IsQuietAt i (some (.wrote target line)) := by
  intro ledger
  rw [writtenTo_after_wrote, if_neg h]
  exact ⟨rfl, rfl⟩

/-- What a move does to a subscription, seen from its lines. -/
inductive Handling (i : SubscriptionId) :
    Option (Subscription σ) → Option HubEvent → Option (Subscription σ) → Prop where
  /-- There is no such subscription. -/
  | absent {event : Option HubEvent} (quiet : IsQuietAt i event) : Handling i none event none
  /-- It is made. -/
  | made {event : Option HubEvent} {s : Subscription σ} (quiet : IsQuietAt i event)
    (progress : s.progress = .starting) (queue : s.queue = []) : Handling i none event (some s)
  /-- Its queue takes a line. -/
  | accepted {s after : Subscription σ} (p : PublisherId) (line : String)
    (progress : after.progress = s.progress) (queue : after.queue = s.queue ++ [line]) :
    Handling i (some s) (some (.accepted p i line)) (some after)
  /-- Its consumer takes a line off the queue. -/
  | taken {s after : Subscription σ} {line : String} (progress : s.progress = .receiving)
    (queue : s.queue = line :: after.queue) (writing : after.progress = .writing line) :
    Handling i (some s) (some (.took i line)) (some after)
  /-- Its sink takes the line. -/
  | written {s after : Subscription σ} {line : String} (progress : s.progress = .writing line)
    (receiving : after.progress = .receiving) (queue : after.queue = s.queue) :
    Handling i (some s) (some (.wrote i line)) (some after)
  /-- Its lines stay, or its consumer has stopped. -/
  | quiet {event : Option HubEvent} {s after : Subscription σ} (quiet : IsQuietAt i event)
    (keeps : after.progress.isDelivering = true → s.progress.isDelivering = true
      ∧ after.progress.inHand = s.progress.inHand ∧ after.queue = s.queue) :
    Handling i (some s) event (some after)

/-- Nothing happens to a subscription. -/
theorem Handling.same {i : SubscriptionId} {event : Option HubEvent} (quiet : IsQuietAt i event)
    (before : Option (Subscription σ)) : Handling i before event before := by
  cases before with
  | none => exact .absent quiet
  | some s => exact .quiet quiet fun h => ⟨h, rfl, rfl⟩

/-- A change of one subscription is a change at that one. -/
theorem Handling.of_update {hub : Hub σ} {id : SubscriptionId} {s : Subscription σ}
    {event : Option HubEvent} {f : Subscription σ → Subscription σ}
    (found : hub.subscriptions[id]? = some s) (here : Handling id (some s) event (some (f s)))
    (elsewhere : ∀ i, id ≠ i → IsQuietAt i event) (i : SubscriptionId) :
    Handling i hub.subscriptions[i]? event (hub.update id f).subscriptions[i]? := by
  rw [getElem?_update]
  by_cases h : id = i
  · subst h
    rw [found, Option.map_some, if_pos rfl]
    exact here
  · simp only [if_neg h, Option.map_id']
    exact .same (elsewhere i h) _

/-- A consumer that stops has its lines no longer on account. -/
theorem Handling.of_stopped {i : SubscriptionId} {event : Option HubEvent}
    {s after : Subscription σ} (quiet : IsQuietAt i event)
    (stopped : after.progress.isDelivering = false) : Handling i (some s) event (some after) :=
  .quiet quiet fun h => absurd (stopped.symm.trans h) Bool.false_ne_true

/-! ### The account -/

/-- The account of a subscription. What its sink has been given is a beginning of what its queue has
taken, and as long as its consumer has not stopped, the rest is the line in its hand and the
queue. -/
def Balanced (ledger : Ledger) (i : SubscriptionId) : Option (Subscription σ) → Prop
  | none => ledger.linesTo i = [] ∧ ledger.writtenTo i = []
  | some s => ledger.writtenTo i <+: ledger.linesTo i
      ∧ (s.progress.isDelivering = true →
        ledger.linesTo i = ledger.writtenTo i ++ s.progress.inHand ++ s.queue)

theorem Balanced.prefix_linesTo {ledger : Ledger} {i : SubscriptionId}
    {subscription : Option (Subscription σ)} (h : Balanced ledger i subscription) :
    ledger.writtenTo i <+: ledger.linesTo i := by
  cases subscription with
  | none =>
    rw [h.2]
    exact List.nil_prefix
  | some s => exact h.1

/-- One move keeps the account. -/
theorem Handling.balanced {i : SubscriptionId} {ledger : Ledger}
    {before after : Option (Subscription σ)} (h : Handling i before event after)
    (balanced : Balanced ledger i before) : Balanced (ledger.after event) i after := by
  cases h with
  | absent quiet =>
    rw [Balanced, (quiet ledger).1, (quiet ledger).2]
    exact balanced
  | @made _ s quiet progress queue =>
    rw [Balanced, (quiet ledger).1, (quiet ledger).2, balanced.1, balanced.2, progress, queue]
    exact ⟨List.nil_prefix, fun _ => rfl⟩
  | accepted p line progress queue =>
    have hwritten : (ledger.after (some (.accepted p i line))).writtenTo i = ledger.writtenTo i :=
      rfl
    rw [Balanced, linesTo_after_accepted, if_pos rfl, hwritten, progress, queue]
    refine ⟨balanced.1.trans (List.prefix_append _ _), fun h => ?_⟩
    rw [balanced.2 h, List.append_assoc]
  | @taken s after line progress queue writing =>
    have hlines := balanced.2 (by rw [progress]; rfl)
    refine ⟨balanced.1, fun _ => ?_⟩
    rw [progress, queue, Progress.inHand_receiving, List.append_nil] at hlines
    rw [writing, Progress.inHand_writing, List.append_assoc, List.singleton_append]
    exact hlines
  | @written s after line progress receiving queue =>
    have hlines := balanced.2 (by rw [progress]; rfl)
    rw [progress, Progress.inHand_writing] at hlines
    have hsame : (ledger.after (some (.wrote i line))).linesTo i = ledger.linesTo i := rfl
    rw [Balanced, hsame, writtenTo_after_wrote, if_pos rfl, hlines, receiving, queue,
      Progress.inHand_receiving, List.append_nil]
    exact ⟨List.prefix_append _ _, fun _ => rfl⟩
  | quiet quiet keeps =>
    rw [Balanced, (quiet ledger).1, (quiet ledger).2]
    refine ⟨balanced.1, fun h => ?_⟩
    obtain ⟨hdelivering, hhand, hqueue⟩ := keeps h
    rw [hhand, hqueue]
    exact balanced.2 hdelivering

/-! ### Moves and runs -/

variable [LineSink σ] {hub next : Hub σ} {event : Option HubEvent}

/-- **What a move does to a subscription.** -/
theorem Move.handling (h : Move hub event next) (i : SubscriptionId) :
    Handling i hub.subscriptions[i]? event next.subscriptions[i]? := by
  have hquiet {event : Option HubEvent}
      (h : ∀ ledger : Ledger, (ledger.after event).deliveries = ledger.deliveries
        ∧ (ledger.after event).written = ledger.written) (i : SubscriptionId) :
      IsQuietAt i event := by
    intro ledger
    rw [linesTo, deliveriesTo, writtenTo, (h ledger).1, (h ledger).2]
    exact ⟨rfl, rfl⟩
  cases h with
  | subscribe stream sink idle fits =>
    by_cases hlt : i < hub.subscriptions.length
    · rw [List.getElem?_append_left hlt]
      exact .same (hquiet (fun _ => ⟨rfl, rfl⟩) i) _
    · rw [List.getElem?_append_right (Nat.le_of_not_lt hlt),
        List.getElem?_eq_none (Nat.le_of_not_lt hlt)]
      cases i - hub.subscriptions.length with
      | zero => exact .made (hquiet (fun _ => ⟨rfl, rfl⟩) i) rfl rfl
      | succ n => exact .absent (hquiet (fun _ => ⟨rfl, rfl⟩) i)
  | addPublisher => exact .same (hquiet (fun _ => ⟨rfl, rfl⟩) i) _
  | begin => exact .same (hquiet (fun _ => ⟨rfl, rfl⟩) i) _
  | accept _ found =>
    exact .of_update found (.accepted _ _ rfl rfl) (fun i h => isQuietAt_accepted h _ _) i
  | skip => exact .same (hquiet (fun _ => ⟨rfl, rfl⟩) i) _
  | skipUnknown => exact .same (hquiet (fun _ => ⟨rfl, rfl⟩) i) _
  | forget _ found =>
    refine .of_update found (.quiet ?_ fun h => ⟨h, rfl, rfl⟩) (fun i _ => ?_) i
    all_goals exact hquiet (fun _ => ⟨rfl, rfl⟩) _
  | enqueue _ found =>
    refine .of_update found (.quiet ?_ fun h => ⟨h, rfl, rfl⟩) (fun i _ => ?_) i
    all_goals exact hquiet (fun _ => ⟨rfl, rfl⟩) _
  | finish => exact .same (hquiet (fun _ => ⟨rfl, rfl⟩) i) _
  | start found progress =>
    refine .of_update found (.quiet ?_ fun _ => ?_) (fun i _ => ?_) i
    · exact hquiet (fun _ => ⟨rfl, rfl⟩) _
    · rw [progress]
      exact ⟨rfl, rfl, rfl⟩
    · exact hquiet (fun _ => ⟨rfl, rfl⟩) _
  | take found progress queue =>
    refine .of_update found (.taken progress queue rfl) (fun i _ => ?_) i
    exact hquiet (fun _ => ⟨rfl, rfl⟩) _
  | write found progress =>
    exact .of_update found (.written progress rfl rfl) (fun i h => isQuietAt_wrote h _) i
  | touch found =>
    refine .of_update found (.quiet ?_ fun h => ⟨h, rfl, rfl⟩) (fun i _ => ?_) i
    all_goals exact hquiet (fun _ => ⟨rfl, rfl⟩) _
  | shutdown =>
    rw [List.getElem?_map]
    cases hub.subscriptions[i]? with
    | none => exact .absent (hquiet (fun _ => ⟨rfl, rfl⟩) i)
    | some s => exact .quiet (hquiet (fun _ => ⟨rfl, rfl⟩) i) fun h => ⟨h, rfl, rfl⟩
  | finishQueue found | refuse found | crash found | leave found | close found
    | crashClosing found | giveBack found =>
    refine .of_update found (.of_stopped ?_ rfl) (fun i _ => ?_) i
    all_goals exact hquiet (fun _ => ⟨rfl, rfl⟩) _

/-- **The account holds at every moment of a run.** -/
theorem Run.balanced {config : HubConfig} {events : List HubEvent}
    (h : Run (ofConfig config) events hub) (i : SubscriptionId) :
    Balanced (ofEvents events) i hub.subscriptions[i]? := by
  refine h.ledger_induction (fun hub ledger => Balanced ledger i hub.subscriptions[i]?) ?_
    fun _ balanced move => (move.handling i).balanced balanced
  rw [ofConfig, List.getElem?_nil]
  exact ⟨rfl, rfl⟩

end Hub

end Restconf
