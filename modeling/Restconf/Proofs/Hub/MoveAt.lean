import Restconf.Proofs.Hub.Move

/-!
# A move at one subscription

A move changes at most one subscription, except that a shutdown takes all of them out of the
registry. So whatever is kept by every subscription on its own (the course of its consumer, its
registration, its sink) can be proved with one subscription in view. `Hub.MoveAt` is what a move
does there: the subscription behind the move, and under which conditions.

## What stands elsewhere

Conditions that lie outside of the subscription are about publishers, `Hub.IsAt`, and whether
somebody still holds the queue, `Hub.isHeld`. Nothing about other subscriptions enters. That is the
reason why subscribers are isolated from each other, and here it can be read off the definition.

## Main definitions

* `HubEvent.concerns` — an event is about a subscription
* `HubEvent.consumer?` — the consumer whose step an event shows
* `HubEvent.failsWrite`, `HubEvent.endsClosing` — what an event shows of a sink
* `Hub.MoveAt` — what a move does to a subscription

## Main results

* `Hub.Move.moveAt` — every move does one of these things at every subscription
* `Hub.Run.subscription_induction` — what holds of a subscription beside the events of a run
* `Hub.Run.induction_at` — the same from any moment on
-/

namespace Restconf

namespace HubEvent

/-- An event is about a subscription, or about all of them. -/
def concerns (id : SubscriptionId) : HubEvent → Bool
  | subscribed i | accepted _ i _ | passed _ i | waits _ i | started i | took i _ | ended i
  | wrote i _ | refused i _ | crashed i _ | left i | closed i | returned i _ => i = id
  | began .. | completed .. => false
  | shutdown => true

/-- The consumer whose step an event shows. -/
def consumer? : HubEvent → Option SubscriptionId
  | started i | took i _ | ended i | wrote i _ | refused i _ | crashed i _ | left i | closed i
  | returned i _ => some i
  | subscribed _ | began .. | accepted .. | passed .. | waits .. | completed .. | shutdown => none

/-- A write has failed: the sink has refused the line, or it has brought its consumer down. -/
def failsWrite (id : SubscriptionId) : HubEvent → Bool
  | refused i _ | crashed i none => i = id
  | _ => false

/-- The call that closes a sink has come to its end: the sink has been closed, or it has brought its
consumer down. -/
def endsClosing (id : SubscriptionId) : HubEvent → Bool
  | closed i | crashed i (some _) => i = id
  | _ => false

theorem consumer?_of_endsClosing {id : SubscriptionId} {event : HubEvent}
    (h : event.endsClosing id = true) : event.consumer? = some id := by
  unfold endsClosing at h
  split at h <;> simp_all [consumer?]

/-- What a consumer shows is about its subscription. -/
theorem concerns_eq_of_consumer? {id : SubscriptionId} {event : HubEvent}
    (h : event.consumer? = some id) (i : SubscriptionId) :
    event.concerns i = decide (id = i) := by
  cases event <;> simp_all [consumer?, concerns]

theorem concerns_of_consumer? {id : SubscriptionId} {event : HubEvent}
    (h : event.consumer? = some id) : event.concerns id = true := by
  rw [concerns_eq_of_consumer? h, decide_eq_true rfl]

end HubEvent

namespace Hub

variable {σ : Type}

/-- What a move does to a subscription: what it needs there, what it shows, and the subscription
behind it. -/
inductive MoveAt [LineSink σ] (hub : Hub σ) (id : SubscriptionId) (s : Subscription σ) :
    Option HubEvent → Subscription σ → Prop where
  /-- The move is about something else. -/
  | elsewhere {event : Option HubEvent} (other : event.any (·.concerns id) = false) :
    MoveAt hub id s event s
  /-- The queue takes a line. -/
  | accept {p : PublisherId} {publication : Publication} (isAt : hub.IsAt p publication id)
    (alive : s.progress.isOver = false) (room : hub.CanTake p s) :
    MoveAt hub id s (some (.accepted p id publication.line))
      { s with
        queue := s.queue ++ [publication.line]
        waiters := s.waiters.filter fun w => w.publisher ≠ p }
  /-- A publisher leaves the full queue out. -/
  | skip {p : PublisherId} {publication : Publication} (isAt : hub.IsAt p publication id)
    (alive : s.progress.isOver = false) (policy : hub.config.overflow = .drop)
    (full : hub.hasRoom s = false) : MoveAt hub id s (some (.passed p id)) s
  /-- A publisher finds the queue gone. -/
  | forget {p : PublisherId} {publication : Publication} (isAt : hub.IsAt p publication id)
    (gone : s.progress.isOver = true) :
    MoveAt hub id s (some (.passed p id)) { s with isRegistered := false }
  /-- A publisher gets in line. -/
  | enqueue {p : PublisherId} {publication : Publication} (isAt : hub.IsAt p publication id)
    (alive : s.progress.isOver = false) (policy : hub.config.overflow = .block)
    (first : s.waiters.find? (·.publisher = p) = none) (full : hub.hasRoom s = false) :
    MoveAt hub id s (some (.waits p id)) { s with waiters := s.waiters ++ [{ publisher := p }] }
  | start (progress : s.progress = .starting) :
    MoveAt hub id s (some (.started id)) { s with phase := .streaming, progress := .receiving }
  | take {line : String} {rest : List String} (progress : s.progress = .receiving)
    (queue : s.queue = line :: rest) :
    MoveAt hub id s (some (.took id line))
      { s with queue := rest, waiters := (grantFirst s.waiters).1, progress := .writing line }
  | finishQueue (progress : s.progress = .receiving) (queue : s.queue = [])
    (released : hub.isHeld id = false) :
    MoveAt hub id s (some (.ended id))
      { s with phase := .ended .closed, progress := .stopping .closed }
  | write {line : String} {sink : σ} (progress : s.progress = .writing line)
    (outcome : LineSink.write s.sink line = .written sink) :
    MoveAt hub id s (some (.wrote id line)) { s with sink, progress := .receiving }
  | refuse {line : String} {fault : Fault} {how : Ending} (progress : s.progress = .writing line)
    (outcome : LineSink.write s.sink line = .refused fault)
    (reason : how = if fault = .sinkClosed then .closed else .failed) :
    MoveAt hub id s (some (.refused id fault))
      { s with phase := .ended how, progress := .stopping how }
  | crash {line : String} (progress : s.progress = .writing line)
    (outcome : LineSink.write s.sink line = .crashed) :
    MoveAt hub id s (some (.crashed id none))
      { s with progress := .crashed none, queue := [], waiters := [] }
  | leave {how : Ending} (progress : s.progress = .stopping how) :
    MoveAt hub id s (some (.left id)) { s with isRegistered := false, progress := .closing how }
  | close {how : Ending} {sink : σ} (progress : s.progress = .closing how)
    (outcome : LineSink.close s.sink = .closed sink) :
    MoveAt hub id s (some (.closed id)) { s with sink, progress := .releasing how }
  | crashClosing {how : Ending} (progress : s.progress = .closing how)
    (outcome : LineSink.close s.sink = .crashed) :
    MoveAt hub id s (some (.crashed id (some how)))
      { s with progress := .crashed (some how), queue := [], waiters := [] }
  | giveBack {how : Ending} (progress : s.progress = .releasing how) :
    MoveAt hub id s (some (.returned id how))
      { s with progress := .returned how, queue := [], waiters := [] }
  /-- Something happens at the far end of the sink. -/
  | touch {sink : σ} (far : LineSink.FarStep s.sink sink) : MoveAt hub id s none { s with sink }
  | shutdown : MoveAt hub id s (some .shutdown) { s with isRegistered := false }

variable [LineSink σ] {hub next : Hub σ} {event : Option HubEvent} {id : SubscriptionId}
  {s : Subscription σ}

/-- A change of one subscription is a move there, and elsewhere it is none. -/
theorem moveAt_of_update {i : SubscriptionId} {before : Subscription σ}
    {f : Subscription σ → Subscription σ} (changed : hub.subscriptions[i]? = some before)
    (here : hub.MoveAt i before event (f before))
    (other : i ≠ id → event.any (·.concerns id) = false)
    (found : hub.subscriptions[id]? = some s) :
    ∃ after, (hub.update i f).subscriptions[id]? = some after ∧ hub.MoveAt id s event after := by
  rw [getElem?_update, found, Option.map_some]
  by_cases h : i = id
  · subst h
    obtain rfl := Option.some.inj (changed.symm.trans found)
    exact ⟨f before, by rw [if_pos rfl], here⟩
  · exact ⟨s, by rw [if_neg h], .elsewhere (other h)⟩

/-- **What a move does to a subscription.** -/
theorem Move.moveAt (h : Move hub event next) (found : hub.subscriptions[id]? = some s) :
    ∃ after, next.subscriptions[id]? = some after ∧ hub.MoveAt id s event after := by
  have unchanged {i : SubscriptionId} (h : i ≠ id) : decide (i = id) = false := decide_eq_false h
  cases h with
  | subscribe stream sink idle fits =>
    have hlt : id < hub.subscriptions.length := (List.getElem?_eq_some_iff.mp found).1
    refine ⟨s, ?_, .elsewhere (unchanged (Nat.ne_of_gt hlt))⟩
    rw [List.getElem?_append_left hlt]
    exact found
  | addPublisher => exact ⟨s, found, .elsewhere rfl⟩
  | begin => exact ⟨s, found, .elsewhere rfl⟩
  | accept isAt changed alive room =>
    exact moveAt_of_update changed (.accept isAt alive room) unchanged found
  | @skip p publication target before isAt changed alive policy full =>
    by_cases htarget : target = id
    · subst htarget
      obtain rfl := Option.some.inj (changed.symm.trans found)
      exact ⟨before, found, .skip isAt alive policy full⟩
    · exact ⟨s, found, .elsewhere (unchanged htarget)⟩
  | @skipUnknown p publication target isAt unknown =>
    refine ⟨s, found, .elsewhere (unchanged ?_)⟩
    rintro rfl
    cases unknown.symm.trans found
  | forget isAt changed gone => exact moveAt_of_update changed (.forget isAt gone) unchanged found
  | enqueue isAt changed alive policy first full =>
    exact moveAt_of_update changed (.enqueue isAt alive policy first full) unchanged found
  | finish => exact ⟨s, found, .elsewhere rfl⟩
  | start changed progress => exact moveAt_of_update changed (.start progress) unchanged found
  | take changed progress queue =>
    exact moveAt_of_update changed (.take progress queue) unchanged found
  | finishQueue changed progress queue released =>
    exact moveAt_of_update changed (.finishQueue progress queue released) unchanged found
  | write changed progress outcome =>
    exact moveAt_of_update changed (.write progress outcome) unchanged found
  | refuse changed progress outcome =>
    exact moveAt_of_update changed (.refuse progress outcome rfl) unchanged found
  | crash changed progress outcome =>
    exact moveAt_of_update changed (.crash progress outcome) unchanged found
  | leave changed progress => exact moveAt_of_update changed (.leave progress) unchanged found
  | close changed progress outcome =>
    exact moveAt_of_update changed (.close progress outcome) unchanged found
  | crashClosing changed progress outcome =>
    exact moveAt_of_update changed (.crashClosing progress outcome) unchanged found
  | giveBack changed progress => exact moveAt_of_update changed (.giveBack progress) unchanged found
  | touch changed far => exact moveAt_of_update changed (.touch far) (fun _ => rfl) found
  | shutdown =>
    refine ⟨_, ?_, .shutdown⟩
    rw [List.getElem?_map, found, Option.map_some]

/-- A subscription that there was not has just been made. -/
theorem Move.made (h : Move hub event next) (absent : hub.subscriptions[id]? = none)
    (found : next.subscriptions[id]? = some s) :
    id = hub.subscriptions.length ∧ event = some (.subscribed id)
      ∧ ∃ stream sink, s = { stream, sink } := by
  cases h with
  | subscribe stream sink idle fits =>
    have hlen : hub.subscriptions.length ≤ id := List.getElem?_eq_none_iff.mp absent
    rw [List.getElem?_append_right hlen, List.getElem?_singleton] at found
    split at found
    · next hzero =>
      have hid : id = hub.subscriptions.length := Nat.le_antisymm (Nat.le_of_sub_eq_zero hzero) hlen
      exact ⟨hid, by rw [hid], stream, sink, (Option.some.inj found).symm⟩
    · cases found
  | shutdown =>
    rw [List.getElem?_map, absent] at found
    cases found
  | addPublisher | begin | skip | skipUnknown | finish => cases absent.symm.trans found
  | _ =>
    have hmodify := (getElem?_update hub _ _ id).symm.trans found
    rw [absent] at hmodify
    cases hmodify

/-- A consumer that there is not shows nothing. -/
theorem Move.consumer?_ne (h : Move hub event next) (absent : hub.subscriptions[id]? = none) :
    ∀ e ∈ event, e.consumer? ≠ some id := by
  have other {i : SubscriptionId} {s : Subscription σ} (found : hub.subscriptions[i]? = some s) :
      some i ≠ some id := by
    intro h
    rw [Option.some.inj h, absent] at found
    cases found
  intro e he
  cases h <;> cases he
  case start found _ | take found _ _ | finishQueue found _ _ _ | write found _ _
    | refuse found _ _ | crash found _ _ | leave found _ | close found _ _
    | crashClosing found _ _ | giveBack found _ =>
    exact other found
  all_goals simp [HubEvent.consumer?]

/-! ### Runs -/

/-- A run that goes on is a run. -/
theorem Run.trans {a b c : Hub σ} {events later : List HubEvent} (h : Run a events b)
    (rest : Run b later c) : Run a (events ++ later) c := by
  induction rest with
  | refl => rwa [List.append_nil]
  | tail _ step ih =>
    rw [← List.append_assoc]
    exact ih.tail step

/-- A run behind a step that shows something. -/
theorem Run.cons {a b c : Hub σ} {e : HubEvent} {later : List HubEvent} (rest : Run b later c)
    (step : Step a (some e) b) : Run a (e :: later) c :=
  ((Run.refl a).tail step).trans rest

/-- What a consumer has shown, it has shown after its subscription was made. -/
theorem Run.consumer?_ne {config : HubConfig} {events : List HubEvent}
    (h : Run (ofConfig config) events hub) (absent : hub.subscriptions[id]? = none) :
    ∀ e ∈ events, e.consumer? ≠ some id := by
  induction h with
  | refl => exact fun e he => absurd he List.not_mem_nil
  | @tail b c events event h step ih =>
    have habsent : b.subscriptions[id]? = none := by
      cases hb : b.subscriptions[id]? with
      | none => rfl
      | some s =>
        obtain ⟨after, hafter, -⟩ := step.move.moveAt hb
        cases absent.symm.trans hafter
    intro e he
    rcases List.mem_append.mp he with he | he
    · exact ih habsent e he
    · exact step.move.consumer?_ne habsent e (Option.mem_toList.mp he)

/-- What holds of a subscription beside the events of a run: it holds when the subscription is made,
before which its consumer has shown nothing, and every move there keeps it. What has been proved of
runs before may be used. -/
theorem Run.subscription_induction {config : HubConfig} (id : SubscriptionId)
    (motive : List HubEvent → Subscription σ → Prop)
    (made : ∀ {events stream sink}, (∀ e ∈ events, e.consumer? ≠ some id) →
      motive (events ++ [.subscribed id]) { stream, sink })
    (step : ∀ {hub events s event after}, Run (ofConfig config) events hub →
      hub.subscriptions[id]? = some s → motive events s → hub.MoveAt id s event after →
      motive (events ++ event.toList) after)
    {events : List HubEvent} (h : Run (ofConfig config) events hub)
    (found : hub.subscriptions[id]? = some s) : motive events s := by
  induction h generalizing s with
  | refl => cases found
  | @tail b c events event h last ih =>
    cases hb : b.subscriptions[id]? with
    | none =>
      obtain ⟨-, rfl, stream, sink, rfl⟩ := last.move.made hb found
      exact made (h.consumer?_ne hb)
    | some before =>
      obtain ⟨after, hafter, hmove⟩ := last.move.moveAt hb
      obtain rfl := Option.some.inj (hafter.symm.trans found)
      exact step h hb (ih hb) hmove

/-- What holds of a subscription at some moment and is kept by every move there, holds of it from
then on. -/
theorem Run.induction_at {start : Hub σ} (motive : List HubEvent → Subscription σ → Prop)
    (init : motive [] s)
    (step : ∀ {hub events s event after}, Run start events hub →
      hub.subscriptions[id]? = some s → motive events s → hub.MoveAt id s event after →
      motive (events ++ event.toList) after)
    {events : List HubEvent} (h : Run start events hub)
    (found : start.subscriptions[id]? = some s) :
    ∃ after, hub.subscriptions[id]? = some after ∧ motive events after := by
  induction h with
  | refl => exact ⟨s, found, init⟩
  | tail h last ih =>
    obtain ⟨before, hbefore, hmotive⟩ := ih
    obtain ⟨after, hafter, hmove⟩ := last.move.moveAt hbefore
    exact ⟨after, hafter, step h hbefore hmotive hmove⟩

/-- A subscription keeps its number. -/
theorem Run.exists_subscription {start : Hub σ} {events : List HubEvent} (h : Run start events hub)
    (found : start.subscriptions[id]? = some s) : ∃ after, hub.subscriptions[id]? = some after := by
  obtain ⟨after, hafter, -⟩ :=
    h.induction_at (fun _ _ => True) trivial (fun _ _ _ _ => trivial) found
  exact ⟨after, hafter⟩

end Hub

end Restconf
