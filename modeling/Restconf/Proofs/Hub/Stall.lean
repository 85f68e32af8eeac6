import Restconf.Proofs.Hub.Channel
import Restconf.Proofs.Hub.Pool
import Restconf.Proofs.Hub.Queue
import Restconf.Proofs.Hub.Waiting

/-!
# What can hold up a publisher

Where nobody can take a step of their own, a line that has not been brought to all its targets is
held up by one subscriber, and that one is stalled itself: its queue is full and its consumer is
inside its sink, which does not come to an end.

## Following the chain

A publisher that cannot go on waits in a line, and no room is kept for it. So all room is taken, by
the queue or by others for whom room is kept. But those could go on. So it is the queue that is
full, its consumer does not wait for a line, and all that it can wait for is its sink. Each link is
an invariant of runs: who stands in a line has that target next, and somebody without room means
that there is none.

## What cannot hold up a publisher

A consumer that has stopped closes its sink and returns, and then its queue is gone. Publishers that
waited there find out with their next step. So a sink that has refused a line, or a channel whose
reader has gone, holds up nobody, provided that the sink can be closed.

## Main definitions

* `Hub.IsSuspended` — a consumer is inside its sink
* `Hub.Obstructs` — a subscriber holds up a publisher
* `Hub.Unhindered` — what is promised of publishers

## Main results

* `Hub.Run.obstructs` — a publisher that cannot go on is held up by a stalled subscriber
* `Hub.Run.unhindered` — what is promised of publishers, at every moment of every run
-/

namespace Restconf.Hub

open Ledger

variable {σ : Type} [LineSink σ] {hub next : Hub σ} {event : Option HubEvent}
  {id : SubscriptionId} {s : Subscription σ}

/-! ### Consumers that cannot go on -/

/-- The consumer is inside its sink, in a write or in closing it. -/
inductive IsSuspended (s : Subscription σ) : Prop where
  | writing {line : String} (progress : s.progress = .writing line)
    (pending : LineSink.write s.sink line = .pending)
  | closing {how : Ending} (progress : s.progress = .closing how)
    (pending : LineSink.close s.sink = .pending)

/-- A consumer that cannot go on is inside its sink, or it waits at an empty queue that somebody
still holds. -/
theorem consume_eq_none (found : hub.subscriptions[id]? = some s)
    (alive : s.progress.isOver = false) (h : hub.consume id = none) :
    IsSuspended s ∨ s.progress = .receiving ∧ s.queue = [] ∧ hub.isHeld id = true := by
  rw [consume, found] at h
  cases hprogress : s.progress with
  | starting | stopping | releasing => simp [hprogress] at h
  | receiving =>
    cases hqueue : s.queue with
    | nil =>
      cases held : hub.isHeld id with
      | false => simp [hprogress, hqueue, held] at h
      | true => exact Or.inr ⟨rfl, rfl, rfl⟩
    | cons line rest => simp [hprogress, hqueue] at h
  | writing line =>
    simp only [hprogress, writeLine] at h
    cases houtcome : LineSink.write s.sink line with
    | pending => exact Or.inl (.writing hprogress houtcome)
    | written | refused | crashed => simp [houtcome] at h
  | closing how =>
    simp only [hprogress, closeSink] at h
    cases houtcome : LineSink.close s.sink with
    | pending => exact Or.inl (.closing hprogress houtcome)
    | closed | crashed => simp [houtcome] at h
  | returned | crashed => simp [hprogress, Progress.isOver] at alive

/-- A consumer that has not stopped has not been refused a line. -/
theorem MoveAt.isDelivering {after : Subscription σ} (h : hub.MoveAt id s event after)
    (delivering : after.progress.isDelivering = true) :
    s.progress.isDelivering = true ∧ ∀ fault, event ≠ some (.refused id fault) := by
  cases h with
  | elsewhere other =>
    refine ⟨delivering, fun fault h => ?_⟩
    simp [h, HubEvent.concerns] at other
  | start progress | take progress | write progress =>
    exact ⟨by rw [progress]; rfl, fun fault => by simp⟩
  | finishQueue | refuse | crash | leave | close | crashClosing | giveBack => cases delivering
  | _ => exact ⟨delivering, fun fault => by simp⟩

theorem Run.not_refused {config : HubConfig} {events : List HubEvent}
    (h : Run (ofConfig config) events hub) (found : hub.subscriptions[id]? = some s)
    (delivering : s.progress.isDelivering = true) (fault : Fault) :
    .refused id fault ∉ events := by
  refine h.subscription_induction id (fun events s => s.progress.isDelivering = true →
    .refused id fault ∉ events) ?_ ?_ found delivering
  · intro events stream sink fresh _ hmem
    rcases List.mem_append.mp hmem with hmem | hmem
    · exact fresh _ hmem rfl
    · simp at hmem
  · intro hub events s event after _ _ before move hafter hmem
    obtain ⟨hbefore, hevent⟩ := move.isDelivering hafter
    rcases List.mem_append.mp hmem with hmem | hmem
    · exact before hbefore hmem
    · exact hevent fault (Option.mem_toList.mp hmem)

/-! ### Publishers that cannot go on -/

/-- A line knows everybody by name. -/
theorem find?_publisher {waiters : List Waiter} (nodup : (waiters.map Waiter.publisher).Nodup)
    {w : Waiter} (hw : w ∈ waiters) :
    waiters.find? (·.publisher = w.publisher) = some w := by
  induction waiters with
  | nil => cases hw
  | cons first rest ih =>
    simp only [List.map_cons, List.nodup_cons] at nodup
    rcases List.mem_cons.mp hw with rfl | hw
    · simp
    · have hne : first.publisher ≠ w.publisher := by
        intro h
        exact nodup.1 (h ▸ List.mem_map_of_mem hw)
      rw [List.find?_cons_of_neg (by simpa using hne)]
      exact ih nodup.2 hw

section Runs

variable {config : HubConfig} {events : List HubEvent}

/-- Where nobody can take a step, nobody has room kept for it. -/
theorem Run.granted_eq_false (h : Run (ofConfig config) events hub) (quiet : hub.IsQuiescent)
    (found : hub.subscriptions[id]? = some s) : ∀ w ∈ s.waiters, w.granted = false := by
  intro w hw
  have orderly := h.isOrderly found
  obtain ⟨publication, isAt⟩ := orderly.present w hw
  obtain ⟨target, t, waiter, hat, hfound, -, -, hwaiter, hgranted⟩ :=
    visit_eq_none isAt.current (quiet (.publisher w.publisher))
  obtain ⟨-, rfl⟩ := isAt.eq hat
  obtain rfl := Option.some.inj (hfound.symm.trans found)
  rw [find?_publisher orderly.nodup hw] at hwaiter
  rw [Option.some.inj hwaiter]
  exact hgranted

/-- A subscriber holds up a publisher. -/
structure Obstructs (ofChannel : ChunkChannel → σ) (config : HubConfig) (events : List HubEvent)
    (hub : Hub σ) (p : PublisherId) (publication : Publication) (target : SubscriptionId)
    (s : Subscription σ) : Prop where
  /-- It is the next target of the publisher, and one of those for whom the line was begun. -/
  isAt : hub.IsAt p publication target
  found : hub.subscriptions[target]? = some s
  addressed : ∃ broadcast, ((ofEvents events).broadcastsOf p).getLast? = some broadcast
    ∧ broadcast.line = publication.line ∧ target ∈ broadcast.snapshot
  /-- The publisher stands in the line, and no room is kept for it. -/
  waits : { publisher := p } ∈ s.waiters
  /-- The queue is full. -/
  full : s.queue.length = max 1 config.queueCapacity
  /-- The consumer has not returned, and is inside its sink. -/
  alive : s.progress.isOver = false
  suspended : IsSuspended s
  /-- If the sink is a channel, its reader is there, and it is full. -/
  channel : ∀ channel, s.sink = ofChannel channel → channel.isAbandoned = false
    ∧ channel.isEnded = false ∧ channel.capacity ≤ channel.chunks.length
  /-- If closing the sink would come to an end, the consumer is writing, and no write has failed. -/
  unfailed : LineSink.close s.sink ≠ .pending →
    (∃ line, s.progress = .writing line ∧ LineSink.write s.sink line = .pending)
      ∧ ∀ fault, .refused target fault ∉ events

/-- **Where nobody can take a step, a publisher that has a line under way is held up by a stalled
subscriber.** -/
theorem Run.obstructs {ofChannel : ChunkChannel → σ} (channels : HasChannels ofChannel)
    (h : Run (ofConfig config) events hub) (quiet : hub.IsQuiescent) {p : PublisherId}
    {publication : Publication} (underWay : hub.current p = some publication) :
    config.overflow = .block
      ∧ ∃ target s, Obstructs ofChannel config events hub p publication target s := by
  obtain ⟨target, s, waiter, isAt, found, alive, policy, hwaiter, hgranted⟩ :=
    visit_eq_none underWay (quiet (.publisher p))
  have hmem : waiter ∈ s.waiters := List.mem_of_find?_eq_some hwaiter
  have hname : waiter.publisher = p := by simpa using List.find?_some hwaiter
  have orderly := h.isOrderly found
  have hfull : s.queue.length = config.capacity := by
    have hnone : s.waiters.countP Waiter.granted = 0 := by
      refine List.countP_eq_zero.mpr fun w hw => ?_
      simp [h.granted_eq_false quiet found w hw]
    have hfits := orderly.fits
    have htaken := orderly.full (List.all_eq_false.mpr ⟨waiter, hmem, by simp [hgranted]⟩)
    rw [hnone, h.config_eq] at hfits htaken
    exact Nat.le_antisymm hfits htaken
  have suspended : IsSuspended s := by
    rcases consume_eq_none found alive (quiet (.consumer target)) with hsuspended | ⟨-, hempty, -⟩
    · exact hsuspended
    · have hpos := capacity_pos config
      rw [hempty, List.length_nil] at hfull
      omega
  have writing (closes : LineSink.close s.sink ≠ .pending) :
      ∃ line, s.progress = .writing line ∧ LineSink.write s.sink line = .pending := by
    cases suspended with
    | writing progress pending => exact ⟨_, progress, pending⟩
    | closing progress pending => exact absurd pending closes
  rw [h.config_eq] at policy
  refine ⟨policy, target, s, isAt, found, ?_, ?_, hfull, alive, suspended, ?_, ?_⟩
  · obtain ⟨earlier, broadcast, hlast, hline, hsnapshot⟩ := (h.underWay p publication underWay).last
    refine ⟨broadcast, ?_, hline, hsnapshot target ?_⟩
    · rw [hlast, List.getLast?_concat]
    · rw [isAt.next]
      exact List.mem_cons_self
  · have hw : waiter = { publisher := p } := by
      cases waiter
      simp_all
    exact hw ▸ hmem
  · intro channel hchannel
    obtain ⟨line, -, pending⟩ := writing (by rw [hchannel, channels.close_eq]; simp)
    rw [hchannel] at pending
    exact channels.write_eq_pending_iff.mp pending
  · intro closes
    obtain ⟨line, progress, pending⟩ := writing closes
    exact ⟨⟨line, progress, pending⟩, h.not_refused found (by rw [progress]; rfl)⟩

/-! ### The promise -/

/-- What is promised of publishers behind a run. -/
structure Unhindered (ofChannel : ChunkChannel → σ) (config : HubConfig) (events : List HubEvent)
    (hub : Hub σ) : Prop where
  /-- Under `drop` no line is under way where nobody can take a step. -/
  drop : hub.IsQuiescent → config.overflow = .drop → ∀ p, hub.current p = none
  /-- Under `block` a line that is under way there is held up by a stalled subscriber. -/
  block : hub.IsQuiescent → config.overflow = .block → ∀ p publication,
    hub.current p = some publication →
      ∃ target s, Obstructs ofChannel config events hub p publication target s
  /-- When a consumer returns, whoever waits for its queue goes on without it. -/
  returned : ∀ target s event next, hub.subscriptions[target]? = some s → Step hub event next →
    event.any (·.givesBack target) = true → ∀ w ∈ s.waiters, ∃ publication,
      hub.IsAt w.publisher publication target ∧ ∀ later last, Run next later last →
        GoesOn w.publisher publication target next later last

/-- A consumer that gives back its worker has returned. -/
theorem MoveAt.isOver_of_givesBack {after : Subscription σ} (h : hub.MoveAt id s event after)
    (back : event.any (·.givesBack id) = true) : after.progress.isOver = true := by
  cases h with
  | crash | crashClosing | giveBack => rfl
  | @elsewhere event other =>
    cases event with
    | none => cases back
    | some e =>
      have hconcerns := e.concerns_of_consumer? (e.consumer?_of_givesBack back)
      simp [hconcerns] at other
  | _ => cases back

/-- **A publisher is only ever held up by a stalled subscriber.** -/
theorem Run.unhindered {ofChannel : ChunkChannel → σ} (channels : HasChannels ofChannel)
    (h : Run (ofConfig config) events hub) : Unhindered ofChannel config events hub where
  drop quiet policy p := by
    cases hcurrent : hub.current p with
    | none => rfl
    | some publication =>
      have hblock := (h.obstructs channels quiet hcurrent).1
      cases policy.symm.trans hblock
  block quiet _ p publication underWay := (h.obstructs channels quiet underWay).2
  returned target s event next found step back w hw := by
    obtain ⟨publication, isAt⟩ := (h.isOrderly found).present w hw
    obtain ⟨after, hafter, move⟩ := step.move.moveAt found
    refine ⟨publication, isAt, fun later last run => ?_⟩
    refine run.goesOn ?_ hafter (move.isOver_of_givesBack back)
    cases step.move.atTarget isAt found with
    | stays current => exact ⟨current, isAt.next⟩
    | accepted hevent | passed hevent => simp [hevent, HubEvent.givesBack] at back

/-- Three lines fill a channel with room for one, the hand of its consumer, and a queue with room
for one. The publisher waits with the fourth. -/
theorem Run.unhindered_full :
    ∃ (hub : Hub ChunkChannel) (events : List HubEvent),
      Run (ofConfig { queueCapacity := 1 }) events hub
      ∧ Unhindered (fun channel => channel) { queueCapacity := 1 } events hub
      ∧ hub.IsQuiescent
      ∧ hub.current 0 = some { line := "d", targets := [0] }
      ∧ hub.subscriptions.map (fun s => (s.progress, s.queue, s.waiters, s.sink.chunks))
        = [(.writing "b", ["c"], [{ publisher := 0 }], ["a\r\n"])] := by
  have subscribed := (Run.refl (ofConfig { queueCapacity := 1 } : Hub ChunkChannel)).tail
    (@Step.subscribe _ _ _ "updates" (.ofCapacity 1) _ _ rfl)
  have came := subscribed.tail (.addPublisher _)
  have beganA := came.tail (@Step.publish _ _ _ 0 _ [0] "a" rfl rfl (.refl [0]))
  have acceptedA := beganA.tail (@Step.advance _ _ _ (.publisher 0) _ rfl)
  have completedA := acceptedA.tail (@Step.advance _ _ _ (.publisher 0) _ rfl)
  have started := completedA.tail (@Step.advance _ _ _ (.consumer 0) _ rfl)
  have tookA := started.tail (@Step.advance _ _ _ (.consumer 0) _ rfl)
  have wroteA := tookA.tail (@Step.advance _ _ _ (.consumer 0) _ rfl)
  have beganB := wroteA.tail (@Step.publish _ _ _ 0 _ [0] "b" rfl rfl (.refl [0]))
  have acceptedB := beganB.tail (@Step.advance _ _ _ (.publisher 0) _ rfl)
  have completedB := acceptedB.tail (@Step.advance _ _ _ (.publisher 0) _ rfl)
  have tookB := completedB.tail (@Step.advance _ _ _ (.consumer 0) _ rfl)
  have beganC := tookB.tail (@Step.publish _ _ _ 0 _ [0] "c" rfl rfl (.refl [0]))
  have acceptedC := beganC.tail (@Step.advance _ _ _ (.publisher 0) _ rfl)
  have completedC := acceptedC.tail (@Step.advance _ _ _ (.publisher 0) _ rfl)
  have beganD := completedC.tail (@Step.publish _ _ _ 0 _ [0] "d" rfl rfl (.refl [0]))
  have waits := beganD.tail (@Step.advance _ _ _ (.publisher 0) _ rfl)
  refine ⟨_, _, waits, waits.unhindered ChunkChannel.hasChannels, ?_, rfl, rfl⟩
  intro runner
  rcases runner with (_ | i) | (_ | i) <;> rfl

end Runs

end Restconf.Hub
