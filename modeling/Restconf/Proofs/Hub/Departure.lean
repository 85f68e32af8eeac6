import Restconf.Proofs.Hub.FanOut
import Restconf.Proofs.Hub.Stall

/-!
# Subscribers whose readers have gone

When the reader of a channel goes away, nobody is told. The consumer finds out when it next writes a
line. So its subscription stays in the registry until the next line is published, and not longer: as
soon as that line has been brought to all its targets and everybody has come to rest, the consumer
has returned and the worker is back.

## Why one line is enough

A consumer that cannot go on has returned, is inside its sink, or waits at an empty queue. A channel
without a reader keeps nobody. And behind a publisher that has moved past the queue there is always
something in it: it has taken the line, or it was full. It stays so, because the consumer can take a
line off only in order to write it, and from that it does not come back to the queue. So it does not
matter when the publisher comes: to a consumer that has not run yet, that waits, that is inside a
write, or that has stopped.

## Others

What a publisher does at a target is decided there. So others take the line as they do in any case,
whether they are visited before or after.

## Main definitions

* `HubEvent.movesPast` — a publisher goes on from a target, counting it or not
* `Hub.IsAbandoned`, `Hub.HasWork` — the reader has gone, and the consumer will find out
* `Hub.Departed` — a subscription has ended as closed and left no trace
* `Hub.Delivered` — what has become of a line that has been brought to all its targets

## Main results

* `Hub.MoveAt.hasWork_of_movesPast` — a publisher leaves something behind
* `Hub.Run.departed` — one line makes the hub let go of a subscriber whose reader has gone
-/

namespace Restconf

/-- A publisher goes on from a target, whose queue has taken the line or not. -/
def HubEvent.movesPast (p : PublisherId) (id : SubscriptionId) : HubEvent → Bool
  | accepted q i _ | passed q i => q = p ∧ i = id
  | _ => false

namespace Hub

variable {σ : Type} [LineSink σ] {hub next start : Hub σ} {event : Option HubEvent}
  {id : SubscriptionId} {s after : Subscription σ} {p : PublisherId}

/-! ### A line on its way -/

omit [LineSink σ] in
/-- A publisher keeps its line and its targets, except for those that it moves past. -/
theorem Traffic.remaining (h : Traffic hub next event) {publication : Publication}
    (underWay : hub.current p = some publication)
    (unfinished : ∀ count, event ≠ some (.completed p count)) :
    ∃ rest, next.current p = some rest ∧ rest.line = publication.line
      ∧ ∀ id ∈ publication.targets, id ∈ rest.targets ∨ ∃ e ∈ event, e.movesPast p id = true := by
  have same (h : next.current p = hub.current p) :
      ∃ rest, next.current p = some rest ∧ rest.line = publication.line
        ∧ ∀ id ∈ publication.targets,
          id ∈ rest.targets ∨ ∃ e ∈ event, e.movesPast p id = true :=
    ⟨publication, h.trans underWay, rfl, fun _ hid => Or.inl hid⟩
  have moved {accepted : Bool} {target : SubscriptionId} {e : HubEvent}
      (isAt : hub.IsAt p publication target)
      (current : next.current p = some (publication.passed accepted))
      (past : e.movesPast p target = true) :
      ∃ rest, next.current p = some rest ∧ rest.line = publication.line
        ∧ ∀ id ∈ publication.targets,
          id ∈ rest.targets ∨ ∃ e' ∈ some e, e'.movesPast p id = true := by
    refine ⟨_, current, rfl, fun id hid => ?_⟩
    rw [isAt.next, List.mem_cons] at hid
    rcases hid with rfl | hid
    · exact Or.inr ⟨e, rfl, past⟩
    · exact Or.inl hid
  cases h with
  | quiet quiet current => exact same (current p)
  | @begun q line targets idle order current =>
    have hq : q ≠ p := by
      rintro rfl
      cases idle.symm.trans underWay
    exact same (by rw [current, if_neg hq])
  | @accepted q other target isAt current | @passed q other target isAt current =>
    by_cases hq : q = p
    · subst hq
      obtain rfl := Option.some.inj (isAt.current.symm.trans underWay)
      exact moved isAt ((current q).trans (if_pos rfl)) (by simp [HubEvent.movesPast])
    · exact same (by rw [current, if_neg hq])
  | @completed q other _ _ current =>
    have hq : q ≠ p := by
      rintro rfl
      exact unfinished _ rfl
    exact same (by rw [current, if_neg hq])

theorem Run.remaining {events : List HubEvent} (h : Run start events hub) {begun : Publication}
    (underWay : start.current p = some begun) (unfinished : ∀ count, .completed p count ∉ events) :
    ∃ rest, hub.current p = some rest ∧ rest.line = begun.line
      ∧ ∀ id ∈ begun.targets, id ∈ rest.targets ∨ ∃ e ∈ events, e.movesPast p id = true := by
  induction h with
  | refl => exact ⟨begun, underWay, rfl, fun _ hid => Or.inl hid⟩
  | @tail b c events event _ step ih =>
    obtain ⟨rest, hrest, hline, hahead⟩ :=
      ih fun count hmem => unfinished count (List.mem_append_left _ hmem)
    obtain ⟨left, hleft, hline', hahead'⟩ := step.move.traffic.remaining hrest fun count hevent =>
      unfinished count (List.mem_append_right _ (Option.mem_toList.mpr hevent))
    refine ⟨left, hleft, hline'.trans hline, fun id hid => ?_⟩
    rcases hahead id hid with hid | ⟨e, he, hpast⟩
    · rcases hahead' id hid with hid | ⟨e, he, hpast⟩
      · exact Or.inl hid
      · exact Or.inr ⟨e, List.mem_append_right _ (Option.mem_toList.mpr he), hpast⟩
    · exact Or.inr ⟨e, List.mem_append_left _ he, hpast⟩

/-- A line that has been begun has all its targets before it. -/
theorem Move.current_of_began {line : String} {targets : List SubscriptionId}
    (h : Move hub (some (.began p line targets)) next) :
    next.current p = some { line, targets } := by
  cases h with
  | begin line found idle order =>
    rw [current_publishTo hub p p found, if_pos rfl]

/-- A line that is ended has none. -/
theorem Move.targets_of_completed {count : Nat} (h : Move hub (some (.completed p count)) next)
    {publication : Publication} (underWay : hub.current p = some publication) :
    publication.targets = [] := by
  cases h with
  | finish current visited =>
    obtain rfl := Option.some.inj (current.symm.trans underWay)
    exact visited

/-! ### What becomes of a line -/

/-- What a publisher that moves past a subscription has done there. -/
structure Treated (config : HubConfig) (p : PublisherId) (line : String) (id : SubscriptionId)
    (s : Subscription σ) (event : HubEvent) : Prop where
  /-- The queue has taken the line, or it has not. -/
  shown : event = .accepted p id line ∨ event = .passed p id
  /-- Under `block` it has taken the line if its consumer had not returned. -/
  block : config.overflow = .block → s.progress.isOver = false → event = .accepted p id line
  /-- Under `drop` it has taken the line, then, if and only if it had room. -/
  drop : config.overflow = .drop → s.progress.isOver = false →
    (event = .accepted p id line ↔ s.queue.length < config.capacity)
  /-- A queue that is gone takes nothing. -/
  gone : s.progress.isOver = true → event = .passed p id

theorem Move.treated {config : HubConfig} {e : HubEvent} (h : Move hub (some e) next)
    (hconfig : hub.config = config) (orderly : IsOrderly hub id s)
    (found : hub.subscriptions[id]? = some s) {publication : Publication}
    (underWay : hub.current p = some publication) (past : e.movesPast p id = true) :
    Treated config p publication.line id s e := by
  have room (hdrop : hub.config.overflow = .drop) :
      hub.hasRoom s = true ↔ s.queue.length < config.capacity := by
    rw [hasRoom_iff, orderly.patient hdrop, List.countP_nil, Nat.add_zero, hconfig]
  have here {q : PublisherId} {target : SubscriptionId}
      (h : decide (q = p ∧ target = id) = true) : q = p ∧ target = id := of_decide_eq_true h
  subst hconfig
  cases h with
  | @accept q other target t isAt found' alive taken =>
    obtain ⟨rfl, rfl⟩ := here past
    obtain rfl := Option.some.inj (isAt.current.symm.trans underWay)
    obtain rfl := Option.some.inj (found'.symm.trans found)
    refine ⟨Or.inl rfl, fun _ _ => rfl, fun hdrop _ => ?_, fun gone => ?_⟩
    · exact iff_of_true rfl ((room hdrop).mp ((canTake_of_drop hdrop).mp taken))
    · exact absurd (alive.symm.trans gone) Bool.false_ne_true
  | @skip q other target t isAt found' alive policy full =>
    obtain ⟨rfl, rfl⟩ := here past
    obtain rfl := Option.some.inj (found'.symm.trans found)
    refine ⟨Or.inr rfl, fun hblock => ?_, fun _ _ => ?_, fun _ => rfl⟩
    · cases policy.symm.trans hblock
    · refine iff_of_false (by simp) fun hlt => ?_
      rw [(room policy).mpr hlt] at full
      cases full
  | skipUnknown isAt unknown =>
    obtain ⟨rfl, rfl⟩ := here past
    cases unknown.symm.trans found
  | forget isAt found' gone =>
    obtain ⟨rfl, rfl⟩ := here past
    obtain rfl := Option.some.inj (found'.symm.trans found)
    refine ⟨Or.inr rfl, fun _ alive => ?_, fun _ alive => ?_, fun _ => rfl⟩
    · exact absurd (alive.symm.trans gone) Bool.false_ne_true
    · exact absurd (alive.symm.trans gone) Bool.false_ne_true
  | _ => cases past

/-! ### Readers that have gone -/

/-- The sink is a channel whose reader has gone. -/
def IsAbandoned (ofChannel : ChunkChannel → σ) (s : Subscription σ) : Prop :=
  ∃ channel, s.sink = ofChannel channel ∧ channel.isAbandoned = true

/-- The consumer will not come to rest at its queue: there is a line in it. -/
def HasWork (s : Subscription σ) : Prop :=
  s.progress = .starting ∨ s.progress = .receiving → s.queue ≠ []

omit [LineSink σ] in
theorem hasWork_of_isOver (gone : s.progress.isOver = true) : HasWork s := by
  rintro (h | h) <;> simp [h, Progress.isOver] at gone

variable {ofChannel : ChunkChannel → σ}

/-- A reader that has gone does not come back. -/
theorem MoveAt.isAbandoned (h : hub.MoveAt id s event after) (channels : HasChannels ofChannel)
    (before : IsAbandoned ofChannel s) : IsAbandoned ofChannel after := by
  obtain ⟨channel, hsink, gone⟩ := before
  cases h with
  | @write line sink _ outcome =>
    rw [hsink, channels.write_of_isAbandoned gone] at outcome
    cases outcome
  | @close how sink _ outcome =>
    rw [hsink, channels.close_eq, CloseOutcome.closed.injEq] at outcome
    exact ⟨channel.finish, outcome.symm, gone⟩
  | @touch sink far =>
    rw [hsink] at far
    obtain ⟨channel', hsink', far'⟩ := channels.far _ _ far
    exact ⟨channel', hsink', ChunkChannel.ReaderStep.isAbandoned far' gone⟩
  | _ => exact ⟨channel, hsink, gone⟩

/-- Without a reader, a consumer that has taken a line does not come back to its queue. -/
theorem MoveAt.hasWork (h : hub.MoveAt id s event after) (channels : HasChannels ofChannel)
    (gone : IsAbandoned ofChannel s) (before : HasWork s) : HasWork after := by
  cases h with
  | accept => exact fun _ => List.append_ne_nil_of_right_ne_nil _ (List.cons_ne_nil _ _)
  | start progress => exact fun _ => before (Or.inl progress)
  | write progress outcome =>
    obtain ⟨channel, hsink, gone⟩ := gone
    rw [hsink, channels.write_of_isAbandoned gone] at outcome
    cases outcome
  | take | finishQueue | refuse | crash | leave | close | crashClosing | giveBack => simp [HasWork]
  | _ => exact before

/-- **A publisher that has moved past a queue leaves something in it.** -/
theorem MoveAt.hasWork_of_movesPast {e : HubEvent} (h : hub.MoveAt id s (some e) after)
    (orderly : IsOrderly hub id s) (past : e.movesPast p id = true) : HasWork after := by
  cases h with
  | elsewhere other =>
    cases e <;> simp_all [HubEvent.movesPast, HubEvent.concerns]
  | accept => exact fun _ => List.append_ne_nil_of_right_ne_nil _ (List.cons_ne_nil _ _)
  | skip _ _ policy full =>
    intro _ hempty
    have hpos := capacity_pos hub.config
    rw [hasRoom_eq_false_iff, hempty, orderly.patient policy] at full
    simp at full
    omega
  | forget _ gone => exact hasWork_of_isOver (s := { s with isRegistered := false }) gone
  | _ => cases past

/-- A consumer that has work, whose channel is closed if it ends, and that cannot go on without a
reader, has returned. -/
theorem returned_of_consume_eq_none (channels : HasChannels ofChannel)
    (found : hub.subscriptions[id]? = some s) (gone : IsAbandoned ofChannel s) (work : HasWork s)
    (graceful : s.progress.isGraceful = true) (upright : ∀ noted, s.progress ≠ .crashed noted)
    (quiet : hub.consume id = none) : s.progress = .returned .closed := by
  obtain ⟨channel, hsink, gone⟩ := gone
  cases alive : s.progress.isOver with
  | false =>
    rcases consume_eq_none found alive quiet with hsuspended | ⟨hreceiving, hempty, -⟩
    · cases hsuspended with
      | writing _ pending => simp [hsink, channels.write_of_isAbandoned gone] at pending
      | closing _ pending => simp [hsink, channels.close_eq] at pending
    · exact absurd hempty (work (Or.inr hreceiving))
  | true =>
    cases hprogress : s.progress with
    | returned how => simpa [hprogress, Progress.isGraceful] using graceful
    | crashed noted => exact absurd hprogress (upright noted)
    | _ => simp [hprogress, Progress.isOver] at alive

/-! ### Departure -/

/-- A subscription has ended as closed, and nothing of it is left. -/
structure Departed (id : SubscriptionId) (events : List HubEvent) (hub : Hub σ) : Prop where
  /-- It is not registered. -/
  unregistered : id ∉ hub.registry
  /-- Its consumer has returned, as closed. -/
  ended : ∃ s, hub.subscriptions[id]? = some s ∧ s.progress = .returned .closed
  /-- Its worker has been given back, once. -/
  released : events.countP (·.givesBack id) = 1
  /-- No line is begun for it from then on. -/
  unaddressed : ∀ later last, Run hub later last → ∀ p line targets,
    .began p line targets ∈ later → id ∉ targets
  /-- And no publisher counts it, whatever line it has under way. -/
  uncounted : ∀ later last, Run hub later last → ∀ p line, .accepted p id line ∉ later

/-- Where a consumer has returned, no queue takes a line. -/
theorem Run.not_accepted {events : List HubEvent} (h : Run start events hub)
    (found : start.subscriptions[id]? = some s) (gone : s.progress.isOver = true)
    (p : PublisherId) (line : String) : .accepted p id line ∉ events := by
  intro hmem
  obtain ⟨earlier, later, rfl⟩ := List.append_of_mem hmem
  obtain ⟨before, behind, hearlier, step, -⟩ := h.split
  obtain ⟨t, ht, hover⟩ := hearlier.induction_at (fun _ s => s.progress.isOver = true) gone
    (fun _ _ before move => move.isOver before) found
  cases step.move with
  | accept isAt found' alive room =>
    obtain rfl := Option.some.inj (found'.symm.trans ht)
    exact absurd (alive.symm.trans hover) Bool.false_ne_true

theorem Run.departed_of_returned {config : HubConfig} {events : List HubEvent}
    (h : Run (ofConfig config) events hub) (found : hub.subscriptions[id]? = some s)
    (returned : s.progress = .returned .closed) : Departed id events hub where
  unregistered := h.not_mem_registry_of_returned found returned
  ended := ⟨s, found, returned⟩
  released := by
    rw [h.countP_givesBack id, found]
    simp [returned, Progress.isOver]
  unaddressed later last run p line targets hmem haddressed := by
    obtain ⟨earlier, rest, rfl⟩ := List.append_of_mem hmem
    obtain ⟨before, behind, hearlier, order, -, -⟩ := run.perm_registry
    have hleft : id ∉ hub.registry := h.not_mem_registry_of_returned found returned
    have hknown : id < hub.subscriptions.length := (List.getElem?_eq_some_iff.mp found).1
    exact hearlier.not_mem_registry hknown hleft (order.mem_iff.mp haddressed)
  uncounted later last run p line := by
    refine run.not_accepted found ?_ p line
    rw [returned]
    rfl

/-! ### The promise -/

/-- What becomes of a line in a run that begins it, brings it to all its targets, and ends it:
between its beginning and its end stands what is shown. -/
structure Delivered (config : HubConfig) (start last : Hub σ) (earlier : List HubEvent)
    (p : PublisherId) (line : String) (targets : List SubscriptionId)
    (shown later : List HubEvent) : Prop where
  /-- The publisher moves past every target. -/
  moved : ∀ id ∈ targets, ∃ event ∈ shown, event.movesPast p id = true
  /-- When it does, it treats the target as it finds it at that moment of the run. -/
  treated : ∀ id ∈ targets, ∀ until' event since, shown = until' ++ event :: since →
    event.movesPast p id = true →
      ∃ before behind s, Run start (earlier ++ .began p line targets :: until') before
        ∧ Step before (some event) behind ∧ Run behind (since ++ later) last
        ∧ before.subscriptions[id]? = some s ∧ Treated config p line id s event

section Runs

variable {config : HubConfig} {prior earlier middle rest : List HubEvent} {line : String}
  {targets : List SubscriptionId} {count : Nat} {last : Hub σ}

theorem Run.delivered (h : Run (ofConfig config) prior start)
    (after : Run start (earlier ++ .began p line targets :: (middle ++ .completed p count :: rest))
      last)
    (unfinished : ∀ count, .completed p count ∉ middle) :
    Delivered config start last earlier p line targets middle (.completed p count :: rest) := by
  obtain ⟨beginning, begun, hearlier, order, began, hrest⟩ := after.perm_registry
  obtain ⟨ending, ended, hmiddle, completed, hlater⟩ := hrest.split
  have underWay := began.move.current_of_began
  refine ⟨fun id addressed => ?_, fun id addressed until' event since hshown past => ?_⟩
  · obtain ⟨left, hleft, -, hahead⟩ := hmiddle.remaining underWay unfinished
    rcases hahead id addressed with hid | hpast
    · rw [completed.move.targets_of_completed hleft] at hid
      cases hid
    · exact hpast
  · subst hshown
    obtain ⟨before, behind, huntil, step, hsince⟩ := hmiddle.split
    have hfound : ∃ s, before.subscriptions[id]? = some s := by
      obtain ⟨t, ht, -⟩ := mem_registry.mp (order.mem_iff.mp addressed)
      exact (((Run.refl beginning).tail began).trans huntil).exists_subscription ht
    obtain ⟨s, found⟩ := hfound
    have run : Run start (earlier ++ .began p line targets :: until') before := by
      simpa using (hearlier.tail began).trans huntil
    obtain ⟨left, hleft, hline, -⟩ := huntil.remaining underWay fun count hmem =>
      unfinished count (List.mem_append_left _ hmem)
    have treated := step.move.treated (h.trans run).config_eq ((h.trans run).isOrderly found) found
      hleft past
    rw [hline] at treated
    exact ⟨before, behind, s, run, step, hsince.trans (hlater.cons completed), found, treated⟩

/-- **One line makes the hub let go of a subscriber whose reader has gone, and nobody else
notices.** -/
theorem Run.departed (channels : HasChannels ofChannel) (h : Run (ofConfig config) prior start)
    (found : start.subscriptions[id]? = some s) (gone : IsAbandoned ofChannel s)
    (after : Run start (earlier ++ .began p line targets :: (middle ++ .completed p count :: rest))
      last)
    (addressed : id ∈ targets) (unfinished : ∀ count, .completed p count ∉ middle)
    (quiet : last.IsQuiescent) :
    Departed id
        (prior ++ (earlier ++ .began p line targets :: (middle ++ .completed p count :: rest))) last
      ∧ Delivered config start last earlier p line targets middle (.completed p count :: rest) := by
  have delivered := h.delivered after unfinished
  refine ⟨?_, delivered⟩
  obtain ⟨e, hmem, past⟩ := delivered.moved id addressed
  obtain ⟨until', since, rfl⟩ := List.append_of_mem hmem
  -- the moment at which the publisher moves past the queue
  have hsplit : earlier ++ .began p line targets
        :: (until' ++ e :: since ++ .completed p count :: rest)
      = (earlier ++ .began p line targets :: until')
        ++ e :: (since ++ .completed p count :: rest) := by
    simp
  obtain ⟨before, behind, huntil, step, hsince⟩ := (hsplit ▸ after).split
  obtain ⟨t, ht, hgone⟩ := huntil.induction_at (fun _ s => IsAbandoned ofChannel s) gone
    (fun _ _ gone move => move.isAbandoned channels gone) found
  obtain ⟨u, hu, move⟩ := step.move.moveAt ht
  have work := move.hasWork_of_movesPast ((h.trans huntil).isOrderly ht) past
  -- and from there on
  obtain ⟨v, hv, hgone, work⟩ := hsince.induction_at
    (fun _ s => IsAbandoned ofChannel s ∧ HasWork s) ⟨move.isAbandoned channels hgone, work⟩
    (fun _ _ before move =>
      ⟨move.isAbandoned channels before.1, move.hasWork channels before.1 before.2⟩) hu
  have run := h.trans after
  have ⟨_, hsink, _⟩ := hgone
  obtain ⟨graceful, upright⟩ := run.isGraceful channels hv hsink
  exact run.departed_of_returned hv
    (returned_of_consume_eq_none channels hv hgone work graceful upright (quiet (.consumer id)))

/-- The reader of the first of two subscriptions goes away before anything is published. -/
theorem Run.departed_first :
    ∃ (start last : Hub ChunkChannel),
      Departed 0
          ([.subscribed 0, .subscribed 1] ++ ([] ++ .began 0 "a" [0, 1]
            :: ([.accepted 0 0 "a", .accepted 0 1 "a"] ++ .completed 0 2
              :: [.started 0, .took 0 "a", .refused 0 .sinkClosed, .left 0, .closed 0,
                .returned 0 .closed, .started 1, .took 1 "a", .wrote 1 "a"]))) last
      ∧ Delivered {} start last [] 0 "a" [0, 1] [.accepted 0 0 "a", .accepted 0 1 "a"]
          (.completed 0 2 :: [.started 0, .took 0 "a", .refused 0 .sinkClosed, .left 0, .closed 0,
            .returned 0 .closed, .started 1, .took 1 "a", .wrote 1 "a"])
      ∧ start.subscriptions.map (·.sink.isAbandoned) = [true, false]
      ∧ start.registry = [0, 1] ∧ last.registry = [1] ∧ last.IsQuiescent := by
  have first := (Run.refl (ofConfig {} : Hub ChunkChannel)).tail
    (@Step.subscribe _ _ _ "updates" (.ofCapacity 1) _ _ rfl)
  have second := first.tail (@Step.subscribe _ _ _ "updates" (.ofCapacity 1) _ _ rfl)
  have came := second.tail (.addPublisher _)
  have gone := came.tail (@Step.touchSink _ _ _ 0 _ _ rfl (.abandon _))
  -- the hub behind these steps, from which the line is published
  let start : Hub ChunkChannel := {
    config := {}
    idleWorkers := 3
    subscriptions := [{ stream := "updates", sink := (ChunkChannel.ofCapacity 1).abandon },
      { stream := "updates", sink := .ofCapacity 1 }]
    publishers := [{}] }
  have began := (Run.refl start).tail (@Step.publish _ _ _ 0 _ [0, 1] "a" rfl rfl (.refl [0, 1]))
  have acceptedFirst := began.tail (@Step.advance _ _ _ (.publisher 0) _ rfl)
  have acceptedSecond := acceptedFirst.tail (@Step.advance _ _ _ (.publisher 0) _ rfl)
  have completed := acceptedSecond.tail (@Step.advance _ _ _ (.publisher 0) _ rfl)
  -- the hub behind the end of the line
  let brought : Hub ChunkChannel := {
    config := {}
    idleWorkers := 3
    subscriptions := [
      { stream := "updates", queue := ["a"], sink := (ChunkChannel.ofCapacity 1).abandon },
      { stream := "updates", queue := ["a"], sink := .ofCapacity 1 }]
    publishers := [{ counts := [2] }] }
  have ended : Run start ([] ++ .began 0 "a" [0, 1]
    :: ([.accepted 0 0 "a", .accepted 0 1 "a"] ++ .completed 0 2 :: [])) brought := completed
  have startedFirst := ended.tail (@Step.advance _ _ _ (.consumer 0) _ rfl)
  have tookFirst := startedFirst.tail (@Step.advance _ _ _ (.consumer 0) _ rfl)
  have refused := tookFirst.tail (@Step.advance _ _ _ (.consumer 0) _ rfl)
  have left := refused.tail (@Step.advance _ _ _ (.consumer 0) _ rfl)
  have closed := left.tail (@Step.advance _ _ _ (.consumer 0) _ rfl)
  have returned := closed.tail (@Step.advance _ _ _ (.consumer 0) _ rfl)
  have startedSecond := returned.tail (@Step.advance _ _ _ (.consumer 1) _ rfl)
  have tookSecond := startedSecond.tail (@Step.advance _ _ _ (.consumer 1) _ rfl)
  have wrote := tookSecond.tail (@Step.advance _ _ _ (.consumer 1) _ rfl)
  let last : Hub ChunkChannel := {
    config := {}
    idleWorkers := 4
    subscriptions := [
      { stream := "updates", phase := .ended .closed, isRegistered := false,
        progress := .returned .closed, sink := (ChunkChannel.ofCapacity 1).abandon.finish },
      { stream := "updates", phase := .streaming, progress := .receiving,
        sink := { ChunkChannel.ofCapacity 1 with chunks := ["a" ++ lineTerminator] } }]
    publishers := [{ counts := [2] }] }
  have quiet : last.IsQuiescent := by
    intro runner
    rcases runner with (_ | _ | i) | (_ | i) <;> rfl
  have prior : Run (ofConfig {}) [.subscribed 0, .subscribed 1] start := gone
  have after : Run start ([] ++ .began 0 "a" [0, 1]
    :: ([.accepted 0 0 "a", .accepted 0 1 "a"] ++ .completed 0 2
      :: [.started 0, .took 0 "a", .refused 0 .sinkClosed, .left 0, .closed 0,
        .returned 0 .closed, .started 1, .took 1 "a", .wrote 1 "a"])) last := wrote
  have found : start.subscriptions[0]?
    = some { stream := "updates", sink := (ChunkChannel.ofCapacity 1).abandon } := rfl
  obtain ⟨departed, delivered⟩ := prior.departed ChunkChannel.hasChannels found ⟨_, rfl, rfl⟩ after
    (by simp) (by simp) quiet
  exact ⟨start, last, departed, delivered, rfl, rfl, rfl, quiet⟩

end Runs

end Hub

end Restconf
