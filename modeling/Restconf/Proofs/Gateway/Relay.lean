import Restconf.Proofs.Gateway.Listener
import Restconf.Proofs.Hub.Source

/-!
# From a channel of notifications to the lines of a client

Three stages lie between an engine and a client: the channel on which notifications are sent, a
listener that begins a line for each of one kind, and the queue and the consumer of a subscription.
Each of them may lie behind the one before, and each may stand still while the others go on. What is
promised here is the composition, for every order of steps.

## The two moments

While tasks can go on, a client has seen a beginning of what was sent. Nothing is said of how long
that lasts. Where no task can go on, a listener without a line under way has received everything,
and a consumer that is not inside its sink has written everything. Both conditions are about stages
that stand still for a reason that lies outside: a listener that has a line under way waits for room
in a queue, and so for a sink.

## Main definitions

* `Gateway.Relayed` — what is promised of the notifications and of a subscription

## Main results

* `Gateway.Course.framed` — a channel is given each line as one chunk that ends with a line break
* `Gateway.Course.isRelayed` — the promise
-/

namespace Restconf

/-! ### Chunks -/

namespace ChunkChannel

variable {channel after : ChunkChannel}

theorem chunks_of_write {line : String} (h : LineSink.write channel line = .written after) :
    after.chunks = channel.chunks ++ [line ++ lineTerminator] := by
  simp only [LineSink.write] at h
  split at h
  · cases h
  · split at h
    · obtain rfl := WriteOutcome.written.inj h
      rfl
    · cases h

/-- A reader puts nothing on the channel. -/
theorem ReaderStep.drop_eq_nil (h : ReaderStep channel after) :
    after.chunks.drop channel.chunks.length = [] := by
  cases h with
  | take h =>
    unfold take? at h
    split at h
    · cases h
    · next chunk rest hchunks =>
      obtain ⟨rfl, rfl⟩ := Prod.mk.inj (Option.some.inj h)
      rw [hchunks]
      exact List.drop_eq_nil_of_le (Nat.le_succ _)
  | abandon => exact List.drop_nil

end ChunkChannel

namespace Hub

variable {σ : Type} [LineSink σ] {hub : Hub σ} {event : Option HubEvent} {id : SubscriptionId}
  {s after : Subscription σ} {ofChannel : ChunkChannel → σ} {channel : ChunkChannel}

/-- **What a move puts on the channel of a subscription are the lines that it writes there, each one
followed by a line break.** -/
theorem MoveAt.chunks (h : hub.MoveAt id s event after) (channels : HasChannels ofChannel)
    (isChannel : s.sink = ofChannel channel) : ∃ later, after.sink = ofChannel later
      ∧ later.chunks.drop channel.chunks.length
        = (event.toList.flatMap (·.linesGiven id)).map (· ++ lineTerminator) := by
  have nothing : channel.chunks.drop channel.chunks.length = [] := List.drop_length
  cases h with
  | elsewhere other =>
    refine ⟨channel, isChannel, ?_⟩
    rw [nothing]
    cases event with
    | none => rfl
    | some e => cases e <;> simp_all [HubEvent.linesGiven, HubEvent.concerns]
  | @write line sink _ outcome =>
    rw [isChannel, channels.write] at outcome
    cases written : LineSink.write channel line with
    | written later =>
      rw [written] at outcome
      refine ⟨later, (WriteOutcome.written.inj outcome).symm, ?_⟩
      simp [ChunkChannel.chunks_of_write written, HubEvent.linesGiven]
    | _ =>
      rw [written] at outcome
      cases outcome
  | @close how sink _ outcome =>
    rw [isChannel, channels.close_eq] at outcome
    exact ⟨channel.finish, (CloseOutcome.closed.inj outcome).symm, nothing⟩
  | touch far =>
    rw [isChannel] at far
    obtain ⟨later, hlater, far⟩ := channels.far _ _ far
    exact ⟨later, hlater, far.drop_eq_nil⟩
  | _ => exact ⟨channel, isChannel, nothing⟩

end Hub

namespace Gateway

open Ledger

variable {g next start last : Gateway} {event : Option HubEvent} {prior events : List HubEvent}
  {wire : Wire} {sent : List Notification} {id : SubscriptionId} {given : List String}
  {s : Subscription Sink}

/-- What a step of the gateway does to a subscription. -/
theorem Effect.moveAt (h : Effect wire g next event) (found : g.hub.subscriptions[id]? = some s) :
    ∃ after, next.hub.subscriptions[id]? = some after ∧ g.hub.MoveAt id s event after := by
  cases h with
  | hub step => exact step.move.moveAt found
  | idle hub | sent _ _ hub | closed hub | fetched _ _ hub =>
    exact ⟨s, by rw [hub, found], .elsewhere rfl⟩
  | spawned _ hub => exact hub ▸ (Hub.Step.addPublisher g.hub).move.moveAt found
  | began _ _ _ step => exact step.move.moveAt found

/-- **A channel is given the lines that are written there, each one followed by a line break.** -/
theorem Course.framed (h : Course wire id start events sent given g) (sound : start.IsSound)
    (found : start.hub.subscriptions[id]? = some s) {channel : ChunkChannel}
    (isChannel : s.sink = .channel channel) (prior : List HubEvent) :
    (∃ t later, g.hub.subscriptions[id]? = some t ∧ t.sink = .channel later)
      ∧ ((ofEvents (prior ++ events)).writtenTo id).map (· ++ lineTerminator)
        = ((ofEvents prior).writtenTo id).map (· ++ lineTerminator) ++ given := by
  induction h with
  | refl => exact ⟨⟨s, channel, found, isChannel⟩, by simp⟩
  | @tail g next events sent given event h step attended ih =>
    obtain ⟨⟨t, earlier, ht, hearlier⟩, lines⟩ := ih
    obtain ⟨after, hafter, move⟩ := (step.effect (h.run.isSound sound) wire).moveAt ht
    obtain ⟨later, hlater, chunks⟩ := move.chunks Sink.hasChannels hearlier
    refine ⟨⟨after, later, hafter, hlater⟩, ?_⟩
    have hgiven : givenIn id g next = later.chunks.drop earlier.chunks.length := by
      simp only [givenIn, sink?, ht, hafter, Option.map_some, hearlier, hlater]
    rw [← List.append_assoc, ofEvents_append, writtenTo_after, List.map_append, lines, hgiven,
      chunks, List.append_assoc]

/-! ### The promise -/

/-- What is promised of the notifications that have been sent on a channel with a listener that
keeps up, and of a subscription that was there before the first of them. -/
structure Relayed (wire : Wire) (id : SubscriptionId) (prior events : List HubEvent)
    (sent : List Notification) (given : List String) (start last : Gateway) : Prop where
  /-- The channel has counted these notifications, and keeps the newest of them. -/
  carries : (last.channel wire).Carries sent
  /-- Nobody but the listener has begun a line. -/
  sole : ∀ broadcast ∈ (ofEvents (prior ++ events)).broadcasts, broadcast.publisher = 0
  /-- It has begun one for each notification of the kind `yang` that it has received, in the order
  in which they were sent, and for no other. -/
  begun : ∃ received ≤ sent.length,
    (∀ position, last.feeds = [.listener wire position] → position = received)
      ∧ (ofEvents (prior ++ events)).broadcasts.map Broadcast.line = linesOf (sent.take received)
  /-- Where nobody can take a step and it has no line under way, it has begun all of them. -/
  complete : last.IsQuiescent → last.hub.current 0 = none →
    (ofEvents (prior ++ events)).broadcasts.map Broadcast.line = linesOf sent
  /-- A subscription whose sink works leaves the registry only when the hub is shut down. -/
  registered : Hub.Unfailed id (prior ++ events) → .shutdown ∉ events → id ∈ last.hub.registry
  /-- Where nobody can take a step and no line is under way, the sink of a registered subscription,
  if it works and the consumer is not inside it, has been given the lines of all notifications. -/
  written : last.IsQuiescent → last.hub.current 0 = none → id ∈ last.hub.registry →
    Hub.Unfailed id (prior ++ events) → ∀ s, last.hub.subscriptions[id]? = some s →
      ¬ Hub.IsSuspended s → (ofEvents (prior ++ events)).writtenTo id = linesOf sent
  /-- Each one followed by a line break, if the sink is a channel. -/
  framed : ∀ channel, start.sink? id = some (.channel channel) →
    given = ((ofEvents (prior ++ events)).writtenTo id).map (· ++ lineTerminator)

/-- **From the channel to the client: every notification of the kind that is relayed, in order, each
once, and nothing else.** -/
theorem Course.isRelayed {config : HubConfig} {fresh : Gateway} (begins : fresh.IsFresh config)
    (block : config.overflow = .block) (h : Run fresh prior start)
    (attached : start.feeds = [.listener wire 0]) (unsent : (start.channel wire).Carries [])
    (registered : id ∈ start.hub.registry)
    (course : Course wire id start events sent given last) :
    Relayed wire id prior events sent given start last := by
  have quiet := h.silent begins attached
  have sound := h.isSound begins.isSound
  have hub : Hub.Run (.ofConfig config) prior start.hub := begins.hub ▸ h.hub begins.isSound
  have rest : Hub.Run start.hub events last.hub := course.run.hub sound
  have silent : ∀ p line targets, HubEvent.began p line targets ∉ prior :=
    fun p line targets hmem => by cases quiet _ hmem
  obtain ⟨received, relays⟩ := course.relays sound (relays_start quiet attached unsent)
  have complete (hquiet : last.IsQuiescent) (idle : last.hub.current 0 = none) :
      (ofEvents (prior ++ events)).broadcasts.map Broadcast.line = linesOf sent := by
    rw [relays.begun, relays.complete course.attended hquiet idle, List.take_length]
  obtain ⟨s, found, -⟩ := Hub.mem_registry.mp registered
  exact {
    carries := relays.carries
    sole := relays.sole
    begun := by
      obtain ⟨feed, hfeed, feedAt⟩ := relays.listens
      refine ⟨received, relays.bounded, fun position hposition => ?_, relays.begun⟩
      obtain rfl := List.head_eq_of_cons_eq (hfeed.symm.trans hposition)
      exact feedAt.2
    complete
    registered := hub.mem_registry_of_unfailed rest registered
    written := fun hquiet idle stays unfailed t ht runs => by
      obtain ⟨t', ht', hregistered⟩ := Hub.mem_registry.mp stays
      obtain rfl := Option.some.inj (ht'.symm.trans ht)
      have waits := hub_advance_eq_none (hquiet (.consumer id))
      rw [(hub.trans rest).writtenTo_eq_linesTo ht hregistered unfailed waits runs,
        hub.linesTo_eq_of_sole rest block silent relays.sole registered stays idle]
      exact complete hquiet idle
    framed := fun channel hsink => by
      have isChannel : s.sink = .channel channel := by
        rw [sink?, found] at hsink
        exact Option.some.inj hsink
      have lines := (course.framed sound found isChannel prior).2
      rw [hub.writtenTo_eq_nil silent, List.map_nil, List.nil_append] at lines
      exact lines.symm }

/-- Two notifications are sent, of which one is relayed. -/
theorem Course.isRelayed_kinds : ∃ (start last : Gateway) (events : List HubEvent)
    (sent : List Notification) (given : List String),
    Course (.made 0) 0 start events sent given last
      ∧ Relayed (.made 0) 0 [.subscribed 0] events sent given start last
      ∧ last.IsQuiescent ∧ last.hub.current 0 = none
      ∧ sent.map (·.kind) = [.syslog, .yang]
      ∧ given = [(Json.string "up").render ++ lineTerminator] := by
  let channel (kept : List Notification) : Channel Notification :=
    { capacity := 4, kept, sent := kept.length }
  let gateway (s : Subscription Sink) (p : Publisher) (position : Nat)
      (listening : List PublisherId) (channel : Channel Notification) : Gateway := {
    engine := .datastore {}
    hub := { config := {}, idleWorkers := 4, subscriptions := [s], publishers := [p] }
    feeds := [.listener (.made 0) position]
    wires := [channel]
    listening
    schedule := { ready := [.consumer 0, .publisher 0] } }
  let made : Subscription Sink := { stream := "updates", sink := .channel (.ofCapacity 8) }
  let served : Subscription Sink := { made with phase := .streaming, progress := .receiving }
  let syslog : Notification := { kind := .syslog, data := .null }
  let yang : Notification := { kind := .yang, data := .string "up" }
  let line : String := yang.data.render
  have attended (s : Subscription Sink) (p : Publisher) (position : Nat)
      (listening : List PublisherId) (kept : List Notification)
      (keepsUp : kept.length ≤ position + 4) :
      (gateway s p position listening (channel kept)).IsAttended (.made 0) :=
    isAttended_of_listener rfl keepsUp
  have four : (Channel.ofCapacity 4 : Channel Notification) = channel [] := by
    have power : Nat.nextPowerOfTwo 4 = 4 := by decide +kernel
    rw [Channel.ofCapacity, power]
    rfl
  let fresh : Gateway := { engine := .datastore {}, hub := .ofConfig {} }
  have isFresh : fresh.IsFresh {} :=
    ⟨rfl, rfl, fun channel h => by obtain rfl := Option.some.inj h; rfl⟩
  have subscribed : Run fresh [.subscribed 0] _ := (Run.refl fresh).tail
    (@Step.subscribe _ _ "updates" (.channel (.ofCapacity 8)) 0 rfl)
  have listened : Run fresh [.subscribed 0] (gateway made {} 0 [] (.ofCapacity 4)) :=
    subscribed.tail (.listen _ 4)
  rw [four] at listened
  have begins : Course (.made 0) 0 (gateway made {} 0 [] (channel [])) [] [] []
      (gateway made {} 0 [] (channel [])) := .refl (attended _ _ _ _ _ (by decide))
  have notified : Course (.made 0) 0 (gateway made {} 0 [] (channel [])) [] [syslog, yang] []
      (gateway made {} 0 [] (channel [syslog, yang])) :=
    (begins.tail (@Step.notify _ 0 _ syslog rfl rfl) (attended _ _ _ _ [syslog] (by decide))).tail
      (@Step.notify _ 0 _ yang rfl rfl) (attended _ _ _ _ [syslog, yang] (by decide))
  have began : Course (.made 0) 0 (gateway made {} 0 [] (channel []))
      [.began 0 line [0]] [syslog, yang] []
      (gateway made { current := some { line, targets := [0] } } 2 []
        (channel [syslog, yang])) :=
    (notified.tail (@Step.advance _ (.publisher 0) [0] _ rfl (.refl [0]))
      (attended _ _ 1 _ [syslog, yang] (by decide))).tail
      (@Step.advance _ (.publisher 0) [0] _ rfl (.refl [0]))
      (attended _ _ _ _ [syslog, yang] (by decide))
  have accepted : Course (.made 0) 0 (gateway made {} 0 [] (channel []))
      [.began 0 line [0], .accepted 0 0 line, .completed 0 1] [syslog, yang] []
      (gateway { made with queue := [line] } { counts := [1] } 2 [] (channel [syslog, yang])) :=
    (began.tail (@Step.advance _ (.publisher 0) [0] _ rfl (.refl [0]))
      (attended _ _ _ _ [syslog, yang] (by decide))).tail
      (@Step.advance _ (.publisher 0) [0] _ rfl (.refl [0]))
      (attended _ _ _ _ [syslog, yang] (by decide))
  have waits : Course (.made 0) 0 (gateway made {} 0 [] (channel []))
      [.began 0 line [0], .accepted 0 0 line, .completed 0 1, .started 0] [syslog, yang] []
      (gateway { served with queue := [line] }
        { counts := [1] } 2 [0] (channel [syslog, yang])) :=
    (accepted.tail (@Step.advance _ (.publisher 0) [0] _ rfl (.refl [0]))
      (attended _ _ _ _ [syslog, yang] (by decide))).tail
      (@Step.advance _ (.consumer 0) [0] _ rfl (.refl [0]))
      (attended _ _ _ _ [syslog, yang] (by decide))
  have wrote : Course (.made 0) 0 (gateway made {} 0 [] (channel []))
      [.began 0 line [0], .accepted 0 0 line, .completed 0 1, .started 0, .took 0 line,
        .wrote 0 line] [syslog, yang] [line ++ lineTerminator]
      (gateway
        { served with sink := .channel { capacity := 8, chunks := [line ++ lineTerminator] } }
        { counts := [1] } 2 [0] (channel [syslog, yang])) :=
    (waits.tail (@Step.advance _ (.consumer 0) [0] _ rfl (.refl [0]))
      (attended _ _ _ _ [syslog, yang] (by decide))).tail
      (@Step.advance _ (.consumer 0) [0] _ rfl (.refl [0]))
      (attended _ _ _ _ [syslog, yang] (by decide))
  refine ⟨_, _, _, _, _, wrote,
    wrote.isRelayed isFresh rfl listened rfl ⟨rfl, rfl⟩ List.mem_cons_self, ?_, rfl, rfl, rfl⟩
  intro runner
  match runner with
  | .consumer 0 => rfl
  | .consumer (_ + 1) => rfl
  | .publisher 0 => rfl
  | .publisher (_ + 1) => rfl

end Gateway

end Restconf
