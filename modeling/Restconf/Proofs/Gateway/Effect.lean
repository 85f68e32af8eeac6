import Restconf.Gateway.Run
import Restconf.Proofs.Engine.Stream
import Restconf.Proofs.Hub.Isolation

/-!
# What a step of the gateway can be

A gateway is a hub with publishers that take their lines from feeds, some of them from channels. Its
steps are taken apart here once: what a step does to the hub, to the feeds and to a channel. The
schedule does not appear, since nothing of this depends on it.

## The hub inside

What happens in the hub of a gateway is a run of the hub, so all that is known of hubs holds there.
The converse is not true: in a hub a publisher may begin any line at any time, and in a gateway only
the next one of its feed. That is what `Gateway.Effect` adds.

## Main definitions

* `Gateway.Fetched` — what a publisher finds in its feed, and what is left of the feed
* `Gateway.Effect` — what a step does
* `Gateway.IsSound` — every publisher has a feed, and the channel of the engine is open

## Main results

* `Gateway.Step.effect` — every step does one of these things
* `Gateway.Run.hub` — a run of the gateway is a run of its hub
-/

namespace Restconf

namespace Gateway

variable {g next start : Gateway} {event : Option HubEvent} {events : List HubEvent} {wire : Wire}
  {p : PublisherId} {targets : List SubscriptionId}

/-! ### Feeds -/

/-- What a publisher finds in its feed: the feed, what is left of it, and the line that the
publisher begins, if it begins one. -/
inductive Fetched (g : Gateway) : Feed → Feed → Option String → Prop where
  | done : Fetched g (.documents []) .finished none
  | document (line : String) (rest : List String) :
    Fetched g (.documents (line :: rest)) (.documents rest) (some line)
  | yang {wire : Wire} {position : Nat} {notification : Notification}
    (found : (g.channel wire).receive position = .item notification)
    (kind : notification.kind = .yang) :
    Fetched g (.listener wire position) (.listener wire (position + 1))
      (some notification.data.render)
  | other {wire : Wire} {position : Nat} {notification : Notification}
    (found : (g.channel wire).receive position = .item notification)
    (kind : notification.kind ≠ .yang) :
    Fetched g (.listener wire position) (.listener wire (position + 1)) none
  | lagged {wire : Wire} {position oldest : Nat}
    (found : (g.channel wire).receive position = .lagged oldest) :
    Fetched g (.listener wire position) (.listener wire oldest) none
  | closed {wire : Wire} {position : Nat}
    (found : (g.channel wire).receive position = .closed) :
    Fetched g (.listener wire position) .finished none

/-! ### What a step does -/

/-- What a step does to the hub, to the feeds and to a channel. -/
inductive Effect (wire : Wire) (g next : Gateway) : Option HubEvent → Prop where
  /-- Something happens in the hub, but no line is begun. -/
  | hub {event : Option HubEvent} (step : Hub.Step g.hub event next.hub)
    (quiet : ∀ e ∈ event, e.isBeginning = false)
    (publishers : next.hub.publishers.length = g.hub.publishers.length)
    (feeds : next.feeds = g.feeds) (channel : next.channel wire = g.channel wire) :
    Effect wire g next event
  /-- Nothing that matters here. -/
  | idle (hub : next.hub = g.hub) (feeds : next.feeds = g.feeds)
    (channel : next.channel wire = g.channel wire) : Effect wire g next none
  /-- A publisher comes with its feed, and maybe the channel as well. -/
  | spawned (feed : Feed) (hub : next.hub = g.hub.addPublisher.2)
    (feeds : next.feeds = g.feeds ++ [feed])
    (channel : next.channel wire = g.channel wire
      ∨ ∃ capacity, next.channel wire = .ofCapacity capacity) : Effect wire g next none
  /-- A notification is sent. -/
  | sent (notification : Notification) (isOpen : (g.channel wire).isClosed = false)
    (hub : next.hub = g.hub) (feeds : next.feeds = g.feeds)
    (channel : next.channel wire = (g.channel wire).send notification) : Effect wire g next none
  /-- The channel is closed. -/
  | closed (hub : next.hub = g.hub) (feeds : next.feeds = g.feeds)
    (channel : next.channel wire = (g.channel wire).close) : Effect wire g next none
  /-- A publisher looks into its feed and begins no line. -/
  | fetched {p : PublisherId} {before after : Feed} (feed : g.feeds[p]? = some before)
    (h : g.Fetched before after none) (hub : next.hub = g.hub)
    (feeds : next.feeds = g.feeds.set p after) (channel : next.channel wire = g.channel wire) :
    Effect wire g next none
  /-- A publisher begins a line of its feed, for the registered subscriptions in some order. -/
  | began {p : PublisherId} {before after : Feed} {line : String} {targets : List SubscriptionId}
    (feed : g.feeds[p]? = some before) (h : g.Fetched before after (some line))
    (order : targets.Perm g.hub.registry)
    (step : Hub.Step g.hub (some (.began p line targets)) next.hub)
    (publishers : next.hub.publishers.length = g.hub.publishers.length)
    (feeds : next.feeds = g.feeds.set p after) (channel : next.channel wire = g.channel wire) :
    Effect wire g next (some (.began p line targets))

/-- Every publisher has a feed, and the channel of the engine is open. -/
structure IsSound (g : Gateway) : Prop where
  matched : g.feeds.length = g.hub.publishers.length
  announces : ∀ channel ∈ g.engine.announcements?, channel.isClosed = false

/-! ### Inside the hub -/

/-- Steps that show something bring no publishers. -/
theorem length_publishers {hub next : Hub Sink} {e : HubEvent} (h : Hub.Move hub (some e) next) :
    next.publishers.length = hub.publishers.length := by
  cases h <;> simp [Hub.publishTo, Hub.accept, Hub.forget, Hub.passTarget, Hub.enqueue,
    Hub.finishLine, Hub.updatePublisher, Hub.update, Hub.dequeue, Hub.stop, Hub.release]

/-- A task inside the hub shows something, and begins no line. -/
theorem advance_shows {hub : Hub Sink} {runner : Runner} {stepped : Stepped Sink}
    (h : hub.advance runner = some stepped) :
    ∃ e, stepped.event = some e ∧ e.isBeginning = false := by
  cases runner with
  | consumer id =>
    obtain ⟨e, hevent, hconsumer⟩ := Hub.consume_shows h
    exact ⟨e, hevent, e.isBeginning_of_consumer? hconsumer⟩
  | publisher p =>
    obtain ⟨e, hevent, hbegins, -⟩ := Hub.visit_shows h
    exact ⟨e, hevent, hbegins⟩

theorem Effect.of_advance {runner : Runner} {stepped : Stepped Sink}
    (h : g.hub.advance runner = some stepped) :
    Effect wire g (g.moved stepped).gateway (g.moved stepped).event := by
  obtain ⟨e, hevent, hbegins⟩ := advance_shows h
  have step : Hub.Step g.hub stepped.event stepped.hub := .advance h
  refine .hub step ?_ ?_ rfl rfl
  · intro other hother
    rw [Option.mem_def] at hother
    rw [Option.some.inj (hother.symm.trans hevent)]
    exact hbegins
  · rw [hevent] at step
    exact length_publishers step.move

/-! ### Steps -/

theorem channel_congr (engine : next.engine = g.engine) (wires : next.wires = g.wires) :
    next.channel wire = g.channel wire := by
  cases wire with
  | engine => rw [channel, channel, engine]
  | made => rw [channel, channel, wires]

/-- A publisher looks into its feed: it goes on there and begins a line if it has found one, or it
begins to wait. -/
theorem fetch_cases {moved : Moved} (h : g.fetch p targets = some moved) :
    (∃ before after, g.feeds[p]? = some before ∧ g.Fetched before after none
        ∧ moved = { gateway := g.setFeed p after })
      ∨ (∃ before after line, g.feeds[p]? = some before ∧ g.Fetched before after (some line)
        ∧ moved = (g.setFeed p after).moved (g.hub.publishTo p line targets))
      ∨ moved = { gateway := { g with listening := g.listening ++ [p] }, waits := true } := by
  rw [fetch] at h
  split at h
  · next feed => exact Or.inl ⟨_, _, feed, .done, (Option.some.inj h).symm⟩
  · next line rest feed =>
    exact Or.inr (Or.inl ⟨_, _, line, feed, .document line rest, (Option.some.inj h).symm⟩)
  · next wire position feed =>
    split at h
    · next notification found =>
      simp only [Option.some.injEq] at h
      split at h
      · next kind => exact Or.inr (Or.inl ⟨_, _, _, feed, .yang found kind, h.symm⟩)
      · next kind => exact Or.inl ⟨_, _, feed, .other found kind, h.symm⟩
    · next oldest found => exact Or.inl ⟨_, _, feed, .lagged found, (Option.some.inj h).symm⟩
    · next found => exact Or.inl ⟨_, _, feed, .closed found, (Option.some.inj h).symm⟩
    · split at h
      · cases h
      · exact Or.inr (Or.inr (Option.some.inj h).symm)
  · cases h
  · cases h

theorem Effect.of_fetch {moved : Moved} (h : g.fetch p targets = some moved)
    (order : targets.Perm g.hub.registry) {publisher : Publisher}
    (found : g.hub.publishers[p]? = some publisher) (idle : publisher.current = none) :
    Effect wire g moved.gateway moved.event := by
  rcases fetch_cases h with ⟨before, after, feed, fetched, rfl⟩
    | ⟨before, after, line, feed, fetched, rfl⟩ | rfl
  · exact .fetched feed fetched rfl rfl (channel_congr rfl rfl)
  · have begins : Hub.Step g.hub (some (.began p line targets))
        (g.hub.publishTo p line targets).hub := .publish line found idle order
    exact .began feed fetched order begins (length_publishers begins.move) rfl
      (channel_congr rfl rfl)
  · exact .idle rfl rfl (channel_congr rfl rfl)

/-- What a request does to the channel of an engine: nothing, or it is announced. -/
theorem announcements?_execute (engine : Engine) (request : Request) :
    (TreeEngine.execute engine request).2.announcements? = engine.announcements?
      ∨ ∃ channel notification, engine.announcements? = some channel
        ∧ (TreeEngine.execute engine request).2.announcements?
          = some (channel.send notification) := by
  cases engine with
  | scripted script => exact Or.inl rfl
  | datastore store =>
    obtain ⟨operation, identifier, payload⟩ := request
    cases operation with
    | query => exact Or.inl rfl
    | edit intent =>
      simp only [TreeEngine.execute]
      cases hcommit : store.commit intent identifier payload with
      | error fault => exact Or.inl rfl
      | ok changed =>
        obtain ⟨after, -, hstore⟩ := bind_eq_ok_iff.mp hcommit
        obtain rfl := Except.ok.inj hstore
        exact Or.inr ⟨_, _, rfl, rfl⟩

/-- A request changes the engine only. -/
theorem execute_eq (g : Gateway) (request : Request) :
    (g.execute request).2.hub = g.hub ∧ (g.execute request).2.feeds = g.feeds
      ∧ (g.execute request).2.wires = g.wires
      ∧ (g.execute request).2.engine = (TreeEngine.execute g.engine request).2 := by
  simp only [execute, withEngine]
  split <;> exact ⟨rfl, rfl, rfl, rfl⟩

/-- A change of one of the channels that were made. Where there is no such channel, the change must
be none of a closed one. -/
theorem channel_modify {number : Nat} (f : Channel Notification → Channel Notification)
    (found : (∃ made, g.wires[number]? = some made)
      ∨ f { capacity := 1, isClosed := true } = { capacity := 1, isClosed := true })
    (engine : next.engine = g.engine) (wires : next.wires = g.wires.modify number f) (wire : Wire) :
    next.channel wire
      = if wire = .made number then f (g.channel wire) else g.channel wire := by
  cases wire with
  | engine => rw [channel, channel, engine, if_neg (by simp)]
  | made other =>
    rw [channel, channel, wires, List.getElem?_modify]
    by_cases h : number = other
    · subst h
      rw [if_pos rfl]
      cases hmade : g.wires[number]? with
      | some made => simp
      | none => simpa [hmade] using (found.resolve_left (by simp [hmade])).symm
    · rw [if_neg (by simpa using Ne.symm h)]
      simp [h]

/-- A channel that is made is new or stands where there was none. -/
theorem channel_append (capacity : Nat) (engine : next.engine = g.engine)
    (wires : next.wires = g.wires ++ [Channel.ofCapacity capacity]) :
    next.channel wire = g.channel wire ∨ ∃ capacity, next.channel wire = .ofCapacity capacity := by
  cases wire with
  | engine => exact Or.inl (by rw [channel, channel, engine])
  | made number =>
    rw [channel, channel, wires]
    rcases Nat.lt_trichotomy number g.wires.length with before | rfl | behind
    · exact Or.inl (by rw [List.getElem?_append_left before])
    · exact Or.inr ⟨capacity, by rw [List.getElem?_concat_length, Option.getD_some]⟩
    · have longer : (g.wires ++ [Channel.ofCapacity capacity]).length ≤ number := by
        rw [List.length_append, List.length_singleton]
        omega
      exact Or.inl (by rw [List.getElem?_eq_none longer, List.getElem?_eq_none (by omega)])

/-- A task takes its next step in the hub, or it is a publisher that has no line under way and looks
into its feed. -/
theorem advance_cases {runner : Runner} {moved : Moved}
    (h : g.advance runner targets = some moved) :
    (∃ stepped, g.hub.advance runner = some stepped ∧ g.moved stepped = moved)
      ∨ ∃ p, runner = .publisher p ∧ g.hub.publishers[p]?.bind Publisher.current = none
        ∧ g.fetch p targets = some moved := by
  unfold advance at h
  split at h
  · next stepped hstepped => exact Or.inl ⟨stepped, hstepped, Option.some.inj h⟩
  · cases h
  · next p _ =>
    split at h
    · cases h
    · next idle => exact Or.inr ⟨p, rfl, by simpa using idle, h⟩

/-- A task that can take no step can take none in the hub. -/
theorem hub_advance_eq_none {runner : Runner} (h : g.advance runner targets = none) :
    g.hub.advance runner = none := by
  cases hadvance : g.hub.advance runner with
  | none => rfl
  | some stepped => simp [advance, hadvance] at h

/-- A subscription is made in the hub. -/
theorem subscribe_eq_ok {stream : String} {sink : Sink} {id : SubscriptionId}
    (h : g.subscribe stream sink = .ok (id, next)) :
    ∃ stepped, g.hub.subscribe stream sink = .ok (id, stepped) ∧ next = g.follow stepped := by
  unfold subscribe at h
  split at h
  · next made stepped hsubscribe =>
    obtain ⟨rfl, rfl⟩ := Prod.mk.inj (Except.ok.inj h)
    exact ⟨stepped, hsubscribe, rfl⟩
  · cases h
  · cases h

/-- **What a step does.** -/
theorem Step.effect (h : Step g event next) (sound : g.IsSound) (wire : Wire) :
    Effect wire g next event := by
  cases h with
  | advance h order =>
    rcases advance_cases h with ⟨stepped, hstepped, rfl⟩ | ⟨p, rfl, idle, hfetch⟩
    · exact .of_advance hstepped
    · -- whoever has a feed is a publisher of the hub
      have hfeed : p < g.feeds.length := by
        refine Nat.lt_of_not_le fun hle => ?_
        simp [fetch, List.getElem?_eq_none hle] at hfetch
      have found := List.getElem?_eq_getElem (sound.matched ▸ hfeed)
      exact .of_fetch hfetch order found (by rwa [found, Option.bind_some] at idle)
  | subscribe h =>
    obtain ⟨stepped, hsubscribe, rfl⟩ := subscribe_eq_ok h
    have step : Hub.Step g.hub stepped.event stepped.hub := .subscribe hsubscribe
    rw [(Hub.subscribe_shows hsubscribe).1] at step
    refine .hub step ?_ (length_publishers step.move) rfl (channel_congr rfl rfl)
    intro e he
    obtain rfl := Option.some.inj he
    rfl
  | reader found far =>
    exact .hub (.touchSink found far) (fun _ h => by cases h) rfl rfl (channel_congr rfl rfl)
  | publishAll documents =>
    exact .spawned (.documents (documents.map Json.render)) rfl rfl (Or.inl (channel_congr rfl rfl))
  | bridge =>
    rw [Gateway.bridge]
    cases g.engine.announcements? with
    | none => exact .idle rfl rfl rfl
    | some channel =>
      exact .spawned (.listener .engine channel.sent) rfl rfl (Or.inl (channel_congr rfl rfl))
  | listen capacity =>
    exact .spawned (.listener (.made g.wires.length) 0) rfl rfl (channel_append capacity rfl rfl)
  | @notify number made notification found isOpen =>
    have channel : (g.notify number notification).2.channel wire
        = if wire = .made number then (g.channel wire).send notification else g.channel wire := by
      apply channel_modify (·.send notification) (Or.inl ⟨made, found⟩) <;> rfl
    split at channel
    · next here =>
      have hmade : g.channel wire = made := by rw [here, Gateway.channel, found, Option.getD_some]
      exact .sent notification (by rw [hmade, isOpen]) rfl rfl channel
    · exact .idle rfl rfl channel
  | closeWire number =>
    have channel : (g.closeWire number).channel wire
        = if wire = .made number then (g.channel wire).close else g.channel wire := by
      apply channel_modify Channel.close (Or.inr rfl) <;> rfl
    split at channel
    · exact .closed rfl rfl channel
    · exact .idle rfl rfl channel
  | execute request =>
    obtain ⟨hub, feeds, wires, engine⟩ := g.execute_eq request
    cases wire with
    | made number => exact .idle hub feeds (by rw [Gateway.channel, Gateway.channel, wires])
    | engine =>
      rcases announcements?_execute g.engine request with same | ⟨channel, notification, had, has⟩
      · exact .idle hub feeds (by rw [Gateway.channel, Gateway.channel, engine, same])
      · have hchannel : g.channel .engine = channel := by rw [Gateway.channel, had]; rfl
        refine .sent notification (hchannel ▸ sound.announces channel had) hub feeds ?_
        rw [hchannel, Gateway.channel, engine, has]
        rfl
  | shutdown =>
    refine .hub (.shutdown g.hub) ?_ rfl rfl (channel_congr rfl rfl)
    intro e he
    obtain rfl := Option.some.inj he
    rfl
  | reschedule => exact .idle rfl rfl (channel_congr rfl rfl)

/-! ### Runs -/

/-- Only requests change the engine. -/
theorem Step.engine (h : Step g event next) : next.engine = g.engine
    ∨ ∃ request, next.engine = (TreeEngine.execute g.engine request).2 := by
  cases h with
  | advance h =>
    rcases advance_cases h with ⟨stepped, -, rfl⟩ | ⟨p, -, -, hfetch⟩
    · exact Or.inl rfl
    · rcases fetch_cases hfetch with ⟨_, _, _, _, rfl⟩ | ⟨_, _, _, _, _, rfl⟩ | rfl
      all_goals exact Or.inl rfl
  | subscribe h =>
    obtain ⟨stepped, -, rfl⟩ := subscribe_eq_ok h
    exact Or.inl rfl
  | bridge =>
    rw [Gateway.bridge]
    split <;> exact Or.inl rfl
  | execute request => exact Or.inr ⟨request, (g.execute_eq request).2.2.2⟩
  | _ => exact Or.inl rfl

theorem Step.isSound (h : Step g event next) (sound : g.IsSound) : next.IsSound where
  matched := by
    cases h.effect sound .engine with
    | hub _ _ publishers feeds => rw [feeds, publishers, sound.matched]
    | idle hub feeds | sent _ _ hub feeds | closed hub feeds => rw [feeds, hub, sound.matched]
    | spawned _ hub feeds => simp [feeds, hub, Hub.addPublisher, sound.matched]
    | fetched _ _ hub feeds => rw [feeds, hub, List.length_set, sound.matched]
    | began _ _ _ _ publishers feeds => rw [feeds, publishers, List.length_set, sound.matched]
  announces := by
    intro channel hchannel
    rcases h.engine with same | ⟨request, changed⟩
    · exact sound.announces channel (same ▸ hchannel)
    · rw [changed] at hchannel
      rcases announcements?_execute g.engine request with same | ⟨earlier, notification, had, has⟩
      · exact sound.announces channel (same ▸ hchannel)
      · obtain rfl := Option.some.inj (has.symm.trans hchannel)
        exact sound.announces earlier had

theorem Run.isSound (h : Run start events g) (sound : start.IsSound) : g.IsSound := by
  induction h with
  | refl => exact sound
  | tail _ step ih => exact step.isSound ih

/-- **What happens in the hub of a gateway is a run of the hub.** -/
theorem Run.hub (h : Run start events g) (sound : start.IsSound) :
    Hub.Run start.hub events g.hub := by
  induction h with
  | refl => exact .refl _
  | @tail b c events event h step ih =>
    cases step.effect (h.isSound sound) .engine with
    | hub inner => exact ih.tail inner
    | idle hub | sent _ _ hub | closed hub | fetched _ _ hub => simpa [hub] using ih
    | spawned _ hub => exact hub ▸ ih.tail (.addPublisher b.hub)
    | began _ _ _ inner => exact ih.tail inner

end Gateway

end Restconf
