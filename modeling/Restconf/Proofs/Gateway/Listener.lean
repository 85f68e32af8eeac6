import Restconf.Proofs.Gateway.Effect
import Restconf.Proofs.Hub.Ledger

/-!
# A listener that keeps up

A listener takes the notifications of a channel one after another, and begins a line for each of
the kind `yang`. It takes none while a line is under way, and meanwhile the channel goes on. What is
said here is about a gateway in which one listener is the only publisher and never falls behind by
more than the channel keeps, at any moment.

## What the condition is needed for

A channel keeps its newest items only. A listener that has fallen behind goes on at the oldest of
them, and nothing tells how many it has missed. As long as what it has still to receive is kept, the
item at its position is the next one of the stream, and when it comes to the end of the stream it
has received all of it.

## Main definitions

* `linesOf` — the lines that a listener begins for notifications
* `Gateway.IsFresh`, `Gateway.IsAttended` — how a run begins, and the condition on its moments
* `Gateway.Course` — a run on which the condition holds at every moment
* `Gateway.Relays` — the listener beside what was sent and what it has begun

## Main results

* `Gateway.Course.relays` — it has begun the lines of what it has received, and no others
* `Gateway.Relays.complete` — where it can go no further, it has received everything
-/

namespace Restconf

/-- The lines that a listener begins for notifications: their documents, those of one kind only. -/
def linesOf (notifications : List Notification) : List String :=
  (notifications.filter (·.kind = .yang)).map (·.data.render)

/-- The next notification adds its line if it is of the kind that is relayed, and nothing else. -/
theorem linesOf_take_succ {notifications : List Notification} {position : Nat}
    {notification : Notification} (h : notifications[position]? = some notification) :
    linesOf (notifications.take (position + 1)) = linesOf (notifications.take position)
      ++ if notification.kind = .yang then [notification.data.render] else [] := by
  rw [List.take_add_one, h, Option.toList_some, linesOf, List.filter_append, List.map_append]
  by_cases kind : notification.kind = .yang <;> simp [kind, linesOf]

namespace Gateway

open Ledger

variable {g next start : Gateway} {event : Option HubEvent} {prior events : List HubEvent}
  {wire : Wire} {sent : List Notification} {id : SubscriptionId} {given : List String}

/-! ### Runs with a listener -/

/-- A gateway in which nothing has happened yet. -/
structure IsFresh (config : HubConfig) (g : Gateway) : Prop where
  hub : g.hub = .ofConfig config
  feeds : g.feeds = []
  announces : ∀ channel ∈ g.engine.announcements?, channel.isClosed = false

/-- There is one publisher. As long as it listens to the channel, what it has still to receive is
not more than the channel keeps. -/
structure IsAttended (wire : Wire) (g : Gateway) : Prop where
  only : g.feeds.length = 1
  keepsUp : ∀ position, g.feeds[0]? = some (.listener wire position) →
    (g.channel wire).sent ≤ position + (g.channel wire).capacity

theorem isAttended_of_listener {position : Nat} (h : g.feeds = [.listener wire position])
    (keepsUp : (g.channel wire).sent ≤ position + (g.channel wire).capacity) :
    g.IsAttended wire where
  only := by rw [h]; rfl
  keepsUp other hother := by
    rw [h] at hother
    obtain ⟨-, rfl⟩ := Feed.listener.inj (Option.some.inj hother)
    exact keepsUp

/-- The notifications that are sent on a channel in a step: those that a listener who had received
all of the earlier ones finds there. -/
def sentIn (wire : Wire) (g next : Gateway) : List Notification :=
  (next.channel wire).since (g.channel wire).sent

/-- The chunks that a step puts on the channel of a subscription: those behind the earlier ones. -/
def givenIn (id : SubscriptionId) (g next : Gateway) : List String :=
  match g.sink? id, next.sink? id with
  | some (.channel before), some (.channel after) => after.chunks.drop before.chunks.length
  | _, _ => []

/-- A run with an attended channel at every moment: what it shows of the hub, what is sent on the
channel, and what a subscription is given. -/
inductive Course (wire : Wire) (id : SubscriptionId) (start : Gateway) :
    List HubEvent → List Notification → List String → Gateway → Prop where
  | refl (attended : start.IsAttended wire) : Course wire id start [] [] [] start
  | tail {g next : Gateway} {events : List HubEvent} {sent : List Notification}
    {given : List String} {event : Option HubEvent} (h : Course wire id start events sent given g)
    (step : Step g event next) (attended : next.IsAttended wire) :
    Course wire id start (events ++ event.toList) (sent ++ sentIn wire g next)
      (given ++ givenIn id g next) next

theorem Course.run (h : Course wire id start events sent given g) : Run start events g := by
  induction h with
  | refl => exact .refl _
  | tail _ step _ ih => exact ih.tail step

theorem Course.attended (h : Course wire id start events sent given g) : g.IsAttended wire := by
  cases h with
  | refl attended => exact attended
  | tail _ _ attended => exact attended

theorem IsFresh.isSound {config : HubConfig} (h : g.IsFresh config) : g.IsSound where
  matched := by rw [h.feeds, h.hub]; rfl
  announces := h.announces

/-! ### Before the first notification -/

/-- A publisher that has looked into its feed does not listen from the first notification on. -/
theorem Fetched.ne_first {before after : Feed} {line : Option String}
    (h : g.Fetched before after line) : after ≠ .listener wire 0 := by
  cases h with
  | @lagged own position oldest found =>
    rw [Channel.receive] at found
    split at found
    · next behind =>
      obtain rfl := Reception.lagged.inj found
      simpa using fun _ => Nat.ne_of_gt (Nat.zero_lt_of_lt behind)
    · split at found
      · cases found
      · split at found <;> cases found
  | _ => simp

/-- What is left in a single feed that has been looked into. -/
theorem eq_of_set_eq {feeds : List Feed} {p : PublisherId} {before after only : Feed}
    (found : feeds[p]? = some before) (h : feeds.set p after = [only]) : after = only := by
  have single : feeds.length = 1 := by simpa using congrArg List.length h
  obtain ⟨feed, rfl⟩ := List.length_eq_one_iff.mp single
  obtain rfl : p = 0 := Nat.lt_one_iff.mp (List.getElem?_eq_some_iff.mp found).1
  exact List.head_eq_of_cons_eq h

/-- **Before a listener has looked into its feed, no publisher begins a line, if there is no
other.** -/
theorem Run.silent {config : HubConfig} {fresh : Gateway} (h : Run fresh prior start)
    (begins : fresh.IsFresh config) (attached : start.feeds = [.listener wire 0]) :
    ∀ e ∈ prior, e.isBeginning = false := by
  -- feeds only become more and go on, so at any moment before there was no feed, or this one
  suffices early : start.feeds = [] ∨ start.feeds = [.listener wire 0] →
      ∀ e ∈ prior, e.isBeginning = false from early (Or.inr attached)
  clear attached
  induction h with
  | refl => exact fun _ _ he => absurd he List.not_mem_nil
  | @tail b c events event h step ih =>
    intro early
    have unlooked {p : PublisherId} {before after : Feed} {line : Option String}
        (feed : b.feeds[p]? = some before) (fetched : b.Fetched before after line)
        (feeds : c.feeds = b.feeds.set p after) : False := by
      rw [feeds] at early
      rcases early with hnil | hone
      · have hnone : b.feeds = [] := by simpa using hnil
        rw [hnone] at feed
        cases feed
      · exact fetched.ne_first (eq_of_set_eq feed hone)
    cases step.effect (h.isSound begins.isSound) wire with
    | hub _ quiet _ feeds =>
      intro e he
      rcases List.mem_append.mp he with hold | hnew
      · exact ih (feeds ▸ early) e hold
      · exact quiet e (Option.mem_toList.mp hnew)
    | idle _ feeds | sent _ _ _ feeds | closed _ feeds => simpa using ih (feeds ▸ early)
    | spawned feed _ feeds =>
      rw [feeds] at early
      have hnone : b.feeds = [] := by
        rcases early with hnil | hone
        · simp at hnil
        · simpa using congrArg List.length hone
      simpa using ih (Or.inl hnone)
    | fetched feed fetched _ feeds => exact (unlooked feed fetched feeds).elim
    | began feed fetched _ _ _ feeds => exact (unlooked feed fetched feeds).elim

/-! ### What has been received -/

/-- The feed of a listener that has received so many notifications: it is at the next one, or it has
come to the end of a channel that is closed. -/
def FeedAt (wire : Wire) (sent : List Notification) (received : Nat) (isClosed : Bool) :
    Feed → Prop
  | .listener own position => own = wire ∧ position = received
  | .finished => received = sent.length ∧ isClosed = true
  | .documents _ => False

/-- A listener that has received so many notifications, beside what was sent on its channel and what
has been begun. -/
structure Relays (wire : Wire) (events : List HubEvent) (sent : List Notification) (received : Nat)
    (g : Gateway) : Prop where
  carries : (g.channel wire).Carries sent
  listens : ∃ feed, g.feeds = [feed]
    ∧ FeedAt wire sent received (g.channel wire).isClosed feed
  bounded : received ≤ sent.length
  /-- All lines are its own. -/
  sole : ∀ broadcast ∈ (ofEvents events).broadcasts, broadcast.publisher = 0
  /-- They are those of the notifications that it has received, in their order. -/
  begun : (ofEvents events).broadcasts.map Broadcast.line = linesOf (sent.take received)

theorem broadcasts_eq_of_quiet (ledger : Ledger) (quiet : ∀ e ∈ event, e.isBeginning = false) :
    (ledger.after event).broadcasts = ledger.broadcasts := by
  cases event with
  | none => rfl
  | some e =>
    have begins := quiet e rfl
    cases e with
    | began => cases begins
    | _ => rfl

/-- On a channel that does not change, or is closed, nothing is sent. -/
theorem sentIn_eq_nil (carries : (g.channel wire).Carries sent)
    (channel : next.channel wire = g.channel wire ∨ next.channel wire = (g.channel wire).close) :
    sentIn wire g next = [] := by
  have nothing : (g.channel wire).since (g.channel wire).sent = [] := by
    rw [carries.since_eq (by rw [carries.sent]; omega), carries.sent, List.drop_length]
  rcases channel with same | closed
  · rw [sentIn, same, nothing]
  · rw [sentIn, closed]
    exact nothing

/-- **What a listener that keeps up finds when it looks into its feed is the next notification that
was sent, or the end of its channel.** -/
theorem Fetched.feedAt {before after : Feed} {line : Option String} {received : Nat}
    (h : g.Fetched before after line) (carries : (g.channel wire).Carries sent)
    (listens : FeedAt wire sent received (g.channel wire).isClosed before)
    (bounded : received ≤ sent.length)
    (keepsUp : sent.length ≤ received + (g.channel wire).capacity) :
    ∃ behind ≤ sent.length, FeedAt wire sent behind (g.channel wire).isClosed after
      ∧ linesOf (sent.take behind) = linesOf (sent.take received) ++ line.toList := by
  have received_of_item {notification : Notification}
      (found : (g.channel wire).receive received = .item notification) :
      sent[received]? = some notification := by
    rw [carries.receive_of_keepsUp keepsUp] at found
    split at found
    · next value hvalue => rw [hvalue, Reception.item.inj found]
    · split at found <;> cases found
  cases h with
  | done | document => exact listens.elim
  | yang found kind =>
    obtain ⟨rfl, rfl⟩ := listens
    have hnext := received_of_item found
    refine ⟨_, (List.getElem?_eq_some_iff.mp hnext).1, ⟨rfl, rfl⟩, ?_⟩
    rw [linesOf_take_succ hnext, if_pos kind]
    rfl
  | other found kind =>
    obtain ⟨rfl, rfl⟩ := listens
    have hnext := received_of_item found
    refine ⟨_, (List.getElem?_eq_some_iff.mp hnext).1, ⟨rfl, rfl⟩, ?_⟩
    rw [linesOf_take_succ hnext, if_neg kind]
    rfl
  | lagged found =>
    obtain ⟨rfl, rfl⟩ := listens
    rw [carries.receive_of_keepsUp keepsUp] at found
    split at found
    · cases found
    · split at found <;> cases found
  | closed found =>
    obtain ⟨rfl, rfl⟩ := listens
    rw [carries.receive_of_keepsUp keepsUp] at found
    split at found
    · cases found
    · next hnone =>
      split at found
      · next isClosed =>
        have hend := Nat.le_antisymm bounded (List.getElem?_eq_none_iff.mp hnone)
        exact ⟨_, bounded, ⟨hend, isClosed⟩, (List.append_nil _).symm⟩
      · cases found

/-! ### Steps -/

/-- Nothing changes for a listener while nobody looks into its feed and nothing is sent. -/
theorem Relays.keep {received : Nat} (h : Relays wire events sent received g)
    (feeds : next.feeds = g.feeds)
    (channel : next.channel wire = g.channel wire ∨ next.channel wire = (g.channel wire).close)
    (quiet : ∀ e ∈ event, e.isBeginning = false) :
    Relays wire (events ++ event.toList) (sent ++ sentIn wire g next) received next := by
  rw [sentIn_eq_nil h.carries channel, List.append_nil]
  refine {
    carries := ?_
    listens := ?_
    bounded := h.bounded
    sole := ?_
    begun := ?_ }
  · rcases channel with same | closed
    · exact same ▸ h.carries
    · exact closed ▸ h.carries.close
  · obtain ⟨feed, hfeed, feedAt⟩ := h.listens
    refine ⟨feed, feeds.trans hfeed, ?_⟩
    rcases channel with same | closed
    · exact same ▸ feedAt
    · cases feed with
      | documents => exact feedAt
      | listener => exact feedAt
      | finished => exact ⟨feedAt.1, by rw [closed]; rfl⟩
  · rw [ofEvents_append, broadcasts_eq_of_quiet _ quiet]
    exact h.sole
  · rw [ofEvents_append, broadcasts_eq_of_quiet _ quiet]
    exact h.begun

/-- A notification that is sent waits for the listener, which is there. -/
theorem Relays.send {received : Nat} (h : Relays wire events sent received g)
    (notification : Notification) (isOpen : (g.channel wire).isClosed = false)
    (feeds : next.feeds = g.feeds)
    (channel : next.channel wire = (g.channel wire).send notification)
    (attended : next.IsAttended wire) :
    Relays wire events (sent ++ sentIn wire g next) received next := by
  obtain ⟨feed, hfeed, feedAt⟩ := h.listens
  have hbounded := h.bounded
  have carries : (next.channel wire).Carries (sent ++ [notification]) :=
    channel ▸ h.carries.send notification
  have listening : feed = .listener wire received := by
    cases feed with
    | documents => exact feedAt.elim
    | listener => rw [feedAt.1, feedAt.2]
    | finished => exact absurd (isOpen.symm.trans feedAt.2) Bool.false_ne_true
  have keepsUp := attended.keepsUp received (by rw [feeds, hfeed, listening]; rfl)
  rw [carries.sent, List.length_append, List.length_singleton] at keepsUp
  -- the channel has room for it, since the listener has not fallen behind by it
  have hsent : sentIn wire g next = [notification] := by
    rw [sentIn, h.carries.sent, carries.since_eq, List.drop_left]
    rw [List.length_append, List.length_singleton]
    omega
  rw [hsent]
  refine {
    carries
    listens := ⟨feed, feeds.trans hfeed, by rw [listening]; exact ⟨rfl, rfl⟩⟩
    bounded := by rw [List.length_append]; omega
    sole := h.sole
    begun := by rw [List.take_append_of_le_length hbounded]; exact h.begun }

/-- Only the listener looks into a feed, and it goes on to the next notification. -/
theorem Relays.look {received : Nat} {p : PublisherId} {earlier later : Feed} {line : Option String}
    (h : Relays wire events sent received g) (attended : g.IsAttended wire)
    (found : g.feeds[p]? = some earlier) (fetched : g.Fetched earlier later line)
    (channel : next.channel wire = g.channel wire) :
    p = 0 ∧ g.feeds.set p later = [later] ∧ ∃ behind ≤ sent.length,
      FeedAt wire sent behind (next.channel wire).isClosed later
        ∧ linesOf (sent.take behind) = linesOf (sent.take received) ++ line.toList := by
  obtain ⟨feed, hfeed, feedAt⟩ := h.listens
  rw [hfeed] at found ⊢
  obtain rfl : p = 0 := Nat.lt_one_iff.mp (List.getElem?_eq_some_iff.mp found).1
  obtain rfl := Option.some.inj found
  refine ⟨rfl, rfl, ?_⟩
  rw [channel]
  cases feed with
  | documents => exact feedAt.elim
  | finished => cases fetched
  | listener own position =>
    obtain ⟨rfl, rfl⟩ := feedAt
    have keepsUp := attended.keepsUp position (by rw [hfeed]; rfl)
    rw [h.carries.sent] at keepsUp
    exact fetched.feedAt h.carries ⟨rfl, rfl⟩ h.bounded keepsUp

/-- **What a step does to a listener that keeps up.** -/
theorem Relays.step {received : Nat} (h : Relays wire events sent received g) (sound : g.IsSound)
    (step : Step g event next) (before : g.IsAttended wire) (behind : next.IsAttended wire) :
    ∃ received,
      Relays wire (events ++ event.toList) (sent ++ sentIn wire g next) received next := by
  cases step.effect sound wire with
  | hub _ quiet _ feeds channel => exact ⟨received, h.keep feeds (Or.inl channel) quiet⟩
  | idle _ feeds channel => exact ⟨received, h.keep feeds (Or.inl channel) (by simp)⟩
  | closed _ feeds channel => exact ⟨received, h.keep feeds (Or.inr channel) (by simp)⟩
  | spawned _ _ feeds =>
    have two := behind.only
    rw [feeds, List.length_append, before.only] at two
    cases two
  | sent notification isOpen _ feeds channel =>
    exact ⟨received, by simpa using h.send notification isOpen feeds channel behind⟩
  | fetched found fetched _ feeds channel =>
    obtain ⟨-, hset, received', bounded, listens, lines⟩ := h.look before found fetched channel
    rw [sentIn_eq_nil h.carries (Or.inl channel), List.append_nil]
    refine ⟨received', {
      carries := channel ▸ h.carries
      listens := ⟨_, feeds.trans hset, listens⟩
      bounded
      sole := by simpa using h.sole
      begun := ?_ }⟩
    simpa [lines] using h.begun
  | @began p earlier later line targets found fetched _ _ _ feeds channel =>
    obtain ⟨rfl, hset, received', bounded, listens, lines⟩ := h.look before found fetched channel
    rw [sentIn_eq_nil h.carries (Or.inl channel), List.append_nil]
    have broadcasts : (ofEvents (events ++ [.began 0 line targets])).broadcasts
        = (ofEvents events).broadcasts ++ [{ publisher := 0, line, snapshot := targets }] := by
      rw [ofEvents, List.foldl_append]
      rfl
    refine ⟨received', {
      carries := channel ▸ h.carries
      listens := ⟨_, feeds.trans hset, listens⟩
      bounded
      sole := fun broadcast hmem => ?_
      begun := ?_ }⟩
    · rw [Option.toList_some, broadcasts] at hmem
      rcases List.mem_append.mp hmem with hmem | hmem
      · exact h.sole broadcast hmem
      · rw [List.mem_singleton.mp hmem]
    · rw [Option.toList_some, broadcasts, List.map_append, h.begun, lines]
      rfl

/-! ### Runs -/

/-- A listener that is there before the first notification. -/
theorem relays_start (quiet : ∀ e ∈ prior, e.isBeginning = false)
    (attached : start.feeds = [.listener wire 0]) (unsent : (start.channel wire).Carries []) :
    Relays wire prior [] 0 start := by
  have none : (ofEvents prior).broadcasts = [] := by
    rw [ofEvents, broadcasts_foldl, List.nil_append, List.filterMap_eq_nil_iff]
    intro e he
    have begins := quiet e he
    cases e with
    | began => cases begins
    | _ => rfl
  exact {
    carries := unsent
    listens := ⟨_, attached, rfl, rfl⟩
    bounded := Nat.le_refl 0
    sole := by simp [none]
    begun := by rw [none]; rfl }

/-- **A listener that keeps up has begun the lines of what it has received, in their order, and no
others.** -/
theorem Course.relays (h : Course wire id start events sent given g) (sound : start.IsSound)
    (begins : Relays wire prior [] 0 start) :
    ∃ received, Relays wire (prior ++ events) sent received g := by
  induction h with
  | refl => exact ⟨0, by rwa [List.append_nil]⟩
  | tail h step attended ih =>
    obtain ⟨received, relays⟩ := ih
    rw [← List.append_assoc]
    exact relays.step (h.run.isSound sound) step h.attended attended

/-- **Where a listener that keeps up can take no step and has no line under way, it has received
everything.** -/
theorem Relays.complete {received : Nat} (h : Relays wire events sent received g)
    (attended : g.IsAttended wire) (quiet : g.IsQuiescent) (idle : g.hub.current 0 = none) :
    received = sent.length := by
  obtain ⟨feed, hfeed, feedAt⟩ := h.listens
  have unfetched : g.fetch 0 g.hub.registry = none := by
    have hadvance := quiet (.publisher 0)
    unfold advance at hadvance
    rw [hub_advance_eq_none hadvance] at hadvance
    rw [Hub.current] at idle
    simpa [idle] using hadvance
  cases feed with
  | documents => exact feedAt.elim
  | finished => exact feedAt.1
  | listener own position =>
    obtain ⟨rfl, rfl⟩ := feedAt
    have keepsUp := attended.keepsUp position (by rw [hfeed]; rfl)
    rw [h.carries.sent] at keepsUp
    have finds := h.carries.receive_of_keepsUp keepsUp
    refine Nat.le_antisymm h.bounded (Nat.le_of_not_lt fun hlt => ?_)
    rw [List.getElem?_eq_getElem hlt] at finds
    simp [fetch, hfeed, finds] at unfetched

end Gateway

end Restconf
