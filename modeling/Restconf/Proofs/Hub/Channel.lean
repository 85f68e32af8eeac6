import Restconf.Proofs.Hub.MoveAt

/-!
# Channels among sinks

The hub knows of a sink only what comes of writing and closing. Some sinks are channels with a
reader at the far end, and of these more can be said: why a write does not come to an end, and how a
consumer ends whose reader has gone away.

## Sinks of several kinds

A hub may hold channels beside sinks of any other kind. So what is said here is about a type of
sinks in which channels can be found, `HasChannels`: they are written, closed and read as channels,
and a sink that is a channel has always been one.

## Main definitions

* `HasChannels` — channels can be found among the sinks of a type
* `Progress.isGraceful` — a consumer has not stopped, or ends as closed

## Main results

* `ChunkChannel.write_eq_pending_iff` — a write waits for a reader who is there, at a full channel
* `Hub.Run.isGraceful` — the consumer of a channel ends as closed
-/

namespace Restconf

namespace ChunkChannel

variable {channel : ChunkChannel} {line : String}

/-- A write does not come to an end as long as the reader is there and there is no room. -/
theorem write_eq_pending_iff : LineSink.write channel line = .pending
    ↔ channel.isAbandoned = false ∧ channel.isEnded = false
      ∧ channel.capacity ≤ channel.chunks.length := by
  simp only [LineSink.write]
  split
  · next hgone =>
    simp only [Bool.or_eq_true] at hgone
    refine ⟨fun h => (by cases h), ?_⟩
    rintro ⟨habandoned, hended, -⟩
    rcases hgone with hgone | hgone
    · exact absurd (habandoned.symm.trans hgone) Bool.false_ne_true
    · exact absurd (hended.symm.trans hgone) Bool.false_ne_true
  · next hthere =>
    simp only [Bool.or_eq_true, not_or, Bool.not_eq_true] at hthere
    split
    · next hroom => exact ⟨fun h => (by cases h), fun h => absurd hroom (Nat.not_lt.mpr h.2.2)⟩
    · next hfull => exact ⟨fun _ => ⟨hthere.1, hthere.2, Nat.le_of_not_lt hfull⟩, fun _ => rfl⟩

/-- Nothing can be written once the reader has gone. -/
theorem write_of_isAbandoned (h : channel.isAbandoned = true) :
    LineSink.write channel line = .refused .sinkClosed := by
  simp [LineSink.write, h]

/-- A channel refuses lines only because it is closed, and brings nobody down. -/
theorem write_cases : (∃ after, LineSink.write channel line = .written after)
    ∨ LineSink.write channel line = .refused .sinkClosed
    ∨ LineSink.write channel line = .pending := by
  simp only [LineSink.write]
  split
  · exact Or.inr (Or.inl rfl)
  · split
    · exact Or.inl ⟨_, rfl⟩
    · exact Or.inr (Or.inr rfl)

/-- A reader that has gone does not come back. -/
theorem ReaderStep.isAbandoned {after : ChunkChannel} (h : ReaderStep channel after)
    (gone : channel.isAbandoned = true) : after.isAbandoned = true := by
  cases h with
  | @take rest chunk h =>
    unfold take? at h
    split at h
    · cases h
    · cases h
      exact gone
  | abandon => rfl

end ChunkChannel

/-! ### Sinks of several kinds -/

/-- Channels can be found among the sinks of a type. -/
structure HasChannels {σ : Type} [LineSink σ] (ofChannel : ChunkChannel → σ) : Prop where
  write : ∀ channel line,
    LineSink.write (ofChannel channel) line = (LineSink.write channel line).map ofChannel
  close : ∀ channel, LineSink.close (ofChannel channel) = (LineSink.close channel).map ofChannel
  far : ∀ channel sink, LineSink.FarStep (ofChannel channel) sink →
    ∃ after, sink = ofChannel after ∧ LineSink.FarStep channel after
  /-- What is a channel after a step was one before. -/
  written : ∀ sink line after, LineSink.write sink line = .written (ofChannel after) →
    ∃ channel, sink = ofChannel channel
  closed : ∀ sink after, LineSink.close sink = .closed (ofChannel after) →
    ∃ channel, sink = ofChannel channel
  touched : ∀ sink after, LineSink.FarStep sink (ofChannel after) →
    ∃ channel, sink = ofChannel channel

theorem WriteOutcome.map_id {σ : Type} (outcome : WriteOutcome σ) : outcome.map id = outcome := by
  cases outcome <;> rfl

theorem CloseOutcome.map_id {σ : Type} (outcome : CloseOutcome σ) : outcome.map id = outcome := by
  cases outcome <;> rfl

/-- All sinks may be channels. -/
theorem ChunkChannel.hasChannels : HasChannels (id : ChunkChannel → ChunkChannel) where
  write _ _ := (WriteOutcome.map_id _).symm
  close _ := (CloseOutcome.map_id _).symm
  far _ sink h := ⟨sink, rfl, h⟩
  written sink _ _ _ := ⟨sink, rfl⟩
  closed sink _ _ := ⟨sink, rfl⟩
  touched sink _ _ := ⟨sink, rfl⟩

/-- There may be recorders beside them. -/
theorem Sink.hasChannels : HasChannels Sink.channel where
  write _ _ := rfl
  close _ := rfl
  far _ _ h := by
    cases h with
    | channel h => exact ⟨_, rfl, h⟩
  written sink line after h := by
    cases sink with
    | channel c => exact ⟨c, rfl⟩
    | recorder r =>
      have hmap : (LineSink.write r line).map Sink.recorder = .written (Sink.channel after) := h
      cases houtcome : LineSink.write r line <;> rw [houtcome] at hmap <;> cases hmap
  closed sink after h := by
    cases sink with
    | channel c => exact ⟨c, rfl⟩
    | recorder r => cases h
  touched sink after h := by
    cases h with
    | channel h => exact ⟨_, rfl⟩

namespace HasChannels

variable {σ : Type} [LineSink σ] {ofChannel : ChunkChannel → σ}

/-- A channel takes a line, refuses it because it is closed, or has no room. -/
theorem write_cases (channels : HasChannels ofChannel) (channel : ChunkChannel) (line : String) :
    (∃ after, LineSink.write (ofChannel channel) line = .written (ofChannel after))
      ∨ LineSink.write (ofChannel channel) line = .refused .sinkClosed
      ∨ LineSink.write (ofChannel channel) line = .pending := by
  rw [channels.write]
  rcases @ChunkChannel.write_cases channel line with ⟨after, h⟩ | h | h <;> rw [h]
  · exact Or.inl ⟨after, rfl⟩
  · exact Or.inr (Or.inl rfl)
  · exact Or.inr (Or.inr rfl)

theorem write_eq_pending_iff (channels : HasChannels ofChannel) {channel : ChunkChannel}
    {line : String} : LineSink.write (ofChannel channel) line = .pending
      ↔ channel.isAbandoned = false ∧ channel.isEnded = false
        ∧ channel.capacity ≤ channel.chunks.length := by
  rw [channels.write, ← @ChunkChannel.write_eq_pending_iff channel line]
  cases LineSink.write channel line <;> simp [WriteOutcome.map]

theorem write_of_isAbandoned (channels : HasChannels ofChannel) {channel : ChunkChannel}
    (h : channel.isAbandoned = true) (line : String) :
    LineSink.write (ofChannel channel) line = .refused .sinkClosed := by
  rw [channels.write, ChunkChannel.write_of_isAbandoned h]
  rfl

theorem close_eq (channels : HasChannels ofChannel) (channel : ChunkChannel) :
    LineSink.close (ofChannel channel) = .closed (ofChannel channel.finish) :=
  channels.close channel

end HasChannels

/-! ### Consumers of channels -/

/-- The consumer has not stopped, or it has noted that it ends as closed. -/
def Progress.isGraceful : Progress → Bool
  | starting | receiving | writing _ => true
  | stopping how | closing how | releasing how | returned how | crashed (some how) =>
    how = .closed
  | crashed none => false

namespace Hub

variable {σ : Type} [LineSink σ] {hub : Hub σ} {event : Option HubEvent} {id : SubscriptionId}
  {s after : Subscription σ} {ofChannel : ChunkChannel → σ}

/-- A sink that is a channel behind a move was one before. -/
theorem MoveAt.isChannel (h : hub.MoveAt id s event after) (channels : HasChannels ofChannel)
    (hafter : ∃ channel, after.sink = ofChannel channel) :
    ∃ channel, s.sink = ofChannel channel := by
  obtain ⟨channel, hchannel⟩ := hafter
  cases h with
  | @write line sink _ outcome =>
    have hsink : sink = ofChannel channel := hchannel
    rw [hsink] at outcome
    exact channels.written _ _ _ outcome
  | @close how sink _ outcome =>
    have hsink : sink = ofChannel channel := hchannel
    rw [hsink] at outcome
    exact channels.closed _ _ outcome
  | @touch sink far =>
    have hsink : sink = ofChannel channel := hchannel
    rw [hsink] at far
    exact channels.touched _ _ far
  | _ => exact ⟨channel, hchannel⟩

theorem MoveAt.isGraceful (h : hub.MoveAt id s event after)
    (channels : HasChannels ofChannel) (isChannel : ∃ channel, s.sink = ofChannel channel)
    (before : s.progress.isGraceful = true) : after.progress.isGraceful = true := by
  obtain ⟨channel, hchannel⟩ := isChannel
  cases h with
  | @refuse line fault how _ outcome reason =>
    rw [hchannel] at outcome
    rcases channels.write_cases channel line with ⟨taken, h⟩ | h | h <;> rw [h] at outcome <;>
      cases outcome
    simp [reason, Progress.isGraceful]
  | @crash line _ outcome =>
    rw [hchannel] at outcome
    rcases channels.write_cases channel line with ⟨taken, h⟩ | h | h <;> rw [h] at outcome <;>
      cases outcome
  | leave progress | close progress | crashClosing progress | giveBack progress =>
    rw [progress] at before
    exact before
  | start | take | finishQueue | write => rfl
  | _ => exact before

/-- A channel brings nobody down. -/
theorem MoveAt.ne_crashed (h : hub.MoveAt id s event after) (channels : HasChannels ofChannel)
    (isChannel : ∃ channel, s.sink = ofChannel channel)
    (before : ∀ noted, s.progress ≠ .crashed noted) (noted : Option Ending) :
    after.progress ≠ .crashed noted := by
  obtain ⟨channel, hchannel⟩ := isChannel
  cases h with
  | @crash line _ outcome =>
    rw [hchannel] at outcome
    rcases channels.write_cases channel line with ⟨taken, h⟩ | h | h <;> rw [h] at outcome <;>
      cases outcome
  | crashClosing _ outcome =>
    rw [hchannel, channels.close_eq] at outcome
    cases outcome
  | start | take | finishQueue | write | refuse | leave | close | giveBack =>
    exact fun h => by cases h
  | _ => exact before noted

/-- **The consumer of a channel ends as closed, if it ends**, and does not come down. -/
theorem Run.isGraceful {config : HubConfig} {events : List HubEvent}
    (h : Run (ofConfig config) events hub) (channels : HasChannels ofChannel)
    (found : hub.subscriptions[id]? = some s) {channel : ChunkChannel}
    (isChannel : s.sink = ofChannel channel) :
    s.progress.isGraceful = true ∧ ∀ noted, s.progress ≠ .crashed noted := by
  refine h.subscription_induction id (fun _ s => (∃ channel, s.sink = ofChannel channel) →
    s.progress.isGraceful = true ∧ ∀ noted, s.progress ≠ .crashed noted)
    (fun _ _ => ⟨rfl, fun _ h => by cases h⟩) ?_ found ⟨channel, isChannel⟩
  intro hub events s event after _ _ before move hafter
  have hbefore := move.isChannel channels hafter
  obtain ⟨graceful, upright⟩ := before hbefore
  exact ⟨move.isGraceful channels hbefore graceful, move.ne_crashed channels hbefore upright⟩

end Hub

end Restconf
