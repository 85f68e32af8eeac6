import Restconf.Proofs.Hub.Visit

/-!
# Publishers that wait for room

A publisher that finds a full queue under `block` gets in line there. Room that becomes free is kept
for the first in line that has none, and counts as taken until that publisher comes for it.

## What keeps the line honest

Somebody without room in a line means that the queue and the room kept for others fill the capacity.
That is an invariant because room is given away at once when it becomes free. And everybody in a
line is a publisher that has this subscription as its next target, which is what makes it possible
to conclude from a publisher that cannot go on to the queue that it waits for, and from room that is
kept to a publisher that can go on.

## Main definitions

* `Hub.IsOrderly` — queue and line of one subscription

## Main results

* `Hub.Move.isOrderly` — one move keeps the line in order
* `Hub.Run.isOrderly` — it is in order at every moment of a run
-/

namespace Restconf.Hub

/-! ### Lines -/

section Lines

variable {waiters : List Waiter}

theorem grantFirst_of_all (h : waiters.all Waiter.granted = true) :
    (grantFirst waiters).1 = waiters := by
  induction waiters with
  | nil => rfl
  | cons w rest ih =>
    simp only [List.all_cons, Bool.and_eq_true] at h
    simp [grantFirst, h.1, ih h.2]

/-- The line stays as it is. -/
theorem map_publisher_grantFirst (waiters : List Waiter) :
    (grantFirst waiters).1.map Waiter.publisher = waiters.map Waiter.publisher := by
  induction waiters with
  | nil => rfl
  | cons w rest ih =>
    cases hgranted : w.granted with
    | true => simp [grantFirst, hgranted, ih]
    | false => simp [grantFirst, hgranted]

theorem exists_of_mem_grantFirst {w : Waiter} (h : w ∈ (grantFirst waiters).1) :
    ∃ old ∈ waiters, old.publisher = w.publisher := by
  have hmem : w.publisher ∈ waiters.map Waiter.publisher := by
    rw [← map_publisher_grantFirst]
    exact List.mem_map_of_mem h
  exact List.mem_map.mp hmem

/-- Room is kept for one more, if there is anybody without. -/
theorem countP_granted_grantFirst (waiters : List Waiter) :
    (grantFirst waiters).1.countP Waiter.granted
      = waiters.countP Waiter.granted + (!waiters.all Waiter.granted).toNat := by
  induction waiters with
  | nil => rfl
  | cons w rest ih =>
    cases hgranted : w.granted with
    | true =>
      simp only [grantFirst, hgranted, if_pos, List.countP_cons, List.all_cons, Bool.true_and, ih]
      omega
    | false => simp [grantFirst, hgranted]

/-- Who is the only one of its kind in a line leaves one place. -/
theorem countP_granted_filter {p : PublisherId} {w : Waiter}
    (nodup : (waiters.map Waiter.publisher).Nodup)
    (h : waiters.find? (·.publisher = p) = some w) :
    (waiters.filter fun w => w.publisher ≠ p).countP Waiter.granted + w.granted.toNat
      = waiters.countP Waiter.granted := by
  induction waiters with
  | nil => cases h
  | cons first rest ih =>
    simp only [List.map_cons, List.nodup_cons] at nodup
    by_cases hfirst : first.publisher = p
    · have hw : first = w := by simpa [hfirst] using h
      have hothers : (rest.filter fun w => w.publisher ≠ p) = rest := by
        refine List.filter_eq_self.mpr fun other hother => ?_
        have hne : other.publisher ≠ p := by
          rintro rfl
          exact nodup.1 (List.mem_map.mpr ⟨other, hother, hfirst.symm⟩)
        simp [hne]
      rw [List.filter_cons_of_neg (by simp [hfirst]), hothers, List.countP_cons, hw]
      cases w.granted <;> simp
    · have hrest := ih nodup.2 (by simpa [hfirst] using h)
      rw [List.filter_cons_of_pos (by simp [hfirst]), List.countP_cons, List.countP_cons]
      omega

theorem filter_publisher_of_find?_none {p : PublisherId}
    (h : waiters.find? (·.publisher = p) = none) :
    (waiters.filter fun w => w.publisher ≠ p) = waiters := by
  refine List.filter_eq_self.mpr fun w hw => ?_
  have hne := List.find?_eq_none.mp h w hw
  simpa using hne

end Lines

/-! ### Order -/

variable {σ : Type} {hub next : Hub σ} {event : Option HubEvent} {id : SubscriptionId}
  {s : Subscription σ}

theorem hasRoom_iff : hub.hasRoom s = true
    ↔ s.queue.length + s.waiters.countP Waiter.granted < hub.config.capacity := by
  simp [hasRoom]

theorem hasRoom_eq_false_iff : hub.hasRoom s = false
    ↔ hub.config.capacity ≤ s.queue.length + s.waiters.countP Waiter.granted := by
  simp [hasRoom]

theorem capacity_pos (config : HubConfig) : 0 < config.capacity := by
  rw [HubConfig.capacity]
  omega

/-- Queue and line of a subscription are in order. -/
structure IsOrderly (hub : Hub σ) (id : SubscriptionId) (s : Subscription σ) : Prop where
  /-- The queue and the room that is kept do not exceed the capacity. -/
  fits : s.queue.length + s.waiters.countP Waiter.granted ≤ hub.config.capacity
  /-- If somebody in the line has no room, all room is taken. -/
  full : s.waiters.all Waiter.granted = false →
    hub.config.capacity ≤ s.queue.length + s.waiters.countP Waiter.granted
  nodup : (s.waiters.map Waiter.publisher).Nodup
  /-- Whoever stands in the line has the subscription as its next target. -/
  present : ∀ w ∈ s.waiters, ∃ publication, hub.IsAt w.publisher publication id
  /-- Nobody waits for a queue that is gone. -/
  gone : s.progress.isOver = true → s.waiters = []
  /-- Under `drop` nobody waits at all. -/
  patient : hub.config.overflow = .drop → s.waiters = []

theorem isOrderly_made (stream : String) (sink : σ) :
    IsOrderly hub id { stream, sink } :=
  ⟨Nat.zero_le _, fun h => (by cases h), List.nodup_nil, fun w hw => (by cases hw), fun _ => rfl,
    fun _ => rfl⟩

/-- Those in a line stay at the target unless they go on from it. -/
theorem Move.present [LineSink σ] (h : Move hub event next)
    (found : hub.subscriptions[id]? = some s) {waiters : List Waiter}
    (accepted : ∀ w ∈ waiters, ∀ line, event ≠ some (.accepted w.publisher id line))
    (passed : ∀ w ∈ waiters, event ≠ some (.passed w.publisher id))
    (before : ∀ w ∈ waiters, ∃ publication, hub.IsAt w.publisher publication id) :
    ∀ w ∈ waiters, ∃ publication, next.IsAt w.publisher publication id := by
  intro w hw
  obtain ⟨publication, isAt⟩ := before w hw
  cases h.atTarget isAt found with
  | stays current => exact ⟨publication, current, isAt.next⟩
  | accepted event => exact absurd event (accepted w hw _)
  | passed event => exact absurd event (passed w hw)

/-- A publisher that takes its room leaves the line, and the room that is taken is the same. -/
theorem IsOrderly.taken (h : IsOrderly hub id s) {p : PublisherId} (room : hub.CanTake p s)
    {rest : List Waiter} (hrest : (s.waiters.filter fun w => w.publisher ≠ p) = rest) :
    s.queue.length + 1 + rest.countP Waiter.granted ≤ hub.config.capacity
      ∧ (rest.all Waiter.granted = false →
        hub.config.capacity ≤ s.queue.length + 1 + rest.countP Waiter.granted) := by
  have hsub : rest.all Waiter.granted = false → s.waiters.all Waiter.granted = false := by
    intro hall
    obtain ⟨w, hw, hgranted⟩ := List.all_eq_false.mp hall
    rw [← hrest] at hw
    exact List.all_eq_false.mpr ⟨w, (List.mem_filter.mp hw).1, hgranted⟩
  have outside (hsame : rest = s.waiters) (hroom : hub.hasRoom s = true) :
      s.queue.length + 1 + rest.countP Waiter.granted ≤ hub.config.capacity
        ∧ (rest.all Waiter.granted = false →
          hub.config.capacity ≤ s.queue.length + 1 + rest.countP Waiter.granted) := by
    rw [hasRoom_iff] at hroom
    rw [hsame]
    refine ⟨by omega, fun hall => ?_⟩
    have hfull := h.full hall
    omega
  unfold CanTake at room
  split at room
  · next hpolicy =>
    have hnone : s.waiters = [] := h.patient hpolicy
    exact outside (by simp [← hrest, hnone]) room
  · next waiter _ hwaiter =>
    have hcount := countP_granted_filter h.nodup hwaiter
    have hfits := h.fits
    rw [hrest, room, Bool.toNat_true] at hcount
    refine ⟨by omega, fun hall => ?_⟩
    have hfull := h.full (hsub hall)
    omega
  · next _ hnone =>
    exact outside (hrest.symm.trans (filter_publisher_of_find?_none hnone)) room

/-- Room that becomes free is kept for somebody without, and then the room that is taken is the
same. -/
theorem IsOrderly.freed (h : IsOrderly hub id s) {line : String} {rest : List String}
    (queue : s.queue = line :: rest) :
    rest.length + (grantFirst s.waiters).1.countP Waiter.granted ≤ hub.config.capacity
      ∧ ((grantFirst s.waiters).1.all Waiter.granted = false →
        hub.config.capacity ≤ rest.length + (grantFirst s.waiters).1.countP Waiter.granted) := by
  have hcount := countP_granted_grantFirst s.waiters
  have hfits := h.fits
  rw [queue, List.length_cons] at hfits
  cases hall : s.waiters.all Waiter.granted with
  | true =>
    rw [hall, Bool.not_true, Bool.toNat_false] at hcount
    refine ⟨by omega, fun hgranted => ?_⟩
    rw [grantFirst_of_all hall, hall] at hgranted
    cases hgranted
  | false =>
    have hfull := h.full hall
    rw [queue, List.length_cons] at hfull
    rw [hall, Bool.not_false, Bool.toNat_true] at hcount
    exact ⟨by omega, fun _ => by omega⟩

variable [LineSink σ]

/-- **One move keeps the line in order.** -/
theorem Move.isOrderly (h : Move hub event next) (found : hub.subscriptions[id]? = some s)
    {after : Subscription σ} (move : hub.MoveAt id s event after) (before : IsOrderly hub id s) :
    IsOrderly next id after := by
  have hconfig := h.config_eq
  -- the queue and the line stay, and nobody goes on from here
  have kept {t : Subscription σ} (queue : t.queue = s.queue) (waiters : t.waiters = s.waiters)
      (gone : t.progress.isOver = true → t.waiters = [])
      (accepted : ∀ w ∈ s.waiters, ∀ line, event ≠ some (.accepted w.publisher id line))
      (passed : ∀ w ∈ s.waiters, event ≠ some (.passed w.publisher id)) : IsOrderly next id t := by
    refine ⟨?_, ?_, ?_, ?_, gone, ?_⟩
    all_goals simp only [hconfig, queue, waiters]
    · exact before.fits
    · exact before.full
    · exact before.nodup
    · exact h.present found accepted passed before.present
    · exact before.patient
  have emptied {t : Subscription σ} (queue : t.queue = []) (waiters : t.waiters = []) :
      IsOrderly next id t := by
    refine ⟨?_, ?_, ?_, ?_, fun _ => waiters, fun _ => waiters⟩
    all_goals simp [queue, waiters]
  have alone (hwaiters : s.waiters = []) {t : Subscription σ} (queue : t.queue = s.queue)
      (waiters : t.waiters = s.waiters) : IsOrderly next id t :=
    kept queue waiters (fun _ => waiters.trans hwaiters) (by simp [hwaiters]) (by simp [hwaiters])
  cases move with
  | elsewhere other =>
    refine kept rfl rfl before.gone (fun w _ line => ?_) (fun w _ => ?_)
    · rintro rfl
      simp [HubEvent.concerns] at other
    · rintro rfl
      simp [HubEvent.concerns] at other
  | @accept p publication isAt alive room =>
    obtain ⟨hfits, hfull⟩ := before.taken room rfl
    refine ⟨?_, ?_, ?_, ?_, ?_, ?_⟩
    · rw [hconfig, List.length_append]
      exact hfits
    · rw [hconfig, List.length_append]
      exact hfull
    · exact before.nodup.sublist (List.Sublist.map _ List.filter_sublist)
    · refine h.present found (fun w hw line h => ?_) (fun w _ h => by cases h) fun w hw => ?_
      · cases h
        simp at hw
      · exact before.present w (List.mem_filter.mp hw).1
    · exact fun hover => absurd (alive.symm.trans hover) Bool.false_ne_true
    · intro hdrop
      rw [hconfig] at hdrop
      simp [before.patient hdrop]
  | skip _ _ policy => exact alone (before.patient policy) rfl rfl
  | forget _ gone => exact alone (before.gone gone) rfl rfl
  | @enqueue p publication isAt alive policy first full =>
    rw [hasRoom_eq_false_iff] at full
    refine ⟨?_, ?_, ?_, ?_, ?_, ?_⟩
    · rw [hconfig]
      simpa using before.fits
    · rw [hconfig]
      intro _
      simpa using full
    · rw [List.map_append, List.nodup_append]
      refine ⟨before.nodup, by simp, fun q hq r hr => ?_⟩
      obtain ⟨w, hw, rfl⟩ := List.mem_map.mp hq
      have hne := List.find?_eq_none.mp first w hw
      simp only [List.map_cons, List.map_nil, List.mem_singleton] at hr
      simpa [hr] using hne
    · refine h.present found (fun _ _ _ h => by cases h) (fun _ _ h => by cases h) fun w hw => ?_
      rcases List.mem_append.mp hw with hw | hw
      · exact before.present w hw
      · rw [List.mem_singleton.mp hw]
        exact ⟨publication, isAt⟩
    · exact fun hover => absurd (alive.symm.trans hover) Bool.false_ne_true
    · intro hdrop
      rw [hconfig, policy] at hdrop
      cases hdrop
  | @take line rest progress queue =>
    obtain ⟨hfits, hfull⟩ := before.freed queue
    refine ⟨?_, ?_, ?_, fun w hw => ?_, by simp [Progress.isOver], ?_⟩
    · rw [hconfig]
      exact hfits
    · rw [hconfig]
      exact hfull
    · rw [map_publisher_grantFirst]
      exact before.nodup
    · obtain ⟨old, hold, hpublisher⟩ := exists_of_mem_grantFirst hw
      have hpresent := h.present found (fun _ _ _ h => by cases h) (fun _ _ h => by cases h)
        before.present old hold
      rwa [hpublisher] at hpresent
    · intro hdrop
      rw [hconfig] at hdrop
      simp [before.patient hdrop, grantFirst]
  | crash | crashClosing | giveBack => exact emptied rfl rfl
  | start | finishQueue | write | refuse | leave | close =>
    refine kept rfl rfl (by simp [Progress.isOver]) ?_ ?_ <;> simp
  | touch | shutdown =>
    refine kept rfl rfl before.gone ?_ ?_ <;> simp

/-- **Queues and lines are in order at every moment of a run.** -/
theorem Run.isOrderly {config : HubConfig} {events : List HubEvent}
    (h : Run (ofConfig config) events hub) (found : hub.subscriptions[id]? = some s) :
    IsOrderly hub id s := by
  induction h generalizing s with
  | refl => cases found
  | @tail b c events event h last ih =>
    cases hb : b.subscriptions[id]? with
    | none =>
      obtain ⟨-, -, stream, sink, rfl⟩ := last.move.made hb found
      exact isOrderly_made stream sink
    | some before =>
      obtain ⟨after, hafter, hmove⟩ := last.move.moveAt hb
      obtain rfl := Option.some.inj (hafter.symm.trans found)
      exact last.move.isOrderly hb hmove (ih hb)

end Restconf.Hub
