import Restconf.Proofs.Hub.Visit

/-!
# What a sink leaves behind

A sink can bring its consumer down. The worker goes back to the pool and the queue is gone, as when
a consumer returns, but a consumer that comes down takes no more steps, and so whatever it had still
to do is not done by it.

## The entry in the registry

A consumer leaves the registry before it closes its sink. So one that comes down in closing has
left, and there is no trace of it. One that comes down in a write has not, and does not get to. Its
entry stays until somebody runs into it: a publisher that comes to the queue finds it gone and
removes the entry, and a shutdown removes all entries. Nothing else does, and nobody has to come.

## Main definitions

* `HubEvent.clears` — an event removes an entry that has been left behind
* `Hub.Unattended` — what becomes of a subscription whose consumer no longer runs
* `Hub.LeftBehind` — what is left of a consumer that has come down, from then on

## Main results

* `Hub.Run.unattended` — where a consumer no longer runs, its entry is cleared away or stays
* `Hub.Step.registry_eq_of_crashed` — a sink that brings its consumer down leaves the registry alone
* `Hub.leftBehind` — what is left behind
-/

namespace Restconf

/-- An event removes the entry of a subscription whose consumer no longer runs: a publisher has
found its queue gone, or the hub has been shut down. -/
def HubEvent.clears (id : SubscriptionId) : HubEvent → Bool
  | passed _ i => i = id
  | shutdown => true
  | _ => false

theorem HubEvent.concerns_of_clears {id : SubscriptionId} {event : HubEvent}
    (h : event.clears id = true) : event.concerns id = true := by
  cases event <;> simp_all [clears, concerns]

namespace Hub

variable {σ : Type} {hub next : Hub σ} {event : Option HubEvent} {id : SubscriptionId}
  {s after : Subscription σ}

/-- A change of one subscription that leaves its entry alone leaves the registry alone. -/
theorem registry_update {f : Subscription σ → Subscription σ}
    (h : ∀ s, (f s).isRegistered = s.isRegistered) : (hub.update id f).registry = hub.registry := by
  have entry (i : SubscriptionId) :
      (hub.update id f).subscriptions[i]?.map Subscription.isRegistered
        = hub.subscriptions[i]?.map Subscription.isRegistered := by
    rw [getElem?_update, Option.map_map]
    refine congrArg (hub.subscriptions[i]?.map ·) (funext fun s => ?_)
    show (if id = i then f s else s).isRegistered = s.isRegistered
    split
    · exact h s
    · rfl
  have length : (hub.update id f).subscriptions.length = hub.subscriptions.length :=
    List.length_modify ..
  rw [registry, registry, length]
  exact List.filter_congr fun i _ => by rw [entry]

variable [LineSink σ]

/-! ### Consumers that no longer run -/

/-- What becomes of a subscription whose consumer no longer runs. -/
structure Unattended (id : SubscriptionId) (s : Subscription σ) (events : List HubEvent)
    (after : Subscription σ) : Prop where
  /-- The consumer shows nothing. -/
  silent : ∀ e ∈ events, e.consumer? ≠ some id
  progress : after.progress = s.progress
  /-- The entry is in the registry if it was and nothing has cleared it away. -/
  registered : after.isRegistered = true
    ↔ s.isRegistered = true ∧ ∀ e ∈ events, e.clears id = false

omit [LineSink σ] in
theorem Unattended.refl (s : Subscription σ) : Unattended id s [] s := ⟨by simp, rfl, by simp⟩

omit [LineSink σ] in
theorem Unattended.trans {events later : List HubEvent} {t : Subscription σ}
    (h : Unattended id s events t) (rest : Unattended id t later after) :
    Unattended id s (events ++ later) after where
  silent := List.forall_mem_append.mpr ⟨h.silent, rest.silent⟩
  progress := rest.progress.trans h.progress
  registered := by rw [rest.registered, h.registered, and_assoc, List.forall_mem_append]

theorem MoveAt.unattended (h : hub.MoveAt id s event after) (gone : s.progress.isOver = true) :
    Unattended id s event.toList after := by
  cases h with
  | elsewhere other =>
    have uninvolved {e : HubEvent} (he : e ∈ event.toList) : e.concerns id = false := by
      obtain rfl := Option.mem_toList.mp he
      simpa using other
    refine ⟨fun e he own => ?_, rfl, iff_self_and.mpr fun _ e he => ?_⟩
    · exact absurd ((uninvolved he).symm.trans (e.concerns_of_consumer? own)) Bool.false_ne_true
    · refine Bool.eq_false_iff.mpr fun clears => ?_
      exact absurd ((uninvolved he).symm.trans (e.concerns_of_clears clears)) Bool.false_ne_true
  | accept _ alive | skip _ alive | enqueue _ alive =>
    exact absurd (alive.symm.trans gone) Bool.false_ne_true
  | forget | shutdown => exact ⟨by simp [HubEvent.consumer?], rfl, by simp [HubEvent.clears]⟩
  | touch => exact ⟨by simp, rfl, by simp⟩
  | start progress | take progress | finishQueue progress | write progress | refuse progress
    | crash progress | leave progress | close progress | crashClosing progress
    | giveBack progress =>
    rw [progress] at gone
    cases gone

/-- **Where a consumer no longer runs**, its entry is cleared away or stays. -/
theorem Run.unattended {start : Hub σ} {events : List HubEvent} (h : Run start events hub)
    (found : start.subscriptions[id]? = some s) (gone : s.progress.isOver = true) :
    ∃ after, hub.subscriptions[id]? = some after ∧ Unattended id s events after :=
  h.induction_at (Unattended id s) (.refl s)
    (fun _ _ before move => before.trans (move.unattended (by rw [before.progress, gone]))) found

/-! ### Consumers that have come down -/

/-- A sink that brings its consumer down leaves the registry alone. -/
theorem Step.registry_eq_of_crashed {noted : Option Ending}
    (h : Step hub (some (.crashed id noted)) next) : next.registry = hub.registry := by
  cases h.move with
  | crash | crashClosing => exact registry_update fun _ => rfl

/-- What is left of a consumer that its sink has brought down, from some moment on. -/
structure LeftBehind (id : SubscriptionId) (hub : Hub σ) : Prop where
  /-- Who waits for its end is told that it has failed. -/
  joined : ∀ later last, Run hub later last → last.ending? id = some .failed
  /-- It shows nothing more. -/
  silent : ∀ later last, Run hub later last → ∀ e ∈ later, e.consumer? ≠ some id
  /-- If it has left an entry in the registry, this stays there until a publisher finds the queue
  gone or the hub is shut down, and no longer. -/
  entry : ∀ later last, Run hub later last →
    (id ∈ last.registry ↔ id ∈ hub.registry ∧ ∀ e ∈ later, e.clears id = false)
  /-- A publisher that comes to the queue can go on at once, and removes the entry. -/
  found : ∀ p publication, hub.IsAt p publication id → ∃ next, hub.visit p = some next
    ∧ next.event = some (.passed p id) ∧ id ∉ next.hub.registry

theorem leftBehind {noted : Option Ending} (found : hub.subscriptions[id]? = some s)
    (crashed : s.progress = .crashed noted) : LeftBehind id hub := by
  have gone : s.progress.isOver = true := by rw [crashed]; rfl
  have entry : ∀ later last, Run hub later last →
      (id ∈ last.registry ↔ id ∈ hub.registry ∧ ∀ e ∈ later, e.clears id = false) := by
    intro later last run
    obtain ⟨after, hafter, unattended⟩ := run.unattended found gone
    simp only [mem_registry, hafter, found, Option.some.injEq, exists_eq_left',
      unattended.registered]
  refine ⟨fun later last run => ?_, fun later last run => ?_, entry,
    fun p publication isAt => ⟨_, visit_of_isOver isAt found gone, rfl, fun registered => ?_⟩⟩
  · obtain ⟨after, hafter, unattended⟩ := run.unattended found gone
    rw [ending?, hafter, Option.map_some, unattended.progress, crashed]
  · obtain ⟨after, -, unattended⟩ := run.unattended found gone
    exact unattended.silent
  · have passed := (Run.refl hub).tail
      (@Step.advance _ _ _ (.publisher p) _ (visit_of_isOver isAt found gone))
    have kept := ((entry _ _ passed).mp registered).2 (.passed p id) List.mem_cons_self
    simp [HubEvent.clears] at kept

theorem Step.leftBehind {noted : Option Ending} (h : Step hub (some (.crashed id noted)) next) :
    LeftBehind id next := by
  have ⟨s, found⟩ : ∃ s, hub.subscriptions[id]? = some s := by
    cases h.move with
    | crash found | crashClosing found => exact ⟨_, found⟩
  obtain ⟨after, hafter, move⟩ := h.move.moveAt found
  cases move with
  | elsewhere other => simp [HubEvent.concerns] at other
  | crash | crashClosing => exact Hub.leftBehind hafter rfl

end Hub

end Restconf
