import Restconf.Proofs.Hub.Remains

/-!
# The pool and the registry

Two things are counted in the hub: the workers of the pool, and the registered subscriptions. A
consumer holds a worker from the moment its subscription is made until it returns, and it leaves the
registry before that. So a registered subscription has a consumer that runs, and there are never
more of them than there are workers.

## The one exception

A sink that brings its consumer down in a write takes from it the chance to leave. The worker goes
back to the pool all the same, and the queue is gone, but the entry in the registry stays, until a
publisher comes to it or the registry is emptied. Such entries are `Hub.stranded`. With them the
registry can be larger than the pool: `Hub.count_gt_workers_crashed` is such a hub.

## Main definitions

* `HubEvent.givesBack` — an event shows that a consumer gives back its worker
* `Hub.busy`, `Hub.stranded` — consumers that have not returned, entries without a consumer
* `Hub.IsTended` — what is known of one subscription
* `Hub.Pooled` — what holds of pool and registry

## Main results

* `Hub.Move.workers` — a worker is idle or has a consumer
* `Hub.Run.pooled` — what holds of pool and registry, at every moment of every run
-/

namespace Restconf

/-- An event shows that a consumer gives back its worker. -/
def HubEvent.givesBack (id : SubscriptionId) : HubEvent → Bool
  | returned i _ | crashed i _ => i = id
  | _ => false

theorem HubEvent.consumer?_of_givesBack {id : SubscriptionId} {event : HubEvent}
    (h : event.givesBack id = true) : event.consumer? = some id := by
  cases event <;> simp_all [givesBack, consumer?]

/-- The consumer has left the registry. -/
def Progress.hasLeft : Progress → Bool
  | closing _ | releasing _ | returned _ => true
  | crashed noted => noted.isSome
  | starting | receiving | writing _ | stopping _ => false

namespace Subscription

variable {σ : Type}

/-- The consumer has not returned. -/
def isBusy (s : Subscription σ) : Bool := !s.progress.isOver

/-- The consumer came down in a write and has left its entry in the registry. -/
def isStranded (s : Subscription σ) : Bool := s.isRegistered && s.progress = .crashed none

end Subscription

/-! ### Counting in a list -/

theorem countP_modify {α : Type} (test : α → Bool) (f : α → α) :
    ∀ {l : List α} {i : Nat} {a : α}, l[i]? = some a →
      (l.modify i f).countP test + (test a).toNat = l.countP test + (test (f a)).toNat := by
  intro l
  induction l with
  | nil => intro i a h; cases h
  | cons b l ih =>
    intro i a h
    cases i with
    | zero =>
      obtain rfl : b = a := by simpa using h
      rw [List.modify_zero_cons, List.countP_cons, List.countP_cons]
      cases test b <;> cases test (f b) <;> simp
    | succ i =>
      have hrest := ih (i := i) (a := a) (by simpa using h)
      rw [List.modify_succ_cons, List.countP_cons, List.countP_cons]
      omega

/-- Counting places is counting what stands there. -/
theorem countP_range_getElem? {α : Type} (test : α → Bool) (l : List α) :
    (List.range l.length).countP (fun i => (l[i]?.map test).getD false) = l.countP test := by
  induction l with
  | nil => rfl
  | cons a l ih =>
    rw [List.length_cons, List.range_succ_eq_map, List.countP_cons, List.countP_map,
      List.countP_cons, ← ih]
    rfl

namespace Hub

variable {σ : Type}

/-! ### Workers -/

/-- How many consumers have not returned. -/
def busy (hub : Hub σ) : Nat := hub.subscriptions.countP Subscription.isBusy

/-- How many entries of the registry were left behind by consumers that came down. -/
def stranded (hub : Hub σ) : Nat := hub.subscriptions.countP Subscription.isStranded

theorem count_eq (hub : Hub σ) :
    hub.count = hub.subscriptions.countP Subscription.isRegistered := by
  rw [count, registry, ← List.countP_eq_length_filter]
  exact countP_range_getElem? _ _

theorem busy_update {hub : Hub σ} {id : SubscriptionId} {s : Subscription σ}
    (found : hub.subscriptions[id]? = some s) (f : Subscription σ → Subscription σ) :
    (hub.update id f).busy + s.isBusy.toNat = hub.busy + (f s).isBusy.toNat :=
  countP_modify Subscription.isBusy f found

/-- A change that leaves the consumer running, or leaves it as it is. -/
theorem busy_update_of_eq {hub : Hub σ} {id : SubscriptionId} {s : Subscription σ}
    (found : hub.subscriptions[id]? = some s) {f : Subscription σ → Subscription σ}
    (h : (f s).isBusy = s.isBusy) : (hub.update id f).busy = hub.busy := by
  have hupdate := busy_update found f
  rw [h] at hupdate
  omega

/-! ### Subscribing -/

variable {hub next : Hub σ}

/-- What a new subscription changes: one more entry in the registry, one more consumer, one idle
worker less. The other subscriptions, with their queues, and the publishers stay. -/
structure Joined (stream : String) (sink : σ) (hub next : Hub σ) : Prop where
  registry : next.registry = hub.registry ++ [hub.subscriptions.length]
  subscriptions : next.subscriptions = hub.subscriptions ++ [{ stream := stream, sink := sink }]
  busy : next.busy = hub.busy + 1
  idleWorkers : next.idleWorkers + 1 = hub.idleWorkers
  publishers : next.publishers = hub.publishers

theorem registry_of_append {made : Subscription σ}
    (h : next.subscriptions = hub.subscriptions ++ [made]) (registered : made.isRegistered = true) :
    next.registry = hub.registry ++ [hub.subscriptions.length] := by
  have hold : (List.range hub.subscriptions.length).filter (fun id =>
        ((hub.subscriptions ++ [made])[id]?.map Subscription.isRegistered).getD false)
      = hub.registry := by
    refine List.filter_congr fun id hid => ?_
    rw [List.getElem?_append_left (List.mem_range.mp hid)]
  rw [registry, h, List.length_append, List.length_singleton, List.range_succ, List.filter_append,
    hold]
  simp [registered]

theorem subscribe_eq_refused_iff (stream : String) (sink : σ) :
    hub.subscribe stream sink = .error (.refused (.poolExhausted hub.config.workerPoolSize))
      ↔ hub.idleWorkers = 0 := by
  rw [subscribe]
  split
  · next none => exact iff_of_true rfl none
  · next idle => exact iff_of_false (fun h => by split at h <;> cases h) idle

theorem subscribe_eq_crashed_iff (stream : String) (sink : σ) :
    hub.subscribe stream sink = .error .crashed
      ↔ hub.idleWorkers ≠ 0 ∧ permitLimit < hub.config.capacity := by
  rw [subscribe]
  split
  · next none => exact iff_of_false (fun h => by cases h) fun h => h.1 none
  · next idle =>
    split
    · next long => exact iff_of_true rfl ⟨idle, long⟩
    · next fits => exact iff_of_false (fun h => by cases h) fun h => fits h.2

theorem exists_subscribe (idle : hub.idleWorkers ≠ 0) (fits : hub.config.capacity ≤ permitLimit)
    (stream : String) (sink : σ) :
    ∃ next, hub.subscribe stream sink = .ok (hub.subscriptions.length, next)
      ∧ Joined stream sink hub next.hub := by
  refine ⟨_, subscribe_eq_ok_iff.mpr ⟨idle, fits, rfl, rfl⟩, registry_of_append rfl rfl, rfl,
    ?_, ?_, rfl⟩
  · simp [busy, Subscription.isBusy, Progress.isOver]
  · exact Nat.sub_add_cancel (Nat.pos_of_ne_zero idle)

/-! ### Steps -/

variable [LineSink σ] {event : Option HubEvent}

/-- **A worker is idle or has a consumer.** -/
theorem Move.workers (h : Move hub event next) :
    next.busy + next.idleWorkers = hub.busy + hub.idleWorkers := by
  have kept {id : SubscriptionId} {s : Subscription σ} {f : Subscription σ → Subscription σ}
      (found : hub.subscriptions[id]? = some s) (hf : (f s).isBusy = s.isBusy) :
      (hub.update id f).busy + hub.idleWorkers = hub.busy + hub.idleWorkers := by
    rw [busy_update_of_eq found hf]
  have freed {id : SubscriptionId} {s : Subscription σ} {f : Subscription σ → Subscription σ}
      (found : hub.subscriptions[id]? = some s) (before : s.isBusy = true)
      (after : (f s).isBusy = false) :
      (hub.update id f).busy + (hub.idleWorkers + 1) = hub.busy + hub.idleWorkers := by
    have hupdate := busy_update found f
    rw [before, after] at hupdate
    simp only [Bool.toNat_true, Bool.toNat_false] at hupdate
    omega
  cases h with
  | subscribe stream sink idle fits =>
    have hmade : (hub.subscriptions ++ [({ stream, sink } : Subscription σ)]).countP
        Subscription.isBusy = hub.busy + 1 := by simp [busy, Subscription.isBusy, Progress.isOver]
    have hidle : 0 < hub.idleWorkers := Nat.pos_of_ne_zero idle
    simp only [busy] at hmade ⊢
    omega
  | addPublisher | begin | skip | skipUnknown | finish => rfl
  | accept isAt found | forget isAt found | enqueue isAt found => exact kept found rfl
  | touch found => exact kept found rfl
  | start found progress | take found progress | finishQueue found progress
    | write found progress | refuse found progress | leave found progress
    | close found progress =>
    refine kept found ?_
    simp [Subscription.isBusy, Progress.isOver, progress]
  | crash found progress | crashClosing found progress | giveBack found progress =>
    refine freed found ?_ rfl
    simp [Subscription.isBusy, Progress.isOver, progress]
  | shutdown =>
    simp only [busy, List.countP_map]
    rfl

/-- The idle workers of a hub are one less after a subscription has been made, one more after a
consumer has given back its worker, and the same after everything else. -/
theorem Move.idleWorkers_eq (h : Move hub event next) :
    (∃ id, event = some (.subscribed id)) ∧ next.idleWorkers + 1 = hub.idleWorkers
      ∨ (∃ id, event.any (·.givesBack id) = true) ∧ next.idleWorkers = hub.idleWorkers + 1
      ∨ (∀ id, event ≠ some (.subscribed id) ∧ event.any (·.givesBack id) = false)
        ∧ next.idleWorkers = hub.idleWorkers := by
  cases h with
  | subscribe stream sink idle fits =>
    refine Or.inl ⟨⟨_, rfl⟩, ?_⟩
    exact Nat.sub_add_cancel (Nat.pos_of_ne_zero idle)
  | @crash id | @crashClosing id | @giveBack id =>
    exact Or.inr (Or.inl ⟨⟨id, by simp [HubEvent.givesBack]⟩, rfl⟩)
  | _ => exact Or.inr (Or.inr ⟨fun id => ⟨by simp, rfl⟩, rfl⟩)

/-! ### Registration -/

/-- Nobody comes back into the registry. -/
theorem MoveAt.isRegistered {id : SubscriptionId} {s after : Subscription σ}
    (h : hub.MoveAt id s event after) (hafter : after.isRegistered = true) :
    s.isRegistered = true := by
  cases h with
  | forget | leave | shutdown => cases hafter
  | _ => exact hafter

/-- What is known of a subscription beside the events of a run. -/
structure IsTended (id : SubscriptionId) (events : List HubEvent) (s : Subscription σ) : Prop where
  /-- A consumer leaves the registry before it closes its sink. -/
  left : s.progress.hasLeft = true → s.isRegistered = false
  /-- Only its sink brings a consumer down. -/
  crashed : ∀ noted, s.progress = .crashed noted → .crashed id noted ∈ events
  /-- A consumer has given back its worker once if it has returned, and otherwise not at all. -/
  returned : events.countP (·.givesBack id) = s.progress.isOver.toNat

theorem MoveAt.isTended {id : SubscriptionId} {events : List HubEvent} {s after : Subscription σ}
    (h : hub.MoveAt id s event after) (before : IsTended id events s) :
    IsTended id (events ++ event.toList) after := by
  have other {e : Option HubEvent} (h : e.any (·.givesBack id) = false) :
      (events ++ e.toList).countP (·.givesBack id) = s.progress.isOver.toNat := by
    have hnone : e.toList.countP (·.givesBack id) = 0 := by
      cases e with
      | none => rfl
      | some e => simpa using h
    rw [List.countP_append, before.returned, hnone, Nat.add_zero]
  have quiet {e : Option HubEvent} (h : e.any (·.concerns id) = false) :
      e.any (·.givesBack id) = false := by
    cases e with
    | none => rfl
    | some e =>
      cases hback : e.givesBack id with
      | false => simpa using hback
      | true =>
        have hconcerns := e.concerns_of_consumer? (e.consumer?_of_givesBack hback)
        simp [hconcerns] at h
  -- whatever else a move does, it registers nobody and leaves running consumers running
  cases h with
  | elsewhere h =>
    exact ⟨before.left, fun _ hs => List.mem_append_left _ (before.crashed _ hs), other (quiet h)⟩
  | accept | skip | enqueue | touch =>
    exact ⟨before.left, fun _ hs => List.mem_append_left _ (before.crashed _ hs), other rfl⟩
  | forget | shutdown =>
    exact ⟨fun _ => rfl, fun _ hs => List.mem_append_left _ (before.crashed _ hs), other rfl⟩
  | start progress | take progress | finishQueue progress | write progress | refuse progress
    | leave progress =>
    refine ⟨by simp [Progress.hasLeft], by simp, (other rfl).trans ?_⟩
    simp [progress, Progress.isOver]
  | close progress =>
    refine ⟨fun _ => before.left (by simp [progress, Progress.hasLeft]), by simp,
      (other rfl).trans ?_⟩
    simp [progress, Progress.isOver]
  | crash progress =>
    refine ⟨by simp [Progress.hasLeft], by simp, ?_⟩
    rw [List.countP_append, before.returned]
    simp [progress, Progress.isOver, HubEvent.givesBack]
  | crashClosing progress =>
    refine ⟨fun _ => before.left (by simp [progress, Progress.hasLeft]), by simp, ?_⟩
    rw [List.countP_append, before.returned]
    simp [progress, Progress.isOver, HubEvent.givesBack]
  | giveBack progress =>
    refine ⟨fun _ => before.left (by simp [progress, Progress.hasLeft]), by simp, ?_⟩
    rw [List.countP_append, before.returned]
    simp [progress, Progress.isOver, HubEvent.givesBack]

section Runs

variable {config : HubConfig} {events : List HubEvent}

theorem Run.isTended (h : Run (ofConfig config) events hub) {id : SubscriptionId}
    {s : Subscription σ} (found : hub.subscriptions[id]? = some s) : IsTended id events s := by
  refine h.subscription_induction id (IsTended id) ?_ (fun _ _ before move => move.isTended before)
    found
  intro events stream sink fresh
  refine ⟨by simp [Progress.hasLeft], by simp, ?_⟩
  have hnone : events.countP (·.givesBack id) = 0 := by
    refine List.countP_eq_zero.mpr fun e he hback => ?_
    exact fresh e he (e.consumer?_of_givesBack hback)
  rw [List.countP_append, hnone]
  rfl

/-- The consumer of a registered subscription has not left the registry. -/
theorem Run.hasLeft_eq_false (h : Run (ofConfig config) events hub) {id : SubscriptionId}
    {s : Subscription σ} (found : hub.subscriptions[id]? = some s)
    (registered : s.isRegistered = true) : s.progress.hasLeft = false := by
  refine Bool.eq_false_iff.mpr fun left => ?_
  exact absurd (((h.isTended found).left left).symm.trans registered) Bool.false_ne_true

/-- A consumer that has returned has left the registry. -/
theorem Run.not_mem_registry_of_returned (h : Run (ofConfig config) events hub)
    {id : SubscriptionId} {s : Subscription σ} (found : hub.subscriptions[id]? = some s)
    {how : Ending} (returned : s.progress = .returned how) : id ∉ hub.registry := by
  intro hmem
  obtain ⟨t, ht, registered⟩ := mem_registry.mp hmem
  obtain rfl := Option.some.inj (ht.symm.trans found)
  have stays := h.hasLeft_eq_false found registered
  rw [returned] at stays
  cases stays

/-- A registered subscription has a consumer that runs, or one that its sink has brought down in a
write. -/
theorem Run.attended (h : Run (ofConfig config) events hub) {id : SubscriptionId}
    {s : Subscription σ} (found : hub.subscriptions[id]? = some s)
    (registered : s.isRegistered = true) :
    s.progress.isOver = false ∨ s.progress = .crashed none := by
  have stays := h.hasLeft_eq_false found registered
  cases hprogress : s.progress with
  | returned how =>
    rw [hprogress] at stays
    cases stays
  | crashed noted =>
    cases noted with
    | none => exact Or.inr rfl
    | some how =>
      rw [hprogress] at stays
      cases stays
  | _ => exact Or.inl rfl

theorem Run.isBusy_or_isStranded (h : Run (ofConfig config) events hub) {s : Subscription σ}
    (hs : s ∈ hub.subscriptions) (registered : s.isRegistered = true) :
    s.isBusy = true ∨ s.isStranded = true := by
  obtain ⟨id, hid⟩ := List.mem_iff_getElem?.mp hs
  rcases h.attended hid registered with hruns | hcrashed
  · exact Or.inl (by rw [Subscription.isBusy, hruns]; rfl)
  · exact Or.inr (by rw [Subscription.isStranded, registered, hcrashed]; rfl)

theorem Run.count_le (h : Run (ofConfig config) events hub) :
    hub.count ≤ hub.busy + hub.stranded := by
  have hsplit : ∀ l : List (Subscription σ), (∀ s ∈ l, s ∈ hub.subscriptions) →
      l.countP Subscription.isRegistered
        ≤ l.countP Subscription.isBusy + l.countP Subscription.isStranded := by
    intro l hl
    induction l with
    | nil => exact Nat.zero_le _
    | cons s l ih =>
      have hrest := ih fun t ht => hl t (List.mem_cons_of_mem s ht)
      have hs := h.isBusy_or_isStranded (hl s List.mem_cons_self)
      rw [List.countP_cons, List.countP_cons, List.countP_cons]
      split
      · next hregistered =>
        rcases hs hregistered with hs | hs <;> rw [if_pos hs] <;> omega
      · omega
  rw [count_eq, busy, stranded]
  exact hsplit _ fun _ hs => hs

/-- Where no sink has brought its consumer down in a write, no entry has been left behind. -/
theorem Run.stranded_eq_zero (h : Run (ofConfig config) events hub)
    (calm : ∀ id, .crashed id none ∉ events) : hub.stranded = 0 := by
  refine List.countP_eq_zero.mpr fun s hs hstranded => ?_
  obtain ⟨id, hid⟩ := List.mem_iff_getElem?.mp hs
  simp only [Subscription.isStranded, Bool.and_eq_true, decide_eq_true_eq] at hstranded
  exact calm id ((h.isTended hid).crashed none hstranded.2)

theorem Run.workers (h : Run (ofConfig config) events hub) :
    hub.busy + hub.idleWorkers = config.workerPoolSize := by
  induction h with
  | refl => exact Nat.zero_add _
  | tail _ step ih => rw [step.move.workers, ih]

end Runs

/-- Who has left the registry stays out of it. -/
theorem Run.not_mem_registry {start : Hub σ} {events : List HubEvent} (h : Run start events hub)
    {id : SubscriptionId} (known : id < start.subscriptions.length) (left : id ∉ start.registry) :
    id ∉ hub.registry := by
  have hfound := List.getElem?_eq_getElem known
  have hleft : start.subscriptions[id].isRegistered = false := by
    cases hs : start.subscriptions[id].isRegistered with
    | false => rfl
    | true => exact absurd (mem_registry.mpr ⟨_, hfound, hs⟩) left
  have stays {hub : Hub σ} {event : Option HubEvent} {s after : Subscription σ}
      (before : s.isRegistered = false) (move : hub.MoveAt id s event after) :
      after.isRegistered = false := by
    cases hs : after.isRegistered with
    | false => rfl
    | true => exact absurd (before.symm.trans (move.isRegistered hs)) Bool.false_ne_true
  obtain ⟨after, hafter, hregistered⟩ := h.induction_at (fun _ s => s.isRegistered = false) hleft
    (fun _ _ before move => stays before move) hfound
  intro hmem
  obtain ⟨s, hs, hmember⟩ := mem_registry.mp hmem
  obtain rfl := Option.some.inj (hafter.symm.trans hs)
  exact absurd (hregistered.symm.trans hmember) Bool.false_ne_true

/-! ### The pool and the registry -/

/-- What holds of pool and registry behind a run. -/
structure Pooled (config : HubConfig) (events : List HubEvent) (hub : Hub σ) : Prop where
  /-- The workers that are not idle belong to the consumers that have not returned. -/
  workers : hub.busy + hub.idleWorkers = config.workerPoolSize
  /-- There are no more registered subscriptions than consumers that have not returned, apart from
  the entries that consumers left behind when their sinks brought them down in a write. -/
  count_le : hub.count ≤ hub.busy + hub.stranded
  /-- There are none of those as long as no sink has done so. -/
  calm : (∀ id, .crashed id none ∉ events) → hub.stranded = 0
  /-- A registered subscription has a consumer that has not returned, unless its sink has brought it
  down in a write. -/
  attended : ∀ id ∈ hub.registry, ∃ s, hub.subscriptions[id]? = some s
    ∧ (s.progress.isOver = false ∨ s.progress = .crashed none ∧ .crashed id none ∈ events)
  /-- When a sink brings its consumer down, the registry stays as it is. -/
  crashed : ∀ id noted next, Step hub (some (.crashed id noted)) next →
    next.registry = hub.registry ∧ LeftBehind id next
  /-- And an entry that is there then is removed by a publisher that finds the queue gone or by a
  shutdown, and by nothing else, at any time that follows. -/
  leftBehind : ∀ id s noted, hub.subscriptions[id]? = some s → s.progress = .crashed noted →
    LeftBehind id hub
  /-- Who has left the registry never comes back. -/
  left : ∀ id < hub.subscriptions.length, id ∉ hub.registry → ∀ later last,
    Run hub later last → id ∉ last.registry
  /-- A subscription is refused if and only if all workers have consumers that have not returned. A
  refusal is all that comes of it; there is no other hub behind it. -/
  refused : ∀ stream sink,
    hub.subscribe stream sink = .error (.refused (.poolExhausted config.workerPoolSize))
      ↔ hub.busy = config.workerPoolSize
  /-- Otherwise it is made, if queues of the capacity can be made. -/
  granted : hub.busy ≠ config.workerPoolSize → config.capacity ≤ permitLimit → ∀ stream sink,
    ∃ next, hub.subscribe stream sink = .ok (hub.subscriptions.length, next)
      ∧ Joined stream sink hub next.hub
  /-- If they cannot, then whoever asks comes down, and there is no other hub behind it either. -/
  unmakeable : hub.busy ≠ config.workerPoolSize → permitLimit < config.capacity → ∀ stream sink,
    hub.subscribe stream sink = .error .crashed
  /-- A consumer has given back its worker once if it has returned or come down, and not at all if
  it has not. -/
  returned : ∀ id, events.countP (·.givesBack id)
    = (hub.subscriptions[id]?.any fun s => s.progress.isOver).toNat
  /-- Workers are bound when subscriptions are made and set free when consumers give them back, one
  at a time, and at no other step. -/
  exchanged : ∀ event next, Step hub event next →
    (∃ id, event = some (.subscribed id)) ∧ next.idleWorkers + 1 = hub.idleWorkers
      ∨ (∃ id, event.any (·.givesBack id) = true) ∧ next.idleWorkers = hub.idleWorkers + 1
      ∨ (∀ id, event ≠ some (.subscribed id) ∧ event.any (·.givesBack id) = false)
        ∧ next.idleWorkers = hub.idleWorkers

section Runs

variable {config : HubConfig} {events : List HubEvent}

/-- All workers have consumers if and only if none is idle. -/
theorem Run.busy_eq_iff (h : Run (ofConfig config) events hub) :
    hub.busy = config.workerPoolSize ↔ hub.idleWorkers = 0 := by
  have hworkers := h.workers
  omega

theorem Run.countP_givesBack (h : Run (ofConfig config) events hub) (id : SubscriptionId) :
    events.countP (·.givesBack id)
      = (hub.subscriptions[id]?.any fun s => s.progress.isOver).toNat := by
  cases hfound : hub.subscriptions[id]? with
  | none =>
    refine List.countP_eq_zero.mpr fun e he hback => ?_
    exact h.consumer?_ne hfound e he (e.consumer?_of_givesBack hback)
  | some s => exact (h.isTended hfound).returned

/-- **At every moment of every run, registered subscriptions have consumers that run, and those have
the workers that are not idle.** Only what a sink has brought down in a write is left behind. -/
theorem Run.pooled (h : Run (ofConfig config) events hub) : Pooled config events hub where
  workers := h.workers
  count_le := h.count_le
  calm := h.stranded_eq_zero
  attended id hid := by
    obtain ⟨s, hs, registered⟩ := mem_registry.mp hid
    refine ⟨s, hs, (h.attended hs registered).imp_right fun hcrashed => ⟨hcrashed, ?_⟩⟩
    exact (h.isTended hs).crashed none hcrashed
  crashed _ _ _ step := ⟨step.registry_eq_of_crashed, step.leftBehind⟩
  leftBehind _ _ _ found crashed := Hub.leftBehind found crashed
  left id hid hleft later last hlater := hlater.not_mem_registry hid hleft
  refused stream sink := by
    have hrefused := hub.subscribe_eq_refused_iff stream sink
    rw [h.config_eq] at hrefused
    exact hrefused.trans h.busy_eq_iff.symm
  granted hbusy fits := by
    have hconfig : hub.config = config := h.config_eq
    rw [← hconfig] at fits
    exact exists_subscribe (fun idle => hbusy (h.busy_eq_iff.mpr idle)) fits
  unmakeable hbusy long stream sink := by
    have hconfig : hub.config = config := h.config_eq
    rw [← hconfig] at long
    refine (hub.subscribe_eq_crashed_iff stream sink).mpr ⟨fun idle => ?_, long⟩
    exact hbusy (h.busy_eq_iff.mpr idle)
  returned := h.countP_givesBack
  exchanged event next step := step.move.idleWorkers_eq

/-- The only worker comes back when the sink of the first subscription fails, and goes to a second
one. Then a third one is refused. -/
theorem Run.pooled_again :
    ∃ hub : Hub Recorder,
      Run (ofConfig { workerPoolSize := 1 })
        [.subscribed 0, .began 0 "a" [0], .accepted 0 0 "a", .started 0, .took 0 "a",
          .refused 0 .sinkClosed, .left 0, .closed 0, .returned 0 .closed, .subscribed 1] hub
      ∧ Pooled { workerPoolSize := 1 }
        [.subscribed 0, .began 0 "a" [0], .accepted 0 0 "a", .started 0, .took 0 "a",
          .refused 0 .sinkClosed, .left 0, .closed 0, .returned 0 .closed, .subscribed 1] hub
      ∧ hub.registry = [1] ∧ hub.busy = 1 ∧ hub.idleWorkers = 0
      ∧ hub.subscribe "updates" {} = .error (.refused (.poolExhausted 1)) := by
  have subscribed := (Run.refl (ofConfig { workerPoolSize := 1 } : Hub Recorder)).tail
    (@Step.subscribe _ _ _ "updates" { limit := some (0, .refuse .sinkClosed) } _ _ rfl)
  have came := subscribed.tail (.addPublisher _)
  have began := came.tail (@Step.publish _ _ _ 0 _ [0] "a" rfl rfl (.refl [0]))
  have accepted := began.tail (@Step.advance _ _ _ (.publisher 0) _ rfl)
  have started := accepted.tail (@Step.advance _ _ _ (.consumer 0) _ rfl)
  have took := started.tail (@Step.advance _ _ _ (.consumer 0) _ rfl)
  have refused := took.tail (@Step.advance _ _ _ (.consumer 0) _ rfl)
  have left := refused.tail (@Step.advance _ _ _ (.consumer 0) _ rfl)
  have closed := left.tail (@Step.advance _ _ _ (.consumer 0) _ rfl)
  have returned := closed.tail (@Step.advance _ _ _ (.consumer 0) _ rfl)
  have again := returned.tail (@Step.subscribe _ _ _ "updates" {} _ _ rfl)
  exact ⟨_, again, again.pooled, rfl, rfl, rfl, rfl⟩

end Runs

/-- A sink that brings its consumer down leaves an entry behind, and its worker is free for another
subscription. So there can be more registered subscriptions than consumers, and than workers. -/
theorem count_gt_workers_crashed :
    ∃ hub : Hub Recorder,
      Run (ofConfig { workerPoolSize := 1 })
        [.subscribed 0, .began 0 "a" [0], .accepted 0 0 "a", .started 0, .took 0 "a",
          .crashed 0 none, .subscribed 1] hub
      ∧ hub.count = 2 ∧ hub.busy = 1 ∧ hub.config.workerPoolSize = 1
      ∧ hub.subscriptions.map Subscription.progress = [.crashed none, .starting]
      ∧ 0 ∈ hub.registry := by
  have subscribed := (Run.refl (ofConfig { workerPoolSize := 1 } : Hub Recorder)).tail
    (@Step.subscribe _ _ _ "updates" { limit := some (0, .crash) } _ _ rfl)
  have came := subscribed.tail (.addPublisher _)
  have began := came.tail (@Step.publish _ _ _ 0 _ [0] "a" rfl rfl (.refl [0]))
  have accepted := began.tail (@Step.advance _ _ _ (.publisher 0) _ rfl)
  have started := accepted.tail (@Step.advance _ _ _ (.consumer 0) _ rfl)
  have took := started.tail (@Step.advance _ _ _ (.consumer 0) _ rfl)
  have crashed := took.tail (@Step.advance _ _ _ (.consumer 0) _ rfl)
  have again := crashed.tail (@Step.subscribe _ _ _ "updates" {} _ _ rfl)
  exact ⟨_, again, rfl, rfl, rfl, rfl, List.mem_cons_self⟩

end Hub

end Restconf
