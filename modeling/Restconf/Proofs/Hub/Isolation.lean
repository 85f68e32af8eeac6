import Restconf.Proofs.Hub.Sight

/-!
# Isolation of subscribers

Under `drop` a subscription does not notice what becomes of others: how many there are, in which
order they are visited, whether their consumers are stalled, fail or end. What its queue takes and
its sink is given follows from the steps in which it has a part itself.

## What is compared

Isolation is about two runs. They may have different subscriptions, in different numbers, so the
subscription in view may go by different numbers in them, and the pools may be of different sizes.
What the runs have in common are the steps in which this subscription has a part, in the same order:
that it is made, that a line is begun, that a publisher comes to its queue, that its consumer takes
the next step, that its sink is touched, and the shutdown. These say what is done, and not what
comes of it. Whether a queue takes the line, which line a consumer writes, and when the subscription
is removed, has to follow.

A line is begun for all that are registered, so its beginning is everybody's step; that a publisher
comes to the queue of somebody else is not.

## Main definitions

* `Hub.OwnAction`, `Hub.OwnStep`, `Hub.OtherStep` — steps as a subscription sees them
* `Hub.OwnRun` — a run with the moments at which a subscription has a part in it
* `Hub.Isolated` — the promise, of two runs

## Main results

* `Hub.step_iff` — every step is one of the two kinds
* `Hub.OtherStep.sight_eq` — steps of others are not seen
* `Hub.OwnStep.sight_eq` — equal steps leave equal sights
* `Hub.OwnRun.eq_of_sight_eq` — so do equal runs, under either policy and from any moment on
* `Hub.Run.isolated` — the promise holds of any two runs
-/

namespace Restconf.Hub

variable {σ : Type} [LineSink σ] {hub next : Hub σ} {event : Option HubEvent} {id : SubscriptionId}

/-! ### Steps as a subscription sees them -/

/-- What is done in a step in which a subscription has a part. -/
inductive OwnAction (σ : Type) where
  /-- The subscription is made. -/
  | subscribe (stream : String) (sink : σ)
  /-- A publisher begins a line. -/
  | publish (p : PublisherId) (line : String)
  /-- A publisher comes to the queue of the subscription. -/
  | visit (p : PublisherId)
  /-- The consumer takes its next step. -/
  | consume
  /-- Something happens at the far end of the sink. -/
  | touch (sink : σ)
  | shutdown

/-- A step in which a subscription has a part. -/
inductive OwnStep (id : SubscriptionId) (hub : Hub σ) :
    OwnAction σ → Option HubEvent → Hub σ → Prop where
  | subscribe {stream : String} {sink : σ} {next : Stepped σ}
    (h : hub.subscribe stream sink = .ok (id, next)) :
    OwnStep id hub (.subscribe stream sink) next.event next.hub
  | publish {p : PublisherId} {publisher : Publisher} {targets : List SubscriptionId}
    (line : String) (h : hub.publishers[p]? = some publisher) (idle : publisher.current = none)
    (order : targets.Perm hub.registry) :
    OwnStep id hub (.publish p line) (hub.publishTo p line targets).event
      (hub.publishTo p line targets).hub
  | visit {p : PublisherId} {publication : Publication} {next : Stepped σ}
    (isAt : hub.IsAt p publication id) (h : hub.visit p = some next) :
    OwnStep id hub (.visit p) next.event next.hub
  | consume {next : Stepped σ} (h : hub.consume id = some next) :
    OwnStep id hub .consume next.event next.hub
  | touch {s : Subscription σ} {sink : σ} (h : hub.subscriptions[id]? = some s)
    (far : LineSink.FarStep s.sink sink) :
    OwnStep id hub (.touch sink) none (hub.touchSink id fun _ => sink).hub
  | shutdown : OwnStep id hub .shutdown hub.shutdown.event hub.shutdown.hub

/-- A step in which a subscription has no part. -/
inductive OtherStep (id : SubscriptionId) (hub : Hub σ) : Option HubEvent → Hub σ → Prop where
  | subscribe {stream : String} {sink : σ} {i : SubscriptionId} {next : Stepped σ}
    (h : hub.subscribe stream sink = .ok (i, next)) (other : i ≠ id) :
    OtherStep id hub next.event next.hub
  | addPublisher : OtherStep id hub none hub.addPublisher.2
  | visit {p : PublisherId} {next : Stepped σ} (h : hub.visit p = some next)
    (other : ∀ publication, ¬ hub.IsAt p publication id) : OtherStep id hub next.event next.hub
  | consume {i : SubscriptionId} {next : Stepped σ} (h : hub.consume i = some next)
    (other : i ≠ id) : OtherStep id hub next.event next.hub
  | touch {i : SubscriptionId} {s : Subscription σ} {sink : σ} (h : hub.subscriptions[i]? = some s)
    (far : LineSink.FarStep s.sink sink) (other : i ≠ id) :
    OtherStep id hub none (hub.touchSink i fun _ => sink).hub

theorem OwnStep.step {action : OwnAction σ} (h : OwnStep id hub action event next) :
    Step hub event next := by
  cases h with
  | subscribe h => exact .subscribe h
  | publish line h idle order => exact .publish line h idle order
  | @visit p _ _ isAt h => exact @Step.advance _ _ _ (.publisher p) _ h
  | consume h => exact @Step.advance _ _ _ (.consumer id) _ h
  | touch h far => exact .touchSink h far
  | shutdown => exact .shutdown hub

theorem OtherStep.step (h : OtherStep id hub event next) : Step hub event next := by
  cases h with
  | subscribe h => exact .subscribe h
  | addPublisher => exact .addPublisher hub
  | @visit p _ h => exact @Step.advance _ _ _ (.publisher p) _ h
  | @consume i _ h => exact @Step.advance _ _ _ (.consumer i) _ h
  | touch h far => exact .touchSink h far

/-- **Every step is one of the two kinds.** -/
theorem step_iff (id : SubscriptionId) : Step hub event next
    ↔ (∃ action, OwnStep id hub action event next) ∨ OtherStep id hub event next := by
  constructor
  · intro h
    cases h with
    | @subscribe stream sink i next h =>
      by_cases hi : i = id
      · exact Or.inl ⟨_, .subscribe (hi ▸ h)⟩
      · exact Or.inr (.subscribe h hi)
    | addPublisher => exact Or.inr .addPublisher
    | publish line h idle order => exact Or.inl ⟨_, .publish line h idle order⟩
    | @advance runner next h =>
      cases runner with
      | consumer i =>
        by_cases hi : i = id
        · exact Or.inl ⟨_, .consume (hi ▸ h)⟩
        · exact Or.inr (.consume h hi)
      | publisher p =>
        by_cases isAt : ∃ publication, hub.IsAt p publication id
        · obtain ⟨publication, isAt⟩ := isAt
          exact Or.inl ⟨_, .visit isAt h⟩
        · exact Or.inr (.visit h fun publication h => isAt ⟨publication, h⟩)
    | @touchSink i s sink h far =>
      by_cases hi : i = id
      · subst hi
        exact Or.inl ⟨_, .touch h far⟩
      · exact Or.inr (.touch h far hi)
    | shutdown => exact Or.inl ⟨_, .shutdown⟩
  · rintro (⟨action, h⟩ | h)
    · exact h.step
    · exact h.step

/-! ### Steps of others -/

/-- A consumer shows its own steps. -/
theorem consume_shows {stepped : Stepped σ} (h : hub.consume id = some stepped) :
    ∃ e, stepped.event = some e ∧ e.consumer? = some id := by
  rw [consume] at h
  cases found : hub.subscriptions[id]? with
  | none => simp [found] at h
  | some s =>
    simp only [found] at h
    cases progress : s.progress with
    | starting | stopping | releasing =>
      simp only [progress, Option.some.injEq] at h
      subst h
      exact ⟨_, rfl, rfl⟩
    | receiving =>
      cases queue : s.queue with
      | cons line rest =>
        simp only [progress, queue, Option.some.injEq] at h
        subst h
        exact ⟨_, rfl, rfl⟩
      | nil =>
        simp only [progress, queue, Option.ite_none_left_eq_some, Option.some.injEq] at h
        obtain ⟨-, rfl⟩ := h
        exact ⟨_, rfl, rfl⟩
    | writing line =>
      simp only [progress, writeLine] at h
      cases outcome : LineSink.write s.sink line with
      | pending => simp [outcome] at h
      | _ =>
        simp only [outcome, Option.some.injEq] at h
        subst h
        exact ⟨_, rfl, rfl⟩
    | closing how =>
      simp only [progress, closeSink] at h
      cases outcome : LineSink.close s.sink with
      | pending => simp [outcome] at h
      | _ =>
        simp only [outcome, Option.some.injEq] at h
        subst h
        exact ⟨_, rfl, rfl⟩
    | returned | crashed => simp [progress] at h

omit [LineSink σ] in
/-- A publisher at a queue shows what concerns the queue. -/
theorem offer_shows {p : PublisherId} {target : SubscriptionId} {s : Subscription σ} {line : String}
    {stepped : Stepped σ} (h : hub.offer p target s line = some stepped) :
    ∃ e, stepped.event = some e ∧ e.isBeginning = false
      ∧ ∀ id, e.concerns id = decide (target = id) := by
  rw [offer] at h
  split at h
  · obtain rfl := Option.some.inj h
    cases hub.hasRoom s with
    | true => exact ⟨_, rfl, rfl, fun _ => rfl⟩
    | false => exact ⟨_, rfl, rfl, fun _ => rfl⟩
  · simp only [Option.ite_none_right_eq_some, Option.some.injEq] at h
    obtain ⟨-, rfl⟩ := h
    exact ⟨_, rfl, rfl, fun _ => rfl⟩
  · obtain rfl := Option.some.inj h
    cases hub.hasRoom s with
    | true => exact ⟨_, rfl, rfl, fun _ => rfl⟩
    | false => exact ⟨_, rfl, rfl, fun _ => rfl⟩

omit [LineSink σ] in
/-- A publisher that is on its way shows what concerns its target. -/
theorem visit_shows {p : PublisherId} {stepped : Stepped σ} (h : hub.visit p = some stepped) :
    ∃ e, stepped.event = some e ∧ e.isBeginning = false
      ∧ ∀ id, e.concerns id = true → ∃ publication, hub.IsAt p publication id := by
  cases hcurrent : hub.current p with
  | none =>
    rw [current] at hcurrent
    simp [visit, hcurrent] at h
  | some publication =>
    cases htargets : publication.targets with
    | nil =>
      rw [current] at hcurrent
      simp only [visit, hcurrent, htargets, Option.some.injEq] at h
      subst h
      exact ⟨_, rfl, rfl, fun id concerns => by cases concerns⟩
    | cons target rest =>
      have isAt : hub.IsAt p publication target := ⟨hcurrent, by rw [htargets, List.tail_cons]⟩
      suffices ∃ e, stepped.event = some e ∧ e.isBeginning = false
          ∧ ∀ id, e.concerns id = decide (target = id) by
        obtain ⟨e, hevent, begins, hconcerns⟩ := this
        refine ⟨e, hevent, begins, fun id concerns => ⟨publication, ?_⟩⟩
        rw [hconcerns, decide_eq_true_eq] at concerns
        exact concerns ▸ isAt
      cases found : hub.subscriptions[target]? with
      | none =>
        rw [visit_of_unknown isAt found, Option.some.injEq] at h
        subst h
        exact ⟨_, rfl, rfl, fun _ => rfl⟩
      | some s =>
        rw [visit_eq isAt found] at h
        split at h
        · obtain rfl := Option.some.inj h
          exact ⟨_, rfl, rfl, fun _ => rfl⟩
        · exact offer_shows h

/-- **Steps of others are not seen.** -/
theorem OtherStep.sight_eq (h : OtherStep id hub event next) (singular : hub.IsSingular)
    (events : List HubEvent) : next.sight id (events ++ event.toList) = hub.sight id events := by
  have move := h.step.move
  cases h with
  | @subscribe stream sink i stepped h other =>
    obtain ⟨-, -, rfl, rfl⟩ := subscribe_eq_ok_iff.mp h
    exact move.sight_eq_of_other singular (decide_eq_false other) rfl events
  | addPublisher =>
    have hsight := move.sight_eq singular id events
    refine hsight.trans ?_
    simp only [Sight.noting, sight, Option.elim_none, Option.toList_none, List.flatMap_nil,
      List.append_nil]
    rfl
  | visit h other =>
    obtain ⟨e, hevent, begins, concerns⟩ := visit_shows h
    rw [hevent] at move ⊢
    refine move.sight_eq_of_other singular ?_ begins events
    cases hconcerns : e.concerns id with
    | false => rfl
    | true =>
      obtain ⟨publication, isAt⟩ := concerns id hconcerns
      exact absurd isAt (other publication)
  | @consume i _ h other =>
    obtain ⟨e, hevent, hconsumer⟩ := consume_shows h
    rw [hevent] at move ⊢
    refine move.sight_eq_of_other singular ?_ ?_ events
    · rw [e.concerns_eq_of_consumer? hconsumer, decide_eq_false other]
    · exact e.isBeginning_of_consumer? hconsumer
  | touch h far other =>
    have hsight := move.sight_eq singular id events
    refine hsight.trans ?_
    simp [Sight.noting, touchSink, sight, getElem?_update, other]

/-! ### Equal steps -/

omit [LineSink σ] in
theorem subscribe_shows {stream : String} {sink : σ} {stepped : Stepped σ}
    (h : hub.subscribe stream sink = .ok (id, stepped)) :
    stepped.event = some (.subscribed id)
      ∧ stepped.hub.subscriptions[id]? = some { stream, sink } := by
  obtain ⟨-, -, rfl, rfl⟩ := subscribe_eq_ok_iff.mp h
  exact ⟨rfl, List.getElem?_concat_length⟩

section Steps

variable {config : HubConfig} {events : List HubEvent}

/-- Nobody has a target twice at any moment of a run. -/
theorem Run.isSingular (h : Run (ofConfig config) events hub) : hub.IsSingular :=
  fun p publication underWay => (h.underWay p publication underWay).nodup

variable {events₁ events₂ : List HubEvent} {hub₁ hub₂ : Hub σ} {id₁ id₂ : SubscriptionId}
  {next₁ next₂ : Hub σ} {event₁ event₂ : Option HubEvent} {action : OwnAction σ}

/-- **Equal steps leave equal sights**, whatever the policy is. -/
theorem OwnStep.sight_eq (policy : hub₁.config.overflow = hub₂.config.overflow)
    (capacity : hub₁.config.capacity = hub₂.config.capacity) (singular₁ : hub₁.IsSingular)
    (singular₂ : hub₂.IsSingular) (same : hub₁.sight id₁ events₁ = hub₂.sight id₂ events₂)
    (own₁ : OwnStep id₁ hub₁ action event₁ next₁) (own₂ : OwnStep id₂ hub₂ action event₂ next₂) :
    next₁.sight id₁ (events₁ ++ event₁.toList) = next₂.sight id₂ (events₂ ++ event₂.toList) := by
  have subscription : hub₁.subscriptions[id₁]? = hub₂.subscriptions[id₂]? :=
    congrArg Sight.subscription same
  rw [own₁.step.move.sight_eq singular₁, own₂.step.move.sight_eq singular₂, same]
  cases own₁ with
  | subscribe h₁ =>
    cases own₂ with
    | subscribe h₂ =>
      obtain ⟨hevent₁, hmade₁⟩ := subscribe_shows h₁
      obtain ⟨hevent₂, hmade₂⟩ := subscribe_shows h₂
      rw [hevent₁, hevent₂]
      exact Sight.noting_eq _ (hmade₁.trans hmade₂.symm) rfl rfl fun _ _ => rfl
  | @publish p publisher₁ targets₁ line h₁ idle₁ order₁ =>
    cases own₂ with
    | publish _ h₂ idle₂ order₂ =>
      refine Sight.noting_eq _ subscription rfl rfl fun q before => ?_
      have registered : id₁ ∈ hub₁.registry ↔ id₂ ∈ hub₂.registry := by
        rw [mem_registry, mem_registry, subscription]
      simp only [HubEvent.lineAwaited, order₁.mem_iff, order₂.mem_iff, registered]
  | @visit p publication₁ next₁ isAt₁ h₁ =>
    cases own₂ with
    | @visit _ publication₂ next₂ isAt₂ h₂ =>
      cases found₁ : hub₁.subscriptions[id₁]? with
      | none =>
        have found₂ := subscription ▸ found₁
        rw [visit_of_unknown isAt₁ found₁, Option.some.injEq] at h₁
        rw [visit_of_unknown isAt₂ found₂, Option.some.injEq] at h₂
        subst h₁ h₂
        refine Sight.noting_eq _ subscription rfl rfl fun _ _ => ?_
        simp [HubEvent.lineAwaited]
      | some s =>
        refine noting_eq_of_visit isAt₁ isAt₂ found₁ (subscription ▸ found₁) ?_ policy capacity
          h₁ h₂ _
        have awaited : hub₁.awaited id₁ p = hub₂.awaited id₂ p :=
          congrFun (congrArg Sight.awaited same) p
        rw [isAt₁.awaited_eq, isAt₂.awaited_eq] at awaited
        exact Option.some.inj awaited
  | consume h₁ =>
    cases own₂ with
    | consume h₂ =>
      cases found₁ : hub₁.subscriptions[id₁]? with
      | none => simp [Hub.consume, found₁] at h₁
      | some s => exact noting_eq_of_consume found₁ (subscription ▸ found₁) h₁ h₂ _
  | touch found₁ far₁ =>
    cases own₂ with
    | touch found₂ far₂ =>
      simp [touchSink, getElem?_update, subscription, Sight.noting]
  | shutdown =>
    cases own₂ with
    | shutdown =>
      refine Sight.noting_eq _ ?_ rfl rfl fun _ _ => rfl
      simp only [Hub.shutdown, List.getElem?_map, subscription]

end Steps

/-! ### Runs as a subscription sees them -/

/-- A moment at which a subscription has a part in a run: what is done, and what it sees behind
that. -/
structure Moment (σ : Type) where
  action : OwnAction σ
  sight : Sight σ

/-- A run, with the moments at which a subscription has a part in it. -/
inductive OwnRun (id : SubscriptionId) (start : Hub σ) :
    List (Moment σ) → List HubEvent → Hub σ → Prop where
  | refl : OwnRun id start [] [] start
  | own {moments : List (Moment σ)} {events : List HubEvent} {hub next : Hub σ}
    {action : OwnAction σ} {event : Option HubEvent} (h : OwnRun id start moments events hub)
    (step : OwnStep id hub action event next) :
    OwnRun id start (moments ++ [⟨action, next.sight id (events ++ event.toList)⟩])
      (events ++ event.toList) next
  | other {moments : List (Moment σ)} {events : List HubEvent} {hub next : Hub σ}
    {event : Option HubEvent} (h : OwnRun id start moments events hub)
    (step : OtherStep id hub event next) : OwnRun id start moments (events ++ event.toList) next

section Runs

variable {start : Hub σ} {events : List HubEvent} {moments : List (Moment σ)} {config : HubConfig}

theorem OwnRun.run (h : OwnRun id start moments events hub) : Run start events hub := by
  induction h with
  | refl => exact .refl start
  | own _ step ih => exact ih.tail step.step
  | other _ step ih => exact ih.tail step.step

/-- Every run can be seen so. -/
theorem Run.exists_ownRun (h : Run start events hub) (id : SubscriptionId) :
    ∃ moments, OwnRun id start moments events hub := by
  induction h with
  | refl => exact ⟨[], .refl⟩
  | tail _ step ih =>
    obtain ⟨moments, run⟩ := ih
    rcases (step_iff id).mp step with ⟨action, own⟩ | other
    · exact ⟨_, run.own own⟩
    · exact ⟨_, run.other other⟩

/-- What a subscription sees behind a run, it has seen since the last moment at which it had a part
in it. -/
theorem OwnRun.last {prior : List HubEvent} (reached : Run (ofConfig config) prior start)
    (h : OwnRun id start moments events hub) :
    moments = [] ∧ hub.sight id events = start.sight id []
    ∨ ∃ earlier action shown before event next,
      moments = earlier ++ [⟨action, next.sight id (shown ++ event.toList)⟩]
        ∧ OwnRun id start earlier shown before ∧ OwnStep id before action event next
        ∧ hub.sight id events = next.sight id (shown ++ event.toList) := by
  induction h with
  | refl => exact Or.inl ⟨rfl, rfl⟩
  | own h step => exact Or.inr ⟨_, _, _, _, _, _, rfl, h, step, rfl⟩
  | @other moments events hub next event h step ih =>
    rw [step.sight_eq (reached.trans h.run).isSingular]
    exact ih

variable {config₁ config₂ : HubConfig} {prior₁ prior₂ events₁ events₂ : List HubEvent}
  {start₁ start₂ hub₁ hub₂ : Hub σ} {moments₁ moments₂ : List (Moment σ)}
  {id₁ id₂ : SubscriptionId}

/-- **From equal sights on, runs with equal steps of a subscription are equal to it**, whatever the
policy is and whatever happened before. -/
theorem OwnRun.eq_of_sight_eq (policy : config₁.overflow = config₂.overflow)
    (capacity : config₁.capacity = config₂.capacity)
    (reached₁ : Run (ofConfig config₁) prior₁ start₁)
    (reached₂ : Run (ofConfig config₂) prior₂ start₂)
    (begins : start₁.sight id₁ [] = start₂.sight id₂ [])
    (h₁ : OwnRun id₁ start₁ moments₁ events₁ hub₁) (h₂ : OwnRun id₂ start₂ moments₂ events₂ hub₂)
    (same : moments₁.map Moment.action = moments₂.map Moment.action) :
    moments₁ = moments₂ ∧ hub₁.sight id₁ events₁ = hub₂.sight id₂ events₂ := by
  induction h₁ generalizing moments₂ events₂ hub₂ with
  | refl =>
    rcases h₂.last reached₂ with
      ⟨rfl, hsight⟩ | ⟨earlier, action, shown, before, event, next, rfl, -⟩
    · exact ⟨rfl, begins.trans hsight.symm⟩
    · simp at same
  | @own earlier₁ shown₁ before₁ next₁ action₁ event₁ run₁ own₁ ih =>
    rcases h₂.last reached₂ with ⟨rfl, -⟩
      | ⟨earlier₂, action₂, shown₂, before₂, event₂, next₂, rfl, run₂, own₂, hsight⟩
    · simp at same
    · rw [List.map_append, List.map_append] at same
      obtain ⟨hearlier, hlast⟩ := List.append_inj' same rfl
      obtain rfl : action₁ = action₂ := List.head_eq_of_cons_eq hlast
      obtain ⟨rfl, hbefore⟩ := ih run₂ hearlier
      have whole₁ := reached₁.trans run₁.run
      have whole₂ := reached₂.trans run₂.run
      have hnext := own₁.sight_eq (by rw [whole₁.config_eq, whole₂.config_eq]; exact policy)
        (by rw [whole₁.config_eq, whole₂.config_eq]; exact capacity) whole₁.isSingular
        whole₂.isSingular hbefore own₂
      rw [hsight, hnext]
      exact ⟨rfl, rfl⟩
  | other run₁ other₁ ih =>
    rw [other₁.sight_eq (reached₁.trans run₁.run).isSingular]
    exact ih h₂ same

/-- Runs with equal steps of a subscription are equal to it. -/
theorem OwnRun.eq (drop₁ : config₁.overflow = .drop) (drop₂ : config₂.overflow = .drop)
    (capacity : config₁.capacity = config₂.capacity)
    (h₁ : OwnRun id₁ (ofConfig config₁) moments₁ events₁ hub₁)
    (h₂ : OwnRun id₂ (ofConfig config₂) moments₂ events₂ hub₂)
    (same : moments₁.map Moment.action = moments₂.map Moment.action) :
    moments₁ = moments₂ ∧ hub₁.sight id₁ events₁ = hub₂.sight id₂ events₂ :=
  OwnRun.eq_of_sight_eq (drop₁.trans drop₂.symm) capacity (.refl _) (.refl _) rfl h₁ h₂ same

end Runs

/-! ### The promise -/

section Promise

variable {config : HubConfig} {events : List HubEvent}

/-- Under `drop` nobody waits for room. -/
theorem Run.not_waits (drop : config.overflow = .drop) (h : Run (ofConfig config) events hub)
    (p : PublisherId) (id : SubscriptionId) : .waits p id ∉ events := by
  induction h with
  | refl => exact List.not_mem_nil
  | @tail b c events event run step ih =>
    intro hmem
    rcases List.mem_append.mp hmem with hmem | hmem
    · exact ih hmem
    · have hevent : event = some (.waits p id) := Option.mem_toList.mp hmem
      have hdrop : b.config.overflow = .drop := by rw [run.config_eq]; exact drop
      cases step.move with
      | enqueue _ _ _ policy => cases hdrop.symm.trans policy
      | _ => cases hevent

/-- Under `drop` a publisher that has a line under way can go on at any time. -/
theorem Run.exists_visit (drop : config.overflow = .drop) (h : Run (ofConfig config) events hub)
    {p : PublisherId} {publication : Publication} (underWay : hub.current p = some publication) :
    ∃ next, hub.visit p = some next := by
  cases hvisit : hub.visit p with
  | some next => exact ⟨next, rfl⟩
  | none =>
    obtain ⟨-, -, -, -, -, -, policy, -⟩ := visit_eq_none underWay hvisit
    rw [h.config_eq] at policy
    cases drop.symm.trans policy

/-- No publisher waits, and none has to. -/
structure Unwaiting (events : List HubEvent) (hub : Hub σ) : Prop where
  never : ∀ p id, .waits p id ∉ events
  proceeds : ∀ p publication, hub.current p = some publication → ∃ next, hub.visit p = some next

theorem Run.unwaiting (drop : config.overflow = .drop) (h : Run (ofConfig config) events hub) :
    Unwaiting events hub :=
  ⟨h.not_waits drop, fun _ _ => h.exists_visit drop⟩

/-- What is promised of two runs to a subscription of each, as isolation from all others. -/
structure Isolated (config₁ config₂ : HubConfig) (events₁ events₂ : List HubEvent)
    (hub₁ hub₂ : Hub σ) (id₁ id₂ : SubscriptionId) : Prop where
  /-- Each run can be taken apart into steps in which the subscription has a part, and steps of
  others. -/
  seen₁ : ∃ moments, OwnRun id₁ (ofConfig config₁) moments events₁ hub₁
  seen₂ : ∃ moments, OwnRun id₂ (ofConfig config₂) moments events₂ hub₂
  /-- If the runs have the steps of the subscription in common, it sees the same in both: behind
  each of these steps and at the end, which is any moment of a longer run. It sees its own state,
  its entry in the registry, the lines that its queue has taken and those that its sink has been
  given. And its consumer can go on in both runs or in neither. -/
  alike : ∀ moments₁ moments₂, OwnRun id₁ (ofConfig config₁) moments₁ events₁ hub₁ →
    OwnRun id₂ (ofConfig config₂) moments₂ events₂ hub₂ →
    moments₁.map Moment.action = moments₂.map Moment.action →
      moments₁ = moments₂ ∧ hub₁.sight id₁ events₁ = hub₂.sight id₂ events₂
        ∧ (hub₁.consume id₁).isSome = (hub₂.consume id₂).isSome
  unwaiting₁ : Unwaiting events₁ hub₁
  unwaiting₂ : Unwaiting events₂ hub₂

/-- **Under `drop` subscribers are isolated from each other.** -/
theorem Run.isolated {config₁ config₂ : HubConfig} {events₁ events₂ : List HubEvent}
    {hub₁ hub₂ : Hub σ} (drop₁ : config₁.overflow = .drop) (drop₂ : config₂.overflow = .drop)
    (capacity : config₁.capacity = config₂.capacity) (run₁ : Run (ofConfig config₁) events₁ hub₁)
    (run₂ : Run (ofConfig config₂) events₂ hub₂) (id₁ id₂ : SubscriptionId) :
    Isolated config₁ config₂ events₁ events₂ hub₁ hub₂ id₁ id₂ where
  seen₁ := run₁.exists_ownRun id₁
  seen₂ := run₂.exists_ownRun id₂
  alike moments₁ moments₂ h₁ h₂ same := by
    obtain ⟨hmoments, hsight⟩ := h₁.eq drop₁ drop₂ capacity h₂ same
    exact ⟨hmoments, hsight, isSome_consume_eq hsight⟩
  unwaiting₁ := run₁.unwaiting drop₁
  unwaiting₂ := run₂.unwaiting drop₂

omit [LineSink σ] in
theorem not_isAt {p : PublisherId} {publication : Publication}
    (current : hub.current p = some publication) (h : publication.targets.head? ≠ some id) :
    ∀ other, ¬ hub.IsAt p other id := by
  intro other isAt
  obtain rfl := Option.some.inj (current.symm.trans isAt.current)
  exact h (by rw [isAt.next, List.head?_cons])

/-- A subscription whose neighbour does not run, so that its queue of one line overflows, and the
same subscription without neighbours. -/
theorem Run.isolated_alone :
    ∃ (hub₁ hub₂ : Hub Recorder) (events₁ events₂ : List HubEvent)
      (moments₁ moments₂ : List (Moment Recorder)),
      Isolated { queueCapacity := 1, overflow := .drop } { queueCapacity := 1, overflow := .drop }
        events₁ events₂ hub₁ hub₂ 1 0
      ∧ OwnRun 1 (ofConfig { queueCapacity := 1, overflow := .drop }) moments₁ events₁ hub₁
      ∧ OwnRun 0 (ofConfig { queueCapacity := 1, overflow := .drop }) moments₂ events₂ hub₂
      ∧ moments₁.map Moment.action = moments₂.map Moment.action
      ∧ events₁.contains (.passed 0 0) = true
      ∧ (hub₁.sight 1 events₁).lines = ["a", "b"] ∧ (hub₁.sight 1 events₁).written = ["a"] := by
  -- beside a neighbour
  have start : OwnRun 1 (ofConfig { queueCapacity := 1, overflow := .drop } : Hub Recorder)
    [] [] _ := .refl
  have neighbour := start.other (@OtherStep.subscribe _ _ _ _ "updates" {} _ _ rfl (by decide))
  have made := neighbour.own (@OwnStep.subscribe _ _ _ _ "updates" {} _ rfl)
  have came := made.other .addPublisher
  have began := came.own (@OwnStep.publish _ _ _ _ 0 _ [0, 1] "a" rfl rfl (.refl [0, 1]))
  have passedBy := began.other (@OtherStep.visit _ _ _ _ 0 _ rfl (not_isAt rfl (by decide)))
  have accepted := passedBy.own (@OwnStep.visit _ _ _ _ 0 _ _ ⟨rfl, rfl⟩ rfl)
  have completed := accepted.other (@OtherStep.visit _ _ _ _ 0 _ rfl (not_isAt rfl (by decide)))
  have started := completed.own (.consume rfl)
  have took := started.own (.consume rfl)
  have beganAgain := took.own (@OwnStep.publish _ _ _ _ 0 _ [1, 0] "b" rfl rfl (.swap 0 1 []))
  have acceptedAgain := beganAgain.own (@OwnStep.visit _ _ _ _ 0 _ _ ⟨rfl, rfl⟩ rfl)
  have overflowed :=
    acceptedAgain.other (@OtherStep.visit _ _ _ _ 0 _ rfl (not_isAt rfl (by decide)))
  have wrote := overflowed.own (.consume rfl)
  -- alone
  have start' : OwnRun 0 (ofConfig { queueCapacity := 1, overflow := .drop } : Hub Recorder)
    [] [] _ := .refl
  have made' := start'.own (@OwnStep.subscribe _ _ _ _ "updates" {} _ rfl)
  have came' := made'.other .addPublisher
  have began' := came'.own (@OwnStep.publish _ _ _ _ 0 _ [0] "a" rfl rfl (.refl [0]))
  have accepted' := began'.own (@OwnStep.visit _ _ _ _ 0 _ _ ⟨rfl, rfl⟩ rfl)
  have completed' := accepted'.other (@OtherStep.visit _ _ _ _ 0 _ rfl (not_isAt rfl (by decide)))
  have started' := completed'.own (.consume rfl)
  have took' := started'.own (.consume rfl)
  have beganAgain' := took'.own (@OwnStep.publish _ _ _ _ 0 _ [0] "b" rfl rfl (.refl [0]))
  have acceptedAgain' := beganAgain'.own (@OwnStep.visit _ _ _ _ 0 _ _ ⟨rfl, rfl⟩ rfl)
  have wrote' := acceptedAgain'.own (.consume rfl)
  exact ⟨_, _, _, _, _, _, wrote.run.isolated rfl rfl rfl wrote'.run 1 0, wrote, wrote', rfl, rfl,
    rfl, rfl⟩

end Promise

end Restconf.Hub
