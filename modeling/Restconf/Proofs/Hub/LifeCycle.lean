import Restconf.Proofs.Hub.FanOut
import Restconf.Proofs.Hub.Sight
import Restconf.Proofs.Hub.Stall

/-!
# The life of a subscription

A subscription is registered, then its consumer delivers, and then it has ended, as closed or as
failed. Which of the two is decided by what the sink answers, or by the end of the queue, and by
nothing else that happens in the hub meanwhile.

## Why the consumer is followed alone

Publishers, shutdowns and other consumers come between any two steps of a consumer, and they change
its queue and its entry in the registry. They never change how far it is, nor the state that it has
noted. So what it has shown so far, taken by itself, says where it is: `Life`. A consumer that has
stopped has only a fixed rest to show, its `Progress.trail`, and this is why no line is written
behind a failure and why the sink is closed once.

## Writes that fail

A write fails in two ways. If the sink refuses the line, the consumer stops and shows its rest. If
the sink brings the consumer down, there is nobody left to do this: no end is noted, the sink is not
closed, and the entry in the registry is left behind. For those who ask the hub, the state is still
that of a consumer that delivers; who waits for its end is told that it has failed. That no line
follows holds in both cases. The rest is promised of the first, `Hub.WindsUp`, and does not hold of
the second, `Hub.Deserted`: `Hub.crashed_unclosed` is a hub that has come to rest so.

## Main definitions

* `shownBy` — the steps of one consumer among the events of a run
* `phasesOf` — the states that a subscription has had
* `Hub.WriteReturned`, `Hub.QueueEnded` — why a consumer stops
* `Hub.AtRest` — where a consumer is that can go no further
* `Hub.LifeCycle` — what is promised of one subscription

## Main results

* `Hub.MoveAt.trail` — a consumer that has stopped goes on with its rest
* `Hub.Run.life` — what a consumer has shown says where it is
* `Hub.Run.atRest` — a consumer that waits for a line waits at a queue that is held
* `Hub.Run.lifeCycle` — the headline
-/

namespace Restconf

/-! ### What a consumer shows -/

/-- The steps of one consumer, in order. -/
def shownBy (id : SubscriptionId) (events : List HubEvent) : List HubEvent :=
  events.filter fun e => e.consumer? = some id

/-- The state that a subscription enters. -/
def HubEvent.enters (id : SubscriptionId) : HubEvent → Option Phase
  | started i => if i = id then some .streaming else none
  | ended i => if i = id then some (.ended .closed) else none
  | refused i fault =>
    if i = id then some (.ended (if fault = .sinkClosed then .closed else .failed)) else none
  | _ => none

/-- The states that a subscription has had, the present one last. -/
def phasesOf (id : SubscriptionId) (events : List HubEvent) : List Phase :=
  .registered :: events.filterMap (HubEvent.enters id)

theorem shownBy_append (id : SubscriptionId) (events later : List HubEvent) :
    shownBy id (events ++ later) = shownBy id events ++ shownBy id later := List.filter_append ..

theorem mem_shownBy {id : SubscriptionId} {events : List HubEvent} {e : HubEvent} :
    e ∈ shownBy id events ↔ e ∈ events ∧ e.consumer? = some id := by
  rw [shownBy, List.mem_filter, decide_eq_true_iff]

/-- Only its own consumer changes the state of a subscription. -/
theorem phasesOf_shownBy (id : SubscriptionId) (events : List HubEvent) :
    phasesOf id (shownBy id events) = phasesOf id events := by
  rw [phasesOf, phasesOf, shownBy, List.filterMap_filter]
  refine congrArg (Phase.registered :: events.filterMap ·) (funext fun e => ?_)
  split
  · rfl
  · next other =>
    cases e with
    | started i | ended i | refused i =>
      rw [HubEvent.enters, if_neg]
      rintro rfl
      exact other (decide_eq_true rfl)
    | _ => rfl

/-- The consumer waits for a line or writes one. -/
def Progress.isStreaming : Progress → Bool
  | receiving | writing _ => true
  | _ => false

/-- How a consumer ends that has stopped, and what it has shown since. -/
def Progress.trail (id : SubscriptionId) : Progress → Option (Ending × List HubEvent)
  | stopping how => some (how, [])
  | closing how => some (how, [.left id])
  | releasing how => some (how, [.left id, .closed id])
  | returned how => some (how, [.left id, .closed id, .returned id how])
  | crashed (some how) => some (how, [.left id, .crashed id (some how)])
  | starting | receiving | writing _ | crashed none => none

/-- The rest of a consumer that has stopped, as far as it has come: it leaves the registry, closes
the sink and returns, unless the sink brings it down instead of being closed. -/
def IsRest (id : SubscriptionId) (how : Ending) (shown : List HubEvent) : Prop :=
  shown <+: [.left id, .closed id, .returned id how] ∨ shown = [.left id, .crashed id (some how)]

theorem Progress.isRest {id : SubscriptionId} {progress : Progress} {how : Ending}
    {trail : List HubEvent} (h : progress.trail id = some (how, trail)) : IsRest id how trail := by
  cases progress with
  | stopping | closing | releasing =>
    cases h
    exact Or.inl ⟨_, rfl⟩
  | returned =>
    cases h
    exact Or.inl ⟨[], rfl⟩
  | crashed noted =>
    cases noted with
    | none => cases h
    | some how =>
      cases h
      exact Or.inr rfl
  | starting | receiving | writing => cases h

/-- No line is written in the rest. -/
theorem IsRest.not_wrote {id : SubscriptionId} {how : Ending} {shown : List HubEvent}
    (h : IsRest id how shown) (line : String) : .wrote id line ∉ shown := by
  intro hmem
  rcases h with hprefix | rfl
  · simpa using hprefix.subset hmem
  · simp at hmem

namespace Hub

/-- Lines are taken and written. -/
def IsDelivery (id : SubscriptionId) (events : List HubEvent) : Prop :=
  ∀ e ∈ events, ∃ line, e = .took id line ∨ e = .wrote id line

/-- **Where a consumer is**, by what it has shown. -/
inductive Life (id : SubscriptionId) (shown : List HubEvent) (progress : Progress) (phase : Phase) :
    Prop where
  | unstarted (nothing : shown = []) (progress : progress = .starting) (phase : phase = .registered)
  | delivering {lines : List HubEvent} (shown : shown = .started id :: lines)
    (lines : IsDelivery id lines) (progress : progress.isStreaming = true)
    (phase : phase = .streaming)
  /-- Its sink has brought it down in a write. -/
  | crashed {lines : List HubEvent} (shown : shown = .started id :: lines ++ [.crashed id none])
    (lines : IsDelivery id lines) (progress : progress = .crashed none)
    (phase : phase = .streaming)
  | stopped {lines trail : List HubEvent} {stop : HubEvent} {how : Ending}
    (shown : shown = .started id :: lines ++ stop :: trail) (lines : IsDelivery id lines)
    (stop : stop.enters id = some (.ended how)) (trail : progress.trail id = some (how, trail))
    (phase : phase = .ended how)

variable {σ : Type} [LineSink σ] {hub next start : Hub σ} {event : Option HubEvent}
  {id : SubscriptionId} {s after : Subscription σ} {config : HubConfig}
  {events later shown : List HubEvent} {how : Ending}

theorem shownBy_of_consumer? {e : HubEvent} (h : e.consumer? = some id) : shownBy id [e] = [e] := by
  rw [shownBy, List.filter_cons_of_pos (by simpa using h), List.filter_nil]

/-- What others show is none of it. -/
theorem shownBy_of_not_concerns (other : event.any (·.concerns id) = false) :
    shownBy id event.toList = [] := by
  refine List.filter_eq_nil_iff.mpr fun e he hown => ?_
  obtain rfl := Option.mem_toList.mp he
  have hconcerns := e.concerns_of_consumer? (of_decide_eq_true hown)
  simp [hconcerns] at other

/-- **A consumer that has stopped goes on with its rest**, and takes and writes nothing. -/
theorem MoveAt.trail (h : hub.MoveAt id s event after)
    (stopped : s.progress.trail id = some (how, shown)) :
    after.progress.trail id = some (how, shown ++ shownBy id event.toList)
      ∧ after.phase = s.phase := by
  have quiet (hnone : shownBy id event.toList = []) :
      s.progress.trail id = some (how, shown ++ shownBy id event.toList) ∧ s.phase = s.phase := by
    rw [hnone, List.append_nil]
    exact ⟨stopped, rfl⟩
  cases h with
  | elsewhere other => exact quiet (shownBy_of_not_concerns other)
  | accept | skip | forget | enqueue | touch | shutdown => exact quiet rfl
  | leave progress | close progress | crashClosing progress | giveBack progress =>
    rw [progress] at stopped
    cases stopped
    rw [Option.toList_some, shownBy_of_consumer? rfl]
    exact ⟨rfl, rfl⟩
  | start progress | take progress | finishQueue progress | write progress | refuse progress
    | crash progress =>
    rw [progress] at stopped
    cases stopped

namespace Life

variable {progress : Progress} {phase : Phase}

theorem of_starting (h : Life id shown progress phase) (starting : progress = .starting) :
    shown = [] := by
  subst starting
  cases h with
  | unstarted nothing => exact nothing
  | delivering _ _ hprogress | crashed _ _ hprogress | stopped _ _ _ hprogress => cases hprogress

theorem of_isStreaming (h : Life id shown progress phase)
    (streaming : progress.isStreaming = true) :
    ∃ lines, shown = .started id :: lines ∧ IsDelivery id lines ∧ phase = .streaming := by
  cases h with
  | unstarted _ hprogress | crashed _ _ hprogress =>
    rw [hprogress] at streaming
    cases streaming
  | delivering hshown hlines _ hphase => exact ⟨_, hshown, hlines, hphase⟩
  | stopped _ _ _ htrail => cases progress <;> simp_all [Progress.trail, Progress.isStreaming]

theorem of_trail {trail : List HubEvent} (h : Life id shown progress phase)
    (stopped : progress.trail id = some (how, trail)) :
    ∃ lines stop, shown = .started id :: lines ++ stop :: trail ∧ IsDelivery id lines
      ∧ stop.enters id = some (.ended how) ∧ phase = .ended how := by
  cases h with
  | unstarted _ hprogress | crashed _ _ hprogress =>
    rw [hprogress] at stopped
    cases stopped
  | delivering _ _ hprogress => cases progress <;> simp_all [Progress.trail, Progress.isStreaming]
  | stopped hshown hlines hstop htrail hphase =>
    cases htrail.symm.trans stopped
    exact ⟨_, _, hshown, hlines, hstop, hphase⟩

end Life

theorem IsDelivery.append {lines : List HubEvent} (h : IsDelivery id lines) {line : String}
    {e : HubEvent} (he : e = .took id line ∨ e = .wrote id line) :
    IsDelivery id (lines ++ [e]) := by
  intro e' hmem
  rcases List.mem_append.mp hmem with hmem | hmem
  · exact h e' hmem
  · obtain rfl := List.mem_singleton.mp hmem
    exact ⟨line, he⟩

/-- What a consumer has shown, one move further. -/
theorem MoveAt.life (h : hub.MoveAt id s event after) (before : Life id shown s.progress s.phase) :
    Life id (shown ++ shownBy id event.toList) after.progress after.phase := by
  have quiet (hnone : shownBy id event.toList = []) :
      Life id (shown ++ shownBy id event.toList) s.progress s.phase := by
    rwa [hnone, List.append_nil]
  have rest {how trail} (stopped : s.progress.trail id = some (how, trail)) :
      Life id (shown ++ shownBy id event.toList) after.progress after.phase := by
    obtain ⟨lines, stop, rfl, hlines, hstop, hphase⟩ := before.of_trail stopped
    obtain ⟨htrail, hsame⟩ := h.trail stopped
    exact .stopped (List.append_assoc ..) hlines hstop htrail (hsame.trans hphase)
  cases h with
  | elsewhere other => exact quiet (shownBy_of_not_concerns other)
  | accept | skip | forget | enqueue | touch | shutdown => exact quiet rfl
  | start progress =>
    obtain rfl := before.of_starting progress
    rw [Option.toList_some, shownBy_of_consumer? rfl]
    exact .delivering rfl (fun e he => absurd he List.not_mem_nil) rfl rfl
  | take progress =>
    obtain ⟨lines, rfl, hlines, hphase⟩ := before.of_isStreaming (by rw [progress]; rfl)
    rw [Option.toList_some, shownBy_of_consumer? rfl]
    exact .delivering rfl (hlines.append (Or.inl rfl)) rfl hphase
  | write progress =>
    obtain ⟨lines, rfl, hlines, hphase⟩ := before.of_isStreaming (by rw [progress]; rfl)
    rw [Option.toList_some, shownBy_of_consumer? rfl]
    exact .delivering rfl (hlines.append (Or.inr rfl)) rfl hphase
  | crash progress =>
    obtain ⟨lines, rfl, hlines, hphase⟩ := before.of_isStreaming (by rw [progress]; rfl)
    rw [Option.toList_some, shownBy_of_consumer? rfl]
    exact .crashed rfl hlines rfl hphase
  | finishQueue progress =>
    obtain ⟨lines, rfl, hlines, -⟩ := before.of_isStreaming (by rw [progress]; rfl)
    rw [Option.toList_some, shownBy_of_consumer? rfl]
    exact .stopped rfl hlines (if_pos rfl) rfl rfl
  | refuse progress outcome reason =>
    obtain ⟨lines, rfl, hlines, -⟩ := before.of_isStreaming (by rw [progress]; rfl)
    rw [Option.toList_some, shownBy_of_consumer? rfl]
    exact .stopped rfl hlines (by rw [reason]; exact if_pos rfl) rfl rfl
  | leave progress | close progress | crashClosing progress | giveBack progress =>
    exact rest (by rw [progress]; rfl)

/-- **What a consumer has shown says where it is.** -/
theorem Run.life (h : Run (ofConfig config) events hub) (found : hub.subscriptions[id]? = some s) :
    Life id (shownBy id events) s.progress s.phase := by
  refine h.subscription_induction id
    (fun events s => Life id (shownBy id events) s.progress s.phase) ?_ ?_ found
  · intro events stream sink fresh
    refine .unstarted (List.filter_eq_nil_iff.mpr fun e he hown => ?_) rfl rfl
    rcases List.mem_append.mp he with he | he
    · exact fresh e he (of_decide_eq_true hown)
    · obtain rfl := List.mem_singleton.mp he
      cases of_decide_eq_true hown
  · intro hub events s event after _ _ before move
    rw [shownBy_append]
    exact move.life before

theorem Run.phase_of_isStreaming (h : Run (ofConfig config) events hub)
    (found : hub.subscriptions[id]? = some s) (streaming : s.progress.isStreaming = true) :
    s.phase = .streaming := by
  obtain ⟨-, -, -, hphase⟩ := (h.life found).of_isStreaming streaming
  exact hphase

theorem Run.phase_of_trail (h : Run (ofConfig config) events hub)
    (found : hub.subscriptions[id]? = some s) {trail : List HubEvent}
    (stopped : s.progress.trail id = some (how, trail)) : s.phase = .ended how := by
  obtain ⟨-, -, -, -, -, hphase⟩ := (h.life found).of_trail stopped
  exact hphase

/-! ### The states -/

theorem IsDelivery.filterMap_enters {lines : List HubEvent} (h : IsDelivery id lines) :
    lines.filterMap (HubEvent.enters id) = [] := by
  refine List.filterMap_eq_nil_iff.mpr fun e he => ?_
  obtain ⟨line, rfl | rfl⟩ := h e he <;> rfl

/-- Nothing that a consumer shows behind its end changes the state. -/
theorem filterMap_enters_trail {progress : Progress} {trail : List HubEvent}
    (h : progress.trail id = some (how, trail)) : trail.filterMap (HubEvent.enters id) = [] := by
  rcases Progress.isRest h with hprefix | rfl
  · refine List.filterMap_eq_nil_iff.mpr fun e he => ?_
    have hrest := hprefix.subset he
    simp only [List.mem_cons, List.not_mem_nil, or_false] at hrest
    rcases hrest with rfl | rfl | rfl <;> rfl
  · rfl

/-- **The states that a subscription has had**, and the present one. -/
theorem Run.phasesOf_eq (h : Run (ofConfig config) events hub)
    (found : hub.subscriptions[id]? = some s) :
    (s.phase = .registered ∧ phasesOf id events = [.registered])
      ∨ (s.phase = .streaming ∧ phasesOf id events = [.registered, .streaming])
      ∨ ∃ how, s.phase = .ended how
        ∧ phasesOf id events = [.registered, .streaming, .ended how] := by
  have started : (HubEvent.started id).enters id = some .streaming := if_pos rfl
  rw [← phasesOf_shownBy id events, phasesOf]
  cases h.life found with
  | unstarted nothing _ hphase =>
    rw [nothing]
    exact Or.inl ⟨hphase, rfl⟩
  | delivering hshown hlines _ hphase =>
    rw [hshown, List.filterMap_cons_some started, hlines.filterMap_enters]
    exact Or.inr (Or.inl ⟨hphase, rfl⟩)
  | crashed hshown hlines _ hphase =>
    rw [hshown, List.filterMap_append, List.filterMap_cons_some started, hlines.filterMap_enters]
    exact Or.inr (Or.inl ⟨hphase, rfl⟩)
  | stopped hshown hlines hstop htrail hphase =>
    rw [hshown, List.filterMap_append, List.filterMap_cons_some started, hlines.filterMap_enters,
      List.filterMap_cons_some hstop, filterMap_enters_trail htrail]
    exact Or.inr (Or.inr ⟨_, hphase, rfl⟩)

/-- How a subscription has ended is how its consumer has stopped. -/
theorem Run.ended_iff (h : Run (ofConfig config) events hub)
    (found : hub.subscriptions[id]? = some s) :
    s.phase = .ended how ↔ ∃ e ∈ events, e.enters id = some (.ended how) := by
  have hmem : .ended how ∈ phasesOf id events ↔ ∃ e ∈ events, e.enters id = some (.ended how) := by
    rw [phasesOf, List.mem_cons, List.mem_filterMap]
    simp
  rw [← hmem]
  rcases h.phasesOf_eq found with ⟨hphase, hphases⟩ | ⟨hphase, hphases⟩ | ⟨how', hphase, hphases⟩
  all_goals
    rw [hphase, hphases]
    simp [eq_comm]

/-! ### Why a consumer stops -/

/-- In a step of the run a write to the sink has returned a fault. -/
def WriteReturned (config : HubConfig) (id : SubscriptionId) (fault : Fault)
    (events : List HubEvent) (hub : Hub σ) : Prop :=
  ∃ earlier later before behind t line, events = earlier ++ .refused id fault :: later
    ∧ Run (ofConfig config) earlier before ∧ before.subscriptions[id]? = some t
    ∧ t.progress = .writing line ∧ LineSink.write t.sink line = .refused fault
    ∧ Step before (some (.refused id fault)) behind ∧ Run behind later hub

/-- The queue of a subscription has ended: it is empty, and nothing can come into it. -/
structure HasEnded (hub : Hub σ) (id : SubscriptionId) (s : Subscription σ) : Prop where
  empty : s.queue = []
  unregistered : id ∉ hub.registry
  /-- No publisher has still to visit it. -/
  unawaited : ∀ p publication, hub.current p = some publication → id ∉ publication.targets

/-- In a step of the run the consumer has come to the end of its queue. -/
def QueueEnded (config : HubConfig) (id : SubscriptionId) (events : List HubEvent) (hub : Hub σ) :
    Prop :=
  ∃ earlier later before behind t, events = earlier ++ .ended id :: later
    ∧ Run (ofConfig config) earlier before ∧ before.subscriptions[id]? = some t
    ∧ t.progress = .receiving ∧ HasEnded before id t
    ∧ Step before (some (.ended id)) behind ∧ Run behind later hub

omit [LineSink σ] in
/-- A queue is held by the registry, or by a publisher that has still to bring a line. -/
theorem isHeld_iff_exists : hub.isHeld id = true ↔ id ∈ hub.registry
    ∨ ∃ p publication, hub.current p = some publication ∧ id ∈ publication.targets := by
  simp only [isHeld_iff, mem_registry, awaits, Option.any_eq_true, List.contains_iff_mem]

omit [LineSink σ] in
/-- An empty queue has ended if and only if nobody holds it. -/
theorem hasEnded_iff (empty : s.queue = []) : HasEnded hub id s ↔ hub.isHeld id = false := by
  rw [← Bool.not_eq_true, isHeld_iff_exists]
  constructor
  · rintro ended (registered | ⟨p, publication, current, target⟩)
    · exact ended.unregistered registered
    · exact ended.unawaited p publication current target
  · exact fun free => {
      empty
      unregistered := fun registered => free (Or.inl registered)
      unawaited := fun p publication current target =>
        free (Or.inr ⟨p, publication, current, target⟩) }

theorem Run.writeReturned_iff {fault : Fault} (h : Run (ofConfig config) events hub) :
    WriteReturned config id fault events hub ↔ .refused id fault ∈ events := by
  refine ⟨?_, fun hmem => ?_⟩
  · rintro ⟨earlier, later, -, -, -, -, rfl, -⟩
    exact List.mem_append_right _ List.mem_cons_self
  · obtain ⟨earlier, later, rfl⟩ := List.append_of_mem hmem
    obtain ⟨before, behind, hearlier, step, hlater⟩ := h.split
    cases step.move with
    | @refuse _ t line _ found progress outcome =>
      exact ⟨earlier, later, before, _, t, line, rfl, hearlier, found, progress, outcome, step,
        hlater⟩

theorem Run.queueEnded_iff (h : Run (ofConfig config) events hub) :
    QueueEnded config id events hub ↔ .ended id ∈ events := by
  refine ⟨?_, fun hmem => ?_⟩
  · rintro ⟨earlier, later, -, -, -, rfl, -⟩
    exact List.mem_append_right _ List.mem_cons_self
  · obtain ⟨earlier, later, rfl⟩ := List.append_of_mem hmem
    obtain ⟨before, behind, hearlier, step, hlater⟩ := h.split
    cases step.move with
    | @finishQueue _ t found progress queue released =>
      exact ⟨earlier, later, before, _, t, rfl, hearlier, found, progress,
        (hasEnded_iff queue).mpr released, step, hlater⟩

/-- The steps in which a consumer stops. -/
theorem enters_eq_ended_iff {e : HubEvent} : e.enters id = some (.ended how)
    ↔ (e = .ended id ∧ how = .closed)
      ∨ ∃ fault, e = .refused id fault
        ∧ how = if fault = .sinkClosed then .closed else .failed := by
  cases e with
  | started i | ended i => simp [HubEvent.enters, eq_comm]
  | refused i fault =>
    simp only [HubEvent.enters, Option.ite_none_right_eq_some, Option.some.injEq,
      Phase.ended.injEq, reduceCtorEq, false_and, false_or, HubEvent.refused.injEq]
    refine ⟨fun ⟨hi, hhow⟩ => ⟨fault, ⟨hi, rfl⟩, hhow.symm⟩, ?_⟩
    rintro ⟨_, ⟨hi, rfl⟩, hhow⟩
    exact ⟨hi, hhow.symm⟩
  | _ => simp [HubEvent.enters]

theorem Run.failed_iff (h : Run (ofConfig config) events hub)
    (found : hub.subscriptions[id]? = some s) :
    s.phase = .ended .failed ↔ ∃ fault, fault ≠ .sinkClosed
      ∧ WriteReturned config id fault events hub := by
  rw [h.ended_iff found]
  constructor
  · rintro ⟨e, hmem, hend⟩
    rcases enters_eq_ended_iff.mp hend with ⟨-, hhow⟩ | ⟨fault, rfl, hhow⟩
    · cases hhow
    · refine ⟨fault, ?_, h.writeReturned_iff.mpr hmem⟩
      rintro rfl
      cases hhow
  · rintro ⟨fault, hfault, hreturned⟩
    exact ⟨_, h.writeReturned_iff.mp hreturned,
      enters_eq_ended_iff.mpr (Or.inr ⟨fault, rfl, (if_neg hfault).symm⟩)⟩

theorem Run.closed_iff (h : Run (ofConfig config) events hub)
    (found : hub.subscriptions[id]? = some s) :
    s.phase = .ended .closed ↔ WriteReturned config id .sinkClosed events hub
      ∨ QueueEnded config id events hub := by
  rw [h.ended_iff found, h.writeReturned_iff, h.queueEnded_iff]
  constructor
  · rintro ⟨e, hmem, hend⟩
    rcases enters_eq_ended_iff.mp hend with ⟨rfl, -⟩ | ⟨fault, rfl, hhow⟩
    · exact Or.inr hmem
    · by_cases hfault : fault = .sinkClosed
      · exact Or.inl (hfault ▸ hmem)
      · rw [if_neg hfault] at hhow
        cases hhow
  · rintro (hmem | hmem)
    · exact ⟨_, hmem, enters_eq_ended_iff.mpr (Or.inr ⟨_, rfl, rfl⟩)⟩
    · exact ⟨_, hmem, enters_eq_ended_iff.mpr (Or.inl ⟨rfl, rfl⟩)⟩

/-! ### Behind the end -/

/-- **A consumer that has stopped has only its rest before it.** -/
theorem Run.trail (h : Run start later hub) (found : start.subscriptions[id]? = some s)
    (stopped : s.progress = .stopping how) :
    ∃ after, hub.subscriptions[id]? = some after
      ∧ after.progress.trail id = some (how, shownBy id later) := by
  refine h.induction_at (fun later s => s.progress.trail id = some (how, shownBy id later))
    (by rw [stopped]; rfl) (fun _ _ before move => ?_) found
  rw [shownBy_append]
  exact (move.trail before).1

/-- An end is final. -/
theorem Run.phase_eq (h : Run start later hub) (found : start.subscriptions[id]? = some s)
    {trail : List HubEvent} (stopped : s.progress.trail id = some (how, trail)) :
    ∃ after, hub.subscriptions[id]? = some after ∧ after.phase = s.phase := by
  obtain ⟨after, hafter, -, hphase⟩ := h.induction_at
    (fun _ t => (∃ trail, t.progress.trail id = some (how, trail)) ∧ t.phase = s.phase)
    ⟨⟨trail, stopped⟩, rfl⟩ (fun _ _ ⟨⟨_, before⟩, hphase⟩ move =>
      ⟨⟨_, (move.trail before).1⟩, (move.trail before).2.trans hphase⟩) found
  exact ⟨after, hafter, hphase⟩

/-- **Who has left the registry is not in it**, from then on. -/
theorem Run.not_mem_registry_of_left (h : Run start events hub) (left : .left id ∈ events) :
    id ∉ hub.registry := by
  obtain ⟨earlier, later, rfl⟩ := List.append_of_mem left
  obtain ⟨before, behind, -, step, hlater⟩ := h.split
  cases step.move with
  | @leave _ t how found progress =>
    have hafter := getElem?_update before id
      (fun s => { s with isRegistered := false, progress := .closing how }) id
    rw [found, Option.map_some, if_pos rfl] at hafter
    refine hlater.not_mem_registry (List.getElem?_eq_some_iff.mp hafter).1 fun registered => ?_
    obtain ⟨after, hfound, hregistered⟩ := mem_registry.mp registered
    obtain rfl := Option.some.inj (hafter.symm.trans hfound)
    cases hregistered

/-- A step with which a consumer gives back its worker is its last. Where that leaves it, it
stays. -/
theorem Run.progress_of_last (h : Run (ofConfig config) events hub)
    (found : hub.subscriptions[id]? = some s) {e : HubEvent} {progress : Progress}
    (own : e.consumer? = some id) (gone : progress.isOver = true)
    (leaves : ∀ (before : Hub σ) t after, before.MoveAt id t (some e) after →
      after.progress = progress) (hmem : e ∈ events) : s.progress = progress := by
  obtain ⟨earlier, later, rfl⟩ := List.append_of_mem hmem
  obtain ⟨before, behind, -, step, hlater⟩ := h.split
  cases ht : before.subscriptions[id]? with
  | none => exact absurd own (step.move.consumer?_ne ht e rfl)
  | some t =>
    obtain ⟨after, hafter, move⟩ := step.move.moveAt ht
    have hprogress := leaves before t after move
    obtain ⟨last, hlast, unattended⟩ := hlater.unattended hafter (by rw [hprogress, gone])
    obtain rfl := Option.some.inj (hlast.symm.trans found)
    exact unattended.progress.trans hprogress

theorem Run.returned_iff (h : Run (ofConfig config) events hub)
    (found : hub.subscriptions[id]? = some s) :
    s.progress = .returned how ↔ .returned id how ∈ events := by
  refine ⟨fun progress => ?_, h.progress_of_last found rfl rfl fun _ _ _ move => ?_⟩
  · obtain ⟨lines, stop, hshown, -⟩ := (h.life found).of_trail (by rw [progress]; rfl)
    have hmem : .returned id how ∈ shownBy id events := by simp [hshown]
    exact (mem_shownBy.mp hmem).1
  · cases move with
    | elsewhere other => simp [HubEvent.concerns] at other
    | giveBack => rfl

theorem Run.crashed_iff (h : Run (ofConfig config) events hub)
    (found : hub.subscriptions[id]? = some s) {noted : Option Ending} :
    s.progress = .crashed noted ↔ .crashed id noted ∈ events := by
  refine ⟨(h.isTended found).crashed noted, h.progress_of_last found rfl rfl fun _ _ _ move => ?_⟩
  cases move with
  | elsewhere other => simp [HubEvent.concerns] at other
  | crash | crashClosing => rfl

/-! ### Consumers that can go no further -/

/-- **Where a consumer is that can go no further.** -/
inductive AtRest (id : SubscriptionId) (hub : Hub σ) (s : Subscription σ) : Prop where
  /-- It waits for a line, and somebody holds its queue. -/
  | waiting (progress : s.progress = .receiving) (phase : s.phase = .streaming)
    (empty : s.queue = [])
    (held : id ∈ hub.registry
      ∨ ∃ p publication, hub.current p = some publication ∧ id ∈ publication.targets)
  /-- It is inside its sink, which does not come to an end. -/
  | writing {line : String} (progress : s.progress = .writing line) (phase : s.phase = .streaming)
    (pending : LineSink.write s.sink line = .pending)
  | closing {how : Ending} (progress : s.progress = .closing how) (phase : s.phase = .ended how)
    (pending : LineSink.close s.sink = .pending)
  | returned {how : Ending} (progress : s.progress = .returned how) (phase : s.phase = .ended how)
  /-- Its sink has brought it down. -/
  | crashed {noted : Option Ending} (progress : s.progress = .crashed noted)
    (phase : s.phase = noted.elim .streaming .ended)

/-- The state of a subscription whose consumer has come down is the one that it had. -/
theorem Run.phase_of_crashed (h : Run (ofConfig config) events hub)
    (found : hub.subscriptions[id]? = some s) {noted : Option Ending}
    (progress : s.progress = .crashed noted) : s.phase = noted.elim .streaming .ended := by
  cases noted with
  | some how => exact h.phase_of_trail found (by rw [progress]; rfl)
  | none =>
    cases h.life found with
    | crashed _ _ _ hphase => exact hphase
    | unstarted _ hother | delivering _ _ hother | stopped _ _ _ hother =>
      rw [progress] at hother
      cases hother

/-- **A consumer that can go no further** waits at a queue that is held, is inside its sink, or has
come to its end. -/
theorem Run.atRest (h : Run (ofConfig config) events hub) (found : hub.subscriptions[id]? = some s)
    (quiet : hub.consume id = none) : AtRest id hub s := by
  cases alive : s.progress.isOver with
  | false =>
    rcases consume_eq_none found alive quiet with suspended | ⟨progress, empty, held⟩
    · cases suspended with
      | writing progress pending =>
        exact .writing progress (h.phase_of_isStreaming found (by rw [progress]; rfl)) pending
      | closing progress pending =>
        exact .closing progress (h.phase_of_trail found (by rw [progress]; rfl)) pending
    · have phase := h.phase_of_isStreaming found (by rw [progress]; rfl)
      exact .waiting progress phase empty (isHeld_iff_exists.mp held)
  | true =>
    cases progress : s.progress with
    | returned how => exact .returned progress (h.phase_of_trail found (by rw [progress]; rfl))
    | crashed noted => exact .crashed progress (h.phase_of_crashed found progress)
    | starting | receiving | writing | stopping | closing | releasing =>
      rw [progress] at alive
      cases alive

/-- A consumer that has stopped and can go no further has shown all of its rest, or its sink is not
done closing. -/
theorem AtRest.trail (h : AtRest id hub s) {trail : List HubEvent}
    (stopped : s.progress.trail id = some (how, trail)) :
    trail = [.left id, .closed id, .returned id how] ∨ trail = [.left id, .crashed id (some how)]
      ∨ trail = [.left id] ∧ LineSink.close s.sink = .pending := by
  cases h with
  | waiting progress | writing progress =>
    rw [progress] at stopped
    cases stopped
  | closing progress _ pending =>
    rw [progress] at stopped
    cases stopped
    exact Or.inr (Or.inr ⟨rfl, pending⟩)
  | returned progress =>
    rw [progress] at stopped
    cases stopped
    exact Or.inl rfl
  | @crashed noted progress =>
    rw [progress] at stopped
    cases noted with
    | none => cases stopped
    | some how =>
      cases stopped
      exact Or.inr (Or.inl rfl)

/-- At the end of its queue a consumer can go on, and then it stops. -/
theorem HasEnded.consume (ended : HasEnded hub id s) (found : hub.subscriptions[id]? = some s)
    (receiving : s.progress = .receiving) :
    ∃ next, hub.consume id = some next ∧ next.event = some (.ended id) := by
  have free : hub.isHeld id = false := (hasEnded_iff ended.empty).mp ended
  refine ⟨{ hub := hub.stop id .closed, event := some (.ended id) }, ?_, rfl⟩
  simp [Hub.consume, found, receiving, ended.empty, free]

/-- Where nobody can take a step, a subscription that is registered is one that delivers. -/
theorem Run.phase_of_isQuiescent (h : Run (ofConfig config) events hub) (quiet : hub.IsQuiescent)
    (found : hub.subscriptions[id]? = some s) (registered : s.isRegistered = true) :
    s.phase = .streaming := by
  have stays := h.hasLeft_eq_false found registered
  cases h.atRest found (quiet (.consumer id)) with
  | waiting _ phase | writing _ phase => exact phase
  | closing progress | returned progress =>
    rw [progress] at stays
    cases stays
  | @crashed noted progress phase =>
    rw [progress] at stays
    cases noted with
    | none => exact phase
    | some how => cases stays

/-! ### Behind a failed write -/

/-- What holds behind a failed write, whether the sink has refused the line or brought the consumer
down. -/
structure Silenced (id : SubscriptionId) (earlier later : List HubEvent) (s : Subscription σ) :
    Prop where
  /-- No line is being written, and none has been. -/
  unwritten : (∀ line, s.progress ≠ .writing line) ∧ ∀ line, .wrote id line ∉ later
  /-- The sink was not closed before. -/
  unclosed : ∀ e ∈ earlier, e.endsClosing id = false

/-- What a consumer does behind a write that the sink has refused. -/
structure WindsUp (id : SubscriptionId) (later : List HubEvent) (hub : Hub σ) (s : Subscription σ)
    (how : Ending) : Prop where
  ended : s.phase = .ended how
  /-- It leaves the registry, closes the sink and returns, each once and in this order, unless the
  sink brings it down instead of being closed. -/
  order : IsRest id how (shownBy id later)
  /-- Where it can go no further, it has done so, or its sink is not done closing. -/
  done : hub.consume id = none → shownBy id later = [.left id, .closed id, .returned id how]
    ∨ shownBy id later = [.left id, .crashed id (some how)]
    ∨ shownBy id later = [.left id] ∧ LineSink.close s.sink = .pending

/-- What becomes of a subscription whose sink has brought its consumer down in a write. -/
structure Deserted (config : HubConfig) (id : SubscriptionId) (earlier later : List HubEvent)
    (hub : Hub σ) (s : Subscription σ) : Prop where
  /-- The consumer has done nothing more: it has not left the registry, and the sink has not been
  closed. -/
  idle : s.progress = .crashed none ∧ shownBy id later = []
  /-- No end has been noted. -/
  phase : s.phase = .streaming
  /-- The entry is in the registry if it was and nothing has cleared it away since. -/
  entry : ∃ before behind, Run (ofConfig config) earlier before
    ∧ Step before (some (.crashed id none)) behind ∧ Run behind later hub
    ∧ (id ∈ hub.registry ↔ id ∈ before.registry ∧ ∀ e ∈ later, e.clears id = false)
  /-- And so it goes on. -/
  leftBehind : LeftBehind id hub

/-- While a line is written, the sink has not been closed. -/
theorem Run.unclosed_of_writing (h : Run (ofConfig config) events hub)
    (found : hub.subscriptions[id]? = some s) {line : String}
    (progress : s.progress = .writing line) : ∀ e ∈ events, e.endsClosing id = false := by
  intro e he
  refine Bool.eq_false_iff.mpr fun ends => ?_
  obtain ⟨lines, hshown, hlines, -⟩ := (h.life found).of_isStreaming (by rw [progress]; rfl)
  have hown : e ∈ shownBy id events := mem_shownBy.mpr ⟨he, HubEvent.consumer?_of_endsClosing ends⟩
  rw [hshown] at hown
  rcases List.mem_cons.mp hown with rfl | hown
  · cases ends
  · obtain ⟨line, rfl | rfl⟩ := hlines e hown <;> cases ends

theorem Run.unclosed_of_failsWrite {failure : HubEvent}
    (h : Run (ofConfig config) (events ++ failure :: later) hub)
    (fails : failure.failsWrite id = true) : ∀ e ∈ events, e.endsClosing id = false := by
  obtain ⟨before, behind, hearlier, step, -⟩ := h.split
  cases step.move with
  | refuse found progress | crash found progress =>
    obtain rfl := of_decide_eq_true fails
    exact hearlier.unclosed_of_writing found progress
  | _ => cases fails

/-- **Behind a write that the sink has refused the consumer has only its rest before it.** -/
theorem Run.windsUp {fault : Fault}
    (h : Run (ofConfig config) (events ++ .refused id fault :: later) hub)
    (found : hub.subscriptions[id]? = some s) :
    WindsUp id later hub s (if fault = .sinkClosed then .closed else .failed) := by
  obtain ⟨before, behind, -, step, hlater⟩ := h.split
  cases step.move with
  | @refuse _ t line _ hfound =>
    have hafter := getElem?_update before id (fun s => { s with
      phase := .ended (if fault = .sinkClosed then .closed else .failed)
      progress := .stopping (if fault = .sinkClosed then .closed else .failed) }) id
    rw [hfound, Option.map_some, if_pos rfl] at hafter
    obtain ⟨after, hs, htrail⟩ := hlater.trail hafter rfl
    obtain rfl := Option.some.inj (hs.symm.trans found)
    exact ⟨h.phase_of_trail found htrail, Progress.isRest htrail,
      fun quiet => (h.atRest found quiet).trail htrail⟩

/-- **Behind a write in which the sink has brought the consumer down, nothing is done.** -/
theorem Run.deserted (h : Run (ofConfig config) (events ++ .crashed id none :: later) hub)
    (found : hub.subscriptions[id]? = some s) : Deserted config id events later hub s := by
  obtain ⟨before, behind, hearlier, step, hlater⟩ := h.split
  have remains : LeftBehind id behind := step.leftBehind
  have progress : s.progress = .crashed none :=
    (h.crashed_iff found).mpr (List.mem_append_right _ List.mem_cons_self)
  refine ⟨⟨progress, ?_⟩, h.phase_of_crashed found progress,
    ⟨before, behind, hearlier, step, hlater, ?_⟩, leftBehind found progress⟩
  · refine List.filter_eq_nil_iff.mpr fun e he own => ?_
    exact remains.silent later hub hlater e he (of_decide_eq_true own)
  · rw [remains.entry later hub hlater, step.registry_eq_of_crashed]

/-- **Behind a failed write no line is written, and before it the sink was not closed.** -/
theorem Run.silenced {failure : HubEvent}
    (h : Run (ofConfig config) (events ++ failure :: later) hub)
    (found : hub.subscriptions[id]? = some s) (fails : failure.failsWrite id = true) :
    Silenced id events later s := by
  have unclosed := h.unclosed_of_failsWrite fails
  unfold HubEvent.failsWrite at fails
  split at fails
  · next i fault =>
    obtain rfl := of_decide_eq_true fails
    have windsUp := h.windsUp found
    refine ⟨⟨fun line writing => ?_, fun line hmem => ?_⟩, unclosed⟩
    · have streaming := h.phase_of_isStreaming found (by rw [writing]; rfl)
      cases windsUp.ended.symm.trans streaming
    · exact windsUp.order.not_wrote line (mem_shownBy.mpr ⟨hmem, rfl⟩)
  · next i =>
    obtain rfl := of_decide_eq_true fails
    obtain ⟨progress, nothing⟩ := (h.deserted found).idle
    refine ⟨⟨fun line writing => ?_, fun line hmem => ?_⟩, unclosed⟩
    · cases progress.symm.trans writing
    · exact List.not_mem_nil (nothing ▸ mem_shownBy.mpr ⟨hmem, rfl⟩)
  · cases fails

/-! ### What the hub tells -/

omit [LineSink σ] in
/-- The state that a hub tells is that of a subscription that is registered. -/
theorem phase?_eq (found : hub.subscriptions[id]? = some s) :
    hub.phase? id = if id ∈ hub.registry then some s.phase else none := by
  have registered : id ∈ hub.registry ↔ s.isRegistered = true := by simp [mem_registry, found]
  simp only [phase?, found, registered]

/-- **What who waits for the end of a consumer is told.** -/
theorem Run.ending?_eq_some_iff (h : Run (ofConfig config) events hub)
    (found : hub.subscriptions[id]? = some s) :
    hub.ending? id = some how ↔ .returned id how ∈ events ∧ s.phase = .ended how
      ∨ how = .failed ∧ ∃ noted, .crashed id noted ∈ events
        ∧ s.phase = noted.elim .streaming .ended := by
  have told : hub.ending? id = some how ↔ s.progress = .returned how
      ∨ how = .failed ∧ ∃ noted, s.progress = .crashed noted := by
    rw [ending?, found, Option.map_some]
    cases s.progress <;> simp [eq_comm]
  rw [told, h.returned_iff found]
  simp only [h.crashed_iff found]
  constructor
  · rintro (returned | ⟨hhow, noted, crashed⟩)
    · have progress := (h.returned_iff found).mpr returned
      exact Or.inl ⟨returned, h.phase_of_trail found (by rw [progress]; rfl)⟩
    · exact Or.inr ⟨hhow, noted, crashed,
        h.phase_of_crashed found ((h.crashed_iff found).mpr crashed)⟩
  · rintro (⟨returned, -⟩ | ⟨hhow, noted, crashed, -⟩)
    · exact Or.inl returned
    · exact Or.inr ⟨hhow, noted, crashed⟩

/-! ### The promise -/

/-- What is promised of one subscription behind a run. -/
structure LifeCycle (config : HubConfig) (id : SubscriptionId) (events : List HubEvent)
    (hub : Hub σ) (s : Subscription σ) : Prop where
  /-- It is registered, then its consumer delivers, then it has ended, in one way. -/
  states : ∃ how, phasesOf id events <+: [.registered, .streaming, .ended how]
  current : (phasesOf id events).getLast? = some s.phase
  /-- It is registered until its consumer first runs. -/
  started : (s.phase = .registered ↔ shownBy id events = [])
    ∧ ∀ e ∈ (shownBy id events).head?, e = .started id
  /-- Its end is final. -/
  final : ∀ how, s.phase = .ended how → ∀ later last, Run hub later last →
    ∃ after, last.subscriptions[id]? = some after ∧ after.phase = .ended how
  /-- It ends as failed if and only if a write returns a fault, other than that the sink is
  closed. -/
  failed : s.phase = .ended .failed
    ↔ ∃ fault, fault ≠ .sinkClosed ∧ WriteReturned config id fault events hub
  /-- It ends as closed if and only if a write returns that, or the queue ends. -/
  closed : s.phase = .ended .closed
    ↔ WriteReturned config id .sinkClosed events hub ∨ QueueEnded config id events hub
  /-- A consumer that waits for a line when the queue has ended can go on, and then it stops. -/
  ends : s.progress = .receiving → HasEnded hub id s →
    ∃ next, hub.consume id = some next ∧ next.event = some (.ended id)
  /-- Where it can go no further, it waits at a queue that is held, or is inside its sink, or has
  come to its end. -/
  rests : hub.consume id = none → AtRest id hub s
  /-- Behind a failed write no line is written, and before it the sink was not closed. -/
  silenced : ∀ earlier failure later, events = earlier ++ failure :: later →
    failure.failsWrite id = true → Silenced id earlier later s
  /-- If the sink has refused the line, the consumer leaves the registry and closes the sink. -/
  windsUp : ∀ earlier fault later, events = earlier ++ .refused id fault :: later →
    WindsUp id later hub s (if fault = .sinkClosed then .closed else .failed)
  /-- If the sink has brought the consumer down, it does not. -/
  deserted : ∀ earlier later, events = earlier ++ .crashed id none :: later →
    Deserted config id earlier later hub s
  /-- Those who ask are told the state of who is registered. -/
  answered : hub.phase? id = if id ∈ hub.registry then some s.phase else none
  /-- Who has left the registry has no state for those who ask. -/
  unanswered : .left id ∈ events → id ∉ hub.registry ∧ hub.phase? id = none
  /-- Where nobody can take a step, a state that is seen is that of a consumer that delivers. -/
  observed : hub.IsQuiescent → ∀ phase, hub.phase? id = some phase → phase = .streaming
  /-- Who waits for the end is told it when the consumer has returned, and that it has failed when
  the sink has brought it down. -/
  joined : ∀ how, hub.ending? id = some how ↔ .returned id how ∈ events ∧ s.phase = .ended how
    ∨ how = .failed ∧ ∃ noted, .crashed id noted ∈ events ∧ s.phase = noted.elim .streaming .ended

/-- **The life of a subscription**, at every moment of every run. -/
theorem Run.lifeCycle (h : Run (ofConfig config) events hub)
    (found : hub.subscriptions[id]? = some s) : LifeCycle config id events hub s where
  states := by
    rcases h.phasesOf_eq found with ⟨-, hphases⟩ | ⟨-, hphases⟩ | ⟨how, -, hphases⟩
    · exact ⟨.closed, hphases ▸ ⟨_, rfl⟩⟩
    · exact ⟨.closed, hphases ▸ ⟨_, rfl⟩⟩
    · exact ⟨how, hphases ▸ List.prefix_refl _⟩
  current := by
    rcases h.phasesOf_eq found with ⟨hphase, hphases⟩ | ⟨hphase, hphases⟩ | ⟨how, hphase, hphases⟩
    all_goals rw [hphase, hphases]; rfl
  started := by
    cases h.life found with
    | unstarted nothing _ hphase => simp [nothing, hphase]
    | delivering hshown _ _ hphase | crashed hshown _ _ hphase | stopped hshown _ _ _ hphase =>
      simp [hshown, hphase]
  final how hphase later last run := by
    cases h.life found with
    | unstarted _ _ hother | delivering _ _ _ hother | crashed _ _ _ hother =>
      cases hphase.symm.trans hother
    | stopped _ _ _ htrail =>
      obtain ⟨after, hafter, hsame⟩ := run.phase_eq found htrail
      exact ⟨after, hafter, hsame.trans hphase⟩
  failed := h.failed_iff found
  closed := h.closed_iff found
  ends receiving ended := ended.consume found receiving
  rests := h.atRest found
  silenced earlier failure later hevents fails := by
    subst hevents
    exact h.silenced found fails
  windsUp earlier fault later hevents := by
    subst hevents
    exact h.windsUp found
  deserted earlier later hevents := by
    subst hevents
    exact h.deserted found
  answered := phase?_eq found
  unanswered left := by
    have hout := h.not_mem_registry_of_left left
    exact ⟨hout, (phase?_eq found).trans (if_neg hout)⟩
  observed quiet phase hphase := by
    rw [phase?_eq found, Option.ite_none_right_eq_some] at hphase
    obtain ⟨t, ht, registered⟩ := mem_registry.mp hphase.1
    obtain rfl := Option.some.inj (ht.symm.trans found)
    rw [← Option.some.inj hphase.2]
    exact h.phase_of_isQuiescent quiet found registered
  joined _ := h.ending?_eq_some_iff found

/-- Two subscriptions, of which the first has a sink that fails at the second line. The hub is shut
down while a publisher brings that line, and the second subscription is given it all the same. -/
theorem Run.lifeCycle_fails :
    ∃ (hub : Hub Recorder) (events : List HubEvent), Run (ofConfig {}) events hub
      ∧ hub.IsQuiescent ∧ hub.registry = []
      ∧ (∃ s, hub.subscriptions[0]? = some s ∧ LifeCycle {} 0 events hub s
        ∧ s.phase = .ended .failed ∧ s.sink.lines = ["a", "<close>"])
      ∧ ∃ s, hub.subscriptions[1]? = some s ∧ LifeCycle {} 1 events hub s
        ∧ s.phase = .ended .closed ∧ s.sink.lines = ["a", "b", "<close>"] := by
  have first := (Run.refl (ofConfig {} : Hub Recorder)).tail
    (@Step.subscribe _ _ _ "updates"
      { limit := some (1, .refuse (.internal "broken")), marksClose := true } _ _ rfl)
  have second := first.tail (@Step.subscribe _ _ _ "updates" { marksClose := true } _ _ rfl)
  have came := second.tail (.addPublisher _)
  have beganA := came.tail (@Step.publish _ _ _ 0 _ [0, 1] "a" rfl rfl (.refl [0, 1]))
  have acceptedA := beganA.tail (@Step.advance _ _ _ (.publisher 0) _ rfl)
  have started := acceptedA.tail (@Step.advance _ _ _ (.consumer 0) _ rfl)
  have tookA := started.tail (@Step.advance _ _ _ (.consumer 0) _ rfl)
  have acceptedA' := tookA.tail (@Step.advance _ _ _ (.publisher 0) _ rfl)
  have completedA := acceptedA'.tail (@Step.advance _ _ _ (.publisher 0) _ rfl)
  have wroteA := completedA.tail (@Step.advance _ _ _ (.consumer 0) _ rfl)
  have beganB := wroteA.tail (@Step.publish _ _ _ 0 _ [0, 1] "b" rfl rfl (.refl [0, 1]))
  have acceptedB := beganB.tail (@Step.advance _ _ _ (.publisher 0) _ rfl)
  have stopped := acceptedB.tail (.shutdown _)
  have tookB := stopped.tail (@Step.advance _ _ _ (.consumer 0) _ rfl)
  have refusedB := tookB.tail (@Step.advance _ _ _ (.consumer 0) _ rfl)
  have acceptedB' := refusedB.tail (@Step.advance _ _ _ (.publisher 0) _ rfl)
  have completedB := acceptedB'.tail (@Step.advance _ _ _ (.publisher 0) _ rfl)
  have left := completedB.tail (@Step.advance _ _ _ (.consumer 0) _ rfl)
  have closed := left.tail (@Step.advance _ _ _ (.consumer 0) _ rfl)
  have returned := closed.tail (@Step.advance _ _ _ (.consumer 0) _ rfl)
  have started' := returned.tail (@Step.advance _ _ _ (.consumer 1) _ rfl)
  have tookA' := started'.tail (@Step.advance _ _ _ (.consumer 1) _ rfl)
  have wroteA' := tookA'.tail (@Step.advance _ _ _ (.consumer 1) _ rfl)
  have tookB' := wroteA'.tail (@Step.advance _ _ _ (.consumer 1) _ rfl)
  have wroteB' := tookB'.tail (@Step.advance _ _ _ (.consumer 1) _ rfl)
  have ended := wroteB'.tail (@Step.advance _ _ _ (.consumer 1) _ rfl)
  have left' := ended.tail (@Step.advance _ _ _ (.consumer 1) _ rfl)
  have closed' := left'.tail (@Step.advance _ _ _ (.consumer 1) _ rfl)
  have returned' := closed'.tail (@Step.advance _ _ _ (.consumer 1) _ rfl)
  refine ⟨_, _, returned', ?_, rfl, ⟨_, rfl, returned'.lifeCycle rfl, rfl, rfl⟩,
    _, rfl, returned'.lifeCycle rfl, rfl, rfl⟩
  intro runner
  rcases runner with (_ | _ | i) | (_ | i) <;> rfl

/-- A sink that brings its consumer down in the first line. The hub has come to rest, but no end has
been noted, the sink has not been closed, and the subscription is registered as one that
delivers. -/
theorem crashed_unclosed :
    ∃ (hub : Hub Recorder) (events : List HubEvent), Run (ofConfig {}) events hub
      ∧ hub.IsQuiescent ∧ (∃ e ∈ events, e.failsWrite 0 = true)
      ∧ (∀ e ∈ events, e.endsClosing 0 = false ∧ e ≠ .left 0)
      ∧ hub.registry = [0] ∧ hub.phase? 0 = some .streaming ∧ hub.ending? 0 = some .failed
      ∧ hub.subscriptions.map (fun s => (s.progress, s.sink.lines)) = [(.crashed none, [])] := by
  have subscribed := (Run.refl (ofConfig {} : Hub Recorder)).tail
    (@Step.subscribe _ _ _ "updates" { limit := some (0, .crash), marksClose := true } _ _ rfl)
  have came := subscribed.tail (.addPublisher _)
  have began := came.tail (@Step.publish _ _ _ 0 _ [0] "a" rfl rfl (.refl [0]))
  have accepted := began.tail (@Step.advance _ _ _ (.publisher 0) _ rfl)
  have completed := accepted.tail (@Step.advance _ _ _ (.publisher 0) _ rfl)
  have started := completed.tail (@Step.advance _ _ _ (.consumer 0) _ rfl)
  have took := started.tail (@Step.advance _ _ _ (.consumer 0) _ rfl)
  have crashed := took.tail (@Step.advance _ _ _ (.consumer 0) _ rfl)
  refine ⟨_, _, crashed, ?_, ⟨.crashed 0 none, ?_, rfl⟩, ?_, rfl, rfl, rfl, rfl⟩
  · intro runner
    rcases runner with (_ | i) | (_ | i) <;> rfl
  · exact List.mem_append_right _ List.mem_cons_self
  · decide

end Hub

end Restconf
