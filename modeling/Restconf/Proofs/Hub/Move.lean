import Restconf.Hub.Step

/-!
# What a step of the hub can be

The steps of the hub come out of nested functions: an actor is asked for its next step, looks at its
state, then at the queue, then at the policy. Here they are taken apart once. Every step is one of
twenty-one moves, each with the conditions under which it is made and the hub behind it, so that
no later proof has to unfold the functions.

## Reading a state

Proofs about the hub look at it through `Hub.current`, the line that a publisher has under way, and
through `hub.subscriptions[id]?`. The lemmas below say how each change of the hub is seen through
these two. A change of one subscription is not seen at any other, and neither are changes of
publishers at subscriptions.

## Main definitions

* `Hub.current` — what a publisher has under way
* `Hub.CanTake` — a publisher at a queue finds room
* `Hub.Move` — the moves

## Main results

* `Hub.mem_registry` — who is registered
* `Hub.subscribe_eq_ok_iff` — when a subscription is made
* `Hub.Step.move` — a step is a move
-/

namespace Restconf

/-- A line on its way behind its next target, which has taken it or has not. -/
def Publication.passed (accepted : Bool) (publication : Publication) : Publication :=
  { publication with
    targets := publication.targets.tail
    delivered := publication.delivered + accepted.toNat }

namespace Hub

variable {σ : Type}

/-! ### Seeing changes -/

/-- The line that a publisher has under way. -/
def current (hub : Hub σ) (p : PublisherId) : Option Publication :=
  hub.publishers[p]?.bind Publisher.current

section Changes

variable (hub : Hub σ) (id : SubscriptionId) (p q : PublisherId)

theorem getElem?_update (f : Subscription σ → Subscription σ) (i : SubscriptionId) :
    (hub.update id f).subscriptions[i]?
      = hub.subscriptions[i]?.map fun s => if id = i then f s else s := by
  rw [update, List.getElem?_modify]
  rfl

theorem current_updatePublisher (f : Publisher → Publisher) :
    (hub.updatePublisher p f).current q
      = hub.publishers[q]?.bind fun publisher =>
          if p = q then (f publisher).current else publisher.current := by
  rw [current, updatePublisher, List.getElem?_modify]
  cases hub.publishers[q]? with
  | none => rfl
  | some publisher => by_cases h : p = q <;> simp [h]

theorem current_passTarget (accepted : Bool) :
    (hub.passTarget p accepted).current q
      = if p = q then (hub.current q).map (Publication.passed accepted) else hub.current q := by
  rw [passTarget, current_updatePublisher, current]
  by_cases h : p = q
  · simp only [if_pos h, Option.map_bind]
    rfl
  · simp only [if_neg h]

theorem subscriptions_accept (line : String) :
    (hub.accept p id line).hub.subscriptions
      = hub.subscriptions.modify id fun s =>
          { s with
            queue := s.queue ++ [line]
            waiters := s.waiters.filter fun w => w.publisher ≠ p } := rfl

theorem subscriptions_forget :
    (hub.forget p id).hub.subscriptions
      = hub.subscriptions.modify id fun s => { s with isRegistered := false } := rfl

theorem current_finishLine (count : Nat) :
    (hub.finishLine p count).hub.current q = if p = q then none else hub.current q := by
  rw [finishLine, current_updatePublisher, current]
  by_cases h : p = q
  · simp only [if_pos h]
    cases hub.publishers[q]? <;> rfl
  · simp only [if_neg h]

theorem current_publishTo {publisher : Publisher} (h : hub.publishers[p]? = some publisher)
    (line : String) (targets : List SubscriptionId) :
    (hub.publishTo p line targets).hub.current q
      = if p = q then some { line, targets } else hub.current q := by
  rw [publishTo, current_updatePublisher, current]
  by_cases hpq : p = q
  · rw [← hpq, h]
    simp
  · simp only [if_neg hpq]

/-- A publisher that has just come has nothing under way. -/
theorem current_addPublisher : hub.addPublisher.2.current q = hub.current q := by
  rw [current, current, addPublisher]
  by_cases h : q < hub.publishers.length
  · rw [List.getElem?_append_left h]
  · rw [List.getElem?_append_right (Nat.le_of_not_lt h),
      List.getElem?_eq_none (Nat.le_of_not_lt h)]
    cases q - hub.publishers.length <;> rfl

end Changes

/-! ### The registry -/

theorem mem_registry {hub : Hub σ} {id : SubscriptionId} :
    id ∈ hub.registry ↔ ∃ s, hub.subscriptions[id]? = some s ∧ s.isRegistered = true := by
  rw [registry, List.mem_filter, List.mem_range]
  constructor
  · rintro ⟨hlt, h⟩
    rw [List.getElem?_eq_getElem hlt] at h ⊢
    exact ⟨_, rfl, h⟩
  · rintro ⟨s, hs, h⟩
    refine ⟨(List.getElem?_eq_some_iff.mp hs).1, ?_⟩
    rw [hs]
    exact h

theorem nodup_registry (hub : Hub σ) : hub.registry.Nodup :=
  List.nodup_range.filter _

/-- A change of one subscription that registers nobody leaves the registry as it is or smaller. -/
theorem mem_registry_of_modify {hub next : Hub σ} {id i : SubscriptionId}
    {f : Subscription σ → Subscription σ}
    (hmodify : next.subscriptions = hub.subscriptions.modify id f)
    (hf : ∀ s, (f s).isRegistered = true → s.isRegistered = true) (h : i ∈ next.registry) :
    i ∈ hub.registry := by
  obtain ⟨s, hs, hregistered⟩ := mem_registry.mp h
  rw [hmodify, List.getElem?_modify, Option.map_eq_map, Option.map_eq_some_iff] at hs
  obtain ⟨old, hold, rfl⟩ := hs
  refine mem_registry.mpr ⟨old, hold, ?_⟩
  split at hregistered
  · exact hf old hregistered
  · exact hregistered

/-! ### Subscribing -/

/-- **When a subscription is made**, and what comes of it: a worker is idle, and queues of the
capacity can be made. -/
theorem subscribe_eq_ok_iff {hub : Hub σ} {stream : String} {sink : σ} {id : SubscriptionId}
    {stepped : Stepped σ} : hub.subscribe stream sink = .ok (id, stepped)
      ↔ hub.idleWorkers ≠ 0 ∧ hub.config.capacity ≤ permitLimit ∧ id = hub.subscriptions.length
        ∧ stepped = {
            hub := { hub with
              idleWorkers := hub.idleWorkers - 1
              subscriptions := hub.subscriptions ++ [{ stream, sink }] }
            woken := [.consumer hub.subscriptions.length]
            event := some (.subscribed hub.subscriptions.length) } := by
  rw [subscribe]
  split
  · next none => exact iff_of_false (fun h => by cases h) fun h => h.1 none
  · next idle =>
    split
    · next long => exact iff_of_false (fun h => by cases h) fun h => absurd h.2.1 (by omega)
    · next fits =>
      constructor
      · intro h
        obtain ⟨rfl, rfl⟩ := Prod.mk.inj (Except.ok.inj h)
        exact ⟨idle, Nat.le_of_not_lt fits, rfl, rfl⟩
      · rintro ⟨-, -, rfl, rfl⟩
        rfl

/-! ### Moves -/

/-- A publisher at the queue of a subscription finds room: under `drop` there is some, under
`block` it is kept for the publisher or, if it does not wait yet, promised to nobody. -/
def CanTake (hub : Hub σ) (p : PublisherId) (s : Subscription σ) : Prop :=
  match hub.config.overflow, s.waiters.find? fun w => w.publisher = p with
  | .drop, _ => hub.hasRoom s = true
  | .block, some waiter => waiter.granted = true
  | .block, none => hub.hasRoom s = true

/-- A publisher has a line under way, and a target is next. -/
structure IsAt (hub : Hub σ) (p : PublisherId) (publication : Publication)
    (target : SubscriptionId) : Prop where
  current : hub.current p = some publication
  next : publication.targets = target :: publication.targets.tail

/-- What a step of the hub can be: what it needs, what it shows, and the hub behind it. -/
inductive Move [LineSink σ] (hub : Hub σ) : Option HubEvent → Hub σ → Prop where
  /-- A subscription is made, and a worker is bound to it. -/
  | subscribe (stream : String) (sink : σ) (idle : hub.idleWorkers ≠ 0)
    (fits : hub.config.capacity ≤ permitLimit) :
    Move hub (some (.subscribed hub.subscriptions.length))
      { hub with
        idleWorkers := hub.idleWorkers - 1
        subscriptions := hub.subscriptions ++ [{ stream, sink }] }
  | addPublisher : Move hub none hub.addPublisher.2
  /-- A publisher begins a line. -/
  | begin {p : PublisherId} {publisher : Publisher} {targets : List SubscriptionId} (line : String)
    (found : hub.publishers[p]? = some publisher) (idle : publisher.current = none)
    (order : targets.Perm hub.registry) :
    Move hub (some (.began p line targets)) (hub.publishTo p line targets).hub
  /-- A queue takes the line. -/
  | accept {p : PublisherId} {publication : Publication} {target : SubscriptionId}
    {s : Subscription σ} (isAt : hub.IsAt p publication target)
    (found : hub.subscriptions[target]? = some s) (alive : s.progress.isOver = false)
    (room : hub.CanTake p s) :
    Move hub (some (.accepted p target publication.line)) (hub.accept p target publication.line).hub
  /-- Under `drop`, a full queue is left out. -/
  | skip {p : PublisherId} {publication : Publication} {target : SubscriptionId}
    {s : Subscription σ} (isAt : hub.IsAt p publication target)
    (found : hub.subscriptions[target]? = some s) (alive : s.progress.isOver = false)
    (policy : hub.config.overflow = .drop) (full : hub.hasRoom s = false) :
    Move hub (some (.passed p target)) (hub.passTarget p false)
  /-- A target that there is not is left out. -/
  | skipUnknown {p : PublisherId} {publication : Publication} {target : SubscriptionId}
    (isAt : hub.IsAt p publication target) (unknown : hub.subscriptions[target]? = none) :
    Move hub (some (.passed p target)) (hub.passTarget p false)
  /-- A queue that is gone is taken out of the registry. -/
  | forget {p : PublisherId} {publication : Publication} {target : SubscriptionId}
    {s : Subscription σ} (isAt : hub.IsAt p publication target)
    (found : hub.subscriptions[target]? = some s) (gone : s.progress.isOver = true) :
    Move hub (some (.passed p target)) (hub.forget p target).hub
  /-- Under `block`, a publisher gets in line at a full queue. -/
  | enqueue {p : PublisherId} {publication : Publication} {target : SubscriptionId}
    {s : Subscription σ} (isAt : hub.IsAt p publication target)
    (found : hub.subscriptions[target]? = some s) (alive : s.progress.isOver = false)
    (policy : hub.config.overflow = .block) (first : s.waiters.find? (·.publisher = p) = none)
    (full : hub.hasRoom s = false) :
    Move hub (some (.waits p target)) (hub.enqueue p target).hub
  /-- A publisher that has visited all its targets ends its line. -/
  | finish {p : PublisherId} {publication : Publication}
    (current : hub.current p = some publication) (visited : publication.targets = []) :
    Move hub (some (.completed p publication.delivered))
      (hub.finishLine p publication.delivered).hub
  /-- A consumer runs for the first time. -/
  | start {id : SubscriptionId} {s : Subscription σ} (found : hub.subscriptions[id]? = some s)
    (progress : s.progress = .starting) :
    Move hub (some (.started id))
      (hub.update id fun s => { s with phase := .streaming, progress := .receiving })
  /-- A consumer takes a line off its queue. -/
  | take {id : SubscriptionId} {s : Subscription σ} {line : String} {rest : List String}
    (found : hub.subscriptions[id]? = some s) (progress : s.progress = .receiving)
    (queue : s.queue = line :: rest) :
    Move hub (some (.took id line)) (hub.dequeue id s line rest).hub
  /-- A consumer comes to the end of a queue that nobody holds. -/
  | finishQueue {id : SubscriptionId} {s : Subscription σ}
    (found : hub.subscriptions[id]? = some s) (progress : s.progress = .receiving)
    (queue : s.queue = []) (released : hub.isHeld id = false) :
    Move hub (some (.ended id)) (hub.stop id .closed)
  /-- A sink takes a line. -/
  | write {id : SubscriptionId} {s : Subscription σ} {line : String} {sink : σ}
    (found : hub.subscriptions[id]? = some s) (progress : s.progress = .writing line)
    (outcome : LineSink.write s.sink line = .written sink) :
    Move hub (some (.wrote id line))
      (hub.update id fun s => { s with sink, progress := .receiving })
  /-- A sink refuses a line. -/
  | refuse {id : SubscriptionId} {s : Subscription σ} {line : String} {fault : Fault}
    (found : hub.subscriptions[id]? = some s) (progress : s.progress = .writing line)
    (outcome : LineSink.write s.sink line = .refused fault) :
    Move hub (some (.refused id fault))
      (hub.stop id (if fault = .sinkClosed then .closed else .failed))
  /-- A sink brings its consumer down in a write. -/
  | crash {id : SubscriptionId} {s : Subscription σ} {line : String}
    (found : hub.subscriptions[id]? = some s) (progress : s.progress = .writing line)
    (outcome : LineSink.write s.sink line = .crashed) :
    Move hub (some (.crashed id none)) (hub.release id s (.crashed none) (.crashed id none)).hub
  /-- A consumer that has stopped leaves the registry. -/
  | leave {id : SubscriptionId} {s : Subscription σ} {how : Ending}
    (found : hub.subscriptions[id]? = some s) (progress : s.progress = .stopping how) :
    Move hub (some (.left id))
      (hub.update id fun s => { s with isRegistered := false, progress := .closing how })
  /-- A sink is closed. -/
  | close {id : SubscriptionId} {s : Subscription σ} {how : Ending} {sink : σ}
    (found : hub.subscriptions[id]? = some s) (progress : s.progress = .closing how)
    (outcome : LineSink.close s.sink = .closed sink) :
    Move hub (some (.closed id))
      (hub.update id fun s => { s with sink, progress := .releasing how })
  /-- A sink brings its consumer down in closing. -/
  | crashClosing {id : SubscriptionId} {s : Subscription σ} {how : Ending}
    (found : hub.subscriptions[id]? = some s) (progress : s.progress = .closing how)
    (outcome : LineSink.close s.sink = .crashed) :
    Move hub (some (.crashed id (some how)))
      (hub.release id s (.crashed (some how)) (.crashed id (some how))).hub
  /-- A consumer gives back its worker and lets go of its queue. -/
  | giveBack {id : SubscriptionId} {s : Subscription σ} {how : Ending}
    (found : hub.subscriptions[id]? = some s) (progress : s.progress = .releasing how) :
    Move hub (some (.returned id how)) (hub.release id s (.returned how) (.returned id how)).hub
  /-- Something happens at the far end of a sink. -/
  | touch {id : SubscriptionId} {s : Subscription σ} {sink : σ}
    (found : hub.subscriptions[id]? = some s) (far : LineSink.FarStep s.sink sink) :
    Move hub none (hub.update id fun s => { s with sink })
  /-- The registry is emptied. -/
  | shutdown :
    Move hub (some .shutdown)
      { hub with
        subscriptions := hub.subscriptions.map fun s => { s with isRegistered := false } }

variable [LineSink σ] {hub next : Hub σ} {event : Option HubEvent}

/-- A publisher that is offered a queue makes a move. -/
theorem offer_move {p : PublisherId} {publication : Publication} {target : SubscriptionId}
    {s : Subscription σ} {stepped : Stepped σ} (isAt : hub.IsAt p publication target)
    (found : hub.subscriptions[target]? = some s) (alive : s.progress.isOver = false)
    (h : hub.offer p target s publication.line = some stepped) :
    Move hub stepped.event stepped.hub := by
  have haccept (hroom : hub.CanTake p s) :
      Move hub (hub.accept p target publication.line).event
        (hub.accept p target publication.line).hub := .accept isAt found alive hroom
  unfold CanTake at haccept
  unfold offer at h
  split at h
  · next hpolicy =>
    simp only [hpolicy] at haccept
    obtain rfl := Option.some.inj h
    cases hroom : hub.hasRoom s with
    | true => exact haccept hroom
    | false => exact .skip isAt found alive hpolicy hroom
  · next waiter hpolicy hwaiter =>
    simp only [hpolicy, hwaiter] at haccept
    split at h
    · next hgranted =>
      obtain rfl := Option.some.inj h
      exact haccept hgranted
    · cases h
  · next hpolicy hwaiter =>
    simp only [hpolicy, hwaiter] at haccept
    obtain rfl := Option.some.inj h
    cases hroom : hub.hasRoom s with
    | true => exact haccept hroom
    | false => exact .enqueue isAt found alive hpolicy hwaiter hroom

theorem visit_move {p : PublisherId} {stepped : Stepped σ} (h : hub.visit p = some stepped) :
    Move hub stepped.event stepped.hub := by
  rw [visit] at h
  cases hcurrent : hub.publishers[p]?.bind Publisher.current with
  | none => rw [hcurrent] at h; cases h
  | some publication =>
    simp only [hcurrent] at h
    cases htargets : publication.targets with
    | nil =>
      simp only [htargets] at h
      obtain rfl := Option.some.inj h
      exact .finish hcurrent htargets
    | cons target rest =>
      simp only [htargets] at h
      have isAt : hub.IsAt p publication target := ⟨hcurrent, by rw [htargets, List.tail_cons]⟩
      cases hfound : hub.subscriptions[target]? with
      | none =>
        simp only [hfound] at h
        obtain rfl := Option.some.inj h
        exact .skipUnknown isAt hfound
      | some s =>
        simp only [hfound] at h
        cases hover : s.progress.isOver with
        | true =>
          rw [if_pos hover] at h
          obtain rfl := Option.some.inj h
          exact .forget isAt hfound hover
        | false =>
          rw [if_neg (by rw [hover]; exact Bool.false_ne_true)] at h
          exact offer_move isAt hfound hover h

theorem writeLine_move {id : SubscriptionId} {s : Subscription σ} {line : String}
    {stepped : Stepped σ} (found : hub.subscriptions[id]? = some s)
    (progress : s.progress = .writing line) (h : hub.writeLine id s line = some stepped) :
    Move hub stepped.event stepped.hub := by
  rw [writeLine] at h
  cases houtcome : LineSink.write s.sink line with
  | written sink =>
    rw [houtcome] at h
    obtain rfl := Option.some.inj h
    exact .write found progress houtcome
  | refused fault =>
    rw [houtcome] at h
    obtain rfl := Option.some.inj h
    exact .refuse found progress houtcome
  | pending => rw [houtcome] at h; cases h
  | crashed =>
    rw [houtcome] at h
    obtain rfl := Option.some.inj h
    exact .crash found progress houtcome

theorem closeSink_move {id : SubscriptionId} {s : Subscription σ} {how : Ending}
    {stepped : Stepped σ} (found : hub.subscriptions[id]? = some s)
    (progress : s.progress = .closing how) (h : hub.closeSink id s how = some stepped) :
    Move hub stepped.event stepped.hub := by
  rw [closeSink] at h
  cases houtcome : LineSink.close s.sink with
  | closed sink =>
    rw [houtcome] at h
    obtain rfl := Option.some.inj h
    exact .close found progress houtcome
  | pending => rw [houtcome] at h; cases h
  | crashed =>
    rw [houtcome] at h
    obtain rfl := Option.some.inj h
    exact .crashClosing found progress houtcome

theorem consume_move {id : SubscriptionId} {stepped : Stepped σ}
    (h : hub.consume id = some stepped) : Move hub stepped.event stepped.hub := by
  rw [consume] at h
  cases hfound : hub.subscriptions[id]? with
  | none => rw [hfound] at h; cases h
  | some s =>
    simp only [hfound] at h
    cases hprogress : s.progress with
    | starting =>
      simp only [hprogress] at h
      obtain rfl := Option.some.inj h
      exact .start hfound hprogress
    | receiving =>
      simp only [hprogress] at h
      cases hqueue : s.queue with
      | cons line rest =>
        simp only [hqueue] at h
        obtain rfl := Option.some.inj h
        exact .take hfound hprogress hqueue
      | nil =>
        simp only [hqueue] at h
        split at h
        · cases h
        · next hheld =>
          obtain rfl := Option.some.inj h
          exact .finishQueue hfound hprogress hqueue (Bool.not_eq_true _ ▸ hheld)
    | writing line =>
      simp only [hprogress] at h
      exact writeLine_move hfound hprogress h
    | stopping how =>
      simp only [hprogress] at h
      obtain rfl := Option.some.inj h
      exact .leave hfound hprogress
    | closing how =>
      simp only [hprogress] at h
      exact closeSink_move hfound hprogress h
    | releasing how =>
      simp only [hprogress] at h
      obtain rfl := Option.some.inj h
      exact .giveBack hfound hprogress
    | returned how => simp only [hprogress] at h; cases h
    | crashed noted => simp only [hprogress] at h; cases h

/-- **A step is a move.** -/
theorem Step.move (h : Step hub event next) : Move hub event next := by
  cases h with
  | @subscribe stream sink id stepped h =>
    obtain ⟨idle, fits, rfl, rfl⟩ := subscribe_eq_ok_iff.mp h
    exact .subscribe stream sink idle fits
  | addPublisher => exact .addPublisher
  | publish line h idle order => exact .begin line h idle order
  | @advance runner stepped h =>
    cases runner with
    | consumer id => exact consume_move h
    | publisher p => exact visit_move h
  | touchSink h far => exact .touch h far
  | shutdown => exact .shutdown

/-- The configuration stays. -/
theorem Move.config_eq (h : Move hub event next) : next.config = hub.config := by
  cases h <;> rfl

theorem Run.config_eq {start : Hub σ} {events : List HubEvent} (h : Run start events hub) :
    hub.config = start.config := by
  induction h with
  | refl => rfl
  | tail _ s ih => rw [s.move.config_eq, ih]

end Hub

end Restconf
