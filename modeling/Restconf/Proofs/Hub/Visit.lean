import Restconf.Proofs.Hub.MoveAt
import Restconf.Proofs.Hub.Traffic

/-!
# Publishers at their targets

A publisher stands at one target at a time. It stays there, whatever others do, until it goes on by
a step of its own, and it goes on in one of two ways: the queue has taken the line, or it has not.

## When a queue does not take a line

There are two reasons only. The queue is gone because its consumer has returned, or the policy is
`drop` and there is no room. In particular nothing that happens to other subscriptions is a reason.

## Main definitions

* `HubEvent.publisher?` — the publisher whose step an event shows
* `Hub.AtTarget` — what a move means to a publisher at its target
* `Hub.GoesOn` — the next step of a publisher is to leave its target out

## Main results

* `Hub.visit_eq` — the next step of a publisher at a target
* `Hub.visit_eq_none` — a publisher that cannot go on waits in a line, without room
* `Hub.Move.atTarget` — a move leaves a publisher at its target, or it goes on
* `Hub.Run.goesOn` — a publisher goes on from a queue that is gone, and does not count it
-/

namespace Restconf

/-- The publisher whose step an event shows. -/
def HubEvent.publisher? : HubEvent → Option PublisherId
  | began p _ _ | accepted p _ _ | passed p _ | waits p _ | completed p _ => some p
  | subscribed _ | started _ | took .. | ended _ | wrote .. | refused .. | crashed .. | left _
  | closed _ | returned .. | shutdown => none

namespace Hub

variable {σ : Type} {hub next : Hub σ} {event : Option HubEvent} {p : PublisherId}
  {publication : Publication} {target : SubscriptionId} {s : Subscription σ}

/-! ### The next step -/

/-- A publisher has one target at a time. -/
theorem IsAt.eq {other : Publication} {id : SubscriptionId} (isAt : hub.IsAt p publication target)
    (h : hub.IsAt p other id) : other = publication ∧ id = target := by
  obtain rfl := Option.some.inj (h.current.symm.trans isAt.current)
  exact ⟨rfl, (List.cons.inj (h.next.symm.trans isAt.next)).1⟩

theorem IsAt.targets_ne_nil (isAt : hub.IsAt p publication target) : publication.targets ≠ [] := by
  rw [isAt.next]
  exact List.cons_ne_nil _ _

theorem visit_eq (isAt : hub.IsAt p publication target)
    (found : hub.subscriptions[target]? = some s) :
    hub.visit p = if s.progress.isOver then some (hub.forget p target)
      else hub.offer p target s publication.line := by
  have hcurrent : hub.publishers[p]?.bind Publisher.current = some publication := isAt.current
  rw [visit, hcurrent]
  dsimp only
  rw [isAt.next]
  dsimp only
  rw [found]

/-- At a queue that is gone a publisher goes on without it. -/
theorem visit_of_isOver (isAt : hub.IsAt p publication target)
    (found : hub.subscriptions[target]? = some s) (gone : s.progress.isOver = true) :
    hub.visit p = some (hub.forget p target) := by
  rw [visit_eq isAt found, if_pos gone]

/-- A target that there is not is left out. -/
theorem visit_of_unknown (isAt : hub.IsAt p publication target)
    (unknown : hub.subscriptions[target]? = none) : hub.visit p = some (hub.skip p target) := by
  have hcurrent : hub.publishers[p]?.bind Publisher.current = some publication := isAt.current
  rw [visit, hcurrent]
  dsimp only
  rw [isAt.next]
  dsimp only
  rw [unknown]

theorem canTake_of_drop (policy : hub.config.overflow = .drop) :
    hub.CanTake p s ↔ hub.hasRoom s = true := by
  simp [CanTake, policy]

/-- A publisher that cannot go on with its line waits at a target under `block`, and no room is kept
for it. -/
theorem visit_eq_none (current : hub.current p = some publication) (h : hub.visit p = none) :
    ∃ target s waiter, hub.IsAt p publication target ∧ hub.subscriptions[target]? = some s
      ∧ s.progress.isOver = false ∧ hub.config.overflow = .block
      ∧ s.waiters.find? (·.publisher = p) = some waiter ∧ waiter.granted = false := by
  have hcurrent : hub.publishers[p]?.bind Publisher.current = some publication := current
  cases htargets : publication.targets with
  | nil => simp [visit, hcurrent, htargets] at h
  | cons target rest =>
    have isAt : hub.IsAt p publication target := ⟨current, by rw [htargets, List.tail_cons]⟩
    cases found : hub.subscriptions[target]? with
    | none => simp [visit, hcurrent, htargets, found] at h
    | some s =>
      rw [visit_eq isAt found] at h
      cases alive : s.progress.isOver with
      | true => simp [alive] at h
      | false =>
        simp only [alive, Bool.false_eq_true, if_false, offer] at h
        split at h
        · cases h
        · next waiter policy hwaiter =>
          refine ⟨target, s, waiter, isAt, found, alive, policy, hwaiter, ?_⟩
          cases hgranted : waiter.granted with
          | false => rfl
          | true => simp [hgranted] at h
        · cases h

/-! ### Going on -/

/-- What a move means to a publisher at its target. -/
inductive AtTarget (hub next : Hub σ) (p : PublisherId) (publication : Publication)
    (target : SubscriptionId) (s : Subscription σ) (event : Option HubEvent) : Prop where
  /-- It stays there. At most it begins to wait, for a queue that is there. -/
  | stays (current : next.current p = some publication)
    (waits : ∀ e ∈ event, e.publisher? = some p →
      e = .waits p target ∧ s.progress.isOver = false)
  /-- The queue takes the line. -/
  | accepted (event : event = some (.accepted p target publication.line))
    (alive : s.progress.isOver = false) (room : hub.CanTake p s)
    (current : next.current p = some (publication.passed true))
  /-- The queue is gone or, under `drop`, full. -/
  | passed (event : event = some (.passed p target))
    (reason : s.progress.isOver = true ∨ hub.config.overflow = .drop ∧ hub.hasRoom s = false)
    (current : next.current p = some (publication.passed false))

/-- A move of another publisher, or of none. -/
theorem AtTarget.of_other (isAt : hub.IsAt p publication target)
    (current : next.current p = hub.current p) (other : ∀ e ∈ event, e.publisher? ≠ some p) :
    AtTarget hub next p publication target s event :=
  .stays (current.trans isAt.current) fun e he hp => absurd hp (other e he)

/-- **A move leaves a publisher at its target, or it goes on.** -/
theorem Move.atTarget [LineSink σ] (h : Move hub event next)
    (isAt : hub.IsAt p publication target) (found : hub.subscriptions[target]? = some s) :
    AtTarget hub next p publication target s event := by
  have other {q : PublisherId} {e : HubEvent} (hq : q ≠ p) (he : e.publisher? = some q) :
      ∀ e' ∈ some e, e'.publisher? ≠ some p := by
    intro e' he'
    cases he'
    simpa [he] using hq
  have elsewhere {q : PublisherId} {publication' : Publication} {id : SubscriptionId}
      (accepted : Bool) (hat : hub.IsAt q publication' id) (hq : q ≠ p) :
      (hub.passTarget q accepted).current p = hub.current p := by
    rw [hat.current_passTarget, if_neg hq]
  have passing {accepted : Bool} :
      (hub.passTarget p accepted).current p = some (publication.passed accepted) := by
    rw [isAt.current_passTarget, if_pos rfl]
  cases h with
  | @begin q publisher targets line hfound idle =>
    have hq : q ≠ p := by
      rintro rfl
      have hcurrent := isAt.current
      rw [current, hfound] at hcurrent
      cases idle.symm.trans hcurrent
    refine .of_other isAt ?_ (other hq rfl)
    rw [current_publishTo hub q p hfound, if_neg hq]
  | @accept q publication' id t hat hfound alive room =>
    by_cases hq : q = p
    · subst hq
      obtain ⟨rfl, rfl⟩ := isAt.eq hat
      obtain rfl := Option.some.inj (hfound.symm.trans found)
      exact .accepted rfl alive room passing
    · exact .of_other isAt (elsewhere true hat hq) (other hq rfl)
  | @skip q publication' id t hat hfound alive policy full =>
    by_cases hq : q = p
    · subst hq
      obtain ⟨rfl, rfl⟩ := isAt.eq hat
      obtain rfl := Option.some.inj (hfound.symm.trans found)
      exact .passed rfl (Or.inr ⟨policy, full⟩) passing
    · exact .of_other isAt (elsewhere false hat hq) (other hq rfl)
  | @skipUnknown q publication' id hat unknown =>
    have hq : q ≠ p := by
      rintro rfl
      obtain ⟨-, rfl⟩ := isAt.eq hat
      cases unknown.symm.trans found
    exact .of_other isAt (elsewhere false hat hq) (other hq rfl)
  | @forget q publication' id t hat hfound gone =>
    by_cases hq : q = p
    · subst hq
      obtain ⟨rfl, rfl⟩ := isAt.eq hat
      obtain rfl := Option.some.inj (hfound.symm.trans found)
      exact .passed rfl (Or.inl gone) passing
    · exact .of_other isAt (elsewhere false hat hq) (other hq rfl)
  | @enqueue q publication' id t hat hfound alive =>
    by_cases hq : q = p
    · subst hq
      obtain ⟨rfl, rfl⟩ := isAt.eq hat
      obtain rfl := Option.some.inj (hfound.symm.trans found)
      refine .stays isAt.current fun e he _ => ?_
      cases he
      exact ⟨rfl, alive⟩
    · exact .of_other isAt rfl (other hq rfl)
  | @finish q publication' underWay visited =>
    have hq : q ≠ p := by
      rintro rfl
      obtain rfl := Option.some.inj (underWay.symm.trans isAt.current)
      exact isAt.targets_ne_nil visited
    refine .of_other isAt ?_ (other hq rfl)
    rw [current_finishLine, if_neg hq]
  | addPublisher => exact .of_other isAt (hub.current_addPublisher p) (by simp)
  | touch => exact .of_other isAt rfl (by simp)
  | _ => exact .of_other isAt rfl fun e he => by cases he; simp [HubEvent.publisher?]

/-! ### Queues that are gone -/

variable [LineSink σ]

/-- A consumer that has returned does not run again. -/
theorem MoveAt.isOver {id : SubscriptionId} {after : Subscription σ}
    (h : hub.MoveAt id s event after) (gone : s.progress.isOver = true) :
    after.progress.isOver = true := by
  cases h with
  | start progress | take progress | finishQueue progress | write progress | refuse progress
    | leave progress | close progress => simp [progress, Progress.isOver] at gone
  | crash | crashClosing | giveBack => rfl
  | _ => exact gone

/-- From some moment on, a publisher takes no step until it leaves out its target, and it can do so
at any time. Its line then has one target less, and its count is what it was. -/
inductive GoesOn (p : PublisherId) (publication : Publication) (target : SubscriptionId)
    (start : Hub σ) : List HubEvent → Hub σ → Prop where
  /-- It has taken no step yet. -/
  | ready {events : List HubEvent} {last : Hub σ} {t : Subscription σ} {stepped : Stepped σ}
    (quiet : ∀ e ∈ events, e.publisher? ≠ some p) (isAt : last.IsAt p publication target)
    (found : last.subscriptions[target]? = some t) (gone : t.progress.isOver = true)
    (step : last.visit p = some stepped) (event : stepped.event = some (.passed p target))
    (current : stepped.hub.current p = some (publication.passed false)) :
    GoesOn p publication target start events last
  /-- It has gone on. -/
  | past {earlier later : List HubEvent} {before behind last : Hub σ}
    (quiet : ∀ e ∈ earlier, e.publisher? ≠ some p) (run : Run start earlier before)
    (step : Step before (some (.passed p target)) behind)
    (current : behind.current p = some (publication.passed false)) (rest : Run behind later last) :
    GoesOn p publication target start (earlier ++ .passed p target :: later) last

theorem GoesOn.of_isAt {start : Hub σ} {events : List HubEvent}
    (quiet : ∀ e ∈ events, e.publisher? ≠ some p) (isAt : hub.IsAt p publication target)
    (found : hub.subscriptions[target]? = some s) (gone : s.progress.isOver = true) :
    GoesOn p publication target start events hub := by
  refine .ready quiet isAt found gone (visit_of_isOver isAt found gone) rfl ?_
  exact (isAt.current_passTarget false p).trans (if_pos rfl)

/-- **A publisher goes on from a queue that is gone, and does not count it.** -/
theorem Run.goesOn {start : Hub σ} {events : List HubEvent} {last : Hub σ}
    (h : Run start events last) (isAt : start.IsAt p publication target)
    (found : start.subscriptions[target]? = some s) (gone : s.progress.isOver = true) :
    GoesOn p publication target start events last := by
  induction h with
  | refl => exact .of_isAt (fun e he => absurd he List.not_mem_nil) isAt found gone
  | @tail b c events event run step ih =>
    cases ih with
    | @ready _ _ t _ quiet isAt found gone =>
      obtain ⟨after, hafter, move⟩ := step.move.moveAt found
      cases step.move.atTarget isAt found with
      | stays current waits =>
        refine .of_isAt (fun e he => ?_) ⟨current, isAt.next⟩ hafter (move.isOver gone)
        rcases List.mem_append.mp he with he | he
        · exact quiet e he
        · intro hp
          have halive := (waits e (Option.mem_toList.mp he) hp).2
          exact absurd (halive.symm.trans gone) Bool.false_ne_true
      | accepted _ alive => exact absurd (alive.symm.trans gone) Bool.false_ne_true
      | passed hevent _ current =>
        subst hevent
        exact .past quiet run step current (.refl c)
    | past quiet earlier passing current rest =>
      rw [List.append_assoc, List.cons_append]
      exact .past quiet earlier passing current (rest.tail step)

end Hub

end Restconf
