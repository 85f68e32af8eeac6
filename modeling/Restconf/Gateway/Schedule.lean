import Restconf.Hub.Step

/-!
# Taking turns

The order in which tasks run that share one thread. Those with reason to run stand in line once
each, and the first of them has its turn until it has to wait.

## Main definitions

* `Schedule` — who has reason to run, and in what order.
* `Schedule.wake` — a task gets reason to run.
* `Schedule.endTurn` — a turn ends, since the task has to wait; `Schedule.rest` — it has done
  enough.
* `Schedule.callBack` — those who rest get back in line.

## Implementation notes

What a task puts into queues and channels or takes from there counts in its turn, and there is room
for `Schedule.turnLength` of this in a turn. A task with more to do rests until the line is empty.
As a busy line may never be, those who rest also get back after every `Schedule.returnInterval`
turns. They come back in the opposite order.

None of this bears on what a task can do, only on when it does it.
-/

namespace Restconf

/-- The tasks that have something to do. -/
structure Schedule where
  /-- The tasks in line. The first has its turn. -/
  ready : List Runner := []
  /-- The tasks that rest, the one that came last first. -/
  resting : List Runner := []
  /-- How much of the current turn is used up. -/
  spent : Nat := 0
  /-- How many turns have ended since those who rest got back in line. -/
  turns : Nat := 0
deriving DecidableEq, Repr

namespace Schedule

/-- How much a task does in one turn. -/
def turnLength : Nat := 128

/-- After how many turns those who rest get back in line. -/
def returnInterval : Nat := 61

/-- A task gets reason to run. One that stands in line or rests has it already. -/
def wake (schedule : Schedule) (runner : Runner) : Schedule :=
  if schedule.ready.contains runner || schedule.resting.contains runner then schedule
  else { schedule with ready := schedule.ready ++ [runner] }

/-- Something counts in the current turn. -/
def spend (schedule : Schedule) : Schedule := { schedule with spent := schedule.spent + 1 }

/-- The current turn is used up. -/
def isSpent (schedule : Schedule) : Bool := turnLength ≤ schedule.spent

/-- Those who rest get back in line. -/
def callBack (schedule : Schedule) : Schedule :=
  { schedule with ready := schedule.ready ++ schedule.resting, resting := [], turns := 0 }

/-- The current turn ends, and its task leaves the line. -/
def endTurn (schedule : Schedule) : Schedule :=
  let turns := schedule.turns + 1
  let next := { schedule with ready := schedule.ready.tail, spent := 0, turns }
  if returnInterval ≤ turns then next.callBack else next

/-- The current turn ends, and its task rests. -/
def rest (schedule : Schedule) : Schedule :=
  endTurn { schedule with resting := schedule.ready.head?.toList ++ schedule.resting }

/-- How many tasks have something to do. -/
def size (schedule : Schedule) : Nat := schedule.ready.length + schedule.resting.length

end Schedule

end Restconf
