import Restconf.Proofs.Tree.Nesting

/-!
# Rebuilding a forest while it is walked

The events of a walk, replayed into a new builder, give back the forest that is walked, whatever the
names in it are and however it nests. At every moment on the way, the nodes that are open in the
builder are those that the walk has still to close.

## Why walk and builder are followed side by side

`Replay` says what all the events of a node do to a builder. In between, a part of the forest has
been shown and stands in the builder, and the rest is still on the stack of the walk. Neither of the
two is a forest: the builder has open frames, and the stack has exits that nothing on it opens. But
they fit together. The innermost frame and the steps up to the first unopened exit are one step that
has not been taken, the visit of the node that has the children of both; with this step in their
place there is one frame less. `Walk.Completes` undoes the frames in this way until only a row is
left, and the row is the forest.

## Main definitions

* `Walk.Leaves` — what a walk leaves to be shown behind some of its events
* `Walk.exits` — the kinds of the nodes that a walk has still to close
* `Walk.Completes` — a builder and a stack of steps that make up a row together

## Main results

* `Walk.Completes.next` — a step of the walk is accepted and keeps them together
* `Walk.Leaves.exists_replay` — and so does every run of steps
* `TreeBuilder.rebuilds` — the headline
-/

namespace Restconf

namespace Walk

open TreeBuilder TreeSink

/-! ### The way of a walk -/

/-- A walk shows events and leaves a walk over the rest. -/
inductive Leaves : Walk → List Event → Walk → Prop where
  | nil {walk : Walk} : Leaves walk [] walk
  | cons {walk after rest : Walk} {event : Event} {events : List Event}
      (next : walk.next? = some (event, after)) (h : Leaves after events rest) :
      Leaves walk (event :: events) rest

/-- Behind all its events a walk is over. -/
theorem exists_leaves_toList (walk : Walk) :
    ∃ rest, walk.Leaves walk.toList rest ∧ rest.next? = none := by
  induction hsize : walk.size using Nat.strongRecOn generalizing walk with
  | _ size ih =>
    cases hnext : walk.next? with
    | none =>
      rw [toList_of_next_eq_none hnext]
      exact ⟨walk, .nil, hnext⟩
    | some found =>
      obtain ⟨event, after⟩ := found
      have hless := size_next hnext
      obtain ⟨rest, hrest, hover⟩ := ih after.size (by omega) after rfl
      rw [toList_of_next_eq_some hnext]
      exact ⟨rest, .cons hnext hrest, hover⟩

/-- The kind of node that a step closes. -/
def closing? : WalkStep → Option NodeKind
  | .exit kind => some kind
  | .visit _ | .entry _ => none

/-- The kinds of the nodes that a walk is inside of, innermost first. -/
def exits (stack : List WalkStep) : List NodeKind := stack.filterMap closing?

theorem exits_visit (nodes : List Node) (stack : List WalkStep) :
    exits (nodes.map .visit ++ stack) = exits stack := by
  induction nodes with
  | nil => rfl
  | cons node nodes ih => exact ih

theorem exits_entry (entries : List (List Node)) (stack : List WalkStep) :
    exits (entries.map .entry ++ stack) = exits stack := by
  induction entries with
  | nil => rfl
  | cons entry entries ih => exact ih

/-! ### A forest in two parts -/

/-- **What is built and what is still to be walked make up a row.** A frame and the steps up to the
exit that closes it stand for one step, the visit of the node with the children of both. -/
inductive Completes (nodes : List Node) : TreeBuilder → List WalkStep → Prop where
  | row {roots rest : List Node} (h : roots ++ rest = nodes) :
      Completes nodes ⟨roots, []⟩ (rest.map .visit)
  | container {roots before rest : List Node} {around : List Frame} {name : String}
      {outer : List WalkStep}
      (h : Completes nodes ⟨roots, around⟩ (.visit (.container name (before ++ rest)) :: outer)) :
      Completes nodes ⟨roots, .container name before :: around⟩
        (rest.map .visit ++ .exit .container :: outer)
  | list {roots : List Node} {before rest : List (List Node)} {around : List Frame} {name : String}
      {outer : List WalkStep}
      (h : Completes nodes ⟨roots, around⟩ (.visit (.list name (before ++ rest)) :: outer)) :
      Completes nodes ⟨roots, .list name before :: around⟩
        (rest.map .entry ++ .exit .list :: outer)
  | entry {roots before rest : List Node} {around : List Frame} {outer : List WalkStep}
      (h : Completes nodes ⟨roots, around⟩ (.entry (before ++ rest) :: outer)) :
      Completes nodes ⟨roots, .entry before :: around⟩
        (rest.map .visit ++ .exit .container :: outer)

variable {nodes : List Node} {builder : TreeBuilder} {stack outer : List WalkStep}

theorem completes_start (nodes : List Node) : Completes nodes {} (start nodes).stack :=
  .row (List.nil_append nodes)

/-- The open nodes are those that are still to be closed. -/
theorem Completes.map_closedAs_places (h : Completes nodes builder stack) :
    builder.places.map Place.closedAs = exits stack := by
  induction h with
  | @row roots rest h =>
    have hexits := exits_visit rest []
    rw [List.append_nil] at hexits
    exact hexits.symm
  | container _ ih =>
    rw [exits_visit]
    exact congrArg (NodeKind.container :: ·) ih
  | list _ ih =>
    rw [exits_entry]
    exact congrArg (NodeKind.list :: ·) ih
  | entry _ ih =>
    rw [exits_visit]
    exact congrArg (NodeKind.container :: ·) ih

/-- With nothing left to be walked the row is finished. -/
theorem Completes.finish_eq (h : Completes nodes builder []) : builder.finish = .ok nodes := by
  generalize hstack : ([] : List WalkStep) = stack at h
  cases h with
  | @row roots rest h =>
    obtain rfl : rest = [] := List.map_eq_nil_iff.mp hstack.symm
    rw [← h, List.append_nil]
    rfl
  | container h | list h | entry h => exact absurd hstack.symm (by simp)

/-- A node that is to be visited belongs where the builder stands, and it may as well be there. -/
theorem Completes.put {node : Node} (h : Completes nodes builder (.visit node :: outer)) :
    builder.IsReceptive ∧ Completes nodes (builder.extend [node]) outer := by
  generalize hstack : WalkStep.visit node :: outer = stack at h
  cases h with
  | @row roots rest h =>
    cases rest with
    | nil => cases hstack
    | cons first rest =>
      cases hstack
      exact ⟨isReceptive_iff.mpr rfl, .row (by rw [List.append_assoc]; exact h)⟩
  | @container roots before rest around name outer h =>
    cases rest with
    | nil => cases hstack
    | cons first rest =>
      cases hstack
      rw [List.append_cons] at h
      exact ⟨isReceptive_iff.mpr rfl, .container h⟩
  | @list roots before rest around name outer h => cases rest <;> cases hstack
  | @entry roots before rest around outer h =>
    cases rest with
    | nil => cases hstack
    | cons first rest =>
      cases hstack
      rw [List.append_cons] at h
      exact ⟨isReceptive_iff.mpr rfl, .entry h⟩

/-- The same for an entry, which belongs into a list. -/
theorem Completes.put_entry {children : List Node}
    (h : Completes nodes builder (.entry children :: outer)) :
    ∃ name before around, builder.frames = .list name before :: around
      ∧ Completes nodes ⟨builder.roots, .list name (before ++ [children]) :: around⟩ outer := by
  generalize hstack : WalkStep.entry children :: outer = stack at h
  cases h with
  | @row roots rest h => cases rest <;> cases hstack
  | @container roots before rest around name outer h => cases rest <;> cases hstack
  | @list roots before rest around name outer h =>
    cases rest with
    | nil => cases hstack
    | cons first rest =>
      cases hstack
      rw [List.append_cons] at h
      exact ⟨name, before, around, rfl, .list h⟩
  | @entry roots before rest around outer h => cases rest <;> cases hstack

/-- An exit closes the innermost frame, and puts its node where it belongs. -/
theorem Completes.exit {kind : NodeKind} (h : Completes nodes builder (.exit kind :: outer)) :
    ∃ after, builder.exit kind = { sink := after } ∧ Completes nodes after outer := by
  generalize hstack : WalkStep.exit kind :: outer = stack at h
  cases h with
  | @row roots rest h => cases rest <;> cases hstack
  | @container roots before rest around name outer h =>
    cases rest with
    | nil =>
      cases hstack
      rw [List.append_nil] at h
      obtain ⟨hready, hput⟩ := h.put
      exact ⟨_, attach_of_isReceptive hready (.container name before), hput⟩
    | cons first rest => cases hstack
  | @list roots before rest around name outer h =>
    cases rest with
    | nil =>
      cases hstack
      rw [List.append_nil] at h
      obtain ⟨hready, hput⟩ := h.put
      exact ⟨_, attach_of_isReceptive hready (.list name before), hput⟩
    | cons first rest => cases hstack
  | @entry roots before rest around outer h =>
    cases rest with
    | nil =>
      cases hstack
      rw [List.append_nil] at h
      obtain ⟨name, entries, beyond, rfl, hput⟩ := h.put_entry
      exact ⟨_, rfl, hput⟩
    | cons first rest => cases hstack

/-- **A step of the walk** is accepted by the builder, and afterwards the two make up the same
row. -/
theorem Completes.next {walk after : Walk} {event : Event}
    (h : Completes nodes builder walk.stack) (hnext : walk.next? = some (event, after)) :
    ∃ later, TreeSink.call builder event.call = { sink := later }
      ∧ Completes nodes later after.stack := by
  obtain ⟨roots, frames⟩ := builder
  obtain ⟨stack⟩ := walk
  rcases stack with _ | ⟨step, outer⟩
  · cases hnext
  cases step with
  | visit node =>
    obtain ⟨hready, hput⟩ := h.put
    cases node with
    | container name children =>
      cases hnext
      exact ⟨_, enterContainer_of_isReceptive hready name, .container h⟩
    | list name entries =>
      cases hnext
      exact ⟨_, enterList_of_isReceptive hready name, .list h⟩
    | leaf name value =>
      cases hnext
      exact ⟨_, attach_of_isReceptive hready (.leaf name value), hput⟩
    | leafList name values =>
      cases hnext
      exact ⟨_, attach_of_isReceptive hready (.leafList name values), hput⟩
  | entry children =>
    cases hnext
    obtain ⟨name, before, around, rfl, -⟩ := h.put_entry
    exact ⟨_, rfl, .entry h⟩
  | exit kind =>
    cases hnext
    exact h.exit

/-- **Replaying what a walk shows** up to any moment. -/
theorem Leaves.exists_replay {walk rest : Walk} {events : List Event}
    (h : walk.Leaves events rest) (hrow : Completes nodes builder walk.stack) :
    ∃ after, replay builder events = { sink := after } ∧ Completes nodes after rest.stack := by
  induction h generalizing builder with
  | nil => exact ⟨builder, rfl, hrow⟩
  | cons hnext _ ih =>
    obtain ⟨later, hcall, hlater⟩ := hrow.next hnext
    obtain ⟨after, hreplay, hafter⟩ := ih hlater
    rw [replay] at hreplay
    exact ⟨after, by rw [replay, List.map_cons, feed_cons hcall, hreplay], hafter⟩

theorem stack_eq_nil_of_next_eq_none {walk : Walk} (h : walk.next? = none) : walk.stack = [] := by
  obtain ⟨stack⟩ := walk
  rcases stack with _ | ⟨step, outer⟩
  · rfl
  · cases step with
    | visit node => cases node <;> cases h
    | entry children => cases h
    | exit kind => cases h

end Walk

/-! ### The whole walk -/

namespace TreeBuilder

open Walk TreeSink

/-- **Walking a forest and rebuilding it gives the forest.** No event is refused, and up to every
moment the open nodes are those that the walk has still to close. -/
theorem rebuilds (nodes : List Node) :
    (∃ builder, replay ({} : TreeBuilder) (start nodes).toList = { sink := builder }
        ∧ builder.finish = .ok nodes)
      ∧ ∀ events rest, (start nodes).Leaves events rest →
          ∃ builder, replay ({} : TreeBuilder) events = { sink := builder }
            ∧ builder.places.map Place.closedAs = exits rest.stack := by
  constructor
  · obtain ⟨rest, hrest, hover⟩ := exists_leaves_toList (start nodes)
    obtain ⟨builder, hreplay, hrow⟩ := hrest.exists_replay (completes_start nodes)
    rw [stack_eq_nil_of_next_eq_none hover] at hrow
    exact ⟨builder, hreplay, hrow.finish_eq⟩
  · intro events rest hrest
    obtain ⟨builder, hreplay, hrow⟩ := hrest.exists_replay (completes_start nodes)
    exact ⟨builder, hreplay, hrow.map_closedAs_places⟩

/-- Names that are empty or occur twice, an entry without children and a list without entries. In
the middle of the first entry three nodes are open. -/
theorem rebuilds_unnamed :
    let nodes : List Node :=
      [.container "" [.list "l" [[.leaf "" "1", .leaf "" "2"], []], .list "l" []]]
    (∃ builder, replay ({} : TreeBuilder) (start nodes).toList = { sink := builder }
        ∧ builder.finish = .ok nodes)
      ∧ ∃ builder,
          replay ({} : TreeBuilder)
              [.enter "" .container, .enter "l" .list, .enter "" .container, .leaf "" "1"]
            = { sink := builder }
          ∧ builder.places.map Place.closedAs = [.container, .list, .container] := by
  intro nodes
  obtain ⟨hwhole, hpart⟩ := rebuilds nodes
  exact ⟨hwhole, hpart _ _ (.cons rfl (.cons rfl (.cons rfl (.cons rfl .nil))))⟩

end TreeBuilder

end Restconf
