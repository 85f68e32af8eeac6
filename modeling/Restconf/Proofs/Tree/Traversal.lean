import Restconf.Proofs.Tree.Rebuild

/-!
# Traversing a forest with a stack

A walk keeps one stack for everything that it has still to do. It shows the events that the
recursion defines, one at a time and no others, and it is over when it has shown them all.

## What stands on the stack

What is above an exit on the stack has to be done before that exit is shown, and what is below it is
not touched until then. So the exits on the stack are the nodes that have been opened and not yet
closed, innermost first, at every moment of every walk. From this alone it follows that the events
of one node are never interrupted: the exit of a container or list lies at the bottom of the stack
from its first event to its last.

## Main definitions

* `Event.openAfter?` — the nodes that are open behind events, as far as these nest

## Main results

* `Walk.Leaves.openAfter?` — the open nodes are the exits on the stack
* `Walk.Leaves.toList_eq` — what has been shown and what will be
* `Walk.traverses` — the headline
-/

namespace Restconf

/-! ### Open nodes -/

namespace Event

/-- The kinds of the nodes that are open behind an event, innermost first. A node is closed as what
it was opened as. -/
def open? (opened : List NodeKind) : Event → Option (List NodeKind)
  | enter _ kind => some (kind :: opened)
  | leaf .. | leafList .. => some opened
  | exit kind =>
    match opened with
    | [] => none
    | innermost :: around => if kind = innermost then some around else none

/-- The kinds of the nodes that are open behind several events. -/
def openAfter? (opened : List NodeKind) (events : List Event) : Option (List NodeKind) :=
  events.foldlM open? opened

theorem openAfter?_cons (opened : List NodeKind) (event : Event) (events : List Event) :
    openAfter? opened (event :: events)
      = (open? opened event).bind fun opened => openAfter? opened events :=
  List.foldlM_cons

end Event

namespace Walk

open Event

variable {walk after rest : Walk} {event : Event} {events before others : List Event}

/-- An event opens and closes what the step does to the exits on the stack. -/
theorem open?_exits (h : walk.next? = some (event, after)) :
    open? (exits walk.stack) event = some (exits after.stack) := by
  obtain ⟨stack⟩ := walk
  rcases stack with _ | ⟨step, outer⟩
  · cases h
  cases step with
  | visit node =>
    cases node with
    | container name children =>
      cases h
      exact congrArg some (exits_visit children (.exit .container :: outer)).symm
    | list name entries =>
      cases h
      exact congrArg some (exits_entry entries (.exit .list :: outer)).symm
    | leaf name value => cases h; rfl
    | leafList name values => cases h; rfl
  | entry children =>
    cases h
    exact congrArg some (exits_visit children (.exit .container :: outer)).symm
  | exit kind =>
    cases h
    exact if_pos rfl

/-- **The open nodes are the exits on the stack**, at every moment of a walk. -/
theorem Leaves.openAfter? (h : walk.Leaves events rest) :
    Event.openAfter? (exits walk.stack) events = some (exits rest.stack) := by
  induction h with
  | nil => rfl
  | cons hnext _ ih => rw [openAfter?_cons, open?_exits hnext, Option.bind_some, ih]

/-! ### What has been shown -/

/-- What has been shown and what will be are the events of the walk. -/
theorem Leaves.toList_eq (h : walk.Leaves events rest) : walk.toList = events ++ rest.toList := by
  induction h with
  | nil => rfl
  | cons hnext _ ih => rw [toList_of_next_eq_some hnext, ih, List.cons_append]

theorem toList_eq_nil_iff : walk.toList = [] ↔ walk.next? = none := by
  refine ⟨fun h => ?_, toList_of_next_eq_none⟩
  cases hnext : walk.next? with
  | none => rfl
  | some found => rw [toList_of_next_eq_some hnext] at h; cases h

/-- A walk can be stopped behind any of its events. -/
theorem exists_leaves (h : walk.toList = before ++ others) :
    ∃ rest, walk.Leaves before rest ∧ rest.toList = others := by
  induction before generalizing walk with
  | nil => exact ⟨walk, .nil, h⟩
  | cons event before ih =>
    cases hnext : walk.next? with
    | none => rw [toList_of_next_eq_none hnext] at h; cases h
    | some found =>
      obtain ⟨first, after⟩ := found
      rw [toList_of_next_eq_some hnext] at h
      obtain ⟨rfl, htail⟩ := List.cons.inj h
      obtain ⟨rest, hrest, hothers⟩ := ih htail
      exact ⟨rest, .cons hnext hrest, hothers⟩

/-! ### One node -/

/-- A step replaces the top of the stack and leaves what is below it. -/
theorem exists_stack_of_next {top : WalkStep} {outer : List WalkStep}
    (hstack : walk.stack = top :: outer) (h : walk.next? = some (event, after)) :
    ∃ pushed, after.stack = pushed ++ outer := by
  obtain ⟨stack⟩ := walk
  obtain rfl : stack = top :: outer := hstack
  cases top with
  | visit node =>
    cases node with
    | container name children => cases h; exact ⟨children.map .visit ++ [.exit .container], by simp⟩
    | list name entries => cases h; exact ⟨entries.map .entry ++ [.exit .list], by simp⟩
    | leaf name value => cases h; exact ⟨[], rfl⟩
    | leafList name values => cases h; exact ⟨[], rfl⟩
  | entry children => cases h; exact ⟨children.map .visit ++ [.exit .container], by simp⟩
  | exit kind => cases h; exact ⟨[], rfl⟩

/-- An exit at the bottom of the stack stays there until the walk is over. -/
theorem Leaves.exists_stack {above : List WalkStep} {kind : NodeKind} (h : walk.Leaves events rest)
    (hstack : walk.stack = above ++ [.exit kind]) (hrest : rest.toList ≠ []) :
    ∃ left, rest.stack = left ++ [.exit kind] := by
  induction h generalizing above with
  | nil => exact ⟨above, hstack⟩
  | @cons walk after rest event events hnext hleaves ih =>
    cases above with
    | nil =>
      -- the exit itself has been shown, so there is nothing left
      obtain ⟨stack⟩ := walk
      obtain rfl : stack = [.exit kind] := hstack
      cases hnext
      cases hleaves with
      | nil => exact absurd rfl hrest
      | cons hnone _ => cases hnone
    | cons top above =>
      rw [List.cons_append] at hstack
      obtain ⟨pushed, hpushed⟩ := exists_stack_of_next hstack hnext
      exact ih (hpushed.trans (List.append_assoc _ _ _).symm) hrest

/-- The first step into a container or a list puts its exit at the bottom. -/
theorem exists_stack_of_start {node : Node} (hkind : node.kind = .container ∨ node.kind = .list)
    (h : (start [node]).next? = some (event, after)) :
    ∃ above, after.stack = above ++ [.exit node.kind] := by
  cases node with
  | container name children => cases h; exact ⟨children.map .visit, rfl⟩
  | list name entries => cases h; exact ⟨entries.map .entry, rfl⟩
  | leaf name value | leafList name values => rcases hkind with h | h <;> cases h

/-- **A container or list stays open** from its first event up to its last. -/
theorem exists_openAfter?_of_prefix {node : Node}
    (hkind : node.kind = .container ∨ node.kind = .list) (hevents : node.events = before ++ others)
    (hbefore : before ≠ []) (hothers : others ≠ []) :
    ∃ inner, Event.openAfter? [] before = some (inner ++ [node.kind]) := by
  have hwalk : (start [node]).toList = before ++ others := by
    rw [toList_start, forestEvents, forestEvents, List.append_nil, hevents]
  obtain ⟨rest, hleaves, rfl⟩ := exists_leaves hwalk
  have hopen : Event.openAfter? [] before = some (exits rest.stack) := hleaves.openAfter?
  cases hleaves with
  | nil => exact absurd rfl hbefore
  | cons hnext htail =>
    obtain ⟨above, habove⟩ := exists_stack_of_start hkind hnext
    obtain ⟨left, hleft⟩ := htail.exists_stack habove hothers
    refine ⟨exits left, ?_⟩
    rw [hopen, hleft, exits, List.filterMap_append]
    rfl

/-- **The walk over a forest shows the events of the recursion**, and then it is over. What it has
shown at any moment is what it will not show any more, and leaves open the nodes that the walk has
still to close. The events of a container or list open that node with the first of them and close
it with the last, and behind all of them nothing is open. -/
theorem traverses (nodes : List Node) :
    (∃ last, (start nodes).Leaves (forestEvents nodes) last ∧ last.next? = none)
      ∧ (∀ events rest, (start nodes).Leaves events rest →
          forestEvents nodes = events ++ rest.toList
            ∧ (rest.next? = none ↔ events = forestEvents nodes)
            ∧ Event.openAfter? [] events = some (exits rest.stack))
      ∧ ∀ node : Node, node.kind = .container ∨ node.kind = .list →
          Event.openAfter? [] node.events = some []
            ∧ ∀ before others, node.events = before ++ others → before ≠ [] → others ≠ [] →
                ∃ inner, Event.openAfter? [] before = some (inner ++ [node.kind]) := by
  have hstart (row : List Node) : exits (start row).stack = [] := by
    have hexits := exits_visit row []
    rwa [List.append_nil] at hexits
  refine ⟨?_, fun events rest hleaves => ?_, fun node hkind => ⟨?_, ?_⟩⟩
  · obtain ⟨last, hleaves, hover⟩ := exists_leaves_toList (start nodes)
    rw [toList_start] at hleaves
    exact ⟨last, hleaves, hover⟩
  · have hall := hleaves.toList_eq
    rw [toList_start] at hall
    have hopen := hleaves.openAfter?
    rw [hstart] at hopen
    refine ⟨hall, ?_, hopen⟩
    rw [← toList_eq_nil_iff, hall, List.self_eq_append_right]
  · obtain ⟨last, hleaves, hover⟩ := exists_leaves_toList (start [node])
    have hopen := hleaves.openAfter?
    rwa [hstart, stack_eq_nil_of_next_eq_none hover, toList_start, forestEvents, forestEvents,
      List.append_nil] at hopen
  · exact fun before others => exists_openAfter?_of_prefix hkind

/-- A list with an entry and without a name: half of the way, the entry, the list and the container
around it are open, and one event further the list and the container. -/
theorem traverses_entries :
    let node : Node := .container "top" [.list "" [[.leaf "id" "1"], []], .leaf "id" "2"]
    (∃ last, (start [node]).Leaves
        [.enter "top" .container, .enter "" .list, .enter "" .container, .leaf "id" "1",
          .exit .container, .enter "" .container, .exit .container, .exit .list, .leaf "id" "2",
          .exit .container] last ∧ last.next? = none)
      ∧ Event.openAfter? [] node.events = some []
      ∧ ∃ inner, Event.openAfter? []
          [.enter "top" .container, .enter "" .list, .enter "" .container, .leaf "id" "1"]
        = some (inner ++ [.container]) := by
  intro node
  obtain ⟨hwhole, -, hnodes⟩ := traverses [node]
  obtain ⟨hclosed, hprefix⟩ := hnodes node (Or.inl rfl)
  refine ⟨hwhole, hclosed, ?_⟩
  exact hprefix _ _ rfl (List.cons_ne_nil _ _) (List.cons_ne_nil _ _)

end Walk

end Restconf
