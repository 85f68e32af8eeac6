import Restconf.Tree.Node

/-!
# Tree events

A forest as a flat sequence of events: opening and closing of containers and lists, and leaves. List
entries are anonymous; inside a list each of them is opened as a container with the empty name.

## Main definitions

* `Event` — one step of a traversal.
* `Node.events`, `forestEvents` — the events of a tree, by recursion.
* `Walk` — the same traversal one event at a time, with the steps still to come on a stack;
  `Walk.next?` is a single step and `Walk.toList` runs to the end, as the equations
  `toList_of_next_eq_some` and `toList_of_next_eq_none` say.

## Implementation notes

`Walk.size` is what bounds the traversal: a step replaces the item on top of the stack by items
that are together smaller by one, so the walk ends after exactly `size` events.
-/

namespace Restconf

/-- One step of a depth-first traversal. -/
inductive Event where
  /-- Opens a container, a list, or, with the empty name, a list entry. -/
  | enter (name : String) (kind : NodeKind)
  | leaf (name value : String)
  | leafList (name : String) (values : TextSet)
  /-- Closes the innermost open container or list. -/
  | exit (kind : NodeKind)
deriving DecidableEq

/-! ### By recursion -/

mutual

/-- The events of a node. -/
def Node.events : Node → List Event
  | .container name children =>
    .enter name .container :: forestEvents children ++ [.exit .container]
  | .list name entries => .enter name .list :: entryEvents entries ++ [.exit .list]
  | .leaf name value => [.leaf name value]
  | .leafList name values => [.leafList name values]

/-- The events of siblings in order. -/
def forestEvents : List Node → List Event
  | [] => []
  | node :: rest => node.events ++ forestEvents rest

/-- The events of the entries of a list in order. -/
def entryEvents : List (List Node) → List Event
  | [] => []
  | entry :: rest =>
    .enter "" .container :: forestEvents entry ++ .exit .container :: entryEvents rest

end

/-! ### One event at a time -/

/-- What a walk has still to do. -/
inductive WalkStep where
  | visit (node : Node)
  | entry (children : List Node)
  | exit (kind : NodeKind)

/-- The steps still to come, the next one first. -/
structure Walk where
  stack : List WalkStep

namespace Walk

/-- A walk over siblings from the start. -/
def start (nodes : List Node) : Walk := ⟨nodes.map .visit⟩

/-- The next event and the walk after it. -/
def next? (walk : Walk) : Option (Event × Walk) :=
  match walk.stack with
  | [] => none
  | .visit (.container name children) :: rest =>
    some (.enter name .container, ⟨children.map .visit ++ .exit .container :: rest⟩)
  | .visit (.list name entries) :: rest =>
    some (.enter name .list, ⟨entries.map .entry ++ .exit .list :: rest⟩)
  | .visit (.leaf name value) :: rest => some (.leaf name value, ⟨rest⟩)
  | .visit (.leafList name values) :: rest => some (.leafList name values, ⟨rest⟩)
  | .entry children :: rest =>
    some (.enter "" .container, ⟨children.map .visit ++ .exit .container :: rest⟩)
  | .exit kind :: rest => some (.exit kind, ⟨rest⟩)

mutual

/-- How many events a node gives. -/
def nodeSize : Node → Nat
  | .container _ children => forestSize children + 2
  | .list _ entries => entriesSize entries + 2
  | .leaf .. | .leafList .. => 1

/-- How many events siblings give. -/
def forestSize : List Node → Nat
  | [] => 0
  | node :: rest => nodeSize node + forestSize rest

/-- How many events the entries of a list give. -/
def entriesSize : List (List Node) → Nat
  | [] => 0
  | entry :: rest => forestSize entry + 2 + entriesSize rest

end

/-- How many events a step gives. -/
def stepSize : WalkStep → Nat
  | .visit node => nodeSize node
  | .entry children => forestSize children + 2
  | .exit _ => 1

/-- How many events the steps on a stack give. -/
def stackSize : List WalkStep → Nat
  | [] => 0
  | step :: rest => stepSize step + stackSize rest

/-- How many events are still to come. -/
def size (walk : Walk) : Nat := stackSize walk.stack

@[simp]
theorem stackSize_nil : stackSize [] = 0 := rfl

@[simp]
theorem stackSize_cons (step : WalkStep) (stack : List WalkStep) :
    stackSize (step :: stack) = stepSize step + stackSize stack := rfl

@[simp]
theorem stackSize_append (s t : List WalkStep) :
    stackSize (s ++ t) = stackSize s + stackSize t := by
  induction s with
  | nil => simp
  | cons step s ih => simp [ih, Nat.add_assoc]

@[simp]
theorem stackSize_visit (nodes : List Node) :
    stackSize (nodes.map .visit) = forestSize nodes := by
  induction nodes with
  | nil => simp [forestSize]
  | cons node nodes ih => simp [forestSize, stepSize, ih]

@[simp]
theorem stackSize_entry (entries : List (List Node)) :
    stackSize (entries.map .entry) = entriesSize entries := by
  induction entries with
  | nil => simp [entriesSize]
  | cons entry entries ih => simp [entriesSize, stepSize, ih]

/-- A step takes one event off what is still to come. -/
theorem size_next {walk after : Walk} {event : Event} (h : walk.next? = some (event, after)) :
    after.size + 1 = walk.size := by
  obtain ⟨stack⟩ := walk
  unfold next? at h
  split at h <;> cases h <;>
    simp_all +arith [size, stepSize, nodeSize]

/-- The first events of a walk. -/
def take : Nat → Walk → List Event
  | 0, _ => []
  | count + 1, walk =>
    match walk.next? with
    | none => []
    | some (event, after) => event :: after.take count

/-- All events of a walk. -/
def toList (walk : Walk) : List Event := walk.take walk.size

theorem toList_of_next_eq_none {walk : Walk} (h : walk.next? = none) : walk.toList = [] := by
  unfold toList
  cases walk.size with
  | zero => rfl
  | succ count => simp [take, h]

theorem toList_of_next_eq_some {walk after : Walk} {event : Event}
    (h : walk.next? = some (event, after)) : walk.toList = event :: after.toList := by
  rw [toList, ← size_next h, take, h]
  rfl

end Walk

end Restconf
