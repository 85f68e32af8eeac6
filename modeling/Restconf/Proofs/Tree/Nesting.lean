import Restconf.Proofs.Tree.Replay

/-!
# Which calls build a forest

The builder takes a sequence of calls to its end, and has nothing open then, if and only if every
call that opens a node is closed again and between the two stands what belongs into the node: nodes
in a container or an entry, and entries in a list. A walk over the forest that is built shows the
same calls. Only the names with which entries were opened are lost.

## The two directions

`Replay` follows the builder through the events of a given forest. Here the calls are given. What
nested calls do does not depend on what is open around them, except that nodes belong to a row and
entries to a list, so one induction over the nesting gives the nodes, or the entries, that they put
there: `TreeBuilder.Puts`.

The converse goes through the calls of a builder that has accepted all of them.
`TreeBuilder.IsClosedBy` describes the calls that are still to come by the nodes that are open: for
each of them, innermost first, something nested and the call that closes it. An accepted call opens
a node or closes one or adds something nested, and in each case what comes after it, with the call
in front, is again of this form.

## Main definitions

* `Place` — among siblings, or directly in a list
* `Call.IsNested` — nested calls with the events that show them
* `TreeBuilder.Builds` — calls that are all accepted and leave nothing open

## Main results

* `TreeBuilder.puts_of_isNested` — what nested calls do, whatever is open
* `TreeBuilder.isClosedBy_cons` — an accepted call in front of those that are still to come
* `TreeBuilder.builds_iff_isNested` — the headline
-/

namespace Restconf

/-- Where a call is made. -/
inductive Place where
  /-- Outside of everything, or in a container or an entry. -/
  | row
  /-- In a list and in none of its entries. -/
  | list

/-- The kind of the call that closes a node with such a place inside. -/
def Place.closedAs : Place → NodeKind
  | row => .container
  | list => .list

/-- **Nested calls**, with the events that show what they build. A row is a concatenation of items,
and a list one of entries. -/
inductive Call.IsNested : Place → List Call → List Event → Prop where
  | nil {place : Place} : IsNested place [] []
  | append {place : Place} {first second : List Call} {shown others : List Event}
      (h : IsNested place first shown) (h' : IsNested place second others) :
      IsNested place (first ++ second) (shown ++ others)
  | leaf (name value : String) : IsNested .row [.addLeaf name value] [.leaf name value]
  | leafList (name : String) (values : TextSet) :
      IsNested .row [.addLeafList name values] [.leafList name values]
  | container (name : String) {calls : List Call} {events : List Event}
      (h : IsNested .row calls events) :
      IsNested .row (.enterContainer name :: calls ++ [.exit .container])
        (.enter name .container :: events ++ [.exit .container])
  | list (name : String) {calls : List Call} {events : List Event}
      (h : IsNested .list calls events) :
      IsNested .row (.enterList name :: calls ++ [.exit .list])
        (.enter name .list :: events ++ [.exit .list])
  /-- The name of an entry is shown as the empty one. -/
  | entry (name : String) {calls : List Call} {events : List Event}
      (h : IsNested .row calls events) :
      IsNested .list (.enterContainer name :: calls ++ [.exit .container])
        (.enter "" .container :: events ++ [.exit .container])

/-- Where the inside of an open node is. -/
def Frame.place : Frame → Place
  | .list .. => .list
  | _ => .row

theorem forestEvents_append (nodes others : List Node) :
    forestEvents (nodes ++ others) = forestEvents nodes ++ forestEvents others := by
  simp only [forestEvents_eq_flatMap, List.flatMap_append]

theorem entryEvents_append (entries others : List (List Node)) :
    entryEvents (entries ++ others) = entryEvents entries ++ entryEvents others := by
  simp only [entryEvents_eq_flatMap, List.flatMap_append]

namespace TreeBuilder

open Call TreeSink

variable {builder after : TreeBuilder} {place : Place} {around : List Place} {c : Call}
  {calls rest : List Call} {events : List Event} {nodes : List Node}

/-- The places of the open nodes, innermost first. -/
def places (builder : TreeBuilder) : List Place := builder.frames.map Frame.place

/-- The place where the next call is made. -/
def innermost : List Place → Place
  | [] => .row
  | place :: _ => place

theorem isReceptive_iff : builder.IsReceptive ↔ innermost builder.places = .row := by
  obtain ⟨roots, frames⟩ := builder
  cases frames with
  | nil => simp [IsReceptive, places, innermost]
  | cons frame rest => cases frame <;> simp [IsReceptive, places, innermost, Frame.place]

/-! ### Nested calls are taken -/

/-- **What calls do at a place**, whatever is open around it: they put nodes, or entries, of which a
walk shows the events. -/
def Puts : Place → List Call → List Event → Prop
  | .row, calls, events => ∃ nodes, forestEvents nodes = events
      ∧ ∀ builder : TreeBuilder, builder.IsReceptive →
          feed builder calls = { sink := builder.extend nodes }
  | .list, calls, events => ∃ entries, entryEvents entries = events
      ∧ ∀ roots name before around,
          feed (⟨roots, .list name before :: around⟩ : TreeBuilder) calls
            = { sink := ⟨roots, .list name (before ++ entries) :: around⟩ }

theorem puts_nil : Puts place [] [] := by
  cases place with
  | row => exact ⟨[], rfl, fun builder _ => by rw [extend_nil, feed]⟩
  | list => exact ⟨[], rfl, fun _ _ before _ => by rw [List.append_nil, feed]⟩

theorem Puts.append {first second : List Call} {shown others : List Event}
    (h : Puts place first shown) (h' : Puts place second others) :
    Puts place (first ++ second) (shown ++ others) := by
  cases place with
  | row =>
    obtain ⟨nodes, rfl, hnodes⟩ := h
    obtain ⟨more, rfl, hmore⟩ := h'
    refine ⟨nodes ++ more, forestEvents_append nodes more, fun builder hready => ?_⟩
    rw [feed_append (hnodes builder hready), hmore _ (isReceptive_extend hready nodes),
      extend_append]
  | list =>
    obtain ⟨entries, rfl, hentries⟩ := h
    obtain ⟨more, rfl, hmore⟩ := h'
    refine ⟨entries ++ more, entryEvents_append entries more, fun roots name before around => ?_⟩
    rw [feed_append (hentries roots name before around), hmore, List.append_assoc]

/-- One node. -/
theorem puts_node (node : Node) (hevents : node.events = events)
    (h : ∀ builder : TreeBuilder, builder.IsReceptive →
      feed builder calls = { sink := builder.extend [node] }) : Puts .row calls events :=
  ⟨[node], by rw [forestEvents, forestEvents, List.append_nil, hevents], h⟩

theorem puts_container (name : String) (h : Puts .row calls events) :
    Puts .row (.enterContainer name :: calls ++ [.exit .container])
      (.enter name .container :: events ++ [.exit .container]) := by
  obtain ⟨children, rfl, hchildren⟩ := h
  refine puts_node (.container name children) (by rw [Node.events]) fun builder hready => ?_
  have hopened : IsReceptive { builder with frames := .container name [] :: builder.frames } :=
    isReceptive_iff.mpr rfl
  rw [List.cons_append, feed_cons (enterContainer_of_isReceptive hready name),
    feed_append (hchildren _ hopened)]
  exact feed_singleton (attach_of_isReceptive hready (.container name children))

theorem puts_list (name : String) (h : Puts .list calls events) :
    Puts .row (.enterList name :: calls ++ [.exit .list])
      (.enter name .list :: events ++ [.exit .list]) := by
  obtain ⟨entries, rfl, hentries⟩ := h
  refine puts_node (.list name entries) (by rw [Node.events]) fun builder hready => ?_
  rw [List.cons_append, feed_cons (enterList_of_isReceptive hready name),
    feed_append (hentries builder.roots name [] builder.frames)]
  exact feed_singleton (attach_of_isReceptive hready (.list name entries))

/-- The name with which an entry is opened is not kept. -/
theorem puts_entry (name : String) (h : Puts .row calls events) :
    Puts .list (.enterContainer name :: calls ++ [.exit .container])
      (.enter "" .container :: events ++ [.exit .container]) := by
  obtain ⟨entry, rfl, hentry⟩ := h
  refine ⟨[entry], by rw [entryEvents, entryEvents], fun roots list before around => ?_⟩
  have hopened : IsReceptive ⟨roots, .entry [] :: .list list before :: around⟩ :=
    isReceptive_iff.mpr rfl
  rw [List.cons_append, feed_cons rfl, feed_append (hentry _ hopened)]
  exact feed_singleton rfl

/-- **Nested calls are taken**, whatever is open. -/
theorem puts_of_isNested (h : IsNested place calls events) : Puts place calls events := by
  induction h with
  | nil => exact puts_nil
  | append _ _ ih ih' => exact ih.append ih'
  | leaf name value =>
    exact puts_node (.leaf name value) (by rw [Node.events]) fun builder hready =>
      feed_singleton (attach_of_isReceptive hready (.leaf name value))
  | leafList name values =>
    exact puts_node (.leafList name values) (by rw [Node.events]) fun builder hready =>
      feed_singleton (attach_of_isReceptive hready (.leafList name values))
  | container name _ ih => exact puts_container name ih
  | list name _ ih => exact puts_list name ih
  | entry name _ ih => exact puts_entry name ih

/-! ### Calls that are taken are nested -/

/-- **What has to follow** when nodes are open at these places, innermost first. -/
inductive IsClosedBy : List Place → List Call → Prop where
  | nil {calls : List Call} {events : List Event} (h : IsNested .row calls events) :
      IsClosedBy [] calls
  | cons {place : Place} {around : List Place} {calls rest : List Call} {events : List Event}
      (inner : IsNested place calls events) (h : IsClosedBy around rest) :
      IsClosedBy (place :: around) (calls ++ .exit place.closedAs :: rest)

theorem IsClosedBy.append (h : IsClosedBy around rest) (hplace : innermost around = place)
    (hnested : IsNested place calls events) : IsClosedBy around (calls ++ rest) := by
  subst hplace
  cases h with
  | nil h => exact .nil (hnested.append h)
  | cons inner h =>
    rw [← List.append_assoc]
    exact .cons (hnested.append inner) h

/-- A call that opens a node, in front of what closes it. -/
theorem IsClosedBy.opened {outer : Place} {opening : Call} {shown : List Event → List Event}
    (h : IsClosedBy (place :: around) rest) (hplace : innermost around = outer)
    (hitem : ∀ {calls events}, IsNested place calls events →
      IsNested outer (opening :: calls ++ [.exit place.closedAs]) (shown events)) :
    IsClosedBy around (opening :: rest) := by
  cases h with
  | cons inner h =>
    have hclosed := h.append hplace (hitem inner)
    rwa [List.append_assoc, List.singleton_append] at hclosed

/-- A node is only put where siblings are, and opens nothing. -/
theorem places_of_attach {node : Node} (h : builder.attach node = { sink := after }) :
    innermost builder.places = .row ∧ after.places = builder.places := by
  obtain ⟨roots, frames⟩ := builder
  cases frames with
  | nil => cases h; exact ⟨rfl, rfl⟩
  | cons frame rest => cases frame <;> cases h <;> exact ⟨rfl, rfl⟩

/-- Closing leaves the innermost place, if it is closed as what it is. -/
theorem places_of_exit {kind : NodeKind} (h : builder.exit kind = { sink := after }) :
    ∃ place, kind = place.closedAs ∧ builder.places = place :: after.places := by
  obtain ⟨roots, frames⟩ := builder
  cases frames with
  | nil => cases h
  | cons frame rest =>
    cases frame with
    | container name children =>
      cases kind with
      | container => exact ⟨.row, rfl, congrArg _ (places_of_attach h).2.symm⟩
      | _ => cases h
    | list name entries =>
      cases kind with
      | list => exact ⟨.list, rfl, congrArg _ (places_of_attach h).2.symm⟩
      | _ => cases h
    | entry children =>
      cases kind with
      | container =>
        cases rest with
        | nil => cases h
        | cons outer around => cases outer <;> cases h; exact ⟨.row, rfl, rfl⟩
      | _ => cases h

/-- **An accepted call** goes in front of what has to follow it. -/
theorem isClosedBy_cons (h : TreeSink.call builder c = { sink := after })
    (hrest : IsClosedBy after.places rest) : IsClosedBy builder.places (c :: rest) := by
  cases c with
  | enterContainer name =>
    -- In a list this opens an entry, and a container anywhere else.
    obtain ⟨roots, frames⟩ := builder
    rcases frames with _ | ⟨frame, around⟩
    · cases h
      exact hrest.opened rfl (.container name)
    · cases frame with
      | list =>
        cases h
        exact hrest.opened rfl (.entry name)
      | container | entry =>
        cases h
        exact hrest.opened rfl (.container name)
  | enterList name =>
    obtain ⟨roots, frames⟩ := builder
    rcases frames with _ | ⟨frame, around⟩
    · cases h
      exact hrest.opened rfl (.list name)
    · cases frame <;> cases h <;> exact hrest.opened rfl (.list name)
  | addLeaf name value =>
    obtain ⟨hrow, hplaces⟩ := places_of_attach h
    rw [hplaces] at hrest
    exact hrest.append hrow (.leaf name value)
  | addLeafList name values =>
    obtain ⟨hrow, hplaces⟩ := places_of_attach h
    rw [hplaces] at hrest
    exact hrest.append hrow (.leafList name values)
  | exit kind =>
    obtain ⟨place, rfl, hplaces⟩ := places_of_exit h
    rw [hplaces]
    exact .cons .nil hrest

/-! ### Building a forest -/

/-- **The calls build a forest**: all of them are accepted, and then nothing is open. -/
structure Builds (builder : TreeBuilder) (calls : List Call) (nodes : List Node) : Prop where
  accepted : (feed builder calls).fault = none
  finished : (feed builder calls).sink.finish = .ok nodes

theorem builds_of_feed_eq (h : feed builder calls = { sink := after })
    (hfinish : after.finish = .ok nodes) : builder.Builds calls nodes :=
  ⟨by rw [h], by rw [h, hfinish]⟩

theorem Builds.of_cons (h : builder.Builds (c :: rest) nodes) :
    ∃ after, TreeSink.call builder c = { sink := after } ∧ after.Builds rest nodes := by
  obtain ⟨haccepted, hfinished⟩ := h
  rw [feed] at haccepted hfinished
  cases hcall : TreeSink.call builder c with
  | mk after fault =>
    rw [hcall] at haccepted hfinished
    cases fault with
    | none => exact ⟨after, rfl, haccepted, hfinished⟩
    | some fault => cases haccepted

/-- **Calls that build a forest close what is open.** -/
theorem Builds.isClosedBy (h : builder.Builds calls nodes) : IsClosedBy builder.places calls := by
  induction calls generalizing builder with
  | nil =>
    obtain ⟨roots, frames⟩ := builder
    cases frames with
    | nil => exact .nil .nil
    | cons frame rest => cases h.finished
  | cons c rest ih =>
    obtain ⟨after, hcall, hafter⟩ := h.of_cons
    exact isClosedBy_cons hcall (ih hafter)

theorem builds_of_isNested (h : IsNested .row calls events) :
    ∃ nodes, Builds {} calls nodes ∧ forestEvents nodes = events := by
  obtain ⟨nodes, hevents, hfeed⟩ := puts_of_isNested h
  exact ⟨nodes, builds_of_feed_eq (hfeed {} isReceptive_empty) (finish_extend nodes), hevents⟩

/-- **Calls build a forest if and only if they are nested**, and a walk over the forest shows
them. -/
theorem builds_iff_isNested (calls : List Call) :
    ((∃ nodes, Builds {} calls nodes) ↔ ∃ events, IsNested .row calls events)
      ∧ ∀ nodes events, Builds {} calls nodes → IsNested .row calls events →
          (Walk.start nodes).toList = events := by
  refine ⟨⟨fun ⟨nodes, h⟩ => ?_, fun ⟨events, h⟩ => ?_⟩, fun nodes events h hnested => ?_⟩
  · cases h.isClosedBy with
    | nil hnested => exact ⟨_, hnested⟩
  · obtain ⟨nodes, hnodes, -⟩ := builds_of_isNested h
    exact ⟨nodes, hnodes⟩
  · obtain ⟨others, hothers, rfl⟩ := builds_of_isNested hnested
    obtain rfl : nodes = others := Except.ok.inj (h.finished.symm.trans hothers.finished)
    exact Walk.toList_start nodes

/-- The entries of a list, opened with names that are not kept. -/
theorem builds_iff_isNested_entries :
    let calls : List Call :=
      [.enterList "l", .enterContainer "first", .addLeaf "id" "1", .exit .container,
        .enterContainer "second", .exit .container, .exit .list]
    (∃ nodes, Builds {} calls nodes)
      ∧ ∀ nodes, Builds {} calls nodes → (Walk.start nodes).toList
          = [.enter "l" .list, .enter "" .container, .leaf "id" "1", .exit .container,
              .enter "" .container, .exit .container, .exit .list] := by
  intro calls
  have hnested : IsNested .row calls _ :=
    .list "l" (.append (.entry "first" (.leaf "id" "1")) (.entry "second" .nil))
  obtain ⟨hbuilds, hwalk⟩ := builds_iff_isNested calls
  exact ⟨hbuilds.mpr ⟨_, hnested⟩, fun nodes h => hwalk nodes _ h hnested⟩

end TreeBuilder

end Restconf
