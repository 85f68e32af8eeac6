import Restconf.Proofs.Tree.Node

/-!
# Replaying a forest

A walk over a forest shows the events that the recursion defines, and replaying them is the same as
handing over the nodes one after another: the builder attaches each node, the text writer writes
the text of each as a field.

## The invariant

Both receivers are stacks, and the events of a node leave the stack as they found it. What a
receiver has to be like in front of a node differs: the text writer takes anything, while the
builder refuses a node directly under a list. `TreeBuilder.IsReceptive` is this condition. It holds
of a new builder, and inside a container or an entry, which are the only places where a walk shows
a node.

## Main results

* `Walk.toList_start` — a walk shows the events of a forest
* `TreeSink.feed_append_eq` — calls in two portions
* `TreeBuilder.feed_forestEvents`, `TreeBuilder.finish_extend` — building gives the nodes back
* `TextWriter.feed_forestEvents`, `Forest.toText_eq` — writing gives the text of the recursion
-/

namespace Restconf

/-! ### Walking -/

namespace Walk

/-- The events of a step. -/
def stepEvents : WalkStep → List Event
  | .visit node => node.events
  | .entry children => .enter "" .container :: forestEvents children ++ [.exit .container]
  | .exit kind => [.exit kind]

theorem flatMap_stepEvents_visit (nodes : List Node) :
    (nodes.map WalkStep.visit).flatMap stepEvents = forestEvents nodes := by
  rw [forestEvents_eq_flatMap, List.flatMap_map]
  rfl

theorem flatMap_stepEvents_entry (entries : List (List Node)) :
    (entries.map WalkStep.entry).flatMap stepEvents = entryEvents entries := by
  rw [entryEvents_eq_flatMap, List.flatMap_map]
  rfl

/-- One step of a walk takes its event off the events of the stack. -/
theorem flatMap_stepEvents_next {walk after : Walk} {event : Event}
    (h : walk.next? = some (event, after)) :
    walk.stack.flatMap stepEvents = event :: after.stack.flatMap stepEvents := by
  obtain ⟨stack⟩ := walk
  unfold next? at h
  split at h <;> cases h <;>
    simp_all [stepEvents, Node.events, flatMap_stepEvents_visit, flatMap_stepEvents_entry]

/-- The walk from any stack shows the events of its steps in order. -/
theorem toList_eq_flatMap (walk : Walk) : walk.toList = walk.stack.flatMap stepEvents := by
  induction hsize : walk.size using Nat.strongRecOn generalizing walk with
  | _ size ih =>
    cases hnext : walk.next? with
    | none =>
      rw [toList_of_next_eq_none hnext]
      obtain ⟨stack⟩ := walk
      unfold next? at hnext
      split at hnext
      · rename_i hstack
        rw [hstack]
        rfl
      all_goals exact absurd hnext (by simp)
    | some found =>
      obtain ⟨event, after⟩ := found
      have hless := size_next hnext
      rw [toList_of_next_eq_some hnext, flatMap_stepEvents_next hnext,
        ih after.size (by omega) after rfl]

/-- **A walk shows the events of the recursion.** -/
theorem toList_start (nodes : List Node) : (start nodes).toList = forestEvents nodes := by
  rw [toList_eq_flatMap, start, flatMap_stepEvents_visit]

end Walk

/-! ### Calls in portions -/

@[simp]
theorem Event.call_enter_container (name : String) :
    (Event.enter name .container).call = .enterContainer name := rfl

@[simp]
theorem Event.call_enter_list (name : String) :
    (Event.enter name .list).call = .enterList name := rfl

@[simp]
theorem Event.call_exit (kind : NodeKind) : (Event.exit kind).call = .exit kind := rfl

section Portions

variable {σ : Type}

/-- Goes on with the receiver, unless it has refused a call. -/
def Reply.andThen (reply : Reply σ) (next : σ → Reply σ) : Reply σ :=
  match reply.fault with
  | none => next reply.sink
  | some _ => reply

theorem Reply.andThen_of_none {reply : Reply σ} (h : reply.fault = none) (next : σ → Reply σ) :
    reply.andThen next = next reply.sink := by
  rw [andThen, h]

theorem Reply.andThen_of_some {reply : Reply σ} {fault : Fault} (h : reply.fault = some fault)
    (next : σ → Reply σ) : reply.andThen next = reply := by
  rw [andThen, h]

/-- Going on without a call changes nothing. -/
theorem Reply.andThen_done (reply : Reply σ) : (reply.andThen fun sink => { sink }) = reply := by
  obtain ⟨sink, fault⟩ := reply
  cases fault <;> rfl

theorem Reply.andThen_assoc (reply : Reply σ) (next last : σ → Reply σ) :
    (reply.andThen next).andThen last = reply.andThen fun sink => (next sink).andThen last := by
  obtain ⟨sink, fault⟩ := reply
  cases fault <;> rfl

namespace TreeSink

variable [TreeSink σ] {sink after : σ} {first second : List Call}

theorem feed_cons_eq (sink : σ) (c : Call) (rest : List Call) :
    feed sink (c :: rest) = (call sink c).andThen (feed · rest) := by
  rw [feed, Reply.andThen]
  cases (call sink c).fault <;> rfl

/-- **Calls in two portions**: the second is not made if a call of the first is refused. -/
theorem feed_append_eq (sink : σ) (first second : List Call) :
    feed sink (first ++ second) = (feed sink first).andThen (feed · second) := by
  induction first generalizing sink with
  | nil => rfl
  | cons c first ih =>
    rw [List.cons_append, feed_cons_eq, feed_cons_eq, Reply.andThen_assoc]
    exact congrArg _ (funext ih)

theorem feed_append (h : feed sink first = { sink := after }) (second : List Call) :
    feed sink (first ++ second) = feed after second := by
  rw [feed_append_eq, h]
  rfl

/-- What is accepted in one go is accepted in two portions. -/
theorem exists_feed_of_append (h : (feed sink (first ++ second)).fault = none) :
    ∃ between, feed sink first = { sink := between }
      ∧ feed between second = feed sink (first ++ second) := by
  rw [feed_append_eq] at h ⊢
  cases hfirst : feed sink first with
  | mk between fault =>
    rw [hfirst] at h
    cases fault with
    | none => exact ⟨between, rfl, rfl⟩
    | some fault => cases h

theorem feed_cons {c : Call} (h : call sink c = { sink := after }) (rest : List Call) :
    feed sink (c :: rest) = feed after rest := by
  rw [feed_cons_eq, h]
  rfl

theorem feed_singleton {c : Call} (h : call sink c = { sink := after }) :
    feed sink [c] = { sink := after } := by
  rw [feed_cons h, feed]

end TreeSink

end Portions

/-! ### Building -/

namespace TreeBuilder

/-- A node can be put here: what is open innermost, if anything, is no list. -/
def IsReceptive (builder : TreeBuilder) : Prop :=
  ∀ name entries around, builder.frames ≠ .list name entries :: around

/-- The builder with a row of nodes put where it is receptive. -/
def extend (builder : TreeBuilder) (nodes : List Node) : TreeBuilder :=
  match builder.frames with
  | [] => { builder with roots := builder.roots ++ nodes }
  | .container name children :: rest =>
    { builder with frames := .container name (children ++ nodes) :: rest }
  | .entry children :: rest => { builder with frames := .entry (children ++ nodes) :: rest }
  | .list .. :: _ => builder

variable {builder : TreeBuilder}

@[simp]
theorem extend_nil (builder : TreeBuilder) : builder.extend [] = builder := by
  obtain ⟨roots, frames⟩ := builder
  unfold extend
  split <;> simp_all

theorem isReceptive_extend (h : builder.IsReceptive) (nodes : List Node) :
    (builder.extend nodes).IsReceptive := by
  obtain ⟨roots, frames⟩ := builder
  intro name entries around heq
  unfold extend at heq
  split at heq <;> simp_all [IsReceptive]

theorem extend_append (builder : TreeBuilder) (first second : List Node) :
    builder.extend (first ++ second) = (builder.extend first).extend second := by
  obtain ⟨roots, frames⟩ := builder
  cases frames with
  | nil => simp [extend]
  | cons frame rest => cases frame <;> simp [extend]

theorem attach_of_isReceptive (h : builder.IsReceptive) (node : Node) :
    builder.attach node = { sink := builder.extend [node] } := by
  obtain ⟨roots, frames⟩ := builder
  cases frames with
  | nil => rfl
  | cons frame rest =>
    cases frame with
    | container name children => rfl
    | entry children => rfl
    | list name entries => exact absurd rfl (h name entries rest)

theorem enterContainer_of_isReceptive (h : builder.IsReceptive) (name : String) :
    builder.enterContainer name
      = { sink := { builder with frames := .container name [] :: builder.frames } } := by
  unfold enterContainer
  split
  · next hframes => exact absurd hframes (h _ _ _)
  · rfl

theorem enterList_of_isReceptive (h : builder.IsReceptive) (name : String) :
    builder.enterList name
      = { sink := { builder with frames := .list name [] :: builder.frames } } := by
  unfold enterList
  split
  · next hframes => exact absurd hframes (h _ _ _)
  · rfl

/-- The calls of nodes, each of which is put where it belongs, put the row there. -/
theorem feed_forestEvents_of_forall {nodes : List Node}
    (hnodes : ∀ node ∈ nodes, ∀ builder : TreeBuilder, builder.IsReceptive →
      TreeSink.feed builder (node.events.map Event.call) = { sink := builder.extend [node] })
    (h : builder.IsReceptive) :
    TreeSink.feed builder ((forestEvents nodes).map Event.call)
      = { sink := builder.extend nodes } := by
  induction nodes generalizing builder with
  | nil => rw [extend_nil]; rfl
  | cons node nodes ih =>
    obtain ⟨hnode, hrest⟩ := List.forall_mem_cons.mp hnodes
    rw [forestEvents, List.map_append, TreeSink.feed_append (hnode builder h),
      ih hrest (isReceptive_extend h [node]), ← extend_append, List.singleton_append]

/-- Inside a list, the calls of an entry put the entry behind those before it. -/
theorem feed_entryEvents_of_forall {entries : List (List Node)}
    (hentries : ∀ entry ∈ entries, ∀ node ∈ entry, ∀ builder : TreeBuilder, builder.IsReceptive →
      TreeSink.feed builder (node.events.map Event.call) = { sink := builder.extend [node] })
    (roots : List Node) (name : String) (before : List (List Node)) (around : List Frame) :
    TreeSink.feed (⟨roots, .list name before :: around⟩ : TreeBuilder)
        ((entryEvents entries).map Event.call)
      = { sink := ⟨roots, .list name (before ++ entries) :: around⟩ } := by
  induction entries generalizing before with
  | nil => rw [List.append_nil]; rfl
  | cons entry entries ih =>
    obtain ⟨hentry, hrest⟩ := List.forall_mem_cons.mp hentries
    have hopened : IsReceptive ⟨roots, .entry [] :: .list name before :: around⟩ := by
      intro _ _ _ heq
      cases (List.cons.inj heq).1
    have hclosed : TreeSink.call
        (extend ⟨roots, .entry [] :: .list name before :: around⟩ entry) (.exit .container)
          = { sink := ⟨roots, .list name (before ++ [entry]) :: around⟩ } := rfl
    rw [entryEvents, List.cons_append, List.map_cons, List.map_append, List.map_cons,
      TreeSink.feed_cons rfl, TreeSink.feed_append (feed_forestEvents_of_forall hentry hopened),
      Event.call_exit, TreeSink.feed_cons hclosed, ih hrest, List.append_assoc,
      List.singleton_append]

/-- **The calls of a node put the node where the builder stands.** -/
theorem feed_events (node : Node) : ∀ builder : TreeBuilder, builder.IsReceptive →
    TreeSink.feed builder (node.events.map Event.call) = { sink := builder.extend [node] } := by
  induction node using Node.induction with
  | container name children ih =>
    intro builder h
    have hopened : IsReceptive { builder with frames := .container name [] :: builder.frames } := by
      intro _ _ _ heq
      cases (List.cons.inj heq).1
    rw [Node.events, List.cons_append, List.map_cons, List.map_append,
      TreeSink.feed_cons (enterContainer_of_isReceptive h name),
      TreeSink.feed_append (feed_forestEvents_of_forall ih hopened)]
    exact TreeSink.feed_singleton (attach_of_isReceptive h (.container name children))
  | list name entries ih =>
    intro builder h
    obtain ⟨roots, frames⟩ := builder
    rw [Node.events, List.cons_append, List.map_cons, List.map_append,
      TreeSink.feed_cons (enterList_of_isReceptive h name),
      TreeSink.feed_append (feed_entryEvents_of_forall ih roots name [] frames)]
    exact TreeSink.feed_singleton (attach_of_isReceptive h (.list name entries))
  | leaf name value =>
    exact fun builder h => TreeSink.feed_singleton (attach_of_isReceptive h (.leaf name value))
  | leafList name values =>
    exact fun builder h => TreeSink.feed_singleton (attach_of_isReceptive h (.leafList name values))

theorem feed_forestEvents (h : builder.IsReceptive) (nodes : List Node) :
    TreeSink.feed builder ((forestEvents nodes).map Event.call)
      = { sink := builder.extend nodes } :=
  feed_forestEvents_of_forall (fun node _ => feed_events node) h

theorem isReceptive_empty : IsReceptive {} := fun _ _ _ => (List.cons_ne_nil _ _).symm

/-- What is built of nothing and closed is the row. -/
theorem finish_extend (nodes : List Node) : finish (extend {} nodes) = .ok nodes := rfl

end TreeBuilder

/-! ### Writing -/

namespace TextWriter

theorem write_write (writer : TextWriter) (first second : List Char) :
    (writer.write first).write second = writer.write (first ++ second) := by
  simp [write, List.reverseAux_eq]

/-- The comma at the end is never shown. -/
theorem shown_write_comma (text : List Char) :
    (({} : TextWriter).write (text ++ [','])).shown = text := by
  simp [shown, write, List.reverseAux_eq, trimComma]

/-- Texts as the writer leaves them behind an open bracket, each with its comma. -/
def terminated (texts : List (List Char)) : List Char := texts.flatMap (· ++ [','])

theorem terminated_cons (first : List Char) (others : List (List Char)) :
    terminated (first :: others) = Json.commaSeparated (first :: others) ++ [','] := by
  induction others generalizing first with
  | nil => simp [terminated, Json.commaSeparated]
  | cons second others ih =>
    have := ih second
    rw [terminated, Json.commaSeparated] at this ⊢
    rw [List.flatMap_cons, this, List.intercalate_cons_cons]
    simp

/-- The comma at the end is the one too many. -/
theorem trimComma_terminated (texts : List (List Char)) {c : Char} (hc : c ≠ ',')
    (before : List Char) :
    trimComma ((terminated texts).reverseAux (c :: before))
      = (Json.commaSeparated texts).reverseAux (c :: before) := by
  cases texts with
  | nil =>
    show trimComma (c :: before) = c :: before
    unfold trimComma
    split
    · next heq => exact absurd (List.cons.inj heq).1 hc
    · rfl
  | cons first others =>
    rw [terminated_cons, List.reverseAux_eq, List.reverse_append, List.reverseAux_eq]
    rfl

variable {writer : TextWriter}

/-- The writer behind an opening bracket. -/
def opened (writer : TextWriter) (field : String) (nesting : Nesting) : TextWriter :=
  { writer.write (fieldName field ++ [nesting.openBracket]) with
    nested := nesting :: writer.nested }

/-- **Closing finishes the text of the node.** Whatever was written inside, its last comma goes. -/
theorem close_opened (writer : TextWriter) (field : String) (nesting : Nesting)
    (texts : List (List Char)) :
    ((writer.opened field nesting).write (terminated texts)).close nesting.kind
      = { sink := writer.write (fieldName field ++ nesting.openBracket
            :: Json.commaSeparated texts ++ [nesting.closeBracket, ',']) } := by
  have hbracket : nesting.openBracket ≠ ',' := by cases nesting <;> decide
  have hkind : Nesting.ofKind? nesting.kind = some nesting := by cases nesting <;> rfl
  have hwritten : ((writer.opened field nesting).write (terminated texts)).written
      = (terminated texts).reverseAux
          (nesting.openBracket :: (fieldName field).reverseAux writer.written) := by
    simp [opened, write, List.reverseAux_eq]
  have hnested : ((writer.opened field nesting).write (terminated texts)).nested
      = nesting :: writer.nested := rfl
  rw [close, hkind]
  simp only [hnested, if_true, hwritten, trimComma_terminated texts hbracket]
  simp [write, List.reverseAux_eq]

/-- The calls of nodes, each of which is written as a field, write the row. -/
theorem feed_forestEvents_of_forall {nodes : List Node}
    (hnodes : ∀ node ∈ nodes, ∀ writer : TextWriter,
      TreeSink.feed writer (node.events.map Event.call)
        = { sink := writer.write (Forest.fieldText node ++ [',']) }) (writer : TextWriter) :
    TreeSink.feed writer ((forestEvents nodes).map Event.call)
      = { sink := writer.write (terminated (Forest.fieldTexts nodes)) } := by
  induction nodes generalizing writer with
  | nil => rfl
  | cons node nodes ih =>
    obtain ⟨hnode, hrest⟩ := List.forall_mem_cons.mp hnodes
    rw [forestEvents, List.map_append, TreeSink.feed_append (hnode writer), ih hrest, write_write]
    rfl

theorem feed_entryEvents_of_forall {entries : List (List Node)}
    (hentries : ∀ entry ∈ entries, ∀ node ∈ entry, ∀ writer : TextWriter,
      TreeSink.feed writer (node.events.map Event.call)
        = { sink := writer.write (Forest.fieldText node ++ [',']) }) (writer : TextWriter) :
    TreeSink.feed writer ((entryEvents entries).map Event.call)
      = { sink := writer.write (terminated (Forest.entryTexts entries)) } := by
  induction entries generalizing writer with
  | nil => rfl
  | cons entry entries ih =>
    obtain ⟨hentry, hrest⟩ := List.forall_mem_cons.mp hentries
    have hopened : TreeSink.call writer (.enterContainer "")
        = { sink := writer.opened "" .container } := rfl
    rw [entryEvents, List.cons_append, List.map_cons, List.map_append, List.map_cons,
      Event.call_enter_container, Event.call_exit, TreeSink.feed_cons hopened,
      TreeSink.feed_append (feed_forestEvents_of_forall hentry _),
      TreeSink.feed_cons (close_opened writer "" .container (Forest.fieldTexts entry)),
      ih hrest, write_write]
    simp [terminated, Forest.entryTexts, Forest.braced, fieldName, Nesting.openBracket,
      Nesting.closeBracket]

/-- **The calls of a node write it as a field.** -/
theorem feed_events (node : Node) : ∀ writer : TextWriter,
    TreeSink.feed writer (node.events.map Event.call)
      = { sink := writer.write (Forest.fieldText node ++ [',']) } := by
  induction node using Node.induction with
  | container name children ih =>
    intro writer
    have hopened : TreeSink.call writer (.enterContainer name)
        = { sink := writer.opened name .container } := rfl
    rw [Node.events, List.cons_append, List.map_cons, List.map_append,
      Event.call_enter_container, TreeSink.feed_cons hopened,
      TreeSink.feed_append (feed_forestEvents_of_forall ih _)]
    refine (TreeSink.feed_singleton
      (close_opened writer name .container (Forest.fieldTexts children))).trans ?_
    simp [Forest.fieldText, Forest.braced, Nesting.openBracket, Nesting.closeBracket]
  | list name entries ih =>
    intro writer
    have hopened : TreeSink.call writer (.enterList name)
        = { sink := writer.opened name .list } := rfl
    rw [Node.events, List.cons_append, List.map_cons, List.map_append,
      Event.call_enter_list, TreeSink.feed_cons hopened,
      TreeSink.feed_append (feed_entryEvents_of_forall ih _)]
    refine (TreeSink.feed_singleton
      (close_opened writer name .list (Forest.entryTexts entries))).trans ?_
    simp [Forest.fieldText, Forest.bracketed, Nesting.openBracket, Nesting.closeBracket]
  | leaf name value =>
    exact fun writer => TreeSink.feed_singleton rfl
  | leafList name values =>
    intro writer
    refine (TreeSink.feed_singleton rfl).trans ?_
    simp [leafSet, Forest.fieldText, Forest.bracketed]

theorem feed_forestEvents (writer : TextWriter) (nodes : List Node) :
    TreeSink.feed writer ((forestEvents nodes).map Event.call)
      = { sink := writer.write (terminated (Forest.fieldTexts nodes)) } :=
  feed_forestEvents_of_forall (fun node _ => feed_events node) writer

end TextWriter

/-! ### Whole forests -/

namespace Forest

/-- What the writer holds after a whole forest: its text, and a comma that is never shown. -/
theorem write_eq (nodes : List Node) :
    write nodes = .ok (({} : TextWriter).write (reference nodes ++ [','])) := by
  have hopened : ({} : TextWriter).openNode "" .container
      = { sink := TextWriter.opened {} "" .container } := rfl
  have hfilled : TreeSink.replay (TextWriter.opened {} "" .container) (Walk.start nodes).toList
      = { sink := (TextWriter.opened {} "" .container).write
            (TextWriter.terminated (fieldTexts nodes)) } := by
    rw [TreeSink.replay, Walk.toList_start, TextWriter.feed_forestEvents]
  have hclosed := TextWriter.close_opened {} "" .container (fieldTexts nodes)
  rw [Nesting.kind] at hclosed
  rw [write, hopened]
  simp only [hfilled, hclosed]
  simp [Reply.result, reference, braced, TextWriter.fieldName, Nesting.openBracket,
    Nesting.closeBracket]
  rfl

/-- **The text of a forest is the one that the recursion defines.** -/
theorem toText_eq (nodes : List Node) : toText nodes = .ok (.ofList (reference nodes)) := by
  rw [toText, write_eq]
  show Except.ok (String.ofList _) = _
  rw [TextWriter.shown_write_comma]

end Forest

end Restconf
