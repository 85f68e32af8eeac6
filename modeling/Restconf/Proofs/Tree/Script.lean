import Mathlib.Data.List.Forall2
import Restconf.Proofs.Json.Merge
import Restconf.Proofs.Tree.Replay

/-!
# The tree of a document by recursion

A document is turned into a tree by calls on a builder. The same tree, and the same fault if there
is none, come out of a recursion on the document that knows nothing of calls. From here on the
tree of a document is what that recursion says.

## Why the fault at the end is reached

The calls of a document that has to be refused stop in front of the fault, and the builder has to
accept all of them, since a refused call would hide the fault. So `Script.Yields` speaks of both
outcomes: the calls are those of the events, or they are accepted and the fault follows. Where the
next part starts the builder must be ready for it again, which is what the `Replay` lemmas give.

## Main definitions

* `Json.nodeOf`, `Json.nodesOf`, `Json.entriesOf` — nodes by recursion on a value
* `Json.IsNodeOf` — which node a value is, case by case

## Main results

* `Json.toTree_eq` — the tree of a document is that of the recursion
* `Json.nodeOf_eq_ok_iff`, `Json.nodesOf_eq_ok_iff`, `Json.entriesOf_eq_ok_iff` — when there is one
-/

namespace Restconf

namespace Json

/-! ### The recursion -/

mutual

/-- The node of a field. -/
def nodeOf (name : String) (value : Json) : Except Fault Node :=
  if name.isEmpty then .error unnamedField
  else
    match value with
    | object fields => (nodesOf fields).map (.container name)
    | array items =>
      match memberTexts? items with
      | some members => .ok (.leafList name (.ofList members))
      | none => (entriesOf name items).map (.list name)
    | string text => .ok (.leaf name text)
    | number n => .ok (.leaf name (.ofList n.text))
    | bool b => .ok (.leaf name (boolText b))
    | null => .error (unsupported name null)

/-- The nodes of fields. -/
def nodesOf : List (String × Json) → Except Fault (List Node)
  | [] => .ok []
  | (name, value) :: rest => do
    let node ← nodeOf name value
    let nodes ← nodesOf rest
    return node :: nodes

/-- The entries of a list. -/
def entriesOf (name : String) : List Json → Except Fault (List (List Node))
  | [] => .ok []
  | item :: rest =>
    match item with
    | object fields => do
      let entry ← nodesOf fields
      let entries ← entriesOf name rest
      return entry :: entries
    | other => .error (unsupported name other)

end

/-- The top-level nodes of a document. -/
def treeOf : Json → Except Fault (List Node)
  | object fields => nodesOf fields
  | other => .error (unsupported "" other)

end Json

/-! ### Scripts against the recursion -/

namespace Script

/-- What a script does to a builder that is ready for it, beside a reading of the same value: it
makes the calls of what is read, or the builder accepts its calls and the fault follows. -/
def Yields {α : Type} (script : Script) (ready : TreeBuilder → Prop) (events : α → List Event) :
    Except Fault α → Prop
  | .ok a => script = ⟨(events a).map Event.call, none⟩
  | .error fault => script.fault = some fault
      ∧ ∀ builder, ready builder → (TreeSink.feed builder script.calls).fault = none

section Yields

variable {α β γ : Type} {ready next : TreeBuilder → Prop} {events : α → List Event}
  {eventsOfRest : β → List Event} {eventsOfBoth : γ → List Event} {outcome : Except Fault α}
  {rest : Except Fault β}

theorem yields_stop (fault : Fault) : (stop fault).Yields ready events (.error fault) :=
  ⟨rfl, fun _ _ => rfl⟩

/-- A script between an opening and a closing call. The builder has to accept the opening call, and
to be ready for what stands inside. -/
theorem Yields.bracketed {script : Script} (opening : Event) {kind : NodeKind} {f : α → β}
    (hevents : ∀ a, eventsOfRest (f a) = opening :: events a ++ [.exit kind])
    (hcall : ∀ builder, ready builder →
      ∃ after, TreeSink.call builder opening.call = { sink := after } ∧ next after)
    (h : script.Yields next events outcome) :
    (((single opening.call).andThen script).andThen (single (.exit kind))).Yields ready
      eventsOfRest (outcome.map f) := by
  cases outcome with
  | ok a =>
    obtain rfl : script = ⟨(events a).map Event.call, none⟩ := h
    show _ = Script.mk ((eventsOfRest (f a)).map Event.call) none
    rw [hevents]
    simp [andThen, single]
  | error fault =>
    obtain ⟨calls, last⟩ := script
    obtain ⟨rfl, haccepted⟩ := h
    refine ⟨rfl, fun builder hready => ?_⟩
    obtain ⟨after, hafter, hnext⟩ := hcall builder hready
    show (TreeSink.feed builder (opening.call :: calls)).fault = none
    rw [TreeSink.feed_cons hafter]
    exact haccepted after hnext

/-- One script after another. What the first one puts has to leave the builder ready for the
second. -/
theorem Yields.andThen {first second : Script} {f : α → β → γ}
    (hevents : ∀ a b, eventsOfBoth (f a b) = events a ++ eventsOfRest b)
    (hfeed : ∀ a builder, ready builder →
      ∃ after, TreeSink.feed builder ((events a).map Event.call) = { sink := after } ∧ next after)
    (hfirst : first.Yields ready events outcome) (hsecond : second.Yields next eventsOfRest rest) :
    (first.andThen second).Yields ready eventsOfBoth (do return f (← outcome) (← rest)) := by
  cases outcome with
  | error fault =>
    have hstop : first.andThen second = first := by rw [Script.andThen, hfirst.1]
    rw [hstop]
    exact hfirst
  | ok a =>
    obtain rfl : first = ⟨(events a).map Event.call, none⟩ := hfirst
    cases rest with
    | ok b =>
      obtain rfl : second = ⟨(eventsOfRest b).map Event.call, none⟩ := hsecond
      show _ = Script.mk ((eventsOfBoth (f a b)).map Event.call) none
      rw [hevents, List.map_append]
      rfl
    | error fault =>
      refine ⟨hsecond.1, fun builder hready => ?_⟩
      obtain ⟨after, hafter, hnext⟩ := hfeed a builder hready
      show (TreeSink.feed builder ((events a).map Event.call ++ second.calls)).fault = none
      rw [TreeSink.feed_append hafter]
      exact hsecond.2 after hnext

end Yields

end Script

namespace TreeBuilder

/-- A list is open innermost, so that an entry can be opened. -/
def IsInList (builder : TreeBuilder) : Prop :=
  ∃ name entries around, builder.frames = .list name entries :: around

/-- What is opened where a node can be put is ready for children. -/
theorem call_enter_container {builder : TreeBuilder} (h : builder.IsReceptive) (name : String) :
    ∃ after, TreeSink.call builder (Event.enter name .container).call = { sink := after }
      ∧ after.IsReceptive := by
  refine ⟨_, enterContainer_of_isReceptive h name, fun _ _ _ heq => ?_⟩
  cases (List.cons.inj heq).1

theorem call_enter_list {builder : TreeBuilder} (h : builder.IsReceptive) (name : String) :
    ∃ after, TreeSink.call builder (Event.enter name .list).call = { sink := after }
      ∧ after.IsInList :=
  ⟨_, enterList_of_isReceptive h name, name, [], builder.frames, rfl⟩

/-- What is opened inside a list is an entry. -/
theorem call_enter_entry {builder : TreeBuilder} (h : builder.IsInList) :
    ∃ after, TreeSink.call builder (Event.enter "" .container).call = { sink := after }
      ∧ after.IsReceptive := by
  obtain ⟨roots, frames⟩ := builder
  obtain ⟨name, entries, around, rfl⟩ := h
  refine ⟨_, rfl, fun _ _ _ heq => ?_⟩
  cases (List.cons.inj heq).1

/-- Behind a node the builder is ready for the next one. -/
theorem feed_node {builder : TreeBuilder} (h : builder.IsReceptive) (node : Node) :
    ∃ after, TreeSink.feed builder (node.events.map Event.call) = { sink := after }
      ∧ after.IsReceptive :=
  ⟨_, feed_events node builder h, isReceptive_extend h [node]⟩

/-- Behind a whole entry the list is open again. -/
theorem feed_entry {builder : TreeBuilder} (h : builder.IsInList) (entry : List Node) :
    ∃ after, TreeSink.feed builder ((entryEvents [entry]).map Event.call) = { sink := after }
      ∧ after.IsInList := by
  obtain ⟨roots, frames⟩ := builder
  obtain ⟨name, entries, around, rfl⟩ := h
  exact ⟨_, feed_entryEvents_of_forall (fun _ _ node _ => feed_events node) roots name entries
    around, name, entries ++ [entry], around, rfl⟩

end TreeBuilder

namespace Json

open Script TreeBuilder

/-- What holds of every value: as a field its calls put its node, and as an object the calls of its
fields put a row. The second is for the entries of a list, which have no names. -/
structure IsScripted (value : Json) : Prop where
  node : ∀ name, (nodeScript name value).Yields IsReceptive Node.events (nodeOf name value)
  row : ∀ fields, value = object fields →
    (fieldsScript fields).Yields IsReceptive forestEvents (nodesOf fields)

theorem yields_fieldsScript {fields : List (String × Json)}
    (h : ∀ field ∈ fields, IsScripted field.2) :
    (fieldsScript fields).Yields IsReceptive forestEvents (nodesOf fields) := by
  induction fields with
  | nil => rfl
  | cons field fields ih =>
    obtain ⟨name, value⟩ := field
    obtain ⟨hfield, hfields⟩ := List.forall_mem_cons.mp h
    rw [fieldsScript, nodesOf]
    exact (hfield.node name).andThen (fun _ _ => rfl)
      (fun node _ hready => feed_node hready node) (ih hfields)

theorem yields_entriesScript (name : String) {items : List Json}
    (h : ∀ item ∈ items, IsScripted item) :
    (entriesScript name items).Yields IsInList entryEvents (entriesOf name items) := by
  induction items with
  | nil => rfl
  | cons item items ih =>
    obtain ⟨hitem, hitems⟩ := List.forall_mem_cons.mp h
    cases item with
    | object fields =>
      have hentry : (((single (Event.enter "" .container).call).andThen
          (fieldsScript fields)).andThen (single (.exit .container))).Yields IsInList
            (fun entry => entryEvents [entry]) ((nodesOf fields).map id) :=
        (hitem.row fields rfl).bracketed _ (fun _ => rfl) fun _ => call_enter_entry
      have hid : (nodesOf fields).map id = nodesOf fields := by cases nodesOf fields <;> rfl
      rw [hid] at hentry
      rw [entriesScript, entriesOf]
      refine hentry.andThen (fun entry entries => ?_)
        (fun entry _ hready => feed_entry hready entry) (ih hitems)
      rw [entryEvents_eq_flatMap, entryEvents_eq_flatMap, List.flatMap_cons, List.flatMap_singleton,
        entryEvents_eq_flatMap]
    | _ => exact yields_stop _

/-- **The calls of a field** are those of its node, or the builder accepts them up to the fault. -/
theorem isScripted (value : Json) : IsScripted value := by
  induction value using induction with
  | object fields ih =>
    refine ⟨fun name => ?_, fun _ heq => object.inj heq ▸ yields_fieldsScript ih⟩
    rw [nodeScript.eq_def, nodeOf.eq_def]
    split
    · exact yields_stop _
    · exact (yields_fieldsScript ih).bracketed (.enter name .container) (fun _ => rfl)
        fun _ hready => call_enter_container hready name
  | array items ih =>
    refine ⟨fun name => ?_, fun _ heq => by cases heq⟩
    rw [nodeScript.eq_def, nodeOf.eq_def]
    split
    · exact yields_stop _
    · show Yields (match memberTexts? items with | some _ => _ | none => _) _ _
        (match memberTexts? items with | some _ => _ | none => _)
      cases memberTexts? items with
      | some members => rfl
      | none =>
        exact (yields_entriesScript name ih).bracketed (.enter name .list) (fun _ => rfl)
          fun _ hready => call_enter_list hready name
  | _ =>
    refine ⟨fun name => ?_, fun _ heq => by cases heq⟩
    rw [nodeScript.eq_def, nodeOf.eq_def]
    split
    · exact yields_stop _
    · first | rfl | exact yields_stop _

/-- **The tree of a document is that of the recursion**, and so is the fault if there is none. -/
theorem toTree_eq (document : Json) : document.toTree = treeOf document := by
  cases document with
  | object fields =>
    have h := (isScripted (object fields)).row fields rfl
    rw [toTree, build, script, treeOf]
    cases hnodes : nodesOf fields with
    | ok nodes =>
      rw [hnodes] at h
      have hscript : fieldsScript fields = ⟨(forestEvents nodes).map Event.call, none⟩ := h
      rw [hscript, Script.run, feed_forestEvents isReceptive_empty]
      exact finish_extend nodes
    | error fault =>
      rw [hnodes] at h
      obtain ⟨hfault, haccepted⟩ := h
      have hfed := haccepted {} isReceptive_empty
      rw [Script.run]
      simp only [hfed, hfault]
      rfl
  | _ => rfl

/-! ### What a value is -/

/-- Which node a value is under a name. -/
inductive IsNodeOf (name : String) : Json → Node → Prop where
  | container {fields : List (String × Json)} {children : List Node}
    (row : nodesOf fields = .ok children) :
    IsNodeOf name (.object fields) (.container name children)
  | leafList {items : List Json} {members : List String}
    (texts : memberTexts? items = some members) :
    IsNodeOf name (.array items) (.leafList name (.ofList members))
  | list {items : List Json} {rows : List (List Node)} (mixed : memberTexts? items = none)
    (entries : entriesOf name items = .ok rows) : IsNodeOf name (.array items) (.list name rows)
  | string (text : String) : IsNodeOf name (.string text) (.leaf name text)
  | number (n : Number) : IsNodeOf name (.number n) (.leaf name (.ofList n.text))
  | bool (b : Bool) : IsNodeOf name (.bool b) (.leaf name (boolText b))

theorem IsNodeOf.name_eq {name : String} {value : Json} {node : Node}
    (h : IsNodeOf name value node) : node.name = name := by
  cases h <;> rfl

theorem except_map_eq_ok_iff {α β : Type} {f : α → β} {outcome : Except Fault α} {b : β} :
    outcome.map f = .ok b ↔ ∃ a, outcome = .ok a ∧ f a = b := by
  cases outcome with
  | error fault =>
    constructor
    · intro h
      cases h
    · rintro ⟨_, h, _⟩
      cases h
  | ok a =>
    constructor
    · exact fun h => ⟨a, rfl, Except.ok.inj h⟩
    · rintro ⟨_, ha, rfl⟩
      rw [Except.ok.inj ha]
      rfl

theorem nodeOf_eq_ok_iff {name : String} {value : Json} {node : Node} :
    nodeOf name value = .ok node ↔ name ≠ "" ∧ IsNodeOf name value node := by
  rw [nodeOf.eq_def]
  by_cases hname : name = ""
  · rw [if_pos (by simpa using hname)]
    refine ⟨fun h => ?_, fun h => absurd hname h.1⟩
    cases h
  rw [if_neg (by simpa using hname), and_iff_right hname]
  constructor
  · intro h
    cases value with
    | object fields =>
      obtain ⟨children, hrow, rfl⟩ := except_map_eq_ok_iff.mp h
      exact .container hrow
    | array items =>
      cases hmembers : memberTexts? items with
      | some members =>
        simp only [hmembers] at h
        exact Except.ok.inj h ▸ .leafList hmembers
      | none =>
        simp only [hmembers] at h
        obtain ⟨rows, hentries, rfl⟩ := except_map_eq_ok_iff.mp h
        exact .list hmembers hentries
    | string text => exact Except.ok.inj h ▸ .string text
    | number n => exact Except.ok.inj h ▸ .number n
    | bool b => exact Except.ok.inj h ▸ .bool b
    | null => cases h
  · intro h
    cases h with
    | container hrow => exact except_map_eq_ok_iff.mpr ⟨_, hrow, rfl⟩
    | leafList htexts => simp only [htexts]
    | list hmixed hentries =>
      simp only [hmixed]
      exact except_map_eq_ok_iff.mpr ⟨_, hentries, rfl⟩
    | string text => rfl
    | number n => rfl
    | bool b => rfl

theorem nodesOf_eq_ok_iff {fields : List (String × Json)} {nodes : List Node} :
    nodesOf fields = .ok nodes
      ↔ List.Forall₂ (fun field node => field.1 ≠ "" ∧ IsNodeOf field.1 field.2 node)
          fields nodes := by
  induction fields generalizing nodes with
  | nil =>
    rw [nodesOf, List.forall₂_nil_left_iff]
    exact ⟨fun h => (Except.ok.inj h).symm, fun h => h ▸ rfl⟩
  | cons field fields ih =>
    obtain ⟨name, value⟩ := field
    rw [nodesOf, List.forall₂_cons_left_iff]
    constructor
    · intro h
      cases hnode : nodeOf name value with
      | error fault => rw [hnode] at h; cases h
      | ok node =>
        cases hnodes : nodesOf fields with
        | error fault => rw [hnode, hnodes] at h; cases h
        | ok rest =>
          rw [hnode, hnodes] at h
          obtain rfl : node :: rest = nodes := Except.ok.inj h
          exact ⟨node, rest, nodeOf_eq_ok_iff.mp hnode, ih.mp hnodes, rfl⟩
    · rintro ⟨node, rest, hnode, hrest, rfl⟩
      rw [nodeOf_eq_ok_iff.mpr hnode, ih.mpr hrest]
      rfl

theorem entriesOf_eq_ok_iff {name : String} {items : List Json} {rows : List (List Node)} :
    entriesOf name items = .ok rows
      ↔ List.Forall₂ (fun item row => ∃ fields, item = object fields ∧ nodesOf fields = .ok row)
          items rows := by
  induction items generalizing rows with
  | nil =>
    rw [entriesOf, List.forall₂_nil_left_iff]
    exact ⟨fun h => (Except.ok.inj h).symm, fun h => h ▸ rfl⟩
  | cons item items ih =>
    rw [List.forall₂_cons_left_iff]
    constructor
    · intro h
      cases item with
      | object fields =>
        rw [entriesOf] at h
        cases hrow : nodesOf fields with
        | error fault => rw [hrow] at h; cases h
        | ok row =>
          cases hrows : entriesOf name items with
          | error fault => rw [hrow, hrows] at h; cases h
          | ok rest =>
            rw [hrow, hrows] at h
            obtain rfl : row :: rest = rows := Except.ok.inj h
            exact ⟨row, rest, ⟨fields, rfl, hrow⟩, ih.mp hrows, rfl⟩
      | _ => cases h
    · rintro ⟨row, rest, ⟨fields, rfl, hrow⟩, hrest, rfl⟩
      rw [entriesOf, hrow, ih.mpr hrest]
      rfl

end Json

end Restconf
