import Restconf.Proofs.Tree.Script

/-!
# Streaming a document

A document that is a tree can be written into a receiver in two ways. It is turned into its tree,
and a walk over the tree is replayed; or the calls are made while the document is read, and no tree
is ever held. For every receiver the two make the same calls, stop at the same one if the receiver
refuses it, and leave the same receiver behind.

## What is compared

`Json.build` first puts the calls of a document together in a script and then performs the script,
so it says little about where a refused call is met. `Json.stream` is the recursion that holds the
receiver and makes each call at the place of the document that it belongs to; after a refused call
it goes back up and makes no other. That the two are the same is a law about scripts: one script
performed after another is both of them performed together, also if the first one stops.

The receiver is any state with any rule for what it refuses, so nothing can be known of the calls
from what it becomes. `Traced` puts a list beside it that takes every call made, the refused one
included.

## Main definitions

* `Json.stream` — the calls of a document, made while it is read
* `Traced`, `TreeSink.made` — the calls that are made on a receiver
* `Json.streamText` — the text of a document, written while it is read

## Main results

* `Script.run_andThen` — scripts one after another
* `Json.build_eq_stream` — a script performed is the document streamed
* `Json.streams` — the headline
-/

namespace Restconf

/-! ### Scripts one after another -/

namespace Script

variable {σ : Type} [TreeSink σ]

/-- The fault of a script comes behind its calls. -/
theorem run_eq (script : Script) (sink : σ) :
    script.run sink
      = (TreeSink.feed sink script.calls).andThen fun after => ⟨after, script.fault⟩ := by
  rw [run, Reply.andThen]
  cases (TreeSink.feed sink script.calls).fault <;> rfl

/-- A script that does not stop only makes its calls. -/
theorem run_calls (calls : List Call) (sink : σ) :
    Script.run ⟨calls, none⟩ sink = TreeSink.feed sink calls := by
  rw [run_eq]
  exact Reply.andThen_done _

theorem run_single (c : Call) (sink : σ) : (single c).run sink = TreeSink.call sink c := by
  rw [single, run_calls, TreeSink.feed_cons_eq]
  exact Reply.andThen_done _

/-- **One script after another**, whichever of the two stops, and wherever the receiver does. -/
theorem run_andThen (first second : Script) (sink : σ) :
    (first.andThen second).run sink = (first.run sink).andThen second.run := by
  obtain ⟨calls, last⟩ := first
  cases last with
  | some fault =>
    show run ⟨calls, some fault⟩ sink = _
    rw [run_eq, Reply.andThen_assoc]
    rfl
  | none =>
    show run ⟨calls ++ second.calls, second.fault⟩ sink = _
    rw [run_eq, run_calls, TreeSink.feed_append_eq, Reply.andThen_assoc]
    exact congrArg _ (funext fun after => (run_eq second after).symm)

end Script

/-! ### A document while it is read -/

namespace Json

section Stream

variable {σ : Type} [TreeSink σ]

open TreeSink

mutual

/-- Makes the calls of a field. -/
def streamField (name : String) (value : Json) (sink : σ) : Reply σ :=
  if name.isEmpty then ⟨sink, some unnamedField⟩
  else
    match value with
    | object fields =>
      ((call sink (.enterContainer name)).andThen (streamFields fields)).andThen
        (call · (.exit .container))
    | array items =>
      match memberTexts? items with
      | some members => call sink (.addLeafList name (.ofList members))
      | none =>
        ((call sink (.enterList name)).andThen (streamEntries name items)).andThen
          (call · (.exit .list))
    | string text => call sink (.addLeaf name text)
    | number n => call sink (.addLeaf name (.ofList n.text))
    | bool b => call sink (.addLeaf name (boolText b))
    | null => ⟨sink, some (unsupported name null)⟩

/-- Makes the calls of fields in their order. -/
def streamFields : List (String × Json) → σ → Reply σ
  | [], sink => { sink }
  | (name, value) :: rest, sink => (streamField name value sink).andThen (streamFields rest)

/-- Makes the calls of the entries of a list in their order. -/
def streamEntries (name : String) : List Json → σ → Reply σ
  | [], sink => { sink }
  | item :: rest, sink =>
    match item with
    | object fields =>
      (((call sink (.enterContainer "")).andThen (streamFields fields)).andThen
        (call · (.exit .container))).andThen (streamEntries name rest)
    | other => ⟨sink, some (unsupported name other)⟩

end

/-- **Makes the calls of a document while it is read.** -/
def stream (document : Json) (sink : σ) : Reply σ :=
  match document with
  | object fields => streamFields fields sink
  | other => ⟨sink, some (unsupported "" other)⟩

end Stream

/-! ### Scripts are streamed -/

open Script

/-- What holds of every value: as a field its script is performed by streaming it, and as an object
so is the script of its fields. The second is for the entries of a list, which have no names. -/
structure IsStreamed (σ : Type) [TreeSink σ] (value : Json) : Prop where
  field : ∀ name (sink : σ), (nodeScript name value).run sink = streamField name value sink
  row : ∀ fields, value = object fields →
    ∀ sink : σ, (fieldsScript fields).run sink = streamFields fields sink

variable {σ : Type} [TreeSink σ]

theorem run_fieldsScript {fields : List (String × Json)}
    (h : ∀ field ∈ fields, IsStreamed σ field.2) (sink : σ) :
    (fieldsScript fields).run sink = streamFields fields sink := by
  induction fields generalizing sink with
  | nil => rfl
  | cons field fields ih =>
    obtain ⟨name, value⟩ := field
    obtain ⟨hfield, hfields⟩ := List.forall_mem_cons.mp h
    rw [fieldsScript, streamFields, run_andThen, hfield.field name sink]
    exact congrArg _ (funext (ih hfields))

/-- A script between two calls. -/
theorem run_bracketed (opening closing : Call) (script : Script) (sink : σ) :
    (((single opening).andThen script).andThen (single closing)).run sink
      = ((TreeSink.call sink opening).andThen script.run).andThen
          (TreeSink.call · closing) := by
  rw [run_andThen, run_andThen, run_single]
  exact congrArg _ (funext (run_single closing))

theorem run_entriesScript (name : String) {items : List Json}
    (h : ∀ item ∈ items, IsStreamed σ item) (sink : σ) :
    (entriesScript name items).run sink = streamEntries name items sink := by
  induction items generalizing sink with
  | nil => rfl
  | cons item items ih =>
    obtain ⟨hitem, hitems⟩ := List.forall_mem_cons.mp h
    cases item with
    | object fields =>
      rw [entriesScript, streamEntries, run_andThen, run_bracketed,
        funext (hitem.row fields rfl), funext (ih hitems)]
    | _ => rfl

theorem isStreamed (value : Json) : IsStreamed σ value := by
  induction value using induction with
  | object fields ih =>
    refine ⟨fun name sink => ?_, fun _ heq => object.inj heq ▸ run_fieldsScript ih⟩
    rw [nodeScript.eq_def, streamField.eq_def]
    split
    · rfl
    · exact (run_bracketed _ _ _ sink).trans (by rw [funext (run_fieldsScript ih)])
  | array items ih =>
    refine ⟨fun name sink => ?_, fun _ heq => by cases heq⟩
    rw [nodeScript.eq_def, streamField.eq_def]
    split
    · rfl
    · show Script.run (match memberTexts? items with | some _ => _ | none => _) sink
        = (match memberTexts? items with | some _ => _ | none => _)
      cases memberTexts? items with
      | some members => exact run_single _ sink
      | none => exact (run_bracketed _ _ _ sink).trans (by rw [funext (run_entriesScript name ih)])
  | null =>
    refine ⟨fun name sink => ?_, fun _ heq => by cases heq⟩
    rw [nodeScript.eq_def, streamField.eq_def]
    split <;> rfl
  | _ =>
    refine ⟨fun name sink => ?_, fun _ heq => by cases heq⟩
    rw [nodeScript.eq_def, streamField.eq_def]
    split
    · rfl
    · exact run_single _ sink

/-- **Building a document is streaming it.** -/
theorem build_eq_stream (document : Json) (sink : σ) :
    document.build sink = document.stream sink := by
  cases document with
  | object fields => exact (isStreamed (object fields)).row fields rfl sink
  | _ => rfl

/-- The script of a document that is a tree makes the calls of a walk over the tree, and does not
stop. -/
theorem script_of_toTree {document : Json} {nodes : List Node} (h : document.toTree = .ok nodes) :
    document.script = ⟨(Walk.start nodes).toList.map Event.call, none⟩ := by
  rw [toTree_eq] at h
  cases document with
  | object fields =>
    have hscript := (isScripted (object fields)).row fields rfl
    rw [treeOf] at h
    rw [h] at hscript
    rw [Walk.toList_start]
    exact hscript
  | _ => cases h

theorem build_of_toTree {document : Json} {nodes : List Node} (h : document.toTree = .ok nodes)
    (sink : σ) : document.build sink = TreeSink.replay sink (Walk.start nodes).toList := by
  rw [build, script_of_toTree h, run_calls, TreeSink.replay]

end Json

/-! ### The calls that are made -/

/-- A receiver beside every call that was made on it, also if it was refused. -/
structure Traced (σ : Type) where
  sink : σ
  made : List Call := []

namespace TreeSink

variable {σ : Type} [TreeSink σ]

instance : TreeSink (Traced σ) where
  call traced c :=
    let reply := call traced.sink c
    { sink := ⟨reply.sink, traced.made ++ [c]⟩, fault := reply.fault }

/-- The calls that are made when they are made in order up to the first that is refused: that one is
the last. -/
def made (sink : σ) : List Call → List Call
  | [] => []
  | c :: rest => c :: if (call sink c).fault.isSome then [] else made (call sink c).sink rest

/-- **Tracing changes nothing**, and keeps the calls that are made. -/
theorem feed_traced (sink : σ) (before calls : List Call) :
    feed (⟨sink, before⟩ : Traced σ) calls
      = { sink := ⟨(feed sink calls).sink, before ++ made sink calls⟩
          fault := (feed sink calls).fault } := by
  induction calls generalizing sink before with
  | nil => simp [feed, made]
  | cons c rest ih =>
    have hcall : call (⟨sink, before⟩ : Traced σ) c
        = { sink := ⟨(call sink c).sink, before ++ [c]⟩, fault := (call sink c).fault } := rfl
    rw [feed_cons_eq, feed_cons_eq, hcall, made]
    cases hfault : (call sink c).fault with
    | none =>
      rw [Reply.andThen_of_none rfl, Reply.andThen_of_none hfault, ih]
      simp
    | some fault =>
      rw [Reply.andThen_of_some rfl, Reply.andThen_of_some hfault, hfault]
      simp

end TreeSink

/-! ### Streaming and replaying -/

namespace Json

/-- The text of a document without its tree: the calls go straight to a writer. -/
def streamText (document : Json) : Except Fault String := do
  let opened := ({} : TextWriter).openNode "" .container
  opened.result
  let filled := document.build opened.sink
  filled.result
  let closed := filled.sink.close .container
  closed.result
  closed.sink.finalize

open TreeSink

variable {document : Json} {nodes : List Node}

theorem streamText_of_toTree (h : document.toTree = .ok nodes) :
    document.streamText = Forest.toText nodes := by
  rw [Forest.toText, Forest.write, streamText]
  simp only [build_of_toTree h, bind_assoc, pure_bind]

/-- **Streaming a document is building its tree first and replaying it.** For every receiver the
reply is the same, and so are the calls that were made; and writing a document straight away gives
the text of its tree. -/
theorem streams (htree : document.toTree = .ok nodes) :
    (∀ (σ : Type) [TreeSink σ] (sink : σ),
      let events := (Walk.start nodes).toList
      document.build sink = replay sink events
        ∧ document.stream sink = replay sink events
        ∧ document.stream (⟨sink, []⟩ : Traced σ)
            = { sink := ⟨(replay sink events).sink, made sink (events.map Event.call)⟩
                fault := (replay sink events).fault })
      ∧ ∃ text, document.streamText = .ok text ∧ Forest.toText nodes = .ok text := by
  refine ⟨fun σ _ sink => ⟨build_of_toTree htree sink, ?_, ?_⟩, _, ?_, Forest.toText_eq nodes⟩
  · rw [← build_eq_stream, build_of_toTree htree]
  · rw [← build_eq_stream, build_of_toTree htree, replay, feed_traced, List.nil_append, replay]
  · rw [streamText_of_toTree htree, Forest.toText_eq]

/-- A receiver that refuses to open the second entry of a list: it has recorded the calls up to
there, and was given this one more. -/
theorem streams_refused :
    let document : Json :=
      .object [("l", .array [.object [("k", .string "1")], .object []]), ("e", .bool true)]
    let calls : List Call :=
      [.enterList "l", .enterContainer "", .addLeaf "k" "1", .exit .container]
    document.toTree = .ok [.list "l" [[.leaf "k" "1"], []], .leaf "e" "true"]
      ∧ document.stream (⟨{ refuseAt := some 4 }, []⟩ : Traced CallLog)
          = { sink := ⟨{ calls, refuseAt := some 4 }, calls ++ [.enterContainer ""]⟩
              fault := some (.internal "sink refused") }
      ∧ document.streamText
          = .ok "\x7b\"l\":[\x7b\"k\":\"1\"\x7d,\x7b\x7d],\"e\":\"true\"\x7d" := by
  intro document calls
  have htree : document.toTree = .ok [.list "l" [[.leaf "k" "1"], []], .leaf "e" "true"] := rfl
  obtain ⟨hsinks, text, hstream, htext⟩ := streams htree
  refine ⟨htree, (hsinks CallLog { refuseAt := some 4 }).2.2, ?_⟩
  rw [hstream, ← htext, Forest.toText_eq]
  rfl

end Json

end Restconf
