import Restconf.Proofs.Tree.Replay

/-!
# The text while it is written

What a text writer shows of its text only grows, whichever calls are made, also refused ones. While
a forest is written, the text that is shown is at every moment the beginning of the text that the
recursion defines, and at the end it is all of it.

## Why the comma does not matter

The writer puts a comma behind everything and takes it back when a bracket is closed, so what it has
written is not the beginning of what it will have written. What it shows leaves out a comma at the
end, and then nothing is ever taken back: a call that opens or adds something writes behind the
comma, and a call that closes writes in its place. The values of a leaf-list have their commas put
in between at once; `leafSet_eq_foldl` says that this is the text of writing them one by one.

## Main results

* `TextWriter.shown_prefix_call`, `TextWriter.shown_prefix_feed` — calls make the text grow
* `Forest.toText_grows` — the headline
-/

namespace Restconf

namespace TextWriter

/-! ### One call -/

theorem trimComma_suffix (written : List Char) : trimComma written <:+ written := by
  unfold trimComma
  split
  · exact List.suffix_cons ',' _
  · exact List.suffix_refl _

/-- Only a comma at the end is not shown. -/
theorem shown_prefix_reverse (writer : TextWriter) : writer.shown <+: writer.written.reverse := by
  rw [shown, List.reverse_prefix]
  exact trimComma_suffix writer.written

/-- Of further text all but its last character is shown, and everything that stands before it. -/
theorem reverse_prefix_shown_write (writer : TextWriter) {text : List Char} (h : text ≠ []) :
    writer.written.reverse <+: (writer.write text).shown := by
  obtain rfl | ⟨front, last, rfl⟩ := List.eq_nil_or_concat text
  · exact absurd rfl h
  have hwritten : (writer.write (front ++ [last])).written
      = last :: (front.reverse ++ writer.written) := by
    simp [write, List.reverseAux_eq]
  rw [shown, List.concat_eq_append, hwritten, List.reverse_prefix]
  have hback : writer.written <:+ front.reverse ++ writer.written := List.suffix_append _ _
  unfold trimComma
  split
  · next heq => exact (List.cons.inj heq).2 ▸ hback
  · exact hback.trans (List.suffix_cons last _)

theorem shown_prefix_write (writer : TextWriter) {text : List Char} (h : text ≠ []) :
    writer.shown <+: (writer.write text).shown :=
  (shown_prefix_reverse writer).trans (reverse_prefix_shown_write writer h)

theorem shown_prefix_openNode (writer : TextWriter) (field : String) (kind : NodeKind) :
    writer.shown <+: (writer.openNode field kind).sink.shown := by
  rw [openNode]
  cases Nesting.ofKind? kind with
  | none => exact List.prefix_refl _
  | some nesting => exact shown_prefix_write writer (by simp)

theorem shown_prefix_leaf (writer : TextWriter) (field value : String) :
    writer.shown <+: (writer.leaf field value).shown :=
  shown_prefix_write writer (by simp)

theorem shown_prefix_leafSet (writer : TextWriter) (field : String) (values : List String) :
    writer.shown <+: (writer.leafSet field values).shown :=
  shown_prefix_write writer (by simp)

/-- A closing bracket stands where a comma stood that was not shown. -/
theorem shown_prefix_close (writer : TextWriter) (kind : NodeKind) :
    writer.shown <+: (writer.close kind).sink.shown := by
  rw [close]
  cases Nesting.ofKind? kind with
  | none => exact List.prefix_refl _
  | some nesting =>
    obtain ⟨written, nested⟩ := writer
    cases nested with
    | nil => exact List.prefix_refl _
    | cons innermost around =>
      show _ <+: (ite _ _ _ : Reply TextWriter).sink.shown
      split
      · rw [shown, shown, List.reverse_prefix]
        exact List.suffix_cons _ _
      · exact List.prefix_refl _

/-- **A call makes the text grow**, or leaves it as it is. -/
theorem shown_prefix_call (writer : TextWriter) (c : Call) :
    writer.shown <+: (TreeSink.call writer c).sink.shown := by
  cases c with
  | enterContainer name => exact shown_prefix_openNode writer name .container
  | enterList name => exact shown_prefix_openNode writer name .list
  | addLeaf name value => exact shown_prefix_leaf writer name value
  | addLeafList name values => exact shown_prefix_leafSet writer name values.values
  | exit kind => exact shown_prefix_close writer kind

/-- **Calls make the text grow**, up to the first that is refused. -/
theorem shown_prefix_feed (writer : TextWriter) (calls : List Call) :
    writer.shown <+: (TreeSink.feed writer calls).sink.shown := by
  induction calls generalizing writer with
  | nil => exact List.prefix_refl _
  | cons c calls ih =>
    rw [TreeSink.feed_cons_eq]
    have hcall := shown_prefix_call writer c
    cases hfault : (TreeSink.call writer c).fault with
    | none =>
      rw [Reply.andThen_of_none hfault]
      exact hcall.trans (ih _)
    | some fault =>
      rw [Reply.andThen_of_some hfault]
      exact hcall

/-! ### Values one by one -/

theorem foldl_write (texts : List (List Char)) (writer : TextWriter) :
    texts.foldl (fun writer text => writer.write (text ++ [','])) writer
      = writer.write (terminated texts) := by
  induction texts generalizing writer with
  | nil => rfl
  | cons text texts ih =>
    rw [List.foldl_cons, ih, write_write]
    rfl

/-- The values of a leaf-list are written one by one, each with its comma, and the last comma is
taken back in front of the bracket. -/
theorem leafSet_eq_foldl (writer : TextWriter) (field : String) (values : List String) :
    let filled := (values.map fun v => Json.quote v.toList).foldl
      (fun writer text => writer.write (text ++ [','])) (writer.write (fieldName field ++ ['[']))
    writer.leafSet field values
      = TextWriter.write { filled with written := trimComma filled.written } [']', ','] := by
  intro filled
  have hfilled : filled = { writer with
      written := (terminated (values.map fun v => Json.quote v.toList)).reverseAux
        ('[' :: (fieldName field).reverseAux writer.written) } := by
    refine (foldl_write _ _).trans ?_
    simp [write, List.reverseAux_eq]
  rw [hfilled]
  simp only [trimComma_terminated _ (show '[' ≠ ',' by decide)]
  simp [leafSet, write, List.reverseAux_eq]

end TextWriter

/-! ### A whole forest -/

namespace Forest

open TextWriter TreeSink

/-- **The text of a forest is the one that the recursion defines**, and at every moment of the walk
what is shown is the beginning of it. -/
theorem toText_grows (nodes : List Node) :
    toText nodes = .ok (.ofList (reference nodes))
      ∧ ∀ before after, (Walk.start nodes).toList = before ++ after →
          ∃ writer, replay (({} : TextWriter).openNode "" .container).sink before
              = { sink := writer }
            ∧ writer.shown <+: reference nodes := by
  refine ⟨toText_eq nodes, fun before after hevents => ?_⟩
  have hwhole : feed (opened {} "" .container) ((before ++ after).map Event.call)
      = { sink := (opened {} "" .container).write (terminated (fieldTexts nodes)) } := by
    rw [← hevents, Walk.toList_start, feed_forestEvents]
  rw [List.map_append] at hwhole
  obtain ⟨writer, hwriter, hrest⟩ := exists_feed_of_append (congrArg Reply.fault hwhole)
  refine ⟨writer, hwriter, ?_⟩
  -- what the writer shows in the end is the whole text
  have hend : (((opened {} "" .container).write (terminated (fieldTexts nodes))).close
      .container).sink.shown = reference nodes := by
    have hclosed := close_opened {} "" .container (fieldTexts nodes)
    rw [Nesting.kind] at hclosed
    rw [hclosed, ← shown_write_comma (reference nodes)]
    simp [reference, braced, fieldName, Nesting.openBracket, Nesting.closeBracket]
  have hgrows := shown_prefix_feed writer (after.map Event.call)
  rw [hrest, hwhole] at hgrows
  exact hend ▸ hgrows.trans (shown_prefix_close _ .container)

/-- Empty nodes of every kind, with names and without. Between the first two of them no comma is
shown yet. -/
theorem toText_grows_empty :
    let nodes : List Node :=
      [.container "" [], .leafList "v" .empty, .list "l" [[]], .leaf "" "\"",
        .leafList "" (.ofList ["b", "a"])]
    toText nodes = .ok "\x7b\x7b\x7d,\"v\":[],\"l\":[\x7b\x7d],\"\\\"\",[\"a\",\"b\"]\x7d"
      ∧ ∃ writer, replay (({} : TextWriter).openNode "" .container).sink
            [.enter "" .container, .exit .container] = { sink := writer }
          ∧ writer.shown = "\x7b\x7b\x7d".toList ∧ writer.shown <+: reference nodes := by
  intro nodes
  obtain ⟨htext, hgrows⟩ := toText_grows nodes
  obtain ⟨writer, hwriter, hshown⟩ := hgrows [.enter "" .container, .exit .container] _ rfl
  refine ⟨htext.trans rfl, writer, hwriter, ?_, hshown⟩
  cases hwriter
  rfl

end Forest

end Restconf
