import Restconf.Proofs.Tree.Growth

/-!
# Callers who go on

Receivers refuse calls, and a caller may go on all the same. A text writer shows such a caller at
every moment a text without a comma at its end, which later calls only make longer.

## Why the end of the text is an invariant

A comma at the end is not shown, so what is shown could still end in a comma if two of them stood in
a row. They never do. A comma is written behind a quote or a bracket only, and the one comma that is
taken back is taken back in front of a bracket. That has to be known of the text in whatever order
the calls come, because a call that opens a node without a name, or closes one, leaves the end of
what stands there to the calls before.

## Main definitions

* `persist` — a receiver behind calls, the refused ones included
* `WriterCall`, `TextWriter.perform` — the calls of a text writer, with any fields and kinds
* `TextWriter.IsTrimmed` — no two commas at the end

## Main results

* `TextWriter.isTrimmed_persist` — there never are
* `TextWriter.shown_persist` — the headline
-/

namespace Restconf

/-! ### Calls that are made after a refusal -/

section Persistence

variable {σ κ : Type} (act : σ → κ → Reply σ)

/-- A receiver behind calls, each of which is made whatever has become of those before it. -/
def persist (sink : σ) (calls : List κ) : σ := calls.foldl (fun sink c => (act sink c).sink) sink

theorem persist_cons (sink : σ) (c : κ) (rest : List κ) :
    persist act sink (c :: rest) = persist act (act sink c).sink rest := rfl

theorem persist_append (sink : σ) (calls later : List κ) :
    persist act sink (calls ++ later) = persist act (persist act sink calls) later :=
  List.foldl_append

/-- What holds of a receiver and is kept by every call holds behind any calls. -/
theorem persist_induction {motive : σ → Prop} {sink : σ} (init : motive sink)
    (step : ∀ sink c, motive sink → motive (act sink c).sink) (calls : List κ) :
    motive (persist act sink calls) := by
  induction calls generalizing sink with
  | nil => exact init
  | cons c rest ih => exact ih (step sink c init)

end Persistence

/-! ### The calls of a text writer -/

/-- A call of a text writer. -/
inductive WriterCall where
  | openNode (field : String) (kind : NodeKind)
  | leaf (field value : String)
  | leafSet (field : String) (values : List String)
  | close (kind : NodeKind)
deriving DecidableEq

theorem Nesting.openBracket_ne (nesting : Nesting) : nesting.openBracket ≠ ',' := by
  cases nesting <;> decide

theorem Nesting.closeBracket_ne (nesting : Nesting) : nesting.closeBracket ≠ ',' := by
  cases nesting <;> decide

namespace TextWriter

/-- Makes one call. -/
def perform (writer : TextWriter) : WriterCall → Reply TextWriter
  | .openNode field kind => writer.openNode field kind
  | .leaf field value => { sink := writer.leaf field value }
  | .leafSet field values => { sink := writer.leafSet field values }
  | .close kind => writer.close kind

theorem shown_prefix_perform (writer : TextWriter) (c : WriterCall) :
    writer.shown <+: (writer.perform c).sink.shown := by
  cases c with
  | openNode field kind => exact shown_prefix_openNode writer field kind
  | leaf field value => exact shown_prefix_leaf writer field value
  | leafSet field values => exact shown_prefix_leafSet writer field values
  | close kind => exact shown_prefix_close writer kind

/-- **Calls make the text grow**, whether they are accepted or not. -/
theorem shown_prefix_persist (writer : TextWriter) (calls : List WriterCall) :
    writer.shown <+: (persist perform writer calls).shown :=
  persist_induction perform (motive := fun later => writer.shown <+: later.shown)
    (List.prefix_refl _) (fun later c h => h.trans (shown_prefix_perform later c)) calls

/-! ### The end of the text -/

/-- Behind the comma that is not shown there is no other. -/
def IsTrimmed (writer : TextWriter) : Prop := (trimComma writer.written).head? ≠ some ','

/-- Something is written that ends neither in a comma nor in one behind another. -/
theorem isTrimmed_of_written_eq {writer : TextWriter} {c : Char} {before : List Char} (hc : c ≠ ',')
    (h : writer.written = c :: before ∨ writer.written = ',' :: c :: before) :
    writer.IsTrimmed := by
  have hhead : (c :: before).head? ≠ some ',' := fun heq => hc (Option.some.inj heq)
  rcases h with h | h
  · have htrim : trimComma (c :: before) = c :: before := by
      unfold trimComma
      split
      · next heq => exact absurd (List.cons.inj heq).1 hc
      · rfl
    rwa [IsTrimmed, h, htrim]
  · rwa [IsTrimmed, h, trimComma]

theorem written_write_concat (writer : TextWriter) (front : List Char) (c : Char) :
    (writer.write (front ++ [c])).written = c :: (writer.write front).written := by
  simp only [write, List.reverseAux_eq, List.reverse_append, List.reverse_singleton,
    List.cons_append, List.nil_append]

variable {writer : TextWriter}

theorem isTrimmed_openNode (h : writer.IsTrimmed) (field : String) (kind : NodeKind) :
    (writer.openNode field kind).sink.IsTrimmed := by
  rw [openNode]
  cases Nesting.ofKind? kind with
  | none => exact h
  | some nesting =>
    exact isTrimmed_of_written_eq (Nesting.openBracket_ne nesting)
      (Or.inl (written_write_concat writer (fieldName field) nesting.openBracket))

theorem isTrimmed_leaf (writer : TextWriter) (field value : String) :
    (writer.leaf field value).IsTrimmed := by
  rw [leaf, Json.quote, ← List.append_assoc (fieldName field)]
  exact isTrimmed_of_written_eq (show '"' ≠ ',' by decide)
    (Or.inr ((written_write_concat _ _ _).trans
      (congrArg (List.cons ',') (written_write_concat writer _ '"'))))

theorem isTrimmed_leafSet (writer : TextWriter) (field : String) (values : List String) :
    (writer.leafSet field values).IsTrimmed := by
  rw [leafSet, List.append_cons _ ']']
  exact isTrimmed_of_written_eq (show ']' ≠ ',' by decide)
    (Or.inr ((written_write_concat _ _ _).trans
      (congrArg (List.cons ',') (written_write_concat writer _ ']'))))

theorem isTrimmed_close (h : writer.IsTrimmed) (kind : NodeKind) :
    (writer.close kind).sink.IsTrimmed := by
  rw [close]
  cases Nesting.ofKind? kind with
  | none => exact h
  | some nesting =>
    cases hnested : writer.nested with
    | nil => exact h
    | cons innermost around =>
      show (ite _ _ _ : Reply TextWriter).sink.IsTrimmed
      split
      · exact isTrimmed_of_written_eq (Nesting.closeBracket_ne nesting) (Or.inr rfl)
      · exact h

/-- **No text ends in two commas**, in whatever order the calls come. -/
theorem isTrimmed_persist (calls : List WriterCall) :
    (persist perform ({} : TextWriter) calls).IsTrimmed := by
  refine persist_induction perform (motive := IsTrimmed) (fun h => by cases h) ?_ calls
  intro writer c h
  cases c with
  | openNode field kind => exact isTrimmed_openNode h field kind
  | leaf field value => exact isTrimmed_leaf writer field value
  | leafSet field values => exact isTrimmed_leafSet writer field values
  | close kind => exact isTrimmed_close h kind

/-- What is shown does not end in a comma. -/
theorem IsTrimmed.getLast?_shown_ne (h : writer.IsTrimmed) : writer.shown.getLast? ≠ some ',' := by
  rw [shown, List.getLast?_reverse]
  exact h

/-! ### What is shown -/

/-- The finished text is what was shown last, and nothing is open. -/
theorem toList_of_finalize {text : String} (h : writer.finalize = .ok text) :
    writer.nested = [] ∧ text.toList = writer.shown := by
  rw [finalize] at h
  split at h
  · cases h
  · next hnested => exact ⟨hnested, by rw [← Except.ok.inj h, String.toList_ofList]⟩

/-- **What is shown of a text only grows.** Behind any calls it does not end in a comma, it is the
beginning of what is shown behind further calls, and it is the finished text, if there is one. -/
theorem shown_persist (calls : List WriterCall) :
    let writer := persist perform ({} : TextWriter) calls
    writer.shown.getLast? ≠ some ','
      ∧ (∀ later, writer.shown <+: (persist perform ({} : TextWriter) (calls ++ later)).shown)
      ∧ ∀ text, writer.finalize = .ok text → text.toList = writer.shown := by
  intro writer
  refine ⟨(isTrimmed_persist calls).getLast?_shown_ne, fun later => ?_,
    fun text htext => (toList_of_finalize htext).2⟩
  rw [persist_append]
  exact shown_prefix_persist writer later

/-- A list is closed that is none, a leaf is opened as a node, and more is closed than was open. The
text that is left is no document, and it is shown to its end. -/
theorem shown_persist_unclosed :
    let calls : List WriterCall :=
      [.openNode "" .container, .leafSet "v" ["b", "a"], .close .list, .openNode "w" .leaf,
        .leaf "l" ",", .close .container]
    let writer := persist perform ({} : TextWriter) calls
    writer.shown = "\x7b\"v\":[\"b\",\"a\"],\"l\":\",\"".toList
      ∧ (persist perform ({} : TextWriter) (calls.take 2)).shown <+: writer.shown
      ∧ ∃ text, writer.finalize = .ok text ∧ text.toList = writer.shown := by
  intro calls writer
  obtain ⟨-, hgrows, -⟩ := shown_persist (calls.take 2)
  obtain ⟨-, -, hfinal⟩ := shown_persist calls
  exact ⟨rfl, hgrows (calls.drop 2), _, rfl, hfinal _ rfl⟩

end TextWriter

end Restconf
