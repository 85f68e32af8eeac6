import Restconf.Proofs.Json.Brackets
import Restconf.Proofs.Tree.Refusal

/-!
# What becomes of open nodes

A text writer treats refused calls as a builder does, and what it forgets is seen in its text: a
bracket that nobody closes. So a finished text has balanced brackets if and only if no refused call
has taken an open node off.

## Why the text is followed beside the calls

That a node was forgotten is known of the calls, by counting them. To see it in the text, its
brackets have to be those of the accepted calls, whatever is quoted in between, and that has to be
known of every text that is being written, balanced or not. For the balance itself neither the text
nor the order of the calls matters: the calls that would still close what is open, behind those that
were accepted, are balanced from the start, and each further call puts something balanced in
between.

## Main definitions

* `TextWriter.Performs` — what one call does, and everything it can do
* `TextWriter.IsBalancedCalls` — calls that close what they open
* `TextWriter.Shows` — the brackets of the text so far
* `TextWriter.Accounts` — what a writer does with refused calls

## Main results

* `TextWriter.isBalanced_persist` — accepted calls close what they open, if refusals are harmless
* `TextWriter.shows_persist` — the brackets of a text are those of the accepted calls
* `receivers_account` — the headline
-/

namespace Restconf

/-! ### The calls of a text writer -/

namespace WriterCall

/-- Calls that open a node. Leaves and leaf-lists are never open. -/
def opens : WriterCall → Bool
  | openNode _ kind => (Nesting.ofKind? kind).isSome
  | _ => false

/-- Calls that close a node. -/
def closes : WriterCall → Bool
  | close kind => (Nesting.ofKind? kind).isSome
  | _ => false

/-- Calls that neither open a node nor close one. -/
def IsFlat (c : WriterCall) : Prop := c.opens = false ∧ c.closes = false

/-- A call that opens a node, and one that closes it. -/
inductive Matches : WriterCall → WriterCall → Prop where
  | node (field : String) (nesting : Nesting) :
      Matches (openNode field nesting.kind) (close nesting.kind)

/-- The brackets that an accepted call writes. -/
def brackets : WriterCall → List Char
  | openNode _ kind => ((Nesting.ofKind? kind).map Nesting.openBracket).toList
  | leaf .. => []
  | leafSet .. => ['[', ']']
  | close kind => ((Nesting.ofKind? kind).map Nesting.closeBracket).toList

end WriterCall

@[simp]
theorem Nesting.ofKind?_kind (nesting : Nesting) : ofKind? nesting.kind = some nesting := by
  cases nesting <;> rfl

theorem Nesting.kind_of_ofKind?_eq {kind : NodeKind} {nesting : Nesting}
    (h : ofKind? kind = some nesting) : kind = nesting.kind := by
  cases kind <;> cases h <;> rfl

namespace TextWriter

open Json (IsWhole)

variable {writer : TextWriter} {c : WriterCall} {calls : List WriterCall}

/-- A writer that has refused a call: a call that closes has taken the innermost open node off. -/
def afterRefusal (writer : TextWriter) : WriterCall → TextWriter
  | .close _ => { writer with nested := writer.nested.tail }
  | _ => writer

/-- **What one call does**, and everything it can do. -/
inductive Performs (writer : TextWriter) : WriterCall → Reply TextWriter → Prop where
  | opened (field : String) (nesting : Nesting) :
      Performs writer (.openNode field nesting.kind) { sink := writer.opened field nesting }
  /-- The innermost node is closed as what it is. -/
  | closed (nesting : Nesting) (around : List Nesting) (h : writer.nested = nesting :: around) :
      Performs writer (.close nesting.kind) { sink := {
        written := ',' :: nesting.closeBracket :: trimComma writer.written
        nested := around } }
  | added {c : WriterCall} {text : List Char} (hflat : c.IsFlat) (hwhole : IsWhole text)
      (hbrackets : Json.brackets text = c.brackets) :
      Performs writer c { sink := writer.write text }
  | refused (c : WriterCall) (fault : Fault) :
      Performs writer c { sink := writer.afterRefusal c, fault := some fault }

/-! ### Every call does one of these -/

theorem isWhole_fieldName (field : String) : IsWhole (fieldName field) := by
  rw [fieldName]
  split
  · exact Json.isWhole_nil
  · exact (Json.isWhole_quote _).append (Json.isWhole_singleton (by decide))

theorem brackets_fieldName_append (field : String) (text : List Char) :
    Json.brackets (fieldName field ++ text) = Json.brackets text := by
  rw [Json.brackets_append (isWhole_fieldName field)]
  have hname : Json.brackets (fieldName field) = [] := by
    rw [fieldName]
    split
    · rfl
    · rw [Json.brackets_append (Json.isWhole_quote _), Json.brackets_quote]
      rfl
  rw [hname, List.nil_append]

theorem performs_leaf (writer : TextWriter) (field value : String) :
    writer.Performs (.leaf field value) { sink := writer.leaf field value } := by
  have hvalue := Json.isWhole_quote value.toList
  refine .added ⟨rfl, rfl⟩
    (((isWhole_fieldName field).append hvalue).append (Json.isWhole_singleton (by decide))) ?_
  rw [List.append_assoc, brackets_fieldName_append, Json.brackets_append hvalue,
    Json.brackets_quote]
  rfl

theorem performs_leafSet (writer : TextWriter) (field : String) (values : List String) :
    writer.Performs (.leafSet field values) { sink := writer.leafSet field values } := by
  have hquotes : ∀ text ∈ values.map fun v => Json.quote v.toList, IsWhole text := by
    intro text htext
    obtain ⟨v, -, rfl⟩ := List.mem_map.mp htext
    exact Json.isWhole_quote v.toList
  obtain ⟨hvalues, hnone⟩ := Json.brackets_commaSeparated hquotes
  rw [List.flatMap_map, List.flatMap_eq_nil_iff.mpr fun v _ => Json.brackets_quote v.toList]
    at hnone
  refine .added ⟨rfl, rfl⟩ (((isWhole_fieldName field).append (.cons (by decide) hvalues)).append
    (.cons (by decide) (Json.isWhole_singleton (by decide)))) ?_
  rw [List.append_assoc, brackets_fieldName_append, List.cons_append,
    Json.brackets_cons (by decide), Json.brackets_append hvalues, hnone]
  rfl

/-- **Every call does one of these.** -/
theorem performs (writer : TextWriter) (c : WriterCall) : writer.Performs c (writer.perform c) := by
  cases c with
  | openNode field kind =>
    cases hkind : Nesting.ofKind? kind with
    | none =>
      have hrefused : writer.perform (.openNode field kind)
          = { sink := writer, fault := some (cannotOpen field kind) } := by
        rw [perform, openNode, hkind]
      exact hrefused ▸ .refused (.openNode field kind) _
    | some nesting =>
      obtain rfl := Nesting.kind_of_ofKind?_eq hkind
      have hopened : writer.perform (.openNode field nesting.kind)
          = { sink := writer.opened field nesting } := by
        rw [perform, openNode, hkind]
        rfl
      exact hopened ▸ .opened field nesting
  | leaf field value => exact performs_leaf writer field value
  | leafSet field values => exact performs_leafSet writer field values
  | close kind =>
    cases hkind : Nesting.ofKind? kind with
    | none =>
      have hnothing : writer.perform (.close kind) = { sink := writer.write [] } := by
        rw [perform, close, hkind]
        rfl
      refine hnothing ▸ .added ⟨rfl, ?_⟩ Json.isWhole_nil ?_
      · rw [WriterCall.closes, hkind]
        rfl
      · rw [WriterCall.brackets, hkind]
        rfl
    | some nesting =>
      obtain rfl := Nesting.kind_of_ofKind?_eq hkind
      obtain ⟨written, nested⟩ := writer
      rw [perform, close, hkind]
      cases nested with
      | nil => exact .refused (.close nesting.kind) _
      | cons innermost around =>
        show Performs _ _ (ite _ _ _)
        split
        · next hsame => exact .closed nesting around (congrArg (· :: around) hsame)
        · exact .refused (.close nesting.kind) _

/-! ### The nodes -/

/-- A writer counts its open nodes. -/
theorem keeps : Keeps perform (·.nested.length) WriterCall.opens WriterCall.closes where
  accepted {writer c} h := by
    have hperforms := performs writer c
    generalize writer.perform c = reply at h hperforms
    cases hperforms with
    | opened field nesting => cases nesting <;> rfl
    | closed nesting around hnested =>
      rw [hnested, WriterCall.closes, Nesting.ofKind?_kind]
      rfl
    | added hflat => rw [hflat.1, hflat.2]; rfl
    | refused => cases h
  refused {writer c} h := by
    have hperforms := performs writer c
    generalize writer.perform c = reply at h hperforms
    cases hperforms with
    | opened | closed | added => cases h
    | refused =>
      obtain ⟨written, nested⟩ := writer
      cases c with
      | close kind =>
        cases nested with
        | nil => exact Or.inl rfl
        | cons innermost around => exact Or.inr (Nat.lt_succ_self around.length)
      | _ => exact Or.inl rfl

/-- The calls that would close what is open. -/
def closings (writer : TextWriter) : List WriterCall := writer.nested.map fun n => .close n.kind

/-- Calls that close what they open, and nothing else. -/
def IsBalancedCalls (calls : List WriterCall) : Prop :=
  IsBalanced WriterCall.IsFlat WriterCall.Matches calls

/-- An accepted call closes what would have been closed next, or opens what would be, or is put in
front. -/
theorem isBalanced_perform {before : List WriterCall} (h : (writer.perform c).fault = none)
    (hbefore : IsBalancedCalls (before ++ writer.closings)) :
    IsBalancedCalls (before ++ [c] ++ (writer.perform c).sink.closings) := by
  have hperforms := performs writer c
  generalize writer.perform c = reply at h hperforms
  cases hperforms with
  | opened field nesting =>
    have hpair : IsBalancedCalls [.openNode field nesting.kind, .close nesting.kind] :=
      .enclosed (.node field nesting) .nil
    simpa [closings, opened, IsBalancedCalls] using hbefore.insert rfl hpair
  | closed nesting around hnested =>
    rw [closings, hnested] at hbefore
    simpa [closings] using hbefore
  | added hflat => exact hbefore.insert rfl (.single hflat)
  | refused => cases h

/-- **Harmless refusals leave everything closed or open.** The calls that would close what is open,
behind those that were accepted, close each node that those have opened. -/
theorem isBalanced_persist {before : List WriterCall} (h : Harmless perform writer calls)
    (hbefore : IsBalancedCalls (before ++ writer.closings)) :
    IsBalancedCalls (before ++ accepted perform writer calls
      ++ (persist perform writer calls).closings) := by
  induction calls generalizing writer before with
  | nil => simpa [accepted, persist] using hbefore
  | cons c rest ih =>
    obtain ⟨hfirst, hrest⟩ := harmless_cons.mp h
    rw [persist_cons]
    cases hfault : (writer.perform c).fault with
    | none =>
      have hstep := ih hrest (isBalanced_perform hfault hbefore)
      rwa [List.append_assoc before, List.singleton_append, ← accepted_cons_of_none hfault] at hstep
    | some fault =>
      have hrefused : (writer.perform c).fault.isSome := by rw [hfault]; rfl
      rw [accepted_cons_of_isSome hrefused]
      exact ih hrest (by rwa [hfirst hrefused])

/-! ### The text -/

/-- The text so far has these brackets, and no string of it is open. -/
structure Shows (writer : TextWriter) (marks : List Char) : Prop where
  whole : IsWhole writer.written.reverse
  brackets_eq : Json.brackets writer.written.reverse = marks

variable {marks : List Char}

theorem Shows.write {text : List Char} (h : writer.Shows marks) (hwhole : IsWhole text) :
    (writer.write text).Shows (marks ++ Json.brackets text) := by
  have hwritten : (writer.write text).written.reverse = writer.written.reverse ++ text := by
    simp [TextWriter.write, List.reverseAux_eq]
  refine ⟨?_, ?_⟩ <;> rw [hwritten]
  · exact h.whole.append hwhole
  · rw [Json.brackets_append h.whole, h.brackets_eq]

theorem trimComma_cases (written : List Char) :
    trimComma written = written ∨ written = ',' :: trimComma written := by
  unfold trimComma
  split
  · exact Or.inr rfl
  · exact Or.inl rfl

/-- The comma that is taken back is in no string. -/
theorem Shows.trimComma (h : writer.Shows marks) :
    Shows { writer with written := trimComma writer.written } marks := by
  rcases trimComma_cases writer.written with hsame | hcomma
  · rwa [hsame]
  · obtain ⟨hwhole, hbrackets⟩ := h
    rw [hcomma, List.reverse_cons] at hwhole hbrackets
    rw [Json.brackets_append hwhole.of_comma] at hbrackets
    exact ⟨hwhole.of_comma, (List.append_nil _).symm.trans hbrackets⟩

/-- An accepted call writes its brackets, and a refused one nothing. -/
theorem Shows.perform (h : writer.Shows marks) (c : WriterCall) :
    (writer.perform c).sink.Shows
      (marks ++ if (writer.perform c).fault.isSome then [] else c.brackets) := by
  have hperforms := performs writer c
  generalize writer.perform c = reply at hperforms
  cases hperforms with
  | opened field nesting =>
    have hopens : nesting.openBracket ≠ '"' := by cases nesting <;> decide
    obtain ⟨hwhole, hbrackets⟩ :=
      h.write ((isWhole_fieldName field).append (Json.isWhole_singleton hopens))
    rw [brackets_fieldName_append] at hbrackets
    refine ⟨hwhole, hbrackets.trans (congrArg _ ?_)⟩
    cases nesting <;> rfl
  | closed nesting around hnested =>
    have hcloses : nesting.closeBracket ≠ '"' := by cases nesting <;> decide
    have hclosing : IsWhole [nesting.closeBracket, ','] :=
      .cons hcloses (Json.isWhole_singleton (by decide))
    obtain ⟨hwhole, hbrackets⟩ := h.trimComma.write hclosing
    refine ⟨hwhole, hbrackets.trans (congrArg _ ?_)⟩
    cases nesting <;> rfl
  | added hflat hwhole hbrackets =>
    obtain ⟨hboth, heq⟩ := h.write hwhole
    exact ⟨hboth, heq.trans (congrArg _ hbrackets)⟩
  | refused c fault =>
    have hsame : (writer.afterRefusal c).written = writer.written := by cases c <;> rfl
    refine ⟨?_, ?_⟩ <;> rw [hsame]
    · exact h.whole
    · exact h.brackets_eq.trans (List.append_nil marks).symm

/-- **The brackets of the text are those of the accepted calls.** -/
theorem shows_persist (h : writer.Shows marks) (calls : List WriterCall) :
    (persist perform writer calls).Shows
      (marks ++ (accepted perform writer calls).flatMap WriterCall.brackets) := by
  induction calls generalizing writer marks with
  | nil => simpa [accepted, persist] using h
  | cons c rest ih =>
    have hstep := ih (h.perform c)
    rw [persist_cons]
    cases hfault : (writer.perform c).fault with
    | none =>
      rw [accepted_cons_of_none hfault, List.flatMap_cons, ← List.append_assoc]
      simpa [hfault] using hstep
    | some fault =>
      rw [accepted_cons_of_isSome (by rw [hfault]; rfl)]
      simpa [hfault] using hstep

/-! ### What the brackets tell -/

/-- **Brackets are balanced where calls are.** -/
theorem IsBalancedCalls.brackets (h : IsBalancedCalls calls) :
    IsBalanced (fun _ => False) Json.BracketPair (calls.flatMap WriterCall.brackets) := by
  refine IsBalanced.flatMap (fun c hflat => ?_) (fun opening closing hmatches => ?_) h
  · obtain ⟨hopens, hcloses⟩ := hflat
    cases c with
    | leaf => exact .nil
    | leafSet => exact .enclosed .squares .nil
    | openNode field kind =>
      cases kind with
      | container | list => cases hopens
      | leaf | leafList => exact .nil
    | close kind =>
      cases kind with
      | container | list => cases hcloses
      | leaf | leafList => exact .nil
  · cases hmatches with
    | node field nesting =>
      cases nesting with
      | container => exact ⟨_, _, rfl, rfl, .braces⟩
      | list => exact ⟨_, _, rfl, rfl, .squares⟩

/-- Balanced calls close as many nodes as they open. -/
theorem IsBalancedCalls.countP_eq (h : IsBalancedCalls calls) :
    calls.countP WriterCall.opens = calls.countP WriterCall.closes := by
  refine IsBalanced.countP_eq (fun c hflat => hflat.1.trans hflat.2.symm) ?_ h
  intro opening closing hmatches
  cases hmatches with
  | node field nesting => cases nesting <;> exact ⟨rfl, rfl⟩

/-- **Brackets count the nodes.** Those of a leaf-list come in pairs. -/
theorem countP_brackets (calls : List WriterCall) :
    (calls.flatMap WriterCall.brackets).countP Json.isOpening + calls.countP WriterCall.closes
      = (calls.flatMap WriterCall.brackets).countP Json.isClosing
        + calls.countP WriterCall.opens := by
  induction calls with
  | nil => rfl
  | cons c calls ih =>
    have hone : c.brackets.countP Json.isOpening + [c].countP WriterCall.closes
        = c.brackets.countP Json.isClosing + [c].countP WriterCall.opens := by
      cases c with
      | leaf | leafSet => rfl
      | openNode field kind | close kind => cases kind <;> rfl
    rw [List.flatMap_cons, List.countP_append, List.countP_append, ← List.singleton_append,
      List.countP_append, List.countP_append]
    omega

/-- The finished text has the brackets of the accepted calls. -/
theorem brackets_of_finalize {text : String}
    (h : (persist perform ({} : TextWriter) calls).finalize = .ok text) :
    Json.brackets text.toList
      = (accepted perform ({} : TextWriter) calls).flatMap WriterCall.brackets := by
  have hstart : ({} : TextWriter).Shows [] := ⟨rfl, rfl⟩
  rw [(toList_of_finalize h).2, shown]
  exact (shows_persist hstart calls).trimComma.brackets_eq

/-! ### Refused calls -/

/-- **A refused call leaves the writer as it was**, if it does not close anything. -/
theorem sink_of_isSome (h : (writer.perform c).fault.isSome) :
    (writer.perform c).sink = writer.afterRefusal c := by
  have hperforms := performs writer c
  generalize writer.perform c = reply at h hperforms
  cases hperforms with
  | opened | closed | added => cases h
  | refused => rfl

/-- **What a writer does with refused calls.** -/
structure Accounts (calls : List WriterCall) : Prop where
  /-- A refused call changes nothing, but a closing call takes the innermost open node off. -/
  refused : ∀ (writer : TextWriter) c, (writer.perform c).fault.isSome →
    (writer.perform c).sink = writer.afterRefusal c
  tallies : Tallies perform (·.nested.length) WriterCall.opens WriterCall.closes {} calls
  /-- If refusals are harmless, and only then, the finished text has every node closed that was
  opened, and every bracket. -/
  finished : ∀ text, (persist perform ({} : TextWriter) calls).finalize = .ok text →
    (Harmless perform ({} : TextWriter) calls
        ↔ IsBalancedCalls (accepted perform ({} : TextWriter) calls))
      ∧ (Harmless perform ({} : TextWriter) calls ↔ Json.HasBalancedBrackets text.toList)

/-- **A writer forgets what a refused closing call takes off, and nothing else.** -/
theorem accounts (calls : List WriterCall) : Accounts calls where
  refused _ _ := sink_of_isSome
  tallies := keeps.tallies {} calls
  finished text htext := by
    have hbrackets := brackets_of_finalize htext
    have hcalls (h : Harmless perform ({} : TextWriter) calls) :
        IsBalancedCalls (accepted perform ({} : TextWriter) calls) := by
      have hstart : IsBalancedCalls ([] ++ ({} : TextWriter).closings) := .nil
      have hclosed := isBalanced_persist h hstart
      rwa [closings, (toList_of_finalize htext).1, List.map_nil, List.append_nil] at hclosed
    have hharmless := (keeps.tallies {} calls).harmless rfl
    refine ⟨⟨hcalls, fun h => hharmless h.countP_eq⟩, fun h => ?_, fun h => hharmless ?_⟩
    · rw [Json.HasBalancedBrackets, hbrackets]
      exact (hcalls h).brackets
    · have hequal := h.countP_eq
      have hcount := countP_brackets (accepted perform ({} : TextWriter) calls)
      rw [← hbrackets] at hcount
      omega

end TextWriter

/-! ### Builders and writers -/

/-- **A node that is open is forgotten if a closing call is refused, and never otherwise.** What is
finished in spite of that lacks it. -/
theorem receivers_account (calls : List Call) (writes : List WriterCall) :
    TreeBuilder.Accounts calls ∧ TextWriter.Accounts writes :=
  ⟨TreeBuilder.accounts calls, TextWriter.accounts writes⟩

/-- Refusals that do no harm: nothing is open that could be closed, a list is given a leaf and a
list, a leaf is opened as a node. -/
theorem receivers_account_harmless :
    let calls : List Call :=
      [.exit .list, .enterList "l", .addLeaf "x" "1", .enterList "m", .enterContainer "e",
        .addLeaf "id" "1", .exit .container, .exit .list]
    let writes : List WriterCall :=
      [.close .list, .openNode "" .container, .openNode "x" .leaf, .leafSet "[" ["\x7d"],
        .close .container]
    (∃ nodes, (TreeSink.feedAll ({} : TreeBuilder) calls).2.finish = .ok nodes
        ∧ Call.IsNested .row (accepted TreeSink.call ({} : TreeBuilder) calls)
          (Walk.start nodes).toList)
      ∧ ∃ text, (persist TextWriter.perform ({} : TextWriter) writes).finalize = .ok text
        ∧ Json.HasBalancedBrackets text.toList := by
  intro calls writes
  obtain ⟨hbuilder, hwriter⟩ := receivers_account calls writes
  have hcalls : Harmless TreeSink.call ({} : TreeBuilder) calls :=
    hbuilder.tallies.harmless_iff.mpr rfl
  have hwrites : Harmless TextWriter.perform ({} : TextWriter) writes :=
    hwriter.tallies.harmless_iff.mpr rfl
  exact ⟨⟨_, rfl, ((hbuilder.finished _ rfl).2 hcalls).1⟩,
    _, rfl, (hwriter.finished _ rfl).2.mp hwrites⟩

/-- A container that is closed as a list is forgotten with its leaf, and the brace that opens it is
never closed. -/
theorem forgets_container :
    let calls : List Call := [.enterContainer "c", .addLeaf "x" "1", .exit .list]
    let writes : List WriterCall := [.openNode "" .container, .close .list]
    (¬ Harmless TreeSink.call ({} : TreeBuilder) calls
        ∧ (TreeSink.feedAll ({} : TreeBuilder) calls).2.finish = .ok []
        ∧ accepted TreeSink.call ({} : TreeBuilder) calls
          = [.enterContainer "c", .addLeaf "x" "1"]
        ∧ ∀ events, ¬ Call.IsNested .row (accepted TreeSink.call ({} : TreeBuilder) calls) events)
      ∧ ¬ Harmless TextWriter.perform ({} : TextWriter) writes
        ∧ (persist TextWriter.perform ({} : TextWriter) writes).finalize = .ok "\x7b"
        ∧ ¬ Json.HasBalancedBrackets "\x7b".toList := by
  intro calls writes
  refine ⟨⟨fun h => ?_, rfl, rfl, fun events h => absurd h.countP_eq (by decide)⟩,
    fun h => ?_, rfl, fun h => absurd h.countP_eq (by decide)⟩
  · have hsame := h [.enterContainer "c", .addLeaf "x" "1"] (.exit .list) [] rfl rfl
    cases congrArg (·.frames.length) hsame
  · have hsame := h [.openNode "" .container] (.close .list) [] rfl rfl
    cases congrArg (·.nested.length) hsame

end Restconf
