import Restconf.Proofs.Tree.Nesting
import Restconf.Proofs.Tree.Persistence

/-!
# What refused calls do

A receiver that refuses a call is left as it was, with one exception: a call that closes takes the
innermost open node off before it looks at it, and when it is refused that node is forgotten, with
all it has collected. If no call does so, then what a builder finishes in the end has every node
that was opened, and every leaf. If one does, then it has fewer nodes than were opened.

## Why nodes are counted

The accepted calls of a caller whose refused calls do no harm build the same on their own, so what
is known of callers who are never refused applies to them. For the converse it is enough to count.
The nodes that were opened have been closed, or are still open, or are forgotten, and this holds
behind any calls of any receiver that opens and closes one node at a time: `Keeps.size_persist`.
In something nested as many nodes are closed as are opened, so nothing is forgotten.

## Main definitions

* `accepted` — the calls that a receiver accepts
* `Harmless` — each call that is refused leaves the receiver as it was
* `forgotten` — how many open nodes the refused calls have taken off
* `TreeBuilder.Accounts` — what a builder does with refused calls

## Main results

* `Keeps.size_persist`, `Keeps.harmless_iff` — the count of the open nodes
* `TreeSink.feed_accepted` — harmless refusals might as well not have been
* `TreeBuilder.accounts` — a builder forgets what a refused closing call takes off, and nothing else
-/

namespace Restconf

/-! ### Refused calls -/

section Refusal

variable {σ κ : Type} (act : σ → κ → Reply σ)

/-- The calls that a receiver accepts among those that are made. -/
def accepted (sink : σ) : List κ → List κ
  | [] => []
  | c :: rest =>
    let reply := act sink c
    if reply.fault.isSome then accepted reply.sink rest else c :: accepted reply.sink rest

/-- Each call that is refused leaves the receiver exactly as it was. -/
def Harmless (sink : σ) (calls : List κ) : Prop :=
  ∀ before c after, calls = before ++ c :: after →
    let reached := persist act sink before
    (act reached c).fault.isSome → (act reached c).sink = reached

/-- How much smaller the refused calls have made the receiver. -/
def forgotten (size : σ → Nat) (sink : σ) : List κ → Nat
  | [] => 0
  | c :: rest =>
    let reply := act sink c
    (if reply.fault.isSome then size sink - size reply.sink else 0)
      + forgotten size reply.sink rest

variable {act} {sink : σ} {c : κ} {rest : List κ} {size : σ → Nat}

theorem accepted_cons_of_none (h : (act sink c).fault = none) :
    accepted act sink (c :: rest) = c :: accepted act (act sink c).sink rest := by
  simp [accepted, h]

theorem accepted_cons_of_isSome (h : (act sink c).fault.isSome) :
    accepted act sink (c :: rest) = accepted act (act sink c).sink rest := if_pos h

theorem forgotten_cons_of_none (h : (act sink c).fault = none) :
    forgotten act size sink (c :: rest) = forgotten act size (act sink c).sink rest := by
  simp [forgotten, h]

theorem forgotten_cons_of_isSome (h : (act sink c).fault.isSome) :
    forgotten act size sink (c :: rest)
      = size sink - size (act sink c).sink + forgotten act size (act sink c).sink rest := by
  simp [forgotten, h]

theorem harmless_nil : Harmless act sink [] := fun _ _ _ h => by simp at h

theorem harmless_cons : Harmless act sink (c :: rest)
    ↔ ((act sink c).fault.isSome → (act sink c).sink = sink)
      ∧ Harmless act (act sink c).sink rest := by
  refine ⟨fun h => ⟨h [] c rest rfl, fun before d after hrest => ?_⟩, fun ⟨hfirst, hrest⟩ => ?_⟩
  · exact h (c :: before) d after (congrArg _ hrest)
  · intro before d after hcalls
    cases before with
    | nil =>
      obtain ⟨rfl, -⟩ := List.cons.inj hcalls
      exact hfirst
    | cons b before =>
      obtain ⟨rfl, hafter⟩ := List.cons.inj hcalls
      exact hrest before d after hafter

/-- **A receiver that counts what is open.** Accepted calls open one node more or close one, and a
refused call takes some off or changes nothing. -/
structure Keeps (act : σ → κ → Reply σ) (size : σ → Nat) (opens closes : κ → Bool) : Prop where
  accepted : ∀ {sink c}, (act sink c).fault = none →
    size (act sink c).sink + (closes c).toNat = size sink + (opens c).toNat
  refused : ∀ {sink c}, (act sink c).fault.isSome →
    (act sink c).sink = sink ∨ size (act sink c).sink < size sink

namespace Keeps

variable {opens closes : κ → Bool}

/-- **What was opened has been closed, or is open, or is forgotten.** -/
theorem size_persist (h : Keeps act size opens closes) (sink : σ) (calls : List κ) :
    size (persist act sink calls) + (Restconf.accepted act sink calls).countP closes
        + forgotten act size sink calls
      = size sink + (Restconf.accepted act sink calls).countP opens := by
  induction calls generalizing sink with
  | nil => rfl
  | cons c rest ih =>
    rw [persist_cons]
    have hrest := ih (act sink c).sink
    cases hfault : (act sink c).fault with
    | none =>
      have hstep := h.accepted hfault
      rw [accepted_cons_of_none hfault, forgotten_cons_of_none hfault, List.countP_cons,
        List.countP_cons]
      cases hopens : opens c <;> cases hcloses : closes c <;>
        simp [hopens, hcloses] at hstep ⊢ <;> omega
    | some fault =>
      have hrefused : (act sink c).fault.isSome := by rw [hfault]; rfl
      have hle : size (act sink c).sink ≤ size sink :=
        (h.refused hrefused).elim (fun heq => Nat.le_of_eq (congrArg size heq)) Nat.le_of_lt
      rw [accepted_cons_of_isSome hrefused, forgotten_cons_of_isSome hrefused]
      omega

/-- **Refusals are harmless if and only if nothing is forgotten.** -/
theorem harmless_iff (h : Keeps act size opens closes) (sink : σ) (calls : List κ) :
    Harmless act sink calls ↔ forgotten act size sink calls = 0 := by
  induction calls generalizing sink with
  | nil => exact iff_of_true harmless_nil rfl
  | cons c rest ih =>
    rw [harmless_cons, ih]
    cases hfault : (act sink c).fault with
    | none =>
      rw [forgotten_cons_of_none hfault]
      simp
    | some fault =>
      have hrefused : (act sink c).fault.isSome := by rw [hfault]; rfl
      rw [forgotten_cons_of_isSome hrefused, Nat.add_eq_zero_iff]
      refine and_congr_left' ⟨fun hsame => ?_, fun hsize _ => ?_⟩
      · rw [hsame rfl, Nat.sub_self]
      · exact (h.refused hrefused).resolve_right fun hlt => by omega

end Keeps

/-- **The count behind calls.** -/
structure Tallies (act : σ → κ → Reply σ) (size : σ → Nat) (opens closes : κ → Bool) (start : σ)
    (calls : List κ) : Prop where
  /-- Nodes that were opened have been closed, or are open, or are forgotten. -/
  counted : size (persist act start calls) + (accepted act start calls).countP closes
      + forgotten act size start calls
    = size start + (accepted act start calls).countP opens
  /-- Nothing is forgotten if and only if each refused call left everything as it was. -/
  harmless_iff : Harmless act start calls ↔ forgotten act size start calls = 0

theorem Keeps.tallies {opens closes : κ → Bool} (h : Keeps act size opens closes) (start : σ)
    (calls : List κ) : Tallies act size opens closes start calls :=
  ⟨h.size_persist start calls, h.harmless_iff start calls⟩

/-- If nothing was open at first, and as much has been closed as was opened, refusals were
harmless. -/
theorem Tallies.harmless {opens closes : κ → Bool} {start : σ} {calls : List κ}
    (h : Tallies act size opens closes start calls) (hstart : size start = 0)
    (hclosed : (accepted act start calls).countP opens = (accepted act start calls).countP closes) :
    Harmless act start calls :=
  h.harmless_iff.mpr (by have := h.counted; omega)

end Refusal

/-! ### Builders -/

/-- What `feedAll` leaves is the receiver behind its calls. -/
theorem TreeSink.snd_feedAll {σ : Type} [TreeSink σ] (sink : σ) (calls : List Call) :
    (feedAll sink calls).2 = persist call sink calls := by
  induction calls generalizing sink with
  | nil => rfl
  | cons c rest ih => exact ih _

/-- **Harmless refusals might as well not have been**: the accepted calls alone are all accepted,
and lead to the same. -/
theorem TreeSink.feed_accepted {σ : Type} [TreeSink σ] {sink : σ} {calls : List Call}
    (h : Harmless call sink calls) :
    feed sink (accepted call sink calls) = { sink := persist call sink calls } := by
  induction calls generalizing sink with
  | nil => rfl
  | cons c rest ih =>
    obtain ⟨hfirst, hrest⟩ := harmless_cons.mp h
    cases hcall : call sink c with
    | mk after fault =>
      rw [hcall] at hrest hfirst
      rw [persist_cons, hcall]
      cases fault with
      | none =>
        rw [accepted_cons_of_none (by rw [hcall]), feed_cons hcall, hcall]
        exact ih hrest
      | some fault =>
        obtain rfl := hfirst rfl
        rw [accepted_cons_of_isSome (by rw [hcall]; rfl), hcall]
        exact ih hrest

namespace Call

/-- Calls that open a node. -/
def opens : Call → Bool
  | enterContainer _ | enterList _ => true
  | _ => false

/-- Calls that close a node. -/
def closes : Call → Bool
  | exit _ => true
  | _ => false

/-- Calls that add a leaf or a leaf-list. -/
def isLeaf : Call → Bool
  | addLeaf .. | addLeafList .. => true
  | _ => false

/-- Nested calls close as many nodes as they open. -/
theorem IsNested.countP_eq {place : Place} {calls : List Call} {events : List Event}
    (h : IsNested place calls events) : calls.countP opens = calls.countP closes := by
  induction h with
  | nil => rfl
  | append _ _ ih ih' => rw [List.countP_append, List.countP_append, ih, ih']
  | leaf | leafList => rfl
  | container _ _ ih | list _ _ ih | entry _ _ ih =>
    simp [List.countP_cons, List.countP_append, ih, opens, closes]

/-- The events show every leaf. -/
theorem IsNested.filter_isLeaf {place : Place} {calls : List Call} {events : List Event}
    (h : IsNested place calls events) :
    (events.map Event.call).filter isLeaf = calls.filter isLeaf := by
  induction h with
  | nil => rfl
  | append _ _ ih ih' => rw [List.map_append, List.filter_append, List.filter_append, ih, ih']
  | leaf | leafList => rfl
  | container _ _ ih | list _ _ ih | entry _ _ ih =>
    simp [ih, Event.call, isLeaf]

end Call

namespace TreeBuilder

/-- A builder that has refused a call: a call that closes has taken the innermost open node off. -/
def afterRefusal (builder : TreeBuilder) : Call → TreeBuilder
  | .exit _ => { builder with frames := builder.frames.tail }
  | _ => builder

variable {builder : TreeBuilder}

theorem sink_attach_of_isSome {node : Node} (h : (builder.attach node).fault.isSome) :
    (builder.attach node).sink = builder := by
  obtain ⟨roots, frames⟩ := builder
  cases frames with
  | nil => cases h
  | cons frame rest =>
    cases frame with
    | list => rfl
    | container | entry => cases h

theorem sink_exit_of_isSome {kind : NodeKind} (h : (builder.exit kind).fault.isSome) :
    (builder.exit kind).sink = { builder with frames := builder.frames.tail } := by
  obtain ⟨roots, frames⟩ := builder
  cases frames with
  | nil => rfl
  | cons frame rest =>
    cases frame with
    | container name children =>
      cases kind with
      | container => exact sink_attach_of_isSome h
      | _ => rfl
    | list name entries =>
      cases kind with
      | list => exact sink_attach_of_isSome h
      | _ => rfl
    | entry children =>
      cases kind with
      | container =>
        cases rest with
        | nil => rfl
        | cons outer around =>
          cases outer with
          | list => cases h
          | container | entry => rfl
      | _ => cases rest <;> rfl

/-- **A refused call leaves the builder as it was**, if it does not close anything. -/
theorem sink_of_isSome {c : Call} (h : (TreeSink.call builder c).fault.isSome) :
    (TreeSink.call builder c).sink = builder.afterRefusal c := by
  cases c with
  | enterContainer name =>
    obtain ⟨roots, frames⟩ := builder
    rcases frames with _ | ⟨frame, rest⟩
    · cases h
    · cases frame <;> cases h
  | enterList name =>
    obtain ⟨roots, frames⟩ := builder
    rcases frames with _ | ⟨frame, rest⟩
    · cases h
    · cases frame with
      | list => rfl
      | container | entry => cases h
  | addLeaf | addLeafList => exact sink_attach_of_isSome h
  | exit kind => exact sink_exit_of_isSome h

theorem length_frames_of_places {after : TreeBuilder} (h : after.places = builder.places) :
    after.frames.length = builder.frames.length := by
  simpa [places] using congrArg List.length h

theorem length_frames_of_call {c : Call} {after : TreeBuilder}
    (h : TreeSink.call builder c = { sink := after }) :
    after.frames.length + c.closes.toNat = builder.frames.length + c.opens.toNat := by
  cases c with
  | enterContainer name =>
    obtain ⟨roots, frames⟩ := builder
    rcases frames with _ | ⟨frame, rest⟩
    · cases h
      rfl
    · cases frame <;> cases h <;> rfl
  | enterList name =>
    obtain ⟨roots, frames⟩ := builder
    rcases frames with _ | ⟨frame, rest⟩
    · cases h
      rfl
    · cases frame <;> cases h <;> rfl
  | addLeaf | addLeafList => exact length_frames_of_places (places_of_attach h).2
  | exit kind =>
    obtain ⟨place, -, hplaces⟩ := places_of_exit h
    simpa [places, Call.closes, Call.opens] using (congrArg List.length hplaces).symm

/-- A builder counts its open nodes. -/
theorem keeps : Keeps (TreeSink.call (σ := TreeBuilder)) (·.frames.length) Call.opens
    Call.closes where
  accepted {builder c} h := by
    cases hcall : TreeSink.call builder c with
    | mk after fault =>
      rw [hcall] at h
      cases h
      exact length_frames_of_call hcall
  refused {builder c} h := by
    rw [sink_of_isSome h]
    cases c with
    | exit kind =>
      obtain ⟨roots, frames⟩ := builder
      cases frames with
      | nil => exact Or.inl rfl
      | cons frame rest => exact Or.inr (Nat.lt_succ_self rest.length)
    | _ => exact Or.inl rfl

/-- **What a builder does with refused calls.** -/
structure Accounts (calls : List Call) : Prop where
  /-- A refused call changes nothing, but a closing call takes the innermost open node off. -/
  refused : ∀ (builder : TreeBuilder) c, (TreeSink.call builder c).fault.isSome →
    (TreeSink.call builder c).sink = builder.afterRefusal c
  tallies : Tallies TreeSink.call (·.frames.length) Call.opens Call.closes ({} : TreeBuilder) calls
  /-- If refusals are harmless, and only then, what is finished has every node closed that was
  opened, and it has every leaf. -/
  finished : ∀ nodes, (TreeSink.feedAll ({} : TreeBuilder) calls).2.finish = .ok nodes →
    let taken := accepted TreeSink.call ({} : TreeBuilder) calls
    let shown := (Walk.start nodes).toList
    (Harmless TreeSink.call ({} : TreeBuilder) calls ↔ ∃ events, Call.IsNested .row taken events)
      ∧ (Harmless TreeSink.call ({} : TreeBuilder) calls → Call.IsNested .row taken shown
        ∧ (shown.map Event.call).filter Call.isLeaf = taken.filter Call.isLeaf)

theorem isNested_of_harmless {calls : List Call} {nodes : List Node}
    (hfinish : (persist TreeSink.call ({} : TreeBuilder) calls).finish = .ok nodes)
    (h : Harmless TreeSink.call ({} : TreeBuilder) calls) :
    Call.IsNested .row (accepted TreeSink.call ({} : TreeBuilder) calls)
      (Walk.start nodes).toList := by
  have hbuilds : Builds {} (accepted TreeSink.call ({} : TreeBuilder) calls) nodes :=
    builds_of_feed_eq (TreeSink.feed_accepted h) hfinish
  obtain ⟨hnested, hwalk⟩ := builds_iff_isNested (accepted TreeSink.call ({} : TreeBuilder) calls)
  obtain ⟨events, hevents⟩ := hnested.mp ⟨nodes, hbuilds⟩
  rwa [hwalk nodes events hbuilds hevents]

/-- **A builder forgets what a refused closing call takes off, and nothing else.** -/
theorem accounts (calls : List Call) : Accounts calls where
  refused _ _ := sink_of_isSome
  tallies := keeps.tallies {} calls
  finished nodes hfinish := by
    rw [TreeSink.snd_feedAll] at hfinish
    have hnested := isNested_of_harmless hfinish
    exact ⟨⟨fun h => ⟨_, hnested h⟩,
        fun ⟨events, hevents⟩ => (keeps.tallies {} calls).harmless rfl hevents.countP_eq⟩,
      fun h => ⟨hnested h, (hnested h).filter_isLeaf⟩⟩

end TreeBuilder

end Restconf
