import Mathlib.Data.List.Nodup
import Restconf.Engine.Sharing
import Restconf.Proofs.Engine.Stream

/-!
# The order of announcements

Clients that share a datastore commit their edits one after another, and announce each of them some
time later. What can be said of the order of the announcements?

## What holds, and what does not

The lock on the datastore is let go of before an edit is announced. So another client may commit and
announce an edit in between, and then the later edit is announced first. This is all that can
happen: an edit that is committed when another one has been announced is announced behind it. A
client waits for its own edits, so these are announced in order, and where no two edits are under
way at a time, all are.

## Places

A committed edit is known by its place. That the places of the announced edits are ascending is what
it means that they were announced in the order in which the datastore took them.

## Main definitions

* `SharedDatastore.Consistent` — what holds of a shared datastore beside the events of a run
* `SharedDatastore.IsOrderly` — what is promised of the announcements

## Main results

* `SharedDatastore.Consistent.exists_run_execute` — a client that executes a request takes these
  steps
* `SharedDatastore.Run.consistent` — at every moment of every run
* `SharedDatastore.Run.announcesInOrder` — edits that do not overlap are announced in order
* `SharedDatastore.announced_reversed` — two edits that overlap, announced the other way round
-/

namespace Restconf

/-- The announcement of an edit. -/
def CommittedEdit.announcement (edit : CommittedEdit) : Notification :=
  Datastore.announcement edit.intent edit.identifier

/-- The nodes behind an edit. -/
def CommittedEdit.apply (nodes : List Node) (edit : CommittedEdit) : Except Fault (List Node) :=
  Datastore.edit edit.intent edit.identifier edit.payload nodes

/-- The place of an edit that was committed. -/
def SharingEvent.committed? : SharingEvent → Option Nat
  | committed place => some place
  | announced _ => none

/-- The place of an edit that was announced. -/
def SharingEvent.announced? : SharingEvent → Option Nat
  | committed _ => none
  | announced place => some place

namespace SharedDatastore

/-- The announcements that were sent, in order. -/
def log (shared : SharedDatastore) : List Notification :=
  (shared.announced.filterMap fun place => shared.committed[place]?).map CommittedEdit.announcement

variable {shared next start last : SharedDatastore} {event : Option SharingEvent}
  {events : List SharingEvent} {nodes : List Node} {client other : ClientId} {place : Nat}

/-! ### Edits and their places -/

theorem isOf_append {edit : CommittedEdit} (h : place < shared.committed.length) (store : Datastore)
    (client : ClientId) :
    isOf { shared with store, committed := shared.committed ++ [edit] } client place
      = shared.isOf client place := by
  rw [isOf, isOf, List.getElem?_append_left h]

theorem isOf_concat (shared : SharedDatastore) (edit : CommittedEdit) (store : Datastore)
    (client : ClientId) :
    isOf { shared with store, committed := shared.committed ++ [edit] } client
        shared.committed.length = decide (edit.client = client) := by
  rw [isOf, List.getElem?_concat_length, Option.any_some]

theorem mem_underWay : place ∈ shared.underWay client
    ↔ place < shared.committed.length ∧ shared.isOf client place = true
      ∧ place ∉ shared.announced := by
  simp [underWay]

/-! ### What holds at every moment -/

/-- What is known of the announced edits, by their places. -/
structure Consistent (nodes : List Node) (events : List SharingEvent) (shared : SharedDatastore) :
    Prop where
  /-- The committed edits, taken one after another, have made the nodes what they are. -/
  taken : shared.committed.foldlM CommittedEdit.apply nodes = .ok shared.store.nodes
  /-- Every edit is announced at most once, after it was committed. -/
  once : shared.announced.Nodup
  known : ∀ place ∈ shared.announced, place < shared.committed.length
  /-- What was sent are the announcements of these edits. -/
  sent : shared.store.announcements = shared.log.foldl Channel.send (.ofCapacity 64)
  /-- The events show all of this. -/
  committed : events.filterMap SharingEvent.committed? = List.range shared.committed.length
  announced : events.filterMap SharingEvent.announced? = shared.announced
  /-- The edits of a client are announced in the order in which they were committed, and at most one
  of them is still under way. -/
  ofClient : ∀ client, (List.range shared.committed.length).filter (shared.isOf client)
    = shared.announced.filter (shared.isOf client) ++ shared.underWay client
  single : ∀ client, (shared.underWay client).length ≤ 1

theorem consistent_start (nodes : List Node) : Consistent nodes [] { store := { nodes } } where
  taken := rfl
  once := .nil
  known _ h := absurd h List.not_mem_nil
  sent := rfl
  committed := rfl
  announced := rfl
  ofClient _ := rfl
  single _ := Nat.zero_le 1

section Steps

/-- What a client has under way behind the commitment of an edit. -/
theorem Consistent.underWay_commit (h : Consistent nodes events shared) (edit : CommittedEdit)
    (store : Datastore) (client : ClientId) :
    underWay { shared with store, committed := shared.committed ++ [edit] } client
      = shared.underWay client
        ++ if edit.client = client then [shared.committed.length] else [] := by
  have fresh : shared.committed.length ∉ shared.announced := by
    intro hmem
    exact absurd (h.known _ hmem) (Nat.lt_irrefl _)
  simp only [underWay, List.length_append, List.length_singleton, List.range_succ,
    List.filter_append]
  congr 1
  · refine List.filter_congr fun place hplace => ?_
    rw [isOf_append (List.mem_range.mp hplace)]
  · by_cases hclient : edit.client = client <;> simp [isOf_concat, hclient, fresh]

/-- An edit that is committed comes last among those of its client. -/
theorem Consistent.commit (h : Consistent nodes events shared) {client : ClientId} {intent : Intent}
    {identifier : Identifier} {payload : List Node} {store : Datastore}
    (idle : shared.underWay client = [])
    (hcommit : shared.store.commit intent identifier payload = .ok store) :
    Consistent nodes (events ++ [.committed shared.committed.length])
      { shared with
        store
        committed := shared.committed ++ [{ client, intent, identifier, payload }] } := by
  obtain ⟨after, hafter, hstore⟩ := bind_eq_ok_iff.mp hcommit
  obtain rfl := Except.ok.inj hstore
  have hannounced : shared.announced.filterMap
        (fun place => (shared.committed ++ [⟨client, intent, identifier, payload⟩])[place]?)
      = shared.announced.filterMap fun place => shared.committed[place]? := by
    refine List.filterMap_congr fun place hplace => ?_
    rw [List.getElem?_append_left (h.known place hplace)]
  refine ⟨?_, h.once, fun place hplace => ?_, ?_, ?_, ?_, fun other => ?_, fun other => ?_⟩
  · rw [List.foldlM_append, h.taken]
    show (CommittedEdit.apply shared.store.nodes _ >>= pure) = _
    rw [bind_pure]
    exact hafter
  · have := h.known place hplace
    rw [List.length_append]
    omega
  · rw [log, hannounced]
    exact h.sent
  · rw [List.filterMap_append, h.committed, List.length_append]
    exact List.range_succ.symm
  · rw [List.filterMap_append, h.announced]
    exact List.append_nil _
  · have hbefore : (List.range shared.committed.length).filter
          (isOf { shared with
            store := { shared.store with nodes := after }
            committed := shared.committed ++ [⟨client, intent, identifier, payload⟩] } other)
        = (List.range shared.committed.length).filter (shared.isOf other) :=
      List.filter_congr fun place hplace => isOf_append (List.mem_range.mp hplace) _ other
    have hsent : shared.announced.filter
          (isOf { shared with
            store := { shared.store with nodes := after }
            committed := shared.committed ++ [⟨client, intent, identifier, payload⟩] } other)
        = shared.announced.filter (shared.isOf other) :=
      List.filter_congr fun place hplace => isOf_append (h.known place hplace) _ other
    rw [h.underWay_commit, List.length_append, List.length_singleton, List.range_succ,
      List.filter_append, hbefore, hsent, h.ofClient other, List.append_assoc]
    by_cases hclient : client = other <;> simp [isOf_concat, hclient]
  · rw [h.underWay_commit]
    by_cases hclient : client = other
    · subst hclient
      rw [idle, if_pos rfl]
      exact Nat.le_refl 1
    · rw [if_neg hclient, List.append_nil]
      exact h.single other

/-- What a client has under way behind the announcement of an edit. -/
theorem underWay_announce (shared : SharedDatastore) (place : Nat) (store : Datastore)
    (client : ClientId) :
    underWay { shared with store, announced := shared.announced ++ [place] } client
      = (shared.underWay client).filter (· ≠ place) := by
  simp only [underWay, List.filter_filter]
  refine List.filter_congr fun other _ => ?_
  have hof : isOf { shared with store, announced := shared.announced ++ [place] } client other
      = shared.isOf client other := rfl
  rw [hof]
  by_cases hplace : other = place <;> simp [hplace]

/-- An edit that is announced is the one that its client has under way. -/
theorem Consistent.announce (h : Consistent nodes events shared) {edit : CommittedEdit}
    (found : shared.committed[place]? = some edit) (fresh : place ∉ shared.announced) :
    Consistent nodes (events ++ [.announced place])
      { shared with
        store := shared.store.announce edit.intent edit.identifier
        announced := shared.announced ++ [place] } := by
  have known : place < shared.committed.length := (List.getElem?_eq_some_iff.mp found).1
  have isOf_edit (client : ClientId) :
      shared.isOf client place = decide (edit.client = client) := by
    rw [isOf, found, Option.any_some]
  refine ⟨h.taken, ?_, ?_, ?_, ?_, ?_, fun client => ?_, fun client => ?_⟩
  · exact List.concat_eq_append ▸ List.Nodup.concat fresh h.once
  · intro other hother
    rcases List.mem_append.mp hother with hother | hother
    · exact h.known other hother
    · rwa [List.mem_singleton.mp hother]
  · rw [log, List.filterMap_append, List.map_append, List.foldl_append]
    show (shared.store.announcements.send _) = _
    rw [h.sent]
    simp [found, log, CommittedEdit.announcement]
  · rw [List.filterMap_append, h.committed]
    exact List.append_nil _
  · rw [List.filterMap_append, h.announced]
    rfl
  · rw [underWay_announce, List.filter_append, List.append_assoc]
    refine (h.ofClient client).trans (congrArg _ ?_)
    show shared.underWay client
      = [place].filter (shared.isOf client) ++ (shared.underWay client).filter (· ≠ place)
    by_cases hclient : edit.client = client
    · have hmem : place ∈ shared.underWay client :=
        mem_underWay.mpr ⟨known, by rw [isOf_edit, decide_eq_true hclient], fresh⟩
      obtain ⟨only, honly⟩ : ∃ only, shared.underWay client = [only] :=
        List.length_eq_one_iff.mp (Nat.le_antisymm (h.single client) (List.length_pos_of_mem hmem))
      rw [honly, List.mem_singleton] at hmem
      subst hmem
      simp [honly, isOf_edit, hclient]
    · have hnot : place ∉ shared.underWay client := by
        intro hmem
        have := (mem_underWay.mp hmem).2.1
        rw [isOf_edit] at this
        exact hclient (of_decide_eq_true this)
      have hkept : (shared.underWay client).filter (· ≠ place) = shared.underWay client := by
        refine List.filter_eq_self.mpr fun other hother => ?_
        simpa using ne_of_mem_of_not_mem hother hnot
      rw [hkept]
      simp [isOf_edit, hclient]
  · rw [underWay_announce]
    exact Nat.le_trans (List.length_filter_le ..) (h.single client)

theorem Step.consistent (h : Step shared event next) (before : Consistent nodes events shared) :
    Consistent nodes (events ++ event.toList) next := by
  cases h with
  | query => exact (List.append_nil events).symm ▸ before
  | refuse => exact (List.append_nil events).symm ▸ before
  | commit idle h => exact before.commit idle h
  | announce h fresh => exact before.announce h fresh

end Steps

/-- **At every moment of every run, what was announced are edits that were committed.** -/
theorem Run.consistent (h : Run { store := { nodes } } events last) :
    Consistent nodes events last := by
  induction h with
  | refl => exact consistent_start nodes
  | tail _ step ih => exact step.consistent ih

/-- Where every item has a value, the values are as many as the items. -/
theorem map_some_filterMap {α β : Type} {f : α → Option β} {l : List α}
    (h : ∀ a ∈ l, (f a).isSome = true) : (l.filterMap f).map some = l.map f := by
  induction l with
  | nil => rfl
  | cons a l ih =>
    obtain ⟨b, hb⟩ := Option.isSome_iff_exists.mp (h a List.mem_cons_self)
    rw [List.filterMap_cons_some hb, List.map_cons, List.map_cons, hb,
      ih fun c hc => h c (List.mem_cons_of_mem a hc)]

/-! ### One client -/

/-- **A client that executes a request takes these steps**, one behind the other. -/
theorem Consistent.exists_run_execute (h : Consistent nodes events shared)
    (idle : shared.underWay client = []) (request : Request) :
    ∃ shown last, Run shared shown last
      ∧ last.store = (TreeEngine.execute shared.store request).2 := by
  obtain ⟨operation, identifier, payload⟩ := request
  cases operation with
  | query => exact ⟨_, _, .tail (.refl shared) (.query shared), rfl⟩
  | edit intent =>
    cases hcommit : shared.store.commit intent identifier payload with
    | error fault =>
      refine ⟨_, _, .tail (.refl shared) (.refuse hcommit), ?_⟩
      simp only [TreeEngine.execute, hcommit]
    | ok store =>
      have fresh : shared.committed.length ∉ shared.announced := by
        intro hmem
        exact absurd (h.known _ hmem) (Nat.lt_irrefl _)
      have committed := (Run.refl shared).tail (.commit idle hcommit)
      refine ⟨_, _, committed.tail (.announce List.getElem?_concat_length fresh), ?_⟩
      simp only [TreeEngine.execute, hcommit]

/-! ### The order of a run -/

/-- A run has been through the states behind its events. -/
theorem Run.exists_before {before behind : List SharingEvent} (h : Run start events last)
    (hevents : events = before ++ behind) : ∃ mid, Run start before mid := by
  induction h generalizing behind with
  | refl =>
    rw [(List.append_eq_nil_iff.mp hevents.symm).1]
    exact ⟨start, .refl start⟩
  | @tail b c shown event run step ih =>
    cases event with
    | none => exact ih ((List.append_nil shown).symm.trans hevents)
    | some e =>
      rcases List.eq_nil_or_concat behind with rfl | ⟨rest, e', rfl⟩
      · rw [List.append_nil] at hevents
        exact ⟨c, hevents ▸ run.tail step⟩
      · rw [List.concat_eq_append, ← List.append_assoc] at hevents
        exact ih (List.append_inj' hevents rfl).1

/-- **An edit that is committed when another one has been announced is announced behind it.** -/
theorem Run.announced_behind (h : Run { store := { nodes } } events last)
    {before behind : List SharingEvent} {first second : Nat} (hevents : events = before ++ behind)
    (hfirst : .announced first ∈ before) (hsecond : .committed second ∈ behind)
    (announced : second ∈ last.announced) :
    ∃ earlier later, last.announced = earlier ++ later ∧ first ∈ earlier ∧ second ∈ later := by
  obtain ⟨mid, hmid⟩ := h.exists_before hevents
  have whole := h.consistent
  have half := hmid.consistent
  have hannounced := whole.announced
  have hcommitted := whole.committed
  rw [hevents, List.filterMap_append, half.announced] at hannounced
  rw [hevents, List.filterMap_append, half.committed] at hcommitted
  refine ⟨_, _, hannounced.symm, ?_, ?_⟩
  · rw [← half.announced]
    exact List.mem_filterMap.mpr ⟨_, hfirst, rfl⟩
  · -- what was announced before was committed before, and the second edit was not
    have late : mid.committed.length ≤ second := by
      have hnodup := List.nodup_append.mp (hcommitted ▸ List.nodup_range)
      refine Nat.le_of_not_lt fun hlt => ?_
      exact hnodup.2.2 second (List.mem_range.mpr hlt) second
        (List.mem_filterMap.mpr ⟨_, hsecond, rfl⟩) rfl
    rw [← hannounced] at announced
    rcases List.mem_append.mp announced with hearly | hlate
    · exact absurd (half.known second hearly) (Nat.not_lt_of_le late)
    · exact hlate

/-- The edits were announced in the order in which they were committed. -/
def InCommitOrder (shared : SharedDatastore) : Prop := shared.announced.Pairwise (· < ·)

/-- At most one edit is under way at any moment of a run. -/
def IsAlone (events : List SharingEvent) : Prop :=
  ∀ before behind, events = before ++ behind →
    (before.filterMap SharingEvent.committed?).length
      ≤ (before.filterMap SharingEvent.announced?).length + 1

/-- **Where no two edits are under way at a time, they are announced in the order in which they were
committed.** -/
theorem Run.announced_of_isAlone (h : Run { store := { nodes } } events last)
    (alone : IsAlone events) : last.announced = List.range last.announced.length := by
  induction h with
  | refl => rfl
  | @tail b c shown event run step ih =>
    have earlier := ih fun before behind hevents =>
      alone before (behind ++ event.toList) (by rw [hevents, List.append_assoc])
    cases step with
    | query => exact earlier
    | refuse => exact earlier
    | commit => exact earlier
    | @announce place edit found fresh =>
      have consistent := run.consistent
      have hone := alone shown _ rfl
      rw [consistent.committed, consistent.announced, List.length_range] at hone
      have known : place < b.committed.length := (List.getElem?_eq_some_iff.mp found).1
      have hplace : place = b.announced.length := by
        rw [earlier, List.mem_range] at fresh
        omega
      show b.announced ++ [place] = List.range (b.announced ++ [place]).length
      rw [List.length_append, List.length_singleton, List.range_succ, ← earlier, hplace]

/-- What is promised of the announcements of a run. -/
structure IsOrderly (nodes : List Node) (events : List SharingEvent) (last : SharedDatastore) :
    Prop where
  /-- Every edit is announced at most once, behind its commitment, and what was sent are the
  announcements of committed edits. -/
  consistent : Consistent nodes events last
  /-- An edit that is committed when another one has been announced is announced behind it. -/
  behind : ∀ before behind first second, events = before ++ behind → .announced first ∈ before →
    .committed second ∈ behind → second ∈ last.announced →
      ∃ earlier later, last.announced = earlier ++ later ∧ first ∈ earlier ∧ second ∈ later
  /-- So the edits of one client are announced in the order in which they were committed. -/
  ofClient : ∀ client, (last.announced.filter (last.isOf client)).Pairwise (· < ·)
  /-- And so are all edits if no two are under way at a time. -/
  alone : IsAlone events → last.announced = List.range last.announced.length
  /-- A listener that has not fallen behind finds the announcements in the order of sending. -/
  received : ∀ position place edit, last.announced[position]? = some place →
    last.committed[place]? = some edit → last.announced.length ≤ position + 64 →
      last.store.announcements.receive position = .item edit.announcement

/-- The announcement at a position is that of the edit that was announced there. -/
theorem Consistent.getElem?_log (h : Consistent nodes events shared) {position : Nat}
    {edit : CommittedEdit} (hplace : shared.announced[position]? = some place)
    (hedit : shared.committed[place]? = some edit) :
    shared.log.length = shared.announced.length
      ∧ shared.log[position]? = some edit.announcement := by
  have hall : ∀ place ∈ shared.announced, (shared.committed[place]?).isSome = true := by
    intro place hmem
    rw [List.getElem?_eq_getElem (h.known place hmem)]
    rfl
  have hsome := map_some_filterMap hall
  constructor
  · have hlength := congrArg List.length hsome
    rw [List.length_map, List.length_map] at hlength
    rw [log, List.length_map, hlength]
  · have hitem := congrArg (·[position]?) hsome
    simp only [List.getElem?_map, hplace, Option.map_some, hedit, Option.map_eq_some_iff,
      Option.some.injEq, exists_eq_right] at hitem
    rw [log, List.getElem?_map, hitem, Option.map_some]

/-- A listener that has not fallen behind finds the announcements in the order of sending. -/
theorem Run.received (h : Run { store := { nodes } } events last) (position place : Nat)
    (edit : CommittedEdit) (hplace : last.announced[position]? = some place)
    (hedit : last.committed[place]? = some edit)
    (keepsUp : last.announced.length ≤ position + 64) :
    last.store.announcements.receive position = .item edit.announcement := by
  obtain ⟨hlength, hitem⟩ := h.consistent.getElem?_log hplace hedit
  have carries := (Channel.carries_ofCapacity 64).foldl_send last.log
  have capacity := Datastore.capacity_announcements nodes
  rw [List.nil_append] at carries
  rw [h.consistent.sent, carries.receive_eq, (Channel.capacity_foldl_send _ _).1, hlength, hitem]
  exact if_neg (by rw [capacity]; omega)

/-- **Edits that do not overlap are announced in the order in which they were committed.** -/
theorem Run.announcesInOrder (h : Run { store := { nodes } } events last) :
    IsOrderly nodes events last where
  consistent := h.consistent
  behind _ _ _ _ hevents hfirst hsecond announced :=
    h.announced_behind hevents hfirst hsecond announced
  ofClient client := by
    have hsorted := List.pairwise_lt_range.filter (last.isOf client)
      (l := List.range last.committed.length)
    rw [h.consistent.ofClient client] at hsorted
    exact (List.pairwise_append.mp hsorted).1
  alone := h.announced_of_isAlone
  received := h.received

/-! ### Edits that overlap -/

/-- Two clients, one behind the other, and then two edits of theirs that overlap. -/
theorem Run.announcesInOrder_clients :
    ∃ last : SharedDatastore,
      Run { store := { nodes := [] } } [.committed 0, .announced 0, .committed 1, .committed 2,
        .announced 2, .announced 1] last
      ∧ IsOrderly [] [.committed 0, .announced 0, .committed 1, .committed 2, .announced 2,
        .announced 1] last
      ∧ last.announced = [0, 2, 1] := by
  let top : Identifier := { elements := [⟨"top", none, .single, []⟩] }
  have created := (Run.refl { store := { nodes := [] } }).tail
    (@Step.commit _ 0 .create top [.leaf "l" "1"] _ rfl rfl)
  have announced := created.tail (@Step.announce _ 0 _ rfl (by decide))
  have replaced := announced.tail (@Step.commit _ 1 .replace top [.leaf "l" "2"] _ rfl rfl)
  have deleted := replaced.tail (@Step.commit _ 0 .delete top [] _ rfl rfl)
  have announcedSecond := deleted.tail (@Step.announce _ 2 _ rfl (by decide))
  have announcedFirst := announcedSecond.tail (@Step.announce _ 1 _ rfl (by decide))
  exact ⟨_, announcedFirst, announcedFirst.announcesInOrder, rfl⟩

/-- One client creates a container and another one deletes it. The datastore takes the creation
first and ends empty, and a listener hears of the creation last. -/
theorem announced_reversed :
    let top : Identifier := { elements := [⟨"top", none, .single, []⟩] }
    ∃ last : SharedDatastore,
      Run {} [.committed 0, .committed 1, .announced 1, .announced 0] last
      ∧ ¬ InCommitOrder last
      ∧ last.committed.map (fun edit => (edit.client, edit.intent)) = [(0, .create), (1, .delete)]
      ∧ last.store.nodes = []
      ∧ last.store.announcements.receive 0 = .item (Datastore.announcement .delete top)
      ∧ last.store.announcements.receive 1 = .item (Datastore.announcement .create top) := by
  intro top
  have created := (Run.refl {}).tail
    (@Step.commit _ 0 .create top [.leaf "l" "1"] _ rfl rfl)
  have deleted := created.tail (@Step.commit _ 1 .delete top [] _ rfl rfl)
  have announcedSecond := deleted.tail (@Step.announce _ 1 _ rfl (by decide))
  have announcedFirst := announcedSecond.tail (@Step.announce _ 0 _ rfl (by decide))
  have heard := announcedFirst.received
  refine ⟨_, announcedFirst, ?_, rfl, rfl, heard 0 1 _ rfl rfl ?_, heard 1 0 _ rfl rfl ?_⟩
  · unfold InCommitOrder
    decide
  · decide
  · decide

end SharedDatastore

end Restconf
