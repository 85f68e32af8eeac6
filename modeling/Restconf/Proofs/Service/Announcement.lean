import Mathlib.Data.List.Forall2
import Restconf.Proofs.Engine.Stream
import Restconf.Proofs.Service.Run

/-!
# Announcements

A datastore announces the edits that were made to it, and nothing else: one announcement for each,
in order, whatever else is asked of it in between.

## What can be relied on

The text of an announcement is the data path of the identifier that was edited. Identifiers that
come from a URI are read back from their data path without change, so a listener that knows the
grammar of paths has the same elements in its hands as the engine had. And because an edit that
fails is not announced, and changes nothing either, the announcements tell all that has happened.

## What was sent

A channel does not keep what was sent on it for good. So a run is read call by call: behind each
call stands what a listener receives that had received everything before.

## Main definitions

* `Service.successfulEdits` — the calls of a run that edit and succeed
* `Service.announced` — what the engine sends in a run
* `Service.IsAnnouncementOf` — a notification tells of a call
* `Service.IsMirrored` — the promise

## Main results

* `Service.perform_announces` — a call changes nothing, or it is announced
* `Service.isMirrored` — the announcements mirror the successful edits
-/

namespace Restconf

namespace ServiceCall

variable {ε : Type} [TreeEngine ε]

/-- A call succeeds. -/
def succeeds (config : ServiceConfig) (engine : ε) : ServiceCall → Bool
  | read uri => (Service.read config engine uri).1.isOk
  | create uri body => (Service.create config engine uri body).1.isOk
  | replace uri body => (Service.replace config engine uri body).1.isOk
  | delete uri => (Service.delete config engine uri).1.isOk

/-- A call edits, and succeeds. -/
def hasEdited (config : ServiceConfig) (engine : ε) (call : ServiceCall) : Bool :=
  call.intent?.isSome && call.succeeds config engine

end ServiceCall

namespace Service

variable {config : ServiceConfig} {store : Datastore}

/-! ### Announcements of a run -/

/-- The calls of a run that edit and succeed, in order. -/
def successfulEdits (config : ServiceConfig) (store : Datastore) :
    List ServiceCall → List ServiceCall
  | [] => []
  | call :: calls =>
    let later := successfulEdits config (call.perform config store) calls
    if call.hasEdited config store then call :: later else later

/-- What the engine sends in a run, in order. -/
def announced (config : ServiceConfig) (store : Datastore) : List ServiceCall → List Notification
  | [] => []
  | call :: calls =>
    let next := call.perform config store
    next.announcements.since store.announcements.sent ++ announced config next calls

/-- A notification tells of a call: what it does, and a path from which the elements of its
identifier can be read. -/
structure IsAnnouncementOf (config : ServiceConfig) (call : ServiceCall)
    (notification : Notification) : Prop where
  kind : notification.kind = .yang
  data : ∃ intent target found parsed, call.intent? = some intent
    ∧ notification.data = .object [("data-change", .object [("operation", .string intent.label),
        ("target", .string target)])]
    ∧ identifier config call.uri = .ok found ∧ Identifier.ofDataPath target = .ok parsed
    ∧ parsed.elements = found.elements

/-- **The announcement of an edit tells of the call that has made it.** -/
theorem isAnnouncementOf_announcement {call : ServiceCall} {intent : Intent} {found : Identifier}
    (hintent : call.intent? = some intent) (hfound : identifier config call.uri = .ok found) :
    IsAnnouncementOf config call (Datastore.announcement intent found) where
  kind := rfl
  data := by
    have wellFormed := Identifier.isWellFormedPath_of_ofUri (identifier_eq_ok_iff.mp hfound).1
    have hread := Identifier.ofDataPath_display wellFormed found.root
    exact ⟨intent, found.display, found, _, hintent, rfl, hfound, hread, rfl⟩

/-! ### One call -/

/-- **A call changes nothing, or it edits, succeeds and is announced.** -/
theorem perform_announces (config : ServiceConfig) (store : Datastore) (call : ServiceCall) :
    call.hasEdited config store = false ∧ call.perform config store = store
      ∨ call.hasEdited config store = true ∧ ∃ intent found after, call.intent? = some intent
          ∧ identifier config call.uri = .ok found
          ∧ call.perform config store
            = ({ store with nodes := after } : Datastore).announce intent found := by
  have hedit {intent : Intent} {uri : String} {body : Option Json} :
      (edit config store intent uri body).1.isOk = false
          ∧ (edit config store intent uri body).2 = store
        ∨ (edit config store intent uri body).1.isOk = true ∧ ∃ found after,
          identifier config uri = .ok found ∧ (edit config store intent uri body).2
            = ({ store with nodes := after } : Datastore).announce intent found := by
    rcases edit_cases config store intent uri body with
      ⟨fault, h⟩ | ⟨found, -, after, hfound, -, -, h⟩
    · exact Or.inl (by rw [h]; exact ⟨rfl, rfl⟩)
    · exact Or.inr (by rw [h]; exact ⟨rfl, found, after, hfound, rfl⟩)
  cases call with
  | read uri =>
    left
    refine ⟨rfl, ?_⟩
    show (read config store uri).2 = store
    rw [read_eq]
  | create uri body =>
    exact hedit.imp_right fun ⟨h, found, after, hafter⟩ => ⟨h, .create, found, after, rfl, hafter⟩
  | replace uri body =>
    exact hedit.imp_right fun ⟨h, found, after, hafter⟩ => ⟨h, .replace, found, after, rfl, hafter⟩
  | delete uri =>
    exact hedit.imp_right fun ⟨h, found, after, hafter⟩ => ⟨h, .delete, found, after, rfl, hafter⟩

/-! ### Runs -/

/-- The announcements of a run, from any datastore whose channel has room. -/
theorem announced_run (config : ServiceConfig) (calls : List ServiceCall)
    {items : List Notification} (carries : store.announcements.Carries items)
    (room : 0 < store.announcements.capacity) :
    List.Forall₂ (IsAnnouncementOf config) (successfulEdits config store calls)
        (announced config store calls)
      ∧ (run config store calls).announcements
        = (announced config store calls).foldl Channel.send store.announcements := by
  induction calls generalizing store items with
  | nil => exact ⟨.nil, rfl⟩
  | cons call calls ih =>
    rw [successfulEdits, announced]
    show _ ∧ (run config (call.perform config store) calls).announcements = _
    rcases perform_announces config store call with
      ⟨hnot, hsame⟩ | ⟨hedited, intent, found, after, hintent, hfound, hperform⟩
    · have hnothing : store.announcements.since store.announcements.sent = [] := by
        rw [carries.since_eq (by rw [carries.sent]; omega), carries.sent, List.drop_length]
      rw [hsame, hnot, hnothing, if_neg Bool.false_ne_true, List.nil_append]
      exact ih carries room
    · have hsent : (call.perform config store).announcements
          = store.announcements.send (Datastore.announcement intent found) := by
        rw [hperform]
        rfl
      have hcarries := carries.send (Datastore.announcement intent found)
      have hone : (call.perform config store).announcements.since store.announcements.sent
          = [Datastore.announcement intent found] := by
        have keepsUp : (items ++ [Datastore.announcement intent found]).length
            ≤ items.length + store.announcements.capacity := by
          rw [List.length_append, List.length_singleton]
          omega
        rw [hsent, carries.sent, hcarries.since_eq keepsUp, List.drop_left]
      obtain ⟨hlater, hchannel⟩ := ih (hsent ▸ hcarries) (hsent ▸ room)
      rw [hedited, hone, if_pos rfl, List.singleton_append, List.foldl_cons, hchannel, hsent]
      exact ⟨.cons (isAnnouncementOf_announcement hintent hfound) hlater, rfl⟩

/-- What is promised of a run from any nodes, and of what was sent in it. -/
structure IsMirrored (config : ServiceConfig) (nodes : List Node) (calls : List ServiceCall)
    (log : List Notification) : Prop where
  /-- Every successful edit is announced once, in the order of the edits, and nothing else is. -/
  announced : List.Forall₂ (IsAnnouncementOf config) (successfulEdits config { nodes } calls) log
  /-- What was sent on the channel is this, and nothing else. -/
  channel : (run config ({ nodes } : Datastore) calls).announcements
    = log.foldl Channel.send (.ofCapacity 64)
  /-- So a listener that has not fallen behind finds the next of these notifications. -/
  received : ∀ position notification, log[position]? = some notification →
    log.length ≤ position + 64 →
      (run config ({ nodes } : Datastore) calls).announcements.receive position
        = .item notification
  /-- A call that reads or fails leaves the datastore exactly as it was. -/
  unchanged : ∀ earlier call later, calls = earlier ++ call :: later →
    (call.intent? = none
      ∨ call.succeeds config (run config ({ nodes } : Datastore) earlier) = false) →
      run config ({ nodes } : Datastore) (earlier ++ [call])
        = run config ({ nodes } : Datastore) earlier

/-- **The announcements mirror the successful edits.** -/
theorem isMirrored (config : ServiceConfig) (nodes : List Node) (calls : List ServiceCall) :
    IsMirrored config nodes calls (announced config { nodes } calls) := by
  have fresh : ({ nodes } : Datastore).announcements.Carries [] := Channel.carries_ofCapacity 64
  have room := Datastore.capacity_announcements nodes
  obtain ⟨hedits, hchannel⟩ := announced_run config calls fresh (by rw [room]; decide)
  refine ⟨hedits, hchannel, fun position notification hitem keepsUp => ?_,
    fun earlier call later _ hcall => ?_⟩
  · have carries := fresh.foldl_send (announced config { nodes } calls)
    rw [List.nil_append] at carries
    rw [hchannel, carries.receive_eq, (Channel.capacity_foldl_send _ _).1, room,
      if_neg (Nat.not_lt_of_le keepsUp), hitem]
  · rw [run, List.foldl_append]
    show call.perform config (run config _ earlier) = run config _ earlier
    rcases perform_announces config (run config _ earlier) call with ⟨-, hsame⟩ | ⟨hedited, -⟩
    · exact hsame
    · rw [ServiceCall.hasEdited, Bool.and_eq_true] at hedited
      rcases hcall with hread | hfails
      · rw [hread] at hedited
        exact absurd hedited.1 Bool.false_ne_true
      · exact absurd (hfails.symm.trans hedited.2) Bool.false_ne_true

/-- A container `a` would have been made on the way to an entry of a list that there is not. -/
example :
    let failed := create {} ({} : Datastore) "/onos/restconf/data/a/b=1" (.object [])
    (failed.1, failed.2.nodes, failed.2.announcements.sent)
      = (.error (.notFound "b=1"), [], 0) := by
  cbv

end Service

end Restconf
