import Restconf.Engine.Datastore

/-!
# Clients that share a datastore

Any number of clients may use one datastore at a time. What a client asks for, it executes on its
own: a query and an edit that fails in one step, an edit that succeeds in two. It is committed in
the first and announced in the second, and other clients can take steps in between.

## Main definitions

* `CommittedEdit` — an edit that was committed, and the client that has done so.
* `SharedDatastore` — a datastore, the edits that were committed to it and those that were
  announced.
* `SharedDatastore.Step`, `SharedDatastore.Run` — one step of some client, and any number of them.

## Implementation notes

An edit goes by its place among the committed ones, and the places of the announced ones are kept in
the order of sending. A client executes one request after another, so it commits nothing as long as
it has an edit under way that it has not announced.
-/

namespace Restconf

/-- The number of a client. -/
abbrev ClientId := Nat

/-- An edit that a client has committed. -/
structure CommittedEdit where
  client : ClientId
  intent : Intent
  identifier : Identifier
  payload : List Node

/-- A datastore and what its clients have done so far. -/
structure SharedDatastore where
  store : Datastore := {}
  /-- The committed edits, in the order in which the datastore took them. -/
  committed : List CommittedEdit := []
  /-- The announced edits by their places among the committed ones, in the order of sending. -/
  announced : List Nat := []

/-- What a step of a client shows: the place of an edit, and what has become of it. -/
inductive SharingEvent where
  | committed (place : Nat)
  | announced (place : Nat)
deriving DecidableEq, Repr

namespace SharedDatastore

/-- The edit at a place is one of a client. -/
def isOf (shared : SharedDatastore) (client : ClientId) (place : Nat) : Bool :=
  shared.committed[place]?.any fun edit => edit.client = client

/-- The places of the edits that a client has committed and not announced. -/
def underWay (shared : SharedDatastore) (client : ClientId) : List Nat :=
  (List.range shared.committed.length).filter fun place =>
    shared.isOf client place && !shared.announced.contains place

/-- One step of some client, and what it shows. -/
inductive Step : SharedDatastore → Option SharingEvent → SharedDatastore → Prop where
  /-- A client reads. -/
  | query (shared : SharedDatastore) : Step shared none shared
  /-- An edit fails. -/
  | refuse {shared : SharedDatastore} {intent : Intent} {identifier : Identifier}
      {payload : List Node} {fault : Fault}
      (h : shared.store.commit intent identifier payload = .error fault) : Step shared none shared
  | commit {shared : SharedDatastore} {client : ClientId} {intent : Intent}
      {identifier : Identifier} {payload : List Node} {store : Datastore}
      (idle : shared.underWay client = [])
      (h : shared.store.commit intent identifier payload = .ok store) :
      Step shared (some (.committed shared.committed.length))
        { shared with
          store
          committed := shared.committed ++ [{ client, intent, identifier, payload }] }
  | announce {shared : SharedDatastore} {place : Nat} {edit : CommittedEdit}
      (h : shared.committed[place]? = some edit) (fresh : place ∉ shared.announced) :
      Step shared (some (.announced place))
        { shared with
          store := shared.store.announce edit.intent edit.identifier
          announced := shared.announced ++ [place] }

/-- Any number of steps, and what they show in order. -/
inductive Run : SharedDatastore → List SharingEvent → SharedDatastore → Prop where
  | refl (shared : SharedDatastore) : Run shared [] shared
  | tail {a b c : SharedDatastore} {events : List SharingEvent} {event : Option SharingEvent}
      (h : Run a events b) (s : Step b event c) : Run a (events ++ event.toList) c

end SharedDatastore

end Restconf
