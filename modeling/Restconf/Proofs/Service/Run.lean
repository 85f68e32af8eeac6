import Restconf.Proofs.Engine.Names
import Restconf.Proofs.Tree.RoundTrip
import Restconf.Service

/-!
# Runs of the service

What a call of the service does to a datastore, and what it answers, each said once. Everything
that is proved about calls and runs of calls starts from here.

## Two sides of one call

A call that edits either fails and leaves the datastore alone, or it has read an identifier and a
payload and makes an edit with them. A call that reads never changes anything, and its answer
depends on the nodes only. So the state of a run is a row of nodes, and a run is a sequence of edits
with identifiers that were read from a URI and payloads that were read from a document.

## Main definitions

* `ServiceCall` — a call, with what it asks for
* `Service.run` — the engine after calls; `Service.IsReachable` — the datastores that a run leads to

## Main results

* `Service.edit_cases`, `Service.read_eq` — one call
* `Service.run_induction` — what every edit keeps, a run keeps
* `Service.IsReachable.wellNamed` — what every datastore on the way is like
* `Service.IsReachable.read_of_find?` — the answer to a query is one field, or nests too deep
-/

namespace Restconf

open Forest

/-- A call of the service. -/
inductive ServiceCall where
  | read (uri : String)
  | create (uri : String) (body : Json)
  | replace (uri : String) (body : Json)
  | delete (uri : String)

namespace ServiceCall

/-- The URI that a call is about. -/
def uri : ServiceCall → String
  | read uri | create uri _ | replace uri _ | delete uri => uri

/-- The body that a call brings. -/
def body? : ServiceCall → Option Json
  | create _ body | replace _ body => some body
  | read _ | delete _ => none

/-- What a call is to do to the datastore. -/
def intent? : ServiceCall → Option Intent
  | read _ => none
  | create _ _ => some .create
  | replace _ _ => some .replace
  | delete _ => some .delete

/-- The body is a JSON value, so that no object in it has two fields of one name. -/
def IsJson (call : ServiceCall) : Prop := ∀ body ∈ call.body?, body.IsUnambiguous

/-- The engine after a call. -/
def perform {ε : Type} [TreeEngine ε] (config : ServiceConfig) (engine : ε) : ServiceCall → ε
  | read uri => (Service.read config engine uri).2
  | create uri body => (Service.create config engine uri body).2
  | replace uri body => (Service.replace config engine uri body).2
  | delete uri => (Service.delete config engine uri).2

end ServiceCall

namespace Service

variable {config : ServiceConfig} {store : Datastore} {uri : String}

/-! ### Identifiers -/

theorem identifier_eq_ok_iff {found : Identifier} :
    identifier config uri = .ok found
      ↔ Identifier.ofUri config.rootPath uri = .ok found ∧ found.elements ≠ [] := by
  rw [identifier, bind_eq_ok_iff]
  constructor
  · rintro ⟨other, hother, h⟩
    split at h
    · next hvalid =>
      obtain rfl := Except.ok.inj h
      exact ⟨hother, by simpa [Identifier.isValid] using hvalid⟩
    · cases h
  · rintro ⟨hfound, hne⟩
    refine ⟨found, hfound, if_pos ?_⟩
    simpa [Identifier.isValid] using hne

/-- An identifier of a request has a deepest element. -/
theorem exists_target?_of_identifier {found : Identifier} (h : identifier config uri = .ok found) :
    ∃ target, found.target? = some target :=
  ⟨_, List.getLast?_eq_some_getLast (identifier_eq_ok_iff.mp h).2⟩

theorem isPathFault_of_identifier {fault : Fault} (h : identifier config uri = .error fault) :
    fault.IsPathFault := by
  rcases bind_eq_error_iff.mp h with h | ⟨found, -, h⟩
  · exact Identifier.isPathFault_of_ofUri h
  · split at h
    · cases h
    · obtain rfl := Except.error.inj h
      exact .notADataResource _

/-! ### One call -/

/-- **A query renders the node that it finds**, and changes nothing. -/
theorem read_eq (config : ServiceConfig) (store : Datastore) (uri : String) :
    read config store uri = ((do
      let found ← identifier config uri
      match Datastore.find? store.nodes found.elements with
      | none => .error (Fault.notFound uri)
      | some node => Forest.toJson [node]), store) := by
  rw [read]
  cases identifier config uri with
  | error fault => rfl
  | ok found =>
    simp only [Datastore.execute_query, bind, Except.bind]
    cases Datastore.find? store.nodes found.elements <;> rfl

theorem edit_of_eq_ok {intent : Intent} {body : Option Json} {found : Identifier}
    {nodes after : List Node} (hfound : identifier config uri = .ok found)
    (hnodes : payload body = .ok nodes)
    (hafter : Datastore.edit intent found nodes store.nodes = .ok after) :
    edit config store intent uri body
      = (.ok (), ({ store with nodes := after } : Datastore).announce intent found) := by
  rw [edit, hfound, hnodes]
  simp only [bind, Except.bind, pure, Except.pure, Datastore.execute_edit_of_eq_ok hafter]

theorem edit_of_eq_error {intent : Intent} {body : Option Json} {found : Identifier}
    {nodes : List Node} {fault : Fault} (hfound : identifier config uri = .ok found)
    (hnodes : payload body = .ok nodes)
    (hfault : Datastore.edit intent found nodes store.nodes = .error fault) :
    edit config store intent uri body = (.error fault, store) := by
  rw [edit, hfound, hnodes]
  simp only [bind, Except.bind, pure, Except.pure, Datastore.execute_edit_of_eq_error hfault]

/-- **An edit fails and changes nothing, or it makes the edit** of the identifier and the payload
that it has read. -/
theorem edit_cases (config : ServiceConfig) (store : Datastore) (intent : Intent) (uri : String)
    (body : Option Json) :
    (∃ fault, edit config store intent uri body = (.error fault, store))
      ∨ ∃ found nodes after, identifier config uri = .ok found ∧ payload body = .ok nodes
          ∧ Datastore.edit intent found nodes store.nodes = .ok after
          ∧ edit config store intent uri body
            = (.ok (), ({ store with nodes := after } : Datastore).announce intent found) := by
  rw [edit]
  cases hfound : identifier config uri with
  | error fault => exact Or.inl ⟨fault, rfl⟩
  | ok found =>
    cases hnodes : payload body with
    | error fault => exact Or.inl ⟨fault, rfl⟩
    | ok nodes =>
      simp only [bind, Except.bind, pure, Except.pure]
      cases hafter : Datastore.edit intent found nodes store.nodes with
      | error fault =>
        exact Or.inl ⟨fault, by rw [Datastore.execute_edit_of_eq_error hafter]⟩
      | ok after =>
        refine Or.inr ⟨found, nodes, after, rfl, rfl, hafter, ?_⟩
        rw [Datastore.execute_edit_of_eq_ok hafter]

/-- **What a call does to the datastore.** -/
theorem perform_cases (config : ServiceConfig) (store : Datastore) (call : ServiceCall) :
    call.perform config store = store
      ∨ ∃ intent found nodes after, call.intent? = some intent
          ∧ identifier config call.uri = .ok found ∧ payload call.body? = .ok nodes
          ∧ Datastore.edit intent found nodes store.nodes = .ok after
          ∧ (call.perform config store).nodes = after := by
  have hedit (intent : Intent) (uri : String) (body : Option Json) :
      (edit config store intent uri body).2 = store
        ∨ ∃ found nodes after, identifier config uri = .ok found ∧ payload body = .ok nodes
          ∧ Datastore.edit intent found nodes store.nodes = .ok after
          ∧ (edit config store intent uri body).2.nodes = after := by
    rcases edit_cases config store intent uri body with
      ⟨fault, h⟩ | ⟨found, nodes, after, hfound, hnodes, hafter, h⟩
    · exact Or.inl (by rw [h])
    · exact Or.inr ⟨found, nodes, after, hfound, hnodes, hafter, by rw [h]; rfl⟩
  cases call with
  | read uri =>
    left
    show (read config store uri).2 = store
    rw [read_eq]
  | create uri body =>
    rcases hedit .create uri (some body) with h | h
    · exact Or.inl h
    · obtain ⟨found, nodes, after, h⟩ := h
      exact Or.inr ⟨.create, found, nodes, after, rfl, h⟩
  | replace uri body =>
    rcases hedit .replace uri (some body) with h | h
    · exact Or.inl h
    · obtain ⟨found, nodes, after, h⟩ := h
      exact Or.inr ⟨.replace, found, nodes, after, rfl, h⟩
  | delete uri =>
    rcases hedit .delete uri none with h | h
    · exact Or.inl h
    · obtain ⟨found, nodes, after, h⟩ := h
      exact Or.inr ⟨.delete, found, nodes, after, rfl, h⟩

/-! ### Runs -/

/-- The engine after calls, whether they succeed or fail. -/
def run {ε : Type} [TreeEngine ε] (config : ServiceConfig) (engine : ε)
    (calls : List ServiceCall) : ε :=
  calls.foldl (fun engine call => call.perform config engine) engine

/-- **What is kept by every edit that a call makes is kept by a run.** -/
theorem run_induction {p : List Node → Prop} {calls : List ServiceCall}
    (hedit : ∀ call ∈ calls, ∀ intent found nodes row after, call.intent? = some intent →
      identifier config call.uri = .ok found → payload call.body? = .ok nodes → p row →
      Datastore.edit intent found nodes row = .ok after → p after)
    (hstore : p store.nodes) : p (run config store calls).nodes := by
  induction calls generalizing store with
  | nil => exact hstore
  | cons call calls ih =>
    obtain ⟨hcall, hcalls⟩ := List.forall_mem_cons.mp hedit
    show p (run config (call.perform config store) calls).nodes
    refine ih hcalls ?_
    rcases perform_cases config store call with
      hsame | ⟨intent, found, nodes, after, hintent, hfound, hnodes, hafter, hperform⟩
    · rw [hsame]
      exact hstore
    · exact hperform ▸ hcall intent found nodes _ after hintent hfound hnodes hstore hafter

/-- The datastores that calls lead to from an empty one or from one that holds a document. -/
def IsReachable (config : ServiceConfig) (store : Datastore) : Prop :=
  ∃ nodes calls, (nodes = [] ∨ IsFromDocument nodes) ∧ (∀ call ∈ calls, call.IsJson)
    ∧ store = run config ({ nodes } : Datastore) calls

theorem isReachable_start {nodes : List Node} (hseed : nodes = [] ∨ IsFromDocument nodes) :
    IsReachable config { nodes } :=
  ⟨nodes, [], hseed, fun _ h => absurd h List.not_mem_nil, rfl⟩

theorem IsReachable.perform (h : IsReachable config store) {call : ServiceCall}
    (hcall : call.IsJson) : IsReachable config (call.perform config store) := by
  obtain ⟨nodes, calls, hseed, hcalls, rfl⟩ := h
  refine ⟨nodes, calls ++ [call], hseed, ?_, ?_⟩
  · exact List.forall_mem_append.mpr ⟨hcalls, List.forall_mem_singleton.mpr hcall⟩
  · rw [run, run, List.foldl_append]
    rfl

theorem isFromDocument_of_payload {body : Option Json} {nodes : List Node}
    (hbody : ∀ document ∈ body, document.IsUnambiguous) (h : payload body = .ok nodes) :
    IsFromDocument nodes := by
  cases body with
  | none => exact Except.ok.inj h ▸ isFromDocument_nil
  | some document => exact ⟨document, hbody document rfl, h⟩

/-- **Whatever the service does, the siblings have names and no two the same**, at every level. -/
theorem IsReachable.wellNamed (h : IsReachable config store) :
    Everywhere IsWellNamed store.nodes := by
  obtain ⟨nodes, calls, hseed, hcalls, rfl⟩ := h
  refine run_induction ?_ ?_
  · intro call hmem intent found payload row after _ hfound hpayload hrow
    exact Datastore.wellNamed_edit
      (Identifier.name_ne_of_ofUri (identifier_eq_ok_iff.mp hfound).1)
      (isFromDocument_of_payload (hcalls call hmem) hpayload).wellNamed hrow
  · rcases hseed with rfl | hseed
    · exact wellNamed_nil
    · exact hseed.wellNamed

/-! ### Answers to queries -/

/-- **A node that is found is answered with the object of its field**, unless it nests too deep. -/
theorem IsReachable.read_of_find? (h : IsReachable config store) {found : Identifier} {node : Node}
    (hfound : identifier config uri = .ok found)
    (hnode : Datastore.find? store.nodes found.elements = some node) :
    (read config store uri).1
      = if Forest.depth [node] ≤ Json.nestingLimit then .ok (.object [Forest.field node])
        else .error TextWriter.invalidText := by
  have hnamed := Datastore.wellNamed_find? h.wellNamed hnode
  rw [read_eq, hfound]
  simp only [bind, Except.bind, hnode]
  exact toJson_of_wellNamed hnamed

theorem read_of_find?_none {found : Identifier} (hfound : identifier config uri = .ok found)
    (hnone : Datastore.find? store.nodes found.elements = none) :
    (read config store uri).1 = .error (.notFound uri) := by
  rw [read_eq, hfound]
  simp only [bind, Except.bind, hnone]

end Service

end Restconf
