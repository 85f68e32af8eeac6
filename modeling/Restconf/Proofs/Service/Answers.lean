import Restconf.Proofs.Engine.Depth
import Restconf.Proofs.Service.Create

/-!
# Which queries are answered

A query is answered with a document or with a fault of the client, unless the node that it finds
nests too deep. Then the document is written, but it is not read again, and the query fails as if
the service had broken a promise to itself.

## Why depth is not bounded by what is accepted

The reader of documents accepts bodies up to a depth, and the writer of answers has the same bound.
But an answer holds more than the body: around it there is the object of the field, and below a path
there are the nodes of the path. A body of the greatest depth is therefore already too deep where it
is put, and bodies of any depth can be put below each other. What keeps a datastore readable is a
bound on each call, in which the levels of its path are counted with the depth of its body.

## Main definitions

* `Service.IsServed` — the answers that blame nobody or the client
* `Service.addressed?` — the node that a URI addresses
* `ServiceCall.IsShallow` — a bound on the depth of a call

## Main results

* `Service.IsReachable.isServed_iff` — a query is served unless what it finds nests too deep
* `Service.depth_run` — a run of shallow calls
* `Service.isServed_run` — both together
-/

namespace Restconf

open Forest

/-- The levels of the path and the depth of the body together are within the depth of a document. -/
def ServiceCall.IsShallow (config : ServiceConfig) (call : ServiceCall) : Prop :=
  ∀ found, Service.identifier config call.uri = .ok found → ∀ body ∈ call.body?,
    Datastore.pathLevels found.elements + body.depth ≤ Json.nestingLimit

theorem ServiceCall.isShallow_of_identifier {config : ServiceConfig} {call : ServiceCall}
    {found : Identifier} (hfound : Service.identifier config call.uri = .ok found)
    (h : ∀ body ∈ call.body?,
      Datastore.pathLevels found.elements + body.depth ≤ Json.nestingLimit) :
    call.IsShallow config := by
  intro other hother
  obtain rfl : found = other := Except.ok.inj (hfound.symm.trans hother)
  exact h

namespace Service

/-- An answer that is a document, or else a fault of the client: of the path, or a node that does
not exist. -/
def IsServed (answer : Except Fault Json) : Prop :=
  ∀ fault, answer = .error fault → fault.IsPathFault ∨ ∃ target, fault = .notFound target

theorem isServed_ok (document : Json) : IsServed (.ok document) := by
  rintro _ ⟨⟩

theorem not_isServed_invalidText : ¬ IsServed (.error TextWriter.invalidText) := by
  intro h
  rcases h _ rfl with hpath | ⟨target, htarget⟩
  · cases hpath
  · cases htarget

variable {config : ServiceConfig} {store : Datastore} {uri : String}

/-! ### One query -/

/-- The node that a URI addresses. -/
def addressed? (config : ServiceConfig) (store : Datastore) (uri : String) : Option Node :=
  (identifier config uri).toOption.bind fun found => Datastore.find? store.nodes found.elements

theorem addressed?_eq_some_iff {node : Node} :
    addressed? config store uri = some node
      ↔ ∃ found, identifier config uri = .ok found
          ∧ Datastore.find? store.nodes found.elements = some node := by
  rw [addressed?]
  cases identifier config uri with
  | error fault => simp [Except.toOption]
  | ok found => simp [Except.toOption]

/-- Where no node is addressed, the client is told why. -/
theorem isServed_of_addressed?_none (h : addressed? config store uri = none) :
    IsServed (read config store uri).1 := by
  intro fault hfault
  cases hfound : identifier config uri with
  | error pathFault =>
    rw [read_eq, hfound] at hfault
    exact Or.inl (Except.error.inj hfault ▸ isPathFault_of_identifier hfound)
  | ok found =>
    rw [addressed?, hfound] at h
    rw [read_of_find?_none hfound h] at hfault
    exact Or.inr ⟨uri, (Except.error.inj hfault).symm⟩

/-- **A query is served unless what it addresses nests too deep**, and then it is told that the text
of the answer is none. -/
theorem IsReachable.isServed_iff (hstore : IsReachable config store) (uri : String) :
    (IsServed (read config store uri).1
        ↔ ∀ node ∈ addressed? config store uri, Forest.depth [node] ≤ Json.nestingLimit)
      ∧ (¬ IsServed (read config store uri).1 →
          (read config store uri).1 = .error TextWriter.invalidText) := by
  cases hnode : addressed? config store uri with
  | none =>
    have hserved := isServed_of_addressed?_none hnode
    refine ⟨iff_of_true hserved ?_, fun h => absurd hserved h⟩
    rintro _ ⟨⟩
  | some node =>
    obtain ⟨found, hfound, hfind⟩ := addressed?_eq_some_iff.mp hnode
    have hanswer := hstore.read_of_find? hfound hfind
    have hall : (∀ other ∈ some node, Forest.depth [other] ≤ Json.nestingLimit)
        ↔ Forest.depth [node] ≤ Json.nestingLimit := by simp
    rw [hall]
    by_cases hdepth : Forest.depth [node] ≤ Json.nestingLimit
    · rw [hanswer, if_pos hdepth]
      exact ⟨iff_of_true (isServed_ok _) hdepth, fun h => absurd (isServed_ok _) h⟩
    · rw [hanswer, if_neg hdepth]
      exact ⟨iff_of_false not_isServed_invalidText hdepth, fun _ => rfl⟩

/-! ### Runs -/

theorem depth_of_payload {body : Json} {nodes : List Node} (h : payload (some body) = .ok nodes) :
    Forest.depth nodes = body.depth := by
  rw [payload, Json.toTree_eq] at h
  cases body with
  | object fields => rw [Forest.depth, (Json.of_nodesOf_eq_ok h).2.1, Json.depth]
  | _ => cases h

/-- **Shallow calls keep a datastore within the depth of a document.** -/
theorem depth_run {nodes : List Node} {calls : List ServiceCall}
    (hdepth : Forest.depth nodes ≤ Json.nestingLimit)
    (hcalls : ∀ call ∈ calls, call.IsShallow config) :
    Forest.depth (run config ({ nodes } : Datastore) calls).nodes ≤ Json.nestingLimit := by
  refine run_induction (p := fun row => Forest.depth row ≤ Json.nestingLimit)
    (fun call hmem intent found payload row after hintent hfound hpayload hrow hafter => ?_) hdepth
  -- only an edit with a body can add to the depth, and its call is shallow
  rcases Datastore.rowDepth_edit hafter with hsame | ⟨hne, hdeeper⟩
  · exact (Nat.succ_le_succ hsame).trans hrow
  · obtain ⟨body, hbody⟩ : ∃ body, call.body? = some body := by
      cases call with
      | create _ body | replace _ body => exact ⟨body, rfl⟩
      | read => cases hintent
      | delete => exact absurd (Option.some.inj hintent).symm hne
    have hshallow := hcalls call hmem found hfound body hbody
    rw [hbody] at hpayload
    have hbodyDepth := depth_of_payload hpayload
    rw [Forest.depth] at hbodyDepth ⊢
    omega

/-- **After calls of JSON bodies a query is served unless what it finds nests too deep**, and after
shallow ones every query is. -/
theorem isServed_run {nodes : List Node} {calls : List ServiceCall}
    (hseed : nodes = [] ∨ IsFromDocument nodes) (hcalls : ∀ call ∈ calls, call.IsJson) :
    (∀ uri, (IsServed (read config (run config ({ nodes } : Datastore) calls) uri).1
          ↔ ∀ node ∈ addressed? config (run config ({ nodes } : Datastore) calls) uri,
              Forest.depth [node] ≤ Json.nestingLimit)
        ∧ (¬ IsServed (read config (run config ({ nodes } : Datastore) calls) uri).1 →
            (read config (run config ({ nodes } : Datastore) calls) uri).1
              = .error TextWriter.invalidText))
      ∧ (Forest.depth nodes ≤ Json.nestingLimit → (∀ call ∈ calls, call.IsShallow config) →
          ∀ uri, IsServed (read config (run config ({ nodes } : Datastore) calls) uri).1) := by
  have hstore : IsReachable config (run config ({ nodes } : Datastore) calls) :=
    ⟨nodes, calls, hseed, hcalls, rfl⟩
  refine ⟨hstore.isServed_iff, fun hdepth hshallow uri => ?_⟩
  refine (hstore.isServed_iff uri).1.mpr fun node hnode => ?_
  obtain ⟨found, -, hfind⟩ := addressed?_eq_some_iff.mp hnode
  have hrun := depth_run hdepth hshallow
  have hfound := Datastore.depth_le_of_find? hfind
  rw [Forest.depth] at hrun ⊢
  rw [rowDepth, rowDepth, Nat.max_zero]
  omega

/-- A node added to an entry, an entry removed, and a query of the whole. -/
theorem isServed_run_entries :
    let config : ServiceConfig := { rootPath := "/r" }
    let calls : List ServiceCall := [
      .replace "/r/data/top" (.object [("if", .array [.object [("name", .string "a")],
        .object [("name", .string "b")]])]),
      .create "/r/data/top/if=a" (.object [("mtu", .number (.integer 9))]),
      .delete "/r/data/top/if=b",
      .read "/r/data/top"]
    ∀ uri, IsServed (read config (run config ({} : Datastore) calls) uri).1 := by
  intro config calls
  have hshallow : ∀ call ∈ calls, call.IsShallow config := by
    have hreplace : identifier config "/r/data/top"
        = .ok ⟨"/r", [⟨"top", none, .single, []⟩]⟩ := by decide
    have hcreate : identifier config "/r/data/top/if=a"
        = .ok ⟨"/r", [⟨"top", none, .single, []⟩, ⟨"if", none, .multi, ["a"]⟩]⟩ := by decide
    simp only [calls, List.forall_mem_cons, List.not_mem_nil, false_implies, implies_true,
      and_true]
    refine ⟨ServiceCall.isShallow_of_identifier hreplace ?_,
      ServiceCall.isShallow_of_identifier hcreate ?_, ?_, ?_⟩
    · rintro _ ⟨⟩
      decide
    · rintro _ ⟨⟩
      decide
    all_goals rintro _ _ _ ⟨⟩
  refine (isServed_run (Or.inl rfl) ?_).2 (by decide) hshallow
  have hbody (fields : List (String × Json)) : ∀ document ∈ some (Json.object fields).merge,
      document.IsUnambiguous := by
    rintro _ ⟨⟩
    exact Json.isUnambiguous_merge _
  simp only [calls, List.forall_mem_cons, List.not_mem_nil, false_implies, implies_true, and_true]
  exact ⟨hbody [("if", .array [.object [("name", .string "a")], .object [("name", .string "b")]])],
    hbody [("mtu", .number (.integer 9))], by rintro _ ⟨⟩, by rintro _ ⟨⟩⟩

end Service

/-! ### A body of the greatest depth -/

namespace Forest

/-- So many containers, one in the other. -/
def tower : Nat → List Node
  | 0 => []
  | height + 1 => [.container "a" (tower height)]

theorem everywhere_isRegular_tower (height : Nat) : Everywhere IsRegular (tower height) := by
  induction height with
  | zero =>
    exact everywhere_iff.mpr ⟨⟨fun _ h => absurd h List.not_mem_nil, List.nodup_nil,
      fun _ => List.not_mem_nil⟩, fun _ h => absurd h List.not_mem_nil⟩
  | succ height ih =>
    refine everywhere_iff.mpr ⟨⟨?_, List.pairwise_singleton _ _, ?_⟩, ?_⟩
    · exact List.forall_mem_singleton.mpr (show "a" ≠ "" by decide)
    · intro name h
      cases List.mem_singleton.mp h
    · exact List.forall_mem_singleton.mpr ih

theorem rowDepth_tower (height : Nat) : rowDepth (tower height) = height := by
  induction height with
  | zero => rfl
  | succ height ih => rw [tower, rowDepth, Node.depth, ih, rowDepth, Nat.max_zero]

end Forest

namespace Service

/-- A body that can be read as a document is accepted and put into an empty datastore, and the query
of the node that it is put into is not served. -/
theorem not_isServed_tower :
    let config : ServiceConfig := { rootPath := "/r" }
    let body : Json := .object (Forest.fields (tower 126))
    (∃ text, Json.parse? text = some body)
      ∧ (create config ({} : Datastore) "/r/data/a" body).1 = .ok ()
      ∧ (read config (create config ({} : Datastore) "/r/data/a" body).2 "/r/data/a").1
          = .error TextWriter.invalidText := by
  intro config body
  have hregular := everywhere_isRegular_tower 126
  have hdocument := isUnambiguous_fields hregular
  have hdepth : Forest.depth (tower 126) = Json.nestingLimit := by
    rw [Forest.depth, rowDepth_tower]
    rfl
  have hnodes : payload (some body) = .ok (tower 126) := by
    rw [payload, Json.toTree_eq]
    exact nodesOf_fields hregular
  have hcreate : (create config ({} : Datastore) "/r/data/a" body).1 = .ok () := by
    have hfound : identifier config "/r/data/a" = .ok ⟨"/r", [⟨"a", none, .single, []⟩]⟩ := by
      decide
    have hafter : Datastore.edit .create ⟨"/r", [⟨"a", none, .single, []⟩]⟩ (tower 126) []
        = .ok [.container "a" ([] ++ tower 126)] :=
      Datastore.modify_eq_ok_iff.mpr ⟨[], _,
        .under (.added rfl rfl fun _ h => absurd h List.not_mem_nil) (.here _ _),
        Datastore.addNodes_eq_ok_iff.mpr ⟨fun _ _ _ h => absurd h List.not_mem_nil, rfl⟩⟩
    rw [create, edit_of_eq_ok hfound hnodes hafter]
  have hstore : IsReachable config ({} : Datastore) := isReachable_start (Or.inl rfl)
  refine ⟨⟨.ofList (reference (tower 126)), ?_⟩, hcreate, ?_⟩
  · rw [parse?_reference, if_pos ⟨isNamed_of_everywhere hregular, hdepth.le⟩,
      Json.merge_eq_self hdocument]
  · have hbodyDepth : Json.nestingLimit ≤ body.depth := hdepth.ge.trans (depth_of_payload hnodes).le
    exact hstore.read_create_of_deep hdocument hbodyDepth hcreate

end Service

end Restconf
