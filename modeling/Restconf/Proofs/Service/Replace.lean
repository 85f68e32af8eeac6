import Restconf.Proofs.Engine.Replacement
import Restconf.Proofs.Service.Run

/-!
# What a replacement does when it is repeated

A client that has no answer sends its request again. A replacement that is made twice should
therefore leave what it leaves when it is made once, and succeed both times.

## Bodies that change the keys

It does, as long as the URI is about the same node both times. For a path without keys this is so:
whatever the body puts, the nodes on the path keep their names. An entry of a list is chosen by its
leading leaves, and a body may have leaves of the same names with other values. The replacement is
not refused, and it does not follow the entry: the URI has the old keys. What is about them the
second time is the next entry that has them, and if there is none, the request fails.

## Main results

* `Service.replace_again` — the second of two equal replacements
-/

namespace Restconf

open Forest

namespace Service

variable {config : ServiceConfig} {store : Datastore} {uri : String}
  {fields : List (String × Json)}

/-- **A replacement that is repeated succeeds and changes nothing**, unless it took the keys of its
URI from the entry that it was made in. Then it is made in the next entry with these keys, or fails
because there is none. -/
theorem replace_again (hbody : (Json.object fields).IsUnambiguous)
    (h : (replace config store uri (.object fields)).1 = .ok ()) :
    let once := (replace config store uri (.object fields)).2
    ∃ found target nodes, identifier config uri = .ok found ∧ found.target? = some target
      ∧ Json.nodesOf fields = .ok nodes
      ∧ ((∀ others, ¬ Datastore.LosesKeys store.nodes found.elements
            (Datastore.overwrite nodes) others) →
          (replace config once uri (.object fields)).1 = .ok ()
            ∧ (replace config once uri (.object fields)).2.nodes = once.nodes)
      ∧ (Datastore.LosesKeys store.nodes found.elements (Datastore.overwrite nodes) [] →
          replace config once uri (.object fields) = (.error (.notFound target.display), once))
      ∧ ∀ next others, Datastore.LosesKeys store.nodes found.elements (Datastore.overwrite nodes)
            (next :: others) →
          (replace config once uri (.object fields)).1 = .ok ()
            ∧ Datastore.Graft false found.elements next (Datastore.overwrite nodes next) once.nodes
                (replace config once uri (.object fields)).2.nodes := by
  intro once
  rcases edit_cases config store .replace uri (some (.object fields)) with
    ⟨fault, hfault⟩ | ⟨found, nodes, after, hfound, hnodes, hafter, hreplace⟩
  · rw [replace, hfault] at h
    cases h
  · obtain ⟨target, htarget⟩ := exists_target?_of_identifier hfound
    have hpayload : Json.nodesOf fields = .ok nodes := by rwa [payload, Json.toTree_eq] at hnodes
    have hdistinct : (nodes.map Node.name).Nodup := by
      rw [Json.map_name_of_nodesOf hpayload]
      cases hbody with
      | object hnames _ => exact hnames
    have honce : once.nodes = after := by
      simp only [once, replace, hreplace]
      rfl
    rw [← honce] at hafter
    clear_value once
    refine ⟨found, target, nodes, hfound, htarget, hpayload, fun hkeys => ?_, fun hlost => ?_,
      fun next others hlost => ?_⟩
    · have hagain := Datastore.replace_of_keepsKeys hdistinct hafter hkeys
      rw [replace, edit_of_eq_ok hfound hnodes hagain]
      exact ⟨rfl, rfl⟩
    · obtain ⟨owner, howner, hagain⟩ := (Datastore.replace_of_losesKeys hafter hlost).1 rfl
      obtain rfl : target = owner := Option.some.inj (htarget.symm.trans howner)
      exact edit_of_eq_error hfound hnodes hagain
    · obtain ⟨twice, hagain, honly⟩ :=
        (Datastore.replace_of_losesKeys hafter hlost).2 next rfl
      rw [replace, edit_of_eq_ok hfound hnodes hagain]
      exact ⟨rfl, honly⟩

/-- In the first of two entries with the same key. A leaf put beside the key is put there again, and
a leaf put in the place of the key is put into the second entry when that is repeated. -/
theorem replace_again_entries :
    let config : ServiceConfig := { rootPath := "/r" }
    let entry : Element := ⟨"l", none, .multi, ["a"]⟩
    let second : List Node := [.leaf "id" "a", .leaf "x" "1"]
    let store : Datastore := { nodes := [.list "l" [[.leaf "id" "a"], second]] }
    let beside : Json := .object [("x", .string "2")]
    let inPlace : Json := .object [("id", .string "b")]
    let after (body : Json) : Datastore := (replace config store "/r/data/l=a" body).2
    (replace config store "/r/data/l=a" beside).1 = .ok ()
      ∧ (replace config (after beside) "/r/data/l=a" beside).1 = .ok ()
      ∧ (replace config (after beside) "/r/data/l=a" beside).2.nodes = (after beside).nodes
      ∧ (replace config store "/r/data/l=a" inPlace).1 = .ok ()
      ∧ (replace config (after inPlace) "/r/data/l=a" inPlace).1 = .ok ()
      ∧ Datastore.Graft false [entry] second [.leaf "id" "b", .leaf "x" "1"] (after inPlace).nodes
          (replace config (after inPlace) "/r/data/l=a" inPlace).2.nodes := by
  intro config entry second store beside inPlace after
  have hidentifier : identifier config "/r/data/l=a" = .ok ⟨"/r", [entry]⟩ := by decide
  have hbeside : (replace config store "/r/data/l=a" beside).1 = .ok () := by decide
  have hinPlace : (replace config store "/r/data/l=a" inPlace).1 = .ok () := by decide
  have hchooses : Datastore.Chooses store.nodes [] entry [[.leaf "id" "a"], second] :=
    ⟨rfl, store.nodes, _, Or.inl ⟨rfl, rfl⟩, rfl, rfl⟩
  have hkept (others : List (List Node)) : ¬ Datastore.LosesKeys store.nodes [entry]
      (Datastore.overwrite [.leaf "x" "2"]) others := hchooses.not_losesKeys rfl
  have hlost : Datastore.LosesKeys store.nodes [entry] (Datastore.overwrite [.leaf "id" "b"])
      [second] := ⟨[], entry, _, rfl, hchooses, rfl⟩
  obtain ⟨_, _, _, hfound, -, hnodes, hagain, -⟩ :=
    replace_again (Json.isUnambiguous_merge beside) hbeside
  obtain rfl := Except.ok.inj (hidentifier.symm.trans hfound)
  obtain rfl := Except.ok.inj hnodes
  obtain ⟨hagain, hsame⟩ := hagain hkept
  obtain ⟨_, _, _, hfound, -, hnodes, -, -, hnext⟩ :=
    replace_again (Json.isUnambiguous_merge inPlace) hinPlace
  obtain rfl := Except.ok.inj (hidentifier.symm.trans hfound)
  obtain rfl := Except.ok.inj hnodes
  obtain ⟨hother, honly⟩ := hnext _ _ hlost
  exact ⟨hbeside, hagain, hsame, hinPlace, hother, honly⟩

/-- With no other entry the second of two equal replacements fails. -/
theorem replace_again_without_entry :
    let config : ServiceConfig := { rootPath := "/r" }
    let store : Datastore := { nodes := [.list "l" [[.leaf "id" "a"]]] }
    let body : Json := .object [("id", .string "b")]
    IsReachable config store ∧ body.IsUnambiguous
      ∧ (replace config store "/r/data/l=a" body).1 = .ok ()
      ∧ (replace config (replace config store "/r/data/l=a" body).2 "/r/data/l=a" body).1
          = .error (.notFound "l=a") := by
  intro config store body
  have hseed : (Json.object [("l", .array [.object [("id", .string "a")]])]).merge.toTree
      = .ok store.nodes := rfl
  refine ⟨isReachable_start (Or.inr (isFromDocument_of_merge hseed)),
    Json.isUnambiguous_merge body, ?_, ?_⟩
  · decide
  · decide

end Service

end Restconf
