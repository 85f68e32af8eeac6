import Restconf.Proofs.Service.Run

/-!
# What a creation leaves to be read

A body that has been created is found again: at the URI of the request, behind what was there, and
field by field at the URIs one segment longer.

## The seam between names and paths

A field of a body becomes a node under whatever name it has, but a path holds the names of nodes
between delimiters, and a delimiter that is written as an escape still is one. So a node is reached
by a path of its own if and only if its name is free of them. What has another name is read as part
of the node above it, and in no other way.

## Main results

* `Service.of_create_eq_ok` — the children at the path of a creation, before and after
* `Service.IsReachable.read_create` — the answer at the URI of a creation
* `Service.IsReachable.read_create_of_deep` — the fault there, if the body is of the greatest depth
* `Service.IsReachable.read_slash` — the answers one segment further
* `Service.IsReachable.read_field_create` — the answers for the fields of a body
-/

namespace Restconf

open Forest

namespace Service

variable {config : ServiceConfig} {store : Datastore} {uri : String}
  {fields : List (String × Json)}

/-! ### The children at a path -/

/-- **A creation that succeeds puts the nodes of its body behind the nodes at its path**, where
there are any or where there was no such node. -/
theorem of_create_eq_ok (h : (create config store uri (.object fields)).1 = .ok ()) :
    ∃ found below nodes, identifier config uri = .ok found ∧ Json.nodesOf fields = .ok nodes
      ∧ (Datastore.children found.elements store.nodes = .ok below
          ∨ below = [] ∧ Datastore.find? store.nodes found.elements = none)
      ∧ Datastore.children found.elements (create config store uri (.object fields)).2.nodes
          = .ok (below ++ nodes) := by
  rcases edit_cases config store .create uri (some (.object fields)) with
    ⟨fault, hfault⟩ | ⟨found, nodes, after, hfound, hnodes, hafter, hcreate⟩
  · rw [create, hfault] at h
    cases h
  · obtain ⟨below, changed, hgraft, hchange⟩ := Datastore.modify_eq_ok_iff.mp hafter
    obtain ⟨-, rfl⟩ := Datastore.addNodes_eq_ok_iff.mp hchange
    rw [payload, Json.toTree_eq] at hnodes
    refine ⟨found, below, nodes, hfound, hnodes, hgraft.children_row, ?_⟩
    rw [create, hcreate]
    exact hgraft.children_result fun _ _ _ => Datastore.entryMatches_append nodes

/-- Where a node has children, the answer is the object of them. -/
theorem IsReachable.read_of_children (hstore : IsReachable config store) {found : Identifier}
    {target : Element} {below : List Node} (hfound : identifier config uri = .ok found)
    (htarget : found.target? = some target)
    (hbelow : Datastore.children found.elements store.nodes = .ok below) :
    (read config store uri).1
      = if rowDepth below + 2 ≤ Json.nestingLimit then
          .ok (.object [(target.name, .object (Forest.fields below))])
        else .error TextWriter.invalidText := by
  rw [hstore.read_of_find? hfound (Datastore.find?_of_children htarget hbelow)]
  simp only [Forest.depth, rowDepth, Node.depth, Nat.max_zero]
  rfl

/-! ### The answer at the URI of a creation -/

theorem IsReachable.after_create (hstore : IsReachable config store) (uri : String)
    (hbody : (Json.object fields).IsUnambiguous) :
    IsReachable config (create config store uri (.object fields)).2 := by
  have hcall : (ServiceCall.create uri (.object fields)).IsJson := by
    rintro _ ⟨⟩
    exact hbody
  exact hstore.perform hcall

/-- What is answered after a creation at its URI, however deep it nests. -/
theorem IsReachable.exists_read_create (hstore : IsReachable config store)
    (hbody : (Json.object fields).IsUnambiguous)
    (h : (create config store uri (.object fields)).1 = .ok ()) :
    ∃ found target below, identifier config uri = .ok found ∧ found.target? = some target
      ∧ (Datastore.children found.elements store.nodes = .ok below
          ∨ below = [] ∧ Datastore.find? store.nodes found.elements = none)
      ∧ (read config (create config store uri (.object fields)).2 uri).1
          = if max (Forest.depth below) (Json.object fields).depth < Json.nestingLimit then
              .ok (.object
                [(target.name, .object (Forest.fields below ++ Json.normalizeFields fields))])
            else .error TextWriter.invalidText := by
  obtain ⟨found, below, nodes, hfound, hnodes, hbefore, hafter⟩ := of_create_eq_ok h
  obtain ⟨target, htarget⟩ := exists_target?_of_identifier hfound
  obtain ⟨hfields, hrowDepth, -⟩ := Json.of_nodesOf_eq_ok hnodes
  refine ⟨found, target, below, hfound, htarget, hbefore, ?_⟩
  have hanswer := (hstore.after_create uri hbody).read_of_children hfound htarget hafter
  rw [hanswer, fields_append, hfields, rowDepth_append, hrowDepth]
  refine if_congr ?_ rfl rfl
  rw [Forest.depth, Json.depth]
  omega

/-- **What is created is what is read**: the fields of the body in their normal form, behind the
fields that the node had before. -/
theorem IsReachable.read_create (hstore : IsReachable config store)
    (hbody : (Json.object fields).IsUnambiguous)
    (hdepth : (Json.object fields).depth < Json.nestingLimit)
    (h : (create config store uri (.object fields)).1 = .ok ()) :
    ∃ found target, identifier config uri = .ok found ∧ found.target? = some target
      ∧ (∀ name old, (read config store uri).1 = .ok (.object [(name, .object old)]) →
          name = target.name
            ∧ (read config (create config store uri (.object fields)).2 uri).1
                = .ok (.object [(target.name, .object (old ++ Json.normalizeFields fields))]))
      ∧ (∀ detail, (read config store uri).1 = .error (.notFound detail) →
          (read config (create config store uri (.object fields)).2 uri).1
            = .ok (.object [(target.name, (Json.object fields).normalize)])) := by
  obtain ⟨found, target, below, hfound, htarget, hbefore, hafter⟩ :=
    hstore.exists_read_create hbody h
  refine ⟨found, target, hfound, htarget, fun name old hread => ?_, fun detail hread => ?_⟩
  · rcases hbefore with hbefore | ⟨-, hnone⟩
    · rw [hstore.read_of_children hfound htarget hbefore] at hread
      split at hread
      · next hbelow =>
        obtain ⟨rfl, rfl⟩ : target.name = name ∧ Forest.fields below = old := by simpa using hread
        have hfits : max (Forest.depth below) (Json.object fields).depth < Json.nestingLimit :=
          Nat.max_lt.mpr ⟨hbelow, hdepth⟩
        exact ⟨rfl, hafter.trans (if_pos hfits)⟩
      · cases hread
    · rw [read_of_find?_none hfound hnone] at hread
      cases hread
  · rcases hbefore with hbefore | ⟨rfl, -⟩
    · rw [hstore.read_of_children hfound htarget hbefore] at hread
      split at hread
      all_goals cases hread
    · have hfits : max (Forest.depth []) (Json.object fields).depth < Json.nestingLimit :=
        Nat.max_lt.mpr ⟨by decide, hdepth⟩
      exact hafter.trans (if_pos hfits)

/-- Behind a leaf that was there, and under a container that was not. -/
theorem IsReachable.read_create_behind :
    let config : ServiceConfig := { rootPath := "/r" }
    let store : Datastore := { nodes := [.container "top" [.leaf "a" "1"]] }
    let body : List (String × Json) :=
      [("b", .number (.integer 2)), ("l", .array [.string "y", .string "x"])]
    (create config store "/r/data/top" (.object body)).1 = .ok ()
      ∧ (read config (create config store "/r/data/top" (.object body)).2 "/r/data/top").1
          = .ok (.object [("top", .object [("a", .string "1"), ("b", .string "2"),
              ("l", .array [.string "x", .string "y"])])])
      ∧ (create config store "/r/data/new" (.object body)).1 = .ok ()
      ∧ (read config (create config store "/r/data/new" (.object body)).2 "/r/data/new").1
          = .ok (.object [("new", .object [("b", .string "2"),
              ("l", .array [.string "x", .string "y"])])]) := by
  intro config store body
  have hseed : (Json.object [("top", .object [("a", .string "1")])]).merge.toTree
      = .ok store.nodes := rfl
  have hstore : IsReachable config store :=
    isReachable_start (Or.inr (isFromDocument_of_merge hseed))
  have hbody : (Json.object body).IsUnambiguous := Json.isUnambiguous_merge (.object body)
  have hidentifier : identifier config "/r/data/top"
      = .ok ⟨"/r", [⟨"top", none, .single, []⟩]⟩ := by decide
  have hidentifier' : identifier config "/r/data/new"
      = .ok ⟨"/r", [⟨"new", none, .single, []⟩]⟩ := by decide
  have htop : (create config store "/r/data/top" (.object body)).1 = .ok () := by decide
  have hnew : (create config store "/r/data/new" (.object body)).1 = .ok () := by decide
  have hold : (read config store "/r/data/top").1
      = .ok (.object [("top", .object [("a", .string "1")])]) :=
    hstore.read_of_children hidentifier rfl rfl
  have hnone : (read config store "/r/data/new").1 = .error (.notFound "/r/data/new") :=
    read_of_find?_none hidentifier' rfl
  obtain ⟨_, target, -, -, hbehind, -⟩ := hstore.read_create hbody (by decide) htop
  obtain ⟨found', target', hfound', htarget', -, hfresh⟩ :=
    hstore.read_create hbody (by decide) hnew
  obtain rfl : _ = found' := Except.ok.inj (hidentifier'.symm.trans hfound')
  obtain rfl : _ = target' := Option.some.inj htarget'
  obtain ⟨hname, hbehind⟩ := hbehind _ _ hold
  rw [← hname] at hbehind
  exact ⟨htop, hbehind, hnew, hfresh _ hnone⟩

/-- A body that nests as deep as a document may is accepted, but with the object of the node around
it the answer is too deep to be read again. -/
theorem IsReachable.read_create_of_deep (hstore : IsReachable config store)
    (hbody : (Json.object fields).IsUnambiguous)
    (hdepth : Json.nestingLimit ≤ (Json.object fields).depth)
    (h : (create config store uri (.object fields)).1 = .ok ()) :
    (read config (create config store uri (.object fields)).2 uri).1
      = .error TextWriter.invalidText := by
  obtain ⟨_, _, _, -, -, -, hafter⟩ := hstore.exists_read_create hbody h
  exact hafter.trans (if_neg fun hfits => absurd (Nat.max_lt.mp hfits).2 hdepth.not_gt)

/-! ### The answers one segment further -/

/-- An answer has the name of an element, so it is free of delimiters. -/
theorem IsReachable.isLabel_of_read_eq_ok (hstore : IsReachable config store) {name : String}
    {answer : Json} (h : (read config store uri).1 = .ok (.object [(name, answer)])) :
    IsLabel name.toList := by
  rw [read_eq] at h
  obtain ⟨found, hfound, hanswer⟩ := bind_eq_ok_iff.mp h
  cases hnode : Datastore.find? store.nodes found.elements with
  | none =>
    rw [hnode] at hanswer
    cases hanswer
  | some node =>
    simp only [hnode] at hanswer
    rw [toJson_of_wellNamed (Datastore.wellNamed_find? hstore.wellNamed hnode)] at hanswer
    split at hanswer
    · obtain ⟨target, htarget, hname⟩ := Datastore.name_of_find? hnode
      have hpath := Identifier.isWellFormedPath_of_ofUri (identifier_eq_ok_iff.mp hfound).1
      have hfields : Forest.fields [node] = [(name, answer)] :=
        Json.object.inj (Except.ok.inj hanswer)
      have hname' : [node.name] = [name] := by
        rw [← List.map_singleton, ← names_fields, hfields]
        rfl
      rw [← (List.cons.inj hname').1, hname]
      exact (hpath.1 target (List.mem_of_getLast? htarget)).name
    · cases hanswer

/-- A node below a path is read one segment further, if its name can be a segment. -/
theorem IsReachable.read_slash (hstore : IsReachable config store) (hquery : '?' ∉ uri.toList)
    (hfragment : '#' ∉ uri.toList) {found : Identifier} {below : List Node} {node : Node}
    (hfound : identifier config uri = .ok found)
    (hbelow : Datastore.children found.elements store.nodes = .ok below) (hmem : node ∈ below)
    (hlabel : IsLabel node.name.toList) :
    (read config store (uri ++ "/" ++ Percent.encodeText node.name)).1
      = if Forest.depth [node] ≤ Json.nestingLimit then .ok (.object [Forest.field node])
        else .error TextWriter.invalidText := by
  have hrow := (Datastore.wellNamed_children hstore.wellNamed hbelow).row
  have hlonger := Identifier.ofUri_slash hquery hfragment (identifier_eq_ok_iff.mp hfound).1 hlabel
  refine hstore.read_of_find? (identifier_eq_ok_iff.mpr ⟨hlonger, by simp⟩) ?_
  exact Datastore.find?_eq_some_iff.mpr ⟨found.elements, _, below, rfl, hbelow,
    .sibling rfl (Datastore.sibling?_of_mem hrow hmem)⟩

/-- **A field of a body is read one segment further**, unless its name holds a delimiter; then it is
the answer to no query at all. -/
theorem IsReachable.read_field_create (hstore : IsReachable config store)
    (hquery : '?' ∉ uri.toList) (hfragment : '#' ∉ uri.toList)
    (hbody : (Json.object fields).IsUnambiguous)
    (hdepth : (Json.object fields).depth ≤ Json.nestingLimit)
    (h : (create config store uri (.object fields)).1 = .ok ()) {name : String} {value : Json}
    (hfield : (name, value) ∈ fields) :
    (':' ∉ name.toList → '=' ∉ name.toList →
        (read config (create config store uri (.object fields)).2
            (uri ++ "/" ++ Percent.encodeText name)).1
          = .ok (.object [(name, value.normalize)]))
      ∧ (':' ∈ name.toList ∨ '=' ∈ name.toList → ∀ path answer,
          (read config (create config store uri (.object fields)).2 path).1
            ≠ .ok (.object [(name, answer)])) := by
  have hcreated := hstore.after_create uri hbody
  refine ⟨fun hcolon hequals => ?_, fun hdelimiter path answer hread => ?_⟩
  · obtain ⟨found, below, nodes, hfound, hnodes, -, hafter⟩ := of_create_eq_ok h
    obtain ⟨node, hmem, hname, hnode⟩ :=
      Json.exists_mem_of_forall₂ (Json.nodesOf_eq_ok_iff.mp hnodes).flip hfield
    -- the object of the answer takes the place of the object of the body
    have hshallow : Forest.depth [node] ≤ Json.nestingLimit := by
      have hrowDepth := (Json.of_nodesOf_eq_ok hnodes).2.1
      have hnodeDepth := rowDepth_le_iff.mp hrowDepth.le node hmem
      rw [Json.depth] at hdepth
      rw [Forest.depth, rowDepth, rowDepth, Nat.max_zero]
      omega
    obtain rfl := hnode.name_eq
    have hlabel : IsLabel node.name.toList := ⟨by simpa using hname, hcolon, hequals⟩
    have hanswer := hcreated.read_slash hquery hfragment hfound hafter
      (List.mem_append_right below hmem) hlabel
    rw [hanswer, if_pos hshallow, hnode.field_eq]
  · have hlabel := hcreated.isLabel_of_read_eq_ok hread
    rcases hdelimiter with hcolon | hequals
    · exact hlabel.2.1 hcolon
    · exact hlabel.2.2 hequals

/-- Under an entry of a list: a name with a blank is reached by its escape, and a name with a colon
by no path. -/
theorem IsReachable.read_field_create_entry :
    let config : ServiceConfig := { rootPath := "/r" }
    let store : Datastore := { nodes := [.container "top" [.list "if" [[.leaf "name" "a"]]]] }
    let body : List (String × Json) :=
      [("x y", .object [("z", .number (.integer 1))]), ("k:v", .bool true)]
    (create config store "/r/data/top/if=a" (.object body)).1 = .ok ()
      ∧ (read config (create config store "/r/data/top/if=a" (.object body)).2
            "/r/data/top/if=a/x%20y").1
          = .ok (.object [("x y", .object [("z", .string "1")])])
      ∧ ∀ path answer,
          (read config (create config store "/r/data/top/if=a" (.object body)).2 path).1
            ≠ .ok (.object [("k:v", answer)]) := by
  intro config store body
  have hseed : (Json.object [("top", .object [("if", .array [.object
      [("name", .string "a")]])])]).merge.toTree = .ok store.nodes := rfl
  have hstore : IsReachable config store :=
    isReachable_start (Or.inr (isFromDocument_of_merge hseed))
  have hbody : (Json.object body).IsUnambiguous := Json.isUnambiguous_merge (.object body)
  have hcreate : (create config store "/r/data/top/if=a" (.object body)).1 = .ok () := by decide
  have hblank := (hstore.read_field_create (by decide) (by decide) hbody (by decide) hcreate
    (List.mem_cons_self)).1 (by decide) (by decide)
  have hcolon := (hstore.read_field_create (by decide) (by decide) hbody (by decide) hcreate
    (List.mem_cons_of_mem _ List.mem_cons_self)).2 (Or.inl (by decide))
  exact ⟨hcreate, hblank, hcolon⟩

/-- A colon in a name makes what stands before it a namespace, escaped or not, so the field is not
found one segment further. -/
theorem read_field_create_colon :
    let config : ServiceConfig := { rootPath := "/r" }
    let store : Datastore := {}
    let body : List (String × Json) := [("a:b", .string "1")]
    IsReachable config store ∧ '?' ∉ "/r/data/top".toList ∧ '#' ∉ "/r/data/top".toList
      ∧ (Json.object body).IsUnambiguous ∧ (Json.object body).depth ≤ Json.nestingLimit
      ∧ (create config store "/r/data/top" (.object body)).1 = .ok ()
      ∧ (read config (create config store "/r/data/top" (.object body)).2
            ("/r/data/top" ++ "/" ++ Percent.encodeText "a:b")).1
          = .error (.notFound "/r/data/top/a%3Ab") := by
  intro config store body
  have hidentifier : identifier config "/r/data/top/a%3Ab"
      = .ok ⟨"/r", [⟨"top", none, .single, []⟩, ⟨"b", some "a", .single, []⟩]⟩ := by decide
  refine ⟨isReachable_start (Or.inl rfl), by decide, by decide,
    Json.isUnambiguous_merge (.object body), by decide, by decide, ?_⟩
  exact read_of_find?_none hidentifier (by decide)

end Service

end Restconf
