import Restconf.Proofs.Engine.Graft
import Restconf.Proofs.Resource.Uri
import Restconf.Proofs.Tree.Regular

/-!
# Names in a datastore

At every level of a datastore the siblings have names, and no two of them have the same. Finding a
node by its name and rendering a row as an object both rely on it, and no edit breaks it.

## What an edit can do to a row

Along its path an edit changes three kinds of row: it puts a node of the same name in the place of
another, it adds nodes of other names behind a row, or it takes nodes out. Each of the three keeps
the names of a row distinct, and the lemmas of the first section say so for all levels below as
well. What is left to do is to see that every edit is made of these.

An entry that is removed may be the last one of its list, so a datastore need not be regular in the
sense of `Forest.IsRegular`: lists without entries do occur.

## Main definitions

* `Forest.IsFromDocument` — the forests that a document is turned into
* `Datastore.Removal` — what a deletion leaves of a row
* `Request.IsFromClient`, `TreeEngine.executeAll` — runs of requests

## Main results

* `Datastore.addNodes_eq_ok_iff`, `Datastore.putNode_cases`, `Datastore.removeTarget_eq_ok_iff` —
  the three edits at the end of their path
* `Datastore.wellNamed_edit` — what one edit keeps
* `Datastore.everywhere_wellNamed_executeAll` — what every run keeps
-/

namespace Restconf

open Forest

/-! ### Rows with distinct names -/

namespace Forest

variable {row before after others : List Node} {node new : Node}

/-- A node in the place of another one of the same name. -/
theorem wellNamed_replace (h : Everywhere IsWellNamed (before ++ node :: after))
    (hname : new.name = node.name) (hnew : Below IsWellNamed new) :
    Everywhere IsWellNamed (before ++ new :: after) := by
  obtain ⟨hrow, hbelow⟩ := everywhere_iff.mp h
  refine everywhere_iff.mpr ⟨?_, ?_⟩
  · rw [isWellNamed_iff] at hrow ⊢
    simpa [hname] using hrow
  · simp only [List.forall_mem_append, List.forall_mem_cons] at hbelow ⊢
    exact ⟨hbelow.1, hnew, hbelow.2.2⟩

/-- Nodes of other names behind a row. -/
theorem wellNamed_append (hrow : Everywhere IsWellNamed row)
    (hothers : Everywhere IsWellNamed others)
    (hfresh : ∀ node ∈ others, ∀ old ∈ row, old.name ≠ node.name) :
    Everywhere IsWellNamed (row ++ others) := by
  obtain ⟨hnames, hbelow⟩ := everywhere_iff.mp hrow
  obtain ⟨hnames', hbelow'⟩ := everywhere_iff.mp hothers
  refine everywhere_iff.mpr ⟨⟨?_, ?_⟩, ?_⟩
  · exact List.forall_mem_append.mpr ⟨hnames.named, hnames'.named⟩
  · rw [List.map_append, List.nodup_append]
    refine ⟨hnames.distinct, hnames'.distinct, fun name hold name' hnew => ?_⟩
    obtain ⟨old, hmem, rfl⟩ := List.mem_map.mp hold
    obtain ⟨node, hmem', rfl⟩ := List.mem_map.mp hnew
    exact hfresh node hmem' old hmem
  · exact List.forall_mem_append.mpr ⟨hbelow, hbelow'⟩

/-- A row without some of its nodes. -/
theorem wellNamed_filter (h : Everywhere IsWellNamed row) (p : Node → Bool) :
    Everywhere IsWellNamed (row.filter p) := by
  obtain ⟨hrow, hbelow⟩ := everywhere_iff.mp h
  refine everywhere_iff.mpr ⟨⟨?_, ?_⟩, ?_⟩
  · exact fun node hmem => hrow.named node (List.mem_of_mem_filter hmem)
  · exact hrow.distinct.sublist (List.filter_sublist.map Node.name)
  · exact fun node hmem => hbelow node (List.mem_of_mem_filter hmem)

theorem wellNamed_nil : Everywhere IsWellNamed [] :=
  everywhere_iff.mpr ⟨⟨fun _ h => absurd h List.not_mem_nil, List.nodup_nil⟩,
    fun _ h => absurd h List.not_mem_nil⟩

theorem wellNamed_singleton (hname : node.name ≠ "") (h : Below IsWellNamed node) :
    Everywhere IsWellNamed [node] :=
  everywhere_iff.mpr ⟨⟨List.forall_mem_singleton.mpr hname, List.pairwise_singleton _ _⟩,
    List.forall_mem_singleton.mpr h⟩

/-- A forest that a document is turned into. A document is a JSON value, so that no object in it has
two fields of one name. -/
def IsFromDocument (nodes : List Node) : Prop :=
  ∃ document : Json, document.IsUnambiguous ∧ document.toTree = .ok nodes

theorem isFromDocument_nil : IsFromDocument [] :=
  ⟨.object [], .object List.nodup_nil fun _ h => absurd h List.not_mem_nil, rfl⟩

theorem isFromDocument_of_merge {document : Json} {nodes : List Node}
    (h : document.merge.toTree = .ok nodes) : IsFromDocument nodes :=
  ⟨document.merge, Json.isUnambiguous_merge document, h⟩

theorem IsFromDocument.wellNamed {nodes : List Node} (h : IsFromDocument nodes) :
    Everywhere IsWellNamed nodes := by
  obtain ⟨document, hdocument, htree⟩ := h
  rw [Json.toTree_eq] at htree
  cases document with
  | object fields =>
    exact (Json.everywhere_isRegular hdocument htree).mono fun _ hrow => hrow.isWellNamed
  | _ => cases htree

end Forest

namespace Datastore

variable {create : Bool} {element target : Element} {path : List Element}
  {below changed row result : List Node}

/-! ### Along the path -/

theorem Level.wellNamed (h : Level create element below changed row result)
    (hname : element.name ≠ "") (hrow : Everywhere IsWellNamed row) :
    Everywhere IsWellNamed below
      ∧ (Everywhere IsWellNamed changed → Everywhere IsWellNamed result) := by
  cases h with
  | container kind first =>
    have hbelow := (everywhere_iff.mp hrow).2 _ (List.mem_append_cons_self)
    exact ⟨hbelow, fun hchanged => wellNamed_replace hrow rfl hchanged⟩
  | entry kind first firstEntry selected =>
    have hentries := (everywhere_iff.mp hrow).2 _ (List.mem_append_cons_self)
    have hall := List.forall_mem_append.mp hentries
    obtain ⟨hentry, hlater⟩ := List.forall_mem_cons.mp hall.2
    refine ⟨hentry, fun hchanged => wellNamed_replace hrow rfl ?_⟩
    exact List.forall_mem_append.mpr ⟨hall.1, List.forall_mem_cons.mpr ⟨hchanged, hlater⟩⟩
  | added kind allowed new =>
    refine ⟨wellNamed_nil, fun hchanged => wellNamed_append hrow ?_ ?_⟩
    · exact wellNamed_singleton hname hchanged
    · exact List.forall_mem_singleton.mpr new

theorem Graft.wellNamed (h : Graft create path below changed row result)
    (hpath : ∀ element ∈ path, element.name ≠ "") (hrow : Everywhere IsWellNamed row) :
    Everywhere IsWellNamed below
      ∧ (Everywhere IsWellNamed changed → Everywhere IsWellNamed result) := by
  induction h with
  | here => exact ⟨hrow, id⟩
  | under level deeper ih =>
    obtain ⟨hname, hrest⟩ := List.forall_mem_cons.mp hpath
    obtain ⟨hinner, hresult⟩ := level.wellNamed hname hrow
    obtain ⟨hbelow, hinnerResult⟩ := ih hrest hinner
    exact ⟨hbelow, fun hchanged => hresult (hinnerResult hchanged)⟩

theorem wellNamed_children (hrow : Everywhere IsWellNamed row)
    (h : children path row = .ok below) : Everywhere IsWellNamed below := by
  induction path generalizing row with
  | nil => exact Except.ok.inj h ▸ hrow
  | cons element path ih =>
    rw [children_cons] at h
    obtain ⟨inner, hinner, hbelow⟩ := bind_eq_ok_iff.mp h
    refine ih ?_ hbelow
    rcases children_singleton_eq_ok_iff.mp hinner with
      ⟨-, hsibling⟩ | ⟨-, entries, hsibling, hentry⟩
    · exact hrow.children (mem_of_sibling? hsibling)
    · exact hrow.entry (mem_of_sibling? hsibling) (List.mem_of_find?_eq_some hentry)

/-- What a query finds is well named in itself. -/
theorem wellNamed_find? {node : Node} (hrow : Everywhere IsWellNamed row)
    (h : find? row path = some node) : Everywhere IsWellNamed [node] := by
  obtain ⟨parents, target, inner, -, hinner, hfound⟩ := find?_eq_some_iff.mp h
  have hwell := wellNamed_children hrow hinner
  have hmem {other : Node} (hother : sibling? target.name inner = some other) :
      other.name ≠ "" ∧ Below IsWellNamed other :=
    ⟨hwell.row.named other (mem_of_sibling? hother),
      (everywhere_iff.mp hwell).2 other (mem_of_sibling? hother)⟩
  cases hfound with
  | sibling _ found => exact wellNamed_singleton (hmem found).1 (hmem found).2
  | entry _ list selected =>
    exact wellNamed_singleton (hmem list).1 ((hmem list).2 _ (List.mem_of_find?_eq_some selected))
  | value _ leafList => exact wellNamed_singleton (hmem leafList).1 trivial

/-- Where names are distinct, every node is the one that its name finds. -/
theorem sibling?_of_mem {node : Node} (hrow : IsWellNamed row) (h : node ∈ row) :
    sibling? node.name row = some node := by
  obtain ⟨before, after, rfl⟩ := List.append_of_mem h
  refine sibling?_append_cons rfl fun other hmem hname => ?_
  have hdistinct := hrow.distinct
  rw [List.map_append, List.nodup_append] at hdistinct
  exact hdistinct.2.2 _ (List.mem_map_of_mem hmem) _ (List.mem_map_of_mem List.mem_cons_self) hname

/-! ### At the end of the path -/

/-- Nodes are added behind the others, if none of them has the name of one that is there. -/
theorem addNodes_eq_ok_iff {identifier : Identifier} {payload : List Node} :
    addNodes identifier payload row = .ok result
      ↔ (∀ node ∈ payload, ∀ old ∈ row, old.name ≠ node.name) ∧ result = row ++ payload := by
  have hnone : payload.find? (fun node => (sibling? node.name row).isSome) = none
      ↔ ∀ node ∈ payload, ∀ old ∈ row, old.name ≠ node.name := by
    simp only [List.find?_eq_none, Option.not_isSome_iff_eq_none, sibling?_eq_none_iff]
  rw [addNodes, ← hnone]
  cases payload.find? fun node => (sibling? node.name row).isSome with
  | some existing => simp
  | none => simp [eq_comm]

/-- A node is put in the place of the first one of its name, or behind a row without its name. -/
theorem putNode_cases (row : List Node) (node : Node) :
    (∃ before old after, row = before ++ old :: after ∧ old.name = node.name
        ∧ putNode row node = before ++ node :: after)
      ∨ (∀ old ∈ row, old.name ≠ node.name) ∧ putNode row node = row ++ [node] := by
  induction row with
  | nil => exact Or.inr ⟨fun _ h => absurd h List.not_mem_nil, rfl⟩
  | cons first rest ih =>
    rw [putNode]
    by_cases hname : first.name = node.name
    · exact Or.inl ⟨[], first, rest, rfl, hname, if_pos hname⟩
    · rw [if_neg hname]
      rcases ih with ⟨before, old, after, rfl, hold, hput⟩ | ⟨hfresh, hput⟩
      · exact Or.inl ⟨first :: before, old, after, rfl, hold, by rw [hput, List.cons_append]⟩
      · exact Or.inr ⟨List.forall_mem_cons.mpr ⟨hname, hfresh⟩, by rw [hput, List.cons_append]⟩

theorem wellNamed_putNode {node : Node} (hrow : Everywhere IsWellNamed row)
    (hname : node.name ≠ "") (hnode : Below IsWellNamed node) :
    Everywhere IsWellNamed (putNode row node) := by
  rcases putNode_cases row node with ⟨before, old, after, rfl, hold, hput⟩ | ⟨hfresh, hput⟩
  · exact hput ▸ wellNamed_replace hrow hold.symm hnode
  · exact hput ▸ wellNamed_append hrow (wellNamed_singleton hname hnode)
      (List.forall_mem_singleton.mpr hfresh)

/-- What a deletion leaves of a row: it takes out the nodes of a name, the entries with some keys,
or a value. -/
inductive Removal (target : Element) : (row result : List Node) → Prop where
  | nodes {row : List Node} (kind : target.kind = .single)
      (present : ∃ node ∈ row, node.name = target.name) :
      Removal target row (row.filter fun node => decide (node.name ≠ target.name))
  | entries {before after : List Node} {entries : List (List Node)} (kind : target.kind = .multi)
      (first : ∀ node ∈ before, node.name ≠ target.name)
      (present : ∃ entry ∈ entries, entryMatches target.keys entry = true) :
      Removal target (before ++ .list target.name entries :: after)
        (before ++ .list target.name (entries.filter fun entry => !entryMatches target.keys entry)
          :: after)
  | value {before after : List Node} {values : TextSet} {key : String}
      (kind : target.kind = .multi) (keys : target.keys = [key])
      (first : ∀ node ∈ before, node.name ≠ target.name) (present : key ∈ values) :
      Removal target (before ++ .leafList target.name values :: after)
        (before ++ .leafList target.name (values.erase key) :: after)

/-- **Deletions that succeed are removals.** -/
theorem removeTarget_eq_ok_iff {identifier : Identifier} :
    removeTarget identifier target row = .ok result ↔ Removal target row result := by
  rw [removeTarget]
  constructor
  · intro h
    split at h
    · next kind =>
      split at h
      · next hsome =>
        obtain rfl := Except.ok.inj h
        obtain ⟨node, hnode⟩ := Option.isSome_iff_exists.mp hsome
        exact .nodes kind ⟨node, mem_of_sibling? hnode, name_of_sibling? hnode⟩
      · cases h
    · next kind =>
      split at h
      · next before name entries after hsplit =>
        obtain ⟨rfl, rfl, first⟩ := splitFirst_name_eq_some_iff.mp hsplit
        split at h
        · next hany =>
          obtain rfl := Except.ok.inj h
          exact .entries kind first (List.any_eq_true.mp hany)
        · cases h
      · next before name values after hsplit =>
        obtain ⟨rfl, rfl, first⟩ := splitFirst_name_eq_some_iff.mp hsplit
        split at h
        · next key keys =>
          split at h
          · next present =>
            obtain rfl := Except.ok.inj h
            exact .value kind keys first present
          · cases h
        · cases h
      · cases h
  · intro h
    cases h with
    | nodes kind present =>
      obtain ⟨node, hmem, hname⟩ := present
      have hsome : (sibling? target.name row).isSome = true := by
        rw [← Option.ne_none_iff_isSome, Ne, sibling?_eq_none_iff]
        exact fun hnone => hnone node hmem hname
      rw [kind]
      exact if_pos hsome
    | @entries before after entries kind first present =>
      have hname : (Node.list target.name entries).name = target.name := rfl
      rw [kind, splitFirst_name_append_cons hname first]
      exact if_pos (List.any_eq_true.mpr present)
    | @value before after values key kind keys first present =>
      have hname : (Node.leafList target.name values).name = target.name := rfl
      rw [kind, splitFirst_name_append_cons hname first, keys]
      exact if_pos present

theorem Removal.wellNamed (h : Removal target row result) (hrow : Everywhere IsWellNamed row) :
    Everywhere IsWellNamed result := by
  cases h with
  | nodes => exact wellNamed_filter hrow _
  | entries =>
    have hentries := (everywhere_iff.mp hrow).2 _ (List.mem_append_cons_self)
    exact wellNamed_replace hrow rfl fun entry hmem => hentries entry (List.mem_of_mem_filter hmem)
  | value => exact wellNamed_replace hrow rfl trivial

/-! ### One edit -/

/-- **An edit keeps the names of siblings distinct**, at every level of the forest. -/
theorem wellNamed_edit {intent : Intent} {identifier : Identifier} {payload : List Node}
    (hpath : ∀ element ∈ identifier.elements, element.name ≠ "")
    (hpayload : Everywhere IsWellNamed payload) (hrow : Everywhere IsWellNamed row)
    (h : edit intent identifier payload row = .ok result) : Everywhere IsWellNamed result := by
  cases intent with
  | create =>
    obtain ⟨below, changed, hgraft, hchange⟩ := modify_eq_ok_iff.mp h
    obtain ⟨hbelow, hresult⟩ := hgraft.wellNamed hpath hrow
    obtain ⟨hfresh, rfl⟩ := addNodes_eq_ok_iff.mp hchange
    exact hresult (wellNamed_append hbelow hpayload hfresh)
  | replace =>
    obtain ⟨below, changed, hgraft, hchange⟩ := modify_eq_ok_iff.mp h
    obtain ⟨hbelow, hresult⟩ := hgraft.wellNamed hpath hrow
    obtain rfl := Except.ok.inj hchange
    -- by induction on the payload: what is put so far is well named
    refine hresult ?_
    obtain ⟨hnames, hnodes⟩ := everywhere_iff.mp hpayload
    have hnamed := hnames.named
    clear h hchange hgraft hresult hpayload hnames
    induction payload generalizing below with
    | nil => exact hbelow
    | cons node payload ih =>
      obtain ⟨hname, hnamed⟩ := List.forall_mem_cons.mp hnamed
      obtain ⟨hnode, hnodes⟩ := List.forall_mem_cons.mp hnodes
      exact ih _ (wellNamed_putNode hbelow hname hnode) hnodes hnamed
  | delete =>
    rw [edit] at h
    split at h
    · cases h
    · next target htarget =>
      obtain ⟨below, changed, hgraft, hchange⟩ := modify_eq_ok_iff.mp h
      obtain ⟨hbelow, hresult⟩ :=
        hgraft.wellNamed (fun element hmem => hpath element (List.dropLast_subset _ hmem)) hrow
      exact hresult ((removeTarget_eq_ok_iff.mp hchange).wellNamed hbelow)

end Datastore

/-! ### Runs of requests -/

/-- A request as clients can make it: its identifier is that of a URI, and its payload is the tree
of a document. -/
structure Request.IsFromClient (request : Request) : Prop where
  identifier : ∃ root uri, Identifier.ofUri root uri = .ok request.identifier
  payload : IsFromDocument request.payload

/-- An engine after requests, whether they succeed or fail. -/
def TreeEngine.executeAll {ε : Type} [TreeEngine ε] (engine : ε) (requests : List Request) : ε :=
  requests.foldl (fun engine request => (TreeEngine.execute engine request).2) engine

namespace Datastore

theorem execute_query (store : Datastore) (identifier : Identifier) (payload : List Node) :
    TreeEngine.execute store { operation := .query, identifier, payload }
      = (.ok (find? store.nodes identifier.elements), store) := rfl

theorem execute_edit_of_eq_ok {store : Datastore} {intent : Intent} {identifier : Identifier}
    {payload after : List Node} (h : edit intent identifier payload store.nodes = .ok after) :
    TreeEngine.execute store { operation := .edit intent, identifier, payload }
      = (.ok none, ({ store with nodes := after } : Datastore).announce intent identifier) := by
  have hcommit : store.commit intent identifier payload = .ok { store with nodes := after } := by
    rw [commit, h]
    rfl
  simp only [TreeEngine.execute, hcommit]

theorem execute_edit_of_eq_error {store : Datastore} {intent : Intent} {identifier : Identifier}
    {payload : List Node} {fault : Fault}
    (h : edit intent identifier payload store.nodes = .error fault) :
    TreeEngine.execute store { operation := .edit intent, identifier, payload }
      = (.error fault, store) := by
  have hcommit : store.commit intent identifier payload = .error fault := by
    rw [commit, h]
    rfl
  simp only [TreeEngine.execute, hcommit]

/-- A request leaves the nodes as they are, or makes an edit of them. -/
theorem nodes_execute (store : Datastore) (request : Request) :
    (TreeEngine.execute store request).2.nodes = store.nodes
      ∨ ∃ intent, edit intent request.identifier request.payload store.nodes
          = .ok (TreeEngine.execute store request).2.nodes := by
  obtain ⟨operation, identifier, payload⟩ := request
  cases operation with
  | query => exact Or.inl rfl
  | edit intent =>
    cases h : edit intent identifier payload store.nodes with
    | error fault => exact Or.inl (by rw [execute_edit_of_eq_error h])
    | ok nodes => exact Or.inr ⟨intent, by rw [h, execute_edit_of_eq_ok h]; rfl⟩

theorem wellNamed_execute {store : Datastore} {request : Request} (h : request.IsFromClient)
    (hstore : Everywhere IsWellNamed store.nodes) :
    Everywhere IsWellNamed (TreeEngine.execute store request).2.nodes := by
  rcases nodes_execute store request with hsame | ⟨intent, hedit⟩
  · exact hsame ▸ hstore
  · obtain ⟨root, uri, huri⟩ := h.identifier
    exact wellNamed_edit (Identifier.name_ne_of_ofUri huri) h.payload.wellNamed hstore hedit

/-- **At every moment of every run the siblings have names and no two the same**, at every level. -/
theorem everywhere_wellNamed_executeAll {nodes : List Node} {requests : List Request}
    (hseed : nodes = [] ∨ IsFromDocument nodes)
    (hrequests : ∀ request ∈ requests, request.IsFromClient) :
    Everywhere IsWellNamed (TreeEngine.executeAll ({ nodes } : Datastore) requests).nodes := by
  have hrun (store : Datastore) (hstore : Everywhere IsWellNamed store.nodes) :
      Everywhere IsWellNamed (TreeEngine.executeAll store requests).nodes := by
    clear hseed
    induction requests generalizing store with
    | nil => exact hstore
    | cons request requests ih =>
      obtain ⟨hrequest, hrequests⟩ := List.forall_mem_cons.mp hrequests
      exact ih hrequests _ (wellNamed_execute hrequest hstore)
  refine hrun _ ?_
  rcases hseed with rfl | hseed
  · exact wellNamed_nil
  · exact hseed.wellNamed

/-- A leaf added to one of two entries, the other one removed, a missing container made, and a node
that exists already refused. -/
theorem everywhere_wellNamed_executeAll_entries :
    let top : Element := ⟨"top", none, .single, []⟩
    let entry (name : String) : Element := ⟨"if", none, .multi, [name]⟩
    let seed : List Node :=
      [.container "top" [.list "if" [[.leaf "name" "a"], [.leaf "name" "b"]]]]
    let requests : List Request := [
      { operation := .edit .replace, identifier := ⟨"/r", [top, entry "a"]⟩
        payload := [.leaf "mtu" "9"] },
      { operation := .edit .delete, identifier := ⟨"/r", [top, entry "b"]⟩ },
      { operation := .edit .create, identifier := ⟨"/r", [⟨"new", none, .single, []⟩]⟩
        payload := [.leaf "x" "1"] },
      { operation := .edit .create, identifier := ⟨"/r", []⟩, payload := [.leaf "top" "1"] }]
    (TreeEngine.executeAll ({ nodes := seed } : Datastore) requests).nodes
        = [.container "top" [.list "if" [[.leaf "name" "a", .leaf "mtu" "9"]]],
            .container "new" [.leaf "x" "1"]]
      ∧ Everywhere IsWellNamed
          (TreeEngine.executeAll ({ nodes := seed } : Datastore) requests).nodes := by
  intro top entry seed requests
  have hdocument (fields : List (String × Json)) (nodes : List Node)
      (h : (Json.object fields).merge.toTree = .ok nodes) : IsFromDocument nodes :=
    isFromDocument_of_merge h
  have hseed : IsFromDocument seed :=
    hdocument [("top", .object [("if", .array [.object [("name", .string "a")],
      .object [("name", .string "b")]])])] _ rfl
  refine ⟨by decide, everywhere_wellNamed_executeAll (Or.inr hseed) ?_⟩
  simp only [requests, List.forall_mem_cons, List.not_mem_nil, false_implies, implies_true,
    and_true]
  exact ⟨⟨⟨"/r", "/r/data/top/if=a", rfl⟩, hdocument [("mtu", .string "9")] _ rfl⟩,
    ⟨⟨"/r", "/r/data/top/if=b", rfl⟩, isFromDocument_nil⟩,
    ⟨⟨"/r", "/r/data/new", rfl⟩, hdocument [("x", .string "1")] _ rfl⟩,
    ⟨"/r", "/r/data", rfl⟩, hdocument [("top", .string "1")] _ rfl⟩

end Datastore

end Restconf
