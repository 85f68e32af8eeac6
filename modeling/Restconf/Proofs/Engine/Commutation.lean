import Restconf.Proofs.Engine.Creation
import Restconf.Proofs.Engine.Succession

/-!
# Edits of separate branches in either order

Two edits whose paths share some elements and then name different siblings can be made in either
order. Each of them succeeds or fails as it would in the other order, and the forests that come of
it are the same but for the order of siblings.

## What an edit sees of a row

In the row where the paths part, an edit looks for the nodes of one name and does not look at the
others. So it makes of the row what it would make of the nodes of its name alone, and it leaves the
nodes of other names alone: `Datastore.IsConfinedTo`. Two changes that are confined to different
names cannot tell which of them comes first. What can be told afterwards is only which of two new
nodes was put behind the other.

## Where the row is not there yet

The shared elements may lead to nothing. A creation or a replacement then makes the containers that
are missing, and the row where the paths part is a new one, without nodes. The edit that comes
second finds the row, where it would have found nothing had it come first. For an edit that makes
containers itself this is no difference. A deletion fails in either case, because there is nothing
in the row that it could take out; only the node that it misses is another one.

## Main definitions

* `Forest.UpToOrder` — equal but for the order of siblings
* `Datastore.Agree` — outcomes of the same kind
* `Datastore.IsConfinedTo` — changes that go by the nodes of one name
* `Datastore.IsBranch` — the part of an edit that begins where it parts from another
* `Datastore.LeadsTo` — the row at the end of single elements, whether it is there or can be made

## Main results

* `Datastore.exists_branch_change` — an edit as a branch at the end of the shared elements
* `Datastore.exists_leadsTo_or_blocked` — what the shared elements can lead to
* `Datastore.commutes` — the headline
-/

namespace Restconf

/-! ### Up to the order of siblings -/

/-- **Equal up to the order of siblings**, at every level. -/
inductive Forest.UpToOrder : List Node → List Node → Prop where
  | siblings {row others : List Node} (h : row.Perm others) : UpToOrder row others
  /-- Among the children of a container. -/
  | children {before after below others : List Node} {name : String} (h : UpToOrder below others) :
      UpToOrder (before ++ .container name below :: after)
        (before ++ .container name others :: after)
  /-- Among the nodes of an entry. -/
  | entry {before after entry others : List Node} {earlier later : List (List Node)} {name : String}
      (h : UpToOrder entry others) :
      UpToOrder (before ++ .list name (earlier ++ entry :: later) :: after)
        (before ++ .list name (earlier ++ others :: later) :: after)
  | trans {row others more : List Node} (h : UpToOrder row others) (h' : UpToOrder others more) :
      UpToOrder row more

namespace Datastore

open Forest

variable {α β γ : Type} {create : Bool} {intent : Intent} {element : Element}
  {shared path rest : List Element} {nodes row below changed result : List Node}
  {change first second : List Node → Except Fault (List Node)} {put : List Node → List Node}
  {identifier : Identifier} {name other : String}

/-- Rows that are the same up to order make forests that are. -/
theorem Graft.upToOrder (h : Graft false path below changed row result)
    (hbelow : UpToOrder below changed) : UpToOrder row result := by
  induction h with
  | here => exact hbelow
  | under level _ ih =>
    cases level with
    | container => exact .children (ih hbelow)
    | entry => exact .entry (ih hbelow)
    | added _ allowed => cases allowed

/-! ### Outcomes -/

/-- **Outcomes of the same kind**: two successes, or twice the same fault, except that of two faults
of a missing node each may name another node. -/
inductive Agree : Except Fault α → Except Fault β → Prop where
  | succeeded (a : α) (b : β) : Agree (.ok a) (.ok b)
  | failed (fault : Fault) : Agree (.error fault) (.error fault)
  | missed (one other : String) : Agree (.error (.notFound one)) (.error (.notFound other))

theorem Agree.symm {o : Except Fault α} {o' : Except Fault β} (h : Agree o o') : Agree o' o := by
  cases h with
  | succeeded a b => exact .succeeded b a
  | failed fault => exact .failed fault
  | missed one other => exact .missed other one

theorem Agree.trans {o : Except Fault α} {o' : Except Fault β} {o'' : Except Fault γ}
    (h : Agree o o') (h' : Agree o' o'') : Agree o o'' := by
  cases h with
  | succeeded a b => cases h' with | succeeded _ c => exact .succeeded a c
  | failed fault =>
    cases h' with
    | failed => exact .failed fault
    | missed one other => exact .missed one other
  | missed one other =>
    cases h' with
    | failed => exact .missed one other
    | missed _ more => exact .missed one more

theorem Agree.exists_ok {o : Except Fault α} {b : β} (h : Agree o (.ok b : Except Fault β)) :
    ∃ a, o = .ok a := by
  cases h with
  | succeeded a => exact ⟨a, rfl⟩

theorem Agree.exists_error {o : Except Fault α} {fault : Fault}
    (h : Agree o (.error fault : Except Fault β)) : ∃ fault, o = .error fault := by
  cases h with
  | failed => exact ⟨fault, rfl⟩
  | missed one => exact ⟨_, rfl⟩

/-- What is made of the results of successes does not matter. -/
theorem agree_of_map_eq {o : Except Fault α} {o' : Except Fault β} {f : α → γ} {g : β → γ}
    (h : o.map f = o'.map g) : Agree o o' := by
  cases o with
  | ok a =>
    cases o' with
    | ok b => exact .succeeded a b
    | error fault => cases h
  | error fault =>
    cases o' with
    | ok b => cases h
    | error fault' =>
      obtain rfl : fault = fault' := Except.error.inj h
      exact .failed fault

/-- The nodes after a change, which are the old ones if it failed. -/
def settled (nodes : List Node) : Except Fault (List Node) → List Node
  | .ok result => result
  | .error _ => nodes

/-! ### Changes that go by the nodes of one name -/

/-- The nodes of a name. -/
def only (name : String) (row : List Node) : List Node :=
  row.filter fun node => decide (node.name = name)

/-- **A change that goes by the nodes of one name.** -/
structure IsConfinedTo (name : String) (change : List Node → Except Fault (List Node)) : Prop where
  /-- Whether it succeeds, and what it makes of these nodes, does not depend on any other. -/
  sees : ∀ row, change (only name row) = (change row).map (only name)
  /-- The others stay as they are. -/
  spares : ∀ row result, change row = .ok result → without name result = without name row

theorem only_append_cons {before after : List Node} {node : Node} (hname : node.name = name)
    (first : ∀ other ∈ before, other.name ≠ name) :
    only name (before ++ node :: after) = node :: only name after := by
  have hbefore : before.filter (fun node => decide (node.name = name)) = [] := by
    simpa [List.filter_eq_nil_iff] using first
  rw [only, List.filter_append, hbefore, List.nil_append, List.filter_cons_of_pos (by simpa)]
  rfl

/-- The node that is made of the first one of its name. -/
theorem ok_cons_only {before after : List Node} {node : Node} (hname : node.name = name)
    (first : ∀ other ∈ before, other.name ≠ name) :
    (.ok (node :: only name after) : Except Fault (List Node))
      = .ok (only name (before ++ node :: after)) :=
  congrArg Except.ok (only_append_cons hname first).symm

theorem splitFirst_cons_only {after : List Node} {node : Node} (hname : node.name = name) :
    splitFirst (fun node => decide (node.name = name)) (node :: only name after)
      = some ([], node, only name after) :=
  splitFirst_name_append_cons hname (List.forall_mem_nil _)

theorem only_eq_nil (h : ∀ node ∈ row, node.name ≠ name) : only name row = [] := by
  simpa [only, List.filter_eq_nil_iff] using h

theorem only_without (h : other ≠ name) : only other (without name row) = only other row := by
  rw [only, without, List.filter_filter, only]
  congr 1
  funext node
  by_cases hnode : node.name = other
  · simp [hnode, h]
  · simp [hnode]

theorem without_comm : without other (without name row) = without name (without other row) := by
  rw [without, without, List.filter_comm]
  rfl

/-- A row is made up of the nodes of two names and the others. -/
theorem perm_parts (h : other ≠ name) (row : List Node) :
    row.Perm (only name row ++ (only other row ++ without other (without name row))) := by
  have hsplit (name : String) (row : List Node) : (only name row ++ without name row).Perm row := by
    have hparts := List.filter_append_perm (fun node : Node => decide (node.name = name)) row
    simpa [only, without, decide_not] using hparts
  have hothers := hsplit other (without name row)
  rw [only_without h] at hothers
  exact (hsplit name row).symm.trans (hothers.symm.append_left _)

theorem perm_of_parts (h : other ≠ name) (hname : only name row = only name result)
    (hother : only other row = only other result)
    (hrest : without other (without name row) = without other (without name result)) :
    row.Perm result := by
  have hparts := perm_parts h row
  rw [hname, hother, hrest] at hparts
  exact hparts.trans (perm_parts h result).symm

namespace IsConfinedTo

theorem without_settled (h : IsConfinedTo name change) (row : List Node) :
    without name (settled row (change row)) = without name row := by
  cases hchange : change row with
  | ok result => exact h.spares row result hchange
  | error fault => rfl

theorem only_settled (h : IsConfinedTo name change) (row : List Node) :
    only name (settled row (change row)) = settled (only name row) (change (only name row)) := by
  rw [h.sees]
  cases change row <;> rfl

/-- What stays as it is of the nodes of other names. -/
theorem only_settled_of_ne (h : IsConfinedTo name change) (hne : other ≠ name) (row : List Node) :
    only other (settled row (change row)) = only other row := by
  rw [← only_without hne, h.without_settled, only_without hne]

variable (hfirst : IsConfinedTo name first) (hsecond : IsConfinedTo other second)
include hfirst hsecond

/-- Two changes leave what is neither of theirs. -/
theorem without_settled_settled (row : List Node) :
    let after := settled row (first row)
    without other (without name (settled after (second after)))
      = without other (without name row) := by
  intro after
  rw [without_comm, hsecond.without_settled, without_comm, hfirst.without_settled]

variable (hne : other ≠ name)
include hne

/-- A change does not tell whether one that is confined to another name was there before. -/
theorem agree_settled (row : List Node) :
    Agree (second (settled row (first row))) (second row) := by
  refine agree_of_map_eq (f := only other) (g := only other) ?_
  rw [← hsecond.sees, ← hsecond.sees, hfirst.only_settled_of_ne hne]

/-- **Changes that are confined to different names** make the same of a row in either order, up to
the order of its nodes. -/
theorem perm_settled (row : List Node) :
    (settled (settled row (first row)) (second (settled row (first row)))).Perm
      (settled (settled row (second row)) (first (settled row (second row)))) := by
  refine perm_of_parts hne ?_ ?_ ?_
  · rw [hsecond.only_settled_of_ne hne.symm, hfirst.only_settled, hfirst.only_settled,
      hsecond.only_settled_of_ne hne.symm]
  · rw [hfirst.only_settled_of_ne hne, hsecond.only_settled, hsecond.only_settled,
      hfirst.only_settled_of_ne hne]
  · rw [hfirst.without_settled_settled hsecond, without_comm,
      ← hsecond.without_settled_settled hfirst, without_comm]

end IsConfinedTo

/-! ### Edits are such changes -/

theorem modify_append (path rest : List Element) (nodes : List Node) :
    modify create change (path ++ rest) nodes
      = modify create (modify create change rest) path nodes := by
  induction path generalizing nodes with
  | nil => rfl
  | cons element path ih =>
    rw [List.cons_append, modify, modify]
    simp only [ih]

/-- Where no sibling has the name, an edit goes down as if there were no siblings. -/
theorem modify_nil_of_fresh (new : ∀ node ∈ row, node.name ≠ element.name) :
    modify create change (element :: rest) []
      = (modify create change (element :: rest) row).map (only element.name) := by
  rw [modify, modify, splitFirst_name_eq_none_iff.mpr new, splitFirst]
  cases element.kind with
  | multi => rfl
  | single =>
    cases create with
    | false => rfl
    | true =>
      dsimp only
      cases modify true change rest [] with
      | error fault => rfl
      | ok below =>
        have hadded : only element.name (row ++ [.container element.name below])
            = [.container element.name below] := only_append_cons rfl new
        exact congrArg Except.ok hadded.symm

/-- At the first sibling of the name an edit goes down as if it were the first of all. -/
theorem modify_cons_of_first {before after : List Node} {node : Node}
    (hname : node.name = element.name) (first : ∀ other ∈ before, other.name ≠ element.name) :
    modify create change (element :: rest) (node :: only element.name after)
      = (modify create change (element :: rest) (before ++ node :: after)).map
          (only element.name) := by
  rw [modify, modify, splitFirst_cons_only hname,
    splitFirst_name_append_cons hname first]
  cases node with
  | container name below =>
    cases element.kind with
    | multi => rfl
    | single =>
      dsimp only
      cases modify create change rest below with
      | error fault => rfl
      | ok changed => exact ok_cons_only hname first
  | list name entries =>
    cases element.kind with
    | single => rfl
    | multi =>
      dsimp only
      cases splitFirst (entryMatches element.keys) entries with
      | none => rfl
      | some found =>
        dsimp only
        cases modify create change rest found.2.1 with
        | error fault => rfl
        | ok changed => exact ok_cons_only hname first
  | leaf name value | leafList name values => cases element.kind <;> rfl

/-- **Going down at an element is confined to its name.** -/
theorem isConfinedTo_modify (create : Bool) (change : List Node → Except Fault (List Node))
    (element : Element) (rest : List Element) :
    IsConfinedTo element.name (modify create change (element :: rest)) := by
  refine ⟨fun row => ?_, fun row result h => ?_⟩
  · cases hsibling : sibling? element.name row with
    | none =>
      have new := sibling?_eq_none_iff.mp hsibling
      rw [only_eq_nil new, modify_nil_of_fresh new]
    | some node =>
      obtain ⟨before, after, rfl, hname, first⟩ := sibling?_eq_some_iff.mp hsibling
      rw [only_append_cons hname first, modify_cons_of_first hname first]
  · obtain ⟨below, changed, hlevel, -⟩ := modify_cons_eq_ok_iff.mp h
    exact hlevel.without_eq

/-- At the first sibling of the name a deletion takes out what it would if it were the first of
all. -/
theorem removeTarget_cons_of_first {target : Element} {before after : List Node} {node : Node}
    (kind : target.kind = .multi) (hname : node.name = target.name)
    (first : ∀ other ∈ before, other.name ≠ target.name) :
    removeTarget identifier target (node :: only target.name after)
      = (removeTarget identifier target (before ++ node :: after)).map (only target.name) := by
  rw [removeTarget, removeTarget, kind, splitFirst_cons_only hname,
    splitFirst_name_append_cons hname first]
  cases node with
  | list name entries =>
    dsimp only
    split
    · exact ok_cons_only hname first
    · rfl
  | leafList name values =>
    dsimp only
    split
    · split
      · exact ok_cons_only hname first
      · rfl
    · rfl
  | container name below | leaf name value => rfl

/-- **Taking out what an element names is confined to its name.** -/
theorem isConfinedTo_removeTarget (identifier : Identifier) (target : Element) :
    IsConfinedTo target.name (removeTarget identifier target) := by
  refine ⟨fun row => ?_, fun row result h => (removeTarget_eq_ok_iff.mp h).without_eq⟩
  cases kind : target.kind with
  | single =>
    have hsibling : sibling? target.name (only target.name row) = sibling? target.name row := by
      rw [sibling?, only, List.find?_filter, sibling?]
      simp
    have hcomm : without target.name (only target.name row)
        = only target.name (without target.name row) := List.filter_comm _ _ _
    rw [removeTarget, removeTarget, kind, hsibling]
    dsimp only
    split
    · exact congrArg Except.ok hcomm
    · rfl
  | multi =>
    cases hsibling : sibling? target.name row with
    | none =>
      have new := sibling?_eq_none_iff.mp hsibling
      rw [only_eq_nil new, removeTarget, removeTarget, kind,
        splitFirst_name_eq_none_iff.mpr new, splitFirst]
      rfl
    | some node =>
      obtain ⟨before, after, rfl, hname, first⟩ := sibling?_eq_some_iff.mp hsibling
      rw [only_append_cons hname first, removeTarget_cons_of_first kind hname first]

/-- **An edit from some element of its path on**: it is confined to the name of the element, and if
it may not add containers, it misses something in a row without nodes. -/
structure IsBranch (name : String) (create : Bool)
    (change : List Node → Except Fault (List Node)) : Prop extends IsConfinedTo name change where
  misses : create = false → ∃ detail, change [] = .error (.notFound detail)

/-- **An edit changes the row at the end of the elements before another** as the branch that begins
with this one. -/
theorem exists_branch_change (intent : Intent) (payload : List Node)
    (hpath : identifier.elements = shared ++ element :: rest) :
    ∃ create change, IsBranch element.name create change
      ∧ ∀ nodes, edit intent identifier payload nodes = modify create change shared nodes := by
  have hmissing (change : List Node → Except Fault (List Node)) (rest : List Element) :
      modify false change (element :: rest) [] = .error (missing element) := by
    rw [modify, splitFirst]
    cases element.kind <;> rfl
  cases intent with
  | create =>
    refine ⟨true, _, ⟨isConfinedTo_modify true (addNodes identifier payload) element rest, by simp⟩,
      fun nodes => ?_⟩
    rw [edit, hpath, modify_append]
  | replace =>
    let put (found : List Node) : Except Fault (List Node) := .ok (payload.foldl putNode found)
    refine ⟨true, _, ⟨isConfinedTo_modify true put element rest, by simp⟩, fun nodes => ?_⟩
    rw [edit, hpath, modify_append]
  | delete =>
    rcases List.eq_nil_or_concat rest with rfl | ⟨between, target, rfl⟩
    · have hmissed :
          removeTarget identifier element [] = .error (.notFound identifier.display) := by
        rw [removeTarget]
        cases element.kind <;> rfl
      exact ⟨false, _, ⟨isConfinedTo_removeTarget identifier element, fun _ => ⟨_, hmissed⟩⟩,
        fun nodes => edit_delete_of_eq_concat hpath⟩
    · rw [List.concat_eq_append, ← List.cons_append, ← List.append_assoc] at hpath
      let change := removeTarget identifier target
      refine ⟨false, _, ⟨isConfinedTo_modify false change element between,
        fun _ => ⟨element.display, hmissing change between⟩⟩, fun nodes => ?_⟩
      rw [edit_delete_of_eq_concat hpath, modify_append]

/-! ### Where single elements lead -/

/-- Containers inside each other are around what the innermost holds. -/
theorem surrounds_nest (hsingle : ∀ element ∈ path, element.kind = .single) :
    Surrounds path (nest path) := by
  induction path with
  | nil => exact surrounds_id
  | cons element rest ih =>
    obtain ⟨kind, hrest⟩ := List.forall_mem_cons.mp hsingle
    exact (surrounds_container kind (List.forall_mem_nil _)).comp (ih hrest) fun row _ =>
      isChosenBy_of_single (List.forall_mem_singleton.mpr kind) _

/-- So they are behind siblings of other names. -/
theorem surrounds_append_nest (hsingle : ∀ node ∈ element :: rest, node.kind = .single)
    (new : ∀ node ∈ row, node.name ≠ element.name) :
    Surrounds (element :: rest) fun inner => row ++ nest (element :: rest) inner := by
  obtain ⟨kind, hrest⟩ := List.forall_mem_cons.mp hsingle
  exact (surrounds_container kind new).comp (surrounds_nest hrest) fun row _ =>
    isChosenBy_of_single (List.forall_mem_singleton.mpr kind) _

/-- In nothing the containers of a path are made around what a change makes of nothing. -/
theorem modify_nest (hsingle : ∀ element ∈ path, element.kind = .single) :
    modify true change path [] = (change []).map (nest path) := by
  induction path with
  | nil =>
    rw [modify]
    cases change [] <;> rfl
  | cons element rest ih =>
    obtain ⟨kind, hrest⟩ := List.forall_mem_cons.mp hsingle
    rw [modify, splitFirst, kind]
    dsimp only
    rw [if_pos rfl, ih hrest]
    cases change [] <;> rfl

theorem modify_append_nest (hsingle : ∀ node ∈ element :: rest, node.kind = .single)
    (new : ∀ node ∈ row, node.name ≠ element.name) :
    modify true change (element :: rest) row
      = (change []).map fun inner => row ++ nest (element :: rest) inner := by
  obtain ⟨kind, hrest⟩ := List.forall_mem_cons.mp hsingle
  rw [modify, splitFirst_name_eq_none_iff.mpr new, kind]
  dsimp only
  rw [if_pos rfl, modify_nest hrest]
  cases change [] <;> rfl

/-- **Where single elements lead**: to a row that is there, or to one that can be made. -/
structure LeadsTo (shared : List Element) (nodes row : List Node) (put : List Node → List Node) :
    Prop where
  /-- The forest around the row, once it is there. -/
  around : Surrounds shared put
  /-- A change is made of the row, or it would fail in the row too because something is missing. -/
  enters : ∀ create change, (create = false → ∃ detail, change [] = .error (.notFound detail)) →
    modify create change shared nodes = (change row).map put
      ∨ ∃ one other, change row = .error (.notFound one)
          ∧ modify create change shared nodes = .error (.notFound other)

/-- **Single elements lead to a row, or to a node that cannot have children.** -/
theorem exists_leadsTo_or_blocked (hsingle : ∀ element ∈ shared, element.kind = .single)
    (nodes : List Node) :
    (∃ row put, LeadsTo shared nodes row put)
      ∨ ∃ fault, ∀ create change, modify create change shared nodes = .error fault := by
  cases hchildren : children shared nodes with
  | ok row =>
    obtain ⟨put, rfl, hput⟩ := exists_surrounds hchildren
    exact Or.inl ⟨row, put, hput, fun create change _ =>
      Or.inl (hput.modify (isChosenBy_of_single hsingle row) create change)⟩
  | error fault =>
    obtain ⟨stop, hstop⟩ := children_eq_error_iff.mp hchildren
    obtain ⟨parents, rest, row, rfl, hrow, hobstacle⟩ := id hstop
    obtain ⟨hparents, hrest⟩ := List.forall_mem_append.mp hsingle
    cases hobstacle with
    | noSibling absent =>
      have new := sibling?_eq_none_iff.mp absent
      obtain ⟨put, rfl, hput⟩ := exists_surrounds (isRowOf_iff.mp hrow)
      have hchosen (row : List Node) : IsChosenBy parents row := isChosenBy_of_single hparents row
      refine Or.inl ⟨[], put ∘ fun inner => row ++ nest (stop :: rest) inner,
        hput.comp (surrounds_append_nest hrest new) fun _ _ => hchosen _,
        fun create change hnothing => ?_⟩
      cases create with
      | false =>
        obtain ⟨detail, hdetail⟩ := hnothing rfl
        exact Or.inr ⟨detail, _, hdetail, hstop.modify (Or.inl rfl)⟩
      | true =>
        left
        rw [hput row (hchosen row), modify_append_nest hrest new]
        cases change [] <;> rfl
    | noEntry kind =>
      rw [hrest stop List.mem_cons_self] at kind
      cases kind
    | noParent =>
      exact Or.inr ⟨_, fun create change => hstop.modify (Or.inr (Or.inr ⟨_, rfl⟩))⟩

namespace LeadsTo

variable (h : LeadsTo shared nodes row put)
  (hnothing : create = false → ∃ detail, change [] = .error (.notFound detail))
include h hnothing

theorem agree : Agree (modify create change shared nodes) (change row) := by
  rcases h.enters create change hnothing with hmodify | ⟨one, other, hrow, hmodify⟩
  · exact agree_of_map_eq (f := id) (g := put) (by rw [hmodify]; cases change row <;> rfl)
  · rw [hrow, hmodify]
    exact .missed other one

theorem settled_of_eq_ok (hrow : change row = .ok changed) :
    settled nodes (modify create change shared nodes) = put changed := by
  rcases h.enters create change hnothing with hmodify | ⟨one, other, hmissed, -⟩
  · rw [hmodify, hrow]
    rfl
  · rw [hrow] at hmissed
    cases hmissed

theorem settled_of_eq_error {fault : Fault} (hrow : change row = .error fault) :
    settled nodes (modify create change shared nodes) = nodes := by
  rcases h.enters create change hnothing with hmodify | ⟨one, other, -, hmodify⟩
  · rw [hmodify, hrow]
    rfl
  · rw [hmodify]
    rfl

/-- **After an edit the elements lead to the changed row.** -/
theorem after (hsingle : ∀ element ∈ shared, element.kind = .single) :
    LeadsTo shared (settled nodes (modify create change shared nodes)) (settled row (change row))
      put := by
  cases hrow : change row with
  | ok changed =>
    rw [h.settled_of_eq_ok hnothing hrow]
    exact ⟨h.around, fun create change _ =>
      Or.inl (h.around.modify (isChosenBy_of_single hsingle changed) create change)⟩
  | error fault =>
    rw [h.settled_of_eq_error hnothing hrow]
    exact h

end LeadsTo

section Order

variable {createFirst createSecond : Bool} (h : LeadsTo shared nodes row put)
  (hsingle : ∀ element ∈ shared, element.kind = .single)
  (hfirst : IsBranch name createFirst first) (hsecond : IsBranch other createSecond second)
  (hne : other ≠ name)
include h hsingle hfirst hsecond hne

/-- An edit has the same outcome behind an edit of another branch. -/
theorem LeadsTo.agree_after :
    Agree (modify createSecond second shared
        (settled nodes (modify createFirst first shared nodes)))
      (modify createSecond second shared nodes) := by
  have hafter := (h.after hfirst.misses hsingle).agree hsecond.misses
  have hrow := hfirst.agree_settled hsecond.toIsConfinedTo hne row
  exact hafter.trans (hrow.trans (h.agree hsecond.misses).symm)

/-- An edit that fails leaves the forest to the other one, before it and behind it. -/
theorem LeadsTo.settled_after_of_eq_error {fault : Fault} (hrow : second row = .error fault) :
    let after := settled nodes (modify createFirst first shared nodes)
    settled after (modify createSecond second shared after) = after := by
  intro after
  have hagree := hfirst.agree_settled hsecond.toIsConfinedTo hne row
  obtain ⟨fault', hfault⟩ := (hrow ▸ hagree).exists_error
  exact (h.after hfirst.misses hsingle).settled_of_eq_error hsecond.misses hfault

/-- **Edits of separate branches come to the same forest** in either order, up to the order of
siblings. -/
theorem LeadsTo.upToOrder_after :
    let afterFirst := settled nodes (modify createFirst first shared nodes)
    let afterSecond := settled nodes (modify createSecond second shared nodes)
    UpToOrder (settled afterFirst (modify createSecond second shared afterFirst))
      (settled afterSecond (modify createFirst first shared afterSecond)) := by
  intro afterFirst afterSecond
  cases ha : first row with
  | error fault =>
    have hnodes : afterFirst = nodes := h.settled_of_eq_error hfirst.misses ha
    have hafter := h.settled_after_of_eq_error hsingle hsecond hfirst hne.symm ha
    rw [hafter, hnodes]
    exact .siblings (.refl _)
  | ok a =>
    cases hb : second row with
    | error fault =>
      have hnodes : afterSecond = nodes := h.settled_of_eq_error hsecond.misses hb
      have hafter := h.settled_after_of_eq_error hsingle hfirst hsecond hne hb
      rw [hafter, hnodes]
      exact .siblings (.refl _)
    | ok b =>
      have hagree := hfirst.agree_settled hsecond.toIsConfinedTo hne row
      have hagree' := hsecond.agree_settled hfirst.toIsConfinedTo hne.symm row
      obtain ⟨c, hc⟩ := (hb ▸ hagree).exists_ok
      obtain ⟨d, hd⟩ := (ha ▸ hagree').exists_ok
      have hperm := hfirst.perm_settled hsecond.toIsConfinedTo hne row
      rw [hc, hd] at hperm
      rw [(h.after hfirst.misses hsingle).settled_of_eq_ok hsecond.misses hc,
        (h.after hsecond.misses hsingle).settled_of_eq_ok hfirst.misses hd]
      exact (h.around.graft (isChosenBy_of_single hsingle c) false d).upToOrder (.siblings hperm)

end Order

/-! ### The engine -/

/-- **An edit as the engine executes it**: the outcome and the nodes afterwards. -/
theorem exists_branch_execute (intent : Intent) (payload : List Node)
    (hpath : identifier.elements = shared ++ element :: rest) :
    ∃ create change, IsBranch element.name create change ∧ ∀ store : Datastore,
      let edited := TreeEngine.execute store { operation := .edit intent, identifier, payload }
      Agree edited.1 (modify create change shared store.nodes)
        ∧ edited.2.nodes = settled store.nodes (modify create change shared store.nodes) := by
  obtain ⟨create, change, hchange, hedit⟩ := exists_branch_change intent payload hpath
  refine ⟨create, change, hchange, fun store => ?_⟩
  rw [← hedit]
  cases h : edit intent identifier payload store.nodes with
  | ok result =>
    rw [execute_edit_of_eq_ok h]
    exact ⟨.succeeded _ _, rfl⟩
  | error fault =>
    rw [execute_edit_of_eq_error h]
    exact ⟨.failed fault, rfl⟩

/-- **Edits of separate branches can be made in either order**: each has the same outcome, and the
forests are the same up to the order of siblings. -/
theorem commutes {store : Datastore} {intent intent' : Intent} {identifier identifier' : Identifier}
    {payload payload' : List Node} {shared rest others : List Element} {element other : Element}
    (hsingle : ∀ element ∈ shared, element.kind = .single)
    (hpath : identifier.elements = shared ++ element :: rest)
    (hpath' : identifier'.elements = shared ++ other :: others)
    (hnames : element.name ≠ other.name) :
    let one : Request := { operation := .edit intent, identifier, payload }
    let two : Request :=
      { operation := .edit intent', identifier := identifier', payload := payload' }
    let afterOne := (TreeEngine.execute store one).2
    let afterTwo := (TreeEngine.execute store two).2
    Agree (TreeEngine.execute store one).1 (TreeEngine.execute afterTwo one).1
      ∧ Agree (TreeEngine.execute store two).1 (TreeEngine.execute afterOne two).1
      ∧ UpToOrder (TreeEngine.execute afterOne two).2.nodes
          (TreeEngine.execute afterTwo one).2.nodes := by
  intro one two afterOne afterTwo
  obtain ⟨create, change, hchange, hone⟩ := exists_branch_execute intent payload hpath
  obtain ⟨create', change', hchange', htwo⟩ := exists_branch_execute intent' payload' hpath'
  have hagreeOne := (hone store).1
  have hagreeTwo := (htwo store).1
  have hone' := (hone afterTwo).1
  have htwo' := (htwo afterOne).1
  have hafterOne : afterOne.nodes = settled store.nodes (modify create change shared store.nodes) :=
    (hone store).2
  have hafterTwo :
      afterTwo.nodes = settled store.nodes (modify create' change' shared store.nodes) :=
    (htwo store).2
  rw [(htwo afterOne).2, (hone afterTwo).2]
  rcases exists_leadsTo_or_blocked hsingle store.nodes with ⟨row, put, h⟩ | ⟨fault, hblocked⟩
  · rw [hafterTwo] at hone' ⊢
    rw [hafterOne] at htwo' ⊢
    exact ⟨hagreeOne.trans ((h.agree_after hsingle hchange' hchange hnames).symm.trans hone'.symm),
      hagreeTwo.trans ((h.agree_after hsingle hchange hchange' hnames.symm).symm.trans htwo'.symm),
      h.upToOrder_after hsingle hchange hchange' hnames.symm⟩
  · -- Neither of them does anything.
    have hsameOne : afterOne.nodes = store.nodes := by rw [hafterOne, hblocked]; rfl
    have hsameTwo : afterTwo.nodes = store.nodes := by rw [hafterTwo, hblocked]; rfl
    rw [hsameTwo] at hone' ⊢
    rw [hsameOne] at htwo' ⊢
    refine ⟨hagreeOne.trans hone'.symm, hagreeTwo.trans htwo'.symm, ?_⟩
    rw [hblocked, hblocked]
    exact .siblings (.refl _)

/-- Below containers that do not exist. Two creations make them, and each puts its own behind what
it finds. A deletion fails whether they have been made or not. -/
theorem commutes_missing :
    let path (name : String) : Identifier :=
      ⟨"/r", [⟨"a", none, .single, []⟩, ⟨"b", none, .single, []⟩, ⟨name, none, .single, []⟩]⟩
    let store : Datastore := { nodes := [.leaf "x" "1"] }
    let create (name : String) : Request :=
      { operation := .edit .create, identifier := path name, payload := [.leaf "y" "2"] }
    let delete (name : String) : Request :=
      { operation := .edit .delete, identifier := path name }
    let after (requests : List Request) : Datastore := TreeEngine.executeAll store requests
    (after [create "c", create "d"]).nodes ≠ (after [create "d", create "c"]).nodes
      ∧ UpToOrder (after [create "c", create "d"]).nodes (after [create "d", create "c"]).nodes
      ∧ (TreeEngine.execute store (delete "d")).1 = .error (.notFound "a")
      ∧ (TreeEngine.execute (after [create "c"]) (delete "d")).1 = .error (.notFound "/a/b/d")
      ∧ Agree (TreeEngine.execute store (delete "d")).1
          (TreeEngine.execute (after [create "c"]) (delete "d")).1 := by
  intro path store create delete after
  let shared : List Element := [⟨"a", none, .single, []⟩, ⟨"b", none, .single, []⟩]
  have hsingle : ∀ element ∈ shared, element.kind = .single := by decide
  have hpath : (path "c").elements = shared ++ ⟨"c", none, .single, []⟩ :: [] := rfl
  have hpath' : (path "d").elements = shared ++ ⟨"d", none, .single, []⟩ :: [] := rfl
  have hnames : "c" ≠ "d" := by decide
  have horder : UpToOrder (after [create "c", create "d"]).nodes
      (after [create "d", create "c"]).nodes := (commutes hsingle hpath hpath' hnames).2.2
  have hagree : Agree (TreeEngine.execute store (delete "d")).1
      (TreeEngine.execute (after [create "c"]) (delete "d")).1 :=
    (commutes hsingle hpath hpath' hnames).2.1
  exact ⟨by decide, horder, rfl, rfl, hagree⟩

end Datastore

end Restconf
