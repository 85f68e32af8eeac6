import Restconf.Tree.Document

/-!
# Forests level by level

Nodes nest through rows of siblings and through lists of such rows. This file gives the induction
that follows the data, and the vocabulary in which properties of a whole forest are stated: what
holds of the siblings at every level, and how deep the text of a forest nests.

## Why an induction of its own

The functions on trees come in threes, one for nodes, one for rows and one for lists of rows. The
second and the third only apply the first to every member, which the `_eq_map` and `_eq_flatMap`
lemmas below say once. After that a proof about trees is an induction on one node in which the
members of its rows satisfy the hypothesis, and the three mutual statements are not needed.

## Main definitions

* `Node.induction` — induction on a node
* `Forest.Everywhere` — a property of the siblings at every level of a forest; `Forest.Below` is
  what it says of one node
* `Node.depth`, `Forest.depth` — how many arrays and objects the text of a tree nests
* `Node.isNamed` — no name at any level is empty
-/

namespace Restconf

/-- Induction on a node: the property may be used for every child, and for every node in an entry
of a list. -/
@[elab_as_elim]
theorem Node.induction {motive : Node → Prop}
    (container : ∀ name children, (∀ child ∈ children, motive child) →
      motive (.container name children))
    (list : ∀ name entries, (∀ entry ∈ entries, ∀ child ∈ entry, motive child) →
      motive (.list name entries))
    (leaf : ∀ name value, motive (.leaf name value))
    (leafList : ∀ name values, motive (.leafList name values)) (node : Node) : motive node :=
  @Node.rec motive (fun row => ∀ child ∈ row, motive child)
    (fun rows => ∀ entry ∈ rows, ∀ child ∈ entry, motive child)
    container list leaf leafList (fun _ h => absurd h List.not_mem_nil)
    (fun _ _ hhead htail => List.forall_mem_cons.mpr ⟨hhead, htail⟩)
    (fun _ h => absurd h List.not_mem_nil)
    (fun _ _ hhead htail => List.forall_mem_cons.mpr ⟨hhead, htail⟩) node

/-! ### Rows are mapped -/

theorem forestEvents_eq_flatMap (nodes : List Node) :
    forestEvents nodes = nodes.flatMap Node.events := by
  induction nodes with
  | nil => rfl
  | cons node nodes ih => rw [forestEvents, ih, List.flatMap_cons]

theorem entryEvents_eq_flatMap (entries : List (List Node)) :
    entryEvents entries
      = entries.flatMap fun entry =>
          .enter "" .container :: forestEvents entry ++ [.exit .container] := by
  induction entries with
  | nil => rfl
  | cons entry entries ih =>
    rw [entryEvents, ih, List.flatMap_cons, List.append_assoc, List.singleton_append]

namespace Forest

theorem fields_eq_map (nodes : List Node) : fields nodes = nodes.map field := by
  induction nodes with
  | nil => rfl
  | cons node nodes ih => rw [fields, ih, List.map_cons]

theorem fields_append (row others : List Node) :
    fields (row ++ others) = fields row ++ fields others := by
  rw [fields_eq_map, fields_eq_map, fields_eq_map, List.map_append]

theorem entryObjects_eq_map (entries : List (List Node)) :
    entryObjects entries = entries.map fun entry => .object (fields entry) := by
  induction entries with
  | nil => rfl
  | cons entry entries ih => rw [entryObjects, ih, List.map_cons]

theorem fieldTexts_eq_map (nodes : List Node) : fieldTexts nodes = nodes.map fieldText := by
  induction nodes with
  | nil => rfl
  | cons node nodes ih => rw [fieldTexts, ih, List.map_cons]

theorem entryTexts_eq_map (entries : List (List Node)) :
    entryTexts entries = entries.map fun entry => braced (fieldTexts entry) := by
  induction entries with
  | nil => rfl
  | cons entry entries ih => rw [entryTexts, ih, List.map_cons]

/-! ### Every level -/

/-- A property of siblings that holds at every level: of the row itself, of the children of each
container in it, and of each entry of each list in it. -/
inductive Everywhere (p : List Node → Prop) : List Node → Prop where
  | intro {nodes : List Node} (row : p nodes)
      (children : ∀ name children, .container name children ∈ nodes → Everywhere p children)
      (entries : ∀ name entries, .list name entries ∈ nodes →
        ∀ entry ∈ entries, Everywhere p entry) : Everywhere p nodes

namespace Everywhere

variable {p q : List Node → Prop} {nodes : List Node}

theorem row (h : Everywhere p nodes) : p nodes := by
  cases h with
  | intro row _ _ => exact row

theorem children (h : Everywhere p nodes) {name : String} {children : List Node}
    (hmem : .container name children ∈ nodes) : Everywhere p children := by
  cases h with
  | intro _ hchildren _ => exact hchildren name children hmem

theorem entry (h : Everywhere p nodes) {name : String} {entries : List (List Node)}
    (hmem : .list name entries ∈ nodes) {entry : List Node} (hentry : entry ∈ entries) :
    Everywhere p entry := by
  cases h with
  | intro _ _ hentries => exact hentries name entries hmem entry hentry

theorem mono (hpq : ∀ row, p row → q row) (h : Everywhere p nodes) : Everywhere q nodes := by
  induction h with
  | intro row _ _ hchildren hentries => exact .intro (hpq _ row) hchildren hentries

/-- A property that passes from a row to the rows directly below it passes to every level. -/
theorem of_closed (hrow : ∀ row, q row → p row)
    (hchildren : ∀ row name children, q row → .container name children ∈ row → q children)
    (hentries : ∀ row name entries, q row → .list name entries ∈ row → ∀ entry ∈ entries, q entry)
    (h : q nodes) : Everywhere p nodes := by
  have below (node : Node) : ∀ row, q row → node ∈ row →
      (∀ name children, node = .container name children → Everywhere p children)
        ∧ ∀ name entries, node = .list name entries → ∀ entry ∈ entries, Everywhere p entry := by
    -- one level down: the rows of the members of a row are known by induction on the members
    have level (row : List Node) (hq : q row) (ih : ∀ node ∈ row, ∀ row, q row → node ∈ row →
        (∀ name children, node = .container name children → Everywhere p children)
          ∧ ∀ name entries, node = .list name entries → ∀ entry ∈ entries, Everywhere p entry) :
        Everywhere p row :=
      .intro (hrow row hq) (fun name children hmem => (ih _ hmem row hq hmem).1 name children rfl)
        fun name entries hmem => (ih _ hmem row hq hmem).2 name entries rfl
    induction node using Node.induction with
    | container name children ih =>
      refine fun row hq hmem => ⟨fun _ _ heq => ?_, fun _ _ heq => by cases heq⟩
      cases heq
      exact level children (hchildren row name children hq hmem) ih
    | list name entries ih =>
      refine fun row hq hmem => ⟨fun _ _ heq => (by cases heq), fun _ _ heq entry hentry => ?_⟩
      cases heq
      exact level entry (hentries row name entries hq hmem entry hentry) (ih entry hentry)
    | leaf | leafList =>
      refine fun _ _ _ => ⟨fun _ _ heq => ?_, fun _ _ heq => ?_⟩
      all_goals cases heq
  exact .intro (hrow nodes h) (fun name children hmem => (below _ nodes h hmem).1 name children rfl)
    fun name entries hmem => (below _ nodes h hmem).2 name entries rfl

end Everywhere

/-- What a property at every level says of the rows below a node. -/
def Below (p : List Node → Prop) : Node → Prop
  | .container _ children => Everywhere p children
  | .list _ entries => ∀ entry ∈ entries, Everywhere p entry
  | .leaf .. | .leafList .. => True

/-- A property holds at every level if it holds of the row itself and below each of its nodes. -/
theorem everywhere_iff {p : List Node → Prop} {nodes : List Node} :
    Everywhere p nodes ↔ p nodes ∧ ∀ node ∈ nodes, Below p node := by
  refine ⟨fun h => ⟨h.row, fun node hmem => ?_⟩, fun ⟨hrow, hbelow⟩ => .intro hrow
    (fun name children hmem => hbelow _ hmem) fun name entries hmem => hbelow _ hmem⟩
  cases node with
  | container name children => exact h.children hmem
  | list name entries => exact fun entry hentry => h.entry hmem hentry
  | leaf | leafList => trivial

end Forest

/-! ### Names -/

mutual

/-- No name in a node is empty, its own included. -/
def Node.isNamed : Node → Bool
  | .container name children => !name.isEmpty && Forest.isNamed children
  | .list name entries => !name.isEmpty && Forest.areNamed entries
  | .leaf name _ | .leafList name _ => !name.isEmpty

/-- No name at any level of a forest is empty. -/
def Forest.isNamed : List Node → Bool
  | [] => true
  | node :: rest => node.isNamed && Forest.isNamed rest

/-- No name at any level of the entries of a list is empty. -/
def Forest.areNamed : List (List Node) → Bool
  | [] => true
  | entry :: rest => Forest.isNamed entry && Forest.areNamed rest

end

namespace Forest

@[simp]
theorem isNamed_iff_forall_mem {nodes : List Node} :
    isNamed nodes = true ↔ ∀ node ∈ nodes, node.isNamed = true := by
  induction nodes with
  | nil => simp [isNamed]
  | cons node nodes ih => rw [isNamed, Bool.and_eq_true, ih, List.forall_mem_cons]

@[simp]
theorem areNamed_iff_forall_mem {entries : List (List Node)} :
    areNamed entries = true ↔ ∀ entry ∈ entries, isNamed entry = true := by
  induction entries with
  | nil => simp [areNamed]
  | cons entry entries ih => rw [areNamed, Bool.and_eq_true, ih, List.forall_mem_cons]

end Forest

namespace Node

theorem isNamed_eq (node : Node) :
    node.isNamed = (!node.name.isEmpty && match node with
      | .container _ children => Forest.isNamed children
      | .list _ entries => Forest.areNamed entries
      | .leaf .. | .leafList .. => true) := by
  cases node <;> simp [isNamed, name]

theorem name_ne_of_isNamed {node : Node} (h : node.isNamed = true) : node.name ≠ "" := by
  rw [isNamed_eq, Bool.and_eq_true] at h
  simpa using h.1

end Node

namespace Forest

/-- The test is the property at every level. -/
theorem isNamed_iff_everywhere {nodes : List Node} :
    isNamed nodes = true ↔ Everywhere (fun row => ∀ node ∈ row, node.name ≠ "") nodes := by
  constructor
  · refine Everywhere.of_closed (q := fun row => isNamed row = true) (fun row h node hmem => ?_)
      (fun row name children h hmem => ?_) fun row name entries h hmem entry hentry => ?_
    · exact Node.name_ne_of_isNamed (isNamed_iff_forall_mem.mp h node hmem)
    · have := isNamed_iff_forall_mem.mp h _ hmem
      rw [Node.isNamed, Bool.and_eq_true] at this
      exact this.2
    · have := isNamed_iff_forall_mem.mp h _ hmem
      rw [Node.isNamed, Bool.and_eq_true] at this
      exact areNamed_iff_forall_mem.mp this.2 entry hentry
  · intro h
    induction h with
    | intro row _ _ hchildren hentries =>
      rw [isNamed_iff_forall_mem]
      intro node hmem
      have hname : (!node.name.isEmpty) = true := by simpa using row node hmem
      rw [Node.isNamed_eq, hname, Bool.true_and]
      cases node with
      | container name children => exact hchildren name children hmem
      | list name entries => exact areNamed_iff_forall_mem.mpr (hentries name entries hmem)
      | leaf name value => rfl
      | leafList name values => rfl

end Forest

/-! ### Depth -/

mutual

/-- How many arrays and objects the text of a node nests: a container and a leaf-list are one, and
so are a list and each of its entries. -/
def Node.depth : Node → Nat
  | .container _ children => Forest.rowDepth children + 1
  | .list _ entries => Forest.entriesDepth entries + 1
  | .leaf .. => 0
  | .leafList .. => 1

/-- The largest depth of the nodes of a row. -/
def Forest.rowDepth : List Node → Nat
  | [] => 0
  | node :: rest => max node.depth (Forest.rowDepth rest)

/-- The largest depth of the entries of a list. -/
def Forest.entriesDepth : List (List Node) → Nat
  | [] => 0
  | entry :: rest => max (Forest.rowDepth entry + 1) (Forest.entriesDepth rest)

end

namespace Forest

/-- How many arrays and objects the text of a forest nests: the object around it is one. -/
def depth (nodes : List Node) : Nat := rowDepth nodes + 1

theorem rowDepth_le_iff {nodes : List Node} {n : Nat} :
    rowDepth nodes ≤ n ↔ ∀ node ∈ nodes, node.depth ≤ n := by
  induction nodes with
  | nil => simp [rowDepth]
  | cons node nodes ih => rw [rowDepth, Nat.max_le, ih, List.forall_mem_cons]

theorem rowDepth_append (row others : List Node) :
    rowDepth (row ++ others) = max (rowDepth row) (rowDepth others) := by
  induction row with
  | nil => rw [List.nil_append, rowDepth, Nat.zero_max]
  | cons node row ih => rw [List.cons_append, rowDepth, rowDepth, ih, Nat.max_assoc]

theorem entriesDepth_le_iff {entries : List (List Node)} {n : Nat} :
    entriesDepth entries ≤ n ↔ ∀ entry ∈ entries, depth entry ≤ n := by
  induction entries with
  | nil => simp [entriesDepth]
  | cons entry entries ih =>
    rw [entriesDepth, Nat.max_le, ih, List.forall_mem_cons]
    rfl

theorem entriesDepth_append (entries others : List (List Node)) :
    entriesDepth (entries ++ others) = max (entriesDepth entries) (entriesDepth others) := by
  induction entries with
  | nil => rw [List.nil_append, entriesDepth, Nat.zero_max]
  | cons entry entries ih =>
    rw [List.cons_append, entriesDepth, entriesDepth, ih, Nat.max_assoc]

end Forest

end Restconf
