import Restconf.Tree.TextSet

/-!
# Data trees

The content of a datastore, free of any schema: containers, lists of entries, leaves, and
leaf-lists.

## Main definitions

* `Node` — a named node. A list holds anonymous entries, and an entry is a row of nodes.
* `Node.name`, `Node.kind`, `Node.child?` — what can be asked of a node.
* `Node.decEq` — equality of trees is decidable.
-/

namespace Restconf

/-- The kinds of node. -/
inductive NodeKind where
  | container | list | leaf | leafList
deriving DecidableEq, Repr

/-- The name of a kind of node. -/
def NodeKind.label : NodeKind → String
  | container => "container"
  | list => "list"
  | leaf => "leaf"
  | leafList => "leaf-list"

/-- A node of a data tree. -/
inductive Node where
  /-- One instance with named children. -/
  | container (name : String) (children : List Node)
  /-- Any number of entries, each with named children. -/
  | list (name : String) (entries : List (List Node))
  /-- One value. -/
  | leaf (name value : String)
  /-- A set of values. -/
  | leafList (name : String) (values : TextSet)
deriving Inhabited

namespace Node

/-- The name of a node. -/
def name : Node → String
  | container name _ | list name _ | leaf name _ | leafList name _ => name

/-- The kind of a node. -/
def kind : Node → NodeKind
  | container .. => .container
  | list .. => .list
  | leaf .. => .leaf
  | leafList .. => .leafList

/-- The first child of a name; only containers have children that a name reaches. -/
def child? (childName : String) : Node → Option Node
  | container _ children => children.find? fun child => child.name = childName
  | _ => none

/-! ### Equality -/

mutual

/-- Decides whether two nodes are equal. -/
def decEq : (a b : Node) → Decidable (a = b)
  | container n xs, container m ys =>
    match instDecidableEqString n m, decEqForest xs ys with
    | isTrue h, isTrue h' => isTrue (by rw [h, h'])
    | isFalse h, _ => isFalse fun e => h (by injection e)
    | _, isFalse h => isFalse fun e => h (by injection e)
  | list n xs, list m ys =>
    match instDecidableEqString n m, decEqEntries xs ys with
    | isTrue h, isTrue h' => isTrue (by rw [h, h'])
    | isFalse h, _ => isFalse fun e => h (by injection e)
    | _, isFalse h => isFalse fun e => h (by injection e)
  | leaf n v, leaf m w =>
    if h : n = m ∧ v = w then isTrue (by rw [h.1, h.2])
    else isFalse fun e => h (by injection e; constructor <;> assumption)
  | leafList n v, leafList m w =>
    if h : n = m ∧ v = w then isTrue (by rw [h.1, h.2])
    else isFalse fun e => h (by injection e; constructor <;> assumption)
  | container .., list .. | container .., leaf .. | container .., leafList ..
  | list .., container .. | list .., leaf .. | list .., leafList ..
  | leaf .., container .. | leaf .., list .. | leaf .., leafList ..
  | leafList .., container .. | leafList .., list .. | leafList .., leaf .. => isFalse nofun

/-- Decides whether two rows of nodes are equal. -/
def decEqForest : (xs ys : List Node) → Decidable (xs = ys)
  | [], [] => isTrue rfl
  | [], _ :: _ | _ :: _, [] => isFalse nofun
  | x :: xs, y :: ys =>
    match decEq x y, decEqForest xs ys with
    | isTrue h, isTrue h' => isTrue (by rw [h, h'])
    | isFalse h, _ => isFalse fun e => h (by injection e)
    | _, isFalse h => isFalse fun e => h (by injection e)

/-- Decides whether two lists of entries are equal. -/
def decEqEntries : (xs ys : List (List Node)) → Decidable (xs = ys)
  | [], [] => isTrue rfl
  | [], _ :: _ | _ :: _, [] => isFalse nofun
  | x :: xs, y :: ys =>
    match decEqForest x y, decEqEntries xs ys with
    | isTrue h, isTrue h' => isTrue (by rw [h, h'])
    | isFalse h, _ => isFalse fun e => h (by injection e)
    | _, isFalse h => isFalse fun e => h (by injection e)

end

instance : DecidableEq Node := decEq

end Node

end Restconf
