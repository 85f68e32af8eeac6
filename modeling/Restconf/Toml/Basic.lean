import Restconf.Record

/-!
# TOML values

## Main definitions

* `Toml` — a value. Tables remember where they come from, because this decides whether later lines
  of a document may add to them.
* `Toml.record?`, `Toml.choice?` — structured values and enumerations.

## Implementation notes

Numbers with a fraction and points of time are kept as they are written.
-/

namespace Restconf

/-- Where a table comes from. -/
inductive TableOrigin where
  /-- It stands between braces. -/
  | inline
  /-- A header opened it. -/
  | header
  /-- It lies on the way to the table of a header. -/
  | passage
  /-- It lies on the way of a dotted key. -/
  | dotted
deriving DecidableEq, Repr

/-- A TOML value. -/
inductive Toml where
  | string (value : String)
  | integer (value : Int)
  | boolean (value : Bool)
  | float (text : String)
  | dateTime (text : String)
  | array (items : List Toml)
  | table (origin : TableOrigin) (fields : List (String × Toml))
  /-- Tables under one name, each opened by a header of its own. -/
  | tables (entries : List (List (String × Toml)))
deriving Repr, Inhabited

namespace Toml

/-! ### Decoding -/

/-- The fields of a record with the given names, which takes no other fields. Items of an array are
its fields in order; items beyond the last field do not count. -/
def record? (names : List String) : Toml → Option (Record Toml)
  | table _ fields =>
    if fields.all fun (name, _) => names.contains name then some ⟨fields, false⟩ else none
  | array items => some ⟨names.zip items, true⟩
  | tables entries => some ⟨names.zip (entries.map (table .header)), true⟩
  | _ => none

/-- A text. -/
def string? : Toml → Option String
  | string value => some value
  | _ => none

/-- An integer from zero below a bound. -/
def natBelow? (bound : Nat) : Toml → Option Nat
  | integer value => if 0 ≤ value ∧ value < bound then some value.toNat else none
  | _ => none

/-- A table or an array without content. -/
def isEmptyCollection : Toml → Bool
  | table _ fields => fields.isEmpty
  | array items => items.isEmpty
  | _ => false

/-- The value of an enumeration by its name. The name may also stand alone in a table, over an empty
table or array. -/
def choice? {α : Type} (choices : List (String × α)) : Toml → Option α
  | string name => choices.lookup name
  | table _ [(name, content)] => if content.isEmptyCollection then choices.lookup name else none
  | _ => none

end Toml

end Restconf
