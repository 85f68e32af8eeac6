import Restconf.Json.Number

/-!
# JSON values

## Main definitions

* `Json` — a value. The fields of an object are a list in the order of the text, so a name may
  occur twice.
* `Json.merge` — the value that a text denotes: of the fields of one name the last value stands, at
  the place of the first.
* `Json.depth` — how deep arrays and objects nest.

## Implementation notes

Reading a text and merging its fields are kept apart. Reading loses nothing, so it is the inverse
of printing for every value; what repeated fields mean is a law about `merge` alone. Whoever has to
refuse a repeated field looks at the value before it is merged.
-/

namespace Restconf

/-- A JSON value. -/
inductive Json where
  | null
  | bool (value : Bool)
  | number (value : Number)
  | string (value : String)
  | array (items : List Json)
  | object (fields : List (String × Json))
deriving Repr, Inhabited

namespace Json

/-! ### Equality -/

mutual

/-- Structural equality of values. -/
def beq : Json → Json → Bool
  | null, null => true
  | bool a, bool b => a == b
  | number a, number b => a == b
  | string a, string b => a == b
  | array xs, array ys => beqItems xs ys
  | object xs, object ys => beqFields xs ys
  | _, _ => false

/-- Structural equality of arrays. -/
def beqItems : List Json → List Json → Bool
  | [], [] => true
  | x :: xs, y :: ys => beq x y && beqItems xs ys
  | _, _ => false

/-- Structural equality of objects, the order of the fields included. -/
def beqFields : List (String × Json) → List (String × Json) → Bool
  | [], [] => true
  | (n, x) :: xs, (m, y) :: ys => n == m && beq x y && beqFields xs ys
  | _, _ => false

end

instance : BEq Json := ⟨beq⟩

/-! ### Fields -/

/-- Puts a field into a list of fields: over the field of the same name, or at the end. -/
def putField (fields : List (String × Json)) (name : String) (value : Json) :
    List (String × Json) :=
  match fields with
  | [] => [(name, value)]
  | (n, v) :: rest => if n = name then (n, value) :: rest else (n, v) :: putField rest name value

/-- Of the fields of one name the last value stands, at the place of the first. -/
def mergeFields (fields : List (String × Json)) : List (String × Json) :=
  fields.foldl (fun merged (name, value) => putField merged name value) []

mutual

/-- The value that a text denotes: repeated fields are merged at every level. -/
def merge : Json → Json
  | array items => array (mergeItems items)
  | object fields => object (mergeFields (mergeValues fields))
  | value => value

/-- `merge` on the items of an array. -/
def mergeItems : List Json → List Json
  | [] => []
  | item :: rest => merge item :: mergeItems rest

/-- `merge` on the values of fields. -/
def mergeValues : List (String × Json) → List (String × Json)
  | [] => []
  | (name, value) :: rest => (name, merge value) :: mergeValues rest

end

/-- The value of a field. -/
def field? (name : String) : Json → Option Json
  | object fields => fields.lookup name
  | _ => none

/-! ### Depth -/

mutual

/-- How many arrays and objects stand around the innermost value, at most. -/
def depth : Json → Nat
  | array items => depthItems items + 1
  | object fields => depthFields fields + 1
  | _ => 0

/-- The largest depth of items. -/
def depthItems : List Json → Nat
  | [] => 0
  | item :: rest => max (depth item) (depthItems rest)

/-- The largest depth of values of fields. -/
def depthFields : List (String × Json) → Nat
  | [] => 0
  | (_, value) :: rest => max (depth value) (depthFields rest)

end

/-! ### Kinds -/

/-- The name of the type of a value. -/
def typeName : Json → String
  | null => "null"
  | bool _ => "boolean"
  | number _ => "number"
  | string _ => "string"
  | array _ => "array"
  | object _ => "object"

end Json

end Restconf
