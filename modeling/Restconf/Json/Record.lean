import Restconf.Json.Parser
import Restconf.Record

/-!
# Records in JSON

Structured values as JSON: an object with the fields of the record, or an array of them in order.

## Main definitions

* `Json.record?` — the fields of a value. A field may be given once; a field that the record does
  not have is passed over, or refused where the record is closed.
* `Json.choice?` — the value of an enumeration: its name, or an object with the name and `null`.
-/

namespace Restconf.Json

/-- The fields of a record with the given names. A closed record takes no other fields. -/
def record? (names : List String) (closed : Bool) : Json → Option (Record Json)
  | object fields =>
    let known := fields.filter fun (name, _) => names.contains name
    if (known.map Prod.fst).Nodup ∧ (closed → known.length = fields.length) then
      some ⟨known, false⟩
    else none
  | array items => if items.length ≤ names.length then some ⟨names.zip items, true⟩ else none
  | _ => none

/-- A text. -/
def string? : Json → Option String
  | string text => some text
  | _ => none

/-- A text or `null`. -/
def nullableString? : Json → Option (Option String)
  | null => some none
  | string text => some (some text)
  | _ => none

/-- A list of texts. -/
def strings? : Json → Option (List String)
  | array items => items.mapM string?
  | _ => none

/-- An integer from zero below a bound. -/
def natBelow? (bound : Nat) : Json → Option Nat
  | number (.integer value) => if 0 ≤ value ∧ value < bound then some value.toNat else none
  | _ => none

/-- The value of an enumeration by its name. The name may also stand alone in an object, with `null`
for its content. -/
def choice? {α : Type} (choices : List (String × α)) : Json → Option α
  | string name => choices.lookup name
  | object [(name, null)] => choices.lookup name
  | _ => none

end Restconf.Json
