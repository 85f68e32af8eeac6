/-!
# Records

The fields that a structured value gives for a record, whatever the format it is written in.

## Main definitions

* `Record` — the given fields by name.
* `Record.required?`, `Record.optional?` — the value of a field.
-/

namespace Restconf

/-- The fields that were given for a record, in a format with values of type `ν`. -/
structure Record (ν : Type) where
  fields : List (String × ν)
  /-- The fields were given by position. -/
  positional : Bool

namespace Record

variable {ν α : Type}

/-- A field that has to be given. -/
def required? (record : Record ν) (name : String) (decode : ν → Option α) : Option α :=
  (record.fields.lookup name).bind decode

/-- A field that has a value of its own where it is not given. -/
def optional? (record : Record ν) (name : String) (default : α) (decode : ν → Option α) :
    Option α :=
  match record.fields.lookup name with
  | none => some default
  | some value => decode value

end Record

end Restconf
