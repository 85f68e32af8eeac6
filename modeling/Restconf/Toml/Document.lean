import Restconf.Toml.Statement

/-!
# TOML documents

The table that the statements of a document make together.

## Main definitions

* `Fields.within?` — changes the fields of the table at a way from the root.
* `Fields.openTable?`, `Fields.openEntry?` — what headers do.
* `Toml.ofStatements?`, `Toml.parse?` — the table of a document.

## Implementation notes

The way of a header leads through tables of every origin except inline ones, and through the last of
several tables of one name. A table can get one header; one that lies on the way to another header
can still get its own.
-/

namespace Restconf

namespace Fields

/-- Changes the fields of the table at a way. Tables that are missing on the way are made. -/
def within? (change : Fields → Option Fields) : (way : List String) → Fields → Option Fields
  | [], fields => change fields
  | step :: way, fields =>
    match fields.lookup step with
    | none => do
      let inner ← within? change way []
      return fields ++ [(step, .table .passage inner)]
    | some (.table .inline _) => none
    | some (.table origin inner) => do
      return fields.replace step (.table origin (← within? change way inner))
    | some (.tables entries) => do
      let inner ← within? change way (← entries.getLast?)
      return fields.replace step (.tables (entries.dropLast ++ [inner]))
    | some _ => none

/-- Opens a table. -/
def openTable? (name : String) (fields : Fields) : Option Fields :=
  match fields.lookup name with
  | none => some (fields ++ [(name, .table .header [])])
  | some (.table .passage inner) => some (fields.replace name (.table .header inner))
  | some _ => none

/-- Opens another table of one name. -/
def openEntry? (name : String) (fields : Fields) : Option Fields :=
  match fields.lookup name with
  | none => some (fields ++ [(name, .tables [[]])])
  | some (.tables entries) => some (fields.replace name (.tables (entries ++ [[]])))
  | some _ => none

end Fields

/-- A document as far as it has been read. -/
structure TomlDocument where
  fields : Fields := []
  /-- The way from the root to the open table. -/
  opened : List String := []

namespace TomlDocument

/-- What a statement does to a document. -/
def extend? (document : TomlDocument) : Statement → Option TomlDocument
  | .header key => do
    let fields ← document.fields.within? (Fields.openTable? key.name) key.way
    return { fields, opened := key.way ++ [key.name] }
  | .entry key => do
    let fields ← document.fields.within? (Fields.openEntry? key.name) key.way
    return { fields, opened := key.way ++ [key.name] }
  | .assign key value => do
    let fields ← document.fields.within? (Fields.put? key.name value key.way) document.opened
    return { document with fields }

end TomlDocument

namespace Toml

/-- The table of the statements of a document. -/
def ofStatements? (statements : List Statement) : Option Toml := do
  let document ← statements.foldlM TomlDocument.extend? {}
  return table .header document.fields

/-- The table of a document. -/
def parse? (text : String) : Option Toml :=
  (Statement.ofText? text.toList).bind ofStatements?

end Toml

end Restconf
