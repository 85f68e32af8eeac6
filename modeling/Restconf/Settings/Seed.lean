import Restconf.Tree.Document

/-!
# The document that a datastore begins with

## Main definitions

* `SeedFault` — why a file gives no nodes.
* `Seed.ofFile` — the nodes of a file.
-/

namespace Restconf

/-- Why a file gives no nodes for a datastore. -/
inductive SeedFault where
  | unreadable (file : String)
  | notJson (file : String)
  /-- The document has no place in a data tree. -/
  | unfit (fault : Fault)
deriving DecidableEq, Repr

/-- The wording of a fault. -/
def SeedFault.message : SeedFault → String
  | unreadable file => s!"Failed to read data file {file}"
  | notJson file => s!"Invalid JSON in {file}"
  | unfit fault => fault.message

/-- The nodes of a file with the given content; without content it cannot be read. -/
def Seed.ofFile (file : String) (content : Option String) : Except SeedFault (List Node) :=
  match content with
  | none => .error (.unreadable file)
  | some text =>
    match Json.parse? text with
    | none => .error (.notJson file)
    | some document => document.toTree.mapError .unfit

end Restconf
