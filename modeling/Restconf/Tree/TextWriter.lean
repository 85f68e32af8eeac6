import Restconf.Json.Parser
import Restconf.Tree.Sink

/-!
# Writing trees as text

A receiver that writes JSON text as the calls come in, and keeps no tree.

Every value and every closed node is followed by a comma. The comma in front of a closing bracket is
taken back when the bracket is written, and the one at the very end is never shown.

## Main definitions

* `TextWriter` — the text so far and the open brackets.
* `TextWriter.openNode`, `TextWriter.leaf`, `TextWriter.leafSet`, `TextWriter.close` — the calls.
* `TextWriter.shown` — the text so far without a comma at its end.
* `TextWriter.finalize`, `TextWriter.finalizeValue` — the finished text, and the value it denotes.

## Implementation notes

The text is kept last character first: writing is `List.reverseAux`, and taking back a comma is a
match on the head.
-/

namespace Restconf

/-- The nodes that stand in brackets. -/
inductive Nesting where
  | container | list
deriving DecidableEq, Repr

namespace Nesting

/-- The bracketed form of a kind of node, if it has one. -/
def ofKind? : NodeKind → Option Nesting
  | .container => some .container
  | .list => some .list
  | .leaf | .leafList => none

/-- The kind of a bracketed node. -/
def kind : Nesting → NodeKind
  | container => .container
  | list => .list

def openBracket : Nesting → Char
  | container => '{'
  | list => '['

def closeBracket : Nesting → Char
  | container => '}'
  | list => ']'

/-- How a refused call names the innermost open node. -/
def describe : Option Nesting → String
  | none => "None"
  | some container => "Some(Container)"
  | some list => "Some(List)"

end Nesting

/-- JSON text under construction. -/
structure TextWriter where
  /-- The text so far, last character first. -/
  written : List Char := []
  /-- The open brackets, innermost first. -/
  nested : List Nesting := []
deriving DecidableEq, Repr

namespace TextWriter

/-- A kind of node that has no brackets. -/
def cannotOpen (field : String) (kind : NodeKind) : Fault :=
  let label := kind.label
  .internal s!"cannot open {label} '{field}' as a node"

/-- A closing call that does not fit the innermost open node. -/
def doesNotMatch (kind : NodeKind) (innermost : Option Nesting) : Fault :=
  let label := kind.label
  let found := Nesting.describe innermost
  .internal s!"close({label}) does not match open node {found}"

/-- Nodes that were never closed. -/
def stillOpen (count : Nat) (innermost : Nesting) : Fault :=
  let label := innermost.kind.label
  .internal s!"{count} node(s) still open at finalize (innermost {label})"

/-- A finished text that is no JSON document. -/
def invalidText : Fault := .internal "tree writer produced invalid JSON"

/-! ### Calls -/

/-- Adds text at the end. -/
def write (writer : TextWriter) (text : List Char) : TextWriter :=
  { writer with written := text.reverseAux writer.written }

/-- Takes back a comma at the end. -/
def trimComma : List Char → List Char
  | ',' :: rest => rest
  | text => text

/-- The name of a field and its colon; nothing for the empty name. -/
def fieldName (field : String) : List Char :=
  if field.isEmpty then [] else Json.quote field.toList ++ [':']

/-- Opens a container or a list. The empty field name opens a value without a name, such as the
whole document or an entry of a list. -/
def openNode (writer : TextWriter) (field : String) (kind : NodeKind) : Reply TextWriter :=
  match Nesting.ofKind? kind with
  | none => { sink := writer, fault := some (cannotOpen field kind) }
  | some nesting =>
    { sink :=
        { writer.write (fieldName field ++ [nesting.openBracket]) with
          nested := nesting :: writer.nested } }

/-- Writes a field with a text. -/
def leaf (writer : TextWriter) (field value : String) : TextWriter :=
  writer.write (fieldName field ++ Json.quote value.toList ++ [','])

/-- Writes a field with texts, as they are given. -/
def leafSet (writer : TextWriter) (field : String) (values : List String) : TextWriter :=
  writer.write
    (fieldName field ++ '[' :: Json.commaSeparated (values.map fun v => Json.quote v.toList)
      ++ [']', ','])

/-- Closes the innermost open node. Leaves and leaf-lists are never open, and closing one does
nothing. -/
def close (writer : TextWriter) (kind : NodeKind) : Reply TextWriter :=
  match Nesting.ofKind? kind with
  | none => { sink := writer }
  | some nesting =>
    match writer.nested with
    | [] => { sink := writer, fault := some (doesNotMatch kind none) }
    | innermost :: around =>
      if innermost = nesting then
        { sink := {
            written := ',' :: nesting.closeBracket :: trimComma writer.written
            nested := around } }
      else
        { sink := { writer with nested := around }
          fault := some (doesNotMatch kind (some innermost)) }

instance : TreeSink TextWriter where
  call writer
    | .enterContainer name => writer.openNode name .container
    | .enterList name => writer.openNode name .list
    | .addLeaf name value => { sink := writer.leaf name value }
    | .addLeafList name values => { sink := writer.leafSet name values.values }
    | .exit kind => writer.close kind

/-! ### The text -/

/-- The text so far, without a comma at its end. -/
def shown (writer : TextWriter) : List Char :=
  (trimComma writer.written).reverse

/-- The text, if everything has been closed. -/
def finalize (writer : TextWriter) : Except Fault String :=
  match writer.nested with
  | innermost :: _ => .error (stillOpen writer.nested.length innermost)
  | [] => .ok (.ofList writer.shown)

/-- The value that the finished text denotes. -/
def finalizeValue (writer : TextWriter) : Except Fault Json := do
  let text ← writer.finalize
  match Json.parse? text with
  | some value => return value
  | none => throw invalidText

end TextWriter

end Restconf
