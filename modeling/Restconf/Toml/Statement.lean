import Restconf.Toml.Scalar

/-!
# The lines of a TOML document

A document is a sequence of statements: headers that open a table, and assignments to the table that
is open. What they make together is decided elsewhere; here stands what each of them says.

## Main definitions

* `Key` — a dotted key.
* `Fields.put?` — adds a value under a dotted key, the law of assignments.
* `Toml.readValue` — a value at the head of a text.
* `Statement`, `Statement.ofText?` — the statements of a text.

## Implementation notes

Arrays and inline tables nest up to a limit, which is the structural argument of `readValue`; in the
same way a dotted key has a limit on its parts. Loops over the parts of one array, of one inline
table and over the lines of a text are given the length of the text as fuel, and each round reads at
least one character.
-/

namespace Restconf

/-- A dotted key: the names of the tables on the way, and the last name. -/
structure Key where
  way : List String
  name : String
deriving DecidableEq, Repr

/-! ### Assignments -/

/-- The fields of a table. -/
abbrev Fields := List (String × Toml)

namespace Fields

/-- Puts a value in the place of the one of that name. -/
def replace (fields : Fields) (name : String) (value : Toml) : Fields :=
  fields.map fun field => if field.1 = name then (name, value) else field

/-- Adds a field. A name can be given once. -/
def add? (fields : Fields) (name : String) (value : Toml) : Option Fields :=
  if (fields.lookup name).isSome then none else some (fields ++ [(name, value)])

/-- Adds a value under a dotted key. The way leads through tables that dotted keys have made, and
makes those that are missing. It does not enter a table with a header of its own, and through one
that merely lies on the way to a header, or through the last of several tables, only if it makes
a table beyond. -/
def put? (name : String) (value : Toml) : (way : List String) → Fields → Option Fields
  | [], fields => fields.add? name value
  | step :: way, fields =>
    match fields.lookup step with
    | none => do
      let inner ← put? name value way []
      return fields ++ [(step, .table .dotted inner)]
    | some (.table .dotted inner) => do
      return fields.replace step (.table .dotted (← put? name value way inner))
    | some (.table .passage inner) =>
      if way.isEmpty then none
      else do return fields.replace step (.table .passage (← put? name value way inner))
    | some (.tables entries) =>
      if way.isEmpty then none
      else do
        let inner ← put? name value way (← entries.getLast?)
        return fields.replace step (.tables (entries.dropLast ++ [inner]))
    | some _ => none

/-- The fields that assignments make together. -/
def ofAssignments? (assignments : List (Key × Toml)) : Option Fields :=
  assignments.foldlM (fun fields (key, value) => fields.put? key.name value key.way) []

end Fields

namespace Toml

/-! ### Keys -/

/-- Characters of keys without quotes. -/
def isBareKey (c : Char) : Bool := c.isAlphanum || c == '-' || c == '_'

/-- Reads one part of a key. -/
def readKeyPart : Reader String := fun text =>
  match text.span isBareKey with
  | ([], _) => (readQuoted text).map fun (part, rest) => (.ofList part, rest)
  | (part, rest) => some (.ofList part, rest)

/-- Reads a key of at most so many parts, and the white space around it. -/
def readKey : (limit : Nat) → Reader Key
  | 0, _ => none
  | limit + 1, text => do
    let (part, rest) ← readKeyPart (skipBlank text)
    match skipBlank rest with
    | '.' :: rest =>
      let (key, rest) ← readKey limit rest
      return ({ key with way := part :: key.way }, rest)
    | rest => return ({ way := [], name := part }, rest)

/-- The limit on the parts of a key, and on the nesting of values. -/
def nestingLimit : Nat := 79

/-! ### Values -/

/-- The text behind blanks, line breaks and comments. -/
def skipLines : (inComment : Bool) → List Char → List Char
  | _, [] => []
  | _, '\n' :: rest => skipLines false rest
  | _, '\r' :: '\n' :: rest => skipLines false rest
  | true, c :: rest => if isPlain c then skipLines true rest else c :: rest
  | false, c :: rest =>
    if c = '#' then skipLines true rest
    else if isBlank c then skipLines false rest
    else c :: rest

/-- Reads the items of an array and its closing bracket. A comma may stand behind the last item. -/
def readItems (item : Reader Toml) : (fuel : Nat) → Reader (List Toml)
  | 0, _ => none
  | fuel + 1, text =>
    match skipLines false text with
    | ']' :: rest => some ([], rest)
    | text => do
      let (first, rest) ← item text
      match skipLines false rest with
      | ']' :: rest => return ([first], rest)
      | ',' :: rest =>
        let (more, rest) ← readItems item fuel rest
        return (first :: more, rest)
      | _ => none

/-- Reads a key, an equals sign and a value. -/
def readAssignment (value : Reader Toml) : Reader (Key × Toml) := fun text => do
  let (key, rest) ← readKey nestingLimit text
  let (v, rest) ← value (skipBlank (← after? '=' rest))
  return ((key, v), skipBlank rest)

/-- Reads assignments with commas between them, and the closing brace. -/
def readAssignments (value : Reader Toml) : (fuel : Nat) → Reader (List (Key × Toml))
  | 0, _ => none
  | fuel + 1, text => do
    let (first, rest) ← readAssignment value text
    match rest with
    | '}' :: rest => return ([first], rest)
    | ',' :: rest =>
      let (more, rest) ← readAssignments value fuel rest
      return (first :: more, rest)
    | _ => none

/-- Reads the fields of an inline table and its closing brace. -/
def readFields (value : Reader Toml) (fuel : Nat) : Reader Fields := fun text =>
  match skipBlank text with
  | '}' :: rest => some ([], rest)
  | text => do
    let (assignments, rest) ← readAssignments value fuel text
    return (← Fields.ofAssignments? assignments, rest)

/-- Reads a value in which arrays and inline tables nest at most `limit` deep. -/
def readValue (fuel : Nat) : (limit : Nat) → Reader Toml
  | limit, '[' :: rest =>
    match limit with
    | 0 => none
    | limit + 1 =>
      (readItems (readValue fuel limit) fuel rest).map fun (items, rest) => (array items, rest)
  | limit, '{' :: rest =>
    match limit with
    | 0 => none
    | limit + 1 =>
      (readFields (readValue fuel limit) fuel rest).map fun (fields, rest) =>
        (table .inline fields, rest)
  | _, '"' :: rest => (readText ('"' :: rest)).map fun (s, rest) => (string (.ofList s), rest)
  | _, '\'' :: rest => (readText ('\'' :: rest)).map fun (s, rest) => (string (.ofList s), rest)
  | _, text => readScalar text

end Toml

/-! ### Statements -/

/-- A statement of a document. -/
inductive Statement where
  /-- Opens a table. -/
  | header (key : Key)
  /-- Opens another table under a name that stands for several. -/
  | entry (key : Key)
  /-- Adds a value to the open table. -/
  | assign (key : Key) (value : Toml)
deriving Repr

namespace Statement

open Toml

/-- The text behind the end of a line, with a comment in front of it if there is one. -/
def afterLine? (text : List Char) : Option (List Char) :=
  let rest := match skipBlank text with
    | '#' :: comment => comment.dropWhile isPlain
    | rest => rest
  if rest.isEmpty then some [] else afterBreak? rest

/-- Reads a statement and the end of its line. -/
def read (fuel : Nat) : Reader Statement
  | '[' :: '[' :: text => do
    let (key, rest) ← readKey nestingLimit text
    return (entry key, ← afterLine? (← after? ']' (← after? ']' rest)))
  | '[' :: text => do
    let (key, rest) ← readKey nestingLimit text
    return (header key, ← afterLine? (← after? ']' rest))
  | text => do
    let ((key, value), rest) ← readAssignment (readValue fuel nestingLimit) text
    return (assign key value, ← afterLine? rest)

/-- Reads lines until the end of the text. -/
def readAll (size : Nat) : (fuel : Nat) → List Char → Option (List Statement)
  | _, [] => some []
  | 0, _ => none
  | fuel + 1, text =>
    match afterLine? text with
    | some rest => readAll size fuel rest
    | none => do
      let (statement, rest) ← read size (skipBlank text)
      return statement :: (← readAll size fuel rest)

/-- The statements of a text. It may begin with a byte order mark. -/
def ofText? (text : List Char) : Option (List Statement) :=
  let text := (Toml.after? '\uFEFF' text).getD text
  readAll text.length text.length text

end Statement

end Restconf
