import Restconf.Json.Parser

/-!
# Reading a text for what is wanted of it

Whoever reads a record from a text has no use for fields that the record does not have. Their values
are passed over: they have to have the form of a value, but do not have to stand for one.

## Main definitions

* `Json.skip` — passes over a value.
* `Json.Shape` — what is wanted of a text.
* `Json.ofTextAs?` — the value of a whole text as far as it is wanted.
* `Json.decode?` — a serialized value in a text.

## What is not checked in a value that is passed over

Its numbers can be out of range, the surrogates in its strings and names can stand alone, and its
arrays and objects can nest to any depth. The names next to it belong to the record and are read
like any other string, since they decide which values are wanted.
-/

namespace Restconf.Json

/-! ### Passing over values -/

/-- Passes over the inside of a string and its closing quote. -/
def skipStringTail : Reader Unit
  | [] => none
  | '"' :: rest => some ((), rest)
  | '\\' :: 'u' :: a :: b :: c :: d :: rest =>
    if (Hex.spell? [a, b, c, d]).isSome then skipStringTail rest else none
  | '\\' :: c :: rest => if (shortEscape c).isSome then skipStringTail rest else none
  | c :: rest => if c.toNat < 0x20 ∨ c = '\\' then none else skipStringTail rest

/-- Passes over a string from its opening quote on. -/
def skipString : Reader Unit
  | '"' :: rest => skipStringTail rest
  | _ => none

/-- A reader whose finding nobody wants. -/
def ignored {α : Type} (reader : Reader α) : Reader Unit := fun text =>
  (reader text).map fun (_, rest) => ((), rest)

/-- Passes over a value that is neither an array nor an object. -/
def skipScalar : Reader Unit
  | 'n' :: rest => ignored (readWord "null" null) ('n' :: rest)
  | 't' :: rest => ignored (readWord "true" (bool true)) ('t' :: rest)
  | 'f' :: rest => ignored (readWord "false" (bool false)) ('f' :: rest)
  | '"' :: rest => skipString ('"' :: rest)
  | text => ignored Numeral.parse text

/-- Passes over a value. The text begins with the value and has at most `fuel` characters, which
bounds both the number of parts and the depth. -/
def skip : (fuel : Nat) → Reader Unit
  | 0, _ => none
  | fuel + 1, '[' :: rest => ignored (readParts (skip fuel) ']' fuel) rest
  | fuel + 1, '{' :: rest =>
    ignored (readParts (readField skipString fun _ => skip fuel) '}' fuel) rest
  | _ + 1, text => skipScalar text

/-! ### Shapes -/

/-- What is wanted of a text. -/
inductive Shape where
  /-- The value, whatever it is. -/
  | any
  /-- The items of an array, each of one shape. -/
  | list (item : Shape)
  /-- The fields of a record by name, or in this order. -/
  | record (fields : List (String × Shape))

/-- The names of the fields of a record. -/
def Shape.names : Shape → List String
  | record fields => fields.map Prod.fst
  | _ => []

/-- Reads `, part` for the readers in turn, as far as the text goes, and the closing bracket. -/
def readRow {α : Type} (close : Char) : List (Reader α) → Reader (List α)
  | [], text =>
    match skipBlank text with
    | c :: rest => if c = close then some ([], rest) else none
    | [] => none
  | part :: parts, text =>
    match skipBlank text with
    | c :: rest =>
      if c = close then some ([], rest)
      else if c = ',' then do
        let (first, rest) ← part (skipBlank rest)
        let (more, rest) ← readRow close parts rest
        return (first :: more, rest)
      else none
    | [] => none

/-- Reads parts with commas between them, each with its own reader, and the closing bracket. There
may be fewer parts than readers. -/
def readTuple {α : Type} (close : Char) : List (Reader α) → Reader (List α)
  | [], text => readRow close [] text
  | part :: parts, text =>
    match skipBlank text with
    | c :: rest =>
      if c = close then some ([], rest)
      else do
        let (first, rest) ← part (c :: rest)
        let (more, rest) ← readRow close parts rest
        return (first :: more, rest)
    | [] => none

/-- Reads a value as far as a shape wants it, arrays and objects nesting at most `limit` deep. A
field that a record does not have stands with `null`. A value of another kind than the shape is for
is read in full. -/
def readAs (fuel : Nat) : (limit : Nat) → Shape → Reader Json
  | limit, .list item, '[' :: rest =>
    match limit with
    | 0 => none
    | limit + 1 =>
      (readParts (readAs fuel limit item) ']' fuel rest).map fun (items, rest) =>
        (array items, rest)
  | limit, .record fields, '[' :: rest =>
    match limit with
    | 0 => none
    | limit + 1 =>
      (readTuple ']' (fields.map fun (_, shape) => readAs fuel limit shape) rest).map
        fun (items, rest) => (array items, rest)
  | limit, .record fields, '{' :: rest =>
    match limit with
    | 0 => none
    | limit + 1 =>
      let value (name : String) : Reader Json :=
        match fields.lookup name with
        | some shape => readAs fuel limit shape
        | none => fun text => (skip fuel text).map fun (_, rest) => (null, rest)
      (readParts (readField readString value) '}' fuel rest).map fun (fields, rest) =>
        (object fields, rest)
  | limit, _, text => read fuel limit text

@[simp]
theorem readAs_any (fuel limit : Nat) (text : List Char) :
    readAs fuel limit .any text = read fuel limit text := by
  unfold readAs
  rfl

/-! ### Whole texts -/

/-- The value of a whole text as far as a shape wants it, its fields as they stand. -/
def ofTextAs? (shape : Shape) (text : List Char) : Option Json :=
  whole? (readAs text.length nestingLimit shape) text

/-- A serialized value in a text. -/
def decode? {α : Type} (shape : Shape) (ofJson? : Json → Option α) (text : String) : Option α :=
  (ofTextAs? shape text.toList).bind ofJson?

end Restconf.Json
