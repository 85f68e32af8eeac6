import Restconf.Json.Printer

/-!
# Reading JSON text

A strict reader: no comments, no trailing commas, no control characters inside quotes, no escaped
surrogate without its partner, and nothing behind the value but white space.

## Main definitions

* `Json.read` — the value at the head of a text, with a limit on the nesting.
* `Json.ofText?` — the value of a whole text, fields as they stand.
* `Json.parse?` — the value that a document denotes: nesting up to `nestingLimit`, repeated fields
  merged.

## Implementation notes

The nesting limit is the structural argument of `read`: an array or an object inside a value is read
with one level less, and at level zero there is none. The items of one array are read by a loop
that is given the reader for a single item; its fuel is the length of the whole text, and every
round reads at least one character.
-/

namespace Restconf.Json

/-- A reader returns the value at the head of a text and what follows it. -/
abbrev Reader (α : Type) := List Char → Option (α × List Char)

/-- The white space of JSON. -/
def isBlank (c : Char) : Bool :=
  c == ' ' || c == '\t' || c == '\n' || c == '\r'

/-- The text without the white space at its head. -/
def skipBlank (text : List Char) : List Char := text.dropWhile isBlank

/-! ### Strings -/

/-- The character of a one-letter escape. -/
def shortEscape : Char → Option Char
  | '"' => some '"'
  | '\\' => some '\\'
  | '/' => some '/'
  | 'b' => some '\x08'
  | 'f' => some '\x0c'
  | 'n' => some '\n'
  | 'r' => some '\r'
  | 't' => some '\t'
  | _ => none

/-- A code unit that opens a surrogate pair. -/
def isHighSurrogate (unit : Nat) : Bool := 0xD800 ≤ unit && unit ≤ 0xDBFF

/-- A code unit that closes a surrogate pair. -/
def isLowSurrogate (unit : Nat) : Bool := 0xDC00 ≤ unit && unit ≤ 0xDFFF

/-- The character of a surrogate pair. -/
def pairChar (high low : Nat) : Char :=
  Char.ofNat (0x10000 + (high - 0xD800) * 0x400 + (low - 0xDC00))

/-- Reads the inside of a string and its closing quote. -/
def stringTail : Reader (List Char)
  | [] => none
  | '"' :: rest => some ([], rest)
  | '\\' :: 'u' :: a :: b :: c :: d :: rest =>
    match Hex.spell? [a, b, c, d] with
    | none => none
    | some unit =>
      if isLowSurrogate unit then none
      else if isHighSurrogate unit then
        match rest with
        | '\\' :: 'u' :: e :: f :: g :: h :: rest =>
          match Hex.spell? [e, f, g, h] with
          | none => none
          | some low =>
            if isLowSurrogate low then
              (stringTail rest).map fun (s, rest) => (pairChar unit low :: s, rest)
            else none
        | _ => none
      else (stringTail rest).map fun (s, rest) => (Char.ofNat unit :: s, rest)
  | '\\' :: c :: rest =>
    match shortEscape c with
    | some c => (stringTail rest).map fun (s, rest) => (c :: s, rest)
    | none => none
  | c :: rest =>
    if c.toNat < 0x20 ∨ c = '\\' then none
    else (stringTail rest).map fun (s, rest) => (c :: s, rest)

/-- Reads a string from its opening quote on. -/
def readString : Reader String
  | '"' :: rest => (stringTail rest).map fun (s, rest) => (.ofList s, rest)
  | _ => none

/-! ### Values without parts -/

/-- Reads a numeral and takes its number. -/
def readNumber : Reader Number := fun text => do
  let (numeral, rest) ← Numeral.parse text
  let number ← Number.ofNumeral numeral
  return (number, rest)

/-- Reads a word that stands for a value. -/
def readWord (word : String) (value : Json) : Reader Json := fun text =>
  (word.toList.isPrefixOf? text).map fun rest => (value, rest)

/-- Reads a value that is neither an array nor an object. -/
def readScalar : Reader Json
  | 'n' :: rest => readWord "null" null ('n' :: rest)
  | 't' :: rest => readWord "true" (bool true) ('t' :: rest)
  | 'f' :: rest => readWord "false" (bool false) ('f' :: rest)
  | '"' :: rest => (readString ('"' :: rest)).map fun (s, rest) => (string s, rest)
  | text => (readNumber text).map fun (n, rest) => (number n, rest)

/-! ### Arrays and objects -/

/-- Reads `, part` as often as it occurs and then the closing bracket. -/
def readMore {α : Type} (part : Reader α) (close : Char) : Nat → Reader (List α)
  | 0, _ => none
  | fuel + 1, text =>
    match skipBlank text with
    | c :: rest =>
      if c = close then some ([], rest)
      else if c = ',' then do
        let (first, rest) ← part (skipBlank rest)
        let (more, rest) ← readMore part close fuel rest
        return (first :: more, rest)
      else none
    | [] => none

/-- Reads parts with commas between them and the closing bracket. -/
def readParts {α : Type} (part : Reader α) (close : Char) (fuel : Nat) : Reader (List α) :=
  fun text =>
  match skipBlank text with
  | c :: rest =>
    if c = close then some ([], rest)
    else do
      let (first, rest) ← part (c :: rest)
      let (more, rest) ← readMore part close fuel rest
      return (first :: more, rest)
  | [] => none

/-- Reads a field: a name, a colon and a value. How the value is read may depend on the name. -/
def readField {ν α : Type} (name : Reader ν) (value : ν → Reader α) : Reader (ν × α) :=
  fun text => do
  let (n, rest) ← name text
  match skipBlank rest with
  | ':' :: rest =>
    let (v, rest) ← value n (skipBlank rest)
    return ((n, v), rest)
  | _ => none

/-- Reads a value in which arrays and objects nest at most `limit` deep. The text begins with the
value; `fuel` is at least the number of parts of each array and object. -/
def read (fuel : Nat) : (limit : Nat) → Reader Json
  | limit, '[' :: rest =>
    match limit with
    | 0 => none
    | limit + 1 =>
      (readParts (read fuel limit) ']' fuel rest).map fun (items, rest) => (array items, rest)
  | limit, '{' :: rest =>
    match limit with
    | 0 => none
    | limit + 1 =>
      (readParts (readField readString fun _ => read fuel limit) '}' fuel rest).map
        fun (fields, rest) => (object fields, rest)
  | _, text => readScalar text

/-! ### Whole texts -/

/-- What a reader finds in a whole text, with white space before and behind it. -/
def whole? {α : Type} (reader : Reader α) (text : List Char) : Option α :=
  match reader (skipBlank text) with
  | some (value, rest) => if skipBlank rest = [] then some value else none
  | none => none

/-- The value of a whole text, its fields as they stand. -/
def ofText? (limit : Nat) (text : List Char) : Option Json := whole? (read text.length limit) text

/-- How deep the arrays and objects of a document may nest. -/
def nestingLimit : Nat := 127

/-- The value that a document denotes. -/
def parse? (text : String) : Option Json :=
  (ofText? nestingLimit text.toList).map merge

end Restconf.Json
