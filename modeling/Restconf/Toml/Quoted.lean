import Restconf.Text.Hex

/-!
# Quoted text in TOML

Four kinds of quotes. Double quotes know escapes, single quotes do not; tripled quotes of either
kind hold text of many lines.

## Main definitions

* `Toml.readQuoted` — a text of one line between quotes.
* `Toml.readText` — a text between quotes of any kind.

## Implementation notes

A run of quotes ends a text of many lines at its last three, and at most two quotes in front of them
belong to the text. A line break is a line feed in the text, however it is written. A line break
right behind the opening quotes does not belong to the text.
-/

namespace Restconf.Toml

/-- A reader returns what stands at the head of a text and what follows it. -/
abbrev Reader (α : Type) := List Char → Option (α × List Char)

/-- The white space inside a line. -/
def isBlank (c : Char) : Bool := c == ' ' || c == '\t'

/-- The text without the white space of its first line. -/
def skipBlank (text : List Char) : List Char := text.dropWhile isBlank

/-- The text behind a line break. -/
def afterBreak? : List Char → Option (List Char)
  | '\n' :: rest => some rest
  | '\r' :: '\n' :: rest => some rest
  | _ => none

/-- Characters that may stand for themselves: all but the control characters. The tab may. -/
def isPlain (c : Char) : Bool := c == '\t' || (0x20 ≤ c.toNat && c.toNat != 0x7F)

/-! ### Escapes -/

/-- The character of a one-letter escape. -/
def shortEscape : Char → Option Char
  | 'b' => some '\x08'
  | 't' => some '\t'
  | 'n' => some '\n'
  | 'f' => some '\x0c'
  | 'r' => some '\r'
  | '"' => some '"'
  | '\\' => some '\\'
  | _ => none

/-- The character with the code that hexadecimal digits spell. -/
def codeEscape (digits : List Char) : Option Char := do
  let code ← Hex.spell? digits
  if code.isValidChar then return Char.ofNat code else none

/-- Puts a character in front of what a reader has found. -/
def consRead (c : Option Char) (found : Option (List Char × List Char)) :
    Option (List Char × List Char) := do
  let c ← c
  let (text, rest) ← found
  return (c :: text, rest)

/-! ### One line -/

/-- The inside of double quotes, and the closing one. -/
def doubleTail : Reader (List Char)
  | [] => none
  | '"' :: rest => some ([], rest)
  | '\\' :: 'u' :: a :: b :: c :: d :: rest => consRead (codeEscape [a, b, c, d]) (doubleTail rest)
  | '\\' :: 'U' :: a :: b :: c :: d :: e :: f :: g :: h :: rest =>
    consRead (codeEscape [a, b, c, d, e, f, g, h]) (doubleTail rest)
  | '\\' :: c :: rest => consRead (shortEscape c) (doubleTail rest)
  | c :: rest => if isPlain c && c != '\\' then consRead (some c) (doubleTail rest) else none

/-- The inside of single quotes, and the closing one. -/
def singleTail : Reader (List Char)
  | [] => none
  | '\'' :: rest => some ([], rest)
  | c :: rest => if isPlain c then consRead (some c) (singleTail rest) else none

/-- A text of one line between quotes. -/
def readQuoted : Reader (List Char)
  | '"' :: rest => doubleTail rest
  | '\'' :: rest => singleTail rest
  | _ => none

/-! ### Many lines -/

/-- The quotes that belong to the text in front of three closing ones, and what follows those. -/
def closing? (quote : Char) (text : List Char) : Option (List Char × List Char) :=
  let run := (text.takeWhile (· == quote)).length
  if run < 3 then none
  else
    let kept := min 2 (run - 3)
    some (List.replicate kept quote, text.drop (kept + 3))

/-- A line break is all that follows in the line. -/
def endsLine (text : List Char) : Bool := (afterBreak? (skipBlank text)).isSome

/-- The inside of tripled double quotes, and the closing ones. Behind a backslash at the end of a
line, all white space up to the next character is passed over. -/
def doubleLinesTail : (skipping : Bool) → Reader (List Char)
  | _, [] => none
  | skipping, '\n' :: rest =>
    if skipping then doubleLinesTail true rest
    else consRead (some '\n') (doubleLinesTail false rest)
  | skipping, '\r' :: '\n' :: rest =>
    if skipping then doubleLinesTail true rest
    else consRead (some '\n') (doubleLinesTail false rest)
  | _, '\\' :: 'u' :: a :: b :: c :: d :: rest =>
    consRead (codeEscape [a, b, c, d]) (doubleLinesTail false rest)
  | _, '\\' :: 'U' :: a :: b :: c :: d :: e :: f :: g :: h :: rest =>
    consRead (codeEscape [a, b, c, d, e, f, g, h]) (doubleLinesTail false rest)
  | _, '\\' :: c :: rest =>
    if endsLine (c :: rest) then
      -- a line break of two characters leaves its second one to be passed over
      doubleLinesTail true rest
    else consRead (shortEscape c) (doubleLinesTail false rest)
  | skipping, c :: rest =>
    if skipping && isBlank c then doubleLinesTail true rest
    else
      match closing? '"' (c :: rest) with
      | some found => some found
      | none =>
        if isPlain c && c != '\\' then consRead (some c) (doubleLinesTail false rest) else none

/-- The inside of tripled single quotes, and the closing ones. -/
def singleLinesTail : Reader (List Char)
  | [] => none
  | '\n' :: rest => consRead (some '\n') (singleLinesTail rest)
  | '\r' :: '\n' :: rest => consRead (some '\n') (singleLinesTail rest)
  | c :: rest =>
    match closing? '\'' (c :: rest) with
    | some found => some found
    | none => if isPlain c then consRead (some c) (singleLinesTail rest) else none

/-- The text without a line break at its head. -/
def skipBreak (text : List Char) : List Char := (afterBreak? text).getD text

/-- A text between quotes of any kind. -/
def readText : Reader (List Char)
  | '"' :: '"' :: '"' :: rest => doubleLinesTail false (skipBreak rest)
  | '\'' :: '\'' :: '\'' :: rest => singleLinesTail (skipBreak rest)
  | text => readQuoted text

end Restconf.Toml
