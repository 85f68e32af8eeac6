import Restconf.Json.Basic
import Restconf.Text.Hex

/-!
# Compact JSON text

A value in the least space: nothing between the tokens, and no escape that the grammar does not ask
for. Only the quote, the backslash and the characters below `U+0020` are escaped.

## Main definitions

* `Json.quote` — a text between quotes.
* `Json.text` — the compact text of a value; `Json.render` is the same as a string.

## Implementation notes

The printer works on lists of characters, so that the text of a value can be taken apart by
`List.append`. `commaSeparated` puts the commas in.
-/

namespace Restconf.Json

/-! ### Strings -/

/-- A character inside quotes. -/
def escapeChar (c : Char) : List Char :=
  match c with
  | '"' => ['\\', '"']
  | '\\' => ['\\', '\\']
  | '\x08' => ['\\', 'b']
  | '\t' => ['\\', 't']
  | '\n' => ['\\', 'n']
  | '\x0c' => ['\\', 'f']
  | '\r' => ['\\', 'r']
  | c =>
    if c.toNat < 0x20 then ['\\', 'u', '0', '0', Hex.lower (c.toNat / 16), Hex.lower (c.toNat % 16)]
    else [c]

/-- A text between quotes. -/
def quote (text : List Char) : List Char :=
  '"' :: text.flatMap escapeChar ++ ['"']

/-! ### Values -/

/-- Texts with commas between them. -/
def commaSeparated (texts : List (List Char)) : List Char :=
  [','].intercalate texts

mutual

/-- The compact text of a value. -/
def text : Json → List Char
  | null => "null".toList
  | bool true => "true".toList
  | bool false => "false".toList
  | number n => n.text
  | string s => quote s.toList
  | array items => '[' :: commaSeparated (itemTexts items) ++ [']']
  | object fields => '{' :: commaSeparated (fieldTexts fields) ++ ['}']

/-- The texts of the items of an array. -/
def itemTexts : List Json → List (List Char)
  | [] => []
  | item :: rest => text item :: itemTexts rest

/-- The texts of the fields of an object. -/
def fieldTexts : List (String × Json) → List (List Char)
  | [] => []
  | (name, value) :: rest => (quote name.toList ++ ':' :: text value) :: fieldTexts rest

end

/-- The compact text of a value as a string. -/
def render (value : Json) : String := .ofList value.text

end Restconf.Json
