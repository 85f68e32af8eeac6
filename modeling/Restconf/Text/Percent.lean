import Restconf.Text.Hex

/-!
# Percent escapes

The codec between a text and the form in which it may stand inside one segment of a path.

An escape is a percent sign and two hexadecimal digits, and it stands for the *one* character whose
code the digits spell: `%E9` is `é`. The codec therefore reaches the characters up to `U+00FF`;
those above it are written as they are.

## Main definitions

* `Percent.encode` — escapes everything up to `U+00FF` that is not unreserved.
* `Percent.decode` — reads every escape; `none` at a percent sign without two digits.

Both work on lists of characters, so that they compose by `++`; `encodeText` and `decodeText` are
the same on strings.
-/

namespace Restconf.Percent

/-- Characters that stand for themselves in every segment. -/
def isUnreserved (c : Char) : Bool :=
  c.isAlphanum || c == '-' || c == '.' || c == '_' || c == '~'

/-- The escape of one character, or the character itself where it needs none or has none. -/
def encodeChar (c : Char) : List Char :=
  if isUnreserved c || 0xFF < c.toNat then [c]
  else ['%', Hex.upper (c.toNat / 16), Hex.upper (c.toNat % 16)]

/-- Escapes a text for use inside one segment. -/
def encode (text : List Char) : List Char :=
  text.flatMap encodeChar

/-- Reads every escape. A percent sign has to be followed by two hexadecimal digits. -/
def decode : List Char → Option (List Char)
  | [] => some []
  | '%' :: high :: low :: rest =>
    match Hex.value? high, Hex.value? low with
    | some h, some l => (decode rest).map (Char.ofNat (16 * h + l) :: ·)
    | _, _ => none
  | c :: rest => if c = '%' then none else (decode rest).map (c :: ·)

/-- `encode` on strings. -/
def encodeText (text : String) : String :=
  .ofList (encode text.toList)

/-- `decode` on strings. -/
def decodeText (text : String) : Option String :=
  (decode text.toList).map .ofList

@[simp]
theorem encode_nil : encode [] = [] := rfl

@[simp]
theorem encode_cons (c : Char) (text : List Char) :
    encode (c :: text) = encodeChar c ++ encode text := rfl

end Restconf.Percent
