/-!
# White space

The characters with the Unicode property `White_Space`.

## Main definitions

* `Blank.ranges` — the property as a table, code points ascending.
* `Blank.isBlank`, `Blank.trimStart`.
-/

namespace Restconf.Blank

/-- The code points with the property, first and last of each run. -/
def ranges : List (Nat × Nat) :=
  [(0x0009, 0x000D), (0x0020, 0x0020), (0x0085, 0x0085), (0x00A0, 0x00A0), (0x1680, 0x1680),
    (0x2000, 0x200A), (0x2028, 0x2029), (0x202F, 0x202F), (0x205F, 0x205F), (0x3000, 0x3000)]

/-- A character with the property. -/
def isBlank (c : Char) : Bool :=
  ranges.any fun (first, last) => first ≤ c.toNat && c.toNat ≤ last

/-- A text without the white space at its head. -/
def trimStart (text : List Char) : List Char := text.dropWhile isBlank

end Restconf.Blank
