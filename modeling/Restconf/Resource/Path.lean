import Restconf.Fault
import Restconf.Text.Percent

/-!
# Resource paths

A path is cut at every slash *before* its escapes are read, so that an escaped slash stays inside
its segment; every other escape is read before the grammar of segments applies, so an escaped
comma, colon or equals sign delimits like the literal one.

## Main definitions

* `Path.segments` — the segments of a path, escapes read; empty pieces do not count.
* `Path.withoutQuery`, `Path.trimSlashes`, `Path.strip?` — the pieces of a URI.
* `cut` — a text divided at the first occurrence of a character.
-/

namespace Restconf

/-- Divides a text at the first occurrence of a character, which belongs to neither part. -/
def cut (separator : Char) : List Char → Option (List Char × List Char)
  | [] => none
  | c :: rest =>
    if c = separator then some ([], rest)
    else (cut separator rest).map fun (before, after) => (c :: before, after)

theorem cut_append_cons {separator : Char} {before : List Char} (h : separator ∉ before)
    (after : List Char) : cut separator (before ++ separator :: after) = some (before, after) := by
  induction before with
  | nil => simp [cut]
  | cons c before ih =>
    rw [List.mem_cons, not_or] at h
    simp [cut, Ne.symm h.1, ih h.2]

theorem cut_eq_none_iff {separator : Char} {text : List Char} :
    cut separator text = none ↔ separator ∉ text := by
  induction text with
  | nil => simp [cut]
  | cons c text ih =>
    by_cases h : c = separator
    · simp [cut, h]
    · simp [cut, h, ih, Ne.symm h]

namespace Path

/-- Reads the escapes of one piece of a path. -/
def decodeSegment (piece : String) : Except Fault String :=
  match Percent.decodeText piece with
  | some segment => .ok segment
  | none => .error (.decode piece "'%' must be followed by two hex digits")

/-- The pieces between slashes, the empty ones left out. -/
def pieces (path : List Char) : List (List Char) :=
  (path.splitOn '/').filter (· ≠ [])

/-- The segments of a path in order, escapes read. -/
def segments (path : String) : Except Fault (List String) :=
  (pieces path.toList).mapM fun piece => decodeSegment (.ofList piece)

/-! ### Parts of a URI -/

/-- What stands before the query and the fragment. -/
def withoutQuery (uri : List Char) : List Char :=
  uri.takeWhile fun c => c ≠ '?' && c ≠ '#'

/-- A path without the slashes at its end. -/
def trimSlashes (path : List Char) : List Char :=
  (path.reverse.dropWhile (· = '/')).reverse

/-- The rest of a path after a leading text. -/
def strip? (lead path : List Char) : Option (List Char) :=
  lead.isPrefixOf? path

end Path

end Restconf
