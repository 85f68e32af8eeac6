import Restconf.Resource.Path

/-!
# Mount points

The root path of the routes is a pattern. It is literal text but for parameters in braces, each of
which stands for what is left of one piece of a path.

## Main definitions

* `Mount` — a root path as a pattern; `Mount.ofRoot?` reads it.
* `Mount.strip?` — what follows the root path in a path, and what the parameters stand for.

## Main statements

* `PatternMark.ofList_eq_map`, `Mount.ofMarks?_text` — a pattern without braces is literal.
* `Mount.strip?_literal` — literal text is stripped off as it is.

## Implementation notes

A brace that is meant literally is written twice. This is settled first, for the whole root path
and from left to right, so that a doubled brace is text inside the name of a parameter too.

What a parameter stands for may be empty.
-/

namespace Restconf

/-- A character of a pattern, or a brace around the name of a parameter. -/
inductive PatternMark where
  | text (c : Char)
  | opening
  | closing
deriving DecidableEq, Repr

/-- The marks of a pattern. -/
def PatternMark.ofList : List Char → List PatternMark
  | '{' :: '{' :: rest => .text '{' :: ofList rest
  | '}' :: '}' :: rest => .text '}' :: ofList rest
  | '{' :: rest => .opening :: ofList rest
  | '}' :: rest => .closing :: ofList rest
  | c :: rest => .text c :: ofList rest
  | [] => []

theorem PatternMark.ofList_eq_map {text : List Char} (h : ∀ c ∈ text, c ≠ '{' ∧ c ≠ '}') :
    ofList text = text.map .text := by
  induction text with
  | nil => rfl
  | cons c text ih =>
    obtain ⟨⟨opening, closing⟩, rest⟩ := List.forall_mem_cons.1 h
    rw [ofList.eq_def]
    split <;> simp_all

/-- A part of a mount point. -/
inductive MountPart where
  | literal (c : Char)
  /-- What is left of a piece. -/
  | parameter (name : String)
deriving DecidableEq, Repr

/-- A mount point. -/
abbrev Mount := List MountPart

/-- A parameter of a route, and the text of the path that it stands for. -/
structure Capture where
  name : String
  text : List Char
deriving DecidableEq, Repr

namespace Mount

/-! ### Reading -/

/-- A piece of a root path that can stand in a route. -/
def isRoutable (piece : List Char) : Bool :=
  !(piece.head?.any fun c => c == ':' || c == '*')

/-- The name of a parameter can go on with a character. It has no star and, behind its first
character, no slash. -/
def continuesName (name : List Char) (c : Char) : Bool :=
  c ≠ '*' && (c ≠ '/' || name.isEmpty)

/-- A piece of a pattern ends here. -/
def endsPiece : List PatternMark → Bool
  | [] => true
  | mark :: _ => mark == .text '/'

/-- The mount point that marks spell. Inside of braces there is the name so far, its last character
first. A parameter has a name and is the last part of its piece. -/
def ofMarks? : (name : Option (List Char)) → List PatternMark → Option Mount
  | none, [] => some []
  | none, .text c :: rest => (ofMarks? none rest).map (.literal c :: ·)
  | none, .opening :: rest => ofMarks? (some []) rest
  | none, .closing :: _ => none
  | some _, [] => none
  | some name, .text c :: rest =>
    if continuesName name c then ofMarks? (some (c :: name)) rest else none
  | some name, .opening :: rest => ofMarks? (some ('{' :: name)) rest
  | some name, .closing :: rest =>
    if name.isEmpty || !endsPiece rest then none
    else (ofMarks? none rest).map (.parameter (.ofList name.reverse) :: ·)

/-- The mount point of a root path. Without the slashes at its end it is empty or begins with a
slash. -/
def ofRoot? (root : String) : Option Mount :=
  let path := Path.trimSlashes root.toList
  if path.head?.all (· == '/') && (path.splitOn '/').all isRoutable then
    ofMarks? none (PatternMark.ofList path)
  else none

theorem ofMarks?_text (text : List Char) :
    ofMarks? none (text.map .text) = some (text.map .literal) := by
  induction text with
  | nil => rfl
  | cons c text ih => simp [ofMarks?, ih]

/-! ### Matching -/

/-- What follows the mount point in a path, and what its parameters stand for. -/
def strip? : Mount → List Char → Option (List Capture × List Char)
  | [], path => some ([], path)
  | .literal _ :: _, [] => none
  | .literal c :: rest, d :: path => if c = d then strip? rest path else none
  | .parameter name :: rest, path => do
    let (captures, after) ← strip? rest (path.dropWhile (· ≠ '/'))
    return ({ name, text := path.takeWhile (· ≠ '/') } :: captures, after)

theorem strip?_literal (text path : List Char) :
    strip? (text.map .literal) path = (Path.strip? text path).map ([], ·) := by
  induction text generalizing path with
  | nil => cases path <;> rfl
  | cons c text ih =>
    cases path with
    | nil => rfl
    | cons d path =>
      have step : Path.strip? (c :: text) (d :: path) =
          if c == d then Path.strip? text path else none := rfl
      by_cases h : c = d
      · rw [step]
        simp [strip?, h, ih]
      · simp [strip?, step, h]

end Mount

end Restconf
