/-!
# Command line arguments

## Main definitions

* `Arguments` — the files named on the command line.
* `Invocation.parse` — what a command line asks for.
-/

namespace Restconf

/-- The files named on the command line. -/
structure Arguments where
  /-- The settings file. -/
  config : Option String := none
  /-- The document that the datastore begins with. -/
  data : Option String := none
deriving DecidableEq, Repr

/-- Something wrong with a command line. -/
inductive ArgumentFlaw where
  /-- The option for the document is the last argument. -/
  | missingData
deriving DecidableEq, Repr

/-- The wording of a flaw. -/
def ArgumentFlaw.message : ArgumentFlaw → String
  | missingData => "Missing argument for --data"

/-- What a command line asks for. -/
inductive Invocation where
  | help
  | serve (arguments : Arguments)
deriving DecidableEq, Repr

namespace Invocation

/-- Reads arguments on top of those before. Whatever begins with a hyphen and is no option is passed
over; of several files of one kind the last stands. -/
def parseWith (found : Arguments) : List String → Except ArgumentFlaw Invocation
  | [] => .ok (serve found)
  | "--data" :: file :: rest | "-d" :: file :: rest =>
    parseWith { found with data := some file } rest
  | ["--data"] | ["-d"] => .error .missingData
  | "--help" :: _ | "-h" :: _ => .ok help
  | file :: rest =>
    if file.toList.head? = some '-' then parseWith found rest
    else parseWith { found with config := some file } rest

/-- What a command line asks for. -/
def parse (arguments : List String) : Except ArgumentFlaw Invocation := parseWith {} arguments

end Invocation

end Restconf
