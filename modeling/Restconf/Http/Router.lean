import Restconf.Http.Mount
import Restconf.Resource.Identifier

/-!
# Routes

Which resource a request path belongs to. Routes are matched on the raw path, escapes untouched.

## Main definitions

* `Route` — the resources that are served.
* `Route.dataPatterns` — the patterns of data resources.
* `Route.ofPath?` — the route of a path, below a root path.
* `Route.isMountable` — a root path below which routes can be matched.

## Implementation notes

The path of the health check is looked at before the root path, whose parameters could stand for it.
-/

namespace Restconf

/-- The resources that are served. -/
inductive Route where
  /-- The health check. -/
  | health
  /-- Data resources, and the datastore itself. -/
  | data
  /-- An event stream, by the parameters of its path. Its name is the last of them. -/
  | stream (parameters : List Capture)
deriving DecidableEq, Repr

namespace Route

/-- The path of the health check. -/
def healthPath : String := "/health"

/-- What stands in front of the name of a stream. -/
def streamMarker : String := "/streams/"

/-- A pattern for paths below the root path: literal text, and behind it, maybe, a parameter for all
that is left, which must not be empty. -/
structure Pattern where
  text : String
  takesRest : Bool := false
deriving DecidableEq, Repr

/-- A path below the root path has the form of a pattern. -/
def Pattern.isMatch (pattern : Pattern) (path : List Char) : Bool :=
  match Path.strip? pattern.text.toList path with
  | some left => left.isEmpty != pattern.takesRest
  | none => false

/-- The patterns for data resources: the data marker, the marker before a slash, and a data path
behind both. The first two name the datastore itself; the service is to refuse them. -/
def dataPatterns : List Pattern :=
  [{ text := "/data" }, { text := "/data/" }, { text := "/data/", takesRest := true }]

/-- A path below the root path is that of a data resource. -/
def isData (path : List Char) : Bool := dataPatterns.any fun pattern => pattern.isMatch path

/-- The parameter for the name of a stream. -/
def streamParameter : String := "stream_id"

/-- The name of a stream in a path below the root path: one piece that is not empty. -/
def streamId? (rest : List Char) : Option Capture :=
  match Path.strip? streamMarker.toList rest with
  | some text =>
    if text.isEmpty || text.contains '/' then none else some { name := streamParameter, text }
  | none => none

/-- The route of a path. -/
def ofPath? (root : String) (path : List Char) : Option Route :=
  if path = healthPath.toList then some health
  else do
    let mount ← Mount.ofRoot? root
    let (captures, rest) ← mount.strip? path
    if isData rest then return data
    let id ← streamId? rest
    return stream (captures ++ [id])

/-- Routes can be matched below a root path. -/
def isMountable (root : String) : Bool := (Mount.ofRoot? root).isSome

end Route

end Restconf
