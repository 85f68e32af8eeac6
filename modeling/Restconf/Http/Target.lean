import Restconf.Resource.Path

/-!
# Request targets

A request names its resource by a path, or by a whole URI with scheme and authority in front of the
path. Which host a URI names does not matter to the gateway: routes are matched on the path alone.

## Main definitions

* `Target.withoutScheme?` — a URI from its authority on.
* `Target.path` — the path of a target.
-/

namespace Restconf.Target

/-- A character of a scheme. -/
def isSchemeChar (c : Char) : Bool :=
  c.isAlphanum || c == '+' || c == '-' || c == '.' || c == '~'

/-- What ends a scheme. -/
def schemeMark : String := "://"

/-- A URI from its authority on, if it begins with a scheme. The scheme may be empty. -/
def withoutScheme? (uri : List Char) : Option (List Char) :=
  Path.strip? schemeMark.toList (uri.dropWhile isSchemeChar)

/-- A character that ends an authority. -/
def endsAuthority (c : Char) : Bool := c == '/' || c == '?' || c == '#'

/-- What stands behind the authority that a text begins with. -/
def withoutAuthority (text : List Char) : List Char :=
  text.dropWhile fun c => !endsAuthority c

/-- The path of a target, without query and fragment. A URI that ends with its authority has the
path `/`; a target that is neither a path nor a URI with a scheme has none. -/
def path (target : List Char) : List Char :=
  if target.head? = some '/' then Path.withoutQuery target
  else
    match withoutScheme? target with
    | none => []
    | some rest =>
      match Path.withoutQuery (withoutAuthority rest) with
      | [] => ['/']
      | path => path

end Restconf.Target
