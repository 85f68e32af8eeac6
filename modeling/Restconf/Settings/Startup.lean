import Restconf.Gateway.State
import Restconf.Http.Router
import Restconf.Settings.Basic

/-!
# Starting a gateway

## Main definitions

* `StartFlaw`, `Settings.startFlaw?` — why settings cannot be put into effect.
* `Gateway.start` — the gateway of settings, over a datastore with the given nodes.
-/

namespace Restconf

/-- Why settings cannot be put into effect. -/
inductive StartFlaw where
  | tooManyWorkers (count : Nat)
  | queueTooLong (capacity : Nat)
  /-- Routes cannot be matched below the root path. -/
  | unroutableRoot (root : String)
deriving DecidableEq, Repr

/-- The wording of a flaw. -/
def StartFlaw.message : StartFlaw → String
  | tooManyWorkers count => s!"a pool of {count} workers is too large"
  | queueTooLong capacity => s!"a queue of {capacity} lines is too long"
  | unroutableRoot root => s!"no routes can be mounted at {root}"

/-- The first reason why settings cannot be put into effect. -/
def Settings.startFlaw? (settings : Settings) : Option StartFlaw :=
  if permitLimit < settings.streams.workerPoolSize then
    some (.tooManyWorkers settings.streams.workerPoolSize)
  else if permitLimit < settings.streams.capacity then
    some (.queueTooLong settings.streams.capacity)
  else if !Route.isMountable settings.server.rootPath then
    some (.unroutableRoot settings.server.rootPath)
  else none

/-- The gateway of settings. The announcements of its datastore go to the subscribers. -/
def Gateway.start (settings : Settings) (nodes : List Node) : Except StartFlaw Gateway :=
  match settings.startFlaw? with
  | some flaw => .error flaw
  | none =>
    let gateway : Gateway :=
      { service := settings.server.service
        engine := .datastore { nodes }
        hub := .ofConfig settings.streams }
    .ok gateway.bridge.2

end Restconf
