import Restconf.Hub.Config
import Restconf.Service
import Restconf.Toml.Document

/-!
# Settings of the gateway

## Main definitions

* `Settings` — the settings file: the server and its streams.
* `SettingsFlaw`, `Settings.flaw?` — what is wrong with settings that can be read.
* `Settings.parse` — the settings of a text.
* `Settings.ofFile` — the settings of a file, with the name of the file in what goes wrong.
-/

namespace Restconf

/-- Where the server listens and what it serves. -/
structure ServerSettings where
  port : Nat := 8181
  rootPath : String := ({} : ServiceConfig).rootPath
deriving DecidableEq, Repr

/-- The settings of the gateway. -/
structure Settings where
  server : ServerSettings := {}
  streams : HubConfig := {}
deriving DecidableEq, Repr

namespace ServerSettings

/-- The configuration of the service. -/
def service (server : ServerSettings) : ServiceConfig := { rootPath := server.rootPath }

/-- Ports are numbers of 16 bits. -/
def portBound : Nat := Nat.pow 2 16

/-- Reads the settings of the server. Fields that are not given keep their defaults. -/
def ofToml? (value : Toml) : Option ServerSettings := do
  let record ← value.record? ["port", "root_path"]
  let default : ServerSettings := {}
  return {
    port := ← record.optional? "port" default.port (Toml.natBelow? portBound)
    rootPath := ← record.optional? "root_path" default.rootPath Toml.string? }

end ServerSettings

/-- Reads the settings of the hub. Fields that are not given keep their defaults. -/
def HubConfig.ofToml? (value : Toml) : Option HubConfig := do
  let record ← value.record? ["worker_pool_size", "queue_capacity", "overflow"]
  let default : HubConfig := {}
  return {
    workerPoolSize :=
      ← record.optional? "worker_pool_size" default.workerPoolSize (Toml.natBelow? sizeBound)
    queueCapacity :=
      ← record.optional? "queue_capacity" default.queueCapacity (Toml.natBelow? sizeBound)
    overflow :=
      ← record.optional? "overflow" default.overflow (Toml.choice? OverflowPolicy.names) }

/-! ### Flaws -/

/-- Something wrong with settings that can be read. -/
inductive SettingsFlaw where
  /-- The root path does not begin with a slash. -/
  | relativeRoot (root : String)
  /-- The root path has a character that is not literal in a route. -/
  | routeSyntax (root : String)
  /-- There is no worker. -/
  | noWorkers
  /-- A queue holds nothing. -/
  | noQueue
deriving DecidableEq, Repr

namespace SettingsFlaw

/-- The wording of a flaw. -/
def message : SettingsFlaw → String
  | relativeRoot root => s!"server.root_path must start with '/': {root}"
  | routeSyntax root => s!"server.root_path contains route syntax: {root}"
  | noWorkers => "streams.worker_pool_size must be at least 1"
  | noQueue => "streams.queue_capacity must be at least 1"

end SettingsFlaw

/-- Why a text holds no settings. -/
inductive SettingsFault where
  /-- It does not parse, or it does not have the fields and types of settings. -/
  | malformed
  | flawed (flaw : SettingsFlaw)
deriving DecidableEq, Repr

namespace Settings

/-- Reads settings. Fields that are not given keep their defaults. -/
def ofToml? (value : Toml) : Option Settings := do
  let record ← value.record? ["server", "streams"]
  let default : Settings := {}
  return {
    server := ← record.optional? "server" default.server ServerSettings.ofToml?
    streams := ← record.optional? "streams" default.streams HubConfig.ofToml? }

/-- Characters with a meaning of their own in routes. -/
def isRouteSyntax (c : Char) : Bool := c == '{' || c == '}' || c == '*'

/-- The first flaw of settings. The root path may be empty. -/
def flaw? (settings : Settings) : Option SettingsFlaw :=
  let root := settings.server.rootPath
  if root.toList.head?.any (· ≠ '/') then some (.relativeRoot root)
  else if root.toList.any isRouteSyntax then some (.routeSyntax root)
  else if settings.streams.workerPoolSize = 0 then some .noWorkers
  else if settings.streams.queueCapacity = 0 then some .noQueue
  else none

/-- The settings of a text. -/
def parse (text : String) : Except SettingsFault Settings :=
  match (Toml.parse? text).bind ofToml? with
  | none => .error .malformed
  | some settings =>
    match settings.flaw? with
    | some flaw => .error (.flawed flaw)
    | none => .ok settings

end Settings

/-! ### Files -/

/-- Why a file gives no settings. -/
inductive SettingsFileFault where
  | unreadable (file : String)
  | invalid (file : String) (cause : SettingsFault)
deriving DecidableEq, Repr

/-- The wording of a fault, its cause apart. -/
def SettingsFileFault.message : SettingsFileFault → String
  | unreadable file => s!"Failed to read config file {file}"
  | invalid file _ => s!"Invalid config file {file}"

/-- The settings of a file with the given content; without content it cannot be read. -/
def Settings.ofFile (file : String) (content : Option String) :
    Except SettingsFileFault Settings :=
  match content with
  | none => .error (.unreadable file)
  | some text => (Settings.parse text).mapError (.invalid file)

end Restconf
