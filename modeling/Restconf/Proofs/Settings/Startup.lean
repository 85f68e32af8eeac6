import Restconf.Proofs.Gateway.Listener
import Restconf.Proofs.Http.Routing
import Restconf.Proofs.Toml.Integer
import Restconf.Settings.Startup

/-!
# Settings that can be put into effect

Settings are checked twice: for flaws when they are read, and for what the parts of a gateway can
bear when it is started. The first check is meant to make the second one superfluous, and it does so
only in part.

## The gap between the two checks

Reading settings bounds the two sizes from below, and their text bounds them from above, since its
integers have 64 bits. A counter of permits holds fewer, so sizes from `2 ^ 61` on pass the first
check and not the second. Likewise a root path is checked for braces and stars, but not for a colon
at the head of a piece, with which no route can be mounted. Nothing else lies in the gap.

## Main definitions

* `Settings.Exceeds` — how settings without a flaw can fail to be put into effect
* `Settings.IsBearable` — settings that can be put into effect, if they have no flaw
* `Settings.IsInEffect` — a gateway that was started with settings

## Main results

* `Settings.sizes_lt_of_parse` — how large sizes can be
* `Settings.startFlaw?_eq_some_iff`, `Settings.startFlaw?_eq_none_iff` — the gap
* `Settings.starts` — the headline
* `Settings.not_starts` — all three ways of passing the first check and not the second
-/

namespace Restconf

/-! ### Sizes in a text -/

namespace Toml

variable {value : Toml} {names : List String} {record : Record Toml}

theorem areBounded_record? (hvalue : value.IsBounded) (h : value.record? names = some record) :
    Fields.AreBounded record.fields := by
  have hzip {items : List Toml} (hitems : ∀ item ∈ items, item.IsBounded) :
      Fields.AreBounded (names.zip items) :=
    fun field hmem => hitems field.2 (List.of_mem_zip hmem).2
  cases hvalue with
  | table hfields =>
    rw [record?] at h
    split at h
    · cases h
      exact hfields
    · cases h
  | array hitems =>
    cases h
    exact hzip hitems
  | tables hentries =>
    cases h
    refine hzip fun item hmem => ?_
    obtain ⟨entry, hentry, rfl⟩ := List.mem_map.mp hmem
    exact .table (hentries entry hentry)
  | string | integer | boolean | float | dateTime => cases h

/-- What a reader of a field finds is bounded if the fields are. -/
theorem isBounded_of_optional? {name : String}
    (hfields : Fields.AreBounded record.fields) {α : Type} {default found : α}
    {decode : Toml → Option α} (h : record.optional? name default decode = some found) :
    found = default ∨ ∃ value, value.IsBounded ∧ decode value = some found := by
  rw [Record.optional?] at h
  split at h
  · exact Or.inl (Option.some.inj h).symm
  · next value hlookup => exact Or.inr ⟨value, hfields.lookup hlookup, h⟩

theorem lt_of_natBelow? {bound size : Nat} (hvalue : value.IsBounded)
    (h : value.natBelow? bound = some size) : size < Nat.pow 2 63 := by
  cases hvalue with
  | integer lower upper =>
    rw [natBelow?] at h
    split at h
    · next hrange =>
      cases h
      exact (Int.toNat_lt hrange.1).mpr upper
    · cases h
  | string | boolean | float | dateTime | array | table | tables => cases h

end Toml

namespace HubConfig

theorem default_sizes_lt : ({} : HubConfig).workerPoolSize < Nat.pow 2 63
    ∧ ({} : HubConfig).queueCapacity < Nat.pow 2 63 := by decide

/-- Sizes that are read are those of the text, which are bounded, or the small default ones. -/
theorem sizes_lt_of_ofToml? {value : Toml} {config : HubConfig} (hvalue : value.IsBounded)
    (h : ofToml? value = some config) :
    config.workerPoolSize < Nat.pow 2 63 ∧ config.queueCapacity < Nat.pow 2 63 := by
  obtain ⟨record, hrecord, h⟩ := Option.bind_eq_some_iff.mp h
  obtain ⟨workers, hworkers, h⟩ := Option.bind_eq_some_iff.mp h
  obtain ⟨queue, hqueue, h⟩ := Option.bind_eq_some_iff.mp h
  obtain ⟨overflow, -, h⟩ := Option.bind_eq_some_iff.mp h
  cases h
  have hfields := Toml.areBounded_record? hvalue hrecord
  constructor
  · rcases Toml.isBounded_of_optional? hfields hworkers with rfl | ⟨value, hvalue, hfound⟩
    · exact default_sizes_lt.1
    · exact Toml.lt_of_natBelow? hvalue hfound
  · rcases Toml.isBounded_of_optional? hfields hqueue with rfl | ⟨value, hvalue, hfound⟩
    · exact default_sizes_lt.2
    · exact Toml.lt_of_natBelow? hvalue hfound

end HubConfig

namespace Settings

open Mount Gateway

variable {text : String} {settings : Settings} {nodes : List Node} {flaw : StartFlaw}

theorem parse_eq_ok_iff :
    parse text = .ok settings
      ↔ (Toml.parse? text).bind ofToml? = some settings ∧ settings.flaw? = none := by
  rw [parse]
  constructor
  · intro h
    split at h
    · cases h
    · next read hread =>
      split at h
      · cases h
      · next hflaw =>
        cases h
        exact ⟨hread, hflaw⟩
  · rintro ⟨hread, hflaw⟩
    simp only [hread, hflaw]

/-- **How large sizes can be.** -/
theorem sizes_lt_of_parse (h : parse text = .ok settings) :
    settings.streams.workerPoolSize < Nat.pow 2 63
      ∧ settings.streams.queueCapacity < Nat.pow 2 63 := by
  obtain ⟨hread, -⟩ := parse_eq_ok_iff.mp h
  obtain ⟨value, hvalue, hread⟩ := Option.bind_eq_some_iff.mp hread
  obtain ⟨record, hrecord, hread⟩ := Option.bind_eq_some_iff.mp hread
  obtain ⟨server, -, hread⟩ := Option.bind_eq_some_iff.mp hread
  obtain ⟨streams, hstreams, hread⟩ := Option.bind_eq_some_iff.mp hread
  cases hread
  have hfields := Toml.areBounded_record? (Toml.isBounded_of_parse? hvalue) hrecord
  rcases Toml.isBounded_of_optional? hfields hstreams with rfl | ⟨inner, hinner, hfound⟩
  · exact HubConfig.default_sizes_lt
  · exact HubConfig.sizes_lt_of_ofToml? hinner hfound

/-! ### The gap -/

/-- How settings without a flaw can fail to be put into effect. Of several ways the first one
shows. -/
inductive Exceeds (settings : Settings) : StartFlaw → Prop where
  | workers (h : permitLimit < settings.streams.workerPoolSize) :
    Exceeds settings (.tooManyWorkers settings.streams.workerPoolSize)
  | queue (workers : settings.streams.workerPoolSize ≤ permitLimit)
      (h : permitLimit < settings.streams.queueCapacity) :
    Exceeds settings (.queueTooLong settings.streams.queueCapacity)
  | root (workers : settings.streams.workerPoolSize ≤ permitLimit)
      (queue : settings.streams.queueCapacity ≤ permitLimit)
      (h : HasColon (Path.trimSlashes settings.server.rootPath.toList)) :
    Exceeds settings (.unroutableRoot settings.server.rootPath)

/-- Settings without a flaw that can be put into effect. -/
structure IsBearable (settings : Settings) : Prop where
  workers : settings.streams.workerPoolSize ≤ permitLimit
  queue : settings.streams.queueCapacity ≤ permitLimit
  root : ¬ HasColon (Path.trimSlashes settings.server.rootPath.toList)

/-- The second check, without flaws that the first one excludes. -/
theorem startFlaw?_eq (h : settings.flaw? = none) :
    settings.startFlaw? =
      if permitLimit < settings.streams.workerPoolSize then
        some (.tooManyWorkers settings.streams.workerPoolSize)
      else if permitLimit < settings.streams.queueCapacity then
        some (.queueTooLong settings.streams.queueCapacity)
      else if HasColon (Path.trimSlashes settings.server.rootPath.toList) then
        some (.unroutableRoot settings.server.rootPath)
      else none := by
  obtain ⟨hroot, -, hqueue⟩ := flaw?_eq_none_iff.mp h
  have hcapacity : settings.streams.capacity = settings.streams.queueCapacity :=
    Nat.max_eq_right (Nat.one_le_iff_ne_zero.mpr hqueue)
  have hmount : (!Route.isMountable settings.server.rootPath) = true
      ↔ HasColon (Path.trimSlashes settings.server.rootPath.toList) := by
    rw [Route.isMountable, ofRoot?_eq hroot]
    split_ifs with hcolon
    · exact iff_of_true rfl hcolon
    · exact iff_of_false Bool.false_ne_true hcolon
  simp only [startFlaw?, hcapacity, hmount]

theorem startFlaw?_eq_some_iff (h : settings.flaw? = none) :
    settings.startFlaw? = some flaw ↔ settings.Exceeds flaw := by
  rw [startFlaw?_eq h]
  constructor
  · intro hflaw
    split_ifs at hflaw with hworkers hqueue hroot
    · cases hflaw
      exact .workers hworkers
    · cases hflaw
      exact .queue (Nat.le_of_not_lt hworkers) hqueue
    · cases hflaw
      exact .root (Nat.le_of_not_lt hworkers) (Nat.le_of_not_lt hqueue) hroot
  · rintro (h | ⟨hworkers, h⟩ | ⟨hworkers, hqueue, h⟩)
    · rw [if_pos h]
    · rw [if_neg hworkers.not_gt, if_pos h]
    · rw [if_neg hworkers.not_gt, if_neg hqueue.not_gt, if_pos h]

theorem startFlaw?_eq_none_iff (h : settings.flaw? = none) :
    settings.startFlaw? = none ↔ settings.IsBearable := by
  rw [startFlaw?_eq h]
  split_ifs with hworkers hqueue hroot
  · exact iff_of_false nofun fun hb => hb.workers.not_gt hworkers
  · exact iff_of_false nofun fun hb => hb.queue.not_gt hqueue
  · exact iff_of_false nofun fun hb => hb.root hroot
  · exact iff_of_true rfl ⟨Nat.le_of_not_lt hworkers, Nat.le_of_not_lt hqueue, hroot⟩

/-! ### Starting -/

/-- A gateway that was started with settings: it has its workers, all of them idle, every queue that
it ever makes has the capacity of the settings, and its routes are mounted. -/
structure IsInEffect (settings : Settings) (g : Gateway) : Prop where
  workers : g.hub.idleWorkers = settings.streams.workerPoolSize
  queues : ∀ {events : List HubEvent} {later : Gateway}, Run g events later →
    later.hub.config.capacity = settings.streams.queueCapacity
  root : g.service.rootPath = settings.server.rootPath
  routes : ofRoot? g.service.rootPath
    = some ((Path.trimSlashes settings.server.rootPath.toList).map .literal)

/-- The gateway of settings before it listens to its engine. -/
def gateway (settings : Settings) (nodes : List Node) : Gateway :=
  { service := settings.server.service
    engine := .datastore { nodes }
    hub := .ofConfig settings.streams }

theorem isFresh_gateway : (settings.gateway nodes).IsFresh settings.streams :=
  ⟨rfl, rfl, fun channel h => by obtain rfl := Option.some.inj h; rfl⟩

theorem start_eq (h : settings.startFlaw? = none) :
    Gateway.start settings nodes = .ok (settings.gateway nodes).bridge.2 := by
  rw [Gateway.start, h]
  rfl

theorem isInEffect_bridge (h : settings.flaw? = none) (hbearable : settings.IsBearable) :
    settings.IsInEffect (settings.gateway nodes).bridge.2 where
  workers := rfl
  queues {events later} hrun := by
    obtain ⟨-, -, hqueue⟩ := flaw?_eq_none_iff.mp h
    have hstep : Step (settings.gateway nodes) none (settings.gateway nodes).bridge.2 := .bridge _
    rw [(hrun.hub (hstep.isSound isFresh_gateway.isSound)).config_eq]
    exact Nat.max_eq_right (Nat.one_le_iff_ne_zero.mpr hqueue)
  root := rfl
  routes := by
    have hroutes := ofRoot?_eq (flaw?_eq_none_iff.mp h).1
    rwa [if_neg hbearable.root] at hroutes

/-- **Which settings can be put into effect.** Settings that a text is read as have a literal root
path and sizes from one up to the largest integer of 64 bits. They can be put into effect, with all
that belongs to it, if no size is more than a counter of permits holds and no piece of the root path
begins with a colon; and otherwise for exactly these reasons not. -/
theorem starts (h : parse text = .ok settings) (nodes : List Node) :
    IsLiteralRoot settings.server.rootPath
      ∧ (0 < settings.streams.workerPoolSize ∧ settings.streams.workerPoolSize < Nat.pow 2 63)
      ∧ (0 < settings.streams.queueCapacity ∧ settings.streams.queueCapacity < Nat.pow 2 63)
      ∧ (settings.IsBearable →
        ∃ g, Gateway.start settings nodes = .ok g ∧ settings.IsInEffect g)
      ∧ (¬ settings.IsBearable →
        ∃ flaw, Gateway.start settings nodes = .error flaw ∧ settings.Exceeds flaw) := by
  obtain ⟨-, hflaw⟩ := parse_eq_ok_iff.mp h
  obtain ⟨hroot, hworkers, hqueue⟩ := flaw?_eq_none_iff.mp hflaw
  obtain ⟨hworkersBound, hqueueBound⟩ := sizes_lt_of_parse h
  refine ⟨hroot, ⟨Nat.pos_of_ne_zero hworkers, hworkersBound⟩,
    ⟨Nat.pos_of_ne_zero hqueue, hqueueBound⟩, fun hbearable => ?_, fun hbearable => ?_⟩
  · exact ⟨_, start_eq ((startFlaw?_eq_none_iff hflaw).mpr hbearable),
      isInEffect_bridge hflaw hbearable⟩
  · obtain ⟨flaw, hfound⟩ :=
      Option.ne_none_iff_exists'.mp (mt (startFlaw?_eq_none_iff hflaw).mp hbearable)
    refine ⟨flaw, ?_, (startFlaw?_eq_some_iff hflaw).mp hfound⟩
    rw [Gateway.start, hfound]

/-- A text with a pool of one worker more than a counter holds. -/
theorem starts_largePool :
    ∃ settings, parse "[streams]\nworker_pool_size = 2305843009213693952\n" = .ok settings
      ∧ ∃ flaw, Gateway.start settings [] = .error flaw ∧ settings.Exceeds flaw := by
  have hread : parse "[streams]\nworker_pool_size = 2305843009213693952\n"
      = .ok { streams := { workerPoolSize := 2305843009213693952 } } := by decide +kernel
  refine ⟨_, hread, (starts hread []).2.2.2.2 fun hbearable => ?_⟩
  exact absurd hbearable.workers (by decide)

/-- **Settings that are read without a flaw and cannot be put into effect**: too large a pool, too
long a queue, and a root path with a colon at the head of a piece. -/
theorem not_starts :
    (∃ settings, parse "[streams]\nworker_pool_size = 2305843009213693952\n" = .ok settings
      ∧ Gateway.start settings [] = .error (.tooManyWorkers 2305843009213693952))
    ∧ (∃ settings, parse "[streams]\nqueue_capacity = 9223372036854775807\n" = .ok settings
      ∧ Gateway.start settings [] = .error (.queueTooLong 9223372036854775807))
    ∧ (∃ settings, parse "[server]\nroot_path = \"/a/:b\"\n" = .ok settings
      ∧ Gateway.start settings [] = .error (.unroutableRoot "/a/:b")) :=
  ⟨⟨{ streams := { workerPoolSize := 2305843009213693952 } }, by decide +kernel, rfl⟩,
    ⟨{ streams := { queueCapacity := 9223372036854775807 } }, by decide +kernel, rfl⟩,
    ⟨{ server := { rootPath := "/a/:b" } }, by decide +kernel, rfl⟩⟩

end Settings

end Restconf
