import Restconf.Http.Handler
import Restconf.Proofs.Resource.Decoding
import Restconf.Proofs.Resource.Grammar
import Restconf.Proofs.Resource.Mount
import Restconf.Proofs.Service.Run
import Restconf.Settings.Basic

/-!
# Routes and identifiers

Which requests are for data resources is decided twice: the router looks at the path of a request
before anything else does, and the service looks for the root path and the data marker once more
when it reads an identifier. Below a root path that settings may have, the two never disagree.

## Why a root path is literal

The router takes the root path for a pattern, the service takes it for text. Settings allow no
character that has a meaning in a pattern, apart from a colon at the head of a piece, and there the
router has no routes at all. So where there are routes, the pattern is the text. This is used only
through `Mount.ofRoot?_eq`.

## Main definitions

* `Settings.IsLiteralRoot` — the root paths that settings may have

## Main results

* `Settings.flaw?_eq_none_iff` — settings without a flaw
* `Mount.ofRoot?_eq` — the mount point of a literal root path
* `Route.ofPath?_eq_data_iff` — the paths of data resources, as the router sees them
* `Identifier.isBelow_iff` — and as the service sees them
* `Gateway.routesAlike` — the headline
-/

namespace Restconf

/-! ### Root paths -/

namespace Settings

/-- A root path that settings may have: empty or behind a slash, without characters that mean
something in a pattern. -/
structure IsLiteralRoot (root : String) : Prop where
  slash : root.toList = [] ∨ root.toList.head? = some '/'
  noOpening : '{' ∉ root.toList
  noClosing : '}' ∉ root.toList
  noStar : '*' ∉ root.toList

/-- **Settings without a flaw** have a literal root path, a worker, and room in their queues. -/
theorem flaw?_eq_none_iff {settings : Settings} :
    settings.flaw? = none ↔ IsLiteralRoot settings.server.rootPath
      ∧ settings.streams.workerPoolSize ≠ 0 ∧ settings.streams.queueCapacity ≠ 0 := by
  have hslash (text : List Char) :
      (text.head?.any fun c => c ≠ '/') = true ↔ ¬ (text = [] ∨ text.head? = some '/') := by
    cases text <;> simp
  have hsyntax (text : List Char) :
      text.any isRouteSyntax = true ↔ ¬ ('{' ∉ text ∧ '}' ∉ text ∧ '*' ∉ text) := by
    simp only [isRouteSyntax, List.any_eq_true, Bool.or_eq_true, beq_iff_eq, not_and_or, not_not]
    constructor
    · rintro ⟨c, hc, (rfl | rfl) | rfl⟩
      · exact Or.inl hc
      · exact Or.inr (Or.inl hc)
      · exact Or.inr (Or.inr hc)
    · rintro (hc | hc | hc)
      · exact ⟨_, hc, Or.inl (Or.inl rfl)⟩
      · exact ⟨_, hc, Or.inl (Or.inr rfl)⟩
      · exact ⟨_, hc, Or.inr rfl⟩
  simp only [flaw?, hslash, hsyntax, ite_not]
  split_ifs with hroot htext hworkers hqueue
  · exact iff_of_false not_false fun h => h.2.1 hworkers
  · exact iff_of_false not_false fun h => h.2.2 hqueue
  · exact iff_of_true rfl ⟨⟨hroot, htext.1, htext.2.1, htext.2.2⟩, hworkers, hqueue⟩
  · exact iff_of_false not_false
      fun h => htext ⟨h.1.noOpening, h.1.noClosing, h.1.noStar⟩
  · exact iff_of_false not_false fun h => hroot h.1.slash

end Settings

namespace Mount

/-- A piece of a path begins with a colon. -/
def HasColon (path : List Char) : Prop := ∃ piece ∈ path.splitOn '/', piece.head? = some ':'

instance (path : List Char) : Decidable (HasColon path) := by unfold HasColon; infer_instance

/-- Literal text can stand in a route, unless a colon stands at its head. -/
theorem isRoutable_iff {piece : List Char} (h : '*' ∉ piece) :
    isRoutable piece = true ↔ piece.head? ≠ some ':' := by
  cases piece with
  | nil => simp [isRoutable]
  | cons c piece =>
    have hstar : c ≠ '*' := fun hc => h (hc ▸ List.mem_cons_self)
    simp [isRoutable, hstar]

/-- **The mount point of a literal root path** is the path itself without the slashes at its end.
There is none if a piece of it begins with a colon. -/
theorem ofRoot?_eq {root : String} (h : Settings.IsLiteralRoot root) :
    ofRoot? root = if HasColon (Path.trimSlashes root.toList) then none
      else some ((Path.trimSlashes root.toList).map .literal) := by
  obtain ⟨⟨n, hroot⟩, -⟩ :=
    Path.trimSlashes_eq_iff.mp (rfl : Path.trimSlashes root.toList = Path.trimSlashes root.toList)
  rw [ofRoot?]
  generalize Path.trimSlashes root.toList = path at hroot ⊢
  have hmem {c : Char} (hc : c ∈ path) : c ∈ root.toList :=
    hroot ▸ List.mem_append_left _ hc
  have hslash : (path.head?.all fun c => c == '/') = true := by
    cases path with
    | nil => rfl
    | cons c path =>
      rcases h.slash with hnil | hhead
      · rw [hnil] at hmem
        exact absurd (hmem List.mem_cons_self) List.not_mem_nil
      · rw [hroot] at hhead
        obtain rfl := Option.some.inj hhead
        rfl
  have hpieces : ((path.splitOn '/').all isRoutable) = true ↔ ¬ HasColon path := by
    simp only [List.all_eq_true, HasColon, not_exists, not_and]
    refine forall₂_congr fun piece hpiece => isRoutable_iff fun hstar => ?_
    exact h.noStar (hmem (ne_and_mem_of_mem_splitOn hpiece hstar).2)
  have hmarks : PatternMark.ofList path = path.map .text := PatternMark.ofList_eq_map fun c hc =>
    ⟨fun heq => h.noOpening (hmem (heq ▸ hc)), fun heq => h.noClosing (hmem (heq ▸ hc))⟩
  simp only [hslash, hmarks, ofMarks?_text, Bool.true_and, hpieces, ite_not]

end Mount

/-! ### Routes -/

namespace Route

open Identifier

/-- A path has the form of a pattern if it is the text of the pattern and the rest that the pattern
takes. -/
theorem Pattern.isMatch_iff {pattern : Pattern} {path : List Char} : pattern.isMatch path = true
    ↔ ∃ left, path = pattern.text.toList ++ left ∧ (left = [] ↔ pattern.takesRest = false) := by
  have takes (left : List Char) : (left.isEmpty != pattern.takesRest) = true
      ↔ (left = [] ↔ pattern.takesRest = false) := by
    cases left <;> cases pattern.takesRest <;> simp
  rw [isMatch]
  cases hstrip : Path.strip? pattern.text.toList path with
  | none =>
    refine iff_of_false Bool.false_ne_true ?_
    rintro ⟨left, rfl, -⟩
    have hprefix : Path.strip? pattern.text.toList (pattern.text.toList ++ left) = some left :=
      List.isPrefixOf?_eq_some_iff_append_eq.mpr rfl
    rw [hstrip] at hprefix
    cases hprefix
  | some left =>
    obtain rfl : pattern.text.toList ++ left = path :=
      List.isPrefixOf?_eq_some_iff_append_eq.mp hstrip
    simp only [takes, List.append_cancel_left_eq, exists_eq_left']

/-- **The three patterns for data resources are one test**: behind the data marker stands nothing,
or a slash. -/
theorem isData_iff {path : List Char} :
    isData path = true ↔ ∃ rest, afterMarker? path = some rest := by
  have marker : "/data/".toList = dataMarker.toList ++ ['/'] := rfl
  simp only [isData, dataPatterns, List.any_eq_true, List.exists_mem_cons_iff, List.not_mem_nil,
    false_and, exists_false, or_false, Pattern.isMatch_iff, afterMarker?_eq_some_iff, iff_true,
    Bool.true_eq_false, iff_false, exists_eq_right, List.append_nil, marker, List.append_assoc,
    List.singleton_append]
  constructor
  · rintro (rfl | rfl | ⟨left, rfl, -⟩)
    · exact ⟨[], (List.append_nil _).symm, Or.inl rfl⟩
    · exact ⟨['/'], rfl, Or.inr rfl⟩
    · exact ⟨'/' :: left, rfl, Or.inr rfl⟩
  · rintro ⟨rest, rfl, rfl | slash⟩
    · exact Or.inl (List.append_nil _)
    · obtain ⟨left, rfl⟩ := List.head?_eq_some_iff.mp slash
      cases left with
      | nil => exact Or.inr (Or.inl rfl)
      | cons c left => exact Or.inr (Or.inr ⟨c :: left, rfl, List.cons_ne_nil c left⟩)

/-- The path of the health check is below no root path. -/
theorem not_isBelow_health (mount rest : List Char) : ¬ IsBelow mount healthPath.toList rest := by
  rintro ⟨hpath, -⟩
  have hd : 'd' ∈ healthPath.toList := by
    rw [hpath]
    exact List.mem_append_right _ (List.mem_append_left _ (by decide))
  exact absurd hd (by decide)

/-- **The paths of data resources, as the router sees them.** -/
theorem ofPath?_eq_data_iff {root : String} {mount path : List Char}
    (hmount : Mount.ofRoot? root = some (mount.map .literal)) :
    ofPath? root path = some .data ↔ ∃ rest, IsBelow mount path rest := by
  by_cases hhealth : path = healthPath.toList
  · subst hhealth
    refine iff_of_false ?_ (not_exists.mpr fun rest => not_isBelow_health mount rest)
    rw [ofPath?, if_pos rfl]
    exact fun h => by cases h
  rw [ofPath?, if_neg hhealth, hmount]
  simp only [Option.bind_eq_bind, Option.bind_some, Mount.strip?_literal]
  cases hstrip : Path.strip? mount path with
  | none =>
    refine iff_of_false (fun h => by cases h) ?_
    rintro ⟨rest, hpath, -⟩
    have hprefix : Path.strip? mount path = some (dataMarker.toList ++ rest) :=
      List.isPrefixOf?_eq_some_iff_append_eq.mpr hpath.symm
    rw [hstrip] at hprefix
    cases hprefix
  | some below =>
    obtain rfl : mount ++ below = path := List.isPrefixOf?_eq_some_iff_append_eq.mp hstrip
    have hdata : isData below = true ↔ ∃ rest, IsBelow mount (mount ++ below) rest := by
      simp only [isData_iff, afterMarker?_eq_some_iff, IsBelow, List.append_cancel_left_eq]
    rw [← hdata, Option.map_some, Option.bind_some]
    cases hmarker : isData below with
    | true => exact iff_of_true (if_pos rfl) rfl
    | false =>
      refine iff_of_false (fun h => ?_) Bool.false_ne_true
      rw [if_neg Bool.false_ne_true] at h
      cases hid : streamId? below <;> rw [hid] at h <;> cases h

end Route

/-! ### Identifiers -/

namespace Identifier

/-- A data path has no fault but those of its segments. -/
theorem ofDataPath_ne {path detail : String} :
    ofDataPath path ≠ .error (.notADataResource detail) := by
  intro h
  rcases bind_eq_error_iff.mp h with h | ⟨segments, -, h⟩
  · obtain ⟨_, _, _, _, _, _, hfault⟩ := Path.segments_eq_error_iff.mp h
    cases hfault
  · rcases bind_eq_error_iff.mp h with h | ⟨elements, -, h⟩
    · obtain ⟨_, _, _, _, _, _, _, hfault⟩ := elementsOf_eq_error_iff.mp h
      cases hfault
    · cases h

/-- **The paths of data resources, as the service sees them**: only elsewhere does it miss the root
path or the data marker. -/
theorem isBelow_iff {root uri : String} :
    (∃ rest, IsBelow (Path.trimSlashes root.toList) (Path.withoutQuery uri.toList) rest)
      ↔ ∀ detail, ofUri root uri ≠ .error (.notADataResource detail) := by
  constructor
  · rintro ⟨rest, hbelow⟩ detail h
    rw [ofUri_of_isBelow hbelow] at h
    rcases bind_eq_error_iff.mp h with h | ⟨found, -, h⟩
    · exact ofDataPath_ne h
    · cases h
  · intro h
    by_contra hnone
    obtain ⟨detail, hfault⟩ := ofUri_of_not_isBelow (not_exists.mp hnone)
    exact h detail hfault

end Identifier

namespace Service

/-- Below the root path only escapes and segments can be at fault, and the datastore itself is no
node. -/
theorem fault_of_isBelow {config : ServiceConfig} {uri : String} {fault : Fault}
    (hbelow : ∀ detail, Identifier.ofUri config.rootPath uri ≠ .error (.notADataResource detail))
    (h : identifier config uri = .error fault) :
    (∃ segment reason, fault = .decode segment reason)
      ∨ (∃ segment reason, fault = .malformedSegment segment reason)
      ∨ fault = namesNoNode uri := by
  rcases bind_eq_error_iff.mp h with h | ⟨found, -, h⟩
  · cases Identifier.isPathFault_of_ofUri h with
    | decode segment reason => exact Or.inl ⟨segment, reason, rfl⟩
    | malformedSegment segment reason => exact Or.inr (Or.inl ⟨segment, reason, rfl⟩)
    | notADataResource detail => exact absurd h (hbelow detail)
  · split at h
    · cases h
    · exact Or.inr (Or.inr (Except.error.inj h).symm)

end Service

/-! ### Requests -/

namespace Gateway

/-- An answer with content is not the one to a path without a route. -/
theorem ne_notFound_of_contentType {answer : HttpAnswer} (h : answer.contentType.isSome = true) :
    answer ≠ .notFound := by
  rintro rfl
  cases h

theorem isSome_contentType_readData (g : Gateway) (path : String) :
    (g.readData path).1.contentType.isSome = true := by
  rw [readData]
  split <;> rfl

/-- What is answered for a data resource is never the answer to a path without a route, not even
where the status is the same. -/
theorem handleData_ne_notFound (g : Gateway) (method path body : String) :
    (g.handleData method path body).1 ≠ .notFound := by
  have hstatus {status : Nat} (h : status ≠ 404) : HttpAnswer.empty status ≠ .notFound :=
    fun heq => h (congrArg HttpAnswer.status heq)
  have hedit (intent : Intent) {success : HttpAnswer} (hsuccess : success ≠ .notFound) :
      (g.editData intent path body success).1 ≠ .notFound := by
    rw [editData]
    split
    · exact ne_notFound_of_contentType rfl
    · split
      · exact ne_notFound_of_contentType rfl
      · split
        · exact hsuccess
        · exact ne_notFound_of_contentType rfl
  have hcreated : HttpAnswer.created path ≠ .notFound := by
    rw [HttpAnswer.created]
    split
    · exact ne_notFound_of_contentType rfl
    · exact fun heq => by cases congrArg HttpAnswer.status heq
  unfold handleData
  split
  · exact ne_notFound_of_contentType (isSome_contentType_readData g path)
  · exact hedit .create hcreated
  · exact hedit .replace (hstatus (by decide))
  · rw [deleteData]
    split
    · exact hstatus (by decide)
    · exact ne_notFound_of_contentType rfl
  · exact hstatus (by decide)

/-- Requests for the path of a data resource go to it, whatever their method. -/
theorem handlePath_of_data {g : Gateway} {path : List Char}
    (h : Route.ofPath? g.service.rootPath path = some .data) (method body : String) :
    g.handlePath method path body = g.handleData method (.ofList path) body := by
  unfold handlePath
  rw [h]

/-- A request for a data resource is never answered as if there were no route. -/
theorem handle_ne_notFound {g : Gateway} {request : HttpRequest}
    (h : Route.ofPath? g.service.rootPath (Target.path request.uri.toList) = some .data) :
    (g.handle request).1 ≠ .notFound := by
  rw [handle]
  split
  · exact fun heq => by cases congrArg HttpAnswer.status heq
  · have hcontent := isSome_contentType_readData g (.ofList (Target.path request.uri.toList))
    have hget := handlePath_of_data h "GET" request.body
    rw [handleData] at hget
    rw [hget]
    generalize g.readData (.ofList (Target.path request.uri.toList)) = read at hcontent
    exact ne_notFound_of_contentType hcontent
  · rw [handlePath_of_data h]
    exact handleData_ne_notFound g _ _ _

/-- **Router and service agree on the data resources.** Below a root path that settings may have and
that routes can be mounted at, the router takes a path for that of a data resource exactly if it is
the root path, the data marker, and a rest that is empty or begins with a slash, which is exactly
where the service misses neither the root path nor the marker. So a request that is sent to the data
resources is never refused for lying elsewhere, and one that the service has an identifier for is
sent there and never answered as if there were no route. -/
theorem routesAlike {settings : Settings} (hflaw : settings.flaw? = none)
    (hmountable : Route.isMountable settings.server.rootPath = true) (path : List Char)
    (hquery : '?' ∉ path) (hfragment : '#' ∉ path) :
    (Route.ofPath? settings.server.rootPath path = some .data
        ↔ ∃ rest, Identifier.IsBelow (Path.trimSlashes settings.server.rootPath.toList) path rest)
      ∧ (Route.ofPath? settings.server.rootPath path = some .data
        ↔ ∀ detail, Identifier.ofUri settings.server.rootPath (.ofList path)
          ≠ .error (.notADataResource detail))
      ∧ ∀ g : Gateway, g.service = settings.server.service →
          (Route.ofPath? settings.server.rootPath path = some .data →
            (∀ method body,
                g.handlePath method path body = g.handleData method (.ofList path) body)
              ∧ ∀ fault, Service.identifier g.service (.ofList path) = .error fault →
                (∃ segment reason, fault = .decode segment reason)
                  ∨ (∃ segment reason, fault = .malformedSegment segment reason)
                  ∨ fault = Service.namesNoNode (.ofList path))
            ∧ ∀ identifier, Service.identifier g.service (.ofList path) = .ok identifier →
                Route.ofPath? settings.server.rootPath path = some .data
                  ∧ ∀ request : HttpRequest, Target.path request.uri.toList = path →
                    (g.handle request).1 ≠ .notFound := by
  obtain ⟨hroot, -, -⟩ := Settings.flaw?_eq_none_iff.mp hflaw
  have hmount : Mount.ofRoot? settings.server.rootPath
      = some ((Path.trimSlashes settings.server.rootPath.toList).map .literal) := by
    rw [Route.isMountable, Mount.ofRoot?_eq hroot] at hmountable
    rw [Mount.ofRoot?_eq hroot]
    split at hmountable
    · cases hmountable
    · next hcolon => exact if_neg hcolon
  have hrouter := @Route.ofPath?_eq_data_iff _ _ path hmount
  have hservice := @Identifier.isBelow_iff settings.server.rootPath (.ofList path)
  rw [String.toList_ofList, Path.withoutQuery_eq_self hquery hfragment] at hservice
  have hagree := hrouter.trans hservice
  refine ⟨hrouter, hagree, fun g hg => ⟨fun hdata => ⟨?_, fun fault hfault => ?_⟩,
    fun identifier hidentifier => ?_⟩⟩
  · exact handlePath_of_data (by rwa [hg])
  · exact Service.fault_of_isBelow (by rw [hg]; exact hagree.mp hdata) hfault
  · have hdata := hagree.mpr fun detail hfault => by
      obtain ⟨hfound, -⟩ := Service.identifier_eq_ok_iff.mp hidentifier
      rw [hg] at hfound
      cases hfound.symm.trans hfault
    refine ⟨hdata, ?_⟩
    rintro request rfl
    exact handle_ne_notFound (by rwa [hg])

/-- A root path with slashes at its end; two slashes behind the marker, a word that only begins like
it, and a request with a query. -/
theorem routesAlike_slashes :
    let settings : Settings := { server := { rootPath := "/rc//" } }
    settings.flaw? = none ∧ Route.isMountable settings.server.rootPath = true
      ∧ Route.ofPath? "/rc//" "/rc/data//".toList = some .data
      ∧ Route.ofPath? "/rc//" "/rc/datastore".toList ≠ some .data
      ∧ ∀ g : Gateway, g.service = settings.server.service →
          (g.handle ⟨"HEAD", "/rc/data/m:a?depth=2", ""⟩).1 ≠ .notFound := by
  intro settings
  have hflaw : settings.flaw? = none := by decide
  have hmountable : Route.isMountable settings.server.rootPath = true := by decide
  have hmount : Path.trimSlashes settings.server.rootPath.toList = "/rc".toList := by decide
  refine ⟨hflaw, hmountable, ?_, ?_, fun g hg => ?_⟩
  · refine (routesAlike hflaw hmountable "/rc/data//".toList (by decide) (by decide)).1.mpr ?_
    rw [hmount]
    exact ⟨"//".toList, rfl, Or.inr rfl⟩
  · intro h
    have hbelow := (routesAlike hflaw hmountable "/rc/datastore".toList (by decide)
      (by decide)).1.mp h
    rw [hmount] at hbelow
    obtain ⟨rest, hrest, hslash⟩ := hbelow
    have hjoined : "/rc/data".toList ++ "store".toList = "/rc/data".toList ++ rest := hrest
    obtain rfl := List.append_cancel_left hjoined
    exact absurd hslash (by decide)
  · have hread : Service.identifier g.service (.ofList "/rc/data/m:a".toList)
        = .ok ⟨"/rc", [⟨"a", some "m", .single, []⟩]⟩ := by
      rw [hg]
      decide
    obtain ⟨-, hrequests⟩ := ((routesAlike hflaw hmountable "/rc/data/m:a".toList (by decide)
      (by decide)).2.2 g hg).2 _ hread
    have hpath : Target.path "/rc/data/m:a?depth=2".toList = "/rc/data/m:a".toList := by decide
    exact hrequests ⟨"HEAD", "/rc/data/m:a?depth=2", ""⟩ hpath

end Gateway

end Restconf
