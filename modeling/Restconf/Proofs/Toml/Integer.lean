import Mathlib.Data.List.Basic
import Restconf.Toml.Document

/-!
# Integers in TOML documents

Every integer of a document has 64 bits, wherever in it the integer stands.

## One invariant for readers and tables

A value is checked where it is read, and after that it is only moved: into arrays and inline tables
by the readers, and into the table of the document by its statements. So the invariant is a
predicate on values that looks at every level, each reader yields values that satisfy it, and each
operation on tables keeps it for the tables that it changes.

## Main definitions

* `Toml.IsBounded` — every integer in a value has 64 bits
* `Toml.Yields` — what a reader finds has a property

## Main results

* `Toml.yields_readValue` — a value that is read
* `Fields.areBounded_put?`, `Fields.areBounded_within?` — a value that is put into a table
* `Toml.isBounded_of_parse?` — the headline
-/

namespace Restconf

/-- Integers of 64 bits. -/
def integerBound : Int := Nat.pow 2 63

/-- **Every integer in a value has 64 bits.** -/
inductive Toml.IsBounded : Toml → Prop where
  | string (value : String) : IsBounded (.string value)
  | integer {value : Int} (lower : -integerBound ≤ value) (upper : value < integerBound) :
      IsBounded (.integer value)
  | boolean (value : Bool) : IsBounded (.boolean value)
  | float (text : String) : IsBounded (.float text)
  | dateTime (text : String) : IsBounded (.dateTime text)
  | array {items : List Toml} (h : ∀ item ∈ items, IsBounded item) : IsBounded (.array items)
  | table {origin : TableOrigin} {fields : List (String × Toml)}
      (h : ∀ field ∈ fields, IsBounded field.2) : IsBounded (.table origin fields)
  | tables {entries : List (List (String × Toml))}
      (h : ∀ entry ∈ entries, ∀ field ∈ entry, IsBounded field.2) : IsBounded (.tables entries)

/-- What every step of a loop keeps, the loop keeps. -/
theorem foldlM_keeps {α β : Type} {p : β → Prop} {step : β → α → Option β} {items : List α}
    (hstep : ∀ item ∈ items, ∀ {before after : β}, p before → step before item = some after →
      p after) {start last : β} (hstart : p start) (h : items.foldlM step start = some last) :
    p last := by
  induction items generalizing start with
  | nil =>
    obtain rfl := Option.some.inj h
    exact hstart
  | cons item items ih =>
    obtain ⟨hitem, hitems⟩ := List.forall_mem_cons.mp hstep
    rw [List.foldlM_cons] at h
    obtain ⟨after, hafter, h⟩ := Option.bind_eq_some_iff.mp h
    exact ih hitems (hitem hstart hafter) h

/-! ### Tables -/

namespace Fields

open Toml

/-- Every integer in the values of fields has 64 bits. -/
def AreBounded (fields : Fields) : Prop := ∀ field ∈ fields, IsBounded field.2

variable {fields after inner : Fields} {name step : String} {value : Toml} {way : List String}

theorem areBounded_nil : AreBounded [] := fun _ h => absurd h List.not_mem_nil

theorem AreBounded.concat (h : AreBounded fields) (hvalue : IsBounded value) :
    AreBounded (fields ++ [(name, value)]) :=
  List.forall_mem_append.mpr ⟨h, List.forall_mem_singleton.mpr hvalue⟩

theorem AreBounded.replace (h : AreBounded fields) (hvalue : IsBounded value) :
    AreBounded (fields.replace name value) := by
  intro field hmem
  obtain ⟨old, hold, rfl⟩ := List.mem_map.mp hmem
  split
  · exact hvalue
  · exact h old hold

theorem AreBounded.lookup (h : AreBounded fields) (hlookup : fields.lookup name = some value) :
    IsBounded value := by
  obtain ⟨before, after, rfl, -⟩ := List.lookup_eq_some_iff.mp hlookup
  exact h (name, value) (List.mem_append_right _ List.mem_cons_self)

theorem isBounded_of_table {origin : TableOrigin} (h : IsBounded (.table origin fields)) :
    AreBounded fields := by
  cases h with
  | table h => exact h

theorem isBounded_of_tables {entries : List Fields} (h : IsBounded (.tables entries)) :
    ∀ entry ∈ entries, AreBounded entry := by
  cases h with
  | tables h => exact h

/-- Several tables and one more. -/
theorem isBounded_tables_concat {entries : List Fields} (h : ∀ entry ∈ entries, AreBounded entry)
    (hinner : AreBounded inner) : IsBounded (.tables (entries ++ [inner])) :=
  .tables (List.forall_mem_append.mpr ⟨h, List.forall_mem_singleton.mpr hinner⟩)

theorem AreBounded.last {entries : List Fields} {entry : Fields} (h : AreBounded fields)
    (hlookup : fields.lookup name = some (.tables entries))
    (hlast : entries.getLast? = some entry) : AreBounded entry :=
  isBounded_of_tables (h.lookup hlookup) entry (List.mem_of_getLast? hlast)

theorem AreBounded.replace_last {entries : List Fields} (h : AreBounded fields)
    (hlookup : fields.lookup name = some (.tables entries)) (hinner : AreBounded inner) :
    AreBounded (fields.replace name (.tables (entries.dropLast ++ [inner]))) := by
  have hothers : ∀ other ∈ entries.dropLast, AreBounded other := fun other hother =>
    isBounded_of_tables (h.lookup hlookup) other ((List.dropLast_sublist _).subset hother)
  exact h.replace (isBounded_tables_concat hothers hinner)

/-- **An assignment** brings in nothing but its value. -/
theorem areBounded_put? (hvalue : IsBounded value) (hfields : AreBounded fields)
    (h : put? name value way fields = some after) : AreBounded after := by
  induction way generalizing fields after with
  | nil =>
    rw [put?, add?] at h
    split at h
    · cases h
    · obtain rfl := Option.some.inj h
      exact hfields.concat hvalue
  | cons step way ih =>
    rw [put?] at h
    split at h
    · obtain ⟨inner, hinner, h⟩ := Option.bind_eq_some_iff.mp h
      obtain rfl := Option.some.inj h
      exact hfields.concat (.table (ih areBounded_nil hinner))
    · next inner hlookup =>
      obtain ⟨changed, hchanged, h⟩ := Option.bind_eq_some_iff.mp h
      obtain rfl := Option.some.inj h
      exact hfields.replace (.table (ih (isBounded_of_table (hfields.lookup hlookup)) hchanged))
    · next inner hlookup =>
      split at h
      · cases h
      · obtain ⟨changed, hchanged, h⟩ := Option.bind_eq_some_iff.mp h
        obtain rfl := Option.some.inj h
        exact hfields.replace (.table (ih (isBounded_of_table (hfields.lookup hlookup)) hchanged))
    · next entries hlookup =>
      split at h
      · cases h
      · obtain ⟨entry, hlast, h⟩ := Option.bind_eq_some_iff.mp h
        obtain ⟨changed, hchanged, h⟩ := Option.bind_eq_some_iff.mp h
        obtain rfl := Option.some.inj h
        exact hfields.replace_last hlookup (ih (hfields.last hlookup hlast) hchanged)
    · cases h

theorem areBounded_ofAssignments? {assignments : List (Key × Toml)}
    (hvalues : ∀ assignment ∈ assignments, IsBounded assignment.2)
    (h : ofAssignments? assignments = some after) : AreBounded after :=
  foldlM_keeps (fun assignment hmem => areBounded_put? (hvalues assignment hmem)) areBounded_nil h

/-- A change to the table at a way, if it keeps the tables there bounded. -/
theorem areBounded_within? {change : Fields → Option Fields}
    (hchange : ∀ {fields after : Fields}, AreBounded fields → change fields = some after →
      AreBounded after)
    (hfields : AreBounded fields) (h : within? change way fields = some after) :
    AreBounded after := by
  induction way generalizing fields after with
  | nil => exact hchange hfields h
  | cons step way ih =>
    rw [within?] at h
    split at h
    · obtain ⟨inner, hinner, h⟩ := Option.bind_eq_some_iff.mp h
      obtain rfl := Option.some.inj h
      exact hfields.concat (.table (ih areBounded_nil hinner))
    · cases h
    · next inner _ hlookup =>
      obtain ⟨changed, hchanged, h⟩ := Option.bind_eq_some_iff.mp h
      obtain rfl := Option.some.inj h
      exact hfields.replace (.table (ih (isBounded_of_table (hfields.lookup hlookup)) hchanged))
    · next entries hlookup =>
      obtain ⟨entry, hlast, h⟩ := Option.bind_eq_some_iff.mp h
      obtain ⟨changed, hchanged, h⟩ := Option.bind_eq_some_iff.mp h
      obtain rfl := Option.some.inj h
      exact hfields.replace_last hlookup (ih (hfields.last hlookup hlast) hchanged)
    · cases h

theorem areBounded_openTable? (hfields : AreBounded fields)
    (h : openTable? name fields = some after) : AreBounded after := by
  rw [openTable?] at h
  split at h
  · obtain rfl := Option.some.inj h
    exact hfields.concat (.table areBounded_nil)
  · next inner hlookup =>
    obtain rfl := Option.some.inj h
    exact hfields.replace (.table (isBounded_of_table (hfields.lookup hlookup)))
  · cases h

theorem areBounded_openEntry? (hfields : AreBounded fields)
    (h : openEntry? name fields = some after) : AreBounded after := by
  have hnew {entries : List Fields} (hentries : ∀ entry ∈ entries, AreBounded entry) :
      IsBounded (.tables (entries ++ [[]])) := isBounded_tables_concat hentries areBounded_nil
  rw [ openEntry?] at h
  split at h
  · obtain rfl := Option.some.inj h
    exact hfields.concat (hnew fun _ h => absurd h List.not_mem_nil)
  · next entries hlookup =>
    obtain rfl := Option.some.inj h
    exact hfields.replace (hnew (isBounded_of_tables (hfields.lookup hlookup)))
  · cases h

end Fields

/-! ### Readers -/

namespace Toml

/-- What a reader finds has a property. -/
def Yields {α : Type} (p : α → Prop) (reader : Reader α) : Prop :=
  ∀ {text rest : List Char} {found : α}, reader text = some (found, rest) → p found

theorem isBounded_of_integer? {text : List Char} {value : Int} (h : integer? text = some value) :
    IsBounded (.integer value) := by
  obtain ⟨-, hrange⟩ := Option.filter_eq_some_iff.mp h
  rw [Bool.and_eq_true, decide_eq_true_eq, decide_eq_true_eq] at hrange
  exact .integer hrange.1 hrange.2

theorem yields_readSpacedTime (date : List Char) : Yields IsBounded (readSpacedTime date) := by
  intro text rest found h
  unfold readSpacedTime at h
  split at h
  · split at h
    · dsimp only at h
      split at h
      · cases h
        exact .dateTime _
      · cases h
    · cases h
      exact .dateTime _
  · cases h
    exact .dateTime _

theorem isBounded_of_readDateTime {run text rest : List Char} {found : Toml}
    (h : readDateTime run text = some (found, rest)) : IsBounded found := by
  rw [readDateTime] at h
  split at h
  · split at h
    · cases h
      exact .dateTime _
    · cases h
  · exact yields_readSpacedTime run h
  · split at h
    · cases h
      exact .dateTime _
    · cases h

theorem yields_readScalar : Yields IsBounded readScalar := by
  intro text rest found h
  rw [readScalar] at h
  dsimp only at h
  split at h
  · cases h
    exact .boolean true
  split at h
  · cases h
    exact .boolean false
  split at h
  · next value hvalue =>
    cases h
    exact isBounded_of_integer? hvalue
  split at h
  · cases h
    exact .float _
  · exact isBounded_of_readDateTime h

theorem isBounded_of_readText {text rest : List Char} {found : Toml}
    (h : (readText text).map (fun (s, rest) => (Toml.string (.ofList s), rest))
      = some (found, rest)) : IsBounded found := by
  obtain ⟨quoted, -, h⟩ := Option.map_eq_some_iff.mp h
  cases h
  exact .string _

section Parts

variable {value : Reader Toml} (hvalue : Yields IsBounded value)

include hvalue

theorem yields_readItems (fuel : Nat) :
    Yields (fun items => ∀ item ∈ items, IsBounded item) (readItems value fuel) := by
  intro text rest found h
  induction fuel generalizing text rest found with
  | zero =>
    rw [readItems] at h
    cases h
  | succ fuel ih =>
    rw [readItems] at h
    split at h
    · cases h
      exact fun _ hmem => absurd hmem List.not_mem_nil
    · obtain ⟨⟨first, behind⟩, hfirst, h⟩ := Option.bind_eq_some_iff.mp h
      have hbounded := hvalue hfirst
      dsimp only at h
      split at h
      · cases h
        exact List.forall_mem_singleton.mpr hbounded
      · obtain ⟨⟨more, last⟩, hmore, h⟩ := Option.bind_eq_some_iff.mp h
        cases h
        exact List.forall_mem_cons.mpr ⟨hbounded, ih hmore⟩
      · cases h

theorem yields_readAssignment : Yields (fun found => IsBounded found.2) (readAssignment value) := by
  intro text rest found h
  rw [readAssignment] at h
  obtain ⟨⟨key, behind⟩, -, h⟩ := Option.bind_eq_some_iff.mp h
  obtain ⟨sign, -, h⟩ := Option.bind_eq_some_iff.mp h
  obtain ⟨⟨v, last⟩, hv, h⟩ := Option.bind_eq_some_iff.mp h
  cases h
  exact hvalue hv

theorem yields_readAssignments (fuel : Nat) :
    Yields (fun found => ∀ assignment ∈ found, IsBounded assignment.2)
      (readAssignments value fuel) := by
  intro text rest found h
  induction fuel generalizing text rest found with
  | zero =>
    rw [readAssignments] at h
    cases h
  | succ fuel ih =>
    rw [readAssignments] at h
    obtain ⟨⟨first, behind⟩, hfirst, h⟩ := Option.bind_eq_some_iff.mp h
    have hbounded := yields_readAssignment hvalue hfirst
    dsimp only at h
    split at h
    · cases h
      exact List.forall_mem_singleton.mpr hbounded
    · obtain ⟨⟨more, last⟩, hmore, h⟩ := Option.bind_eq_some_iff.mp h
      cases h
      exact List.forall_mem_cons.mpr ⟨hbounded, ih hmore⟩
    · cases h

theorem yields_readFields (fuel : Nat) : Yields Fields.AreBounded (readFields value fuel) := by
  intro text rest found h
  rw [readFields] at h
  split at h
  · cases h
    exact Fields.areBounded_nil
  · obtain ⟨⟨assignments, behind⟩, hassignments, h⟩ := Option.bind_eq_some_iff.mp h
    obtain ⟨fields, hfields, h⟩ := Option.bind_eq_some_iff.mp h
    cases h
    exact Fields.areBounded_ofAssignments? (yields_readAssignments hvalue fuel hassignments) hfields

end Parts

/-- **A value that is read.** -/
theorem yields_readValue (fuel limit : Nat) : Yields IsBounded (readValue fuel limit) := by
  intro text rest found h
  induction limit generalizing text rest found with
  | zero =>
    unfold readValue at h
    split at h
    · cases h
    · cases h
    · exact isBounded_of_readText h
    · exact isBounded_of_readText h
    · exact yields_readScalar h
  | succ limit ih =>
    unfold readValue at h
    split at h
    · obtain ⟨⟨items, behind⟩, hitems, h⟩ := Option.map_eq_some_iff.mp h
      cases h
      exact .array (yields_readItems ih fuel hitems)
    · obtain ⟨⟨fields, behind⟩, hfields, h⟩ := Option.map_eq_some_iff.mp h
      cases h
      exact .table (yields_readFields ih fuel hfields)
    · exact isBounded_of_readText h
    · exact isBounded_of_readText h
    · exact yields_readScalar h

end Toml

/-! ### Documents -/

namespace Statement

open Toml

/-- The values in a statement are bounded. -/
inductive IsBounded : Statement → Prop where
  | header (key : Key) : IsBounded (.header key)
  | entry (key : Key) : IsBounded (.entry key)
  | assign (key : Key) {value : Toml} (h : value.IsBounded) : IsBounded (.assign key value)

theorem yields_read (fuel : Nat) : Yields IsBounded (read fuel) := by
  intro text rest found h
  unfold read at h
  split at h
  · obtain ⟨⟨key, behind⟩, -, h⟩ := Option.bind_eq_some_iff.mp h
    obtain ⟨first, -, h⟩ := Option.bind_eq_some_iff.mp h
    obtain ⟨second, -, h⟩ := Option.bind_eq_some_iff.mp h
    obtain ⟨last, -, h⟩ := Option.bind_eq_some_iff.mp h
    cases h
    exact .entry key
  · obtain ⟨⟨key, behind⟩, -, h⟩ := Option.bind_eq_some_iff.mp h
    obtain ⟨first, -, h⟩ := Option.bind_eq_some_iff.mp h
    obtain ⟨last, -, h⟩ := Option.bind_eq_some_iff.mp h
    cases h
    exact .header key
  · obtain ⟨⟨⟨key, value⟩, behind⟩, hassignment, h⟩ := Option.bind_eq_some_iff.mp h
    obtain ⟨last, -, h⟩ := Option.bind_eq_some_iff.mp h
    cases h
    exact .assign key (yields_readAssignment (yields_readValue fuel nestingLimit) hassignment)

theorem isBounded_of_readAll {size fuel : Nat} {text : List Char} {statements : List Statement}
    (h : readAll size fuel text = some statements) :
    ∀ statement ∈ statements, statement.IsBounded := by
  have hnone : ∀ statement ∈ ([] : List Statement), statement.IsBounded :=
    fun _ hmem => absurd hmem List.not_mem_nil
  induction fuel generalizing text statements with
  | zero =>
    cases text <;> cases h
    exact hnone
  | succ fuel ih =>
    cases text with
    | nil =>
      cases h
      exact hnone
    | cons c text =>
      simp only [readAll] at h
      split at h
      · exact ih h
      · obtain ⟨⟨statement, behind⟩, hstatement, h⟩ := Option.bind_eq_some_iff.mp h
        obtain ⟨others, hothers, h⟩ := Option.bind_eq_some_iff.mp h
        cases h
        exact List.forall_mem_cons.mpr ⟨yields_read size hstatement, ih hothers⟩

/-- A statement keeps the table of its document bounded. -/
theorem IsBounded.extend? {statement : Statement} (h : statement.IsBounded)
    {document after : TomlDocument} (hfields : document.fields.AreBounded)
    (hextend : document.extend? statement = some after) : after.fields.AreBounded := by
  cases h with
  | header key =>
    obtain ⟨fields, hwithin, heq⟩ := Option.bind_eq_some_iff.mp hextend
    cases heq
    exact Fields.areBounded_within? Fields.areBounded_openTable? hfields hwithin
  | entry key =>
    obtain ⟨fields, hwithin, heq⟩ := Option.bind_eq_some_iff.mp hextend
    cases heq
    exact Fields.areBounded_within? Fields.areBounded_openEntry? hfields hwithin
  | assign key hvalue =>
    obtain ⟨fields, hwithin, heq⟩ := Option.bind_eq_some_iff.mp hextend
    cases heq
    exact Fields.areBounded_within? (Fields.areBounded_put? hvalue) hfields hwithin

end Statement

/-- **Every integer of a document has 64 bits.** -/
theorem Toml.isBounded_of_parse? {text : String} {value : Toml} (h : parse? text = some value) :
    value.IsBounded := by
  obtain ⟨statements, hstatements, h⟩ := Option.bind_eq_some_iff.mp h
  obtain ⟨document, hdocument, h⟩ := Option.bind_eq_some_iff.mp h
  cases h
  have hbounded := Statement.isBounded_of_readAll hstatements
  exact .table (foldlM_keeps (fun statement hmem => (hbounded statement hmem).extend?)
    Fields.areBounded_nil hdocument)

end Restconf
