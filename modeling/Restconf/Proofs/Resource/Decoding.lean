import Mathlib.Logic.Relation
import Restconf.Proofs.Resource.Uri
import Restconf.Proofs.Text.Rendering

/-!
# Paths and their decoded segments

Which texts a path is read as, which paths cannot be read, and which changes to a path a reader does
not notice.

## The order of the two steps

A path is cut at its slashes first, and only then are the escapes of each piece read. The slashes
that count are therefore the *literal* ones, and whatever is done to a piece without adding a
literal slash stays inside the piece. This is why the grammar of a path is a grammar of its pieces,
one after another, and why the first piece without a reading decides the fault.

On the other side a literal character and its escape differ only as long as a piece is not read. All
that the grammar of identifiers sees is the text, so it cannot tell them apart: an escaped comma
divides keys like a literal one.

## Main definitions

* `Path.Renders` — the paths that are written forms of a list of texts
* `Path.Respelled` — a path with one more slash between its pieces, or one more escape

## Main results

* `Path.segments_eq_ok_iff`, `Path.segments_eq_error_iff` — what is read, and what is not
* `Path.Respelled.segments` — a change that is not noticed
* `Path.segments_renders` — the headline
-/

namespace Restconf

namespace Path

/-! ### One piece -/

section Piece

variable {piece : List Char}

theorem decodeSegment_eq_ok_iff {text : String} :
    decodeSegment (.ofList piece) = .ok text ↔ Percent.Renders piece text.toList := by
  rw [← Percent.decode_eq_some_iff, decodeSegment, Percent.decodeText, String.toList_ofList]
  cases Percent.decode piece with
  | none => simp
  | some read =>
    rw [Option.map_some]
    constructor
    · intro h
      rw [← Except.ok.inj h, String.toList_ofList]
    · intro h
      rw [Option.some.inj h, String.ofList_toList]

/-- A piece is refused if it is a written form of nothing, and the fault names it as it stands. -/
theorem decodeSegment_eq_error_iff {fault : Fault} :
    decodeSegment (.ofList piece) = .error fault
      ↔ (∀ text, ¬ Percent.Renders piece text)
        ∧ fault = .decode (.ofList piece) "'%' must be followed by two hex digits" := by
  simp only [← Percent.decode_eq_some_iff]
  rw [decodeSegment, Percent.decodeText, String.toList_ofList]
  cases Percent.decode piece with
  | none => simp [eq_comm]
  | some read => simp

end Piece

/-! ### Whole paths -/

/-- A path is a written form of a list of texts if its pieces are, one after another. -/
def Renders (path : List Char) (texts : List String) : Prop :=
  List.Forall₂ (fun piece text => Percent.Renders piece text.toList) (pieces path) texts

section Segments

variable {path : String}

theorem segments_eq_ok_iff {texts : List String} :
    segments path = .ok texts ↔ Renders path.toList texts := by
  rw [segments, mapM_eq_ok_iff]
  simp only [decodeSegment_eq_ok_iff]
  rfl

theorem segments_eq_error_iff {fault : Fault} :
    segments path = .error fault ↔ ∃ before piece after,
      pieces path.toList = before ++ piece :: after
        ∧ (∀ other ∈ before, ∃ text, Percent.Renders other text)
        ∧ (∀ text, ¬ Percent.Renders piece text)
        ∧ fault = .decode (.ofList piece) "'%' must be followed by two hex digits" := by
  have readable (other : List Char) :
      (∃ text, decodeSegment (.ofList other) = .ok text) ↔ ∃ text, Percent.Renders other text := by
    simp only [decodeSegment_eq_ok_iff]
    refine ⟨fun ⟨text, h⟩ => ⟨text.toList, h⟩, fun ⟨text, h⟩ => ⟨.ofList text, ?_⟩⟩
    rwa [String.toList_ofList]
  rw [segments, mapM_eq_error_iff]
  simp only [readable, decodeSegment_eq_error_iff]

end Segments

/-! ### Changes that a reader does not notice -/

/-- A path and the same path with one more slash or one more escape. -/
inductive Respelled : (path other : List Char) → Prop where
  /-- A slash in front of the path, behind it, or beside another slash. -/
  | slash {before after : List Char}
      (beside : (before = [] ∨ before.getLast? = some '/') ∨ after = [] ∨ after.head? = some '/') :
      Respelled (before ++ after) (before ++ '/' :: after)
  /-- An escape for a literal character of a piece. What stands in front of it in the piece is
  readable on its own, for otherwise the character would be a digit of an escape. -/
  | escape {lead front tail rest text : List Char} {c high low : Char}
      (start : lead = [] ∨ lead.getLast? = some '/') (stop : rest = [] ∨ rest.head? = some '/')
      (inside : '/' ∉ front ++ c :: tail) (readable : Percent.Renders front text)
      (plain : c ≠ '%') (digits : Percent.IsEscapeOf c high low) :
      Respelled (lead ++ (front ++ c :: tail ++ rest))
        (lead ++ (front ++ '%' :: high :: low :: tail ++ rest))

section Pieces

variable {before after : List Char}

theorem pieces_append_of_getLast? (h : before = [] ∨ before.getLast? = some '/') :
    pieces (before ++ after) = pieces before ++ pieces after := by
  rcases h with rfl | h
  · rfl
  · obtain ⟨front, rfl⟩ := List.getLast?_eq_some_iff.mp h
    rw [List.append_assoc, List.singleton_append, pieces_append_slash, pieces_append_slash]
    rw [show pieces [] = [] from rfl, List.append_nil]

theorem pieces_append_of_head? (h : after = [] ∨ after.head? = some '/') :
    pieces (before ++ after) = pieces before ++ pieces after := by
  rcases h with rfl | h
  · rw [List.append_nil, show pieces [] = [] from rfl, List.append_nil]
  · obtain ⟨rest, rfl⟩ := List.head?_eq_some_iff.mp h
    rw [pieces_append_slash, pieces_slash]

/-- A piece among others. -/
theorem pieces_between {piece : List Char} (hbefore : before = [] ∨ before.getLast? = some '/')
    (hafter : after = [] ∨ after.head? = some '/') (hne : piece ≠ []) (hslash : '/' ∉ piece) :
    pieces (before ++ (piece ++ after)) = pieces before ++ piece :: pieces after := by
  rw [pieces_append_of_getLast? hbefore, pieces_append_of_head? hafter,
    pieces_eq_singleton hne hslash, List.singleton_append]

end Pieces

theorem ne_slash_of_isEscapeOf {c high low : Char} (h : Percent.IsEscapeOf c high low) :
    high ≠ '/' ∧ low ≠ '/' := by
  obtain ⟨a, b, hhigh, hlow, -⟩ := Percent.isEscapeOf_iff.mp h
  have none : Hex.value? '/' = none := by decide
  refine ⟨?_, ?_⟩
  · rintro rfl
    exact absurd (none.symm.trans hhigh) (Option.some_ne_none _).symm
  · rintro rfl
    exact absurd (none.symm.trans hlow) (Option.some_ne_none _).symm

/-- **Another slash between pieces, or an escape for a literal character,** changes no text. -/
theorem Respelled.segments {path other : List Char} {texts : List String}
    (h : Respelled path other) (hread : Path.segments (.ofList path) = .ok texts) :
    Path.segments (.ofList other) = .ok texts := by
  rw [Path.segments, String.toList_ofList] at hread ⊢
  cases h with
  | @slash before after beside =>
    have hsame : pieces (before ++ after) = pieces before ++ pieces after :=
      beside.elim pieces_append_of_getLast? pieces_append_of_head?
    rwa [pieces_append_slash, ← hsame]
  | @escape lead front tail rest text c high low start stop inside readable plain digits =>
    obtain ⟨hhigh, hlow⟩ := ne_slash_of_isEscapeOf digits
    have inside' : '/' ∉ front ++ '%' :: high :: low :: tail := by
      simp only [List.mem_append, List.mem_cons, not_or] at inside ⊢
      exact ⟨inside.1, by decide, hhigh.symm, hlow.symm, inside.2.2⟩
    rw [pieces_between start stop (List.append_ne_nil_of_right_ne_nil _ (List.cons_ne_nil _ _))
      inside, List.mapM_append] at hread
    rw [pieces_between start stop (List.append_ne_nil_of_right_ne_nil _ (List.cons_ne_nil _ _))
      inside', List.mapM_append]
    -- the old piece is read, so the new one is read as the same text
    obtain ⟨_, -, hpieces⟩ := bind_eq_ok_iff.mp hread
    obtain ⟨_, hpieces, -⟩ := bind_eq_ok_iff.mp hpieces
    rw [List.mapM_cons] at hpieces
    obtain ⟨segment, hpiece, -⟩ := bind_eq_ok_iff.mp hpieces
    have hpiece' : decodeSegment (.ofList (front ++ '%' :: high :: low :: tail)) = .ok segment := by
      rw [decodeSegment_eq_ok_iff, ← Percent.decode_eq_some_iff] at hpiece ⊢
      rwa [readable.decode_escape_append plain digits]
    rw [List.mapM_cons, hpiece] at hread
    rwa [List.mapM_cons, hpiece']

/-- The same for any number of such changes, one after another. -/
theorem segments_of_respelled {path other : List Char} {texts : List String}
    (h : Relation.ReflTransGen Respelled path other)
    (hread : Path.segments (.ofList path) = .ok texts) :
    Path.segments (.ofList other) = .ok texts := by
  induction h with
  | refl => exact hread
  | tail _ hlast ih => exact hlast.segments ih

/-- **A path is read as the texts it is a written form of.** If it is a written form of none, its
first piece that is a written form of nothing is to blame. What is made of the texts depends on
nothing else, so paths with the same texts have the same identifier; and any number of slashes
between pieces and of escapes for literal characters leave an identifier as it is. -/
theorem segments_renders :
    (∀ (path : String) (texts : List String),
      segments path = .ok texts ↔ Renders path.toList texts)
    ∧ (∀ path : String, (∀ texts, ¬ Renders path.toList texts) →
      ∃ before piece after, pieces path.toList = before ++ piece :: after
        ∧ (∀ other ∈ before, ∃ text, Percent.Renders other text)
        ∧ (∀ text, ¬ Percent.Renders piece text)
        ∧ segments path
          = .error (.decode (.ofList piece) "'%' must be followed by two hex digits"))
    ∧ (∀ (path other : String) (texts : List String), Renders path.toList texts →
      Renders other.toList texts → Identifier.ofDataPath path = Identifier.ofDataPath other)
    ∧ ∀ (path other : String) (identifier : Identifier),
      Relation.ReflTransGen Respelled path.toList other.toList →
      Identifier.ofDataPath path = .ok identifier →
      Identifier.ofDataPath other = .ok identifier := by
  refine ⟨fun path texts => segments_eq_ok_iff, fun path hnone => ?_,
    fun path other texts hpath hother => ?_, fun path other identifier hrespelled h => ?_⟩
  · cases hread : segments path with
    | ok texts => exact absurd (segments_eq_ok_iff.mp hread) (hnone texts)
    | error fault =>
      obtain ⟨before, piece, after, hpieces, hbefore, hpiece, rfl⟩ :=
        segments_eq_error_iff.mp hread
      exact ⟨before, piece, after, hpieces, hbefore, hpiece, rfl⟩
  · rw [Identifier.ofDataPath, Identifier.ofDataPath, segments_eq_ok_iff.mpr hpath,
      segments_eq_ok_iff.mpr hother]
  · obtain ⟨texts, elements, htexts, helements, rfl⟩ := Identifier.ofDataPath_eq_ok_iff.mp h
    rw [← path.ofList_toList] at htexts
    have hother := segments_of_respelled hrespelled htexts
    rw [String.ofList_toList] at hother
    exact Identifier.ofDataPath_eq_ok_iff.mpr ⟨texts, elements, hother, helements, rfl⟩

/-- An escaped slash and escapes of either case; a comma between keys that is escaped after a slash
has been doubled; and a percent sign with one digit behind it in the second of three pieces. -/
theorem segments_renders_keys :
    Renders "/if=a%2fb//%E9".toList ["if=a/b", "é"]
    ∧ Identifier.ofDataPath "/m:if=1%2C2//x" = .ok { elements :=
        [⟨"if", some "m", .multi, ["1", "2"]⟩, ⟨"x", some "m", .single, []⟩] }
    ∧ ∃ before piece after, pieces "/ok/a%4/%".toList = before ++ piece :: after
        ∧ (∀ other ∈ before, ∃ text, Percent.Renders other text)
        ∧ (∀ text, ¬ Percent.Renders piece text)
        ∧ segments "/ok/a%4/%"
          = .error (.decode (.ofList piece) "'%' must be followed by two hex digits") := by
  have hreadable : Percent.Renders "m:if=1".toList "m:if=1".toList :=
    Percent.decode_eq_some_iff.mp rfl
  have hslash : Respelled "/m:if=1,2/x".toList "/m:if=1,2//x".toList :=
    @Respelled.slash "/m:if=1,2/".toList ['x'] (Or.inl (Or.inr rfl))
  have hescape : Respelled "/m:if=1,2//x".toList "/m:if=1%2C2//x".toList :=
    @Respelled.escape ['/'] "m:if=1".toList ['2'] "//x".toList _ _ _ _ (Or.inr rfl) (Or.inr rfl)
      (by decide) hreadable (by decide) ⟨by decide, Or.inl rfl, Or.inl rfl⟩
  have hboth := (Relation.ReflTransGen.single hslash).tail hescape
  refine ⟨(segments_renders.1 _ _).mp rfl, segments_renders.2.2.2 _ _ _ hboth rfl,
    segments_renders.2.1 _ fun texts h => ?_⟩
  have hfault := (segments_renders.1 "/ok/a%4/%" texts).mpr h
  cases hfault

end Path

end Restconf
