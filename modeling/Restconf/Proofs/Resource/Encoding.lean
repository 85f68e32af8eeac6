import Restconf.Proofs.Resource.Decoding

/-!
# Texts written into a path

Any list of texts can be written into a path, each in its written form behind a slash, and it comes
back from there, except for the texts that are empty.

## What decides it

The two steps of reading ask for two different things. The cut at the slashes asks that no text
brings a slash of its own, and reading the pieces asks that each piece is a written form of its
text. Neither depends on what the text is: everything that means something in a path is in the range
that escapes reach, and so is the percent sign, so there is no text that would need a form of its
own. The characters above `U+00FF`, which have no escape, mean nothing in a path and may stand as
they are.

An empty text is written as nothing, and a piece without characters does not count.

## Main definitions

* `Path.ofTexts` — the path that a list of texts is written as

## Main results

* `Path.pieces_ofTexts` — the pieces are the written forms
* `Path.segments_ofTexts` — the texts come back, without the empty ones
* `Path.encodeText_protects` — the headline
-/

namespace Restconf

namespace Path

/-- The path of a list of texts, each in its written form behind a slash. -/
def ofTexts (texts : List String) : String :=
  String.join (texts.map fun text => "/" ++ Percent.encodeText text)

section OfTexts

variable (text : String) (texts : List String)

theorem toList_ofTexts_cons : (ofTexts (text :: texts)).toList
    = '/' :: (Percent.encode text.toList ++ (ofTexts texts).toList) := by
  simp [ofTexts, Percent.encodeText]

/-- Behind a written form the path is at its end, or at a slash. -/
theorem head?_ofTexts :
    (ofTexts texts).toList = [] ∨ (ofTexts texts).toList.head? = some '/' := by
  cases texts with
  | nil => exact Or.inl rfl
  | cons text texts =>
    rw [toList_ofTexts_cons]
    exact Or.inr rfl

/-- **The path is cut where it was joined.** -/
theorem pieces_ofTexts : pieces (ofTexts texts).toList
    = (texts.filter (· ≠ "")).map fun text => Percent.encode text.toList := by
  induction texts with
  | nil => rfl
  | cons text texts ih =>
    rw [toList_ofTexts_cons, pieces_slash, pieces_append_of_head? (head?_ofTexts texts), ih]
    by_cases hempty : text = ""
    · subst hempty
      rfl
    · have hne : Percent.encode text.toList ≠ [] :=
        Percent.encode_ne_nil (by simpa using hempty)
      have hslash : '/' ∉ Percent.encode text.toList :=
        Percent.not_mem_encode_of_delimiter (by decide) text.toList
      rw [pieces_eq_singleton hne hslash, List.filter_cons_of_pos (by simpa using hempty)]
      rfl

/-- **The texts come back,** without the empty ones. -/
theorem segments_ofTexts : segments (ofTexts texts) = .ok (texts.filter (· ≠ "")) := by
  rw [segments, pieces_ofTexts, mapM_eq_ok_iff, List.forall₂_map_left_iff, List.forall₂_same]
  intro text _
  exact decodeSegment_encodeText text

end OfTexts

/-- **Reading undoes writing, and what is written cannot be taken for a part of the path.** The
written form of any text is read as that text; it has no delimiter in it, and no percent sign but
that of an escape. So a list of texts comes back from the path it is written as, exactly if none of
them is empty. -/
theorem encodeText_protects :
    (∀ text : String, decodeSegment (Percent.encodeText text) = .ok text)
    ∧ (∀ text : String, (∀ c ∈ Percent.delimiters, c ∉ (Percent.encodeText text).toList)
      ∧ Percent.IsEscaped (Percent.encodeText text).toList)
    ∧ ∀ texts : List String,
      segments (ofTexts texts) = .ok texts ↔ ∀ text ∈ texts, text ≠ "" := by
  refine ⟨decodeSegment_encodeText, fun text => ?_, fun texts => ?_⟩
  · rw [Percent.encodeText, String.toList_ofList]
    refine ⟨fun c hc => ?_, Percent.isEscaped_encode text.toList⟩
    exact Percent.not_mem_encode_of_delimiter hc text.toList
  · rw [segments_ofTexts]
    constructor
    · intro h text hmem
      have hkept : texts.filter (· ≠ "") = texts := Except.ok.inj h
      rw [← hkept] at hmem
      simpa using (List.mem_filter.mp hmem).2
    · intro h
      have hkept : texts.filter (· ≠ "") = texts := by
        rw [List.filter_eq_self]
        intro text hmem
        simpa using h text hmem
      rw [hkept]

/-- The percent sign, a text made of delimiters, and the characters on both sides of `U+007F` and
of `U+00FF`. -/
theorem encodeText_protects_limits :
    let texts := ["100%", "/?#:=,", "\u007F\u0080", "\u00FF\u0100"]
    ofTexts texts = "/100%25/%2F%3F%23%3A%3D%2C/%7F%80/%FF\u0100"
      ∧ (',' ∈ Percent.delimiters ∧ ',' ∉ (Percent.encodeText "/?#:=,").toList)
      ∧ (∀ text ∈ texts, text ≠ "") ∧ segments (ofTexts texts) = .ok texts := by
  intro texts
  have hcomma : ',' ∈ Percent.delimiters := by decide
  have hne : ∀ text ∈ texts, text ≠ "" := by decide
  exact ⟨by decide, ⟨hcomma, (encodeText_protects.2.1 "/?#:=,").1 ',' hcomma⟩, hne,
    (encodeText_protects.2.2 texts).mpr hne⟩

end Path

end Restconf
