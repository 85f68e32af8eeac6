import Restconf.Json.Printer
import Restconf.Proofs.Text.Balance

/-!
# The brackets of a text

Which brackets a JSON text opens and closes, how deep they nest, and whether every one of them is
closed by its own kind. A bracket inside a string is none of them, whatever the string holds.

## Why the text is scanned character by character

The statements here are about texts that nobody has read yet: one that is too deep to be read, one
that is no document because a name is missing, or one that is not finished. So they cannot go
through a value. What is outside of strings is decided by `Quoting`, which follows the quotes and
the backslashes and knows nothing of the grammar.

## Main definitions

* `Json.Quoting` — where a text stands: outside of strings, inside one, behind a backslash
* `Json.brackets` — the brackets of a text that stand outside of its strings
* `Json.nesting` — how many of them are open at a time, at most
* `Json.HasBalancedBrackets` — each of them is closed by its own kind
* `Json.Nests` — what a part of a text adds to the nesting

## Main results

* `Json.isWhole_quote`, `Json.brackets_quote` — a string has no brackets, whatever it holds
* `Json.Nests.enclose`, `Json.Nests.commaSeparated` — the nesting of an array or an object
-/

namespace Restconf.Json

/-! ### Inside and outside of strings -/

/-- Where a text stands. -/
inductive Quoting where
  | outside
  | inside
  /-- Inside a string, behind a backslash. -/
  | escaped
deriving DecidableEq

/-- One character further. -/
def Quoting.next : Quoting → Char → Quoting
  | outside, c => if c = '"' then inside else outside
  | inside, c => if c = '"' then outside else if c = '\\' then escaped else inside
  | escaped, _ => inside

/-- A whole text further. -/
def Quoting.after (quoting : Quoting) (text : List Char) : Quoting := text.foldl next quoting

theorem Quoting.after_append (quoting : Quoting) (text rest : List Char) :
    quoting.after (text ++ rest) = (quoting.after text).after rest :=
  List.foldl_append

/-- A bracket that opens an array or an object. -/
def isOpening (c : Char) : Bool := c = '{' || c = '['

/-- A bracket that closes an array or an object. -/
def isClosing (c : Char) : Bool := c = '}' || c = ']'

/-- The brackets of a text outside of strings, if the text begins at the given place. -/
def bracketsFrom (quoting : Quoting) : List Char → List Char
  | [] => []
  | c :: rest =>
    if quoting = .outside ∧ (isOpening c || isClosing c) then
      c :: bracketsFrom (quoting.next c) rest
    else bracketsFrom (quoting.next c) rest

/-- The brackets of a text that stand outside of its strings. -/
def brackets (text : List Char) : List Char := bracketsFrom .outside text

theorem bracketsFrom_append (quoting : Quoting) (text rest : List Char) :
    bracketsFrom quoting (text ++ rest)
      = bracketsFrom quoting text ++ bracketsFrom (quoting.after text) rest := by
  induction text generalizing quoting with
  | nil => rfl
  | cons c text ih =>
    rw [List.cons_append, bracketsFrom, bracketsFrom, ih]
    split <;> rfl

/-- Every string in the text is closed. -/
def IsWhole (text : List Char) : Prop := Quoting.outside.after text = .outside

section Whole

variable {text rest : List Char} {c : Char}

theorem IsWhole.append (h : IsWhole text) (h' : IsWhole rest) : IsWhole (text ++ rest) := by
  rw [IsWhole, Quoting.after_append, h]
  exact h'

theorem brackets_append (h : IsWhole text) (rest : List Char) :
    brackets (text ++ rest) = brackets text ++ brackets rest := by
  rw [brackets, bracketsFrom_append, h]
  rfl

theorem isWhole_nil : IsWhole [] := rfl

theorem isWhole_singleton (h : c ≠ '"') : IsWhole [c] := if_neg h

theorem IsWhole.cons (h : c ≠ '"') (hrest : IsWhole rest) : IsWhole (c :: rest) :=
  (isWhole_singleton h).append hrest

theorem brackets_cons (h : c ≠ '"') (rest : List Char) :
    brackets (c :: rest) = brackets [c] ++ brackets rest :=
  brackets_append (isWhole_singleton h) rest

/-- A comma does not close a string. -/
theorem IsWhole.of_comma (h : IsWhole (text ++ [','])) : IsWhole text := by
  rw [IsWhole, Quoting.after_append] at h
  rw [IsWhole]
  cases hquoting : Quoting.outside.after text with
  | outside => rfl
  | inside | escaped => rw [hquoting] at h; cases h

/-! ### Strings -/

/-- A digit of an escape is neither a quote nor a backslash. -/
theorem next_inside_lower : ∀ n < 16, Quoting.inside.next (Hex.lower n) = .inside := by decide

theorem bracketsFrom_of_ne {quoting : Quoting} (h : quoting ≠ .outside) (c : Char)
    (rest : List Char) : bracketsFrom quoting (c :: rest) = bracketsFrom (quoting.next c) rest :=
  if_neg fun hc => h hc.1

/-- What is written for a character does not close the string around it. -/
theorem escapeChar_inside (c : Char) :
    Quoting.inside.after (escapeChar c) = .inside ∧ bracketsFrom .inside (escapeChar c) = [] := by
  unfold escapeChar
  split
  case h_8 hquote hslash _ _ _ _ _ =>
    split
    · next hcontrol =>
      have hhigh := next_inside_lower (c.toNat / 16) (by omega)
      have hlow := next_inside_lower (c.toNat % 16) (by omega)
      have hstart (rest : List Char) : Quoting.inside.after ('\\' :: 'u' :: '0' :: '0' :: rest)
            = Quoting.inside.after rest
          ∧ bracketsFrom .inside ('\\' :: 'u' :: '0' :: '0' :: rest)
            = bracketsFrom .inside rest := ⟨rfl, rfl⟩
      obtain ⟨hafter, hbrackets⟩ := hstart
        [Hex.lower (c.toNat / 16), Hex.lower (c.toNat % 16)]
      rw [hafter, hbrackets, bracketsFrom_of_ne (by decide), hhigh,
        bracketsFrom_of_ne (by decide), Quoting.after, List.foldl_cons, hhigh, List.foldl_cons,
        hlow]
      exact ⟨rfl, rfl⟩
    · have hnext : Quoting.inside.next c = .inside := by
        rw [Quoting.next, if_neg hquote, if_neg hslash]
      rw [bracketsFrom_of_ne (by decide), Quoting.after, List.foldl_cons, hnext]
      exact ⟨rfl, rfl⟩
  all_goals exact ⟨rfl, rfl⟩

theorem flatMap_escapeChar_inside (s : List Char) :
    Quoting.inside.after (s.flatMap escapeChar) = .inside
      ∧ bracketsFrom .inside (s.flatMap escapeChar) = [] := by
  induction s with
  | nil => exact ⟨rfl, rfl⟩
  | cons c s ih =>
    obtain ⟨hafter, hbrackets⟩ := escapeChar_inside c
    rw [List.flatMap_cons, Quoting.after_append, bracketsFrom_append, hafter, hbrackets]
    exact ih

/-- A string is closed by its last quote, and by none before. -/
theorem isWhole_quote (s : List Char) : IsWhole (quote s) := by
  have hbegins : Quoting.outside.next '"' = .inside := rfl
  rw [IsWhole, quote, List.cons_append, Quoting.after, List.foldl_cons, hbegins, ← Quoting.after,
    Quoting.after_append, (flatMap_escapeChar_inside s).1]
  rfl

/-- **A string has no brackets**, whatever it holds. -/
theorem brackets_quote (s : List Char) : brackets (quote s) = [] := by
  have hbegins : Quoting.outside.next '"' = .inside := rfl
  rw [brackets, quote, List.cons_append, bracketsFrom, if_neg (by decide), hbegins,
    bracketsFrom_append, (flatMap_escapeChar_inside s).1, (flatMap_escapeChar_inside s).2]
  rfl

theorem commaSeparated_cons_cons (first second : List Char) (texts : List (List Char)) :
    commaSeparated (first :: second :: texts)
      = first ++ ',' :: commaSeparated (second :: texts) := by
  simp [commaSeparated, List.intercalate_cons_cons]

/-- The commas between texts add no brackets to theirs. -/
theorem brackets_commaSeparated {texts : List (List Char)} (h : ∀ text ∈ texts, IsWhole text) :
    IsWhole (commaSeparated texts) ∧ brackets (commaSeparated texts) = texts.flatMap brackets := by
  induction texts with
  | nil => exact ⟨isWhole_nil, rfl⟩
  | cons first texts ih =>
    obtain ⟨hfirst, hrest⟩ := List.forall_mem_cons.mp h
    obtain ⟨hwhole, hbrackets⟩ := ih hrest
    cases texts with
    | nil => simpa [commaSeparated] using hfirst
    | cons second texts =>
      rw [commaSeparated_cons_cons, brackets_append hfirst, List.flatMap_cons, ← hbrackets,
        brackets_cons (by decide)]
      exact ⟨hfirst.append (.cons (by decide) hwhole), rfl⟩

end Whole

/-! ### Nesting -/

/-- How many brackets are open at a time, at most, if so many are open already. -/
def nestingFrom (height : Nat) : List Char → Nat
  | [] => height
  | c :: rest =>
    if isOpening c then nestingFrom (height + 1) rest
    else max height (nestingFrom (height - 1) rest)

/-- How many arrays and objects of a text are open at a time, at most. -/
def nesting (text : List Char) : Nat := nestingFrom 0 (brackets text)

theorem le_nestingFrom (height : Nat) (text : List Char) : height ≤ nestingFrom height text := by
  induction text generalizing height with
  | nil => exact Nat.le_refl height
  | cons c rest ih =>
    rw [nestingFrom]
    split
    · exact Nat.le_trans (Nat.le_succ height) (ih _)
    · exact Nat.le_max_left _ _

/-- **What a part of a text adds to the nesting**, wherever it stands: it goes so far up and comes
down again. -/
structure Nests (depth : Nat) (text : List Char) : Prop where
  whole : IsWhole text
  nestingFrom_append : ∀ height rest, nestingFrom height (brackets text ++ rest)
    = max (height + depth) (nestingFrom height rest)

namespace Nests

variable {depth other : Nat} {text rest : List Char}

theorem nesting_eq (h : Nests depth text) : nesting text = depth := by
  have hwhole := h.nestingFrom_append 0 []
  rw [List.append_nil, nestingFrom] at hwhole
  rw [nesting, hwhole]
  omega

/-- A text without brackets. -/
theorem of_brackets_eq_nil (hwhole : IsWhole text) (h : brackets text = []) : Nests 0 text where
  whole := hwhole
  nestingFrom_append height rest := by
    rw [h, List.nil_append, Nat.add_zero]
    exact (Nat.max_eq_right (le_nestingFrom height rest)).symm

theorem nil : Nests 0 [] := of_brackets_eq_nil isWhole_nil rfl

theorem quote (s : List Char) : Nests 0 (quote s) :=
  of_brackets_eq_nil (isWhole_quote s) (brackets_quote s)

theorem append (h : Nests depth text) (h' : Nests other rest) :
    Nests (max depth other) (text ++ rest) where
  whole := h.whole.append h'.whole
  nestingFrom_append height rest := by
    rw [brackets_append h.whole, List.append_assoc, h.nestingFrom_append, h'.nestingFrom_append]
    omega

/-- A comma or a colon, and what is behind it. -/
theorem separated {c : Char} (hc : c = ',' ∨ c = ':') (h : Nests depth text) :
    Nests depth (c :: text) := by
  have hseparator : Nests 0 [c] := by
    rcases hc with rfl | rfl <;> exact of_brackets_eq_nil rfl rfl
  have hboth := hseparator.append h
  rwa [Nat.zero_max] at hboth

/-- **An array or an object nests one deeper than what it holds.** -/
theorem enclose {opening closing : Char} (hopening : isOpening opening = true)
    (hclosing : isClosing closing = true) (h : Nests depth text) :
    Nests (depth + 1) (opening :: text ++ [closing]) := by
  have hopens : opening ≠ '"' := by
    rintro rfl
    cases hopening
  have hcloses : closing ≠ '"' := by
    rintro rfl
    cases hclosing
  have hdown : isOpening closing = false := by
    rcases (Bool.or_eq_true _ _).mp hclosing with h | h <;> rw [of_decide_eq_true h] <;> rfl
  have hsingle {c : Char} (hc : (isOpening c || isClosing c) = true) : brackets [c] = [c] :=
    if_pos ⟨rfl, hc⟩
  refine ⟨.cons hopens (h.whole.append (isWhole_singleton hcloses)), fun height rest => ?_⟩
  rw [List.cons_append, brackets_cons hopens, brackets_append h.whole,
    hsingle (by rw [hopening]; rfl), hsingle (by rw [hclosing, Bool.or_true])]
  simp only [List.cons_append, List.nil_append, List.append_assoc]
  rw [nestingFrom, if_pos hopening, h.nestingFrom_append, nestingFrom, hdown,
    if_neg Bool.false_ne_true, Nat.add_sub_cancel]
  omega

/-- Parts with commas between them nest as deep as the deepest of them. -/
theorem commaSeparated {β : Type} {part : β → List Char} {depth : β → Nat} {items : List β}
    (h : ∀ b ∈ items, Nests (depth b) (part b)) :
    Nests ((items.map depth).foldr max 0) (commaSeparated (items.map part)) := by
  induction items with
  | nil => exact nil
  | cons first items ih =>
    obtain ⟨hfirst, hrest⟩ := List.forall_mem_cons.mp h
    cases items with
    | nil =>
      simpa [Json.commaSeparated] using hfirst
    | cons second items =>
      have hboth := hfirst.append (separated (Or.inl rfl) (ih hrest))
      simpa only [List.map_cons, List.foldr_cons, commaSeparated_cons_cons] using hboth

end Nests

/-! ### Balance -/

/-- A bracket and the one that closes it. -/
inductive BracketPair : Char → Char → Prop where
  | braces : BracketPair '{' '}'
  | squares : BracketPair '[' ']'

/-- Each bracket of the text is closed by its own kind. -/
def HasBalancedBrackets (text : List Char) : Prop :=
  IsBalanced (fun _ => False) BracketPair (brackets text)

/-- Balanced brackets open as many arrays and objects as they close. -/
theorem HasBalancedBrackets.countP_eq {text : List Char} (h : HasBalancedBrackets text) :
    (brackets text).countP isOpening = (brackets text).countP isClosing := by
  refine IsBalanced.countP_eq (fun _ h => h.elim) (fun opening closing hpair => ?_) h
  cases hpair <;> exact ⟨rfl, rfl⟩

end Restconf.Json
