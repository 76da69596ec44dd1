import Mathlib.Data.List.Nodup
import ExactUnits.Normal
import ExactUnits.Proofs.Text.Characters
import ExactUnits.Proofs.Text.Replacement

/-!
# The normal spelling of plain texts

Most replacements of the normal spelling need a character that a plain text does not
have: a blank, a superscript or a sign beyond ASCII.  What is left are the regional
spellings of metre and litre.  They work on the words of a text one by one, and make
names of names.

## Main definitions

* `regionalChars` — the regional spellings unified.
* `isCleanChar` — characters that no replacement turns into numbers or marks.

## Main results

* `normalChars_of_plain` — **plain texts are changed by the regional spellings only.**
* `regionalChars_append_cons` — they do not reach across a character that is no letter.
* `isCleanChar_of_mem_normalChars` — the normal spelling of a clean text is clean.
-/

namespace ExactUnits

open Text

/-! ### The regional spellings -/

/-- The regional spellings of metre and litre unified. -/
def regionalChars (text : List Char) : List Char :=
  replaceAll ['l', 'i', 't', 'e', 'r'] ['l', 'i', 't', 'r', 'e']
    (replaceAll ['m', 'e', 't', 'e', 'r'] ['m', 'e', 't', 'r', 'e'] text)

theorem foldl_apply_eq_self {l : List Spelling} {text : List Char}
    (hl : l.all (fun s => s.pattern.toList.any fun x => !isPlainChar x) = true)
    (h : ∀ c ∈ text, isPlainChar c = true) :
    l.foldl (fun text s => s.apply text) text = text := by
  induction l with
  | nil => rfl
  | cons s l ih =>
    rw [List.all_cons, Bool.and_eq_true, List.any_eq_true] at hl
    obtain ⟨⟨x, hx, hplain⟩, hl⟩ := hl
    have hnot : x ∉ text := fun hmem => by simp [h x hmem] at hplain
    have happly : s.apply text = text := replaceAll_eq_self hx hnot
    rw [List.foldl_cons, happly]
    exact ih hl

/-- **Plain texts are changed by the regional spellings only.** -/
theorem normalChars_of_plain {text : List Char} (h : ∀ c ∈ text, isPlainChar c = true) :
    normalChars text = regionalChars text := by
  have hsplit : spellings = spellings.take 21 ++ [⟨"meter", "metre"⟩, ⟨"liter", "litre"⟩] := rfl
  have hforeign : (spellings.take 21).all
      (fun s => s.pattern.toList.any fun x => !isPlainChar x) = true := by decide +kernel
  unfold normalChars
  rw [joinWords_words_eq_self fun c hc => isBlank_of_isPlainChar (h c hc), hsplit,
    List.foldl_append, foldl_apply_eq_self hforeign h]
  rfl

theorem regionalChars_append_cons {c : Char} (hc : c.isAlpha = false) (before after : List Char) :
    regionalChars (before ++ c :: after) = regionalChars before ++ c :: regionalChars after := by
  have hletters : ∀ pattern : List Char, pattern.all Char.isAlpha = true → c ∉ pattern := by
    intro pattern hpattern hmem
    rw [List.all_eq_true.1 hpattern c hmem] at hc
    cases hc
  unfold regionalChars
  rw [replaceAll_append_cons (hletters _ (by decide)) (List.cons_ne_nil _ _),
    replaceAll_append_cons (hletters _ (by decide)) (List.cons_ne_nil _ _)]

theorem regionalChars_eq_self {text : List Char} (h : ∀ c ∈ text, c.isAlpha = false) :
    regionalChars text = text := by
  have hnot : ∀ c : Char, c.isAlpha = true → c ∉ text := fun c hc hmem => by
    rw [h c hmem] at hc
    cases hc
  unfold regionalChars
  rw [replaceAll_eq_self (x := 'm') (by decide) (hnot 'm' rfl),
    replaceAll_eq_self (x := 'l') (by decide) (hnot 'l' rfl)]

theorem regionalChars_ne_nil {text : List Char} (h : text ≠ []) : regionalChars text ≠ [] :=
  replaceAll_ne_nil (List.cons_ne_nil _ _) (replaceAll_ne_nil (List.cons_ne_nil _ _) h)

theorem mem_regionalChars {text : List Char} {c : Char} (h : c ∈ regionalChars text) :
    isNameChar c = true ∨ c ∈ text := by
  have hlitre : ['l', 'i', 't', 'r', 'e'].all isNameChar = true := by decide
  have hmetre : ['m', 'e', 't', 'r', 'e'].all isNameChar = true := by decide
  rcases mem_replaceAll h with h | h
  · exact .inl (List.all_eq_true.1 hlitre c h)
  · rcases mem_replaceAll h with h | h
    · exact .inl (List.all_eq_true.1 hmetre c h)
    · exact .inr h

/-! ### Clean texts -/

/-- The marks of products, quotients and powers, and the characters that the normal
spelling turns into marks or digits. -/
def markedChars : List Char :=
  ['*', '^', '/', '\u2070', '\u00b9', '\u00b2', '\u00b3', '\u2074', '\u2075', '\u2076', '\u2077',
    '\u2078', '\u2079', '\u22c5', '\u00b7', '\u00d7']

/-- The characters that are no blanks, digits or marks, and that are not turned into any.
Most of them are those of names. -/
def isCleanChar (c : Char) : Bool :=
  isNameChar c || !isBlank c && !c.isDigit && !markedChars.contains c

theorem isBlank_of_isCleanChar {c : Char} (h : isCleanChar c = true) : isBlank c = false := by
  simp only [isCleanChar, Bool.or_eq_true, Bool.and_eq_true, Bool.not_eq_true'] at h
  rcases h with h | ⟨⟨h, -⟩, -⟩
  · exact isBlank_of_isPlainChar (isPlainChar_of_isNameChar h)
  · exact h

theorem isDigit_of_isCleanChar {c : Char} (h : isCleanChar c = true) : c.isDigit = false := by
  simp only [isCleanChar, Bool.or_eq_true, Bool.and_eq_true, Bool.not_eq_true'] at h
  rcases h with h | ⟨⟨-, h⟩, -⟩
  · exact isDigit_of_isNameChar h
  · exact h

/-- A replacement keeps a class of characters that has the replacement, or that lacks a
character of the pattern. -/
theorem forall_mem_foldl_apply {p : Char → Bool} {l : List Spelling}
    (hl : l.all (fun s => s.pattern.toList.any (fun x => !p x) || s.replacement.toList.all p) =
      true)
    {text : List Char} (h : ∀ c ∈ text, p c = true) :
    ∀ c ∈ l.foldl (fun text s => s.apply text) text, p c = true := by
  induction l generalizing text with
  | nil => exact h
  | cons s l ih =>
    rw [List.all_cons, Bool.and_eq_true, Bool.or_eq_true, List.any_eq_true, List.all_eq_true] at hl
    refine ih hl.2 fun c hc => ?_
    rcases hl.1 with ⟨x, hx, hpattern⟩ | hreplacement
    · have hnot : x ∉ text := fun hmem => by simp [h x hmem] at hpattern
      have happly : s.apply text = text := replaceAll_eq_self hx hnot
      exact h c (happly ▸ hc)
    · exact (mem_replaceAll hc).elim (hreplacement c) (h c)

/-- **The normal spelling of a clean text is clean.** -/
theorem isCleanChar_of_mem_normalChars {text : List Char} (h : ∀ c ∈ text, isCleanChar c = true) :
    ∀ c ∈ normalChars text, isCleanChar c = true := by
  have hspellings : spellings.all (fun s =>
      s.pattern.toList.any (fun x => !isCleanChar x) || s.replacement.toList.all isCleanChar) =
        true := by decide +kernel
  unfold normalChars
  rw [joinWords_words_eq_self fun c hc => isBlank_of_isCleanChar (h c hc)]
  exact forall_mem_foldl_apply hspellings h

end ExactUnits
