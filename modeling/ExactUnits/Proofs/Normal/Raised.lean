import ExactUnits.Proofs.Normal.Form
import ExactUnits.Proofs.Text.Characters

/-!
# The normal spelling of exponents

An exponent may be written with superscripts, and the first replacements of the normal
spelling lower them, one character after another.  None of them brings in a character that a
later one replaces, so together they are a single pass over the text.  No other replacement
looks at the characters of exponents.  So behind a text in normal form an exponent is lowered,
character by character, and nothing else happens to either of them.

## Main definitions

* `isPowerChar` — digits, signs and the caret.
* `superscripts`, `lowered` — the superscripts and the characters they stand for.

## Main results

* `Spelling.applyAll_ofPair` — replacements of single characters are one pass over the text.
* `IsNormal.append_powerChars` — exponents behind a text in normal form keep it in normal form.
* `IsNormal.normalChars_append` — **behind a text in normal form an exponent is lowered.**
-/

namespace ExactUnits

open Text

/-! ### Superscripts -/

/-- The characters that exponents are written with: digits, signs and the caret. -/
def isPowerChar (c : Char) : Bool := c.isDigit || c == '^' || c == '+' || c == '-'

/-- The superscripts, with the digits and signs they stand for. -/
def superscripts : List (Char × Char) :=
  [('\u2070', '0'), ('\u00b9', '1'), ('\u00b2', '2'), ('\u00b3', '3'), ('\u2074', '4'),
    ('\u2075', '5'), ('\u2076', '6'), ('\u2077', '7'), ('\u2078', '8'), ('\u2079', '9'),
    ('\u207a', '+'), ('\u207b', '-')]

/-- A superscript lowered; any other character stays. -/
def lowered (c : Char) : Char := (superscripts.lookup c).getD c

theorem isBlank_of_isPowerChar {c : Char} (h : isPowerChar c = true) : isBlank c = false := by
  simp only [isPowerChar, Bool.or_eq_true, beq_iff_eq] at h
  rcases h with ((h | rfl) | rfl) | rfl
  · exact isBlank_of_isDigit h
  · decide
  · decide
  · decide

/-- Names have none of the characters of exponents. -/
theorem isPowerChar_of_isNameChar {c : Char} (h : isNameChar c = true) : isPowerChar c = false := by
  have hcaret : c ≠ '^' := ne_of_isNameChar h rfl
  have hplus : c ≠ '+' := ne_of_isNameChar h rfl
  have hminus : c ≠ '-' := ne_of_isNameChar h rfl
  simp [isPowerChar, isDigit_of_isNameChar h, hcaret, hplus, hminus]

/-- A character of a table is replaced by its partner, and any other one stays. -/
theorem getD_lookup_cases (table : List (Char × Char)) (c : Char) :
    (table.lookup c).getD c = c ∨ (c, (table.lookup c).getD c) ∈ table := by
  cases hlookup : table.lookup c with
  | none => exact .inl rfl
  | some d =>
    obtain ⟨before, after, rfl, -⟩ := List.lookup_eq_some_iff.1 hlookup
    exact .inr (List.mem_append_right before (List.mem_cons_self ..))

/-- Superscripts are not blank, so a character that is no blank when lowered is none. -/
theorem isBlank_of_lowered {c : Char} (h : isBlank (lowered c) = false) : isBlank c = false := by
  have hvisible : superscripts.all (fun p => !isBlank p.1) = true := by decide
  rcases getD_lookup_cases superscripts c with hself | hmem
  · have hlowered : lowered c = c := hself
    rwa [hlowered] at h
  · simpa using List.all_eq_true.1 hvisible _ hmem

/-! ### Replacements of single characters -/

namespace Spelling

/-- The replacement of one character by another one. -/
def ofPair (p : Char × Char) : Spelling := ⟨String.ofList [p.1], String.ofList [p.2]⟩

theorem apply_ofPair (p : Char × Char) (text : List Char) :
    (ofPair p).apply text = text.map fun c => if c = p.1 then p.2 else c := by
  unfold apply ofPair
  rw [String.toList_ofList, String.toList_ofList]
  induction text with
  | nil => rfl
  | cons c text ih =>
    rw [replaceAll_cons, List.map_cons]
    by_cases hc : c = p.1
    · rw [if_pos (by simp [hc]), if_pos hc]
      exact congrArg (p.2 :: ·) ih
    · rw [if_neg (by simp [Ne.symm hc]), if_neg hc, ih]

/-- **Replacements of single characters are one pass over the text**, if none brings in what a
later one replaces. -/
theorem applyAll_ofPair {table : List (Char × Char)}
    (h : table.Pairwise fun p q => p.2 ≠ q.1) (text : List Char) :
    applyAll (table.map ofPair) text = text.map fun c => (table.lookup c).getD c := by
  induction table generalizing text with
  | nil => exact (List.map_id' text).symm
  | cons p table ih =>
    obtain ⟨x, y⟩ := p
    obtain ⟨hlater, htable⟩ := List.pairwise_cons.1 h
    -- what this replacement brings in is not replaced again
    have hkept : table.lookup y = none := by
      rw [List.lookup_eq_none_iff]
      intro q hq
      simpa using hlater q hq
    have hpass : ∀ c, (table.lookup (if c = x then y else c)).getD (if c = x then y else c) =
        (((x, y) :: table).lookup c).getD c := by
      intro c
      by_cases hc : c = x
      · rw [if_pos hc, hkept, List.lookup_cons, hc, beq_self_eq_true]
        rfl
      · have hne : (c == x) = false := by simpa using hc
        rw [if_neg hc, List.lookup_cons, hne]
    calc applyAll (((x, y) :: table).map ofPair) text
        = applyAll (table.map ofPair) ((ofPair (x, y)).apply text) := rfl
      _ = text.map fun c => (((x, y) :: table).lookup c).getD c := by
        rw [ih htable, apply_ofPair, List.map_map]
        exact List.map_congr_left fun c _ => hpass c

/-- The first replacements lower the superscripts. -/
theorem spellings_eq_superscripts_append :
    spellings = superscripts.map ofPair ++ spellings.drop superscripts.length := by decide

theorem applyAll_superscripts (text : List Char) :
    applyAll (superscripts.map ofPair) text = text.map lowered :=
  applyAll_ofPair (by decide) text

end Spelling

/-! ### Exponents behind a text in normal form -/

namespace IsNormal

variable {text exponent : List Char}

/-- A text in normal form has no superscripts. -/
theorem map_lowered (h : IsNormal text) : text.map lowered = text := by
  rw [← Spelling.applyAll_superscripts]
  refine Spelling.applyAll_eq_self fun s hs => h.patterns s ?_
  rw [Spelling.spellings_eq_superscripts_append]
  exact List.mem_append_left _ hs

/-- **Exponents behind a text in normal form keep it in normal form**, as no pattern has one of
their characters. -/
theorem append_powerChars (h : IsNormal text) (hexponent : ∀ c ∈ exponent, isPowerChar c = true) :
    IsNormal (text ++ exponent) := by
  have htable : spellings.all (fun s => s.pattern.toList.all (!isPowerChar ·)) = true := by
    decide +kernel
  refine ⟨h.toSinglySpaced.append_word fun c hc => isBlank_of_isPowerChar (hexponent c hc), ?_⟩
  intro s hs hoccurs
  have hforeign : ∀ c ∈ exponent, c ∉ s.pattern.toList := by
    intro c hc hmem
    have hother := List.all_eq_true.1 (List.all_eq_true.1 htable s hs) c hmem
    rw [hexponent c hc] at hother
    cases hother
  exact h.patterns s hs (infix_of_infix_append (Spelling.isVisible_of_mem hs).1 hforeign hoccurs)

/-- **Behind a text in normal form an exponent is lowered**, and nothing else changes. -/
theorem normalChars_append (h : IsNormal text)
    (hexponent : ∀ c ∈ exponent, isPowerChar (lowered c) = true) :
    normalChars (text ++ exponent) = text ++ exponent.map lowered := by
  have hspaced : SinglySpaced (text ++ exponent) :=
    h.toSinglySpaced.append_word fun c hc =>
      isBlank_of_lowered (isBlank_of_isPowerChar (hexponent c hc))
  have hnormal : IsNormal (text ++ exponent.map lowered) :=
    h.append_powerChars (by simpa using hexponent)
  have hsplit : ∀ l : List Char, Spelling.applyAll spellings l =
      Spelling.applyAll (spellings.drop superscripts.length) (l.map lowered) := by
    intro l
    rw [← Spelling.applyAll_superscripts]
    unfold Spelling.applyAll
    rw [← List.foldl_append, ← Spelling.spellings_eq_superscripts_append]
  calc normalChars (text ++ exponent)
      = Spelling.applyAll spellings (text ++ exponent) := by
        rw [normalChars, hspaced.joinWords_words, Spelling.applyAll]
    _ = Spelling.applyAll (spellings.drop superscripts.length) (text ++ exponent.map lowered) := by
        rw [hsplit, List.map_append, h.map_lowered]
    _ = text ++ exponent.map lowered :=
        Spelling.applyAll_eq_self fun s hs => hnormal.patterns s (List.mem_of_mem_drop hs)

end IsNormal

end ExactUnits
