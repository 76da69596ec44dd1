import ExactUnits.Proofs.Number.Written
import ExactUnits.Proofs.Quantity.Glued

/-!
# Reading written quantities

A written quantity is a written number, alone or with a blank and the text of a unit
behind it.  The number has no blanks and a digit behind its bar, so it is found again.

## Main results

* `Quantity.compact_text` — a written number can stand in front of a unit.
* `Vocabulary.readQuantity_text`, `Vocabulary.readQuantity_text_append` — **a written
  number, alone or in front of a unit, is read as the value.**
-/

namespace ExactUnits

open Text

/-- **A written number can stand in front of a unit.** -/
theorem Quantity.compact_text (x : Number) : Compact (Number.text x) where
  visible := fun _ => Number.isBlank_of_mem_text
  bar := by
    intro before after h
    have hnum : '/' ∉ Number.intText x.num := fun hmem =>
      absurd (Number.mem_intText hmem) (by decide)
    have hden : '/' ∉ Number.natText x.den := fun hmem =>
      absurd (Number.isDigit_of_mem_natText hmem) (by decide)
    unfold Number.text at h
    split at h
    · rw [h] at hnum
      exact absurd (List.mem_append_right before (List.mem_cons_self ..)) hnum
    · -- the bar is the one in front of the denominator
      obtain ⟨-, -, rfl⟩ := (List.append_cons_inj_of_notMem hnum hden).1 h
      obtain ⟨c, rest, hcons⟩ := List.exists_cons_of_ne_nil (Number.natText_ne_nil x.den)
      have hc : c.isDigit = true :=
        Number.isDigit_of_mem_natText (hcons ▸ List.mem_cons_self (a := c) (l := rest))
      exact startsWithDigit_iff.2 ⟨c, hc, ⟨rest, hcons.symm⟩⟩

namespace Vocabulary

/-- **A written number is read as a bare number.** -/
theorem readQuantity_text (vocabulary : Vocabulary) (x : Number) :
    vocabulary.readQuantity (Number.toText x) = .ok ⟨x, .one⟩ := by
  have hblank : Quantity.EndsNumber [' '] := .of_blank isBlank_space []
  have hends : Quantity.EndsNumber [] := hblank.of_prefix List.nil_prefix
  have hread := readQuantity_of_compact vocabulary (Quantity.compact_text x)
    (Number.readChars_text x) hends
  rw [List.append_nil] at hread
  exact hread

/-- **A written number in front of a unit is read as the value.** -/
theorem readQuantity_text_append {vocabulary : Vocabulary} {unitText : List Char}
    {unit : UnitOfMeasure} (hread : vocabulary.readChars unitText = .ok unit)
    (hblank : ∀ c ∈ unitText, isBlank c = false)
    (hfirst : ∃ c rest, unitText = c :: rest ∧ c ≠ '/') (x : Number) :
    vocabulary.readQuantity (String.ofList (Number.text x ++ ' ' :: unitText)) =
      .ok ⟨x, unit⟩ := by
  obtain ⟨c, rest, hcons, hc⟩ := hfirst
  have hpart : vocabulary.readUnitPart unitText = .ok unit := by
    rw [← hread, hcons]
    unfold readUnitPart
    split
    · next heq => cases heq
    · next heq => exact absurd (List.cons.inj heq).1 hc
    · rfl
  rw [readQuantity_of_compact vocabulary (Quantity.compact_text x) (Number.readChars_text x)
    (.of_blank isBlank_space unitText), trim_cons_of_blank isBlank_space,
    trim_eq_self_of_forall hblank, hpart]
  rfl

end Vocabulary

end ExactUnits
