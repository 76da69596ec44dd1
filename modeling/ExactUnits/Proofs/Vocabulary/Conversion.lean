import ExactUnits.Proofs.Outcome
import ExactUnits.Proofs.Text.Cut
import ExactUnits.Registry

/-!
# Conversions with any mark

The two units of a conversion stand on the sides of a mark: one of two arrows, or one of two words
between spaces.  The marks are looked for one after the other in the whole text.  If no side has a
mark, the one that was written is the first to be found, and at its place: the other marks do not
overlap with it, except that ` to ` and ` in ` can share a space, which needs a side that ends or
begins with the other word.

## Main results

* `pairwise_absent_marks`, `not_infix_append_mark` — no earlier mark occurs, and the written one
  occurs not before its place.
* `readConversion_append` — **a conversion is read in the same way whichever mark it is written
  with.**
-/

namespace ExactUnits.Vocabulary

open Text

/-! ### The marks -/

theorem mark_ne_nil : ∀ mark ∈ conversionMarks, mark.toList ≠ [] := by decide

/-- Marks do not overlap with later ones, except for the two words between spaces. -/
theorem pairwise_apart_marks :
    conversionMarks.Pairwise fun earlier mark =>
      Apart earlier.toList mark.toList ∨ earlier = " to " ∧ mark = " in " := by decide

/-- No end of an arrow is a beginning of it. -/
theorem clear_mark : ∀ mark ∈ conversionMarks,
    Clear mark.toList.tail mark.toList ∨ mark = " to " ∨ mark = " in " := by decide

section Sides

variable {before after : List Char}

/-- No earlier mark occurs in a conversion. -/
theorem pairwise_absent_marks (hbefore : ∀ mark ∈ conversionMarks, ¬ mark.toList <:+: before)
    (hafter : ∀ mark ∈ conversionMarks, ¬ mark.toList <:+: after)
    (hlast : ¬ " to".toList <:+ before) (hfirst : ¬ "to ".toList <+: after) :
    conversionMarks.Pairwise fun earlier mark =>
      ¬ earlier.toList <:+: before ++ mark.toList ++ after := by
  refine pairwise_apart_marks.imp_of_mem fun {earlier mark} hearlier _ h => ?_
  rcases h with hapart | ⟨rfl, rfl⟩
  · exact not_infix_of_apart (mark_ne_nil _ hearlier) hapart (hbefore _ hearlier) (hafter _ hearlier)
  · have hto : ' ' ∉ ['t', 'o'] := by decide
    have hin : ' ' ∉ ['i', 'n'] := by decide
    exact not_infix_spaced hto hin (by decide) (hbefore _ hearlier) (hafter _ hearlier) hlast hfirst

/-- A mark does not occur in a conversion before its place. -/
theorem not_infix_append_mark (hbefore : ∀ mark ∈ conversionMarks, ¬ mark.toList <:+: before)
    (hto : ¬ " to".toList <:+ before) (hin : ¬ " in".toList <:+ before) :
    ∀ mark ∈ conversionMarks, ¬ mark.toList <:+: before ++ mark.toList.dropLast := by
  intro mark hmark
  have hnot := hbefore mark hmark
  rcases clear_mark mark hmark with hclear | rfl | rfl
  · exact not_infix_append_dropLast (mark_ne_nil mark hmark) hclear hnot
  · have hword : ' ' ∉ ['t', 'o'] := by decide
    exact not_infix_append_spaced_dropLast hword hnot hto
  · have hword : ' ' ∉ ['i', 'n'] := by decide
    exact not_infix_append_spaced_dropLast hword hnot hin

end Sides

/-! ### Reading a conversion -/

/-- The first pattern that occurs at all cuts a text, at its first occurrence. -/
theorem findSome?_cut? {marks earlier later : List String} {mark : String}
    {before after : List Char} (hmarks : marks = earlier ++ mark :: later)
    (hnil : ∀ mark ∈ marks, mark.toList ≠ [])
    (hearlier : ∀ other ∈ earlier, ¬ other.toList <:+: before ++ mark.toList ++ after)
    (hfirst : ¬ mark.toList <:+: before ++ mark.toList.dropLast) :
    (marks.findSome? fun mark' => cut? mark'.toList (before ++ mark.toList ++ after)) =
      some (before, after) := by
  subst hmarks
  refine List.findSome?_eq_some_iff.2 ⟨earlier, mark, later, rfl, ?_, ?_⟩
  · exact (cut?_eq_some_iff (hnil mark (by simp))).2 ⟨rfl, hfirst⟩
  · intro other hother
    exact (cut?_eq_none_iff (hnil other (by simp [hother]))).2 (hearlier other hother)

/-- A conversion whose mark is the first one to be found is read from left to right. -/
theorem readConversion_of_findSome? (vocabulary : Vocabulary) {text a b : String}
    (h : (conversionMarks.findSome? fun mark => cut? mark.toList text.toList) =
      some (a.toList, b.toList)) :
    vocabulary.readConversion text = do
      let u ← vocabulary.readUnit a
      let v ← vocabulary.readUnit b
      return (u, v) := by
  unfold readConversion
  rw [h]
  rfl

/-- **All marks of a conversion mean the same.**  Let no mark occur in two texts, the first one not
end in ` to` or ` in`, and the second one not begin with `to `.  Whichever mark stands between
them, the first text is read, then the second one, and the first error counts.  Either text may be
the unit `in` or have it in it. -/
theorem readConversion_append (vocabulary : Vocabulary) {a b : String}
    (ha : ∀ mark ∈ conversionMarks, ¬ mark.toList <:+: a.toList)
    (hb : ∀ mark ∈ conversionMarks, ¬ mark.toList <:+: b.toList)
    (hto : ¬ " to".toList <:+ a.toList) (hin : ¬ " in".toList <:+ a.toList)
    (hfirst : ¬ "to ".toList <+: b.toList) :
    ∀ mark ∈ conversionMarks, vocabulary.readConversion (a ++ mark ++ b) = do
      let u ← vocabulary.readUnit a
      let v ← vocabulary.readUnit b
      return (u, v) := by
  intro mark hmark
  have hplace := not_infix_append_mark ha hto hin mark hmark
  have habsent := pairwise_absent_marks ha hb hto hfirst
  obtain ⟨earlier, later, hmarks⟩ := List.append_of_mem hmark
  have hearlier : ∀ other ∈ earlier,
      ¬ other.toList <:+: a.toList ++ mark.toList ++ b.toList := by
    rw [hmarks, List.pairwise_append] at habsent
    obtain ⟨-, -, hacross⟩ := habsent
    exact fun other hother => hacross other hother mark (List.mem_cons_self ..)
  have htext : (a ++ mark ++ b).toList = a.toList ++ mark.toList ++ b.toList := by simp
  refine vocabulary.readConversion_of_findSome? ?_
  rw [htext]
  exact findSome?_cut? hmarks mark_ne_nil hearlier hplace

/-- Inches are converted to centimetres with any mark, since `in` does not end in ` in`; and a
second text that begins with `in ` is read as a whole. -/
theorem readConversion_append_inch :
    let inch : Definition := ⟨"inch", ["in"], [], mkRat 127 50, none, .base "length", .none⟩
    let centimetre : Definition := ⟨"centimetre", ["cm"], [], 1, none, .base "length", .none⟩
    ∃ r, Registry.build [inch, centimetre] .empty = .ok r ∧
      (¬ " in".toList <:+ "in".toList ∧
        ∀ mark ∈ conversionMarks, r.vocabulary.readConversion ("in" ++ mark ++ "cm") =
          .ok (inch.unit, centimetre.unit)) ∧
      (¬ "to ".toList <+: "in cm".toList ∧
        ∀ mark ∈ conversionMarks, r.vocabulary.readConversion ("cm" ++ mark ++ "in cm") =
          .error (.unknown "in cm")) := by
  intro inch centimetre
  have hresults : (Registry.build [inch, centimetre] .empty >>= fun r =>
      .ok (r.vocabulary.readUnit "in", r.vocabulary.readUnit "cm", r.vocabulary.readUnit "in cm")) =
      .ok (.ok inch.unit, .ok centimetre.unit, .error (.unknown "in cm")) := by decide +kernel
  obtain ⟨r, hr, hunits⟩ := Except.bind_eq_ok_iff.1 hresults
  obtain ⟨hinch, hrest⟩ := Prod.mk.inj (Except.ok.inj hunits)
  obtain ⟨hcentimetre, hunknown⟩ := Prod.mk.inj hrest
  refine ⟨r, hr, ⟨by decide, fun mark hmark => ?_⟩, by decide, fun mark hmark => ?_⟩
  · rw [readConversion_append r.vocabulary (by decide) (by decide) (by decide) (by decide)
      (by decide) mark hmark, hinch, hcentimetre]
    rfl
  · rw [readConversion_append r.vocabulary (by decide) (by decide) (by decide) (by decide)
      (by decide) mark hmark, hcentimetre, hunknown]
    rfl

end ExactUnits.Vocabulary
