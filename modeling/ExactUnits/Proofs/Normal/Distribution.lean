import ExactUnits.Proofs.Normal.Raised
import ExactUnits.Proofs.Text.Gap

/-!
# The normal spelling of products and quotients

The normal spelling of two texts that are joined by an operator is that of the two texts,
joined by a star or a bar.  The replacements are global and carried out in order, so this is
followed from one to the next: respacing leaves a gap on either side of the operator, the
characters that are replaced one by one do not see each other, the word `per` does not
reach across unless the texts have it next to the operator, and the replacements behind it
lose a gap or keep it.  No gap is left in the end, since the normal spelling has no spaces
around its marks.

## Main definitions

* `multiplicationSigns`, `plain` — the signs that become a star, and the characters that the
  first replacements put in the place of others.

## Main results

* `normalChars_eq` — the normal spelling as three passes.
* `Spelling.joinedAt_apply` — **each of the last replacements works on the two sides of a mark.**
* `normalize_distributes` — **the normal spelling distributes over every operator.**
-/

namespace ExactUnits

open Text

/-! ### Three passes -/

/-- The signs of multiplication other than the star. -/
def multiplicationSigns : List (Char × Char) := [('\u22c5', '*'), ('\u00b7', '*'), ('\u00d7', '*')]

/-- A superscript lowered and a sign of multiplication made a star; any other character stays. -/
def plain (c : Char) : Char := ((superscripts ++ multiplicationSigns).lookup c).getD c

namespace Spelling

/-- The word between two units. -/
def per : Spelling := ⟨" per ", "/"⟩

/-- The replacements behind that of the word `per`. -/
def afterPer : List Spelling := spellings.drop 16

theorem spellings_eq_append_per :
    spellings = (superscripts ++ multiplicationSigns).map ofPair ++ per :: afterPer := by decide

theorem applyAll_plain (text : List Char) :
    applyAll ((superscripts ++ multiplicationSigns).map ofPair) text = text.map plain :=
  applyAll_ofPair (by decide) text

end Spelling

/-- **The normal spelling as three passes**: characters one by one, the word `per`, and the rest. -/
theorem normalChars_eq (text : List Char) :
    normalChars text =
      Spelling.applyAll Spelling.afterPer (Spelling.per.apply ((respaced text).map plain)) := by
  rw [← Spelling.applyAll_plain]
  calc normalChars text
      = Spelling.applyAll spellings (respaced text) := rfl
    _ = Spelling.applyAll ((superscripts ++ multiplicationSigns).map Spelling.ofPair ++
          Spelling.per :: Spelling.afterPer) (respaced text) :=
        congrArg (Spelling.applyAll · (respaced text)) Spelling.spellings_eq_append_per
    _ = _ := by
        unfold Spelling.applyAll
        rw [List.foldl_append, List.foldl_cons]

/-! ### Characters one by one -/

/-- No character is made one of those of the word `per` or a space. -/
theorem eq_of_plain_mem {c : Char} (h : plain c ∈ Spelling.per.pattern.toList) : plain c = c := by
  have htable : (superscripts ++ multiplicationSigns).all
      (fun p => !Spelling.per.pattern.toList.contains p.2) = true := by decide
  refine (getD_lookup_cases _ c).resolve_right fun hmem => ?_
  have hother := List.all_eq_true.1 htable _ hmem
  rw [Bool.not_eq_true', ← Bool.not_eq_true, List.contains_iff_mem] at hother
  exact hother h

theorem singlySpaced_map_plain {text : List Char} (h : SinglySpaced text) :
    SinglySpaced (text.map plain) := by
  rw [← Spelling.applyAll_plain]
  refine Spelling.singlySpaced_applyAll (fun s hs => Spelling.isVisible_of_mem ?_) h
  rw [Spelling.spellings_eq_append_per]
  exact List.mem_append_left _ hs

theorem joinedAt_map_plain {c : Char} {before after text : List Char}
    (h : JoinedAt c before after text) :
    JoinedAt (plain c) (before.map plain) (after.map plain) (text.map plain) := by
  obtain ⟨left, right, hleft, hright, rfl⟩ := h
  refine ⟨left, right, hleft, hright, ?_⟩
  have hgap : ∀ {gap}, IsGap gap → gap.map plain = gap := by
    rintro gap (rfl | rfl) <;> decide
  simp [hgap hleft, hgap hright]

/-- The pass over single characters makes no part of the word `per`. -/
theorem eq_of_map_plain {part : List Char} (h : part.map plain ⊆ Spelling.per.pattern.toList) :
    part.map plain = part := by
  conv_rhs => rw [← List.map_id part]
  exact List.map_congr_left fun c hc => eq_of_plain_mem (h (List.mem_map_of_mem hc))

/-! ### The word `per` -/

theorem words_per : words "per".toList = ["per".toList] := by decide

theorem getLast?_words_of_suffix {text : List Char}
    (h : ' ' :: "per".toList <:+ (respaced text).map plain) :
    (words text).getLast? = some "per".toList := by
  obtain ⟨part, ⟨front, hfront⟩, hpart⟩ := List.suffix_map_iff.1 h
  have hself : part.map plain = part :=
    eq_of_map_plain (hpart ▸ List.subset_append_left (' ' :: "per".toList) [' '])
  have hwords : words text = words front ++ ["per".toList] := by
    rw [← words_joinWords fun word => mem_words, ← respaced, ← hfront, ← hself, ← hpart,
      words_append_cons isBlank_space, words_per]
  rw [hwords, List.getLast?_concat]

theorem head?_words_of_prefix {text : List Char}
    (h : "per".toList ++ [' '] <+: (respaced text).map plain) :
    (words text).head? = some "per".toList := by
  obtain ⟨part, ⟨back, hback⟩, hpart⟩ := List.prefix_map_iff.1 h
  have hself : part.map plain = part :=
    eq_of_map_plain (hpart ▸ List.subset_cons_self ' ' ("per".toList ++ [' ']))
  have hwords : words text = ["per".toList] ++ words back := by
    rw [← words_joinWords fun word => mem_words, ← respaced, ← hback, ← hself, ← hpart,
      List.append_assoc, List.singleton_append, words_append_cons isBlank_space, words_per]
  rw [hwords]
  rfl

/-- A proper front and the rest of the pattern of the word `per`: the rest begins with a space
only if nothing else is left. -/
theorem per_eq_append {front back : List Char} (hfront : front ≠ [])
    (hper : Spelling.per.pattern.toList = front ++ back) (hback : [' '] <+: back) :
    front = ' ' :: "per".toList := by
  have hcases : ∀ n < 5, n ≠ 0 → [' '] <+: Spelling.per.pattern.toList.drop n →
      Spelling.per.pattern.toList.take n = ' ' :: "per".toList := by decide
  have hlength : front.length < 5 := by
    have hpattern : Spelling.per.pattern.toList.length = 5 := by decide
    have hpos : 1 ≤ back.length := hback.length_le
    rw [hper, List.length_append] at hpattern
    omega
  have hdrop := hcases front.length hlength (by simpa using hfront)
  rw [hper, List.drop_left, List.take_left] at hdrop
  exact hdrop hback

namespace Spelling

/-- Behind a text that does not end in the word, a space begins nothing that lies across. -/
theorem per_apply_append {before : List Char} (hlast : ¬ ' ' :: "per".toList <:+ before)
    (rest : List Char) : per.apply (before ++ ' ' :: rest) = per.apply before ++ per.apply (' ' :: rest) := by
  refine replaceAll_append_of_seam (by decide) ?_
  intro front back hfront hback hper hsuffix hprefix
  obtain ⟨c, back, rfl⟩ := List.exists_cons_of_ne_nil hback
  obtain ⟨rfl, -⟩ := List.cons_prefix_cons.1 hprefix
  obtain rfl := per_eq_append hfront hper (List.prefix_append [' '] back)
  exact hlast hsuffix

/-- The word is replaced next to a mark as it is on the two sides of it. -/
theorem joinedAt_per {mark : Char} (hmark : mark ∈ marks) {before after text : List Char}
    (hlast : ¬ ' ' :: "per".toList <:+ before) (hfirst : ¬ "per".toList ++ [' '] <+: after)
    (h : JoinedAt mark before after text) :
    JoinedAt mark (per.apply before) (per.apply after) (per.apply text) := by
  have hforeign : marks.all (fun mark => !per.pattern.toList.contains mark) = true := by decide
  have hnot : mark ∉ per.pattern.toList := by simpa using List.all_eq_true.1 hforeign mark hmark
  have hspace : per.apply [' '] = [' '] := by decide
  have hfront : ¬ per.pattern.toList <+: ' ' :: after := by
    intro hprefix
    exact hfirst (List.cons_prefix_cons.1 hprefix).2
  refine h.replaceAll (by decide) hnot ?_ (replaceAll_cons_of_not_front hfront)
  exact (per_apply_append hlast []).trans (congrArg (per.apply before ++ ·) hspace)

/-- The word with its two spaces becomes a bar. -/
theorem per_apply_word {before : List Char} (hlast : ¬ ' ' :: "per".toList <:+ before)
    (after : List Char) :
    per.apply (before ++ per.pattern.toList ++ after) = per.apply before ++ '/' :: per.apply after := by
  have hword : per.apply (per.pattern.toList ++ after) = '/' :: per.apply after :=
    replaceAll_append (by decide) after
  rw [List.append_assoc, ← hword]
  exact per_apply_append hlast _

/-! ### The replacements behind it -/

/-- **Each of the last replacements works on the two sides of a mark.** -/
theorem joinedAt_apply {s : Spelling} (hs : s ∈ afterPer) {mark : Char} (hmark : mark ∈ marks)
    {before after text : List Char} (hbefore : SinglySpaced before) (hafter : SinglySpaced after)
    (h : JoinedAt mark before after text) :
    JoinedAt mark (s.apply before) (s.apply after) (s.apply text) := by
  have htable : ∀ s ∈ afterPer, (' ' :: marks).all (fun c => !s.pattern.toList.contains c) = true ∨
      marks.any (fun mark =>
        decide ((s.pattern.toList = [' ', mark] ∨ s.pattern.toList = [mark, ' ']) ∧
          s.replacement.toList = [mark])) = true := by decide +kernel
  have hspace : mark ≠ ' ' := ne_space_of_mem_marks hmark
  simp only [List.any_eq_true, decide_eq_true_eq] at htable
  unfold apply
  -- a pattern without spaces and marks does not see the gap; the others drop a space at a mark
  rcases htable s hs with hforeign | ⟨k, hk, hpattern | hpattern, hreplacement⟩
  · have hnot : ∀ c ∈ ' ' :: marks, c ∉ s.pattern.toList := by simpa using hforeign
    have hpattern : s.pattern.toList ≠ [] := (isVisible_of_mem (List.mem_of_mem_drop hs)).1
    have hcut : ∀ x y, s.apply (x ++ ' ' :: y) = s.apply x ++ ' ' :: s.apply y :=
      replaceAll_append_cons (hnot ' ' (List.mem_cons_self ..)) hpattern
    exact h.replaceAll hpattern (hnot mark (List.mem_cons_of_mem _ hmark)) (hcut before [])
      (hcut [] after)
  · rw [hpattern, hreplacement]
    have hlast : ' ' ∉ before.getLast? := by
      intro hmem
      exact absurd (hbefore.last ' ' hmem) (by decide)
    exact h.replaceAll_dropBefore (ne_space_of_mem_marks hk) hspace hlast
  · rw [hpattern, hreplacement]
    have hfirst : ' ' ∉ after.head? := by
      intro hmem
      exact absurd (hafter.first ' ' hmem) (by decide)
    exact h.replaceAll_dropBehind (ne_space_of_mem_marks hk) hspace hfirst

theorem joinedAt_applyAll {l : List Spelling} (hl : ∀ s ∈ l, s ∈ afterPer) {mark : Char}
    (hmark : mark ∈ marks) {before after text : List Char} (hbefore : SinglySpaced before)
    (hafter : SinglySpaced after) (h : JoinedAt mark before after text) :
    JoinedAt mark (applyAll l before) (applyAll l after) (applyAll l text) := by
  induction l generalizing before after text with
  | nil => exact h
  | cons s l ih =>
    rw [List.forall_mem_cons] at hl
    have hvisible := isVisible_of_mem (List.mem_of_mem_drop hl.1)
    exact ih hl.2 (hvisible.apply hbefore) (hvisible.apply hafter)
      (joinedAt_apply hl.1 hmark hbefore hafter h)

end Spelling

/-! ### Normal spellings -/

/-- In a normal text there is no gap next to a mark. -/
theorem IsNormal.eq_of_joinedAt {mark : Char} (hmark : mark ∈ Spelling.marks)
    {before after text : List Char} (hnormal : IsNormal text) (h : JoinedAt mark before after text) :
    text = before ++ mark :: after := by
  have htable : Spelling.marks.all (fun mark =>
      [[' ', mark], [mark, ' ']].all (spellings.map (·.pattern.toList)).contains) = true := by
    decide +kernel
  have habsent : ∀ pattern ∈ [[' ', mark], [mark, ' ']], ¬ pattern <:+: text := by
    intro pattern hpattern
    have hmem := List.all_eq_true.1 (List.all_eq_true.1 htable mark hmark) pattern hpattern
    obtain ⟨s, hs, rfl⟩ := List.mem_map.1 (List.contains_iff_mem.1 hmem)
    exact hnormal.patterns s hs
  obtain ⟨left, right, hleft, hright, rfl⟩ := h
  have hnone : left = [] := hleft.resolve_right fun hspace =>
    habsent [' ', mark] (by simp) ⟨before, right ++ after, by simp [hspace]⟩
  have hnone' : right = [] := hright.resolve_right fun hspace =>
    habsent [mark, ' '] (by simp) ⟨before ++ left, after, by simp [hspace]⟩
  rw [hnone, hnone', List.append_nil, List.nil_append]

/-- Texts with the same words have the same normal spelling. -/
theorem normalChars_congr {text text' : List Char} (h : words text = words text') :
    normalChars text = normalChars text' := by
  unfold normalChars
  rw [h]

section Operator

variable {a b text : List Char} {mark : Char}

/-- Once the word `per` is replaced, what is joined at a mark stays so, and loses its gaps. -/
theorem normalChars_of_joinedAt (hmark : mark ∈ Spelling.marks)
    (h : JoinedAt mark (Spelling.per.apply ((respaced a).map plain))
      (Spelling.per.apply ((respaced b).map plain))
      (Spelling.per.apply ((respaced text).map plain))) :
    normalChars text = normalChars a ++ mark :: normalChars b := by
  have hper : Spelling.per ∈ spellings := by decide
  have hspaced : ∀ text, SinglySpaced (Spelling.per.apply ((respaced text).map plain)) := fun text =>
    (Spelling.isVisible_of_mem hper).apply (singlySpaced_map_plain (singlySpaced_respaced text))
  have hjoined := Spelling.joinedAt_applyAll (fun _ hs => hs) hmark (hspaced a) (hspaced b) h
  rw [← normalChars_eq, ← normalChars_eq, ← normalChars_eq] at hjoined
  exact (isNormal_normalChars text).eq_of_joinedAt hmark hjoined

/-- **The normal spelling distributes over a sign** that becomes a mark. -/
theorem normalChars_append_cons {sign : Char} (hsign : isBlank sign = false)
    (hmark : plain sign ∈ Spelling.marks) (ha : (words a).getLast? ≠ some "per".toList)
    (hb : (words b).head? ≠ some "per".toList) :
    normalChars (a ++ sign :: b) = normalChars a ++ plain sign :: normalChars b := by
  have hjoined := joinedAt_map_plain (joinedAt_respaced hsign a b)
  exact normalChars_of_joinedAt hmark <| Spelling.joinedAt_per hmark
    (mt getLast?_words_of_suffix ha) (mt head?_words_of_prefix hb) hjoined

/-- **The normal spelling distributes over the word `per`.** -/
theorem normalChars_append_per (ha : (words a).getLast? ≠ some "per".toList) (hawords : words a ≠ [])
    (hbwords : words b ≠ []) (hwords : words text = words a ++ "per".toList :: words b) :
    normalChars text = normalChars a ++ '/' :: normalChars b := by
  have hrespaced : respaced text = respaced a ++ Spelling.per.pattern.toList ++ respaced b := by
    unfold respaced
    rw [hwords, joinWords_append hawords (List.cons_ne_nil _ _), joinWords_cons _ hbwords]
    simp [Spelling.per]
  have hself : Spelling.per.pattern.toList.map plain = Spelling.per.pattern.toList := by decide
  refine normalChars_of_joinedAt (by decide) ⟨[], [], .inl rfl, .inl rfl, ?_⟩
  rw [hrespaced, List.map_append, List.map_append, hself,
    Spelling.per_apply_word (mt getLast?_words_of_suffix ha), List.append_nil, List.nil_append]

end Operator

/-- **The normal spelling distributes over every operator.**  Let the first of two texts not end
in the word `per`, and the second one not begin with it.  Joined by a sign of multiplication or
by a bar, with any blanks around it, they have the normal spellings of both, joined by a star
or a bar.  The word `per` between them is a bar too, if both have words and blanks set it off. -/
theorem normalize_distributes {a b : String}
    (ha : (words a.toList).getLast? ≠ some "per".toList)
    (hb : (words b.toList).head? ≠ some "per".toList) {w w' : String}
    (hw : isAllBlank w.toList = true) (hw' : isAllBlank w'.toList = true) :
    (∀ sign ∈ ["*", "\u22c5", "\u00b7", "\u00d7"],
      normalize (a ++ w ++ sign ++ w' ++ b) = normalize a ++ "*" ++ normalize b) ∧
    normalize (a ++ w ++ "/" ++ w' ++ b) = normalize a ++ "/" ++ normalize b ∧
    (isAllBlank a.toList = false → isAllBlank b.toList = false → w ≠ "" → w' ≠ "" →
      normalize (a ++ w ++ "per" ++ w' ++ b) = normalize a ++ "/" ++ normalize b) := by
  -- blanks next to the operator do not matter
  have haw : words (a.toList ++ w.toList) = words a.toList := words_append_of_blank hw a.toList
  have hbw : words (w'.toList ++ b.toList) = words b.toList := words_blank_append hw' b.toList
  have hjoin : ∀ mark : Char, String.ofList (normalChars a.toList ++ mark :: normalChars b.toList) =
      normalize a ++ String.ofList [mark] ++ normalize b := by
    intro mark
    simp [normalize, ← String.toList_inj]
  have hsign : ∀ sign : Char, isBlank sign = false → ∀ mark ∈ Spelling.marks, plain sign = mark →
      normalize (a ++ w ++ String.ofList [sign] ++ w' ++ b) =
        normalize a ++ String.ofList [mark] ++ normalize b := by
    rintro sign hvisible mark hmark rfl
    have htext : (a ++ w ++ String.ofList [sign] ++ w' ++ b).toList =
        (a.toList ++ w.toList) ++ sign :: (w'.toList ++ b.toList) := by simp
    rw [normalize, htext, normalChars_append_cons hvisible hmark (haw.symm ▸ ha) (hbw.symm ▸ hb),
      normalChars_congr haw, normalChars_congr hbw, hjoin]
  refine ⟨?_, hsign '/' (by decide) '/' (by decide) (by decide), ?_⟩
  · intro sign hmem
    simp only [List.mem_cons, List.not_mem_nil, or_false] at hmem
    rcases hmem with rfl | rfl | rfl | rfl
    · exact hsign '*' (by decide) '*' (by decide) (by decide)
    · exact hsign '\u22c5' (by decide) '*' (by decide) (by decide)
    · exact hsign '\u00b7' (by decide) '*' (by decide) (by decide)
    · exact hsign '\u00d7' (by decide) '*' (by decide) (by decide)
  · intro hablank hbblank hwnil hwnil'
    have hnil : ∀ {text : String}, isAllBlank text.toList = false → words text.toList ≠ [] := by
      intro text hblank hwords
      rw [words_eq_nil_iff.1 hwords] at hblank
      cases hblank
    have hwords : words (a ++ w ++ "per" ++ w' ++ b).toList =
        words a.toList ++ "per".toList :: words b.toList := by
      have htext : (a ++ w ++ "per" ++ w' ++ b).toList =
          a.toList ++ (w.toList ++ ("per".toList ++ (w'.toList ++ b.toList))) := by simp
      rw [htext, words_append_blanks_append (mt String.toList_eq_nil_iff.1 hwnil) hw,
        words_append_blanks_append (mt String.toList_eq_nil_iff.1 hwnil') hw', words_per,
        List.singleton_append]
    rw [normalize, normalChars_append_per ha (hnil hablank) (hnil hbblank) hwords, hjoin]

/-- Neither the words `per` inside the two texts nor the star at the beginning of the second one
reach across the operator between them. -/
theorem normalize_distributes_per_per :
    (words "m per per kg".toList).getLast? ≠ some "per".toList ∧
      (words "* meter per".toList).head? ≠ some "per".toList ∧
      isAllBlank " ".toList = true ∧ isAllBlank "\t\u2003".toList = true ∧
      normalize ("m per per kg" ++ " " ++ "\u22c5" ++ "\t\u2003" ++ "* meter per") =
        normalize "m per per kg" ++ "*" ++ normalize "* meter per" ∧
      normalize ("m per per kg" ++ " " ++ "per" ++ "\t\u2003" ++ "* meter per") =
        normalize "m per per kg" ++ "/" ++ normalize "* meter per" := by
  have ha : (words "m per per kg".toList).getLast? ≠ some "per".toList := by decide
  have hb : (words "* meter per".toList).head? ≠ some "per".toList := by decide
  have hw : isAllBlank " ".toList = true := by decide
  have hw' : isAllBlank "\t\u2003".toList = true := by decide
  obtain ⟨hproduct, -, hquotient⟩ := normalize_distributes ha hb hw hw'
  exact ⟨ha, hb, hw, hw', hproduct _ (by decide),
    hquotient (by decide) (by decide) (by decide) (by decide)⟩

end ExactUnits
