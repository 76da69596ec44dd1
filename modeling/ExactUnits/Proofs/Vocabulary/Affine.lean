import ExactUnits.Proofs.Vocabulary.Joined

/-!
# Units with an offset in expressions

An expression is cut at its marks into terms.  A term stands for a unit with an offset if it is
known as one, or if it is not known and its base is: the exponent, if there is one, does not
matter.  Every term of an expression that can be read brings a unit without an offset into its
product, and so none of them stands for a unit with an offset, in front of the bar or behind it,
to whatever power, and even if it would cancel.

## Main definitions

* `Vocabulary.terms` — the parts of an expression between its marks.
* `Vocabulary.termBase` — a term without its exponent.
* `Vocabulary.NamesAffine` — terms that stand for a unit with an offset.

## Main results

* `Vocabulary.TermUnit.not_namesAffine` — no term of a product stands for such a unit.
* `Vocabulary.terms_of_readNormal` — **in an expression that can be read, all terms bring in units
  without an offset, and so does the whole.**
* `Registry.readUnit_of_mark` — **no unit with an offset takes part in an expression.**
-/

namespace ExactUnits

open Text

namespace Vocabulary

variable {vocabulary : Vocabulary} {source : String} {text term base : List Char} {n : ℤ}
  {u : UnitOfMeasure}

/-! ### Terms -/

/-- The parts of an expression between its marks. -/
def terms (text : List Char) : List (List Char) := text.splitOnP (Spelling.marks.contains ·)

/-- A term without its exponent: the digits at its end, a sign in front of them and a caret in
front of that. -/
def termBase (term : List Char) : List Char :=
  if (trailingDigits term).isEmpty then term
  else dropTrailingCaret (splitTrailingSign (withoutTrailingDigits term)).1

/-- The term stands for a unit with an offset: it is known as one, or it is not known and what is
left without its exponent is.  The term `1` is no exponent without a base, but the empty product. -/
def NamesAffine (vocabulary : Vocabulary) (term : List Char) : Prop :=
  ∃ u : UnitOfMeasure, u.isAffine = true ∧
    (vocabulary.find? term = some u ∨
      vocabulary.find? term = none ∧ term ≠ ['1'] ∧ vocabulary.find? (termBase term) = some u)

theorem eq_termBase_of_splitExponent? (h : splitExponent? term = some (base, n)) :
    base = termBase term := by
  unfold splitExponent? at h
  unfold termBase
  by_cases hdigits : (trailingDigits term).isEmpty = true
  · simp only [hdigits, if_true] at h ⊢
    exact (Prod.mk.inj (Option.some.inj h)).1.symm
  · simp only [hdigits, Bool.false_eq_true, if_false] at h ⊢
    split at h
    · cases h
    · exact (Prod.mk.inj (Option.some.inj h)).1.symm

/-- **No term of a product stands for a unit with an offset.** -/
theorem TermUnit.not_namesAffine (h : TermUnit vocabulary term u) (hone : vocabulary "1" = none) :
    ¬ NamesAffine vocabulary term := by
  rintro ⟨v, haffine, hv⟩
  cases h with
  | one =>
    rcases hv with hv | ⟨-, hne, -⟩
    · have hfind : vocabulary.find? ['1'] = none := hone
      rw [hfind] at hv
      cases hv
    · exact hne rfl
  | read hnil hne hread hlinear =>
    have hu : u.isAffine = false := UnitOfMeasure.isAffine_eq_false_iff.2 hlinear
    have hcontra : ∀ w : UnitOfMeasure, w.isAffine = false → w ≠ v := by
      rintro w hw rfl
      rw [hw] at haffine
      cases haffine
    -- the term is a key itself, or it is cut into a base and an exponent; both units are linear
    rcases readTerm_eq_ok_iff.1 (hread "") with
      hfind | ⟨hfind, base, n, w, hsplit, hbase, hpower⟩
    · rcases hv with hv | ⟨hv, -⟩
      · exact hcontra u hu (Option.some.inj (hfind.symm.trans hv))
      · rw [hfind] at hv
        cases hv
    · obtain rfl := eq_termBase_of_splitExponent? hsplit
      have hw : w.isAffine = false := by
        rcases hpower with ⟨-, rfl⟩ | ⟨-, hw, -⟩
        · exact hu
        · exact hw
      rcases hv with hv | ⟨-, -, hv⟩
      · rw [hfind] at hv
        cases hv
      · exact hcontra w hw (Option.some.inj (hbase.symm.trans hv))

/-! ### Expressions -/

theorem terms_eq_splitOn (hbar : '/' ∉ text) : terms text = text.splitOn '*' := by
  induction text with
  | nil => rfl
  | cons c text ih =>
    rw [List.mem_cons, not_or] at hbar
    have hmark : Spelling.marks.contains c = (c == '*') := by
      have hne : c ≠ '/' := Ne.symm hbar.1
      simp [Spelling.marks, hne, Bool.beq_eq_decide_eq]
    unfold terms List.splitOn at ih ⊢
    rw [List.splitOnP_cons_eq_if_modifyHead, List.splitOnP_cons_eq_if_modifyHead, ih hbar.2, hmark]

/-- At a bar, the terms in front of it are followed by those behind it. -/
theorem terms_append_bar (above below : List Char) :
    terms (above ++ '/' :: below) = terms above ++ terms below :=
  List.splitOnP_append_cons above below (by decide)

theorem exists_termUnit_of_readProduct (h : vocabulary.readProduct source text = .ok u)
    (hbar : '/' ∉ text) : ∀ term ∈ terms text, ∃ v, TermUnit vocabulary term v := by
  rw [terms_eq_splitOn hbar]
  intro term hterm
  obtain ⟨product, w, hstep⟩ := Except.exists_step_of_foldlM h hterm
  exact exists_termUnit hstep

/-- **In an expression that can be read, all terms bring in units without an offset**, and so does
the whole. -/
theorem terms_of_readNormal (hfind : vocabulary.find? text = none)
    (hmark : '*' ∈ text ∨ '/' ∈ text) (h : vocabulary.readNormal source text = .ok u) :
    u.offset = none ∧ ∀ term ∈ terms text, ∃ v, TermUnit vocabulary term v := by
  by_cases hbar : '/' ∈ text
  · obtain ⟨above, below, rfl, habove⟩ := List.eq_append_cons_of_mem hbar
    have hbelow : '/' ∉ below := by
      intro hmem
      -- a second bar would have been refused
      have hcount : 1 < (above ++ '/' :: below).count '/' := by
        have hpos := List.count_pos_iff.2 hmem
        rw [List.count_append, List.count_cons_self]
        omega
      rw [readNormal_of_bars hfind hcount] at h
      cases h
    rw [readNormal_bar hfind habove hbelow, Except.bind_eq_ok_iff] at h
    obtain ⟨numerator, hnumerator, h⟩ := h
    obtain ⟨denominator, hdenominator, hdiv⟩ := Except.bind_eq_ok_iff.1 h
    refine ⟨(UnitOfMeasure.div_eq_ok_iff.1 hdiv).2.2.2, ?_⟩
    rw [terms_append_bar]
    intro term hterm
    rcases List.mem_append.1 hterm with hterm | hterm
    · exact exists_termUnit_of_readProduct hnumerator habove term hterm
    · exact exists_termUnit_of_readProduct hdenominator hbelow term hterm
  · rw [readNormal_star hfind (hmark.resolve_right hbar) hbar] at h
    exact ⟨offset_of_readProduct h, exists_termUnit_of_readProduct h hbar⟩

end Vocabulary

/-! ### Registries -/

namespace Registry

/-- **No unit with an offset takes part in an expression.**  In a registry without a key `1`, let
the normal spelling of a text have a star or a bar and be no key itself.  If any of its terms is a
key of a unit with an offset, or if it is no key and becomes one without its exponent, the text
cannot be read; and whatever is read from such a text has no offset. -/
theorem readUnit_of_mark (r : Registry) (hone : "1" ∉ r.table) {text : String}
    (hforeign : normalize text ∉ r.table)
    (hmark : '*' ∈ (normalize text).toList ∨ '/' ∈ (normalize text).toList) :
    (∀ term ∈ Vocabulary.terms (normalize text).toList, r.vocabulary.NamesAffine term →
      ∃ e, r.readUnit text = .error e) ∧
    ∀ u, r.readUnit text = .ok u → u.isAffine = false := by
  have hunknown : r.vocabulary "1" = none := Std.TreeMap.getElem?_eq_none hone
  have hchars : (normalize text).toList = normalChars text.toList := String.toList_ofList
  have hfind : r.vocabulary.find? (normalize text).toList = none := by
    rw [Vocabulary.find?_toList]
    exact Std.TreeMap.getElem?_eq_none hforeign
  -- what is known of a text that is read
  have hread : ∀ u, r.readUnit text = .ok u → u.offset = none ∧
      ∀ term ∈ Vocabulary.terms (normalize text).toList,
        ∃ v, Vocabulary.TermUnit r.vocabulary term v := by
    intro u hu
    unfold readUnit Vocabulary.readUnit Vocabulary.readChars at hu
    rw [← hchars] at hu
    exact Vocabulary.terms_of_readNormal hfind hmark hu
  constructor
  · intro term hterm haffine
    cases hu : r.readUnit text with
    | error e => exact ⟨e, rfl⟩
    | ok u =>
      obtain ⟨v, hv⟩ := (hread u hu).2 term hterm
      exact absurd haffine (hv.not_namesAffine hunknown)
  · intro u hu
    exact UnitOfMeasure.isAffine_eq_false_iff.2 (hread u hu).1

/-- With metres, degrees Celsius and an alias for the latter, `m * celsius^1 per degC` cannot be
read, although the degrees would cancel; without them `m*m` can. -/
theorem readUnit_of_mark_celsius :
    let metre : Definition := ⟨"metre", ["m"], [], 1, none, .base "length", .none⟩
    let celsius : Definition :=
      ⟨"celsius", ["\u00b0C"], [], 1, some (mkRat 27315 100), .temperature, .none⟩
    let area : UnitOfMeasure := ⟨.ofList [("metre", 2)], 1, .ofList [("length", 2)], none⟩
    ∃ r, build [metre, celsius] (.single "degC" "celsius") = .ok r ∧
      (normalize "m * celsius^1 per degC" = "m*celsius^1/degC" ∧
        r.vocabulary.NamesAffine "celsius^1".toList ∧ r.vocabulary.NamesAffine "degC".toList ∧
        ∃ e, r.readUnit "m * celsius^1 per degC" = .error e) ∧
      r.readUnit "m*m" = .ok area ∧ area.isAffine = false := by
  intro metre celsius area
  have hresults : (build [metre, celsius] (.single "degC" "celsius") >>= fun r =>
      .ok (["1", "m*celsius^1/degC", "m*m"].map r.contains,
        ["celsius^1", "celsius", "degC"].map r.vocabulary, r.readUnit "m*m")) =
      .ok ([false, false, false], [none, some celsius.unit, some celsius.unit], .ok area) := by
    decide +kernel
  obtain ⟨r, hr, hresults⟩ := Except.bind_eq_ok_iff.1 hresults
  simp only [Except.ok.injEq, Prod.mk.injEq, List.map_cons, List.cons.injEq] at hresults
  obtain ⟨⟨hone, hquotient, hproduct, -⟩, ⟨hpower, hbase, halias, -⟩, hread⟩ := hresults
  have habsent : ∀ text, r.contains text = false → normalize text ∉ r.table := by
    intro text h
    rw [Std.TreeMap.mem_iff_contains, Bool.not_eq_true]
    exact h
  have hone : "1" ∉ r.table := habsent "1" hone
  have hnormal : normalize "m * celsius^1 per degC" = "m*celsius^1/degC" := by decide +kernel
  have hforeign : normalize "m * celsius^1 per degC" ∉ r.table := by
    have hself : normalize "m*celsius^1/degC" = "m*celsius^1/degC" := by decide +kernel
    rw [hnormal, ← hself]
    exact habsent _ hquotient
  have hpower : r.vocabulary.NamesAffine "celsius^1".toList := by
    have hstripped : Vocabulary.termBase "celsius^1".toList = "celsius".toList := by decide
    refine ⟨celsius.unit, rfl, .inr ⟨?_, by decide, ?_⟩⟩
    · rwa [Vocabulary.find?_toList]
    · rwa [hstripped, Vocabulary.find?_toList]
  have halias : r.vocabulary.NamesAffine "degC".toList :=
    ⟨celsius.unit, rfl, .inl (by rwa [Vocabulary.find?_toList])⟩
  have herror : ∃ e, r.readUnit "m * celsius^1 per degC" = .error e :=
    (readUnit_of_mark r hone hforeign (by decide +kernel)).1 _ (by decide +kernel) hpower
  have hlinear : area.isAffine = false :=
    (readUnit_of_mark r hone (habsent "m*m" hproduct) (by decide +kernel)).2 area hread
  exact ⟨r, hr, ⟨hnormal, hpower, halias, herror⟩, hread, hlinear⟩

end Registry

end ExactUnits
