import ExactUnits.Proofs.Quantity.Scan
import ExactUnits.Registry

/-!
# Numbers with the unit directly behind them

A number can stand directly in front of its unit, or with blanks between.  If there is a
blank somewhere, the first word is tried as a number, and otherwise the scan decides.  Both
find the same number: the first word is that number alone, or it has some of the unit behind
it, and then it is no number, since the scan would not have stopped in it.

## Main definitions

* `Quantity.Compact` — numbers without blanks whose bar has a digit behind it.

## Main results

* `Quantity.Compact.splitUnit_append` — number and unit are found apart, with or without a blank.
* `Vocabulary.readQuantity_append` — **glued and spaced quantities agree.**
-/

namespace ExactUnits

open Text

namespace Quantity

variable {text : List Char}

/-! ### Number and unit -/

/-- A text without blanks for which no error is returned is a literal or a fraction.  A fraction
is one of two literals, unless reading the numerator panics. -/
theorem cases_of_readChars (hblank : ∀ c ∈ text, isBlank c = false)
    (hread : ∀ e, Number.readChars text ≠ .error (.returned e)) :
    (∃ literal, Literal.Spells text literal) ∨
      ∃ above below numerator, text = above ++ '/' :: below ∧ Literal.Spells above numerator ∧
        ((∃ denominator, Literal.Spells below denominator) ∨
          numerator.evaluate = .error (.panic none)) := by
  have hpart : ∀ {source part : List Char} {outcome : Except (Failure NumberError) Number},
      Number.ReadsPart source part outcome → (∀ e, outcome ≠ .error (.returned e)) →
        ∃ literal, Literal.Spells part literal := by
    intro source part outcome h hreturned
    cases h with
    | malformed => exact absurd rfl (hreturned _)
    | overflow => exact absurd rfl (hreturned _)
    | least hpart => exact ⟨_, hpart⟩
    | exact hpart => exact ⟨_, hpart⟩
  have hok : ∀ (n : Number) (e : NumberError),
      (.ok n : Except (Failure NumberError) Number) ≠ .error (.returned e) := fun _ _ h => by cases h
  unfold Number.readChars at hread
  rw [trim_eq_self_of_forall hblank] at hread
  generalize houtcome : Number.readTrimmed text = outcome at hread
  -- the sides of a bar are trimmed already
  have hsides : ∀ {above below a b : List Char}, text = above ++ '/' :: below →
      Trimmed above a → Trimmed below b → above = a ∧ below = b := by
    rintro above below a b rfl ha hb
    rw [List.forall_mem_append, List.forall_mem_cons] at hblank
    exact ⟨by rw [← ha.trim_eq, trim_eq_self_of_forall hblank.1],
      by rw [← hb.trim_eq, trim_eq_self_of_forall hblank.2.2]⟩
  cases Number.readTrimmed_eq_iff.1 houtcome with
  | plain _ h => exact .inl (hpart h hread)
  | @numerator above below a _ _ htext ha h =>
    obtain ⟨rfl, -⟩ := hsides htext ha (trimmed_trim below)
    cases h with
    | malformed => exact absurd rfl (hread _)
    | overflow => exact absurd rfl (hread _)
    | least h hleast => exact .inr ⟨above, below, _, htext, h, .inr (if_pos hleast)⟩
  | @denominator above below a b n _ _ htext ha hb hn h =>
    obtain ⟨rfl, rfl⟩ := hsides htext ha hb
    obtain ⟨numerator, hnumerator⟩ := hpart hn (hok n)
    exact .inr ⟨above, below, numerator, htext, hnumerator, .inl (hpart h hread)⟩
  | zero => exact absurd rfl (hread _)
  | @quotient above below a b n d _ htext ha hb hn hd _ =>
    obtain ⟨rfl, rfl⟩ := hsides htext ha hb
    obtain ⟨numerator, hnumerator⟩ := hpart hn (hok n)
    exact .inr ⟨above, below, numerator, htext, hnumerator, .inl (hpart hd (hok d))⟩

/-- A number that can stand in front of a unit: it has no blanks, and a digit stands behind
its bar if it has one. -/
structure Compact (text : List Char) : Prop where
  /-- No character is blank. -/
  visible : ∀ c ∈ text, isBlank c = false
  /-- A bar is followed by a digit. -/
  bar : ∀ before after, text = before ++ '/' :: after → startsWithDigit after = true

variable {v : Number}

theorem Compact.passes (h : Compact text) (hread : Number.readChars text = .ok v) :
    Passes true false text false true := by
  have hreturned : ∀ e, Number.readChars text ≠ .error (.returned e) := by simp [hread]
  rcases cases_of_readChars h.visible hreturned with
    ⟨literal, hliteral⟩ | ⟨above, below, numerator, rfl, habove, ⟨_, hbelow⟩ | hpanic⟩
  · exact passes_of_spells hliteral
  · exact (passes_of_spells habove).append (passes_bar hbelow (h.bar above below rfl))
  · have hvisible := (List.forall_mem_append.1 h.visible).2
    rw [Number.readChars_of_numerator habove (List.forall_mem_cons.1 hvisible).2 hpanic] at hread
    cases hread

theorem exists_first_of_spells {literal : Literal} (h : Literal.Spells text literal) :
    ∃ c, (c.isDigit = true ∨ c ∈ ['.', '+', '-']) ∧ [c] <+: text := by
  cases h with
  | @intro sign point mark whole fraction negative exponent hsign hpoint hmark hnil hdigits =>
    cases hsign with
    | plus => exact ⟨'+', .inr (by decide), List.prefix_append _ _⟩
    | minus => exact ⟨'-', .inr (by decide), List.prefix_append _ _⟩
    | absent =>
      cases whole with
      | cons c whole => exact ⟨c, .inl (hdigits c (List.mem_cons_self ..)), List.prefix_append _ _⟩
      | nil =>
        cases hpoint with
        | absent => exact absurd rfl hnil
        | point => exact ⟨'.', .inr (by decide), List.prefix_append _ _⟩

/-- From a bar on, the scan stops at once or goes over the bar. -/
theorem splitNumberFrom_bar (below : List Char) :
    (splitNumberFrom false true ('/' :: below)).1 = [] ∨
      ∃ front, (splitNumberFrom false true ('/' :: below)).1 = '/' :: front := by
  rw [splitNumberFrom]
  split
  · exact .inr ⟨_, rfl⟩
  · exact .inl rfl

/-- A word that does not go on with the number in front of it makes no longer number: reading both
together returns an error. -/
theorem Compact.eq_nil_of_readChars {word : List Char} (h : Compact text)
    (hread : Number.readChars text = .ok v) (hword : ∀ c ∈ word, isBlank c = false)
    (hends : EndsNumber word)
    (hread' : ∀ e, Number.readChars (text ++ word) ≠ .error (.returned e)) : word = [] := by
  -- the scan stops in front of the word
  have hstop := (h.passes hread).splitNumberFrom_append hends
  rcases cases_of_readChars (List.forall_mem_append.2 ⟨h.visible, hword⟩) hread' with
    ⟨literal, hliteral⟩ | ⟨above, below, numerator, htext, habove, ⟨_, hbelow⟩ | hpanic⟩
  · rw [(passes_of_spells hliteral).splitNumberFrom_eq] at hstop
    exact (Prod.mk.inj hstop).2.symm
  · rw [htext] at hstop
    by_cases hdigit : startsWithDigit below = true
    · rw [((passes_of_spells habove).append (passes_bar hbelow hdigit)).splitNumberFrom_eq] at hstop
      exact (Prod.mk.inj hstop).2.symm
    · -- the scan stops in front of the bar, and the word is what follows
      obtain ⟨c, hc, hfirst⟩ := exists_first_of_spells hbelow
      have hbar : splitNumberFrom false true ('/' :: below) = ([], '/' :: below) := by
        rw [splitNumberFrom, extendsNumber, Bool.eq_false_iff.2 hdigit]
        rfl
      rw [passes_of_spells habove, hbar] at hstop
      obtain rfl : '/' :: below = word := (Prod.mk.inj hstop).2
      exact absurd (List.cons_prefix_cons.2 ⟨rfl, hfirst⟩) (hends.bar c hc)
  · -- the number would have the same numerator, and reading it would panic as well
    rw [htext, passes_of_spells habove] at hstop
    have hnumber := (Prod.mk.inj hstop).1
    rcases splitNumberFrom_bar below with hfront | ⟨front, hfront⟩
    · rw [hfront, List.append_nil] at hnumber
      rw [← hnumber, Number.readChars_of_spells habove, hpanic] at hread
      cases hread
    · rw [hfront] at hnumber
      have hvisible := h.visible
      rw [← hnumber] at hvisible hread
      have hrest := (List.forall_mem_append.1 hvisible).2
      rw [Number.readChars_of_numerator habove (List.forall_mem_cons.1 hrest).2 hpanic] at hread
      cases hread

/-- **Number and unit are found apart**, wherever the first blank stands. -/
theorem Compact.splitUnit_append {rest : List Char} (h : Compact text)
    (hread : Number.readChars text = .ok v) (hends : EndsNumber rest) :
    ∃ unit, splitUnit (text ++ rest) = .ok (text, unit) ∧ trim unit = trim rest := by
  obtain ⟨word, tail, rfl, -, hword, htail⟩ := exists_cutAt isBlank rest
  have hcut : cutAt isBlank (text ++ (word ++ tail)) = (text ++ word, tail.tail?) := by
    rw [← List.append_assoc]
    exact cutAt_append (List.forall_mem_append.2 ⟨h.visible, hword⟩) htail
  have hscan : splitNumber (text ++ (word ++ tail)) = (text, word ++ tail) :=
    (h.passes hread).splitNumberFrom_append hends
  unfold splitUnit
  rw [hcut, hscan]
  cases tail with
  | nil => exact ⟨_, rfl, rfl⟩
  | cons c tail =>
    -- the first try reads up to the blank; a number with a part of a unit behind it is no number
    have hempty : (∀ e, Number.readChars (text ++ word) ≠ .error (.returned e)) → word = [] :=
      h.eq_nil_of_readChars hread hword (hends.of_prefix (List.prefix_append _ _))
    have hblank : isBlank c = true := htail c rfl
    simp only [List.tail?_cons]
    split
    · next v' hfirst =>
      obtain rfl := hempty (by simp [hfirst])
      exact ⟨tail, by rw [List.append_nil], (trim_cons_of_blank hblank tail).symm⟩
    · exact ⟨_, rfl, rfl⟩
    · next unchecked hfirst =>
      obtain rfl := hempty (by simp [hfirst])
      rw [List.append_nil, hread] at hfirst
      cases hfirst

end Quantity

/-! ### Quantities -/

namespace Vocabulary

open Quantity

variable {v : Number}

/-- A number in front of a text that cannot go on with it is the value, and the text is the
unit. -/
theorem readQuantity_of_compact (vocabulary : Vocabulary) {text rest : List Char}
    (h : Compact text) (hread : Number.readChars text = .ok v) (hends : EndsNumber rest) :
    vocabulary.readQuantity (String.ofList (text ++ rest)) =
      ((vocabulary.readUnitPart (trim rest)).map fun unit => ⟨v, unit⟩).mapError .returned := by
  have hnil : text ≠ [] := by
    rintro rfl
    cases hread
  obtain ⟨front, hfront, htrim, hcore⟩ := exists_trim_append hnil h.visible rest
  obtain ⟨unit, hsplit, hunit⟩ := h.splitUnit_append hread (hends.of_prefix hfront)
  unfold readQuantity
  rw [String.toList_ofList, htrim, hsplit]
  show ((Number.readChars text).mapError (Failure.map UnitError.number) >>= _) = _
  rw [hread]
  show ((vocabulary.readUnitPart (trim unit)).mapError Failure.returned >>= _) = _
  rw [hunit, hcore]
  cases vocabulary.readUnitPart (trim rest) <;> rfl

/-- The unit behind a number: nothing, or an expression, below a one if it starts with a bar. -/
theorem readUnitPart_eq (vocabulary : Vocabulary) (text : List Char) :
    vocabulary.readUnitPart text =
      if text = [] then .ok .one
      else if text.head? = some '/' then vocabulary.readUnit ("1" ++ String.ofList text)
      else vocabulary.readUnit (String.ofList text) := by
  have hone : ("1" ++ String.ofList text).toList = '1' :: text := by simp
  unfold readUnit
  rw [hone, String.toList_ofList]
  unfold readUnitPart
  split
  · exact (if_pos rfl).symm
  · rw [if_neg (List.cons_ne_nil _ _), if_pos List.head?_cons]
  · next hnil hbar =>
    have hfirst : text.head? ≠ some '/' := by
      intro hfirst
      obtain ⟨rest, rfl⟩ := List.head?_eq_some_iff.1 hfirst
      exact hbar rest rfl
    rw [if_neg hnil, if_neg hfirst]

/-- **Glued and spaced quantities agree.**  Let a number without blanks, with a digit behind
its bar if it has one, stand in front of a text that cannot go on with it.  Directly behind
the number or behind a space, the text is read as the unit: nothing if it is blank, below a
one if it starts with a bar, and as it is otherwise. -/
theorem readQuantity_append (vocabulary : Vocabulary) {number unit : String} {v : Number}
    (hblank : ∀ c ∈ number.toList, isBlank c = false) (hread : Number.read number = .ok v)
    (hbar : ∀ before after, number.toList = before ++ '/' :: after →
      startsWithDigit after = true)
    (hends : EndsNumber unit.toList) :
    let core := trim unit.toList
    let outcome : Except UnitError Quantity :=
      if isAllBlank unit.toList then .ok ⟨v, .one⟩
      else if core.head? = some '/' then
        (vocabulary.readUnit ("1" ++ String.ofList core)).map fun u => ⟨v, u⟩
      else (vocabulary.readUnit (String.ofList core)).map fun u => ⟨v, u⟩
    vocabulary.readQuantity (number ++ unit) = outcome.mapError .returned ∧
      vocabulary.readQuantity (number ++ " " ++ unit) = outcome.mapError .returned := by
  intro core outcome
  have houtcome : (vocabulary.readUnitPart core).map (fun u => (⟨v, u⟩ : Quantity)) = outcome := by
    rw [readUnitPart_eq]
    unfold outcome
    simp only [← trim_eq_nil_iff]
    split
    · rfl
    · split <;> rfl
  -- either way a compact number stands in front of a text that ends it
  have hcompact : Compact number.toList := ⟨hblank, hbar⟩
  have hspace : EndsNumber (' ' :: unit.toList) := .of_blank isBlank_space _
  have hglued : number ++ unit = String.ofList (number.toList ++ unit.toList) := by
    simp
  have hspaced : number ++ " " ++ unit = String.ofList (number.toList ++ ' ' :: unit.toList) := by
    simp [← String.toList_inj]
  rw [← houtcome, hglued, hspaced, readQuantity_of_compact vocabulary hcompact hread hends,
    readQuantity_of_compact vocabulary hcompact hread hspace, trim_cons_of_blank isBlank_space]
  exact ⟨rfl, rfl⟩

/-- `3/4e2` directly in front of `eV` is a number of electronvolts, though the unit begins with
an exponent mark, and directly in front of `/s` a number of reciprocal seconds. -/
theorem readQuantity_append_electronvolt :
    let volt : Definition := ⟨"electronvolt", ["eV"], [], 1, none, .base "energy", .none⟩
    let second : Definition := ⟨"second", ["s"], [], 1, none, .base "time", .none⟩
    let hertz : UnitOfMeasure := ⟨.ofList [("second", -1)], 1, .ofList [("time", -1)], none⟩
    ∃ r, Registry.build [volt, second] .empty = .ok r ∧
      Number.read "3/4e2" = .ok (mkRat 3 400) ∧
      (EndsNumber "eV".toList ∧
        r.vocabulary.readQuantity ("3/4e2" ++ "eV") = .ok ⟨mkRat 3 400, volt.unit⟩ ∧
        r.vocabulary.readQuantity ("3/4e2" ++ " " ++ "eV") = .ok ⟨mkRat 3 400, volt.unit⟩) ∧
      (EndsNumber "/s".toList ∧
        r.vocabulary.readQuantity ("3/4e2" ++ "/s") = .ok ⟨mkRat 3 400, hertz⟩ ∧
        r.vocabulary.readQuantity ("3/4e2" ++ " " ++ "/s") = .ok ⟨mkRat 3 400, hertz⟩) := by
  intro volt second hertz
  have hresults : (Registry.build [volt, second] .empty >>= fun r =>
      .ok (r.vocabulary.readUnit "eV", r.vocabulary.readUnit "1/s")) =
      .ok (.ok volt.unit, .ok hertz) := by decide +kernel
  obtain ⟨r, hr, hunits⟩ := Except.bind_eq_ok_iff.1 hresults
  obtain ⟨hvolt, hhertz⟩ := Prod.mk.inj (Except.ok.inj hunits)
  have hread : Number.read "3/4e2" = .ok (mkRat 3 400) := by decide +kernel
  have hblank : ∀ c ∈ "3/4e2".toList, isBlank c = false := by
    have hnone : "3/4e2".toList.any isBlank = false := by decide
    simpa only [List.any_eq_false, Bool.not_eq_true] using hnone
  have hbar : ∀ before after, "3/4e2".toList = before ++ '/' :: after →
      startsWithDigit after = true := by
    intro before after h
    have hcut : ['3'] ++ '/' :: ['4', 'e', '2'] = before ++ '/' :: after := h
    obtain ⟨-, -, rfl⟩ := (List.append_cons_inj_of_notMem (by decide) (by decide)).1 hcut
    decide
  have hends : EndsNumber "eV".toList := by
    refine ⟨?_, ?_, ?_⟩
    · rintro c (hc | rfl) ⟨rest, hrest⟩ <;> simp_all
    · rintro c - ⟨rest, hrest⟩
      simp_all
    · rintro mark - sign hsign c hc ⟨rest, hrest⟩
      simp only [List.mem_cons, List.not_mem_nil, or_false] at hsign
      rcases hsign with rfl | rfl | rfl <;> simp_all
  have hends' : EndsNumber "/s".toList := by
    refine ⟨?_, ?_, ?_⟩
    · rintro c (hc | rfl) ⟨rest, hrest⟩ <;> simp_all
    · rintro c hc ⟨rest, hrest⟩
      simp_all
    · rintro mark hmark sign - c - ⟨rest, hrest⟩
      simp_all
  have hvalue := readQuantity_append r.vocabulary hblank hread hbar hends
  have hvalue' := readQuantity_append r.vocabulary hblank hread hbar hends'
  have hcore : trim "eV".toList = "eV".toList ∧ isAllBlank "eV".toList = false := by
    decide +kernel
  have hcore' : trim "/s".toList = "/s".toList ∧ isAllBlank "/s".toList = false := by
    decide +kernel
  have hfirst : ("eV".toList.head? = some '/') = False := by decide
  have hfirst' : ("/s".toList.head? = some '/') = True := by decide
  have hbelow : "1" ++ "/s" = "1/s" := rfl
  simp only [hcore, hfirst, Bool.false_eq_true, if_false, String.ofList_toList, hvolt] at hvalue
  simp only [hcore', hfirst', Bool.false_eq_true, if_false, if_true, String.ofList_toList, hbelow,
    hhertz] at hvalue'
  exact ⟨r, hr, hread, ⟨hends, hvalue⟩, hends', hvalue'⟩

end Vocabulary

end ExactUnits
