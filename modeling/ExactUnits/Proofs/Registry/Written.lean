import ExactUnits.Quantity.Reader
import ExactUnits.Proofs.Quantity.Written
import ExactUnits.Proofs.Registry.Keys
import ExactUnits.Proofs.Registry.Plain
import ExactUnits.Proofs.Registry.Standard
import ExactUnits.Proofs.Vocabulary.Written

/-!
# Writing and reading back

In a plain registry the text of a unit is read as the unit that was written, and so is the
text of a quantity.  The reader only has to find the name again: the name determines the
unit.

## Main results

* `Registry.fluent_of_build` — a plain registry is fluent in its names.
* `Registry.readUnit_toText` — **writing and reading agree.**
-/

namespace ExactUnits

open Text

namespace Registry

variable {definitions : List Definition} {aliases : NameMap String} {r : Registry}

/-! ### Forms in a registry -/

/-- Every form is found under its name. -/
theorem table_of_form (h : build definitions aliases = .ok r) {d : Definition}
    (hd : d ∈ formsOf definitions) : r.table[normalize d.name]? = some d.unit :=
  table_of_entry h (mem_entries_of_form hd (List.mem_map.2 ⟨d.name, List.mem_cons_self .., rfl⟩))

theorem name_ne_nil_of_form (h : build definitions aliases = .ok r) {d : Definition}
    (hd : d ∈ formsOf definitions) : d.name.toList ≠ [] := by
  have hmem : d.name ∈ definitions.flatMap Definition.strings :=
    (names_sublist_strings definitions).subset (List.mem_map_of_mem hd)
  obtain ⟨origin, horigin, hstring⟩ := List.mem_flatMap.1 hmem
  have hvisible := Definition.isBlankText_of_mem_strings
    ((wellNamed_of_build h).valid origin horigin) hstring
  intro hnil
  unfold Definition.isBlankText at hvisible
  rw [hnil] at hvisible
  cases hvisible

/-- A prefix leaves the dimension alone. -/
theorem abs_exponent_le_of_form (hplain : r.Plain) {d : Definition}
    (hd : d ∈ formsOf r.definitions) (x : String) : |d.dimension.exponent x| ≤ 1000 := by
  rw [abs_le]
  rcases mem_formsOf_iff.1 hd with hd | ⟨origin, horigin, p, -, rfl⟩
  · exact hplain.dimensions d hd x
  · exact hplain.dimensions origin horigin x

/-- **A plain registry is fluent in its names.** -/
theorem fluent_of_build (h : build definitions aliases = .ok r) (hplain : r.Plain) :
    Vocabulary.Fluent r.vocabulary (unitNamed definitions) (IsLinearName definitions) := by
  have hnamed := wellNamed_of_build h
  have hdefinitions := definitions_of_build h
  -- a name is that of a form, which has all that is asked of it
  have hform : ∀ n, IsLinearName definitions n → ∃ d ∈ formsOf definitions,
      d.name = n ∧ d.offset = none ∧ unitNamed definitions n = d.unit := by
    rintro n ⟨d, hd, rfl, hoffset⟩
    exact ⟨d, hd, rfl, hoffset, hnamed.unitNamed_eq hd⟩
  constructor
  case known =>
    intro n hn
    obtain ⟨d, hd, rfl, -, hunit⟩ := hform n hn
    rw [hunit]
    exact table_of_form h hd
  case name =>
    intro n hn
    obtain ⟨d, -, rfl, -, hunit⟩ := hform n hn
    rw [hunit]
    rfl
  case offset =>
    intro n hn
    obtain ⟨d, -, -, hoffset, hunit⟩ := hform n hn
    rw [hunit]
    exact hoffset
  case factor => exact fun n _ => hnamed.unitNamed_factor_ne_zero n
  case dimension =>
    intro n hn x
    obtain ⟨d, hd, -, -, hunit⟩ := hform n hn
    rw [hunit]
    exact abs_exponent_le_of_form hplain (hdefinitions ▸ hd) x
  case nonempty =>
    intro n hn
    obtain ⟨d, hd, rfl, -⟩ := hform n hn
    exact name_ne_nil_of_form h hd
  case letters =>
    intro n hn
    obtain ⟨d, hd, rfl, -⟩ := hform n hn
    exact hplain.names d (hdefinitions ▸ hd)
  case foreign =>
    intro key u hu
    have hkey : key ∈ r.table := mem_table hu
    refine ⟨fun hc => ?_, fun hc => ?_, hplain.bars key hkey⟩
    · exact (hplain.marks key hkey '*' hc).1 rfl
    · exact (hplain.marks key hkey '^' hc).2.1 rfl

/-! ### Written units -/

theorem hasPlainNames_of_known (h : build definitions aliases = .ok r) (hplain : r.Plain)
    {u : UnitOfMeasure} (hu : Known definitions u) : u.name.HasPlainNames := by
  have hdefinitions := definitions_of_build h
  have hform : ∀ d ∈ formsOf definitions, d.name.toList ≠ [] ∧
      ∀ c ∈ d.name.toList, isNameChar c = true :=
    fun d hd => ⟨name_ne_nil_of_form h hd, hplain.names d (hdefinitions ▸ hd)⟩
  intro n hn
  -- a base unit has one name, and the names of a composed unit are those of forms
  rcases hu with ⟨d, hd, rfl⟩ | hu
  · by_cases hname : n = d.name
    · rw [hname]
      exact hform d hd
    · exact absurd (by rw [Definition.unit, UnitOfMeasure.named, Monomial.exponent_atom,
        if_neg hname]) hn
  · obtain ⟨d, hd, rfl, -⟩ := hu.names n hn
    exact hform d hd

theorem readUnit_toText_eq (r : Registry) (u : UnitOfMeasure) :
    r.readUnit u.toText = r.vocabulary.readChars (UnitName.text u.name) := by
  unfold readUnit Vocabulary.readUnit UnitOfMeasure.toText UnitName.toText
  rw [String.toList_ofList]

theorem readChars_text_unit (h : build definitions aliases = .ok r) {d : Definition}
    (hd : d ∈ formsOf definitions) (hletters : ∀ c ∈ d.name.toList, isNameChar c = true) :
    r.vocabulary.readChars (UnitName.text d.unit.name) = .ok d.unit := by
  have htext : UnitName.text d.unit.name = d.name.toList := Monomial.text_atom ['1'] d.name
  have hnormal : normalChars d.name.toList = regionalChars d.name.toList :=
    normalChars_of_plain fun c hc => isPlainChar_of_isNameChar (hletters c hc)
  have hnonempty : (normalChars d.name.toList).isEmpty = false := by
    simpa [hnormal] using regionalChars_ne_nil (name_ne_nil_of_form h hd)
  have hfind : r.vocabulary.find? (normalChars d.name.toList) = some d.unit := table_of_form h hd
  rw [htext]
  unfold Vocabulary.readChars Vocabulary.readNormal
  rw [hnonempty, if_neg (by decide), hfind]

/-- **The text of a unit is read as the unit**, unless the name is empty. -/
theorem readChars_text (h : build definitions aliases = .ok r) (hplain : r.Plain)
    {u : UnitOfMeasure} (hu : Known definitions u) (hlength : u.name.factors.length ≤ 1000)
    (hexponents : ∀ x, |u.name.exponent x| ≤ 1000) (hone : u.name.isOne = false) :
    r.vocabulary.readChars (UnitName.text u.name) = .ok u := by
  have hnamed := wellNamed_of_build h
  have hdefinitions := definitions_of_build h
  have hnames := hasPlainNames_of_known h hplain hu
  rcases hu with ⟨d, hd, rfl⟩ | hu
  · exact readChars_text_unit h hd (hplain.names d (hdefinitions ▸ hd))
  · -- the reader finds the name again, and the name determines the unit
    have hreadable : Vocabulary.Fluent.ReadableName (IsLinearName definitions) u.name :=
      ⟨hu.names, hexponents, hlength⟩
    obtain ⟨w, hw, hname⟩ := (fluent_of_build h hplain).readNormal_text
      (String.ofList (UnitName.text u.name)) hreadable hone
    have hnormal : normalChars (UnitName.text u.name) = regionalChars (UnitName.text u.name) :=
      normalChars_of_plain fun c => hnames.isPlainChar_of_mem_text hreadable.hasLeast
    have hread : r.vocabulary.readChars (UnitName.text u.name) = .ok w := by
      unfold Vocabulary.readChars
      rw [hnormal]
      exact hw
    have hknown : Known definitions w :=
      known_of_supplies h (.inl ⟨u.toText, (readUnit_toText_eq r u).trans hread⟩)
    rw [hread, hknown.eq_of_name_eq hnamed (.inr hu) hname]

/-- The text of a quantity is read as the quantity. -/
theorem readQuantity_toText (h : build definitions aliases = .ok r) (hplain : r.Plain)
    {u : UnitOfMeasure} (hu : Known definitions u) (hlength : u.name.factors.length ≤ 1000)
    (hexponents : ∀ x, |u.name.exponent x| ≤ 1000) (v : Number) :
    r.vocabulary.readQuantity (Quantity.toText ⟨v, u⟩) = .ok ⟨v, u⟩ := by
  have hnames := hasPlainNames_of_known h hplain hu
  have hleast := Monomial.hasLeast_eq_false_of_abs_le hexponents
  cases hone : u.name.isOne with
  | true =>
    -- without a name only the number is written
    have hname : u.name = UnitOfMeasure.one.name := Monomial.eq_one_of_isOne hone
    have hunit : u = .one := hu.eq_of_name_eq (wellNamed_of_build h) (.inr .one) hname
    have htext : Quantity.toText ⟨v, u⟩ = Number.toText v := by
      unfold Quantity.toText Quantity.text Number.toText
      rw [hone]
      rfl
    rw [htext, Vocabulary.readQuantity_text, hunit]
  | false =>
    have htext : Quantity.toText ⟨v, u⟩ =
        String.ofList (Number.text v ++ ' ' :: UnitName.text u.name) := by
      unfold Quantity.toText Quantity.text
      rw [hone]
      rfl
    rw [htext]
    exact Vocabulary.readQuantity_text_append (readChars_text h hplain hu hlength hexponents hone)
      (fun c hc => isBlank_of_isPlainChar (hnames.isPlainChar_of_mem_text hleast hc))
      (hnames.exists_text_eq_cons hleast) v

/-- **Writing and reading agree.**  A unit that a plain registry reads is read again from
its own text, unless it has no name, and so is every quantity of it.  The standard registry
can be built and is plain. -/
theorem readUnit_toText :
    (∃ r, standard = .ok r ∧ r.Plain) ∧
      ∀ definitions aliases r, build definitions aliases = .ok r → r.Plain →
        ∀ text u, r.readUnit text = .ok u → u.name.factors.length ≤ 1000 →
          (∀ p ∈ u.name.factors, -1000 ≤ p.2.toInt ∧ p.2.toInt ≤ 1000) →
            (u.name.isOne = false → r.readUnit u.toText = .ok u) ∧
              ∀ v : Number, r.vocabulary.readQuantity (Quantity.toText ⟨v, u⟩) = .ok ⟨v, u⟩ := by
  constructor
  · obtain ⟨r, hr⟩ := exists_standard
    exact ⟨r, hr, plain_standard hr⟩
  · intro definitions aliases r h hplain text u hu hlength hexponents
    have hknown := known_of_supplies h (.inl ⟨text, hu⟩)
    have habs : ∀ x, |u.name.exponent x| ≤ 1000 :=
      (Monomial.forall_factors_iff (P := fun n => |n| ≤ 1000) (by decide)).1
        fun p hp => abs_le.2 (hexponents p hp)
    refine ⟨fun hone => ?_, readQuantity_toText h hplain hknown hlength habs⟩
    rw [readUnit_toText_eq, readChars_text h hplain hknown hlength habs hone]

/-- In a registry of metres, litres and minutes, `meter^2*L/min^3` is read as a unit that is
written `litre*metre^2/minute^3` and read again from there. -/
theorem readUnit_toText_litre :
    let metre : Definition := ⟨"metre", ["m"], [], 1, none, .base "length", .none⟩
    let litre : Definition :=
      ⟨"litre", ["L"], [], mkRat 1 1000, none, .ofList [("length", 3)], .none⟩
    let minute : Definition := ⟨"minute", ["min"], [], 60, none, .base "time", .none⟩
    let unit : UnitOfMeasure := ⟨.ofList [("litre", 1), ("metre", 2), ("minute", -3)],
      mkRat 1 216000000, .ofList [("length", 5), ("time", -3)], none⟩
    ∃ r, build [metre, litre, minute] .empty = .ok r ∧ r.readUnit "meter^2*L/min^3" = .ok unit ∧
      r.readUnit "litre*metre^2/minute^3" = .ok unit ∧
      r.vocabulary.readQuantity "-7/2 litre*metre^2/minute^3" = .ok ⟨mkRat (-7) 2, unit⟩ := by
  intro metre litre minute unit
  have hread : (build [metre, litre, minute] .empty >>= fun r =>
      .ok (r.readUnit "meter^2*L/min^3")) = .ok (.ok unit) := by decide +kernel
  have htext : unit.toText = "litre*metre^2/minute^3" := by decide +kernel
  have hquantityText : Quantity.toText ⟨mkRat (-7) 2, unit⟩ = "-7/2 litre*metre^2/minute^3" := by
    decide +kernel
  obtain ⟨r, hr, hu⟩ := Except.bind_eq_ok_iff.1 hread
  have hu := Except.ok.inj hu
  have hplain : r.Plain := plain_of_build hr (by decide +kernel) (by decide +kernel)
  obtain ⟨hunit, hquantity⟩ := readUnit_toText.2 _ _ r hr hplain _ _ hu (by decide +kernel)
    (by decide +kernel)
  refine ⟨r, hr, hu, ?_, ?_⟩
  · rw [← htext]
    exact hunit (by decide +kernel)
  · rw [← hquantityText]
    exact hquantity (mkRat (-7) 2)

end Registry

end ExactUnits
