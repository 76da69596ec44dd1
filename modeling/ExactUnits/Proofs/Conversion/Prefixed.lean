import ExactUnits.Proofs.Conversion.Compatible
import ExactUnits.Proofs.Registry.Keys

/-!
# A prefix scales by its factor

A prefixed unit differs from the plain one in its name and its factor.  Its name ends like the
plain name, so both are on one scale of temperature, and they have the same zero, which is
counted in plain degrees.  So a value of the prefixed unit measures what the value times the
factor of the prefix measures in the plain unit, whatever the zero is.

## Main definitions

* `Definition.SpelledWith` — a spelling of a definition, without and with a prefix.

## Main results

* `TemperatureScale.ofName?_append` — what stands in front of a name leaves its scale alone.
* `Definition.exists_toBase_unit_iff` — only temperatures named after no scale have no base
  values.
* `Definition.toBase_prefixedUnit` — base values with and without a prefix.
* `Registry.convert_prefixed` — **a value is converted from the prefixed to the plain unit by
  the factor of the prefix.**
-/

namespace ExactUnits

/-! ### Spellings -/

/-- The definition spells its unit `plain`, and `glued` with the prefix: symbols take the symbol
of the prefix, all other spellings its name. -/
inductive Definition.SpelledWith (d : Definition) (p : Prefix) : (plain glued : String) → Prop
  /-- The canonical name behind the name of the prefix. -/
  | name : SpelledWith d p d.name (p.name ++ d.name)
  /-- A symbol behind the symbol of the prefix. -/
  | symbol {s : String} (h : s ∈ d.symbols) : SpelledWith d p s (p.symbol ++ s)
  /-- Another name behind the name of the prefix. -/
  | other {s : String} (h : s ∈ d.aliases) : SpelledWith d p s (p.name ++ s)

namespace Definition

variable {d : Definition} {p : Prefix} {plain glued : String}

theorem SpelledWith.mem_spellings (h : d.SpelledWith p plain glued) : plain ∈ d.spellings := by
  unfold spellings
  cases h with
  | name => simp
  | symbol h => simp [h]
  | other h => simp [h]

theorem SpelledWith.mem_prefixedSpellings (h : d.SpelledWith p plain glued) :
    glued ∈ d.prefixedSpellings p := by
  unfold prefixedSpellings
  cases h with
  | name => simp
  | symbol h => simp [h]
  | other h => simp [h]

end Definition

/-! ### One scale -/

/-- **What stands in front of a name leaves its scale alone.** -/
theorem TemperatureScale.ofName?_append {name : String} {scale : TemperatureScale}
    (h : ofName? name = some scale) (front : String) : ofName? (front ++ name) = some scale := by
  rw [ofName?_eq_some_iff] at h ⊢
  rw [String.toList_append]
  exact h.trans (List.suffix_append _ _)

namespace Definition

variable {d : Definition}

theorem ofUnit_unit_eq_ok_iff {scale : TemperatureScale} :
    TemperatureScale.ofUnit d.unit = .ok scale ↔
      TemperatureScale.ofName? d.name = some scale := by
  rw [ofUnit_unit]
  split
  · next h => simp [h]
  · next h => simp [h]

theorem exists_toBase_unit_iff {v : Number} :
    (∃ b, (⟨v, d.unit⟩ : Quantity).toBase = .ok b) ↔
      (d.dimension.isTemperature = true →
        ∃ scale, TemperatureScale.ofName? d.name = some scale) := by
  constructor
  · rintro ⟨b, hb⟩ htemperature
    obtain ⟨scale, hscale⟩ := Quantity.exists_scale_of_toBase htemperature hb
    exact ⟨scale, ofUnit_unit_eq_ok_iff.1 hscale⟩
  · intro hscale
    cases htemperature : d.dimension.isTemperature with
    | false => exact ⟨_, Quantity.toBase_of_not_temperature (u := d.unit) htemperature v⟩
    | true =>
      obtain ⟨scale, hname⟩ := hscale htemperature
      exact ⟨_, Quantity.toBase_of_temperature (u := d.unit) htemperature
        (ofUnit_unit_eq_ok_iff.2 hname) v⟩

/-- **Base values with and without a prefix.**  A value of the prefixed unit measures as much as
the value times the factor of the prefix does in the plain unit. -/
theorem toBase_prefixedUnit
    (hscale : d.dimension.isTemperature = true →
      ∃ scale, TemperatureScale.ofName? d.name = some scale)
    (p : Prefix) (v : Number) :
    (⟨v, d.prefixedUnit p⟩ : Quantity).toBase = (⟨v * p.scale, d.unit⟩ : Quantity).toBase := by
  have hfactor : v * (d.prefixedUnit p).factor = v * p.scale * d.unit.factor := by
    show v * (d.factor * p.scale) = v * p.scale * d.factor
    ring
  cases htemperature : d.dimension.isTemperature with
  | false =>
    rw [Quantity.toBase_of_not_temperature (u := d.prefixedUnit p) htemperature,
      Quantity.toBase_of_not_temperature (u := d.unit) htemperature, hfactor]
  | true =>
    obtain ⟨scale, hname⟩ := hscale htemperature
    have hprefixed : TemperatureScale.ofUnit (d.prefixedUnit p) = .ok scale :=
      (ofUnit_unit_eq_ok_iff (d := d.prefixed p)).2 (TemperatureScale.ofName?_append hname p.name)
    rw [Quantity.toBase_of_temperature (u := d.prefixedUnit p) htemperature hprefixed,
      Quantity.toBase_of_temperature (u := d.unit) htemperature (ofUnit_unit_eq_ok_iff.2 hname),
      hfactor]
    rfl

end Definition

/-! ### Conversion between the spellings -/

namespace Registry

variable {definitions : List Definition} {aliases : NameMap String} {r : Registry}
  {d : Definition} {p : Prefix} {plain glued : String}

/-- A spelling is read as the unit that it was entered with. -/
theorem readUnit_of_string (h : build definitions aliases = .ok r) (hd : d ∈ definitions)
    {s : String} {u : UnitOfMeasure} (hs : s ∈ d.strings) (hentry : (s, u) ∈ d.entries) :
    r.unit s = .ok u ∧ r.readUnit s = .ok u := by
  have hvalid := (wellNamed_of_build h).valid d hd
  have hkey := table_of_entry h (List.mem_flatMap.2 ⟨d, hd, hentry⟩)
  exact ⟨unit_of_table hkey,
    readUnit_of_table (Definition.isBlankText_of_mem_strings hvalid hs) hkey⟩

/-- The plain spelling is read as the unit that is defined. -/
theorem readUnit_plain (h : build definitions aliases = .ok r) (hd : d ∈ definitions)
    (hs : d.SpelledWith p plain glued) : r.readUnit plain = .ok d.unit := by
  refine (readUnit_of_string h hd ?_ ?_).2
  · exact List.mem_append_left _ hs.mem_spellings
  · exact List.mem_append_left _ (List.mem_map.2 ⟨plain, hs.mem_spellings, rfl⟩)

/-- The spelling with the prefix is read, and looked up, as the prefixed unit. -/
theorem readUnit_glued (h : build definitions aliases = .ok r) (hd : d ∈ definitions)
    (hp : p ∈ d.family.prefixes) (hs : d.SpelledWith p plain glued) :
    r.unit glued = .ok (d.prefixedUnit p) ∧ r.readUnit glued = .ok (d.prefixedUnit p) := by
  refine readUnit_of_string h hd ?_ ?_
  · exact List.mem_append_right _ (List.mem_flatMap.2 ⟨p, hp, hs.mem_prefixedSpellings⟩)
  · refine List.mem_append_right _ (List.mem_flatMap.2 ⟨p, hp, ?_⟩)
    exact List.mem_map.2 ⟨glued, hs.mem_prefixedSpellings, rfl⟩

/-- **A value is converted from the prefixed to the plain unit by the factor of the prefix.**
With the prefix in front, a spelling stands for a unit of the same dimension and with the same
offset.  The prefix has a factor, and a conversion to the plain unit multiplies by it, with and
without an offset; it fails only for temperatures that are named after no scale. -/
theorem convert_prefixed {definitions : List Definition} {aliases : NameMap String} {r : Registry}
    (h : build definitions aliases = .ok r) {d : Definition} (hd : d ∈ r.definitions) {p : Prefix}
    (hp : p ∈ d.family.prefixes) {plain glued : String} (hs : d.SpelledWith p plain glued) :
    (∃ u, r.unit glued = .ok u ∧ u.dimension = d.dimension ∧ u.offset = d.offset) ∧
      ∃ factor, p.factor = .ok factor ∧
        ∀ v x, r.vocabulary.convert v glued plain = .ok x ↔
          x = v * factor ∧ (d.dimension.isTemperature = true →
            ∃ scale, TemperatureScale.ofName? d.name = some scale) := by
  rw [definitions_of_build h] at hd
  obtain ⟨hunit, hglued⟩ := readUnit_glued h hd hp hs
  have hplain := readUnit_plain h hd hs
  have hfactor : d.unit.factor ≠ 0 :=
    ((wellNamed_of_build h).factor_pos (mem_formsOf_iff.2 (.inl hd))).ne'
  refine ⟨⟨d.prefixedUnit p, hunit, rfl, rfl⟩, p.scale, PrefixFamily.factor_eq_scale hp,
    fun v x => ?_⟩
  rw [Vocabulary.convert_eq hglued hplain, convertValue_eq_ok_iff]
  -- both units have the same base values up to the factor, and those determine the value
  constructor
  · rintro ⟨-, -, b, hv, hx⟩
    have hscale := Definition.exists_toBase_unit_iff.1 ⟨b, hx⟩
    rw [Definition.toBase_prefixedUnit hscale] at hv
    exact ⟨Quantity.toBase_injective hfactor hx hv, hscale⟩
  · rintro ⟨rfl, hscale⟩
    obtain ⟨b, hb⟩ := Definition.exists_toBase_unit_iff.2 hscale
    exact ⟨rfl, hfactor, b, (Definition.toBase_prefixedUnit hscale p v).trans hb, hb⟩

/-- Thousands of degrees Celsius, which have their zero at the freezing point, are converted to
degrees by the factor alone. -/
theorem convert_prefixed_celsius :
    let celsius : Definition :=
      ⟨"celsius", ["\u00b0C"], [], 1, some (mkRat 27315 100), .temperature, .bit⟩
    let kilo : Prefix := ⟨"kilo", "k", 10, 3⟩
    ∃ r, build [celsius] .empty = .ok r ∧
      celsius.SpelledWith kilo "\u00b0C" "k\u00b0C" ∧
      (∃ u, r.unit "k\u00b0C" = .ok u ∧ u.offset = some (mkRat 27315 100)) ∧
      r.vocabulary.convert (mkRat (-3) 2) "k\u00b0C" "\u00b0C" = .ok (-1500) := by
  intro celsius kilo
  have hsize : (build [celsius] .empty >>= fun r => .ok r.size) = .ok 22 := by decide +kernel
  obtain ⟨r, hr, -⟩ := Except.bind_eq_ok_iff.1 hsize
  have hd : celsius ∈ r.definitions := by
    rw [definitions_of_build hr]
    exact List.mem_singleton_self _
  have hs : celsius.SpelledWith kilo "\u00b0C" "k\u00b0C" := by
    have hglued : kilo.symbol ++ "\u00b0C" = "k\u00b0C" := by decide +kernel
    exact hglued ▸ .symbol (List.mem_singleton_self _)
  have hp : kilo ∈ celsius.family.prefixes := by decide +kernel
  obtain ⟨⟨u, hu, -, hoffset⟩, factor, hfactor, hconvert⟩ := convert_prefixed hr hd hp hs
  have hkilo : kilo.factor = .ok 1000 := by decide +kernel
  obtain rfl : factor = 1000 := Except.ok.inj (hfactor.symm.trans hkilo)
  have hvalue : -1500 = mkRat (-3) 2 * (1000 : Number) := by decide +kernel
  have hscale : TemperatureScale.ofName? celsius.name = some .celsius := by decide +kernel
  exact ⟨r, hr, hs, ⟨u, hu, hoffset⟩, (hconvert _ _).2 ⟨hvalue, fun _ => ⟨.celsius, hscale⟩⟩⟩

end Registry

end ExactUnits
