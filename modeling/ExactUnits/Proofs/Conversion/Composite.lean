import ExactUnits.Proofs.Conversion.Compatible
import ExactUnits.Proofs.Vocabulary.Joined

/-!
# Temperatures in composite units

In `t*a/b` a unit of temperature is scaled by the ratio of two units of one dimension.  The
reader refuses units with an offset there, but it does not look at names, and a conversion
does: the plain unit `t` is on the scale that its name ends in, with the published zero and
degree of that scale if the unit has no offset, while the composite is on the scale of kelvin
unless it cancels to a single name.  So the composite stands for the plain unit, scaled, exactly
if both are on one scale.  This is so where no temperature without an offset is on another scale
than kelvin; but a registry can be built in which it is not, from a definition that is named
`celsius` and has no offset.

## Main definitions

* `Registry.IsTermKey`, `Registry.ReadsScaled` — keys that are terms, and a temperature that is
  scaled by a ratio of two of them.

## Main results

* `Registry.ReadsScaled.exists_mul_div` — what a composite of three keys is read as.
* `Registry.ReadsScaled.toBase_eq_iff` — base values agree exactly on one scale.
* `Registry.convert_composite` — **composite and plain temperatures are converted alike exactly
  if they are on one scale.**
* `Registry.convert_composite_celsius` — they are not in every registry.
* `Registry.ReadsScaled.eq_of_onKelvin` — **they are where temperatures without an offset are
  on the scale of kelvin.**
-/

namespace ExactUnits

/-! ### Scales -/

/-- The degree and the zero determine the scale. -/
theorem TemperatureScale.eq_of_degree_of_origin {scale scale' : TemperatureScale}
    (hdegree : scale.degree = scale'.degree)
    (horigin : scale.publishedOrigin = scale'.publishedOrigin) : scale = scale' := by
  revert hdegree horigin
  cases scale <;> cases scale' <;> decide +kernel

/-! ### Composites of three keys -/

namespace Registry

/-- A key that is a term of expressions. -/
structure IsTermKey (r : Registry) (key : String) (u : UnitOfMeasure) : Prop where
  /-- The key stands for the unit. -/
  lookup : r.table[key]? = some u
  /-- The text `1` is no unit in an expression, even if it is a key. -/
  ne_one : key ≠ "1"
  /-- The key is not cut at a star. -/
  star : '*' ∉ key.toList
  /-- The key is not cut at a bar. -/
  bar : '/' ∉ key.toList

/-- The text `t*a/b` is read as `c`, where `t` is a temperature and `a` and `b` have one
dimension. -/
structure ReadsScaled (r : Registry) (t a b : String) (ut ua ub c : UnitOfMeasure) : Prop where
  /-- The unit that is scaled. -/
  plain : r.IsTermKey t ut
  /-- The unit above the bar. -/
  upper : r.IsTermKey a ua
  /-- The unit below the bar. -/
  lower : r.IsTermKey b ub
  /-- The unit that is scaled measures temperature. -/
  temperature : ut.dimension.isTemperature = true
  /-- The other units cancel. -/
  same : ua.dimension = ub.dimension
  /-- The text is not known as a whole. -/
  unknown : t ++ "*" ++ a ++ "/" ++ b ∉ r.table
  /-- The text is read. -/
  read : r.readUnit (t ++ "*" ++ a ++ "/" ++ b) = .ok c

variable {definitions : List Definition} {aliases : NameMap String} {r : Registry}
  {t a b w : String} {ut ua ub uw c : UnitOfMeasure}

theorem IsTermKey.eq_of_termUnit {key : String} {u v : UnitOfMeasure} (h : r.IsTermKey key u)
    (hterm : Vocabulary.TermUnit r.vocabulary key.toList v) :
    v = u ∧ u.offset = none ∧ key.toList ≠ [] := by
  have hfind : r.vocabulary.find? key.toList = some u := by
    rw [Vocabulary.find?_toList]
    exact h.lookup
  have hone : key.toList ≠ ['1'] := by
    intro heq
    exact h.ne_one (String.toList_inj.1 heq)
  generalize key.toList = term at hterm hfind hone ⊢
  cases hterm with
  | one => exact absurd rfl hone
  | read hnil _ hread hlinear =>
    obtain rfl := Except.ok.inj ((Vocabulary.readTerm_of_find? hfind).symm.trans (hread ""))
    exact ⟨rfl, hlinear, hnil⟩

theorem IsTermKey.eq_of_readProduct {key source : String} {u v : UnitOfMeasure}
    (h : r.IsTermKey key u) (hread : r.vocabulary.readProduct source key.toList = .ok v) :
    v = u := by
  obtain ⟨units, hunits, hproduct, -⟩ := Vocabulary.exists_units_of_readProduct hread
  rw [List.splitOn_eq_singleton h.star] at hunits
  rcases hunits with _ | ⟨hterm, hunits⟩
  rcases hunits
  obtain ⟨rfl, hlinear, -⟩ := h.eq_of_termUnit hterm
  rw [UnitOfMeasure.mulAll_singleton, UnitOfMeasure.one_mul_of_linear hlinear] at hproduct
  exact (Except.ok.inj hproduct).symm

/-- Two keys around a star are the product of their units, and the first is not empty. -/
theorem IsTermKey.mul_of_readProduct {source : String} {v : UnitOfMeasure} (ht : r.IsTermKey t ut)
    (ha : r.IsTermKey a ua)
    (hread : r.vocabulary.readProduct source (t.toList ++ '*' :: a.toList) = .ok v) :
    ut.mul ua = .ok v ∧ ut.offset = none ∧ t.toList ≠ [] := by
  obtain ⟨units, hunits, hproduct, -⟩ := Vocabulary.exists_units_of_readProduct hread
  rw [List.splitOn_append_cons_self, List.splitOn_eq_singleton ht.star,
    List.splitOn_eq_singleton ha.star] at hunits
  rcases hunits with _ | ⟨hterm, hunits⟩
  rcases hunits with _ | ⟨hterm', hunits⟩
  rcases hunits
  obtain ⟨rfl, hlinear, hnil⟩ := ht.eq_of_termUnit hterm
  obtain ⟨rfl, -, -⟩ := ha.eq_of_termUnit hterm'
  rw [UnitOfMeasure.mulAll_cons, UnitOfMeasure.one_mul_of_linear hlinear, Except.ok_bind,
    UnitOfMeasure.mulAll_singleton] at hproduct
  exact ⟨hproduct, hlinear, hnil⟩

/-- **What the text is read as**: a product and a quotient of the units of the keys, and the unit
that is scaled has no offset. -/
theorem ReadsScaled.exists_mul_div (h : build definitions aliases = .ok r)
    (hc : r.ReadsScaled t a b ut ua ub c) :
    r.readUnit t = .ok ut ∧ ut.offset = none ∧
      ∃ product, ut.mul ua = .ok product ∧ product.div ub = .ok c := by
  have ht := hc.plain
  have ha := hc.upper
  have hb := hc.lower
  have htext : (t ++ "*" ++ a).toList = t.toList ++ '*' :: a.toList := by simp
  have hnormal : IsNormal (t ++ "*" ++ a).toList := by
    rw [htext]
    exact (isNormal_of_table h ht.lookup).append_mark_cons (by decide)
      (isNormal_of_table h ha.lookup)
  have hbar : '/' ∉ (t ++ "*" ++ a).toList := by simp [ht.bar, ha.bar]
  have hread := hc.read
  -- the text is a quotient, and its numerator a product of two keys
  rw [readUnit_bar hnormal (isNormal_of_table h hb.lookup) hbar hb.bar hc.unknown, htext] at hread
  obtain ⟨numerator, hnumerator, hread⟩ := Except.bind_eq_ok_iff.1 hread
  obtain ⟨denominator, hdenominator, hdiv⟩ := Except.bind_eq_ok_iff.1 hread
  obtain ⟨hmul, hlinear, hnil⟩ := ht.mul_of_readProduct ha hnumerator
  obtain rfl := hb.eq_of_readProduct hdenominator
  exact ⟨readUnit_key h ht.lookup hnil, hlinear, numerator, hmul, hdiv⟩

theorem ReadsScaled.linear (h : build definitions aliases = .ok r)
    (hc : r.ReadsScaled t a b ut ua ub c) : c.dimension.isTemperature = true ∧ c.offset = none := by
  obtain ⟨-, -, product, hmul, hdiv⟩ := hc.exists_mul_div h
  obtain ⟨-, -, hdimension, -⟩ := UnitOfMeasure.mul_eq_ok_iff.1 hmul
  obtain ⟨-, -, hdimension', hoffset⟩ := UnitOfMeasure.div_eq_ok_iff.1 hdiv
  have hequal : c.dimension = ut.dimension := by
    refine Monomial.ext_exponent fun x => ?_
    rw [(Monomial.div_eq_ok_iff.1 hdimension').2, Monomial.mul_eq_ok_iff.1 hdimension, hc.same]
    exact add_sub_cancel_right _ _
  exact ⟨hequal ▸ hc.temperature, hoffset⟩

/-- To scale a value by the factors of the keys is to take it in the unit that is read. -/
theorem ReadsScaled.scaled (h : build definitions aliases = .ok r)
    (hc : r.ReadsScaled t a b ut ua ub c) (v : Number) :
    v * ua.factor / ub.factor * ut.factor = v * c.factor := by
  obtain ⟨-, -, product, hmul, hdiv⟩ := hc.exists_mul_div h
  obtain ⟨-, hfactor, -⟩ := UnitOfMeasure.mul_eq_ok_iff.1 hmul
  obtain ⟨-, ⟨-, hfactor'⟩, -⟩ := UnitOfMeasure.div_eq_ok_iff.1 hdiv
  rw [hfactor', hfactor]
  ring

/-! ### Agreement -/

/-- Composite and plain temperatures have the same base values exactly if they are on one
scale. -/
theorem ReadsScaled.toBase_eq_iff (h : build definitions aliases = .ok r)
    (hc : r.ReadsScaled t a b ut ua ub c) {scale scale' : TemperatureScale}
    (hscale : TemperatureScale.ofUnit ut = .ok scale)
    (hscale' : TemperatureScale.ofUnit c = .ok scale') :
    (∀ v : Number, (⟨v, c⟩ : Quantity).toBase =
      (⟨v * ua.factor / ub.factor, ut⟩ : Quantity).toBase) ↔ scale' = scale := by
  obtain ⟨-, hlinear, -⟩ := hc.exists_mul_div h
  obtain ⟨htemperature, hoffset⟩ := hc.linear h
  simp only [Quantity.toBase_of_scale htemperature hoffset hscale',
    Quantity.toBase_of_scale hc.temperature hlinear hscale, hc.scaled h, Except.ok.injEq]
  constructor
  · intro hagree
    have hne : c.factor ≠ 0 :=
      (known_of_supplies h (.inl ⟨_, hc.read⟩)).factor_ne_zero (wellNamed_of_build h)
    -- the values zero and one on the scale of kelvin tell all scales apart
    have hnothing := hagree 0
    have hone := hagree c.factor⁻¹
    rw [inv_mul_cancel₀ hne] at hone
    rw [zero_mul, zero_add, zero_add] at hnothing
    have hdegree : scale'.degree = scale.degree := by linear_combination hone - hnothing
    rw [hdegree] at hnothing
    have horigin := mul_right_cancel₀ scale.degree_ne_zero hnothing
    exact TemperatureScale.eq_of_degree_of_origin hdegree horigin
  · rintro rfl v
    rfl

/-- On one scale, composite and plain temperatures are converted alike. -/
theorem ReadsScaled.eq_of_convert (h : build definitions aliases = .ok r)
    (hc : r.ReadsScaled t a b ut ua ub c)
    (hscale : ∀ scale scale', TemperatureScale.ofUnit ut = .ok scale →
      TemperatureScale.ofUnit c = .ok scale' → scale' = scale) {v x y : Number}
    (hx : r.vocabulary.convert v (t ++ "*" ++ a ++ "/" ++ b) w = .ok x)
    (hy : r.vocabulary.convert (v * ua.factor / ub.factor) t w = .ok y) : x = y := by
  obtain ⟨uw, hw⟩ : ∃ uw, r.readUnit w = .ok uw := by
    obtain ⟨_, _, hx⟩ := Except.bind_eq_ok_iff.1 hx
    obtain ⟨uw, hw, -⟩ := Except.bind_eq_ok_iff.1 hx
    exact ⟨uw, Except.mapError_eq_ok_iff.1 hw⟩
  obtain ⟨ht, -⟩ := hc.exists_mul_div h
  rw [Vocabulary.convert_eq hc.read hw, convertValue_eq_ok_iff] at hx
  rw [Vocabulary.convert_eq ht hw, convertValue_eq_ok_iff] at hy
  obtain ⟨-, hne, base, hbase, hxbase⟩ := hx
  obtain ⟨-, -, base', hbase', hybase⟩ := hy
  obtain ⟨scale', hscale'⟩ := Quantity.exists_scale_of_toBase (hc.linear h).1 hbase
  obtain ⟨scale, hscale''⟩ := Quantity.exists_scale_of_toBase hc.temperature hbase'
  have hagree := (hc.toBase_eq_iff h hscale'' hscale').2 (hscale _ _ hscale'' hscale') v
  obtain rfl : base = base' := Except.ok.inj (hbase.symm.trans (hagree.trans hbase'))
  exact Quantity.toBase_injective hne hxbase hybase

/-- **Composite and plain temperatures are converted alike exactly if they are on one scale.**
Let `t*a/b` be read, where `t` and `w` are temperatures and `a` and `b` have one dimension.  To
convert a value of `t*a/b` to `w` is to convert it, scaled by the factors of `a` and `b`, from
`t` to `w`, whenever both conversions succeed, if and only if the composite is on the scale of
`t` as soon as these two and `w` are on some scale. -/
theorem convert_composite {definitions : List Definition} {aliases : NameMap String}
    {r : Registry} (h : build definitions aliases = .ok r) {t a b w : String}
    {ut ua ub uw c : UnitOfMeasure} (hc : r.ReadsScaled t a b ut ua ub c)
    (hw : r.readUnit w = .ok uw) (htemperature : uw.dimension.isTemperature = true) :
    (∀ v x y, r.vocabulary.convert v (t ++ "*" ++ a ++ "/" ++ b) w = .ok x →
      r.vocabulary.convert (v * ua.factor / ub.factor) t w = .ok y → x = y) ↔
        ∀ scale scale' scale'', TemperatureScale.ofUnit ut = .ok scale →
          TemperatureScale.ofUnit c = .ok scale' → TemperatureScale.ofUnit uw = .ok scale'' →
            scale' = scale := by
  obtain ⟨ht, hlinear, -⟩ := hc.exists_mul_div h
  obtain ⟨htemperature', hoffset⟩ := hc.linear h
  constructor
  · intro hagree scale scale' scale'' hscale hscale' hscale''
    refine (hc.toBase_eq_iff h hscale hscale').1 fun v => ?_
    have hne : uw.factor ≠ 0 :=
      (known_of_supplies h (.inl ⟨_, hw⟩)).factor_ne_zero (wellNamed_of_build h)
    have hdimension : ∀ {u : UnitOfMeasure}, u.dimension.isTemperature = true →
        u.dimension = uw.dimension := by
      intro u hu
      rw [Dimension.isTemperature, beq_iff_eq] at hu htemperature
      rw [hu, htemperature]
    -- both base values are those of values of `w`, which are equal
    have hbase := Quantity.toBase_of_scale htemperature' hoffset hscale' v
    have hbase' := Quantity.toBase_of_scale hc.temperature hlinear hscale
      (v * ua.factor / ub.factor)
    obtain ⟨x, hx⟩ := Quantity.exists_toBase_eq htemperature hne hscale'' _
    obtain ⟨y, hy⟩ := Quantity.exists_toBase_eq htemperature hne hscale'' _
    have hequal : x = y := by
      refine hagree v x y ?_ ?_
      · rw [Vocabulary.convert_eq hc.read hw, convertValue_eq_ok_iff]
        exact ⟨hdimension htemperature', hne, _, hbase, hx⟩
      · rw [Vocabulary.convert_eq ht hw, convertValue_eq_ok_iff]
        exact ⟨hdimension hc.temperature, hne, _, hbase', hy⟩
    rw [hbase, hbase', ← hx, ← hy, hequal]
  · intro hscale v x y hx hy
    obtain ⟨base, hbase⟩ : ∃ base, (⟨x, uw⟩ : Quantity).toBase = .ok base := by
      rw [Vocabulary.convert_eq hc.read hw, convertValue_eq_ok_iff] at hx
      obtain ⟨-, -, base, -, hbase⟩ := hx
      exact ⟨base, hbase⟩
    obtain ⟨scale'', hscale''⟩ := Quantity.exists_scale_of_toBase htemperature hbase
    refine hc.eq_of_convert h (fun scale scale' hplain hcomposite => ?_) hx hy
    exact hscale scale scale' scale'' hplain hcomposite hscale''

/-- With kelvin, kelvin seconds per minute are converted to Celsius as kelvins are. -/
theorem convert_composite_kelvin :
    let kelvin : Definition := ⟨"kelvin", ["K"], [], 1, none, .temperature, .none⟩
    let celsius : Definition :=
      ⟨"celsius", [], [], 1, some (mkRat 27315 100), .temperature, .none⟩
    let second : Definition := ⟨"second", ["s"], [], 1, none, .base "time", .none⟩
    let minute : Definition := ⟨"minute", ["min"], [], 60, none, .base "time", .none⟩
    ∃ r c, build [kelvin, celsius, second, minute] .empty = .ok r ∧
      r.ReadsScaled "K" "s" "min" kelvin.unit second.unit minute.unit c ∧
      r.vocabulary.convert 60 "K*s/min" "celsius" = .ok (mkRat (-27215) 100) ∧
      ∀ v x y, r.vocabulary.convert v "K*s/min" "celsius" = .ok x →
        r.vocabulary.convert (v * second.unit.factor / minute.unit.factor) "K" "celsius" = .ok y →
          x = y := by
  intro kelvin celsius second minute
  let c : UnitOfMeasure := ⟨.ofList [("kelvin", 1), ("minute", -1), ("second", 1)], mkRat 1 60,
    .temperature, none⟩
  have hlookups : (build [kelvin, celsius, second, minute] .empty >>= fun r =>
      .ok (["K", "s", "min"].map (r.table[·]?))) =
        .ok [some kelvin.unit, some second.unit, some minute.unit] := by decide +kernel
  have hread : (build [kelvin, celsius, second, minute] .empty >>= fun r =>
      .ok (r.readUnit "K*s/min", r.readUnit "celsius")) = .ok (.ok c, .ok celsius.unit) := by
    decide +kernel
  have hconvert : (build [kelvin, celsius, second, minute] .empty >>= fun r =>
      r.vocabulary.convert 60 "K*s/min" "celsius") = .ok (mkRat (-27215) 100) := by decide +kernel
  obtain ⟨r, hr, hkeys⟩ := Except.bind_eq_ok_iff.1 hlookups
  rw [hr, Except.ok_bind] at hread hconvert
  obtain ⟨hread, htarget⟩ := Prod.mk.inj (Except.ok.inj hread)
  simp only [List.map_cons, List.map_nil, Except.ok.injEq, List.cons.injEq, and_true] at hkeys
  obtain ⟨ht, ha, hb⟩ := hkeys
  have hunknown : "K" ++ "*" ++ "s" ++ "/" ++ "min" ∉ r.table :=
    fun hmem => absurd (mem_keys_of_table hr hmem) (by decide +kernel)
  have hc : r.ReadsScaled "K" "s" "min" kelvin.unit second.unit minute.unit c :=
    ⟨⟨ht, by decide, by decide, by decide⟩, ⟨ha, by decide, by decide, by decide⟩,
      ⟨hb, by decide, by decide, by decide⟩, by decide +kernel, by decide +kernel, hunknown, hread⟩
  refine ⟨r, c, hr, hc, hconvert, ?_⟩
  refine (convert_composite hr hc htarget (by decide +kernel)).2 ?_
  intro scale scale' scale'' hscale hscale' _
  have hkelvin : TemperatureScale.ofUnit kelvin.unit = .ok .kelvin := by decide +kernel
  have hkelvin' : TemperatureScale.ofUnit c = .ok .kelvin := by decide +kernel
  exact (Except.ok.inj (hscale'.symm.trans hkelvin')).trans
    (Except.ok.inj (hscale.symm.trans hkelvin)).symm

/-- **They are not in every registry.**  A definition named `celsius` is valid without an offset,
and then `celsius*second/minute` is read.  Sixty of it are one kelvin, but one degree Celsius is
274.15 kelvin. -/
theorem convert_composite_celsius :
    let celsius : Definition := ⟨"celsius", [], [], 1, none, .temperature, .none⟩
    let kelvin : Definition := ⟨"kelvin", [], [], 1, none, .temperature, .none⟩
    let second : Definition := ⟨"second", [], [], 1, none, .base "time", .none⟩
    let minute : Definition := ⟨"minute", [], [], 60, none, .base "time", .none⟩
    ∃ r c, build [celsius, kelvin, second, minute] .empty = .ok r ∧
      r.ReadsScaled "celsius" "second" "minute" celsius.unit second.unit minute.unit c ∧
      r.IsTermKey "kelvin" kelvin.unit ∧ second.unit.offset = none ∧ minute.unit.offset = none ∧
      r.vocabulary.convert 60 "celsius*second/minute" "kelvin" = .ok 1 ∧
      r.vocabulary.convert (60 * second.unit.factor / minute.unit.factor) "celsius" "kelvin" =
        .ok (mkRat 5483 20) ∧
      (1 : Number) ≠ mkRat 5483 20 := by
  intro celsius kelvin second minute
  let c : UnitOfMeasure := ⟨.ofList [("celsius", 1), ("minute", -1), ("second", 1)], mkRat 1 60,
    .temperature, none⟩
  have hlookups : (build [celsius, kelvin, second, minute] .empty >>= fun r =>
      .ok (["celsius", "second", "minute", "kelvin"].map (r.table[·]?))) =
        .ok [some celsius.unit, some second.unit, some minute.unit, some kelvin.unit] := by
    decide +kernel
  have hread : (build [celsius, kelvin, second, minute] .empty >>= fun r =>
      .ok (r.readUnit "celsius*second/minute")) = .ok (.ok c) := by decide +kernel
  have hcomposite : (build [celsius, kelvin, second, minute] .empty >>= fun r =>
      r.vocabulary.convert 60 "celsius*second/minute" "kelvin") = .ok 1 := by decide +kernel
  have hplain : (build [celsius, kelvin, second, minute] .empty >>= fun r =>
      r.vocabulary.convert (60 * second.unit.factor / minute.unit.factor) "celsius" "kelvin") =
        .ok (mkRat 5483 20) := by decide +kernel
  obtain ⟨r, hr, hkeys⟩ := Except.bind_eq_ok_iff.1 hlookups
  rw [hr, Except.ok_bind] at hread hcomposite hplain
  have hread := Except.ok.inj hread
  simp only [List.map_cons, List.map_nil, Except.ok.injEq, List.cons.injEq, and_true] at hkeys
  obtain ⟨ht, ha, hb, hw⟩ := hkeys
  have hunknown : "celsius" ++ "*" ++ "second" ++ "/" ++ "minute" ∉ r.table :=
    fun hmem => absurd (mem_keys_of_table hr hmem) (by decide +kernel)
  have hc : r.ReadsScaled "celsius" "second" "minute" celsius.unit second.unit minute.unit c :=
    ⟨⟨ht, by decide, by decide, by decide⟩, ⟨ha, by decide, by decide, by decide⟩,
      ⟨hb, by decide, by decide, by decide⟩, by decide +kernel, by decide +kernel, hunknown, hread⟩
  exact ⟨r, c, hr, hc, ⟨hw, by decide, by decide, by decide⟩, rfl, rfl, hcomposite, hplain,
    by decide +kernel⟩

/-- **Composite and plain temperatures are converted alike where temperatures without an offset
are on the scale of kelvin.** -/
theorem ReadsScaled.eq_of_onKelvin (h : build definitions aliases = .ok r)
    (hkelvin : OnKelvin definitions) (hc : r.ReadsScaled t a b ut ua ub c) {v x y : Number}
    (hx : r.vocabulary.convert v (t ++ "*" ++ a ++ "/" ++ b) w = .ok x)
    (hy : r.vocabulary.convert (v * ua.factor / ub.factor) t w = .ok y) : x = y := by
  obtain ⟨ht, hlinear, -⟩ := hc.exists_mul_div h
  obtain ⟨htemperature, hoffset⟩ := hc.linear h
  have hnamed := wellNamed_of_build h
  refine hc.eq_of_convert h ?_ hx hy
  intro scale scale' hscale hscale'
  have hplain := known_of_supplies h (.inl ⟨_, ht⟩)
  have hcomposite := known_of_supplies h (.inl ⟨_, hc.read⟩)
  rw [hplain.scale_eq_kelvin hnamed hkelvin hlinear hc.temperature hscale,
    hcomposite.scale_eq_kelvin hnamed hkelvin hoffset htemperature hscale']

end Registry

end ExactUnits
