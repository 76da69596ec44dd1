import ExactUnits.Proofs.Monomial.Exponents
import ExactUnits.Proofs.Number.Grammar
import ExactUnits.Proofs.Registry.Contents

/-!
# Loading records

A record becomes the definition that it carries, or it is refused under its own name and
source.  What a record carries is a relation: amounts are integers or texts of numbers, and
dimensions are names or exponents.  The definition is checked before it is handed over, and
nothing that is checked depends on the source, so the check when it is entered into a
registry finds nothing more, and neither do its prefixed forms.  All that is left to go wrong
are names that are taken twice and aliases that cannot be read.

A number with the exponent `-2 ^ 63` is not refused: reading it panics, and so does loading the
record.  The unit that has a name already is shown, and writing its name may panic as well.

## Main definitions

* `Amount.Denotes`, `DimensionEntry.Denotes` — the number and the dimension that were written.
* `Definition.Carries` — the definition that a record carries.
* `Definition.ReadsLeast` — records with a number that cannot be read without a panic.
* `Failure.IsDuplicate`, `Failure.IsAliasFault` — what can go wrong with valid definitions.

## Main results

* `Definition.ofRecord_eq_ok_iff` — **a record is converted if it carries a valid definition.**
* `Definition.fault_of_ofRecord` — every refusal names the record and its source.
* `Definition.ofRecord_eq_panic_iff` — **when converting a record panics.**
* `Registry.cases_of_build` — what can go wrong with valid definitions.
* `Registry.ofRecords_exact` — **loading is exact, and every error is attributed.**
-/

namespace ExactUnits

/-! ### What a record carries -/

/-- The number that was written: an integer, or the number that a text spells. -/
inductive Amount.Denotes : Amount → Number → Prop
  | integer (n : Int64) : Denotes (.integer n) (n.toInt : ℚ)
  | text {text : String} {x : Number} (h : Number.read text = .ok x) : Denotes (.text text) x

theorem Amount.toNumber_eq_ok_iff {a : Amount} {x : Number} : a.toNumber = .ok x ↔ a.Denotes x := by
  constructor
  · intro h
    cases a with
    | integer n =>
      obtain rfl := Except.ok.inj h
      exact .integer n
    | text t => exact .text (Except.mapError_eq_ok_iff.1 h)
    | float x => cases h
  · intro h
    cases h with
    | integer => rfl
    | text h => exact Except.mapError_eq_ok_iff.2 h

/-- The text of a number that makes the reader panic. -/
def Amount.ReadsLeast (a : Amount) : Prop :=
  ∃ text, a = .text text ∧ Number.read text = .error (.panic none)

theorem Amount.toNumber_eq_panic_iff {a : Amount} {unchecked : Option DefinitionFault} :
    a.toNumber = .error (.panic unchecked) ↔ unchecked = none ∧ a.ReadsLeast := by
  cases a with
  | integer n => simp [toNumber, ReadsLeast]
  | float x => simp [toNumber, ReadsLeast]
  | text t =>
    simp only [toNumber, Except.mapError_eq_error_iff, Failure.map_eq_panic_iff, ReadsLeast,
      text.injEq]
    constructor
    · rintro ⟨_, hread, inner, rfl, rfl⟩
      obtain rfl := Number.eq_none_of_read_eq_panic hread
      exact ⟨rfl, t, rfl, hread⟩
    · rintro ⟨rfl, _, rfl, hread⟩
      exact ⟨_, hread, none, rfl, rfl⟩

/-- The dimension that was written: that of pure numbers under one of its two names, a base
dimension under its own, or the one with the given exponents. -/
inductive DimensionEntry.Denotes : DimensionEntry → Dimension → Prop
  | pure {name : String} (h : name = "" ∨ name = "dimensionless") :
      Denotes (.name name) .dimensionless
  | base {name : String} (hnil : name ≠ "") (hpure : name ≠ "dimensionless") :
      Denotes (.name name) (.base name)
  | map {exponents : NameMap Exponent} {d : Dimension}
      (h : ∀ x, Monomial.exponent d x = ((exponents.find? x).map Int32.toInt).getD 0) :
      Denotes (.map exponents) d

theorem DimensionEntry.toDimension_eq_iff {e : DimensionEntry} {d : Dimension} :
    e.toDimension = d ↔ e.Denotes d := by
  constructor
  · rintro rfl
    cases e with
    | name n =>
      by_cases hpure : n = "" ∨ n = "dimensionless"
      · rw [toDimension, if_pos hpure]
        exact .pure hpure
      · rw [toDimension, if_neg hpure]
        rw [not_or] at hpure
        exact .base hpure.1 hpure.2
    | map exponents => exact .map (Monomial.exponent_ofMap exponents)
  · intro h
    cases h with
    | pure h => exact if_pos h
    | base hnil hpure => exact if_neg (not_or.2 ⟨hnil, hpure⟩)
    | @map exponents d h =>
      refine Monomial.ext_exponent fun x => ?_
      rw [toDimension, Monomial.exponent_ofMap, h]

namespace Definition

variable {r : Record} {d : Definition}

/-- The record carries the definition: the two have the same texts, the factor and the
dimension are there, and no prefix family means none. -/
structure Carries (r : Record) (d : Definition) : Prop where
  /-- The name is that of the record. -/
  name : d.name = r.name
  /-- So are the symbols. -/
  symbols : d.symbols = r.symbols
  /-- So are the aliases. -/
  aliases : d.aliases = r.aliases
  /-- The factor is there. -/
  factor : ∃ amount, r.factor = some amount ∧ amount.Denotes d.factor
  /-- The dimension is there. -/
  dimension : ∃ entry, r.dimension = some entry ∧ entry.Denotes d.dimension
  /-- The offset is that of the record, if it has one. -/
  offset : Option.Rel Amount.Denotes r.offset d.offset
  /-- The family is that of the record, if it has one. -/
  family : d.family = r.family.getD .none

/-- An amount that is reached makes the reader panic: the factor, or the offset, which is read if
there are a factor and a dimension. -/
def ReadsLeast (r : Record) : Prop :=
  (∃ amount, r.factor = some amount ∧ amount.ReadsLeast) ∨
    (∃ amount x, r.factor = some amount ∧ amount.Denotes x) ∧ r.dimension ≠ none ∧
      ∃ amount, r.offset = some amount ∧ amount.ReadsLeast

/-! ### Fields -/

section Fields

variable {ε α β : Type} {field : Option α} {fault : ε} {f : α → Except (Failure ε) β}

/-- What is required has to be there. -/
theorem elim_error_eq_ok_iff {b : β} :
    field.elim (.error (.returned fault)) f = .ok b ↔ ∃ a, field = some a ∧ f a = .ok b := by
  cases field <;> simp

/-- What is missing does not make a step panic. -/
theorem elim_error_eq_panic_iff {unchecked : Option ε} :
    field.elim (.error (.returned fault)) f = .error (.panic unchecked) ↔
      ∃ a, field = some a ∧ f a = .error (.panic unchecked) := by
  cases field <;> simp

/-- What is optional fails only if it is there. -/
theorem elim_none_eq_error_iff {failure : Failure ε} :
    field.elim (.ok none) (fun a => (f a).map some) = .error failure ↔
      ∃ a, field = some a ∧ f a = .error failure := by
  cases field with
  | none => simp
  | some a =>
    rw [Option.elim_some]
    cases h : f a <;> simp [Except.map, h]

/-- What is optional is read if it is there. -/
theorem elim_none_eq_ok_iff {b : Option β} :
    field.elim (.ok none) (fun a => (f a).map some) = .ok b ↔
      Option.Rel (fun a b => f a = .ok b) field b := by
  cases field with
  | none =>
    rw [Option.elim_none, Except.ok.injEq]
    constructor
    · rintro rfl
      exact .none
    · intro h
      cases h
      rfl
  | some a =>
    rw [Option.elim_some]
    constructor
    · intro h
      cases ha : f a with
      | error e =>
        rw [ha] at h
        cases h
      | ok b =>
        rw [ha] at h
        obtain rfl := Except.ok.inj h
        exact .some ha
    · intro h
      cases h with
      | some ha =>
        rw [ha]
        rfl

end Fields

/-! ### Conversion of a record -/

/-- The factor, the dimension and the offset are read in this order. -/
theorem ofRecordFields_eq (r : Record) :
    ofRecordFields r =
      r.factor.elim (.error (.returned .missingFactor)) Amount.toNumber >>= fun factor =>
        r.dimension.elim (.error (.returned .missingDimension))
            (fun entry => .ok entry.toDimension) >>= fun dimension =>
          r.offset.elim (.ok none) (fun amount => amount.toNumber.map some) >>= fun offset =>
            pure ⟨r.name, r.symbols, r.aliases, factor, offset, dimension,
              r.family.getD .none⟩ := by
  unfold ofRecordFields
  cases r.factor <;> cases r.dimension <;> cases r.offset <;> rfl

theorem ofRecordFields_eq_ok_iff : ofRecordFields r = .ok d ↔ Carries r d := by
  rw [ofRecordFields_eq]
  simp only [Except.bind_eq_ok_iff, Except.pure_eq_ok_iff, elim_error_eq_ok_iff,
    elim_none_eq_ok_iff, Amount.toNumber_eq_ok_iff, Except.ok.injEq, DimensionEntry.toDimension_eq_iff]
  constructor
  · rintro ⟨factor, hfactor, dimension, hdimension, offset, hoffset, rfl⟩
    exact ⟨rfl, rfl, rfl, hfactor, hdimension, hoffset, rfl⟩
  · rintro ⟨hname, hsymbols, haliases, hfactor, hdimension, hoffset, hfamily⟩
    refine ⟨d.factor, hfactor, d.dimension, hdimension, d.offset, hoffset, ?_⟩
    rw [← hname, ← hsymbols, ← haliases, ← hfamily]

theorem ofRecordFields_eq_panic_iff {unchecked : Option DefinitionFault} :
    ofRecordFields r = .error (.panic unchecked) ↔ unchecked = none ∧ ReadsLeast r := by
  rw [ofRecordFields_eq]
  simp only [Except.bind_eq_error_iff, elim_error_eq_panic_iff, elim_error_eq_ok_iff,
    elim_none_eq_error_iff, Amount.toNumber_eq_ok_iff, Amount.toNumber_eq_panic_iff, ReadsLeast]
  constructor
  · rintro (⟨amount, hamount, rfl, hleast⟩ | ⟨x, ⟨amount, hamount, hx⟩, h⟩)
    · exact ⟨rfl, .inl ⟨amount, hamount, hleast⟩⟩
    · rcases h with ⟨_, _, h⟩ | ⟨_, ⟨entry, hentry, _⟩, h⟩
      · cases h
      · rcases h with ⟨offset, hoffset, rfl, hleast⟩ | ⟨_, _, h⟩
        · exact ⟨rfl, .inr ⟨⟨amount, x, hamount, hx⟩, by simp [hentry], offset, hoffset, hleast⟩⟩
        · cases h
  · rintro ⟨rfl, ⟨amount, hamount, hleast⟩ | ⟨⟨amount, x, hamount, hx⟩, hdimension, h⟩⟩
    · exact .inl ⟨amount, hamount, rfl, hleast⟩
    · obtain ⟨offset, hoffset, hleast⟩ := h
      obtain ⟨entry, hentry⟩ := Option.ne_none_iff_exists'.1 hdimension
      exact .inr ⟨x, ⟨amount, hamount, hx⟩,
        .inr ⟨_, ⟨entry, hentry, rfl⟩, .inl ⟨offset, hoffset, rfl, hleast⟩⟩⟩

/-- What a definition is checked for does not depend on the file that is named. -/
theorem ofRecord_eq_ok_iff : ofRecord r = .ok d ↔ Carries r d ∧ d.fault? = none := by
  unfold ofRecord
  simp only [Except.bind_eq_ok_iff, Except.mapError_eq_ok_iff, Except.pure_eq_ok_iff,
    ofRecordFields_eq_ok_iff]
  constructor
  · rintro ⟨d, hcarries, ⟨⟩, hvalid, rfl⟩
    exact ⟨hcarries, validate_eq_ok_iff.1 hvalid⟩
  · rintro ⟨hcarries, hfault⟩
    exact ⟨d, hcarries, ⟨⟩, validate_eq_ok_iff.2 hfault, rfl⟩

/-- All definitions of converted records are valid. -/
theorem fault?_of_ofRecord {records : List Record} {definitions : List Definition}
    (h : List.Forall₂ (fun r d => ofRecord r = .ok d) records definitions) (hd : d ∈ definitions) :
    d.fault? = none := by
  induction h with
  | nil => cases hd
  | cons hr _ ih =>
    rcases List.mem_cons.1 hd with rfl | hd
    · exact (ofRecord_eq_ok_iff.1 hr).2
    · exact ih hd

/-- **Every refusal names the record and its source.** -/
theorem fault_of_ofRecord {e : UnitError} (h : ofRecord r = .error (.returned e)) :
    ∃ fault, e = .definition r.name (r.source.getD "<inline>") fault := by
  unfold ofRecord at h
  rcases Except.bind_eq_error_iff.1 h with h | ⟨d, hd, h⟩
  · obtain ⟨failure, -, hfailure⟩ := Except.mapError_eq_error_iff.1 h
    obtain ⟨fault, -, rfl⟩ := Failure.map_eq_returned_iff.1 hfailure
    exact ⟨fault, rfl⟩
  · have hcarries := ofRecordFields_eq_ok_iff.1 (Except.mapError_eq_ok_iff.1 hd)
    rcases Except.bind_eq_error_iff.1 h with h | ⟨-, -, h⟩
    · obtain ⟨error, herror, hreturned⟩ := Except.mapError_returned_eq_error_iff.1 h
      obtain rfl := Failure.returned.inj hreturned
      -- the fields are there, and the check of the definition refuses
      unfold validate at herror
      split at herror
      · next fault _ =>
        obtain rfl := Except.error.inj herror
        exact ⟨fault, by rw [hcarries.name]; rfl⟩
      · cases herror
    · cases h

/-- **Converting a record panics exactly if a number that is reached makes the reader panic.** -/
theorem ofRecord_eq_panic_iff {unchecked : Option UnitError} :
    ofRecord r = .error (.panic unchecked) ↔ unchecked = none ∧ ReadsLeast r := by
  unfold ofRecord
  rw [Except.bind_eq_error_iff, Except.mapError_eq_error_iff]
  constructor
  · rintro (⟨failure, hfields, hfailure⟩ | ⟨d, -, h⟩)
    · obtain ⟨inner, rfl, rfl⟩ := Failure.map_eq_panic_iff.1 hfailure
      obtain ⟨rfl, hleast⟩ := ofRecordFields_eq_panic_iff.1 hfields
      exact ⟨rfl, hleast⟩
    · -- the check returns its errors
      rcases Except.bind_eq_error_iff.1 h with h | ⟨-, -, h⟩
      · obtain ⟨_, -, hreturned⟩ := Except.mapError_returned_eq_error_iff.1 h
        cases hreturned
      · cases h
  · rintro ⟨rfl, hleast⟩
    exact .inl ⟨.panic none, ofRecordFields_eq_panic_iff.2 ⟨rfl, hleast⟩, rfl⟩

end Definition

/-! ### What can go wrong with valid definitions -/

/-- A name is already taken, by a unit that the error shows. -/
def Failure.IsDuplicate (failure : Failure UnitError) : Prop :=
  ∃ (name : String) (existing : UnitOfMeasure),
    failure = .showing [existing.name] (.duplicate name existing.toText)

/-- An alias cannot be used. -/
def Failure.IsAliasFault (failure : Failure UnitError) : Prop :=
  ∃ name fault, failure = .returned (.definition name "<aliases>" fault)

namespace UnitTable

variable {table : UnitTable} {failure : Failure UnitError}

theorem isDuplicate_of_add {name : String} {unit : UnitOfMeasure}
    (h : table.add name unit = .error failure) : failure.IsDuplicate := by
  unfold add at h
  split at h
  · next existing _ => exact ⟨name, existing, (Except.error.inj h).symm⟩
  · cases h

/-- A valid definition is refused only for a name that is taken, with or without a prefix. -/
theorem isDuplicate_of_addDefinition {d : Definition} (hvalid : d.fault? = none)
    (h : table.addDefinition d = .error failure) : failure.IsDuplicate := by
  unfold addDefinition at h
  rw [Definition.validate_eq_ok_iff.2 hvalid, Except.mapError_ok, Except.ok_bind,
    addUnit_eq_addAll] at h
  exact Except.error_of_foldlM Failure.IsDuplicate (fun _ _ _ _ => isDuplicate_of_add) h

theorem cases_of_addAlias {name target : String} (h : table.addAlias name target = .error failure) :
    failure.IsDuplicate ∨ failure.IsAliasFault := by
  unfold addAlias at h
  split at h
  · exact .inl (isDuplicate_of_add h)
  · exact .inr ⟨name, _, (Except.error.inj h).symm⟩

end UnitTable

namespace Registry

/-- **With valid definitions, a registry fails for a name that is taken or for an alias.** -/
theorem cases_of_build {definitions : List Definition} {aliases : NameMap String}
    (hvalid : ∀ d ∈ definitions, d.fault? = none) {failure : Failure UnitError}
    (h : build definitions aliases = .error failure) :
    failure.IsDuplicate ∨ failure.IsAliasFault := by
  unfold build at h
  rcases Except.bind_eq_error_iff.1 h with h | ⟨defined, -, h⟩
  · refine .inl (Except.error_of_foldlM Failure.IsDuplicate ?_ h)
    intro table d failure hd
    exact UnitTable.isDuplicate_of_addDefinition (hvalid d hd)
  · rcases Except.bind_eq_error_iff.1 h with h | ⟨table, -, h⟩
    · refine Except.error_of_foldlM (fun failure => failure.IsDuplicate ∨ failure.IsAliasFault) ?_ h
      intro table entry failure _
      exact UnitTable.cases_of_addAlias
    · cases h

/-- **Loading is exact, and every error is attributed.**  A record is converted exactly if it
carries a definition without a blank text, with a positive factor and with no offset unless it
measures plain temperatures; the result is this definition, and it passes every further check.
A record that is not converted is refused under its own name and source, unless a number in it
makes the reader panic.  Of a list of records the first one that is not converted ends the loading
in the same way; if there is none, the registry is that of the definitions, and can fail only for
a name that is taken or for an alias. -/
theorem ofRecords_exact (r : Record) (records : List Record) (aliases : NameMap String) :
    ((∀ d, Definition.ofRecord r = .ok d ↔ Definition.Carries r d ∧
        (∀ text ∈ r.name :: r.symbols ++ r.aliases, Definition.isBlankText text = false) ∧
          0 < d.factor ∧ (d.offset ≠ none → d.dimension = .temperature)) ∧
      (∀ d file, Definition.ofRecord r = .ok d → d.validate file = .ok ()) ∧
      (∀ e, Definition.ofRecord r = .error (.returned e) →
        ∃ fault, e = .definition r.name (r.source.getD "<inline>") fault) ∧
      ∀ unchecked, Definition.ofRecord r = .error (.panic unchecked) ↔
        unchecked = none ∧ Definition.ReadsLeast r) ∧
    ((∃ before first after failure, records = before ++ first :: after ∧
        (∀ r' ∈ before, ∃ d, Definition.ofRecord r' = .ok d) ∧
          Definition.ofRecord first = .error failure ∧ ofRecords records aliases = .error failure) ∨
      ∃ definitions, List.Forall₂ (fun r d => Definition.ofRecord r = .ok d) records definitions ∧
        ofRecords records aliases = build definitions aliases ∧
          ∀ failure, build definitions aliases = .error failure →
            failure.IsDuplicate ∨ failure.IsAliasFault) := by
  refine ⟨⟨?_, ?_, fun e => Definition.fault_of_ofRecord,
    fun unchecked => Definition.ofRecord_eq_panic_iff⟩, ?_⟩
  · intro d
    rw [Definition.ofRecord_eq_ok_iff]
    refine and_congr_right fun hcarries => ?_
    have hspellings : d.spellings = r.name :: r.symbols ++ r.aliases := by
      rw [Definition.spellings, hcarries.name, hcarries.symbols, hcarries.aliases]
    rw [Definition.fault?_eq_none_iff, hspellings, Option.isSome_iff_ne_none, Dimension.isTemperature,
      beq_iff_eq]
  · intro d file h
    exact Definition.validate_eq_ok_iff.2 (Definition.ofRecord_eq_ok_iff.1 h).2
  · unfold ofRecords
    rcases Except.mapM_outcome Definition.ofRecord records with
      ⟨definitions, hall, hmap⟩ | ⟨before, first, after, failure, rfl, hbefore, hfirst, hmap⟩
    · -- what is converted is valid, so only names and aliases are left to fail
      have hvalid : ∀ d ∈ definitions, d.fault? = none := fun d =>
        Definition.fault?_of_ofRecord hall
      refine .inr ⟨definitions, hall, ?_, fun failure => cases_of_build hvalid⟩
      rw [hmap, Except.ok_bind]
    · refine .inl ⟨before, first, after, failure, rfl, hbefore, hfirst, ?_⟩
      rw [hmap]
      rfl

/-- A record of degrees Celsius is converted, and one of feet with a blank alias is refused under
its own name and source. -/
theorem ofRecords_exact_celsius :
    let celsius : Record := ⟨"celsius", ["\u00b0C"], [], some (.integer 1), some (.text "273.15"),
      some (.name "temperature"), none, none⟩
    let foot : Record := ⟨"foot", [], [" "], some (.text "0.3048"), none,
      some (.map (.single "length" 1)), none, some "imperial.toml"⟩
    let degree : Definition :=
      ⟨"celsius", ["\u00b0C"], [], 1, some (mkRat 27315 100), .temperature, .none⟩
    (Definition.ofRecord celsius = .ok degree ∧ degree.validate "<inline>" = .ok ()) ∧
      (∃ fault, Definition.ofRecord foot =
        .error (.returned (.definition "foot" "imperial.toml" fault))) ∧
      ∃ definitions, ofRecords [celsius] .empty = build definitions .empty := by
  intro celsius foot degree
  obtain ⟨⟨hiff, hvalid, -⟩, hrecords⟩ := ofRecords_exact celsius [celsius] .empty
  obtain ⟨⟨-, -, hfault, -⟩, -⟩ := ofRecords_exact foot [] .empty
  have hcarries : Definition.Carries celsius degree :=
    ⟨rfl, rfl, rfl, ⟨_, rfl, Amount.toNumber_eq_ok_iff.1 (by decide +kernel)⟩,
      ⟨_, rfl, .base (by decide) (by decide)⟩, .some (.text (by decide +kernel)), rfl⟩
  have hconverted : Definition.ofRecord celsius = .ok degree :=
    (hiff degree).2 ⟨hcarries, by decide +kernel, by decide +kernel, fun _ => rfl⟩
  refine ⟨⟨hconverted, hvalid degree "<inline>" hconverted⟩, ?_, ?_⟩
  · have hrefused : ∃ e, Definition.ofRecord foot = .error (.returned e) :=
      ⟨.definition "foot" "imperial.toml" (.blankSpelling " "), by decide +kernel⟩
    obtain ⟨e, he⟩ := hrefused
    obtain ⟨fault, rfl⟩ := hfault e he
    exact ⟨fault, he⟩
  · rcases hrecords with
      ⟨before, r, after, e, hlist, -, hr, -⟩ | ⟨definitions, -, hbuild, -⟩
    · -- the only record is converted
      have hmem : r ∈ [celsius] := by
        rw [hlist]
        exact List.mem_append_right before (List.mem_cons_self ..)
      rw [List.mem_singleton.1 hmem, hconverted] at hr
      cases hr
    · exact ⟨definitions, hbuild⟩

/-- A record whose factor has the exponent `-2 ^ 63` is neither converted nor refused: reading the
factor panics in every build. -/
theorem ofRecords_exact_least :
    let tiny : Record := ⟨"tiny", [], [], some (.text "1e-9223372036854775808"), none,
      some (.name "length"), none, none⟩
    (∀ e, Definition.ofRecord tiny ≠ .error (.returned e)) ∧
      (∀ d, Definition.ofRecord tiny ≠ .ok d) ∧
      Definition.ofRecord tiny = .error (.panic none) ∧
      ofRecords [tiny] .empty = .error (.panic none) := by
  intro tiny
  have hread : Number.read "1e-9223372036854775808" = .error (.panic none) := by decide +kernel
  have hpanic : Definition.ofRecord tiny = .error (.panic none) :=
    Definition.ofRecord_eq_panic_iff.2 ⟨rfl, .inl ⟨_, rfl, _, rfl, hread⟩⟩
  have hrecords : ofRecords [tiny] .empty = .error (.panic none) := by
    unfold ofRecords
    rw [List.mapM_cons, hpanic]
    rfl
  refine ⟨fun e h => ?_, fun d h => ?_, hpanic, hrecords⟩
  · rw [hpanic] at h
    cases h
  · rw [hpanic] at h
    cases h

end Registry

end ExactUnits
