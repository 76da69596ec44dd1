import ExactUnits.Serial.Codec
import ExactUnits.Proofs.Number.Written
import ExactUnits.Proofs.Outcome

/-!
# Encoded values are decoded as themselves

What is encoded can always be decoded, and nothing is lost: numbers are written exactly, the
entries of a map are encoded in the order in which they are stored, and a member that is left out
or null stands for a value that is absent.  The forms that a member can take exclude each other,
an integer and a text, or a name and a map, so the decoder never mistakes one for another.  The
converse does not hold, since a value can be spelled in many ways; but a value that was decoded
from any of them is encoded in the one way that is decoded as it.

## Main definitions

* `Json.Recodes` — a JSON value that is decoded and encoded stands for what it stood for.
* `Record.IsExact` — records without floating-point numbers.

## Main results

* `NameMap.ofList_entries`, `NameMap.ofJson_toJson` — maps keep their entries.
* `Json.optional_of_field` — a member that may be absent.
* `Json.decode_encode` — **numbers, dimensions, units, quantities and records are decoded from
  their encodings as themselves.**
-/

namespace ExactUnits

/-! ### Lists and maps -/

theorem mapM_map_eq_ok {α β : Type} {encode : α → β} {decode : β → Decoded α} {items : List α}
    (h : ∀ x ∈ items, decode (encode x) = .ok x) : (items.map encode).mapM decode = .ok items := by
  induction items with
  | nil => rfl
  | cons x items ih =>
    have hx := h x (List.mem_cons_self ..)
    have hitems := ih fun y hy => h y (List.mem_cons_of_mem _ hy)
    rw [List.map_cons, List.mapM_cons, hx, hitems]
    rfl

namespace NameMap

variable {α : Type}

/-- A name behind all others goes to the end. -/
theorem insertEntry_of_forall_lt {name : String} {value : α} {entries : List (String × α)}
    (h : ∀ e ∈ entries, e.1 < name) :
    insertEntry name value entries = entries ++ [(name, value)] := by
  induction entries with
  | nil => rfl
  | cons head rest ih =>
    have hhead := h head (List.mem_cons_self ..)
    rw [insertEntry, if_neg (String.lt_asymm hhead), if_pos hhead,
      ih fun e he => h e (List.mem_cons_of_mem _ he), List.cons_append]

/-- Entries that ascend behind those of a map are put behind them. -/
theorem entries_foldl_insert {rest : List (String × α)} {front : NameMap α}
    (hascending : (front.entries ++ rest).Pairwise (fun a b => a.1 < b.1)) :
    (rest.foldl (fun map e => map.insert e.1 e.2) front).entries = front.entries ++ rest := by
  induction rest generalizing front with
  | nil => simp
  | cons e rest ih =>
    have hlt : ∀ a ∈ front.entries, a.1 < e.1 := by
      intro a ha
      exact (List.pairwise_append.1 hascending).2.2 a ha e (List.mem_cons_self ..)
    have hinsert : (front.insert e.1 e.2).entries = front.entries ++ [e] :=
      insertEntry_of_forall_lt hlt
    have hsplit : front.entries ++ e :: rest = (front.insert e.1 e.2).entries ++ rest := by
      rw [hinsert, List.append_assoc, List.singleton_append]
    rw [hsplit] at hascending ⊢
    exact ih hascending

/-- **A map is what its entries make up.** -/
theorem ofList_entries (map : NameMap α) : ofList map.entries = map := by
  -- the entries ascend, so each one goes behind those before it
  have hentries : (ofList map.entries).entries = map.entries :=
    entries_foldl_insert (show (empty.entries ++ map.entries).Pairwise _ from map.ascending)
  cases map
  cases hmap : ofList _
  rw [hmap] at hentries
  subst hentries
  rfl

/-- **A map is decoded from its encoding**, if its values are. -/
theorem ofJson_toJson {encode : α → Json} {decode : Json → Decoded α}
    (h : ∀ x, decode (encode x) = .ok x) (map : NameMap α) :
    ofJson decode (map.toJson encode) = .ok map := by
  have hentries : (map.entries.map fun e => (e.1, encode e.2)).mapM (entryOfMember decode) =
      .ok map.entries := by
    refine mapM_map_eq_ok fun e _ => ?_
    rw [entryOfMember, h]
    rfl
  show ((map.entries.map fun e => (e.1, encode e.2)).mapM (entryOfMember decode)).map ofList = _
  rw [hentries, Except.ok_map, ofList_entries]

end NameMap

/-! ### Members of an object -/

namespace Json

variable {α : Type} {encode : α → Json} {decode : Json → Decoded α} {name : String} {json : Json}

theorem required_of_field {member : Json} {x : α} (hfield : json.field? name = some member)
    (h : decode member = .ok x) : json.required decode name = .ok x := by
  rw [required, hfield]
  exact h

theorem withDefault_of_field {default x : α} {member : Json}
    (hfield : json.field? name = some member) (h : decode member = .ok x) :
    json.withDefault decode default name = .ok x := by
  rw [withDefault, hfield]
  exact h

/-- **A member that may be absent** is left out or null then, and decoded as the value that it
encodes otherwise, since no value is encoded as null. -/
theorem optional_of_field {value : Option α}
    (hfield : json.field? name = value.map encode ∨
      json.field? name = some (Record.orNull encode value))
    (h : ∀ x ∈ value, encode x ≠ null ∧ decode (encode x) = .ok x) :
    json.optional decode name = .ok value := by
  unfold optional
  cases value with
  | none => rcases hfield with hfield | hfield <;> rw [hfield] <;> rfl
  | some x =>
    obtain ⟨hnull, hdecode⟩ := h x rfl
    have hfield' : json.field? name = some (encode x) := hfield.elim id id
    rw [hfield']
    split
    · next heq => cases heq
    · next heq => exact absurd (Option.some.inj heq) hnull
    · next heq => rw [← Option.some.inj heq, hdecode]; rfl

theorem texts_map_str (items : List String) : texts (.arr (items.map .str)) = .ok items :=
  mapM_map_eq_ok fun _ _ => rfl

end Json

/-! ### Numbers, monomials, units and quantities -/

theorem Number.ofJson_toJson (x : Number) : Number.ofJson x.toJson = .ok x := by
  have hread : Number.read x.toText = .ok x := by
    rw [Number.read, Number.toText, String.toList_ofList, Number.readChars_text]
  show (Number.read x.toText).mapError _ = .ok x
  rw [hread, Except.mapError_ok]

theorem Exponent.ofJson_toInt (e : Exponent) : Exponent.ofJson (.int e.toInt) = .ok e := by
  rw [Exponent.ofJson, Exponent.ofInt?_toInt, Decoded.ofOption]

theorem exponents_ofJson_toJson (exponents : NameMap Exponent) :
    NameMap.ofJson Exponent.ofJson (exponentsToJson exponents) = .ok exponents :=
  NameMap.ofJson_toJson Exponent.ofJson_toInt exponents

/-- The monomial of the exponents of a monomial is the monomial, since none of them is zero. -/
theorem Monomial.ofMap_powers (m : Monomial) : Monomial.ofMap m.powers = m := by
  have hkeep : m.powers.entries.filter (·.2 != 0) = m.powers.entries :=
    List.filter_eq_self.2 fun p hp => by simpa using m.nonzero p hp
  obtain ⟨⟨entries, hascending⟩, hnonzero⟩ := m
  simpa [ofMap, NameMap.filter] using hkeep

theorem Monomial.ofJson_toJson (m : Monomial) : Monomial.ofJson m.toJson = .ok m := by
  rw [Monomial.ofJson, Monomial.toJson, exponents_ofJson_toJson, Except.ok_map, ofMap_powers]

/-- A number is a text, and no text is null. -/
theorem Number.optional_toJson (x : Number) :
    x.toJson ≠ .null ∧ Number.ofJson x.toJson = .ok x :=
  ⟨Json.noConfusion, Number.ofJson_toJson x⟩

namespace UnitOfMeasure

theorem field?_offset (u : UnitOfMeasure) :
    u.toJson.field? "offset" = u.offset.map Number.toJson := by
  unfold toJson
  cases u.offset <;> rfl

theorem ofJson_toJson (u : UnitOfMeasure) : ofJson u.toJson = .ok u := by
  have hname : u.toJson.required Monomial.ofJson "name" = .ok u.name :=
    Json.required_of_field rfl u.name.ofJson_toJson
  have hfactor : u.toJson.required Number.ofJson "factor" = .ok u.factor :=
    Json.required_of_field rfl (Number.ofJson_toJson u.factor)
  have hdimension : u.toJson.required Monomial.ofJson "dimension" = .ok u.dimension :=
    Json.required_of_field rfl u.dimension.ofJson_toJson
  have hoffset : u.toJson.optional Number.ofJson "offset" = .ok u.offset :=
    Json.optional_of_field (.inl u.field?_offset) fun x _ => Number.optional_toJson x
  rw [ofJson, hname, hfactor, hdimension, hoffset]
  rfl

end UnitOfMeasure

theorem Quantity.ofJson_toJson (q : Quantity) : Quantity.ofJson q.toJson = .ok q := by
  have hvalue : q.toJson.required Number.ofJson "value" = .ok q.value :=
    Json.required_of_field rfl (Number.ofJson_toJson q.value)
  have hunit : q.toJson.required UnitOfMeasure.ofJson "unit" = .ok q.unit :=
    Json.required_of_field rfl q.unit.ofJson_toJson
  rw [ofJson, hvalue, hunit]
  rfl

/-! ### Records -/

/-- An amount that is no floating-point number. -/
def Amount.IsExact : Amount → Prop
  | integer _ | text _ => True
  | float _ => False

/-- A record without floating-point numbers. -/
structure Record.IsExact (r : Record) : Prop where
  /-- The factor is an integer or a text, if there is one. -/
  factor : ∀ amount ∈ r.factor, amount.IsExact
  /-- The offset is an integer or a text, if there is one. -/
  offset : ∀ amount ∈ r.offset, amount.IsExact

theorem Amount.ofJson_toJson {amount : Amount} (h : amount.IsExact) :
    amount.toJson ≠ .null ∧ Amount.ofJson amount.toJson = .ok amount := by
  cases amount with
  | integer n =>
    have hfits : Number.FitsInt64 n.toInt :=
      ⟨Int64.le_toInt n, Int.le_of_lt_add_one (Int64.toInt_lt n)⟩
    refine ⟨Json.noConfusion, ?_⟩
    rw [toJson, ofJson, if_pos hfits, Int64.ofInt_toInt]
  | text t => exact ⟨Json.noConfusion, rfl⟩
  | float x => exact h.elim

/-- A name is encoded as a text and a map as an object, and both are decoded from it. -/
theorem DimensionEntry.ofJson_toJson (entry : DimensionEntry) :
    entry.toJson ≠ .null ∧ DimensionEntry.ofJson entry.toJson = .ok entry := by
  cases entry with
  | name n => exact ⟨Json.noConfusion, rfl⟩
  | map exponents =>
    refine ⟨Json.noConfusion, ?_⟩
    show (NameMap.ofJson Exponent.ofJson (exponentsToJson exponents)).map map = _
    rw [exponents_ofJson_toJson, Except.ok_map]

theorem PrefixFamily.ofJson_toJson (family : PrefixFamily) :
    family.toJson ≠ .null ∧ PrefixFamily.ofJson family.toJson = .ok family :=
  ⟨Json.noConfusion, congrArg Decoded.ofOption (ofName?_name family)⟩

namespace Record

theorem field?_offset (r : Record) :
    r.toJson.field? "offset" = r.offset.map Amount.toJson := by
  unfold toJson
  cases r.offset <;> rfl

/-- A record is decoded from its encoding, but for the source. -/
theorem ofJson_toJson {r : Record} (h : r.IsExact) :
    ofJson r.toJson = .ok { r with source := none } := by
  have hname : r.toJson.required Json.text "name" = .ok r.name :=
    Json.required_of_field rfl rfl
  have hsymbols : r.toJson.withDefault Json.texts [] "symbols" = .ok r.symbols :=
    Json.withDefault_of_field rfl (Json.texts_map_str r.symbols)
  have haliases : r.toJson.withDefault Json.texts [] "aliases" = .ok r.aliases :=
    Json.withDefault_of_field rfl (Json.texts_map_str r.aliases)
  have hfactor : r.toJson.optional Amount.ofJson "factor" = .ok r.factor :=
    Json.optional_of_field (.inr rfl) fun a ha => Amount.ofJson_toJson (h.factor a ha)
  have hoffset : r.toJson.optional Amount.ofJson "offset" = .ok r.offset :=
    Json.optional_of_field (.inl r.field?_offset) fun a ha => Amount.ofJson_toJson (h.offset a ha)
  have hdimension : r.toJson.optional DimensionEntry.ofJson "dimension" = .ok r.dimension :=
    Json.optional_of_field (.inr rfl) fun entry _ => entry.ofJson_toJson
  have hfamily : r.toJson.optional PrefixFamily.ofJson "prefix" = .ok r.family :=
    Json.optional_of_field (.inr rfl) fun family _ => family.ofJson_toJson
  rw [ofJson, hname, hsymbols, haliases, hfactor, hoffset, hdimension, hfamily]
  rfl

/-- A record that is decoded has no source. -/
theorem source_of_ofJson {json : Json} {r : Record} (h : ofJson json = .ok r) :
    r.source = none := by
  simp only [ofJson, Except.bind_eq_ok_iff, Except.pure_eq_ok_iff] at h
  obtain ⟨_, -, _, -, _, -, _, -, _, -, _, -, _, -, rfl⟩ := h
  rfl

end Record

/-! ### All values -/

/-- What a JSON value is decoded as is encoded as a JSON value that is decoded in the same way. -/
def Json.Recodes {α : Type} (encode : α → Json) (decode : Json → Decoded α) (json : Json) : Prop :=
  ∀ x, decode json = .ok x → decode (encode x) = decode json

theorem Json.recodes_of_decode {α : Type} {encode : α → Json} {decode : Json → Decoded α}
    (h : ∀ x, decode (encode x) = .ok x) (json : Json) : Recodes encode decode json := by
  intro x hx
  rw [h, hx]

/-- **Numbers, dimensions, units, quantities and records are decoded from their encodings as
themselves**, whatever the names, factors, dimensions and offsets of units are, if records have
no floating-point numbers and no source.  So any JSON value that is decoded as one of them is
recoded without a change of what it stands for. -/
theorem Json.decode_encode :
    ((∀ x : Number, Number.ofJson x.toJson = .ok x) ∧
      (∀ d : Dimension, Monomial.ofJson d.toJson = .ok d) ∧
      (∀ u : UnitOfMeasure, UnitOfMeasure.ofJson u.toJson = .ok u) ∧
      (∀ q : Quantity, Quantity.ofJson q.toJson = .ok q) ∧
      ∀ r : Record, r.IsExact → r.source = none → Record.ofJson r.toJson = .ok r) ∧
    ∀ json : Json,
      json.Recodes Number.toJson Number.ofJson ∧
      json.Recodes Monomial.toJson Monomial.ofJson ∧
      json.Recodes UnitOfMeasure.toJson UnitOfMeasure.ofJson ∧
      json.Recodes Quantity.toJson Quantity.ofJson ∧
      ∀ r : Record, Record.ofJson json = .ok r → r.IsExact →
        Record.ofJson r.toJson = Record.ofJson json := by
  have hrecord : ∀ r : Record, r.IsExact → r.source = none → Record.ofJson r.toJson = .ok r := by
    intro r hexact hsource
    rw [Record.ofJson_toJson hexact]
    obtain ⟨_, _, _, _, _, _, _, source⟩ := r
    obtain rfl : source = none := hsource
    rfl
  refine ⟨⟨Number.ofJson_toJson, Monomial.ofJson_toJson, UnitOfMeasure.ofJson_toJson,
    Quantity.ofJson_toJson, hrecord⟩, fun json => ?_⟩
  refine ⟨recodes_of_decode Number.ofJson_toJson json,
    recodes_of_decode Monomial.ofJson_toJson json,
    recodes_of_decode UnitOfMeasure.ofJson_toJson json,
    recodes_of_decode Quantity.ofJson_toJson json, fun r hr hexact => ?_⟩
  rw [hr, hrecord r hexact (Record.source_of_ofJson hr)]

/-- A record with an integer, a text that is read as a number, and a map in which an exponent is
zero is decoded with all three as they are. -/
theorem Json.decode_encode_celsius :
    let celsius : Record := {
      name := "celsius", symbols := ["\u00b0C", "degC"], aliases := []
      factor := some (.integer 1), offset := some (.text "546.30/2")
      dimension := some (.map (.ofList [("temperature", 1), ("length", 0)]))
      family := some .none, source := none }
    celsius.IsExact ∧ celsius.source = none ∧ Record.ofJson celsius.toJson = .ok celsius := by
  intro celsius
  have hexact : celsius.IsExact :=
    ⟨fun amount h => Option.some.inj h ▸ trivial, fun amount h => Option.some.inj h ▸ trivial⟩
  exact ⟨hexact, rfl, decode_encode.1.2.2.2.2 celsius hexact rfl⟩

end ExactUnits
