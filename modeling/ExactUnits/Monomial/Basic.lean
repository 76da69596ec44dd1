import ExactUnits.NameMap

/-!
# Monomials

A monomial is a product of integer powers of names, such as `length / time ^ 2`.
Every exponent is a signed 32-bit integer, and an exponent zero is never stored,
so a monomial is determined by its exponents.

## Main definitions

* `Exponent` — the exponents that can be stored, and `Exponent.ofInt?`.
* `Monomial` — the products of powers of names.
* `Monomial.exponent` — the exponent of a name, zero if it does not occur.
* `Monomial.mul`, `Monomial.div`, `Monomial.pow`, `Monomial.inv` — the operations,
  refused when an exponent does not fit.

## Main results

* `Monomial.ext_exponent` — **a monomial is determined by its exponents.**
-/

namespace ExactUnits

/-! ### Exponents -/

/-- The exponents that can be stored: signed 32-bit integers. -/
abbrev Exponent := Int32

/-- The integers that can be stored as an exponent, from -2 ^ 31 up to 2 ^ 31 - 1. -/
def Exponent.Fits (n : Int) : Prop := -2147483648 ≤ n ∧ n ≤ 2147483647

instance (n : Int) : Decidable (Exponent.Fits n) := inferInstanceAs (Decidable (_ ∧ _))

/-- An integer as an exponent, if it fits. -/
def Exponent.ofInt? (n : Int) : Option Exponent :=
  if Exponent.Fits n then some (Int32.ofInt n) else none

theorem Exponent.fits_toInt (e : Exponent) : Exponent.Fits e.toInt :=
  ⟨Int32.le_toInt e, Int.le_of_lt_add_one (Int32.toInt_lt e)⟩

@[simp] theorem Exponent.ofInt?_toInt (e : Exponent) : Exponent.ofInt? e.toInt = some e := by
  rw [ofInt?, if_pos (fits_toInt e), Int32.ofInt_toInt]

theorem Exponent.ofInt?_eq_some_iff {n : Int} {e : Exponent} :
    Exponent.ofInt? n = some e ↔ e.toInt = n := by
  constructor
  · intro h
    rw [ofInt?] at h
    split at h
    · next hfits =>
      rw [Option.some.injEq] at h
      rw [← h, Int32.toInt_ofInt_of_le hfits.1 (Int.lt_add_one_of_le hfits.2)]
    · exact absurd h (by simp)
  · rintro rfl
    exact ofInt?_toInt e

theorem Exponent.ofInt_ne_zero {n : Int} (hfits : Exponent.Fits n) (hn : n ≠ 0) :
    Int32.ofInt n ≠ 0 := by
  intro h
  have hzero : (Int32.ofInt n).toInt = 0 := by rw [h, Int32.toInt_zero]
  rw [Int32.toInt_ofInt_of_le hfits.1 (Int.lt_add_one_of_le hfits.2)] at hzero
  exact hn hzero

/-- Why a product or a power of monomials is refused. -/
inductive ExponentError where
  /-- The power zero. -/
  | zero
  /-- The exponent of the name would not fit. -/
  | outOfRange (name : String)
  deriving DecidableEq, Repr

/-- The message of an exponent error. -/
def ExponentError.message : ExponentError → String
  | .zero => "invalid exponent: 0"
  | .outOfRange name => s!"exponent of '{name}' is out of range"

/-! ### The type -/

/-- A product of powers of names. -/
structure Monomial where
  /-- The exponents of the names that occur. -/
  powers : NameMap Exponent
  /-- No exponent is zero. -/
  nonzero : ∀ p ∈ powers.entries, p.2 ≠ 0
  deriving DecidableEq

namespace Monomial

/-- The names that occur with their exponents, in the order of the names. -/
def factors (m : Monomial) : List (String × Exponent) := m.powers.entries

/-- The exponent of a name, zero if it does not occur. -/
def exponent (m : Monomial) (name : String) : Int := ((m.powers.find? name).map Int32.toInt).getD 0

/-- The empty product. -/
def one : Monomial := ⟨.empty, by simp [NameMap.empty]⟩

/-- A single name with exponent one. -/
def atom (name : String) : Monomial := ⟨.single name 1, by simp [NameMap.single]⟩

/-- The monomial with the given exponents; zeros are dropped. -/
def ofMap (exponents : NameMap Exponent) : Monomial :=
  ⟨exponents.filter (·.2 != 0), by simp [NameMap.filter]⟩

/-- The monomial with the given exponents.  Zeros are dropped first, and of the
others the last exponent of a name counts. -/
def ofList (exponents : List (String × Exponent)) : Monomial :=
  ofMap (NameMap.ofList (exponents.filter (·.2 != 0)))

/-- Whether no name occurs. -/
def isOne (m : Monomial) : Bool := m.factors.isEmpty

/-- The name, if the monomial is a single name with exponent one. -/
def atom? (m : Monomial) : Option String :=
  match m.factors with
  | [(name, e)] => if e = 1 then some name else none
  | _ => none

/-! ### Exponents determine a monomial -/

theorem exponent_eq_zero_iff {m : Monomial} {name : String} :
    m.exponent name = 0 ↔ m.powers.find? name = none := by
  rw [exponent]
  constructor
  · intro h
    cases hf : m.powers.find? name with
    | none => rfl
    | some e =>
      rw [hf, Option.map_some, Option.getD_some] at h
      have he : e = 0 := Int32.toInt_inj.1 (by rw [h]; rfl)
      exact absurd he (m.nonzero _ (NameMap.find?_eq_some_iff.1 hf))
  · intro h
    rw [h]
    rfl

theorem ext_exponent {a b : Monomial} (h : ∀ name, a.exponent name = b.exponent name) : a = b := by
  have hpowers : a.powers = b.powers := NameMap.ext_find? fun name => by
    have hname := h name
    -- no stored exponent is zero, so a zero exponent means that there is no entry
    cases hb : b.powers.find? name with
    | none => rw [← exponent_eq_zero_iff, hname, exponent_eq_zero_iff, hb]
    | some e =>
      cases ha : a.powers.find? name with
      | none =>
        rw [exponent_eq_zero_iff.2 ha] at hname
        rw [exponent_eq_zero_iff.1 hname.symm] at hb
        exact hb
      | some d =>
        simp only [exponent, ha, hb, Option.map_some, Option.getD_some] at hname
        rw [Int32.toInt_inj.1 hname]
  cases a
  cases b
  simpa using hpowers

/-! ### Changing one exponent -/

/-- Set the exponent of a name. -/
def setExponent (m : Monomial) (name : String) (e : Exponent) : Monomial :=
  if h : e = 0 then ⟨m.powers.erase name, fun p hp => m.nonzero p (List.mem_filter.1 hp).1⟩
  else ⟨m.powers.insert name e, fun p hp => by
    rcases NameMap.mem_insertEntry hp with rfl | hp
    · exact h
    · exact m.nonzero p hp⟩

theorem exponent_setExponent (m : Monomial) (name : String) (e : Exponent) (key : String) :
    (m.setExponent name e).exponent key = if key = name then e.toInt else m.exponent key := by
  rw [setExponent]
  split
  · next h =>
    subst h
    simp only [exponent, NameMap.find?_erase]
    split <;> rfl
  · simp only [exponent, NameMap.find?_insert]
    split <;> rfl

/-- Add an integer to the exponent of a name, refused if the sum does not fit. -/
def adjust (m : Monomial) (name : String) (n : Int) : Except ExponentError Monomial :=
  match Exponent.ofInt? (m.exponent name + n) with
  | some e => .ok (m.setExponent name e)
  | none => .error (.outOfRange name)

/-! ### The operations -/

/-- The product: the exponents add up.  The factors of the second operand are
taken in the order of their names, and the first sum that does not fit is
reported. -/
def mul (a b : Monomial) : Except ExponentError Monomial :=
  b.factors.foldlM (fun m (name, e) => m.adjust name e.toInt) a

/-- Take the negated exponent off a name.  The negated exponent has to fit on its
own, so the least exponent of all can never be taken off. -/
def takeOff (m : Monomial) (name : String) (e : Exponent) : Except ExponentError Monomial :=
  if Exponent.Fits (-e.toInt) then m.adjust name (-e.toInt) else .error (.outOfRange name)

/-- The quotient: the exponents of the divisor are taken off in the order of its
names, and the first one that does not fit is reported. -/
def div (a b : Monomial) : Except ExponentError Monomial :=
  b.factors.foldlM (fun m (name, e) => m.takeOff name e) a

/-- Products of exponents with an integer other than zero are not zero if they fit. -/
theorem nonzero_map {m : Monomial} {n : Int} (hn : n ≠ 0)
    (hfits : (m.factors.find? fun (_, e) => !Exponent.Fits (e.toInt * n)) = none) :
    ∀ p ∈ (m.powers.map fun e => Int32.ofInt (e.toInt * n)).entries, p.2 ≠ 0 := by
  intro p hp
  obtain ⟨q, hq, rfl⟩ := List.mem_map.1 hp
  have hfit : Exponent.Fits (q.2.toInt * n) := by simpa using List.find?_eq_none.1 hfits q hq
  have hne : q.2.toInt ≠ 0 := fun h => m.nonzero q hq (Int32.toInt_inj.1 h)
  exact Exponent.ofInt_ne_zero hfit (Int.mul_ne_zero hne hn)

/-- A power other than the zeroth: the exponents are multiplied, and the first
product, in the order of the names, that does not fit is reported. -/
def pow (m : Monomial) (n : Int) : Except ExponentError Monomial :=
  if hn : n = 0 then .error .zero
  else
    match hfits : m.factors.find? fun (_, e) => !Exponent.Fits (e.toInt * n) with
    | some (name, _) => .error (.outOfRange name)
    | none => .ok ⟨m.powers.map fun e => Int32.ofInt (e.toInt * n), nonzero_map hn hfits⟩

/-- One over the monomial. -/
def inv (m : Monomial) : Except ExponentError Monomial := one.div m

end Monomial

end ExactUnits
