import Mathlib
import ExactUnits.Monomial.Basic
import ExactUnits.Proofs.Outcome

/-!
# The exponents of products, quotients and powers

A monomial is seen through its exponents, an integer for every name.  Each of the
operations is determined by them: it succeeds with a result exactly if the
exponents of the result are the sums, differences or multiples, and if the
divisor's exponents can be negated.  As a function of finite support the exponents
turn products over the factors of a monomial into products that Mathlib knows.

## Main definitions

* `Monomial.toFinsupp` — the exponents as a function of finite support.

## Main results

* `Monomial.mul_eq_ok_iff`, `Monomial.div_eq_ok_iff`, `Monomial.pow_eq_ok_iff` — **the
  operations by their exponents.**
* `Monomial.prod_factors`, `Monomial.sum_factors` — products and sums over the factors.
-/

namespace ExactUnits

theorem Exponent.ofInt?_isSome {n : Int} (h : Fits n) : ∃ e, ofInt? n = some e ∧ e.toInt = n := by
  refine ⟨Int32.ofInt n, if_pos h, ?_⟩
  exact Int32.toInt_ofInt_of_le h.1 (Int.lt_add_one_of_le h.2)

namespace Monomial

/-! ### Exponents and factors -/

theorem exponent_of_mem {m : Monomial} {p : String × Exponent} (h : p ∈ m.factors) :
    m.exponent p.1 = p.2.toInt := by
  rw [exponent, NameMap.find?_eq_some_iff.2 h]
  rfl

theorem mem_factors_of_exponent_ne_zero {m : Monomial} {name : String} (h : m.exponent name ≠ 0) :
    ∃ e, (name, e) ∈ m.factors := by
  cases hf : m.powers.find? name with
  | none => exact absurd (exponent_eq_zero_iff.2 hf) h
  | some e => exact ⟨e, NameMap.find?_eq_some_iff.1 hf⟩

theorem exponent_ne_zero_of_mem {m : Monomial} {p : String × Exponent} (h : p ∈ m.factors) :
    m.exponent p.1 ≠ 0 := by
  rw [exponent_of_mem h]
  intro hzero
  exact m.nonzero p h (Int32.toInt_inj.1 (by rw [hzero]; rfl))

/-- A condition on the factors' exponents that zero meets is one on all exponents. -/
theorem forall_factors_iff {m : Monomial} {P : Int → Prop} (hzero : P 0) :
    (∀ p ∈ m.factors, P p.2.toInt) ↔ ∀ x, P (m.exponent x) := by
  constructor
  · intro h x
    by_cases hx : m.exponent x = 0
    · rw [hx]
      exact hzero
    · obtain ⟨e, he⟩ := mem_factors_of_exponent_ne_zero hx
      rw [exponent_of_mem he]
      exact h _ he
  · intro h p hp
    rw [← exponent_of_mem hp]
    exact h p.1

/-- Every exponent can be stored. -/
theorem fits_exponent (m : Monomial) (name : String) : Exponent.Fits (m.exponent name) :=
  forall_factors_iff (by decide) |>.1 (fun p _ => Exponent.fits_toInt p.2) name

/-- No name occurs twice. -/
theorem nodup_names (m : Monomial) : (m.factors.map Prod.fst).Nodup := by
  refine List.pairwise_map.2 (m.powers.ascending.imp ?_)
  intro p q hlt heq
  exact String.lt_irrefl q.1 (heq ▸ hlt)

@[simp] theorem exponent_one (name : String) : one.exponent name = 0 := rfl

@[simp] theorem exponent_atom (name x : String) :
    (atom name).exponent x = if x = name then 1 else 0 := by
  show ((List.lookup x [(name, (1 : Exponent))]).map Int32.toInt).getD 0 = _
  rw [NameMap.lookup_cons_ite]
  split <;> rfl

theorem eq_atom_of_atom? {m : Monomial} {name : String} (h : m.atom? = some name) :
    m = atom name := by
  -- a single entry with exponent one
  have hfactors : m.powers.entries = [(name, 1)] := by
    unfold atom? at h
    split at h
    · next n e hentries =>
      split at h
      · next hone =>
        obtain rfl := Option.some.inj h
        rw [hone] at hentries
        exact hentries
      · cases h
    · cases h
  refine ext_exponent fun x => ?_
  unfold exponent NameMap.find?
  rw [hfactors]
  rfl

theorem exponent_ofMap (exponents : NameMap Exponent) (name : String) :
    (ofMap exponents).exponent name = ((exponents.find? name).map Int32.toInt).getD 0 := by
  have hmem : ∀ e, (name, e) ∈ (ofMap exponents).factors ↔
      (name, e) ∈ exponents.entries ∧ e ≠ 0 := by
    intro e
    simp [factors, ofMap, NameMap.filter]
  cases hf : exponents.find? name with
  | none =>
    rw [Option.map_none, Option.getD_none, exponent_eq_zero_iff]
    refine Option.eq_none_iff_forall_ne_some.2 fun e he => ?_
    have hentry := ((hmem e).1 (NameMap.find?_eq_some_iff.1 he)).1
    rw [NameMap.find?_eq_some_iff.2 hentry] at hf
    cases hf
  | some e =>
    rw [Option.map_some, Option.getD_some]
    by_cases he : e = 0
    · subst he
      refine exponent_eq_zero_iff.2 (Option.eq_none_iff_forall_ne_some.2 fun d hd => ?_)
      obtain ⟨hentry, hd0⟩ := (hmem d).1 (NameMap.find?_eq_some_iff.1 hd)
      rw [NameMap.find?_eq_some_iff.2 hentry, Option.some.injEq] at hf
      exact hd0 hf
    · exact exponent_of_mem ((hmem e).2 ⟨NameMap.find?_eq_some_iff.1 hf, he⟩)

/-! ### Changing several exponents -/

theorem adjust_eq_ok_iff {m c : Monomial} {name : String} {n : Int} :
    m.adjust name n = .ok c ↔
      ∀ x, c.exponent x = m.exponent x + if x = name then n else 0 := by
  -- a monomial with the right exponents shows that they fit
  constructor
  · intro h x
    rw [adjust] at h
    split at h
    · next e he =>
      obtain rfl := Except.ok.inj h
      rw [exponent_setExponent, Exponent.ofInt?_eq_some_iff.1 he]
      split
      · next hx => rw [hx]
      · rw [Int.add_zero]
    · cases h
  · intro h
    have hname : c.exponent name = m.exponent name + n := by rw [h, if_pos rfl]
    obtain ⟨e, he, hval⟩ := Exponent.ofInt?_isSome (hname ▸ c.fits_exponent name)
    simp only [adjust, he]
    refine congrArg Except.ok (ext_exponent fun x => ?_)
    rw [exponent_setExponent, h]
    split
    · next hx => rw [hval, hx]
    · rw [Int.add_zero]

/-- The change that a list of changes makes to a name. -/
def changeOf (changes : List (String × Int)) (name : String) : Int := (changes.lookup name).getD 0

theorem changeOf_cons (p : String × Int) (changes : List (String × Int)) (name : String) :
    changeOf (p :: changes) name = if name = p.1 then p.2 else changeOf changes name := by
  rw [changeOf, NameMap.lookup_cons_ite]
  split <;> rfl

theorem changeOf_of_notMem {changes : List (String × Int)} {name : String}
    (h : name ∉ changes.map Prod.fst) : changeOf changes name = 0 := by
  induction changes with
  | nil => rfl
  | cons p changes ih =>
    rw [List.map_cons, List.mem_cons, not_or] at h
    rw [changeOf_cons, if_neg h.1, ih h.2]

/-- Carry out changes of exponents in order. -/
def adjustAll (m : Monomial) (changes : List (String × Int)) : Except ExponentError Monomial :=
  changes.foldlM (fun m p => m.adjust p.1 p.2) m

/-- Changes of different names succeed together exactly if every sum fits. -/
theorem adjustAll_eq_ok_iff {m c : Monomial} {changes : List (String × Int)}
    (hnodup : (changes.map Prod.fst).Nodup) :
    adjustAll m changes = .ok c ↔ ∀ x, c.exponent x = m.exponent x + changeOf changes x := by
  induction changes generalizing m with
  | nil =>
    rw [adjustAll, List.foldlM_nil, Except.pure_eq_ok_iff]
    constructor
    · rintro rfl x
      exact (Int.add_zero _).symm
    · intro h
      exact ext_exponent fun x => ((h x).trans (Int.add_zero _)).symm
  | cons p changes ih =>
    rw [List.map_cons, List.nodup_cons] at hnodup
    obtain ⟨hp, hnodup⟩ := hnodup
    -- the name of the first change is not changed again
    have hchange : ∀ x, changeOf (p :: changes) x =
        (if x = p.1 then p.2 else 0) + changeOf changes x := by
      intro x
      rw [changeOf_cons]
      split
      · next hx => rw [hx, changeOf_of_notMem hp, Int.add_zero]
      · rw [Int.zero_add]
    rw [adjustAll, List.foldlM_cons, Except.bind_eq_ok_iff]
    constructor
    · rintro ⟨a, ha, hc⟩ x
      rw [(ih hnodup).1 hc, adjust_eq_ok_iff.1 ha, hchange, Int.add_assoc]
    · intro h
      have hfits : Exponent.Fits (m.exponent p.1 + p.2) := by
        have hx := h p.1
        rw [hchange, if_pos rfl, changeOf_of_notMem hp, Int.add_zero] at hx
        exact hx ▸ c.fits_exponent p.1
      obtain ⟨e, he, hval⟩ := Exponent.ofInt?_isSome hfits
      have ha : m.adjust p.1 p.2 = .ok (m.setExponent p.1 e) := by simp only [adjust, he]
      refine ⟨_, ha, (ih hnodup).2 fun x => ?_⟩
      rw [h, hchange, adjust_eq_ok_iff.1 ha, Int.add_assoc]

/-! ### The operations -/

theorem changeOf_map_factors (m : Monomial) (f : Int → Int) (hf : f 0 = 0) (name : String) :
    changeOf (m.factors.map fun p => (p.1, f p.2.toInt)) name = f (m.exponent name) := by
  simp only [exponent, NameMap.find?, factors]
  induction m.powers.entries with
  | nil => exact hf.symm
  | cons p entries ih =>
    rw [List.map_cons, changeOf_cons, NameMap.lookup_cons_ite, ih]
    split <;> rfl

private theorem nodup_changes (m : Monomial) (f : Int → Int) :
    ((m.factors.map fun p => (p.1, f p.2.toInt)).map Prod.fst).Nodup := by
  simpa [List.map_map, Function.comp_def] using m.nodup_names

/-- **The product succeeds exactly with the monomial whose exponents are the sums.** -/
theorem mul_eq_ok_iff {a b c : Monomial} :
    a.mul b = .ok c ↔ ∀ x, c.exponent x = a.exponent x + b.exponent x := by
  have hmul : a.mul b = a.adjustAll (b.factors.map fun p => (p.1, p.2.toInt)) := by
    rw [adjustAll, List.foldlM_map]
    rfl
  rw [hmul, adjustAll_eq_ok_iff (nodup_changes b fun n => n)]
  simp only [changeOf_map_factors b (fun n => n) rfl]

theorem foldlM_takeOff_eq_ok_iff {m c : Monomial} {l : List (String × Exponent)} :
    l.foldlM (fun m p => m.takeOff p.1 p.2) m = .ok c ↔
      (∀ p ∈ l, Exponent.Fits (-p.2.toInt)) ∧
        m.adjustAll (l.map fun p => (p.1, -p.2.toInt)) = .ok c := by
  induction l generalizing m with
  | nil => simp [adjustAll]
  | cons p l ih =>
    rw [List.foldlM_cons, List.map_cons, adjustAll, List.foldlM_cons, takeOff]
    by_cases hp : Exponent.Fits (-p.2.toInt)
    · simp only [Except.bind_eq_ok_iff, ih, List.forall_mem_cons, hp, if_true, true_and, adjustAll]
      constructor
      · rintro ⟨d, hd, hall, hc⟩
        exact ⟨hall, d, hd, hc⟩
      · rintro ⟨hall, d, hd, hc⟩
        exact ⟨d, hd, hall, hc⟩
    · simp [hp, Except.bind_eq_ok_iff]

/-- **The quotient succeeds exactly with the monomial whose exponents are the
differences**, provided that the divisor's exponents can be negated. -/
theorem div_eq_ok_iff {a b c : Monomial} :
    a.div b = .ok c ↔
      (∀ x, Exponent.Fits (-b.exponent x)) ∧ ∀ x, c.exponent x = a.exponent x - b.exponent x := by
  have hdiv : a.div b = b.factors.foldlM (fun m p => m.takeOff p.1 p.2) a := rfl
  rw [hdiv, foldlM_takeOff_eq_ok_iff, adjustAll_eq_ok_iff (nodup_changes b Neg.neg),
    forall_factors_iff (P := fun n => Exponent.Fits (-n)) (by decide)]
  simp only [changeOf_map_factors b Neg.neg rfl, Int.sub_eq_add_neg]

theorem exponent_mk_map {m : Monomial} {n : Int}
    (hnonzero : ∀ p ∈ (m.powers.map fun e => Int32.ofInt (e.toInt * n)).entries, p.2 ≠ 0)
    (hall : ∀ p ∈ m.factors, Exponent.Fits (p.2.toInt * n)) (x : String) :
    exponent ⟨m.powers.map fun e => Int32.ofInt (e.toInt * n), hnonzero⟩ x = m.exponent x * n := by
  rw [exponent, NameMap.find?_map, exponent]
  cases hf : m.powers.find? x with
  | none => simp
  | some e =>
    have hfits := hall (x, e) (NameMap.find?_eq_some_iff.1 hf)
    simp only [Option.map_some, Option.getD_some]
    exact Int32.toInt_ofInt_of_le hfits.1 (Int.lt_add_one_of_le hfits.2)

/-- **A power succeeds exactly with the monomial whose exponents are the multiples**, and
never with exponent zero. -/
theorem pow_eq_ok_iff {m c : Monomial} {n : Int} :
    m.pow n = .ok c ↔ n ≠ 0 ∧ ∀ x, c.exponent x = m.exponent x * n := by
  by_cases hn : n = 0
  · simp [pow, hn]
  rw [pow, dif_neg hn]
  split
  · next name e hfind =>
    obtain ⟨hnot, hmem⟩ := And.intro (List.find?_some hfind) (List.mem_of_find?_eq_some hfind)
    simp only [Bool.not_eq_true', decide_eq_false_iff_not] at hnot
    -- some multiple does not fit, so no monomial has it as an exponent
    refine iff_of_false (fun h => by cases h) ?_
    rintro ⟨-, h⟩
    exact hnot (exponent_of_mem hmem ▸ h name ▸ c.fits_exponent name)
  · next hfind =>
    have hall : ∀ p ∈ m.factors, Exponent.Fits (p.2.toInt * n) := by
      simpa using List.find?_eq_none.1 hfind
    rw [Except.ok.injEq]
    constructor
    · rintro rfl
      exact ⟨hn, exponent_mk_map _ hall⟩
    · rintro ⟨-, h⟩
      exact ext_exponent fun x => by rw [exponent_mk_map _ hall, h]

/-! ### Success -/

/-- Exponents that can be stored are those of a monomial, if all but finitely many are
zero. -/
theorem exists_of_exponents (names : List String) {f : String → ℤ} (hzero : ∀ x ∉ names, f x = 0)
    (hfits : ∀ x, Exponent.Fits (f x)) : ∃ m : Monomial, ∀ x, m.exponent x = f x := by
  induction names generalizing f with
  | nil => exact ⟨one, fun x => (hzero x List.not_mem_nil).symm⟩
  | cons n names ih =>
    -- without the first name, whose exponent is set afterwards
    have hrest : ∀ x ∉ names, (if x = n then 0 else f x) = 0 := by
      intro x hx
      split
      · rfl
      · next hne => exact hzero x fun hmem => (List.mem_cons.1 hmem).elim hne hx
    have hrestFits : ∀ x, Exponent.Fits (if x = n then 0 else f x) := by
      intro x
      split
      · decide
      · exact hfits x
    obtain ⟨m, hm⟩ := ih hrest hrestFits
    obtain ⟨e, -, he⟩ := Exponent.ofInt?_isSome (hfits n)
    refine ⟨m.setExponent n e, fun x => ?_⟩
    rw [exponent_setExponent, hm]
    split
    · next hx => rw [he, hx]
    · rfl

theorem exponent_of_notMem {m : Monomial} {name : String} (h : name ∉ m.factors.map Prod.fst) :
    m.exponent name = 0 := by
  by_contra hne
  obtain ⟨e, he⟩ := mem_factors_of_exponent_ne_zero hne
  exact h (List.mem_map.2 ⟨_, he, rfl⟩)

theorem eq_one_of_isOne {m : Monomial} (h : m.isOne = true) : m = one := by
  have hfactors : m.factors = [] := List.isEmpty_iff.1 h
  refine ext_exponent fun x => ?_
  rw [exponent_of_notMem (by simp [hfactors]), exponent_one]

theorem exists_mul {a b : Monomial} (h : ∀ x, Exponent.Fits (a.exponent x + b.exponent x)) :
    ∃ c, a.mul b = .ok c := by
  have hzero : ∀ x ∉ a.factors.map Prod.fst ++ b.factors.map Prod.fst,
      a.exponent x + b.exponent x = 0 := by
    intro x hx
    rw [List.mem_append, not_or] at hx
    rw [exponent_of_notMem hx.1, exponent_of_notMem hx.2, Int.add_zero]
  obtain ⟨c, hc⟩ := exists_of_exponents _ hzero h
  exact ⟨c, mul_eq_ok_iff.2 hc⟩

theorem exists_div {a b : Monomial} (hb : ∀ x, Exponent.Fits (-b.exponent x))
    (h : ∀ x, Exponent.Fits (a.exponent x - b.exponent x)) : ∃ c, a.div b = .ok c := by
  have hzero : ∀ x ∉ a.factors.map Prod.fst ++ b.factors.map Prod.fst,
      a.exponent x - b.exponent x = 0 := by
    intro x hx
    rw [List.mem_append, not_or] at hx
    rw [exponent_of_notMem hx.1, exponent_of_notMem hx.2, Int.sub_zero]
  obtain ⟨c, hc⟩ := exists_of_exponents _ hzero h
  exact ⟨c, div_eq_ok_iff.2 ⟨hb, hc⟩⟩

theorem exists_pow {m : Monomial} {n : ℤ} (hn : n ≠ 0)
    (h : ∀ x, Exponent.Fits (m.exponent x * n)) : ∃ c, m.pow n = .ok c := by
  have hzero : ∀ x ∉ m.factors.map Prod.fst, m.exponent x * n = 0 := by
    intro x hx
    rw [exponent_of_notMem hx, Int.zero_mul]
  obtain ⟨c, hc⟩ := exists_of_exponents _ hzero h
  exact ⟨c, pow_eq_ok_iff.2 ⟨hn, hc⟩⟩

/-! ### Exponents as a function of finite support -/

/-- The exponents of all names. -/
noncomputable def toFinsupp (m : Monomial) : String →₀ ℤ :=
  Finsupp.onFinset (m.factors.map Prod.fst).toFinset m.exponent fun name h => by
    obtain ⟨e, he⟩ := mem_factors_of_exponent_ne_zero h
    simpa using ⟨e, he⟩

@[simp] theorem toFinsupp_apply (m : Monomial) (name : String) :
    m.toFinsupp name = m.exponent name := rfl

theorem toFinsupp_injective : Function.Injective toFinsupp := fun _ _ h =>
  ext_exponent fun name => DFunLike.congr_fun h name

@[simp] theorem toFinsupp_one : one.toFinsupp = 0 := by
  ext name
  simp

@[simp] theorem toFinsupp_atom (name : String) : (atom name).toFinsupp = Finsupp.single name 1 := by
  ext x
  simp [Finsupp.single_apply, eq_comm]

theorem toFinsupp_of_mul {a b c : Monomial} (h : a.mul b = .ok c) :
    c.toFinsupp = a.toFinsupp + b.toFinsupp := by
  ext x
  simpa using mul_eq_ok_iff.1 h x

theorem toFinsupp_of_div {a b c : Monomial} (h : a.div b = .ok c) :
    c.toFinsupp = a.toFinsupp - b.toFinsupp := by
  ext x
  simpa using (div_eq_ok_iff.1 h).2 x

theorem toFinsupp_of_pow {m c : Monomial} {n : Int} (h : m.pow n = .ok c) :
    c.toFinsupp = n • m.toFinsupp := by
  ext x
  simpa [Int.mul_comm] using (pow_eq_ok_iff.1 h).2 x

theorem support_toFinsupp (m : Monomial) :
    m.toFinsupp.support = (m.factors.map Prod.fst).toFinset := by
  ext name
  rw [Finsupp.mem_support_iff, toFinsupp_apply, List.mem_toFinset, List.mem_map]
  constructor
  · intro h
    obtain ⟨e, he⟩ := mem_factors_of_exponent_ne_zero h
    exact ⟨_, he, rfl⟩
  · rintro ⟨p, hp, rfl⟩
    exact exponent_ne_zero_of_mem hp

/-- A product over the factors. -/
theorem prod_factors {M : Type} [CommMonoid M] (m : Monomial) (f : String → ℤ → M) :
    (m.factors.map fun p => f p.1 p.2.toInt).prod = m.toFinsupp.prod f := by
  rw [Finsupp.prod, support_toFinsupp, List.prod_toFinset _ m.nodup_names, List.map_map]
  refine congrArg List.prod (List.map_congr_left fun p hp => ?_)
  rw [Function.comp_apply, toFinsupp_apply, exponent_of_mem hp]

/-- A sum over the factors. -/
theorem sum_factors {M : Type} [AddCommMonoid M] (m : Monomial) (f : String → ℤ → M) :
    (m.factors.map fun p => f p.1 p.2.toInt).sum = m.toFinsupp.sum f := by
  rw [Finsupp.sum, support_toFinsupp, List.sum_toFinset _ m.nodup_names, List.map_map]
  refine congrArg List.sum (List.map_congr_left fun p hp => ?_)
  rw [Function.comp_apply, toFinsupp_apply, exponent_of_mem hp]

end Monomial

end ExactUnits
