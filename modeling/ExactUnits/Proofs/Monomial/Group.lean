import ExactUnits.Proofs.Monomial.Overflow

/-!
# Monomials as a partial group

Where products, quotients and powers of monomials exist, they obey the laws of an abelian
group, since their exponents are sums, differences and multiples of integers.  Where they
overflow, both sides of a law may do so at different steps.  But a product overflows at the
same name in either order, and the inverse is the power with exponent minus one, errors
included.  A power exists if the product of as many copies does: on the way to a multiple
that fits, every exponent stays between its two ends.

## Main definitions

* `mulAll` — a monomial multiplied by the monomials of a list.

## Main results

* `mul_swap`, `pow_neg_one_eq_inv` — results that agree, errors included.
* `mulAll_replicate_eq_ok_iff` — the product of several copies.
* `group_laws` — **the laws of a partial abelian group**, in which a monomial is determined
  by its exponents.
-/

namespace ExactUnits.Monomial

variable {a b c m : Monomial}

/-! ### Entries -/

theorem mem_factors_iff {x : String} {n : Exponent} :
    (x, n) ∈ m.factors ↔ n ≠ 0 ∧ n.toInt = m.exponent x := by
  constructor
  · intro h
    exact ⟨m.nonzero _ h, (exponent_of_mem h).symm⟩
  · rintro ⟨hn, hx⟩
    have hne : m.exponent x ≠ 0 := by
      intro hzero
      exact hn (Int32.toInt_inj.1 (hx.trans hzero))
    obtain ⟨k, hk⟩ := mem_factors_of_exponent_ne_zero hne
    rw [exponent_of_mem hk, Int32.toInt_inj] at hx
    exact hx ▸ hk

/-! ### Products of two and three -/

/-- The order of two factors does not matter, not even for the name that is reported. -/
theorem mul_swap (a b : Monomial) : a.mul b = b.mul a := by
  refine (mul_outcome a b).unique (mul_outcome b a) (fun x => ?_) fun x => ?_
  · rw [Int.add_comm]
  · exact Int.add_comm _ _

/-- Three factors can be regrouped. -/
theorem mul_of_mul_mul {p q p' q' : Monomial} (hpq : a.mul p = .ok q) (hp : p.mul b = .ok p')
    (hq : q.mul b = .ok q') : a.mul p' = .ok q' := by
  rw [mul_eq_ok_iff] at *
  intro x
  rw [hq, hpq, hp, Int.add_assoc]

/-- A factor can be divided out again. -/
theorem eq_of_mul_div {d : Monomial} (hmul : a.mul b = .ok c) (hdiv : c.div b = .ok d) : d = a := by
  refine ext_exponent fun x => ?_
  rw [(div_eq_ok_iff.1 hdiv).2, mul_eq_ok_iff.1 hmul, Int.add_sub_cancel]

/-! ### Powers -/

/-- **The inverse is the power with exponent minus one**, and both refuse the same exponents. -/
theorem pow_neg_one_eq_inv (m : Monomial) : m.pow (-1) = m.inv := by
  refine (pow_outcome m (by decide)).unique (div_outcome one m) (fun x => ?_) fun x => ?_
  · have hfits := m.fits_exponent x
    rw [exponent_one]
    unfold Exponent.Fits at *
    omega
  · rw [exponent_one]
    omega

/-- Multiply a monomial by the monomials of a list, from left to right. -/
def mulAll (m : Monomial) (l : List Monomial) : Except ExponentError Monomial := l.foldlM mul m

@[simp] theorem mulAll_nil (m : Monomial) : m.mulAll [] = .ok m := rfl

theorem mulAll_cons (m a : Monomial) (l : List Monomial) :
    m.mulAll (a :: l) = m.mul a >>= (·.mulAll l) := List.foldlM_cons ..

/-- **The product of several copies succeeds exactly with the monomial whose exponents are the
sums of all**; none of the products on the way overflows then. -/
theorem mulAll_replicate_eq_ok_iff {n : ℕ} :
    m.mulAll (List.replicate n a) = .ok c ↔
      ∀ x, c.exponent x = m.exponent x + a.exponent x * n := by
  induction n generalizing m with
  | zero =>
    simp only [List.replicate_zero, mulAll_nil, Except.ok.injEq, Nat.cast_zero, Int.mul_zero,
      Int.add_zero]
    exact ⟨fun h x => by rw [h], fun h => ext_exponent fun x => (h x).symm⟩
  | succ n ih =>
    have hsucc : ∀ k : ℤ, k * ((n + 1 : ℕ) : ℤ) = k + k * n := by
      intro k
      push_cast
      ring
    rw [List.replicate_succ, mulAll_cons, Except.bind_eq_ok_iff]
    constructor
    · rintro ⟨d, hd, h⟩ x
      rw [ih.1 h, mul_eq_ok_iff.1 hd, hsucc, Int.add_assoc]
    · intro h
      -- the first sum lies between an exponent that is stored and one of the result
      have hfits : ∀ x, Exponent.Fits (m.exponent x + a.exponent x) := by
        intro x
        have hm := m.fits_exponent x
        have hc := c.fits_exponent x
        rw [h, hsucc] at hc
        unfold Exponent.Fits at *
        rcases Int.le_total 0 (a.exponent x) with hsign | hsign
        · have hrest := mul_nonneg hsign (Int.natCast_nonneg n)
          omega
        · have hrest := mul_nonpos_of_nonpos_of_nonneg hsign (Int.natCast_nonneg n)
          omega
      obtain ⟨d, hd⟩ := exists_mul hfits
      refine ⟨d, hd, ih.2 fun x => ?_⟩
      rw [h, mul_eq_ok_iff.1 hd, hsucc, Int.add_assoc]

/-- **A power is the product of as many copies.** -/
theorem pow_eq_ok_iff_mulAll {n : ℕ} (hn : n ≠ 0) :
    a.pow n = .ok c ↔ one.mulAll (List.replicate n a) = .ok c := by
  rw [pow_eq_ok_iff, mulAll_replicate_eq_ok_iff]
  simp [hn]

/-! ### The laws -/

/-- **Monomials are a partial abelian group.**  They store no zeros, and so they are determined by
their exponents.  Products commute, errors included; they are associative, and a factor can be
divided out again, where all steps succeed; a power succeeds exactly if the product of as many
copies does, and with the same result; and the inverse is the power with exponent minus one,
errors included. -/
theorem group_laws (a b c : Monomial) :
    (∀ x n, (x, n) ∈ a.factors ↔ n ≠ 0 ∧ n.toInt = a.exponent x) ∧
    (a = b ↔ ∀ x, a.exponent x = b.exponent x) ∧
    a.mul b = b.mul a ∧
    (∀ ab bc p q, a.mul b = .ok ab → ab.mul c = .ok p → b.mul c = .ok bc → a.mul bc = .ok q →
      p = q) ∧
    (∀ ab d, a.mul b = .ok ab → ab.div b = .ok d → d = a) ∧
    (∀ n : ℕ, 1 ≤ n → ∀ d, a.pow n = .ok d ↔ one.mulAll (List.replicate n a) = .ok d) ∧
    a.pow (-1) = a.inv := by
  refine ⟨fun x n => mem_factors_iff, ⟨fun h x => by rw [h], ext_exponent⟩, mul_swap a b, ?_, ?_,
    ?_, pow_neg_one_eq_inv a⟩
  · intro ab bc p q hab hp hbc hq
    rw [mul_of_mul_mul hab hbc hp, Except.ok.injEq] at hq
    exact hq
  · intro ab d hab hd
    exact eq_of_mul_div hab hd
  · intro n hn d
    exact pow_eq_ok_iff_mulAll (by omega)

/-- A speed, a rate and a mass: the acceleration times the mass is the speed times the flow of mass,
and the acceleration by the rate is the speed again. -/
theorem group_laws_force :
    let speed : Monomial := .ofList [("length", 1), ("time", -1)]
    let rate : Monomial := .ofList [("time", -1)]
    let mass : Monomial := .atom "mass"
    let acceleration : Monomial := .ofList [("length", 1), ("time", -2)]
    let flow : Monomial := .ofList [("mass", 1), ("time", -1)]
    let force : Monomial := .ofList [("length", 1), ("mass", 1), ("time", -2)]
    speed.mul rate = .ok acceleration ∧ acceleration.mul mass = .ok force ∧
      rate.mul mass = .ok flow ∧ (∀ q, speed.mul flow = .ok q → force = q) ∧
      (∀ d, acceleration.div rate = .ok d → d = speed) ∧
      1 ≤ 3 ∧ one.mulAll (List.replicate 3 rate) = .ok (.ofList [("time", -3)]) := by
  intro speed rate mass acceleration flow force
  have hspeed : speed.mul rate = .ok acceleration := by decide +kernel
  have hforce : acceleration.mul mass = .ok force := by decide +kernel
  have hflow : rate.mul mass = .ok flow := by decide +kernel
  obtain ⟨-, -, -, hassoc, hdiv, -, -⟩ := group_laws speed rate mass
  obtain ⟨-, -, -, -, -, hpow, -⟩ := group_laws rate rate rate
  refine ⟨hspeed, hforce, hflow, fun q hq => hassoc _ _ _ _ hspeed hforce hflow hq,
    fun d hd => hdiv _ _ hspeed hd, by decide, (hpow 3 (by decide) _).1 (by decide +kernel)⟩

end ExactUnits.Monomial
