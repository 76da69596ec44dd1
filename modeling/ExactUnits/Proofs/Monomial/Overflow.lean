import ExactUnits.Proofs.Monomial.Exponents

/-!
# Where the algebra of monomials overflows

A product, a quotient or a power of monomials is exact, or it reports the first name, in
the order of the names, whose exponent is refused.  Products and powers refuse an exponent
whose exact value does not fit.  Quotients refuse one more: they negate the exponents of the
divisor on their own, so the least exponent of all cannot be divided by, whatever the
difference would be.

## Main definitions

* `Outcome refused f` — the results of an operation whose exact exponents are `f`.
* `Overflows`, `IsExact` — the two ways in which an operation can end.

## Main results

* `Outcome.unique` — the outcome is determined by the exact exponents and by which of them
  are refused.
* `mul_outcome`, `div_outcome`, `pow_outcome` — **the operations, errors included.**
* `overflows_iff_not_fits` — **when the operations overflow**, and that they are exact
  otherwise.
-/

namespace ExactUnits.Monomial

variable {a b c m : Monomial} {e : ExponentError} {r r' : Except ExponentError Monomial}
  {refused refused' : String → Prop} {f f' : String → ℤ}

/-! ### Outcomes -/

/-- What an operation gives whose exact exponents are `f`, where the exponents of some names
are refused. -/
inductive Outcome (refused : String → Prop) (f : String → ℤ) : Except ExponentError Monomial → Prop
  /-- No exponent is refused, and the result has the exact ones. -/
  | exact {c : Monomial} (hnone : ∀ x, ¬ refused x) (hc : ∀ x, c.exponent x = f x) :
      Outcome refused f (.ok c)
  /-- The first name whose exponent is refused is reported. -/
  | overflow {x : String} (hx : refused x) (hfirst : ∀ y, y < x → ¬ refused y) :
      Outcome refused f (.error (.outOfRange x))

/-- The operation reports an exponent that does not fit. -/
def Overflows (r : Except ExponentError Monomial) : Prop := ∃ x, r = .error (.outOfRange x)

/-- The operation succeeds, its result has the exponents `f`, and it stores no zero. -/
def IsExact (r : Except ExponentError Monomial) (f : String → ℤ) : Prop :=
  ∃ c, r = .ok c ∧ (∀ x, c.exponent x = f x) ∧ ∀ p ∈ c.factors, p.2 ≠ 0

namespace Outcome

/-- **The outcome is determined** by the exact exponents and by which of them are refused. -/
theorem unique (h : Outcome refused f r) (h' : Outcome refused' f' r')
    (hrefused : ∀ x, refused x ↔ refused' x) (hf : ∀ x, f x = f' x) : r = r' := by
  cases h with
  | exact hnone hc =>
    cases h' with
    | exact hnone' hc' =>
      refine congrArg Except.ok (ext_exponent fun x => ?_)
      rw [hc, hc', hf]
    | overflow hx' _ => exact absurd ((hrefused _).2 hx') (hnone _)
  | overflow hx hfirst =>
    cases h' with
    | exact hnone' _ => exact absurd ((hrefused _).1 hx) (hnone' _)
    | @overflow x' hx' hfirst' =>
      -- neither of the two names stands in front of the other
      have hle := String.not_lt.1 fun hlt => hfirst' _ hlt ((hrefused _).1 hx)
      have hge := String.not_lt.1 fun hlt => hfirst _ hlt ((hrefused _).2 hx')
      rw [String.le_antisymm hge hle]

theorem overflows_iff (h : Outcome refused f r) : Overflows r ↔ ∃ x, refused x := by
  cases h with
  | exact hnone hc => simp [Overflows, hnone]
  | overflow hx hfirst => exact ⟨fun _ => ⟨_, hx⟩, fun _ => ⟨_, rfl⟩⟩

theorem isExact (h : Outcome refused f r) (hnot : ¬ Overflows r) : IsExact r f := by
  cases h with
  | @exact c hnone hc => exact ⟨c, rfl, hc, c.nonzero⟩
  | overflow hx hfirst => exact absurd ⟨_, rfl⟩ hnot

/-- The only error is a name whose exponent does not fit. -/
theorem exists_of_error (h : Outcome refused f (.error e)) : ∃ name, e = .outOfRange name := by
  cases h with
  | overflow hx hfirst => exact ⟨_, rfl⟩

end Outcome

/-! ### The first exponent that is refused -/

/-- What holds of the factors in front of a name, and of the exponent zero, holds of all
names in front of it. -/
theorem forall_lt_of_factors {P : String → ℤ → Prop} {x : String} (hzero : ∀ y, P y 0)
    (h : ∀ q ∈ b.factors, q.1 < x → P q.1 q.2.toInt) : ∀ y, y < x → P y (b.exponent y) := by
  intro y hy
  by_cases hb : b.exponent y = 0
  · rw [hb]
    exact hzero y
  · obtain ⟨n, hn⟩ := mem_factors_of_exponent_ne_zero hb
    rw [exponent_of_mem hn]
    exact h _ hn hy

/-- Steps that add to the exponents of ascending names fail at the first one that is not
allowed, or where the sum does not fit. -/
theorem exists_first_of_foldlM {step : Monomial → String × Exponent → Except ExponentError Monomial}
    (allowed : String × Exponent → Prop) (change : String × Exponent → ℤ)
    (hallowed : ∀ m p, allowed p → step m p = m.adjust p.1 (change p))
    (hrefused : ∀ m p, ¬ allowed p → step m p = .error (.outOfRange p.1))
    {l : List (String × Exponent)} (hl : l.Pairwise fun p q => p.1 < q.1)
    (h : l.foldlM step a = .error e) :
    ∃ p ∈ l, e = .outOfRange p.1 ∧ ¬ (allowed p ∧ Exponent.Fits (a.exponent p.1 + change p)) ∧
      ∀ q ∈ l, q.1 < p.1 → allowed q ∧ Exponent.Fits (a.exponent q.1 + change q) := by
  induction l generalizing a with
  | nil => cases h
  | cons p l ih =>
    obtain ⟨hp, hl⟩ := List.pairwise_cons.1 hl
    rw [List.foldlM_cons] at h
    by_cases hfits : allowed p ∧ Exponent.Fits (a.exponent p.1 + change p)
    · -- this change is made, and it is not one of the later names
      obtain ⟨n, hn, -⟩ := Exponent.ofInt?_isSome hfits.2
      have hstep : step a p = .ok (a.setExponent p.1 n) := by
        rw [hallowed a p hfits.1]
        simp only [adjust, hn]
      have hother : ∀ q ∈ l, (a.setExponent p.1 n).exponent q.1 = a.exponent q.1 := by
        intro q hq
        rw [exponent_setExponent, if_neg]
        intro heq
        exact String.lt_irrefl _ (heq ▸ hp q hq)
      rw [hstep, Except.ok_bind] at h
      obtain ⟨q, hq, he, hnot, hfirst⟩ := ih hl h
      refine ⟨q, List.mem_cons_of_mem _ hq, he, hother q hq ▸ hnot, ?_⟩
      intro q' hq' hlt
      rcases List.mem_cons.1 hq' with rfl | hq'
      · exact hfits
      · exact hother q' hq' ▸ hfirst q' hq' hlt
    · -- the first change cannot be made, and it is reported under its name either way
      have hstep : step a p = .error (.outOfRange p.1) := by
        by_cases hp' : allowed p
        · have hnone : Exponent.ofInt? (a.exponent p.1 + change p) = none :=
            if_neg fun hsum => hfits ⟨hp', hsum⟩
          rw [hallowed a p hp']
          simp only [adjust, hnone]
        · exact hrefused a p hp'
      rw [hstep] at h
      refine ⟨p, List.mem_cons_self .., (Except.error.inj h).symm, hfits, ?_⟩
      intro q hq hlt
      rcases List.mem_cons.1 hq with rfl | hq
      · exact absurd hlt (String.lt_irrefl _)
      · exact absurd (hp q hq) (String.lt_asymm hlt)

theorem eq_false_of_find? {test : String × Exponent → Bool} {l : List (String × Exponent)}
    (hl : l.Pairwise fun p q => p.1 < q.1) {p : String × Exponent} (h : l.find? test = some p) :
    ∀ q ∈ l, q.1 < p.1 → test q = false := by
  obtain ⟨-, before, after, rfl, hbefore⟩ := List.find?_eq_some_iff_append.1 h
  intro q hq hlt
  rw [List.pairwise_append, List.pairwise_cons] at hl
  rcases List.mem_append.1 hq with hq | hq
  · simpa using hbefore q hq
  · rcases List.mem_cons.1 hq with rfl | hq
    · exact absurd hlt (String.lt_irrefl _)
    · exact absurd (hl.2.1.1 q hq) (String.lt_asymm hlt)

/-! ### The operations, errors included -/

/-- **A product is exact, or the first sum that does not fit is reported.** -/
theorem mul_outcome (a b : Monomial) :
    Outcome (fun x => ¬ Exponent.Fits (a.exponent x + b.exponent x))
      (fun x => a.exponent x + b.exponent x) (a.mul b) := by
  cases h : a.mul b with
  | ok c =>
    have hc := mul_eq_ok_iff.1 h
    exact .exact (fun x => not_not.2 (hc x ▸ c.fits_exponent x)) hc
  | error e =>
    obtain ⟨p, hp, rfl, hnot, hfirst⟩ := exists_first_of_foldlM (fun _ => True)
      (fun p => p.2.toInt) (fun _ _ _ => rfl) (fun _ _ h => absurd trivial h)
      b.powers.ascending h
    refine .overflow (fun hfits => hnot ⟨trivial, exponent_of_mem hp ▸ hfits⟩) ?_
    intro y hy hoverflow
    refine hoverflow (forall_lt_of_factors (P := fun y n => Exponent.Fits (a.exponent y + n))
      (fun y => ?_) (fun q hq hlt => (hfirst q hq hlt).2) y hy)
    rw [Int.add_zero]
    exact a.fits_exponent y

/-- An exponent can be negated unless it is the least one. -/
theorem fits_neg_iff {n : ℤ} (h : Exponent.Fits n) : Exponent.Fits (-n) ↔ n ≠ -2147483648 := by
  unfold Exponent.Fits at *
  omega

/-- **A quotient is exact, or the first exponent is reported that cannot be taken off**: the least
of all, or one that leaves a difference that does not fit. -/
theorem div_outcome (a b : Monomial) :
    Outcome
      (fun x => b.exponent x = -2147483648 ∨ ¬ Exponent.Fits (a.exponent x - b.exponent x))
      (fun x => a.exponent x - b.exponent x) (a.div b) := by
  -- what the step checks is said of the negated exponent, what is refused of the exponent itself
  have hrefused : ∀ x n, Exponent.Fits n →
      ((n = -2147483648 ∨ ¬ Exponent.Fits (a.exponent x - n)) ↔
        ¬ (Exponent.Fits (-n) ∧ Exponent.Fits (a.exponent x + -n))) := by
    intro x n hn
    rw [fits_neg_iff hn, Int.sub_eq_add_neg]
    tauto
  cases h : a.div b with
  | ok c =>
    obtain ⟨hneg, hc⟩ := div_eq_ok_iff.1 h
    refine .exact (fun x => ?_) hc
    rw [hrefused x _ (b.fits_exponent x), ← Int.sub_eq_add_neg, ← hc x]
    exact not_not.2 ⟨hneg x, c.fits_exponent x⟩
  | error e =>
    obtain ⟨p, hp, rfl, hnot, hfirst⟩ := exists_first_of_foldlM
      (fun p => Exponent.Fits (-p.2.toInt)) (fun p => -p.2.toInt) (fun _ _ h => if_pos h)
      (fun _ _ h => if_neg h) b.powers.ascending h
    refine .overflow ?_ ?_
    · rw [hrefused _ _ (b.fits_exponent p.1), exponent_of_mem hp]
      exact hnot
    · intro y hy
      rw [hrefused _ _ (b.fits_exponent y), not_not]
      refine forall_lt_of_factors
        (P := fun y n => Exponent.Fits (-n) ∧ Exponent.Fits (a.exponent y + -n)) (fun y => ?_)
        hfirst y hy
      -- a name that does not occur has exponent zero
      exact ⟨by decide, by simpa using a.fits_exponent y⟩

/-- **A power is exact, or the first multiple that does not fit is reported.** -/
theorem pow_outcome (a : Monomial) {n : ℤ} (hn : n ≠ 0) :
    Outcome (fun x => ¬ Exponent.Fits (a.exponent x * n)) (fun x => a.exponent x * n)
      (a.pow n) := by
  cases h : a.pow n with
  | ok c =>
    obtain ⟨-, hc⟩ := pow_eq_ok_iff.1 h
    exact .exact (fun x => not_not.2 (hc x ▸ c.fits_exponent x)) hc
  | error e =>
    rw [pow, dif_neg hn] at h
    split at h
    · next x k hfind =>
      -- the factor that is found is the first one whose multiple does not fit
      obtain rfl := Except.error.inj h
      have hk : ¬ Exponent.Fits (k.toInt * n) := by simpa using List.find?_some hfind
      have hmem : (x, k) ∈ a.factors := List.mem_of_find?_eq_some hfind
      refine .overflow (fun hfits => hk (exponent_of_mem hmem ▸ hfits)) ?_
      intro y hy hoverflow
      refine hoverflow (forall_lt_of_factors (P := fun _ k => Exponent.Fits (k * n)) (fun _ => ?_)
        (fun q hq hlt => ?_) y hy)
      · rw [Int.zero_mul]
        decide
      · simpa using eq_false_of_find? a.powers.ascending hfind q hq hlt
    · cases h

/-! ### Overflow -/

/-- A product fails only where an exponent does not fit. -/
theorem exists_of_mul_eq_error (h : a.mul b = .error e) : ∃ name, e = .outOfRange name :=
  (h ▸ mul_outcome a b).exists_of_error

/-- A quotient fails only where an exponent does not fit. -/
theorem exists_of_div_eq_error (h : a.div b = .error e) : ∃ name, e = .outOfRange name :=
  (h ▸ div_outcome a b).exists_of_error

/-- A power other than the zeroth fails only where an exponent does not fit. -/
theorem exists_of_pow_eq_error {n : ℤ} (hn : n ≠ 0) (h : m.pow n = .error e) :
    ∃ name, e = .outOfRange name :=
  (h ▸ pow_outcome m hn).exists_of_error

/-- **When the operations overflow.**  A product and a power do so exactly if some exact exponent
does not fit, and a quotient does so also if some exponent of the divisor is the least of all.
Otherwise they have the exact exponents, and store no zeros. -/
theorem overflows_iff_not_fits (a b : Monomial) {n : ℤ} (hn : n ≠ 0) :
    ((Overflows (a.mul b) ↔ ∃ x, ¬ Exponent.Fits (a.exponent x + b.exponent x)) ∧
      (¬ Overflows (a.mul b) → IsExact (a.mul b) fun x => a.exponent x + b.exponent x)) ∧
    ((Overflows (a.div b) ↔
        ∃ x, b.exponent x = -2147483648 ∨ ¬ Exponent.Fits (a.exponent x - b.exponent x)) ∧
      (¬ Overflows (a.div b) → IsExact (a.div b) fun x => a.exponent x - b.exponent x)) ∧
    ((Overflows (a.pow n) ↔ ∃ x, ¬ Exponent.Fits (a.exponent x * n)) ∧
      (¬ Overflows (a.pow n) → IsExact (a.pow n) fun x => a.exponent x * n)) := by
  have hmul := mul_outcome a b
  have hdiv := div_outcome a b
  have hpow := pow_outcome a hn
  exact ⟨⟨hmul.overflows_iff, hmul.isExact⟩, ⟨hdiv.overflows_iff, hdiv.isExact⟩,
    ⟨hpow.overflows_iff, hpow.isExact⟩⟩

/-- An area times the largest exponent there is overflows, and so does a large power of it; the
quotient has an exponent that fits. -/
theorem overflows_iff_not_fits_area :
    let area : Monomial := .ofList [("length", 2)]
    let huge : Monomial := .ofList [("length", 2147483647)]
    (1500000000 : ℤ) ≠ 0 ∧ Overflows (area.mul huge) ∧ Overflows (area.pow 1500000000) ∧
      IsExact (area.div huge) fun x => area.exponent x - huge.exponent x := by
  intro area huge
  have hn : (1500000000 : ℤ) ≠ 0 := by decide
  obtain ⟨⟨hmul, -⟩, ⟨-, hdiv⟩, hpow, -⟩ := overflows_iff_not_fits area huge hn
  have hok : (area.div huge).isOk = true := by decide +kernel
  refine ⟨hn, hmul.2 ⟨"length", by decide +kernel⟩, hpow.2 ⟨"length", by decide +kernel⟩, hdiv ?_⟩
  rintro ⟨x, hx⟩
  rw [hx] at hok
  cases hok

/-- The least exponent of all cannot be divided by, though the difference fits. -/
theorem overflows_div_least :
    let a : Monomial := .ofList [("length", -1)]
    let b : Monomial := .ofList [("length", -2147483648)]
    a.exponent "length" - b.exponent "length" = 2147483647 ∧
      (∀ x, Exponent.Fits (a.exponent x - b.exponent x)) ∧ Overflows (a.div b) := by
  intro a b
  have hlength : a.exponent "length" - b.exponent "length" = 2147483647 := by decide +kernel
  refine ⟨hlength, fun x => ?_, "length", by decide +kernel⟩
  by_cases hx : x = "length"
  · rw [hx, hlength]
    decide
  · have ha : a.factors.map Prod.fst = ["length"] := by decide +kernel
    have hb : b.factors.map Prod.fst = ["length"] := by decide +kernel
    rw [exponent_of_notMem (by simp [ha, hx]), exponent_of_notMem (by simp [hb, hx])]
    decide

end ExactUnits.Monomial
