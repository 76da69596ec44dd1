import ExactUnits.Proofs.Registry.Keys
import ExactUnits.Proofs.UnitOfMeasure.Product

/-!
# Reading joined texts

Two texts that stand for units can be joined by a bar or a star.  The parts may have been
read in another way than they are read in the whole: as keys, as powers, or as products of
their own.  But every way of reading a text without a bar gives the product of the units of
its terms, and the terms of the whole are those of the parts.

## Main definitions

* `Vocabulary.TermUnit` — the unit that a term brings into a product.

## Main results

* `Vocabulary.foldlM_mulTerm_eq_mulAll` — terms are read as the product of their units.
* `Vocabulary.readProduct_of_readNormal` — **a unit without an offset that is read from a
  text without a bar is the product of its terms.**
* `Registry.readUnit_joined` — **reading a joined text combines what the parts stand for.**
-/

namespace ExactUnits

open Text

namespace Vocabulary

variable {vocabulary : Vocabulary} {source : String} {term text above below : List Char}
  {u v w product : UnitOfMeasure} {units : List UnitOfMeasure} {terms : List (List Char)}

/-! ### Terms -/

/-- Only errors show the whole expression. -/
theorem readTerm_source (h : vocabulary.readTerm source term = .ok u) (source' : String) :
    vocabulary.readTerm source' term = .ok u :=
  readTerm_eq_ok_iff.2 (readTerm_eq_ok_iff.1 h)

/-- The unit that a term brings into a product: the term `1` stands for the empty product, and
any other one for a unit without an offset. -/
inductive TermUnit (vocabulary : Vocabulary) : List Char → UnitOfMeasure → Prop
  /-- The term `1`. -/
  | one : TermUnit vocabulary ['1'] .one
  /-- A term that is read. -/
  | read {term : List Char} {u : UnitOfMeasure} (hnil : term ≠ []) (hone : term ≠ ['1'])
      (hread : ∀ source, vocabulary.readTerm source term = .ok u) (hlinear : u.offset = none) :
      TermUnit vocabulary term u

theorem TermUnit.mulTerm_eq (h : TermUnit vocabulary term u) (hproduct : product.offset = none)
    (source : String) : vocabulary.mulTerm source product term = product.mul u := by
  cases h with
  | one => exact (UnitOfMeasure.mul_one_of_linear hproduct).symm
  | read hnil hone hread hlinear =>
    have hempty : term.isEmpty = false := by simpa using hnil
    have haffine : u.isAffine = false := UnitOfMeasure.isAffine_eq_false_iff.2 hlinear
    unfold mulTerm
    rw [hempty, if_neg (by decide), if_neg hone, hread, Except.ok_bind, haffine]
    rfl

/-- A term that does not fail brings in a unit. -/
theorem exists_termUnit (h : vocabulary.mulTerm source product term = .ok w) :
    ∃ u, TermUnit vocabulary term u := by
  obtain ⟨hnil, ⟨rfl, -⟩ | ⟨hone, u, hread, haffine, -⟩⟩ := mulTerm_eq_ok_iff.1 h
  · exact ⟨.one, .one⟩
  · have hlinear := UnitOfMeasure.isAffine_eq_false_iff.1 haffine
    exact ⟨u, .read hnil hone (readTerm_source hread) hlinear⟩

/-! ### Products -/

/-- **Terms are read as the product of their units**, and they fail as it does. -/
theorem foldlM_mulTerm_eq_mulAll (h : List.Forall₂ (TermUnit vocabulary) terms units)
    (hproduct : product.offset = none) (source : String) :
    terms.foldlM (vocabulary.mulTerm source) product = product.mulAll units := by
  induction h generalizing product with
  | nil => rfl
  | @cons term u terms units hterm _ ih =>
    rw [List.foldlM_cons, UnitOfMeasure.mulAll_cons, hterm.mulTerm_eq hproduct]
    -- the next product has no offset, whatever it is
    cases hmul : product.mul u with
    | error e => rfl
    | ok next => exact ih (UnitOfMeasure.mul_eq_ok_iff.1 hmul).2.2.2

theorem exists_units (h : terms.foldlM (vocabulary.mulTerm source) product = .ok w) :
    ∃ units, List.Forall₂ (TermUnit vocabulary) terms units := by
  induction terms generalizing product with
  | nil => exact ⟨[], .nil⟩
  | cons term terms ih =>
    rw [List.foldlM_cons, Except.bind_eq_ok_iff] at h
    obtain ⟨next, hnext, h⟩ := h
    obtain ⟨u, hu⟩ := exists_termUnit hnext
    obtain ⟨units, hunits⟩ := ih h
    exact ⟨u :: units, .cons hu hunits⟩

/-- A group that is read is the product of the units of its terms, for any expression. -/
theorem exists_units_of_readProduct (h : vocabulary.readProduct source text = .ok u) :
    ∃ units, List.Forall₂ (TermUnit vocabulary) (text.splitOn '*') units ∧
      UnitOfMeasure.one.mulAll units = .ok u ∧
        ∀ source', vocabulary.readProduct source' text = .ok u := by
  obtain ⟨units, hunits⟩ := exists_units h
  have heq : ∀ source', vocabulary.readProduct source' text = UnitOfMeasure.one.mulAll units :=
    foldlM_mulTerm_eq_mulAll hunits rfl
  have hproduct : UnitOfMeasure.one.mulAll units = .ok u := (heq source).symm.trans h
  exact ⟨units, hunits, hproduct, fun source' => (heq source').trans hproduct⟩

theorem offset_of_readProduct (h : vocabulary.readProduct source text = .ok u) :
    u.offset = none := by
  obtain ⟨units, -, hproduct, -⟩ := exists_units_of_readProduct h
  exact UnitOfMeasure.offset_of_mulAll rfl hproduct

/-- A single term is a product of its own. -/
theorem TermUnit.readProduct_eq (h : TermUnit vocabulary term u) (hu : u.offset = none)
    (hstar : '*' ∉ term) (source : String) : vocabulary.readProduct source term = .ok u := by
  have hterms : List.Forall₂ (TermUnit vocabulary) (term.splitOn '*') [u] := by
    rw [List.splitOn_eq_singleton hstar]
    exact .cons h .nil
  have hmul := foldlM_mulTerm_eq_mulAll hterms (rfl : UnitOfMeasure.one.offset = none) source
  rw [UnitOfMeasure.mulAll_cons, UnitOfMeasure.one_mul_of_linear hu] at hmul
  exact hmul

/-! ### Texts that are not known as a whole -/

/-- A single bar makes a quotient. -/
theorem readNormal_bar (hfind : vocabulary.find? (above ++ '/' :: below) = none)
    (habove : '/' ∉ above) (hbelow : '/' ∉ below) (source : String) :
    vocabulary.readNormal source (above ++ '/' :: below) =
      vocabulary.readProduct source above >>= fun numerator =>
        vocabulary.readProduct source below >>= fun denominator => numerator.div denominator := by
  have hcount : (above ++ '/' :: below).count '/' = 1 := by
    rw [List.count_append, List.count_cons_self, List.count_eq_zero.2 habove,
      List.count_eq_zero.2 hbelow]
  rw [readNormal_eq_readQuotient_of_find? hfind (.inr (by simp)) hcount.le, readQuotient_eq,
    cutAt_of_first habove]
  rfl

/-- Without a bar, a star makes a product, which is divided by one. -/
theorem readNormal_star (hfind : vocabulary.find? text = none) (hstar : '*' ∈ text)
    (hbar : '/' ∉ text) (source : String) :
    vocabulary.readNormal source text = vocabulary.readProduct source text := by
  have hcount : text.count '/' = 0 := List.count_eq_zero.2 hbar
  rw [readNormal_eq_readQuotient_of_find? hfind (.inl hstar) (by omega), readQuotient_eq,
    cutAt_of_notMem hbar]
  cases hproduct : vocabulary.readProduct source text with
  | error e => rfl
  | ok u => exact UnitOfMeasure.div_one_of_linear (offset_of_readProduct hproduct)

/-- Where `1` is not known, it is no term. -/
theorem ne_one_of_readTerm (hone : vocabulary "1" = none)
    (h : vocabulary.readTerm source term = .ok u) : term ≠ ['1'] := by
  rintro rfl
  have hfind : vocabulary.find? ['1'] = none := hone
  have hsplit : splitExponent? ['1'] = none := by decide
  unfold readTerm at h
  rw [hfind, hsplit] at h
  cases h

/-- **A unit without an offset that is read from a text without a bar is the product of its
terms.** -/
theorem readProduct_of_readNormal (hone : vocabulary "1" = none)
    (hstar : ∀ key u, vocabulary key = some u → '*' ∉ key.toList)
    (h : vocabulary.readNormal source text = .ok u) (hu : u.offset = none) (hbar : '/' ∉ text)
    (source' : String) : vocabulary.readProduct source' text = .ok u := by
  have hnil : text ≠ [] := by
    rintro rfl
    cases h
  by_cases hmem : '*' ∈ text
  · have hfind : vocabulary.find? text = none := by
      refine Option.eq_none_iff_forall_ne_some.2 fun v hv => hstar _ v hv ?_
      rwa [String.toList_ofList]
    rw [readNormal_star hfind hmem hbar] at h
    obtain ⟨-, -, -, hread⟩ := exists_units_of_readProduct h
    exact hread source'
  · -- a text without a star is a single term
    rw [readNormal_eq_readTerm hnil hmem hbar] at h
    have hterm : TermUnit vocabulary text u :=
      .read hnil (ne_one_of_readTerm hone h) (readTerm_source h) hu
    exact hterm.readProduct_eq hu hmem source'

/-- **A product of two texts is the product of the units, or it overflows.** -/
theorem readProduct_star (h : vocabulary.readProduct source above = .ok u)
    (h' : vocabulary.readProduct source below = .ok v) :
    (∃ w, u.mul v = .ok w ∧ vocabulary.readProduct source (above ++ '*' :: below) = .ok w) ∨
      ∃ name, vocabulary.readProduct source (above ++ '*' :: below) =
        .error (.exponent (.outOfRange name)) := by
  obtain ⟨units, hunits, hu, -⟩ := exists_units_of_readProduct h
  obtain ⟨units', hunits', hv, -⟩ := exists_units_of_readProduct h'
  -- the units of the second text are multiplied to the product of the first one
  have hread : vocabulary.readProduct source (above ++ '*' :: below) = u.mulAll units' := by
    have hterms : List.Forall₂ (TermUnit vocabulary) ((above ++ '*' :: below).splitOn '*')
        (units ++ units') := by
      rw [List.splitOn_append_cons_self]
      exact List.rel_append hunits hunits'
    have hall := foldlM_mulTerm_eq_mulAll hterms (rfl : UnitOfMeasure.one.offset = none) source
    rwa [UnitOfMeasure.mulAll_append, hu, Except.ok_bind] at hall
  rw [hread]
  refine (UnitOfMeasure.mulAll_cases u units').imp_left ?_
  rintro ⟨w, hw⟩
  have hone : u.mul .one = .ok u := UnitOfMeasure.mul_one_of_linear (offset_of_readProduct h)
  exact ⟨w, UnitOfMeasure.mul_of_mulAll hone hv hw, hw⟩

end Vocabulary

/-! ### Registries -/

namespace Registry

theorem readUnit_bar {r : Registry} {a b : String} (hnormal : IsNormal a.toList) (hnormal' : IsNormal b.toList)
    (hbar : '/' ∉ a.toList) (hbar' : '/' ∉ b.toList) (hkey : a ++ "/" ++ b ∉ r.table) :
    r.readUnit (a ++ "/" ++ b) =
      r.vocabulary.readProduct (a ++ "/" ++ b) a.toList >>= fun numerator =>
        r.vocabulary.readProduct (a ++ "/" ++ b) b.toList >>= fun denominator =>
          numerator.div denominator := by
  have htext : (a ++ "/" ++ b).toList = a.toList ++ '/' :: b.toList := by simp
  have hfind : r.vocabulary.find? (a.toList ++ '/' :: b.toList) = none := by
    rw [← htext, Vocabulary.find?_toList]
    exact Std.TreeMap.getElem?_eq_none hkey
  have hslash : IsNormal (a ++ "/" ++ b).toList := by
    rw [htext]
    exact hnormal.append_mark_cons (by decide) hnormal'
  unfold readUnit
  rw [Vocabulary.readUnit_of_isNormal hslash, htext, Vocabulary.readNormal_bar hfind hbar hbar']

/-- **Reading a joined text combines what the parts stand for.**  In a registry without a key
`1` and without stars in its keys, let two normal texts without a bar stand for units without
an offset.  With a bar between them they stand for the quotient, which may overflow, and so
everything behind the bar is below it; with a star they stand for the product, or the reading
overflows. -/
theorem readUnit_joined (r : Registry) (hone : "1" ∉ r.table)
    (hstar : ∀ key ∈ r.table, '*' ∉ key.toList) {a b : String} (hnormal : normalize a = a)
    (hnormal' : normalize b = b) (hbar : '/' ∉ a.toList) (hbar' : '/' ∉ b.toList)
    {u v : UnitOfMeasure} (hu : r.readUnit a = .ok u) (hv : r.readUnit b = .ok v)
    (hlinear : u.isAffine = false) (hlinear' : v.isAffine = false) :
    (a ++ "/" ++ b ∉ r.table → r.readUnit (a ++ "/" ++ b) = u.div v) ∧
      ((∃ w, u.mul v = .ok w ∧ r.readUnit (a ++ "*" ++ b) = .ok w) ∨
        ∃ name, r.readUnit (a ++ "*" ++ b) = .error (.exponent (.outOfRange name))) := by
  have hunknown : ∀ key : String, key ∉ r.table → r.vocabulary key = none := by
    intro key hkey
    exact Std.TreeMap.getElem?_eq_none hkey
  have hknown : ∀ key w, r.vocabulary key = some w → '*' ∉ key.toList := by
    intro key w hw
    refine hstar key ?_
    by_contra hkey
    rw [hunknown key hkey] at hw
    cases hw
  rw [normalize_eq_self_iff] at hnormal hnormal'
  unfold readUnit at hu hv
  rw [Vocabulary.readUnit_of_isNormal hnormal] at hu
  rw [Vocabulary.readUnit_of_isNormal hnormal'] at hv
  rw [UnitOfMeasure.isAffine_eq_false_iff] at hlinear hlinear'
  -- both parts are products of their terms, in any expression
  have hreadU := Vocabulary.readProduct_of_readNormal (hunknown _ hone) hknown hu hlinear hbar
  have hreadV := Vocabulary.readProduct_of_readNormal (hunknown _ hone) hknown hv hlinear' hbar'
  constructor
  · intro hkey
    rw [readUnit_bar hnormal hnormal' hbar hbar' hkey, hreadU, Except.ok_bind, hreadV,
      Except.ok_bind]
  · have htext : (a ++ "*" ++ b).toList = a.toList ++ '*' :: b.toList := by simp
    have hmem : '*' ∈ a.toList ++ '*' :: b.toList := by simp
    have hfind : r.vocabulary.find? (a.toList ++ '*' :: b.toList) = none := by
      refine Option.eq_none_iff_forall_ne_some.2 fun w hw => hknown _ w hw ?_
      rwa [String.toList_ofList]
    have hnot : '/' ∉ a.toList ++ '*' :: b.toList := by simp [hbar, hbar']
    have hmark : IsNormal (a ++ "*" ++ b).toList := by
      rw [htext]
      exact hnormal.append_mark_cons (by decide) hnormal'
    unfold readUnit
    rw [Vocabulary.readUnit_of_isNormal hmark, htext, Vocabulary.readNormal_star hfind hmem hnot]
    exact Vocabulary.readProduct_star (hreadU _) (hreadV _)

/-- In a registry of metres, seconds and minutes, `m*1*m` and `s*min` are joined by a bar to
the unit `metre^2/(minute*second)`. -/
theorem readUnit_joined_area :
    let metre : Definition := ⟨"metre", ["m"], [], 1, none, .base "length", .none⟩
    let second : Definition := ⟨"second", ["s"], [], 1, none, .base "time", .none⟩
    let minute : Definition := ⟨"minute", ["min"], [], 60, none, .base "time", .none⟩
    let area : UnitOfMeasure := ⟨.ofList [("metre", 2)], 1, .ofList [("length", 2)], none⟩
    let span : UnitOfMeasure :=
      ⟨.ofList [("minute", 1), ("second", 1)], 60, .ofList [("time", 2)], none⟩
    ∃ r, build [metre, second, minute] .empty = .ok r ∧
      r.readUnit "m*1*m" = .ok area ∧ r.readUnit "s*min" = .ok span ∧
      r.readUnit "m*1*m/s*min" = area.div span ∧
      ((∃ w, area.mul span = .ok w ∧ r.readUnit "m*1*m*s*min" = .ok w) ∨
        ∃ name, r.readUnit "m*1*m*s*min" = .error (.exponent (.outOfRange name))) := by
  intro metre second minute area span
  have hread : (build [metre, second, minute] .empty >>= fun r =>
      .ok (r.readUnit "m*1*m", r.readUnit "s*min")) = .ok (.ok area, .ok span) := by decide +kernel
  obtain ⟨r, hr, hresults⟩ := Except.bind_eq_ok_iff.1 hread
  obtain ⟨hu, hv⟩ := Prod.mk.inj (Except.ok.inj hresults)
  have hkeys : ∀ key ∈ r.table, key ∈ keys [metre, second, minute] .empty :=
    fun key => mem_keys_of_table hr
  have hone : "1" ∉ r.table := fun h => absurd (hkeys _ h) (by decide +kernel)
  have hstar : ∀ key ∈ keys [metre, second, minute] .empty, '*' ∉ key.toList := by decide +kernel
  have hwhole : "m*1*m" ++ "/" ++ "s*min" ∉ r.table :=
    fun h => absurd (hkeys _ h) (by decide +kernel)
  obtain ⟨hbar, hproduct⟩ := readUnit_joined r hone (fun key hkey => hstar key (hkeys key hkey))
    (by decide +kernel) (by decide +kernel) (by decide +kernel) (by decide +kernel) hu hv
    (by decide +kernel) (by decide +kernel)
  exact ⟨r, hr, hu, hv, hbar hwhole, hproduct⟩

end Registry

end ExactUnits
