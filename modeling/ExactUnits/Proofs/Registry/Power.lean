import ExactUnits.Proofs.Registry.Keys
import ExactUnits.Proofs.Vocabulary.Exponent

/-!
# Keys with exponents

Behind a key of a registry an exponent can be spelled in many ways: with or without a caret, with
a plus sign or with none, with zeros in front, in ASCII or in superscripts.  All of them mean the
same power.  The key is in normal form, so the normal spelling only lowers the superscripts, and
the exponent is cut off where the key ends.

## Main results

* `Registry.readUnit_power` — **all spellings of an exponent behind a key are read as the same
  power of its unit.**
-/

namespace ExactUnits.Registry

open Text Vocabulary

variable {definitions : List Definition} {aliases : NameMap String} {r : Registry}
  {key spelling : String} {u : UnitOfMeasure} {e : ℤ}

/-- **All spellings of an exponent mean the same power.**  Behind a key without a mark that does
not end in a character of exponents, an exponent that is spelled in any way, superscripts included,
is refused if it is zero or beyond 1000; the first power is the unit of the key itself, and any
other one is its power, unless the unit has an offset.  The text must not be a key itself. -/
theorem readUnit_power (h : build definitions aliases = .ok r) (hkey : r.table[key]? = some u)
    (hnil : key ≠ "") (hstar : '*' ∉ key.toList) (hbar : '/' ∉ key.toList)
    (hlast : ∀ c ∈ key.toList.getLast?, isPowerChar c = false)
    (hspelling : SpellsPower (spelling.toList.map lowered) e)
    (hforeign : normalize (key ++ spelling) ∉ r.table) :
    r.readUnit (key ++ spelling) =
      if e = 0 ∨ 1000 < |e| then .error (.unknown (key ++ spelling))
      else if e = 1 then .ok u
      else if u.isAffine then .error (.composition u.toText (key ++ spelling))
      else u.pow e := by
  have hbase : key.toList ≠ [] := fun hempty => hnil (String.toList_inj.1 hempty)
  have hchars : ∀ c ∈ spelling.toList, isPowerChar (lowered c) = true := fun c hc =>
    hspelling.isPowerChar_of_mem (List.mem_map_of_mem hc)
  have hnormal : normalChars (key ++ spelling).toList =
      key.toList ++ spelling.toList.map lowered := by
    rw [String.toList_append]
    exact (isNormal_of_table h hkey).normalChars_append hchars
  -- the exponent has no mark either, so the whole text is a term
  have hmark : ∀ mark, isPowerChar mark = false → mark ∉ key.toList →
      mark ∉ key.toList ++ spelling.toList.map lowered := by
    intro mark hmark hnot hmem
    rcases List.mem_append.1 hmem with hmem | hmem
    · exact hnot hmem
    · rw [hspelling.isPowerChar_of_mem hmem] at hmark
      cases hmark
  have hfind : r.vocabulary.find? key.toList = some u := by
    rw [find?_toList]
    exact hkey
  have hnone : r.vocabulary.find? (key.toList ++ spelling.toList.map lowered) = none := by
    rw [← hnormal]
    exact Std.TreeMap.getElem?_eq_none hforeign
  have hlimit : (e = 0 ∨ termExponentLimit < e.natAbs) ↔ (e = 0 ∨ 1000 < |e|) := by
    rw [termExponentLimit, ← Int.natCast_natAbs]
    omega
  unfold readUnit Vocabulary.readUnit readChars
  rw [hnormal, String.ofList_toList, readNormal_eq_readTerm (by simp [hbase]) (hmark '*' rfl hstar)
    (hmark '/' rfl hbar), readTerm_append hbase hlast hspelling hfind hnone]
  simp only [hlimit]

/-- A minute to the power of minus two, written with a caret, a raised sign and a zero in front. -/
theorem readUnit_power_minute :
    let minute : Definition := ⟨"minute", ["min"], [], 60, none, .base "time", .none⟩
    ∃ r, build [minute] .empty = .ok r ∧ r.table["min"]? = some minute.unit ∧
      SpellsPower ("^\u207b02".toList.map lowered) (-2) ∧
        normalize ("min" ++ "^\u207b02") ∉ r.table ∧
          r.readUnit ("min" ++ "^\u207b02") = minute.unit.pow (-2) := by
  intro minute
  have hlookup : (build [minute] .empty >>= fun r =>
      .ok (r.table["min"]?, r.contains ("min" ++ "^\u207b02"))) =
        .ok (some minute.unit, false) := by decide +kernel
  obtain ⟨r, hr, hresults⟩ := Except.bind_eq_ok_iff.1 hlookup
  obtain ⟨hkey, hcontains⟩ := Prod.mk.inj (Except.ok.inj hresults)
  have hlowered : "^\u207b02".toList.map lowered = ['^', '-', '0', '2'] := by decide +kernel
  have hspelling : SpellsPower ("^\u207b02".toList.map lowered) (-2) := by
    rw [hlowered]
    exact .intro (.inr rfl) .minus (List.cons_ne_nil '0' ['2']) (by simp)
  have hforeign : normalize ("min" ++ "^\u207b02") ∉ r.table := by
    rw [Std.TreeMap.mem_iff_contains, Bool.not_eq_true]
    exact hcontains
  have hlast : ∀ c ∈ "min".toList.getLast?, isPowerChar c = false := by
    have hletter : "min".toList.getLast? = some 'n' := by decide
    rintro c hc
    obtain rfl : 'n' = c := Option.some.inj (hletter.symm.trans hc)
    decide
  refine ⟨r, hr, hkey, hspelling, hforeign, ?_⟩
  exact readUnit_power hr hkey (by decide) (by decide) (by decide) hlast hspelling hforeign

end ExactUnits.Registry
