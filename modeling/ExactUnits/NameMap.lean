/-!
# Finite maps from names

A map is the list of its entries in strictly ascending order of names, code point
by code point.  The order makes the list unique, so two maps are equal exactly if
every name has the same value in both.

## Main definitions

* `NameMap α` — the finite maps from names to `α`.
* `NameMap.find?` — the value of a name.
* `NameMap.insert`, `NameMap.erase`, `NameMap.ofList` — building maps.

## Main results

* `NameMap.find?_insert`, `NameMap.find?_erase` — what the operations do to `find?`.
* `NameMap.ext_find?` — **a map is determined by the values of the names.**
-/

namespace ExactUnits

/-- A finite map from names to `α`, in the order of the names. -/
structure NameMap (α : Type) where
  /-- The names with their values. -/
  entries : List (String × α)
  /-- The names ascend. -/
  ascending : entries.Pairwise (fun a b => a.1 < b.1)
  deriving DecidableEq

namespace NameMap

variable {α : Type}

/-! ### Entries in order -/

/-- Put an entry into its place, instead of one of the same name. -/
def insertEntry (name : String) (value : α) : List (String × α) → List (String × α)
  | [] => [(name, value)]
  | (n, v) :: rest =>
    if name < n then (name, value) :: (n, v) :: rest
    else if n < name then (n, v) :: insertEntry name value rest
    else (name, value) :: rest

theorem mem_insertEntry {name : String} {value : α} {entries : List (String × α)} {e : String × α}
    (h : e ∈ insertEntry name value entries) : e = (name, value) ∨ e ∈ entries := by
  induction entries with
  | nil => simpa [insertEntry] using h
  | cons head rest ih =>
    rw [insertEntry] at h
    split at h
    · exact List.mem_cons.1 h
    · split at h
      · rcases List.mem_cons.1 h with rfl | h
        · exact .inr (List.mem_cons_self ..)
        · exact (ih h).imp_right (List.mem_cons_of_mem _)
      · exact (List.mem_cons.1 h).imp_right (List.mem_cons_of_mem _)

theorem ascending_insertEntry (name : String) (value : α) {entries : List (String × α)}
    (h : entries.Pairwise (fun a b => a.1 < b.1)) :
    (insertEntry name value entries).Pairwise (fun a b => a.1 < b.1) := by
  induction entries with
  | nil => simp [insertEntry]
  | cons head rest ih =>
    obtain ⟨hhead, hrest⟩ := List.pairwise_cons.1 h
    rw [insertEntry]
    split
    · next hlt =>
      refine List.pairwise_cons.2 ⟨fun e he => ?_, h⟩
      rcases List.mem_cons.1 he with rfl | he
      · exact hlt
      · exact String.lt_trans hlt (hhead e he)
    · next hnlt =>
      split
      · next hgt =>
        refine List.pairwise_cons.2 ⟨fun e he => ?_, ih hrest⟩
        -- the new entry goes in behind the head, which is still the least
        rcases mem_insertEntry he with rfl | he
        · exact hgt
        · exact hhead e he
      · next hngt =>
        have heq : head.1 = name := String.le_antisymm (String.not_lt.1 hnlt) (String.not_lt.1 hngt)
        exact List.pairwise_cons.2 ⟨fun e he => heq ▸ hhead e he, hrest⟩

/-! ### The operations -/

/-- The map without entries. -/
def empty : NameMap α := ⟨[], .nil⟩

/-- The map with one entry. -/
def single (name : String) (value : α) : NameMap α := ⟨[(name, value)], List.pairwise_singleton ..⟩

/-- Set the value of a name. -/
def insert (map : NameMap α) (name : String) (value : α) : NameMap α :=
  ⟨insertEntry name value map.entries, ascending_insertEntry name value map.ascending⟩

/-- Keep the entries that satisfy `p`. -/
def filter (p : String × α → Bool) (map : NameMap α) : NameMap α :=
  ⟨map.entries.filter p, map.ascending.filter p⟩

/-- Apply a function to every value. -/
def map {β : Type} (f : α → β) (map : NameMap α) : NameMap β :=
  ⟨map.entries.map fun (name, value) => (name, f value),
    List.pairwise_map.2 (map.ascending.imp id)⟩

/-- Remove a name. -/
def erase (map : NameMap α) (name : String) : NameMap α := map.filter (·.1 != name)

/-- The map of a list of entries; the last one of a name counts. -/
def ofList (entries : List (String × α)) : NameMap α :=
  entries.foldl (fun map (name, value) => map.insert name value) empty

/-- The value of a name. -/
def find? (map : NameMap α) (name : String) : Option α := map.entries.lookup name

/-! ### The values after an operation -/

theorem lookup_cons_ite (key name : String) (value : α) (entries : List (String × α)) :
    ((name, value) :: entries).lookup key =
      if key = name then some value else entries.lookup key := by
  by_cases h : key = name
  · simp [h]
  · simp [List.lookup_cons, h, beq_eq_false_iff_ne.2 h]

theorem lookup_insertEntry (name : String) (value : α) (entries : List (String × α)) (key : String) :
    (insertEntry name value entries).lookup key =
      if key = name then some value else entries.lookup key := by
  induction entries with
  | nil => rw [insertEntry, lookup_cons_ite]
  | cons head rest ih =>
    obtain ⟨n, v⟩ := head
    rw [insertEntry]
    split
    · rw [lookup_cons_ite]
    · next hnlt =>
      split
      · next hgt =>
        rw [lookup_cons_ite, lookup_cons_ite, ih]
        -- the head stays in front, and it has another name than the new entry
        by_cases hn : key = n
        · have hne : n ≠ name := fun h => String.lt_irrefl _ (h ▸ hgt)
          rw [if_pos hn, if_pos hn, if_neg (hn ▸ hne)]
        · rw [if_neg hn, if_neg hn]
      · next hngt =>
        have heq : n = name := String.le_antisymm (String.not_lt.1 hnlt) (String.not_lt.1 hngt)
        subst heq
        rw [lookup_cons_ite, lookup_cons_ite]
        by_cases h : key = n
        · rw [if_pos h, if_pos h]
        · rw [if_neg h, if_neg h, if_neg h]

@[simp] theorem find?_empty (name : String) : (empty : NameMap α).find? name = none := rfl

theorem find?_insert (map : NameMap α) (name : String) (value : α) (key : String) :
    (map.insert name value).find? key = if key = name then some value else map.find? key :=
  lookup_insertEntry name value map.entries key

theorem find?_erase (map : NameMap α) (name key : String) :
    (map.erase name).find? key = if key = name then none else map.find? key := by
  simp only [find?, erase, filter]
  induction map.entries with
  | nil => simp
  | cons head rest ih =>
    obtain ⟨n, v⟩ := head
    rw [List.filter_cons, lookup_cons_ite]
    -- the head is taken out, or it stays and has another name
    by_cases hn : n = name
    · subst hn
      rw [if_neg (by simp), ih]
      by_cases hk : key = n
      · rw [if_pos hk, if_pos hk]
      · rw [if_neg hk, if_neg hk, if_neg hk]
    · rw [if_pos (by simpa using hn), lookup_cons_ite, ih]
      by_cases hk : key = n
      · rw [if_pos hk, if_pos hk, if_neg (hk ▸ hn)]
      · rw [if_neg hk, if_neg hk]

theorem find?_map {β : Type} (f : α → β) (map : NameMap α) (key : String) :
    (map.map f).find? key = (map.find? key).map f := by
  simp only [find?, NameMap.map]
  induction map.entries with
  | nil => rfl
  | cons head rest ih =>
    rw [List.map_cons, lookup_cons_ite, lookup_cons_ite, ih]
    split <;> rfl

theorem find?_eq_some_iff {map : NameMap α} {name : String} {value : α} :
    map.find? name = some value ↔ (name, value) ∈ map.entries := by
  obtain ⟨entries, ascending⟩ := map
  simp only [find?]
  induction entries with
  | nil => simp
  | cons head rest ih =>
    obtain ⟨n, v⟩ := head
    obtain ⟨hhead, hrest⟩ := List.pairwise_cons.1 ascending
    by_cases hn : name = n
    · subst hn
      constructor
      · intro h
        rw [lookup_cons_ite, if_pos rfl, Option.some.injEq] at h
        simp [h]
      · intro h
        rcases List.mem_cons.1 h with h | h
        · simp_all
        · -- an entry of the rest has a greater name
          exact absurd (hhead _ h) (String.lt_irrefl _)
    · rw [lookup_cons_ite, if_neg hn, ih hrest]
      simp [hn]

/-! ### Equality -/

private theorem entries_eq_of_mem_iff : ∀ {a b : List (String × α)},
    a.Pairwise (fun x y => x.1 < y.1) → b.Pairwise (fun x y => x.1 < y.1) →
      (∀ e, e ∈ a ↔ e ∈ b) → a = b
  | [], [], _, _, _ => rfl
  | [], e :: _, _, _, h => absurd ((h e).2 (List.mem_cons_self ..)) List.not_mem_nil
  | e :: _, [], _, _, h => absurd ((h e).1 (List.mem_cons_self ..)) List.not_mem_nil
  | x :: a, y :: b, ha, hb, h => by
    obtain ⟨hx, hta⟩ := List.pairwise_cons.1 ha
    obtain ⟨hy, htb⟩ := List.pairwise_cons.1 hb
    -- each head is the least entry of its list, so neither can stand further back in the other
    have hxy : x = y := by
      rcases List.mem_cons.1 ((h x).1 (List.mem_cons_self ..)) with hxy | hxb
      · exact hxy
      · rcases List.mem_cons.1 ((h y).2 (List.mem_cons_self ..)) with hyx | hya
        · exact hyx.symm
        · exact absurd (hx y hya) (String.lt_asymm (hy x hxb))
    subst hxy
    refine congrArg (x :: ·) (entries_eq_of_mem_iff hta htb fun e => ⟨fun he => ?_, fun he => ?_⟩)
    · refine (List.mem_cons.1 ((h e).1 (List.mem_cons_of_mem _ he))).resolve_left ?_
      rintro rfl
      exact String.lt_irrefl _ (hx e he)
    · refine (List.mem_cons.1 ((h e).2 (List.mem_cons_of_mem _ he))).resolve_left ?_
      rintro rfl
      exact String.lt_irrefl _ (hy e he)

/-- A map is determined by the values of the names. -/
theorem ext_find? {a b : NameMap α} (h : ∀ name, a.find? name = b.find? name) : a = b := by
  have hentries : a.entries = b.entries :=
    entries_eq_of_mem_iff a.ascending b.ascending fun e => by
      rw [← find?_eq_some_iff, ← find?_eq_some_iff, h]
  cases a
  cases b
  simpa using hentries

end NameMap

end ExactUnits
