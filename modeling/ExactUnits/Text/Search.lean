/-!
# Finding, cutting and replacing in a text

The searches run from left to right and take the first occurrence; replacing
goes on behind the occurrence it has just replaced, so occurrences never
overlap and a replacement is not searched again.

## Main definitions

* `cutAt p text` — the text before the first character with `p`, and what
  follows that character if there is one.
* `cut? pattern text` — the text before and behind the first occurrence.
* `replaceAll pattern replacement text` — every occurrence replaced.
-/

namespace ExactUnits.Text

/-! ### Cutting at a character -/

/-- The text before the first character that satisfies `p`, and, if there is
such a character, the text behind it. -/
def cutAt (p : Char → Bool) (text : List Char) : List Char × Option (List Char) :=
  (text.takeWhile (!p ·), (text.dropWhile (!p ·)).tail?)

@[simp] theorem cutAt_nil (p : Char → Bool) : cutAt p [] = ([], none) := rfl

theorem cutAt_cons (p : Char → Bool) (c : Char) (text : List Char) :
    cutAt p (c :: text) =
      if p c then ([], some text) else (c :: (cutAt p text).1, (cutAt p text).2) := by
  cases h : p c <;> simp [cutAt, h]

/-! ### Cutting at a pattern -/

/-- The text before and behind the first occurrence of a pattern, which is taken
not to be empty. -/
def cut? (pattern : List Char) : List Char → Option (List Char × List Char)
  | [] => none
  | c :: text =>
    if pattern.isPrefixOf (c :: text) then some ([], (c :: text).drop pattern.length)
    else (cut? pattern text).map fun (before, after) => (c :: before, after)

/-- A cut loses the occurrence only. -/
theorem eq_of_cut? {pattern text before after : List Char}
    (h : cut? pattern text = some (before, after)) : text = before ++ pattern ++ after := by
  induction text generalizing before with
  | nil => simp [cut?] at h
  | cons c text ih =>
    rw [cut?] at h
    split at h
    · next hp =>
      obtain ⟨rest, hrest⟩ := List.isPrefixOf_iff_prefix.1 hp
      simp only [Option.some.injEq, Prod.mk.injEq] at h
      obtain ⟨rfl, rfl⟩ := h
      simp [← hrest]
    · obtain ⟨⟨b, a⟩, hcut, heq⟩ := Option.map_eq_some_iff.1 h
      simp only [Prod.mk.injEq] at heq
      obtain ⟨rfl, rfl⟩ := heq
      simp [ih hcut]

/-! ### Replacing -/

/-- Replace every occurrence of a pattern behind the first `skip` characters,
which are dropped: they belong to an occurrence that has been replaced. -/
def replaceFrom (pattern replacement : List Char) : Nat → List Char → List Char
  | _, [] => []
  | skip + 1, _ :: text => replaceFrom pattern replacement skip text
  | 0, c :: text =>
    if pattern.isPrefixOf (c :: text) then
      replacement ++ replaceFrom pattern replacement (pattern.length - 1) text
    else c :: replaceFrom pattern replacement 0 text

/-- Every occurrence of a pattern replaced, from left to right. -/
def replaceAll (pattern replacement text : List Char) : List Char :=
  replaceFrom pattern replacement 0 text

@[simp] theorem replaceFrom_nil (pattern replacement : List Char) (skip : Nat) :
    replaceFrom pattern replacement skip [] = [] := by cases skip <;> rfl

/-- Skipping is dropping. -/
theorem replaceFrom_eq_replaceAll_drop (pattern replacement : List Char) (skip : Nat)
    (text : List Char) :
    replaceFrom pattern replacement skip text = replaceAll pattern replacement (text.drop skip) := by
  induction skip generalizing text with
  | zero => rfl
  | succ skip ih =>
    cases text with
    | nil => simp [replaceAll]
    | cons c text => simpa [replaceFrom] using ih text

@[simp] theorem replaceAll_nil (pattern replacement : List Char) :
    replaceAll pattern replacement [] = [] := rfl

/-- One step of a replacement: an occurrence at the front is replaced and left
behind, any other character stays. -/
theorem replaceAll_cons (pattern replacement : List Char) (c : Char) (text : List Char) :
    replaceAll pattern replacement (c :: text) =
      if pattern.isPrefixOf (c :: text) then
        replacement ++ replaceAll pattern replacement (text.drop (pattern.length - 1))
      else c :: replaceAll pattern replacement text := by
  rw [replaceAll, replaceFrom, replaceFrom_eq_replaceAll_drop]
  rfl

end ExactUnits.Text
