import Mathlib.Data.List.Forall2
import ExactUnits.Failure

/-!
# Outcomes of computations that can fail

A computation that can fail is a chain of steps, each of which needs the one
before to succeed.  The lemmas take a successful chain apart, and carry a
property through a fold whose every step keeps it.

## Main results

* `Except.bind_eq_ok_iff`, `Except.mapError_eq_ok_iff` — when a step succeeds.
* `Except.bind_eq_error_iff`, `Except.mapError_eq_error_iff` — when a step fails.
* `Except.mapError_returned_eq_error_iff` — a step that returns its errors does not panic.
* `Except.foldlM_induction` — a property that every step of a fold keeps.
* `Except.exists_step_of_foldlM` — a fold that succeeds has no step that fails.
* `Except.error_of_foldlM` — a fold fails as one of its steps does.
* `Except.mapM_outcome` — a list is mapped as a whole, or its first failure is reported.
* `Except.foldlM_mono` — a fold whose steps succeed more often does so too.
-/

namespace Except

variable {ε δ α β : Type}

/-- A chain succeeds if its steps do. -/
theorem bind_eq_ok_iff {x : Except ε α} {f : α → Except ε β} {b : β} :
    (x >>= f) = .ok b ↔ ∃ a, x = .ok a ∧ f a = .ok b := by
  cases x <;> simp [bind, Except.bind]

@[simp] theorem mapError_eq_ok_iff {x : Except ε α} {f : ε → δ} {a : α} :
    x.mapError f = .ok a ↔ x = .ok a := by
  cases x with
  | error e =>
    show (Except.error (f e) : Except δ α) = .ok a ↔ _
    simp
  | ok b =>
    show (Except.ok b : Except δ α) = .ok a ↔ _
    simp

/-- A chain fails if one of its steps does. -/
theorem bind_eq_error_iff {x : Except ε α} {f : α → Except ε β} {e : ε} :
    (x >>= f) = .error e ↔ x = .error e ∨ ∃ a, x = .ok a ∧ f a = .error e := by
  cases x <;> simp [bind, Except.bind]

theorem mapError_eq_error_iff {x : Except ε α} {f : ε → δ} {d : δ} :
    x.mapError f = .error d ↔ ∃ e, x = .error e ∧ f e = d := by
  cases x with
  | error e =>
    show (Except.error (f e) : Except δ α) = .error d ↔ _
    simp
  | ok b =>
    show (Except.ok b : Except δ α) = .error d ↔ _
    simp

@[simp] theorem mapError_ok (f : ε → δ) (a : α) :
    (Except.ok a : Except ε α).mapError f = .ok a := rfl

@[simp] theorem ok_map (f : α → β) (a : α) : (Except.ok a : Except ε α).map f = .ok (f a) := rfl

@[simp] theorem ok_bind (a : α) (f : α → Except ε β) : (Except.ok a >>= f) = f a := rfl

@[simp] theorem pure_eq_ok_iff {a b : α} : (pure a : Except ε α) = .ok b ↔ a = b := by
  simp [pure, Except.pure]

/-- What holds at the start of a fold and is kept by every step holds at its end. -/
theorem foldlM_induction {step : β → α → Except ε β} (P : β → Prop) {items : List α}
    {start last : β} (hstart : P start)
    (hstep : ∀ b a c, a ∈ items → P b → step b a = .ok c → P c)
    (h : items.foldlM step start = .ok last) : P last := by
  induction items generalizing start with
  | nil =>
    obtain rfl : start = last := pure_eq_ok_iff.1 h
    exact hstart
  | cons a items ih =>
    rw [List.foldlM_cons, bind_eq_ok_iff] at h
    obtain ⟨next, hnext, hrest⟩ := h
    exact ih (hstep _ _ _ (List.mem_cons_self ..) hstart hnext)
      (fun b x c hx => hstep b x c (List.mem_cons_of_mem _ hx)) hrest

theorem exists_step_of_foldlM {step : β → α → Except ε β} {items : List α} {start last : β}
    (h : items.foldlM step start = .ok last) {a : α} (ha : a ∈ items) :
    ∃ b c, step b a = .ok c := by
  induction items generalizing start with
  | nil => cases ha
  | cons d items ih =>
    rw [List.foldlM_cons, bind_eq_ok_iff] at h
    obtain ⟨next, hnext, hrest⟩ := h
    rcases List.mem_cons.1 ha with rfl | ha
    · exact ⟨start, next, hnext⟩
    · exact ih hrest ha

theorem error_of_foldlM {step : β → α → Except ε β} (P : ε → Prop) {items : List α} {start : β}
    {e : ε} (hstep : ∀ b a e, a ∈ items → step b a = .error e → P e)
    (h : items.foldlM step start = .error e) : P e := by
  induction items generalizing start with
  | nil => cases h
  | cons a items ih =>
    rw [List.foldlM_cons, bind_eq_error_iff] at h
    rcases h with h | ⟨next, -, h⟩
    · exact hstep _ _ _ (List.mem_cons_self ..) h
    · exact ih (fun b x e hx => hstep b x e (List.mem_cons_of_mem _ hx)) h

/-- A fold goes on to succeed if its steps do, with the same results. -/
theorem foldlM_mono {step step' : β → α → Except ε β} {items : List α} {start last : β}
    (hstep : ∀ b a c, step b a = .ok c → step' b a = .ok c)
    (h : items.foldlM step start = .ok last) : items.foldlM step' start = .ok last := by
  induction items generalizing start with
  | nil => exact h
  | cons a items ih =>
    rw [List.foldlM_cons, bind_eq_ok_iff] at h ⊢
    obtain ⟨next, hnext, hrest⟩ := h
    exact ⟨next, hstep _ _ _ hnext, ih hrest⟩

/-- A list is mapped item by item: either all of them succeed, or the first one that does not
has its error. -/
theorem mapM_outcome (f : α → Except ε β) (items : List α) :
    (∃ results, List.Forall₂ (fun a b => f a = .ok b) items results ∧
      items.mapM f = .ok results) ∨
    ∃ before a after e, items = before ++ a :: after ∧ (∀ x ∈ before, ∃ b, f x = .ok b) ∧
      f a = .error e ∧ items.mapM f = .error e := by
  induction items with
  | nil => exact .inl ⟨[], .nil, rfl⟩
  | cons a items ih =>
    cases h : f a with
    | error e =>
      refine .inr ⟨[], a, items, e, rfl, by simp, h, ?_⟩
      rw [List.mapM_cons, h]
      rfl
    | ok b =>
      have hstep : (a :: items).mapM f = items.mapM f >>= fun rest => pure (b :: rest) := by
        rw [List.mapM_cons, h]
        rfl
      rcases ih with ⟨results, hall, hmap⟩ | ⟨before, x, after, e, rfl, hbefore, hx, hmap⟩
      · refine .inl ⟨b :: results, .cons h hall, ?_⟩
        rw [hstep, hmap]
        rfl
      · refine .inr ⟨a :: before, x, after, e, rfl, List.forall_mem_cons.2 ⟨⟨b, h⟩, hbefore⟩, hx, ?_⟩
        rw [hstep, hmap]
        rfl

/-! ### Steps that return their errors -/

open ExactUnits (Failure)

/-- A step whose errors are returned does not panic. -/
theorem mapError_returned_eq_error_iff {x : Except ε α} {failure : Failure ε} :
    x.mapError Failure.returned = .error failure ↔ ∃ e, x = .error e ∧ failure = .returned e := by
  rw [mapError_eq_error_iff]
  exact exists_congr fun e => and_congr_right fun _ => eq_comm

end Except
