import Mathlib.Data.List.Basic

/-!
# The end of a list from the last element of a kind

A history is looked at from its last event of a kind on. What comes before the
end of a history that holds such an event does not count.
-/

namespace ShejaneRuntime.Lib

variable {α : Type}

/-- The list from its last element of the kind on. -/
def fromLast (p : α → Bool) : List α → Option (List α)
  | [] => none
  | a :: rest =>
    match fromLast p rest with
    | some tail => some tail
    | none => if p a then some (a :: rest) else none

variable {p q : α → Bool} {xs ys tail : List α}

theorem fromLast_eq_none : fromLast p xs = none ↔ ∀ a ∈ xs, p a = false := by
  induction xs with
  | nil => simp [fromLast]
  | cons a rest ih =>
      unfold fromLast
      cases hrest : fromLast p rest with
      | some tail =>
          have hsome : ¬∀ a ∈ rest, p a = false := by
            rw [← ih, hrest]
            simp
          simp only [List.forall_mem_cons, reduceCtorEq, false_iff, not_and]
          exact fun _ ↦ hsome
      | none =>
          rw [List.forall_mem_cons, ← ih, hrest]
          by_cases ha : p a = true
          · simp [ha]
          · simp [ha]

/-- The end begins with an element of the kind and has no other. -/
theorem fromLast_eq_some : fromLast p xs = some tail ↔
    ∃ before a after, xs = before ++ tail ∧ tail = a :: after ∧ p a = true ∧
      ∀ b ∈ after, p b = false := by
  induction xs with
  | nil =>
      simp only [fromLast, reduceCtorEq, false_iff]
      rintro ⟨before, a, after, h, rfl, _⟩
      simp at h
  | cons x rest ih =>
      unfold fromLast
      cases hrest : fromLast p rest with
      | some tail' =>
          rw [hrest] at ih
          rw [ih]
          constructor
          · rintro ⟨before, a, after, rfl, htail, ha, hafter⟩
            exact ⟨x :: before, a, after, rfl, htail, ha, hafter⟩
          · rintro ⟨before, a, after, h, htail, ha, hafter⟩
            cases before with
            | nil =>
                -- the rest would have no element of the kind
                have hnone : fromLast p rest = none := by
                  rw [List.nil_append, htail] at h
                  cases h
                  exact fromLast_eq_none.mpr hafter
                rw [hrest] at hnone
                cases hnone
            | cons y before =>
                cases h
                exact ⟨before, a, after, rfl, htail, ha, hafter⟩
      | none =>
          have hnone := fromLast_eq_none.mp hrest
          by_cases hx : p x = true
          · simp only [hx, if_true, Option.some.injEq]
            constructor
            · rintro rfl
              exact ⟨[], x, rest, rfl, rfl, hx, hnone⟩
            · rintro ⟨before, a, after, h, rfl, ha, _⟩
              cases before with
              | nil => exact h
              | cons y before =>
                  cases h
                  have hfalse := hnone a (by simp)
                  rw [ha] at hfalse
                  cases hfalse
          · simp only [hx, if_false, reduceCtorEq, false_iff]
            rintro ⟨before, a, after, h, rfl, ha, _⟩
            cases before with
            | nil =>
                cases h
                exact hx ha
            | cons y before =>
                cases h
                have hfalse := hnone a (by simp)
                rw [ha] at hfalse
                cases hfalse

/-- What comes before an end that has an element of the kind does not count. -/
theorem fromLast_append (h : ∃ a ∈ ys, p a = true) : fromLast p (xs ++ ys) = fromLast p ys := by
  have hsome : ∃ tail, fromLast p ys = some tail := by
    cases hys : fromLast p ys with
    | some tail => exact ⟨tail, rfl⟩
    | none =>
        obtain ⟨a, hmem, ha⟩ := h
        rw [fromLast_eq_none.mp hys a hmem] at ha
        cases ha
  obtain ⟨tail, htail⟩ := hsome
  rw [htail, fromLast_eq_some]
  obtain ⟨before, a, after, rfl, hsplit, ha, hafter⟩ := fromLast_eq_some.mp htail
  exact ⟨xs ++ before, a, after, by rw [List.append_assoc], hsplit, ha, hafter⟩

end ShejaneRuntime.Lib
