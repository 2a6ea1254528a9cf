import Mathlib.Data.Int.Order.Basic
import Mathlib.Data.List.Basic

/-!
# Positions

The positions of a numbered list: the integers from one up to a length. A
list that is numbered so can be cut at any of its positions and continued.
-/

namespace ShejaneRuntime.Lib

/-- The integers `1, ..., n`. -/
def upTo (n : ℕ) : List ℤ := (List.range n).map fun k : ℕ ↦ (k : ℤ) + 1

@[simp] theorem upTo_zero : upTo 0 = [] := rfl

@[simp] theorem length_upTo (n : ℕ) : (upTo n).length = n := by simp [upTo]

theorem upTo_succ (n : ℕ) : upTo (n + 1) = upTo n ++ [(n : ℤ) + 1] := by
  simp [upTo, List.range_succ]

theorem mem_upTo {n : ℕ} {x : ℤ} : x ∈ upTo n ↔ 1 ≤ x ∧ x ≤ n := by
  simp only [upTo, List.mem_map, List.mem_range]
  constructor
  · rintro ⟨k, hk, rfl⟩
    omega
  · rintro ⟨hlow, hhigh⟩
    exact ⟨(x - 1).toNat, by omega, by omega⟩

theorem pairwise_upTo (n : ℕ) : (upTo n).Pairwise (· < ·) := by
  induction n with
  | zero => exact List.Pairwise.nil
  | succ n ih =>
      rw [upTo_succ, List.pairwise_append]
      refine ⟨ih, List.pairwise_singleton _ _, ?_⟩
      intro x hx y hy
      rw [mem_upTo] at hx
      rw [List.mem_singleton] at hy
      omega

/-- Cutting the list at one of its positions. -/
theorem filter_upTo {m n : ℕ} (h : m ≤ n) :
    (upTo n).filter (fun x ↦ decide (x ≤ (m : ℤ))) = upTo m := by
  induction n with
  | zero =>
      obtain rfl : m = 0 := by omega
      rfl
  | succ n ih =>
      rw [upTo_succ, List.filter_append]
      rcases Nat.lt_or_ge n m with hlt | hle
      · obtain rfl : m = n + 1 := by omega
        have hall : (upTo n).filter (fun x ↦ decide (x ≤ ((n + 1 : ℕ) : ℤ))) = upTo n := by
          rw [List.filter_eq_self]
          intro x hx
          rw [mem_upTo] at hx
          rw [decide_eq_true_eq]
          omega
        rw [hall, upTo_succ]
        simp
      · have hlast : ¬((n : ℤ) + 1 ≤ m) := by omega
        rw [ih hle]
        simp [hlast]

theorem max?_upTo (n : ℕ) : (upTo n).max?.getD 0 = n := by
  cases n with
  | zero => rfl
  | succ n =>
      have hmax : (upTo (n + 1)).max? = some ((n + 1 : ℕ) : ℤ) := by
        rw [List.max?_eq_some_iff]
        refine ⟨mem_upTo.mpr (by omega), fun x hx ↦ ?_⟩
        exact (mem_upTo.mp hx).2
      rw [hmax]
      rfl

/-- A list that is numbered in order, and what it counts to. -/
theorem eq_upTo_of_cut {α : Type} {f : α → ℤ} {xs : List α} {n m : ℕ}
    (h : xs.map f = upTo n) (hm : m ≤ n) :
    (xs.filter fun x ↦ decide (f x ≤ (m : ℤ))).map f = upTo m := by
  rw [← filter_upTo hm, ← h, List.filter_map]
  rfl

end ShejaneRuntime.Lib
