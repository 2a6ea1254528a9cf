import Mathlib

/-!
# Whole numbers as doubles

A double has 53 binary places. A whole number that needs more of them goes to
the nearest double, and to the even one of two that are equally near.
-/

namespace ShejaneRuntime.Lib.Binary64

variable {n : ℕ}

/-- The last place of the doubles next to a number. -/
def place (n : ℕ) : ℕ := 2 ^ (n.log2 - 52)

def round (n : ℕ) : ℕ :=
  let low := n / place n
  let rest := n % place n
  if place n < 2 * rest ∨ (place n = 2 * rest ∧ low % 2 = 1) then (low + 1) * place n
  else low * place n

/-- What rounds to this much is no finite double. -/
def overflow : ℕ := 2 ^ 1024

/-- Numbers that are doubles. -/
def IsDouble (n : ℕ) : Prop := (∃ m e, m < 2 ^ 53 ∧ n = m * 2 ^ e) ∧ n < overflow

theorem place_pos (n : ℕ) : 0 < place n := Nat.two_pow_pos _

theorem place_dvd_round (n : ℕ) : place n ∣ round n := by
  unfold round
  dsimp only
  split
  · exact Nat.dvd_mul_left _ _
  · exact Nat.dvd_mul_left _ _

theorem round_eq_self_iff_dvd : round n = n ↔ place n ∣ n := by
  constructor
  · intro h
    have hdvd := place_dvd_round n
    rwa [h] at hdvd
  · intro h
    have hrest : n % place n = 0 := Nat.mod_eq_zero_of_dvd h
    have hpos := place_pos n
    unfold round
    dsimp only
    rw [hrest, if_neg (by omega)]
    exact Nat.div_mul_cancel h

/-- A number ends at its last place when 53 places are enough for it. -/
theorem place_dvd_iff : place n ∣ n ↔ ∃ m e, m < 2 ^ 53 ∧ n = m * 2 ^ e := by
  constructor
  · rintro ⟨m, hm⟩
    refine ⟨m, n.log2 - 52, ?_, by rw [Nat.mul_comm]; exact hm⟩
    have hlt : n < 2 ^ (53 + (n.log2 - 52)) :=
      Nat.lt_of_lt_of_le Nat.lt_log2_self (Nat.pow_le_pow_right (by decide) (by omega))
    rw [Nat.pow_add] at hlt
    have hmul : 2 ^ (n.log2 - 52) * m < 2 ^ (n.log2 - 52) * 2 ^ 53 := by
      rw [Nat.mul_comm _ (2 ^ 53)]
      calc 2 ^ (n.log2 - 52) * m = n := hm.symm
        _ < 2 ^ 53 * 2 ^ (n.log2 - 52) := hlt
    exact Nat.lt_of_mul_lt_mul_left hmul
  · rintro ⟨m, e, hm, hn⟩
    by_cases hzero : n = 0
    · rw [hzero]
      exact Nat.dvd_zero _
    · have hlt : n < 2 ^ (53 + e) := by
        rw [hn, Nat.pow_add]
        exact Nat.mul_lt_mul_of_pos_right hm (Nat.two_pow_pos e)
      have hlog : n.log2 < 53 + e := (Nat.log2_lt hzero).mpr hlt
      have hle : n.log2 - 52 ≤ e := by omega
      have hdvd : 2 ^ e ∣ n := by
        rw [hn]
        exact Nat.dvd_mul_left _ _
      exact Nat.dvd_trans (Nat.pow_dvd_pow 2 hle) hdvd

/-- The doubles are the numbers that rounding leaves alone. -/
theorem isDouble_iff : IsDouble n ↔ round n = n ∧ n < overflow := by
  rw [IsDouble, round_eq_self_iff_dvd, place_dvd_iff]

end ShejaneRuntime.Lib.Binary64
