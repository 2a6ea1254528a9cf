import Mathlib.Data.Nat.Notation
import Mathlib.Data.String.Basic

/-!
# Padded decimals order as their numbers

A number in decimal, with zeros before it up to a fixed width, stands before
another in the order of texts exactly when it is the smaller number. The same
goes for numbers of several places, written place after place.
-/

namespace ShejaneRuntime.Lib

/-! ## Texts that begin with equally long ones -/

section Lex

variable {α : Type} [LT α] {a b x y : List α}

/-- The first places decide, and only where they agree the others do. -/
theorem append_lt_append_iff (hlength : a.length = b.length) :
    a ++ x < b ++ y ↔ a < b ∨ a = b ∧ x < y := by
  induction a generalizing b with
  | nil =>
      obtain rfl := List.eq_nil_of_length_eq_zero hlength.symm
      simp
  | cons c a ih =>
      cases b with
      | nil => cases hlength
      | cons d b =>
          have ih' := ih (b := b) (Nat.succ.inj hlength)
          simp only [List.cons_append, List.cons_lt_cons_iff, ih', List.cons.injEq]
          constructor
          · rintro (h | ⟨rfl, h | ⟨rfl, h⟩⟩)
            · exact .inl (.inl h)
            · exact .inl (.inr ⟨rfl, h⟩)
            · exact .inr ⟨⟨rfl, rfl⟩, h⟩
          · rintro ((h | ⟨rfl, h⟩) | ⟨⟨rfl, rfl⟩, h⟩)
            · exact .inl h
            · exact .inr ⟨rfl, .inl h⟩
            · exact .inr ⟨rfl, .inr ⟨rfl, h⟩⟩

end Lex

/-! ## Digits -/

/-- The digit of a number below ten. -/
def digit (d : ℕ) : Char := Char.ofNat (48 + d)

/-- The last `width` decimal digits of a number. -/
def padded : ℕ → ℕ → List Char
  | 0, _ => []
  | width + 1, n => padded width (n / 10) ++ [digit (n % 10)]

variable {width m n a b r : ℕ}

@[simp] theorem length_padded (width n : ℕ) : (padded width n).length = width := by
  induction width generalizing n with
  | zero => rfl
  | succ width ih => rw [padded, List.length_append, ih, List.length_singleton]

theorem digit_lt_iff (ha : a < 10) (hb : b < 10) : digit a < digit b ↔ a < b := by
  have hall : ∀ a < 10, ∀ b < 10, (digit a < digit b ↔ a < b) := by decide +kernel
  exact hall a ha b hb

theorem digit_inj (ha : a < 10) (hb : b < 10) : digit a = digit b ↔ a = b := by
  constructor
  · intro h
    have hlt := (digit_lt_iff ha hb).not.mp (by rw [h]; exact lt_irrefl _)
    have hgt := (digit_lt_iff hb ha).not.mp (by rw [h]; exact lt_irrefl _)
    omega
  · rintro rfl
    rfl

/-! ## Texts that stand for numbers -/

/-- Two texts of one length that compare as two numbers do. -/
structure Orders (x y : List Char) (m n : ℕ) : Prop where
  length : x.length = y.length
  eq_iff : x = y ↔ m = n
  lt_iff : x < y ↔ m < n

variable {x y : List Char}

theorem Orders.nil : Orders [] [] 0 0 := ⟨rfl, by simp, by simp⟩

theorem mul_add_lt_iff (ha : a < r) (hb : b < r) :
    m * r + a < n * r + b ↔ m < n ∨ m = n ∧ a < b := by
  constructor
  · intro h
    rcases Nat.lt_trichotomy m n with hlt | rfl | hgt
    · exact .inl hlt
    · exact .inr ⟨rfl, by omega⟩
    · have hle := Nat.mul_le_mul_right r hgt
      rw [Nat.succ_mul] at hle
      omega
  · rintro (hlt | ⟨rfl, hab⟩)
    · have hle := Nat.mul_le_mul_right r hlt
      rw [Nat.succ_mul] at hle
      omega
    · omega

theorem mul_add_eq_iff (ha : a < r) (hb : b < r) : m * r + a = n * r + b ↔ m = n ∧ a = b := by
  have hlt := (mul_add_lt_iff (m := m) (n := n) ha hb).not
  have hgt := (mul_add_lt_iff (m := n) (n := m) hb ha).not
  constructor
  · intro h
    omega
  · rintro ⟨rfl, rfl⟩
    rfl

/-- One more place. -/
theorem Orders.append {u v : List Char} (h : Orders x y m n) (huv : Orders u v a b) (ha : a < r)
    (hb : b < r) : Orders (x ++ u) (y ++ v) (m * r + a) (n * r + b) where
  length := by rw [List.length_append, List.length_append, h.length, huv.length]
  eq_iff := by
    rw [mul_add_eq_iff ha hb, ← h.eq_iff, ← huv.eq_iff]
    constructor
    · exact fun heq ↦ List.append_inj heq h.length
    · rintro ⟨rfl, rfl⟩
      rfl
  lt_iff := by
    rw [append_lt_append_iff h.length, mul_add_lt_iff ha hb, h.lt_iff, h.eq_iff, huv.lt_iff]

/-- The same letters on both sides make no difference. -/
theorem Orders.separated (h : Orders x y m n) (separator : List Char) :
    Orders (x ++ separator) (y ++ separator) m n where
  length := by rw [List.length_append, List.length_append, h.length]
  eq_iff := by rw [List.append_left_inj, h.eq_iff]
  lt_iff := by
    rw [append_lt_append_iff h.length, h.lt_iff]
    simp

theorem orders_padded (hm : m < 10 ^ width) (hn : n < 10 ^ width) :
    Orders (padded width m) (padded width n) m n := by
  induction width generalizing m n with
  | zero =>
      obtain rfl : m = 0 := by omega
      obtain rfl : n = 0 := by omega
      exact .nil
  | succ width ih =>
      rw [Nat.pow_succ] at hm hn
      have hfirst := ih (m := m / 10) (n := n / 10) (by omega) (by omega)
      have hm10 : m % 10 < 10 := Nat.mod_lt _ (by decide)
      have hn10 : n % 10 < 10 := Nat.mod_lt _ (by decide)
      have hlast : Orders [digit (m % 10)] [digit (n % 10)] (m % 10) (n % 10) :=
        ⟨rfl, by simp [digit_inj hm10 hn10], by
          simp [List.cons_lt_cons_iff, digit_lt_iff hm10 hn10]⟩
      have h := hfirst.append hlast hm10 hn10
      rwa [Nat.div_add_mod', Nat.div_add_mod'] at h

end ShejaneRuntime.Lib
