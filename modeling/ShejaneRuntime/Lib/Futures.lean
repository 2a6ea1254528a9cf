import Mathlib.Data.List.Forall2
import Mathlib.Data.Nat.Basic

/-!
# Counting over all futures

Every member of a list still develops in some way. What a threshold can
come to in any future is what it comes to in the best one, where every
member that can count does.
-/

namespace ShejaneRuntime.Lib

variable {α : Type} {R : α → α → Prop} {p q : α → Bool}

theorem countP_le_of_forall₂ (h : ∀ a b, R a b → p b = true → q a = true) {l l' : List α}
    (hl : List.Forall₂ R l l') : l'.countP p ≤ l.countP q := by
  induction hl with
  | nil => exact Nat.le_refl _
  | @cons a b l l' hab _ ih =>
      rw [List.countP_cons, List.countP_cons]
      have hone : (if p b = true then 1 else 0) ≤ if q a = true then 1 else 0 := by
        by_cases hb : p b = true
        · rw [if_pos hb, if_pos (h a b hab hb)]
        · rw [if_neg hb]
          exact Nat.zero_le _
      omega

/-- The future in which every member develops as `best` says. -/
theorem forall₂_map_self {best : α → α} (h : ∀ a, R a (best a)) (l : List α) :
    List.Forall₂ R l (l.map best) := by
  induction l with
  | nil => exact .nil
  | cons a l ih => exact .cons (h a) ih

theorem exists_mem_of_forall₂ {l l' : List α} (hl : List.Forall₂ R l l') {a : α} (ha : a ∈ l) :
    ∃ b ∈ l', R a b := by
  induction hl with
  | nil => cases ha
  | @cons c d l l' hcd _ ih =>
      rcases List.mem_cons.mp ha with rfl | ha
      · exact ⟨d, List.mem_cons_self, hcd⟩
      · obtain ⟨b, hb, hab⟩ := ih ha
        exact ⟨b, List.mem_cons_of_mem d hb, hab⟩

/-- Picking members by what does not change picks their futures. -/
theorem forall₂_filter (h : ∀ a b, R a b → p a = p b) {l l' : List α}
    (hl : List.Forall₂ R l l') : List.Forall₂ R (l.filter p) (l'.filter p) := by
  induction hl with
  | nil => exact .nil
  | @cons a b l l' hab _ ih =>
      by_cases ha : p a = true
      · rw [List.filter_cons_of_pos ha, List.filter_cons_of_pos (h a b hab ▸ ha)]
        exact .cons hab ih
      · rw [List.filter_cons_of_neg ha, List.filter_cons_of_neg (h a b hab ▸ ha)]
        exact ih

theorem map_eq_of_forall₂ {β : Type} {f : α → β} (h : ∀ a b, R a b → f b = f a) {l l' : List α}
    (hl : List.Forall₂ R l l') : l'.map f = l.map f := by
  induction hl with
  | nil => rfl
  | cons hab _ ih => rw [List.map_cons, List.map_cons, h _ _ hab, ih]

end ShejaneRuntime.Lib
