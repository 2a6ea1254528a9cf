import Mathlib.Data.List.Induction
import Mathlib.Data.Nat.Notation

/-!
# Last writer wins

Of several versions the one of the greatest revision counts, and the last
among equal revisions. Taking versions in one after the other keeps just
this one, and where equal revisions mean equal versions neither their order
nor their repetition matters.
-/

namespace ShejaneRuntime.Lib

variable {β : Type} (revision : β → ℕ)

/-- A version comes in; an older one is ignored. -/
def newer (current : Option β) (b : β) : Option β :=
  match current with
  | none => some b
  | some a => if revision a ≤ revision b then some b else some a

def latest (l : List β) : Option β := l.foldl (newer revision) none

/-- The version that counts among some. -/
def IsLatest (l : List β) (x : β) : Prop :=
  ∃ l₁ l₂, l = l₁ ++ x :: l₂ ∧ (∀ y ∈ l₁, revision y ≤ revision x) ∧
    ∀ y ∈ l₂, revision y < revision x

variable {revision} {l l' m : List β} {c : Option β} {x y : β}

@[simp] theorem latest_nil : latest revision [] = none := rfl

theorem newer_isSome (revision : β → ℕ) (c : Option β) (b : β) : (newer revision c b).isSome := by
  cases c with
  | none => rfl
  | some a =>
      unfold newer
      dsimp only
      split <;> rfl

@[simp] theorem newer_none (b : β) : newer revision none b = some b := rfl

theorem newer_some (a b : β) : newer revision (some a) b =
    if revision a ≤ revision b then some b else some a := rfl

/-- Two versions that come in one after the other are the newer one of them. -/
theorem newer_newer (c : Option β) (a z : β) : newer revision (newer revision c a) z =
    (newer revision (some a) z).elim c (newer revision c) := by
  cases c with
  | none =>
      rw [newer_none, newer_some]
      split <;> rfl
  | some b =>
      rw [newer_some, newer_some a z]
      by_cases hba : revision b ≤ revision a <;> by_cases haz : revision a ≤ revision z
      · rw [if_pos hba, if_pos haz, newer_some, if_pos haz, Option.elim_some, newer_some,
          if_pos (Nat.le_trans hba haz)]
      · rw [if_pos hba, if_neg haz, newer_some, if_neg haz, Option.elim_some, newer_some,
          if_pos hba]
      · rw [if_neg hba, if_pos haz, Option.elim_some]
      · rw [if_neg hba, if_neg haz, newer_some, Option.elim_some, newer_some, if_neg hba,
          if_neg (by omega)]

theorem foldl_newer (c : Option β) (l : List β) :
    l.foldl (newer revision) c = (latest revision l).elim c (newer revision c) := by
  unfold latest
  induction l using List.reverseRecOn with
  | nil => rfl
  | append_singleton l z ih =>
      rw [List.foldl_append, List.foldl_append, ih]
      cases hl : l.foldl (newer revision) none with
      | none => rfl
      | some a => exact newer_newer c a z

theorem latest_append (l m : List β) : latest revision (l ++ m) =
    (latest revision m).elim (latest revision l) (newer revision (latest revision l)) := by
  unfold latest
  rw [List.foldl_append]
  exact foldl_newer _ m

theorem latest_concat (l : List β) (z : β) :
    latest revision (l ++ [z]) = newer revision (latest revision l) z :=
  latest_append l [z]

theorem latest_eq_none_iff : latest revision l = none ↔ l = [] := by
  constructor
  · intro h
    induction l using List.reverseRecOn with
    | nil => rfl
    | append_singleton l z _ =>
        rw [latest_concat] at h
        have hsome := newer_isSome revision (latest revision l) z
        rw [h] at hsome
        cases hsome
  · rintro rfl
    rfl

/-- What is left is the version that counts. -/
theorem isLatest_of_latest (h : latest revision l = some x) : IsLatest revision l x := by
  induction l using List.reverseRecOn generalizing x with
  | nil => cases h
  | append_singleton l z ih =>
      rw [latest_concat] at h
      cases hl : latest revision l with
      | none =>
          rw [hl] at h
          obtain rfl := Option.some.inj h
          rw [latest_eq_none_iff] at hl
          subst hl
          exact ⟨[], [], rfl, by simp, by simp⟩
      | some a =>
          rw [hl] at h
          obtain ⟨l₁, l₂, rfl, hbefore, hafter⟩ := ih hl
          unfold newer at h
          dsimp only at h
          split at h
          · rename_i hle
            obtain rfl := Option.some.inj h
            refine ⟨l₁ ++ a :: l₂, [], rfl, ?_, by simp⟩
            intro y hy
            rcases List.mem_append.mp hy with hy | hy
            · exact Nat.le_trans (hbefore y hy) hle
            · rcases List.mem_cons.mp hy with rfl | hy
              · exact hle
              · exact Nat.le_trans (Nat.le_of_lt (hafter y hy)) hle
          · obtain rfl := Option.some.inj h
            refine ⟨l₁, l₂ ++ [z], by simp, hbefore, ?_⟩
            intro y hy
            rcases List.mem_append.mp hy with hy | hy
            · exact hafter y hy
            · obtain rfl := List.mem_singleton.mp hy
              omega

theorem IsLatest.mem (h : IsLatest revision l x) : x ∈ l := by
  obtain ⟨l₁, l₂, rfl, _⟩ := h
  simp

theorem IsLatest.le (h : IsLatest revision l x) (hy : y ∈ l) : revision y ≤ revision x := by
  obtain ⟨l₁, l₂, rfl, hbefore, hafter⟩ := h
  rcases List.mem_append.mp hy with hy | hy
  · exact hbefore y hy
  · rcases List.mem_cons.mp hy with rfl | hy
    · exact Nat.le_refl _
    · exact Nat.le_of_lt (hafter y hy)

/-- Versions in another order, or some of them again. -/
theorem latest_congr (hconsistent : ∀ x ∈ l, ∀ y ∈ l, revision x = revision y → x = y)
    (hmem : ∀ x, x ∈ l ↔ x ∈ l') : latest revision l = latest revision l' := by
  cases hl : latest revision l with
  | none =>
      rw [latest_eq_none_iff] at hl
      subst hl
      symm
      rw [latest_eq_none_iff, List.eq_nil_iff_forall_not_mem]
      exact fun x hx ↦ List.not_mem_nil ((hmem x).mpr hx)
  | some x =>
      have hx := isLatest_of_latest hl
      cases hl' : latest revision l' with
      | none =>
          rw [latest_eq_none_iff] at hl'
          subst hl'
          exact absurd ((hmem x).mp hx.mem) List.not_mem_nil
      | some y =>
          have hy := isLatest_of_latest hl'
          have hyl := (hmem y).mpr hy.mem
          have hle := hx.le hyl
          have hge := hy.le ((hmem x).mp hx.mem)
          rw [hconsistent x hx.mem y hyl (by omega)]

/-- The same versions once more change nothing. -/
theorem foldl_newer_again (c : Option β) (l : List β) :
    l.foldl (newer revision) (l.foldl (newer revision) c) = l.foldl (newer revision) c := by
  rw [foldl_newer (l.foldl (newer revision) c), foldl_newer c]
  cases latest revision l with
  | none => rfl
  | some a =>
      simp only [Option.elim_some]
      cases c with
      | none => simp [newer]
      | some b =>
          simp only [newer]
          split_ifs with h
          · simp
          · simp [h]

end ShejaneRuntime.Lib
