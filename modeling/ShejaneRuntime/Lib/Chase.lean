import Mathlib.Data.List.Nodup
import Mathlib.Data.Nat.Notation
import Mathlib.Logic.Relation

/-!
# Following links

Every element links to one other at most. A walk along the links that
remembers where it was and stops at the first element it meets again ends on
every finite set of links, cycles or not, and meets exactly what the links
lead to.
-/

namespace ShejaneRuntime.Lib

open Relation

variable {α : Type} {next : α → Option α} {target a b : α} {seen : List α}

/-- One link. -/
def Links (next : α → Option α) (a b : α) : Prop := next a = some b

/-- A set with all its links leads nowhere else. -/
theorem mem_of_links (hclosed : ∀ s ∈ seen, ∀ b, next s = some b → b ∈ seen)
    (h : ReflTransGen (Links next) a b) (ha : a ∈ seen) : b ∈ seen := by
  induction h with
  | refl => exact ha
  | tail _ hlink ih => exact hclosed _ ih _ hlink

theorem links_of_ne (h : ReflTransGen (Links next) a target) (hne : a ≠ target) :
    ∃ b, next a = some b ∧ ReflTransGen (Links next) b target := by
  rcases ReflTransGen.cases_head h with rfl | ⟨b, hlink, hrest⟩
  · exact absurd rfl hne
  · exact ⟨b, hlink, hrest⟩

/-- The walk so far: everything seen has its link among what was seen or to
the element that comes next, and the target was not met. -/
structure Chased (next : α → Option α) (target : α) (seen : List α) (current : Option α) :
    Prop where
  missed : target ∉ seen
  linked : ∀ s ∈ seen, ∀ b, next s = some b → b ∈ seen ∨ current = some b

theorem Chased.start (current : Option α) : Chased next target [] current where
  missed := by simp
  linked s hs := by simp at hs

theorem Chased.step (h : Chased next target seen (some a)) (hne : a ≠ target) :
    Chased next target (a :: seen) (next a) where
  missed := by
    rw [List.mem_cons, not_or]
    exact ⟨fun hc ↦ hne hc.symm, h.missed⟩
  linked s hs b hlink := by
    rcases List.mem_cons.mp hs with rfl | hs
    · exact .inr hlink
    · rcases h.linked s hs b hlink with hb | hb
      · exact .inl (List.mem_cons_of_mem _ hb)
      · cases hb
        exact .inl List.mem_cons_self

variable [DecidableEq α]

/-- Follow the links until the target, an end or an element already seen;
`none` when the steps run out first. -/
def chase (next : α → Option α) (target : α) : ℕ → List α → Option α → Option Bool
  | 0, _, _ => none
  | _ + 1, _, none => some false
  | fuel + 1, seen, some a =>
    if a ∈ seen then some false
    else if a = target then some true
    else chase next target fuel (a :: seen) (next a)

/-- An element met for the first time is one fewer to meet. -/
theorem unseen_lt {stored : List α} (ha : a ∈ stored) (hseen : a ∉ seen) :
    (stored.filter fun x ↦ x ∉ a :: seen).length < (stored.filter fun x ↦ x ∉ seen).length := by
  have hsplit : (stored.filter fun x ↦ x ∉ a :: seen) =
      (stored.filter fun x ↦ x ∉ seen).filter fun x ↦ x ≠ a := by
    rw [List.filter_filter]
    apply List.filter_congr
    intro x _
    simp [not_or]
  rw [hsplit, List.length_filter_lt_length_iff_exists]
  exact ⟨a, by simp [ha, hseen], by simp⟩

/-- With a step for every element that has a link, and one more, the walk ends
and answers whether the links lead to the target. -/
theorem chase_spec {stored : List α} (hstored : ∀ a b, next a = some b → a ∈ stored) {fuel : ℕ}
    {current : Option α} (hfuel : (stored.filter fun x ↦ x ∉ seen).length + 1 < fuel)
    (h : Chased next target seen current) :
    ∃ found, chase next target fuel seen current = some found ∧
      (found = true ↔ ∃ a, current = some a ∧ ReflTransGen (Links next) a target) := by
  induction fuel generalizing seen current with
  | zero => omega
  | succ fuel ih =>
      cases current with
      | none => exact ⟨false, rfl, by simp⟩
      | some a =>
          unfold chase
          by_cases hseen : a ∈ seen
          · refine ⟨false, if_pos hseen, ?_⟩
            simp only [Bool.false_eq_true, Option.some.injEq, exists_eq_left', false_iff]
            intro hreach
            apply h.missed
            apply mem_of_links _ hreach hseen
            intro s hs b hlink
            rcases h.linked s hs b hlink with hb | hb
            · exact hb
            · cases hb
              exact hseen
          · rw [if_neg hseen]
            by_cases heq : a = target
            · exact ⟨true, if_pos heq, by simp [heq, ReflTransGen.refl]⟩
            · rw [if_neg heq]
              cases hnext : next a with
              | none =>
                  have hpos : fuel ≠ 0 := by omega
                  obtain ⟨fuel, rfl⟩ := Nat.exists_eq_succ_of_ne_zero hpos
                  refine ⟨false, rfl, ?_⟩
                  simp only [Bool.false_eq_true, Option.some.injEq, exists_eq_left', false_iff]
                  intro hreach
                  obtain ⟨b, hlink, _⟩ := links_of_ne hreach heq
                  rw [hnext] at hlink
                  cases hlink
              | some b =>
                  have hless : (stored.filter fun x ↦ x ∉ a :: seen).length <
                      (stored.filter fun x ↦ x ∉ seen).length :=
                    unseen_lt (hstored a b hnext) hseen
                  obtain ⟨found, hfound, hiff⟩ := ih (by omega) (hnext ▸ h.step heq)
                  refine ⟨found, hfound, hiff.trans ?_⟩
                  simp only [Option.some.injEq, exists_eq_left']
                  constructor
                  · exact fun hrest ↦ .head hnext hrest
                  · intro hreach
                    obtain ⟨b', hlink, hrest⟩ := links_of_ne hreach heq
                    rw [hnext] at hlink
                    cases hlink
                    exact hrest

end ShejaneRuntime.Lib
