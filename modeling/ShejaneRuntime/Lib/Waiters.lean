import Mathlib.Data.List.Nodup
import Mathlib.Data.List.Perm.Subperm
import Mathlib.Data.Int.Order.Basic
import Mathlib.Logic.Function.Basic

/-!
# Waiting on a condition

The tasks that wait on a condition variable of a cooperative scheduler. A
task joins with what it waits for; its wait ends when it is notified or
canceled and it then runs again. A notification is lost when a task whose
condition has come true is left with its wait open.
-/

namespace ShejaneRuntime.Lib

variable {ι ρ : Type}

/-- How a wait stands: open, or ended by a notification or a cancellation. -/
inductive Wake where
  | pending | notified | canceled
  deriving DecidableEq, Repr

/-- The tasks in a wait, and the order in which they joined. -/
structure Waiters (ι ρ : Type) where
  wait : ι → Option (ρ × Wake)
  queue : List ι

namespace Waiters

variable (w : Waiters ι ρ) {t t' : ι} {r r' : ρ}

def empty : Waiters ι ρ := ⟨fun _ ↦ none, []⟩

/-- The task waits and nothing has ended its wait. -/
def Pending (t : ι) (r : ρ) : Prop := w.wait t = some (r, .pending)

/-- The task that has waited longest of those whose wait is open. -/
def first : Option ι := w.queue.find? fun t ↦ (w.wait t).any fun p ↦ p.2 = .pending

/-- `notify_all` -/
def notifyAll : Waiters ι ρ :=
  { w with wait := fun t ↦ (w.wait t).map fun p ↦
      (p.1, if p.2 = .pending then .notified else p.2) }

theorem not_pending_notifyAll : ¬w.notifyAll.Pending t r := by
  unfold Pending notifyAll
  dsimp only
  intro h
  obtain ⟨p, _, hp⟩ := Option.map_eq_some_iff.mp h
  rw [Prod.mk.injEq] at hp
  split at hp
  · cases hp.2
  · rename_i hne
    exact hne hp.2

/-- What the tasks wait for is not changed by a notification. -/
theorem wait_notifyAll (t : ι) : (w.notifyAll.wait t).map Prod.fst = (w.wait t).map Prod.fst := by
  simp [notifyAll, Function.comp_def]

variable [DecidableEq ι]

def join (t : ι) (r : ρ) : Waiters ι ρ :=
  ⟨Function.update w.wait t (some (r, .pending)), w.queue ++ [t]⟩

def quit (t : ι) : Waiters ι ρ := ⟨Function.update w.wait t none, w.queue.erase t⟩

/-- End the wait of a task. -/
def rouse (t : ι) (wake : Wake) : Waiters ι ρ :=
  { w with wait := Function.update w.wait t ((w.wait t).map fun p ↦ (p.1, wake)) }

/-- `notify(1)` -/
def notifyOne : Waiters ι ρ :=
  match w.first with
  | some t => w.rouse t .notified
  | none => w

theorem pending_join : (w.join t r).Pending t' r' ↔ if t' = t then r' = r else w.Pending t' r' := by
  unfold Pending join
  dsimp only
  rw [Function.update_apply]
  split
  · simp [eq_comm]
  · rfl

theorem pending_quit : (w.quit t).Pending t' r' ↔ t' ≠ t ∧ w.Pending t' r' := by
  unfold Pending quit
  dsimp only
  rw [Function.update_apply]
  split
  · simp_all
  · simp_all

theorem pending_rouse {wake : Wake} (hwake : wake ≠ .pending) :
    (w.rouse t wake).Pending t' r' ↔ t' ≠ t ∧ w.Pending t' r' := by
  unfold Pending rouse
  dsimp only
  rw [Function.update_apply]
  split
  · rename_i heq
    simp [heq, hwake]
  · simp_all

theorem pending_notifyOne :
    w.notifyOne.Pending t' r' ↔ w.first ≠ some t' ∧ w.Pending t' r' := by
  unfold notifyOne
  split
  · rename_i t hfirst
    rw [pending_rouse w (by decide), hfirst, ne_eq, ne_eq, Option.some.injEq, eq_comm]
  · rename_i hfirst
    simp [hfirst]

theorem wait_rouse (t t' : ι) (wake : Wake) :
    ((w.rouse t wake).wait t').map Prod.fst = (w.wait t').map Prod.fst := by
  unfold rouse
  dsimp only
  rw [Function.update_apply]
  split
  · rename_i heq
    rw [heq, Option.map_map]
    rfl
  · rfl

theorem wait_notifyOne (t' : ι) : (w.notifyOne.wait t').map Prod.fst = (w.wait t').map Prod.fst := by
  unfold notifyOne
  split
  · exact w.wait_rouse _ _ _
  · rfl

end Waiters

/-! ## Counting tasks -/

/-- As many tasks as the number have the property. -/
def Counts (p : ι → Prop) (n : ℤ) : Prop :=
  ∃ ts : List ι, ts.Nodup ∧ (∀ t, t ∈ ts ↔ p t) ∧ n = ts.length

namespace Counts

variable {p q : ι → Prop} {n : ℤ}

theorem nil : Counts (fun _ : ι ↦ False) 0 := ⟨[], List.nodup_nil, by simp, rfl⟩

theorem congr (h : Counts p n) (hpq : ∀ t, q t ↔ p t) : Counts q n := by
  obtain ⟨ts, hnodup, hmem, hn⟩ := h
  exact ⟨ts, hnodup, fun t ↦ (hmem t).trans (hpq t).symm, hn⟩

theorem nonneg (h : Counts p n) : 0 ≤ n := by
  obtain ⟨ts, _, _, rfl⟩ := h
  exact Int.natCast_nonneg _

theorem eq_zero_iff (h : Counts p n) : n = 0 ↔ ∀ t, ¬p t := by
  obtain ⟨ts, _, hmem, rfl⟩ := h
  rw [Int.natCast_eq_zero, List.length_eq_zero_iff, List.eq_nil_iff_forall_not_mem]
  exact forall_congr' fun t ↦ not_congr (hmem t)

variable {t : ι}

theorem add (h : Counts p n) (ht : ¬p t) (hq : ∀ t', q t' ↔ t' = t ∨ p t') :
    Counts q (n + 1) := by
  obtain ⟨ts, hnodup, hmem, rfl⟩ := h
  refine ⟨t :: ts, List.nodup_cons.mpr ⟨fun hc ↦ ht ((hmem t).mp hc), hnodup⟩, ?_, ?_⟩
  · intro t'
    rw [List.mem_cons, hmem, hq]
  · rw [List.length_cons]
    omega

theorem remove [DecidableEq ι] (h : Counts p n) (ht : p t)
    (hq : ∀ t', q t' ↔ t' ≠ t ∧ p t') : Counts q (n - 1) := by
  obtain ⟨ts, hnodup, hmem, rfl⟩ := h
  refine ⟨ts.erase t, hnodup.erase t, ?_, ?_⟩
  · intro t'
    rw [hnodup.mem_erase_iff, hmem, hq]
  · have hin : t ∈ ts := (hmem t).mpr ht
    have hpos := List.length_pos_of_mem hin
    rw [List.length_erase_of_mem hin]
    omega

/-- If no other task has the property, the count is one. -/
theorem eq_one_iff (h : Counts p n) (ht : p t) : n = 1 ↔ ∀ t', p t' → t' = t := by
  obtain ⟨ts, hnodup, hmem, rfl⟩ := h
  have hin : t ∈ ts := (hmem t).mpr ht
  constructor
  · intro hone t' ht'
    have hlength : ts.length = 1 := by omega
    obtain ⟨u, rfl⟩ := List.length_eq_one_iff.mp hlength
    have h₁ := List.mem_singleton.mp ((hmem t').mpr ht')
    rw [h₁, ← List.mem_singleton.mp hin]
  · intro hall
    have hsub : ts ⊆ [t] := fun t' ht' ↦ List.mem_singleton.mpr (hall t' ((hmem t').mp ht'))
    have hle : ts.length ≤ 1 := (List.subperm_of_subset hnodup hsub).length_le
    have hpos := List.length_pos_of_mem hin
    omega

end Counts

end ShejaneRuntime.Lib
