import Mathlib.Data.List.Nodup
import Mathlib.Data.List.Basic

/-!
# Tables with a primary key

A table is a list of rows in insertion order whose keys are distinct.
The operations are the ones a transaction performs on it: look a row up
by key, select, insert under a fresh key, and update in place.
-/

namespace ShejaneRuntime.Lib

variable {κ ρ : Type}

/-- Rows in insertion order, no two of which share a key. -/
structure Table (key : ρ → κ) where
  rows : List ρ
  nodup : (rows.map key).Nodup

namespace Table

variable {key : ρ → κ}

def empty : Table key := ⟨[], List.nodup_nil⟩

instance : Inhabited (Table key) := ⟨empty⟩

@[simp] theorem rows_empty : (empty : Table key).rows = [] := rfl

/-- The rows satisfying a condition, in insertion order. -/
def select (t : Table key) (p : ρ → Bool) : List ρ := t.rows.filter p

/-- Update in place every row satisfying a condition; keys never change. -/
def update (t : Table key) (p : ρ → Bool) (f : ρ → ρ)
    (hf : ∀ r, key (f r) = key r := by intro; rfl) : Table key where
  rows := t.rows.map fun r ↦ if p r then f r else r
  nodup := by
    have hkeys : (t.rows.map fun r ↦ if p r then f r else r).map key = t.rows.map key := by
      rw [List.map_map]
      apply List.map_congr_left
      intro r _
      by_cases hp : p r <;> simp [hp, hf]
    rw [hkeys]
    exact t.nodup

/-- The number of rows an update with this condition changes. -/
def rowcount (t : Table key) (p : ρ → Bool) : ℕ := (t.select p).length

def delete (t : Table key) (p : ρ → Bool) : Table key where
  rows := t.rows.filter fun r ↦ !p r
  nodup := (List.filter_sublist.map key).nodup t.nodup

theorem mem_update {t : Table key} {p : ρ → Bool} {f : ρ → ρ} {hf : ∀ r, key (f r) = key r}
    {r : ρ} : r ∈ (t.update p f hf).rows ↔ ∃ r₀ ∈ t.rows, (if p r₀ then f r₀ else r₀) = r := by
  simp [update]

theorem rowcount_eq_zero_iff {t : Table key} {p : ρ → Bool} :
    t.rowcount p = 0 ↔ ∀ r ∈ t.rows, p r = false := by
  simp [rowcount, select, List.filter_eq_nil_iff]

variable [DecidableEq κ]

/-- The row stored under a key. -/
def find? (t : Table key) (k : κ) : Option ρ := t.rows.find? fun r ↦ decide (key r = k)

/-- Insert a row; `none` when its key is taken. -/
def insert? (t : Table key) (r : ρ) : Option (Table key) :=
  if h : key r ∈ t.rows.map key then none
  else some ⟨t.rows ++ [r], by
    rw [List.map_append]
    exact List.nodup_append.mpr ⟨t.nodup, by simp, by
      intro k hk k' hk' hkk
      simp only [List.map_cons, List.map_nil, List.mem_singleton] at hk'
      exact h (hk' ▸ hkk ▸ hk)⟩⟩

theorem key_of_find? {t : Table key} {k : κ} {r : ρ} (h : t.find? k = some r) : key r = k := by
  simpa using List.find?_some h

theorem mem_of_find? {t : Table key} {k : κ} {r : ρ} (h : t.find? k = some r) : r ∈ t.rows :=
  List.mem_of_find?_eq_some h

theorem find?_of_mem {t : Table key} {r : ρ} (h : r ∈ t.rows) : t.find? (key r) = some r := by
  cases hfind : t.find? (key r) with
  | none =>
      have hnone := List.find?_eq_none.mp hfind r h
      simp at hnone
  | some r' =>
      have hkey : key r' = key r := key_of_find? hfind
      have heq : r' = r := List.inj_on_of_nodup_map t.nodup (mem_of_find? hfind) h hkey
      rw [heq]

theorem find?_eq_some_iff {t : Table key} {k : κ} {r : ρ} :
    t.find? k = some r ↔ r ∈ t.rows ∧ key r = k := by
  constructor
  · intro h
    exact ⟨mem_of_find? h, key_of_find? h⟩
  · rintro ⟨hmem, rfl⟩
    exact find?_of_mem hmem

theorem find?_eq_none_iff {t : Table key} {k : κ} :
    t.find? k = none ↔ ∀ r ∈ t.rows, key r ≠ k := by
  simp [find?, List.find?_eq_none]

@[simp] theorem find?_empty (k : κ) : (empty : Table key).find? k = none := rfl

theorem find?_map_rows {rows : List ρ} {g : ρ → ρ} (hg : ∀ r, key (g r) = key r) (k : κ) :
    (rows.map g).find? (fun r ↦ decide (key r = k)) =
      (rows.find? fun r ↦ decide (key r = k)).map g := by
  induction rows with
  | nil => rfl
  | cons r rows ih =>
      by_cases hr : key r = k
      · simp [hg, hr]
      · simp [hg, hr, ih]

/-- Reading a key after an update. -/
@[simp] theorem find?_update (t : Table key) (p : ρ → Bool) (f : ρ → ρ)
    (hf : ∀ r, key (f r) = key r) (k : κ) :
    (t.update p f hf).find? k = (t.find? k).map fun r ↦ if p r then f r else r := by
  apply find?_map_rows
  intro r
  by_cases hp : p r <;> simp [hp, hf]

theorem rows_of_insert? {t t' : Table key} {r : ρ} (h : t.insert? r = some t') :
    t'.rows = t.rows ++ [r] := by
  unfold insert? at h
  split at h
  · cases h
  · cases h
    rfl

theorem find?_key_of_insert? {t t' : Table key} {r : ρ} (h : t.insert? r = some t') :
    t.find? (key r) = none := by
  unfold insert? at h
  split at h
  · cases h
  · rename_i hfresh
    rw [find?_eq_none_iff]
    intro r' hr' hkey
    exact hfresh (List.mem_map.mpr ⟨r', hr', hkey⟩)

theorem find?_insert? {t t' : Table key} {r : ρ} (h : t.insert? r = some t') (k : κ) :
    t'.find? k = if k = key r then some r else t.find? k := by
  have hrows := rows_of_insert? h
  have hfresh := find?_key_of_insert? h
  unfold find? at hfresh ⊢
  rw [hrows, List.find?_append]
  by_cases hk : k = key r
  · subst hk
    simp [hfresh]
  · have hk' : ¬key r = k := fun hc ↦ hk hc.symm
    simp [hk, hk']

theorem mem_insert? {t t' : Table key} {r r' : ρ} (h : t.insert? r = some t') :
    r' ∈ t'.rows ↔ r' ∈ t.rows ∨ r' = r := by
  simp [rows_of_insert? h]

theorem mem_of_insert? {t t' : Table key} {r : ρ} (h : t.insert? r = some t') : r ∈ t'.rows :=
  (mem_insert? h).mpr (.inr rfl)

/-- Insertion succeeds exactly under a fresh key. -/
theorem insert?_isSome_iff {t : Table key} {r : ρ} :
    (t.insert? r).isSome ↔ t.find? (key r) = none := by
  constructor
  · intro h
    obtain ⟨t', ht'⟩ := Option.isSome_iff_exists.mp h
    exact find?_key_of_insert? ht'
  · intro h
    have hfresh : key r ∉ t.rows.map key := by
      intro hmem
      obtain ⟨r', hr', hkey⟩ := List.mem_map.mp hmem
      exact find?_eq_none_iff.mp h r' hr' hkey
    simp [insert?, hfresh]

end Table

end ShejaneRuntime.Lib
