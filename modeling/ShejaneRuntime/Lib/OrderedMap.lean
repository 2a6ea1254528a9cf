import Mathlib.Data.List.Induction
import Mathlib.Data.List.Nodup
import Mathlib.Data.List.Perm.Basic

/-!
# Maps that remember the order of insertion

A map is the list of its entries. An entry replaces the one of its key where
that one stands, or comes last.
-/

namespace ShejaneRuntime.Lib.OrderedMap

variable {β κ : Type} [DecidableEq κ] (key : β → κ)

def get? (entries : List β) (k : κ) : Option β := entries.find? fun b ↦ key b = k

def set (entries : List β) (b : β) : List β :=
  if (get? key entries (key b)).isSome then entries.map fun a ↦ if key a = key b then b else a
  else entries ++ [b]

/-- An entry only where there is none of its key. -/
def setdefault (entries : List β) (b : β) : List β :=
  if (get? key entries (key b)).isSome then entries else entries ++ [b]

/-- The map of some entries; the last of a key counts. -/
def ofEntries (entries : List β) : List β := entries.foldl (set key) []

variable {key} {entries entries' : List β} {b : β} {k : κ}

theorem get?_eq_some_iff (hnodup : (entries.map key).Nodup) :
    get? key entries k = some b ↔ b ∈ entries ∧ key b = k := by
  unfold get?
  constructor
  · intro h
    exact ⟨List.mem_of_find?_eq_some h, by simpa using List.find?_some h⟩
  · rintro ⟨hmem, rfl⟩
    cases hfind : entries.find? fun a ↦ key a = key b with
    | none =>
        have hnone := List.find?_eq_none.mp hfind b hmem
        simp at hnone
    | some a =>
        have hkey : key a = key b := by simpa using List.find?_some hfind
        have hsame := List.inj_on_of_nodup_map hnodup (List.mem_of_find?_eq_some hfind) hmem hkey
        rw [hsame]

theorem get?_isSome_iff : (get? key entries k).isSome ↔ k ∈ entries.map key := by
  unfold get?
  rw [List.find?_isSome]
  simp

theorem keys_set (entries : List β) (b : β) : (set key entries b).map key =
    if key b ∈ entries.map key then entries.map key else entries.map key ++ [key b] := by
  unfold set
  by_cases h : (get? key entries (key b)).isSome
  · rw [if_pos h, if_pos (get?_isSome_iff.mp h), List.map_map]
    apply List.map_congr_left
    intro a _
    by_cases ha : key a = key b <;> simp [ha]
  · rw [if_neg h, if_neg fun hc ↦ h (get?_isSome_iff.mpr hc), List.map_append]
    rfl

theorem nodup_set (h : (entries.map key).Nodup) : ((set key entries b).map key).Nodup := by
  rw [keys_set]
  split
  · exact h
  · rename_i hfresh
    rw [List.nodup_append]
    refine ⟨h, by simp, ?_⟩
    intro a ha c hc hac
    obtain rfl := List.mem_singleton.mp hc
    exact hfresh (hac ▸ ha)

theorem mem_set {a : β} :
    a ∈ set key entries b ↔ a = b ∨ a ∈ entries ∧ key a ≠ key b := by
  unfold set
  by_cases hsome : (get? key entries (key b)).isSome
  · rw [if_pos hsome, List.mem_map]
    constructor
    · rintro ⟨c, hc, rfl⟩
      split
      · exact .inl rfl
      · exact .inr ⟨hc, ‹_›⟩
    · rintro (rfl | ⟨ha, hne⟩)
      · obtain ⟨c, hc, hkey⟩ := List.mem_map.mp (get?_isSome_iff.mp hsome)
        exact ⟨c, hc, if_pos hkey⟩
      · exact ⟨a, ha, if_neg hne⟩
  · rw [if_neg hsome, List.mem_append, List.mem_singleton]
    have hfresh : ∀ c ∈ entries, key c ≠ key b := by
      intro c hc hkey
      exact hsome (get?_isSome_iff.mpr (List.mem_map.mpr ⟨c, hc, hkey⟩))
    constructor
    · rintro (ha | rfl)
      · exact .inr ⟨ha, hfresh a ha⟩
      · exact .inl rfl
    · rintro (rfl | ⟨ha, _⟩)
      · exact .inr rfl
      · exact .inl ha

theorem get?_set (h : (entries.map key).Nodup) :
    get? key (set key entries b) k = if key b = k then some b else get? key entries k := by
  have hset := nodup_set (b := b) h
  ext a
  rw [get?_eq_some_iff hset, mem_set]
  split
  · rename_i hk
    subst hk
    rw [Option.some.injEq]
    constructor
    · rintro ⟨rfl | ⟨_, hne⟩, hkey⟩
      · rfl
      · exact absurd hkey hne
    · rintro rfl
      exact ⟨.inl rfl, rfl⟩
  · rename_i hk
    rw [get?_eq_some_iff h]
    constructor
    · rintro ⟨rfl | ⟨ha, _⟩, hkey⟩
      · exact absurd hkey hk
      · exact ⟨ha, hkey⟩
    · rintro ⟨ha, rfl⟩
      exact ⟨.inr ⟨ha, fun hc ↦ hk hc.symm⟩, rfl⟩

theorem get?_perm (hnodup : (entries.map key).Nodup) (h : entries.Perm entries') :
    get? key entries' k = get? key entries k := by
  have hnodup' : (entries'.map key).Nodup := (h.map key).nodup_iff.mp hnodup
  ext a
  rw [get?_eq_some_iff hnodup, get?_eq_some_iff hnodup', h.mem_iff]

theorem nodup_foldl_set (l : List β) (h : (entries.map key).Nodup) :
    ((l.foldl (set key) entries).map key).Nodup := by
  induction l generalizing entries with
  | nil => exact h
  | cons b l ih => exact ih (nodup_set h)

theorem nodup_ofEntries (key : β → κ) (l : List β) : ((ofEntries key l).map key).Nodup :=
  nodup_foldl_set l List.nodup_nil

theorem get?_ofEntries (l : List β) (k : κ) :
    get? key (ofEntries key l) k = l.reverse.find? fun b ↦ key b = k := by
  induction l using List.reverseRecOn with
  | nil => rfl
  | append_singleton l b ih =>
      have hconcat : ofEntries key (l ++ [b]) = set key (ofEntries key l) b := by
        unfold ofEntries
        rw [List.foldl_append]
        rfl
      rw [hconcat, get?_set (nodup_ofEntries key l), ih, List.reverse_append, List.reverse_singleton,
        List.singleton_append]
      by_cases hk : key b = k
      · rw [if_pos hk, List.find?_cons_of_pos (by simpa using hk)]
      · rw [if_neg hk, List.find?_cons_of_neg (by simpa using hk)]

/-- Entries whose keys are distinct are a map already. -/
theorem foldl_set_of_nodup (l : List β) (h : ((entries ++ l).map key).Nodup) :
    l.foldl (set key) entries = entries ++ l := by
  induction l generalizing entries with
  | nil => simp
  | cons b l ih =>
      rw [List.foldl_cons]
      have hset : set key entries b = entries ++ [b] := by
        unfold set
        rw [if_neg]
        rw [get?_isSome_iff]
        rw [List.map_append, List.map_cons, List.nodup_append] at h
        exact fun hc ↦ h.2.2 _ hc _ List.mem_cons_self rfl
      rw [hset, ih (by simpa using h)]
      simp

theorem ofEntries_of_nodup (h : (entries.map key).Nodup) : ofEntries key entries = entries :=
  foldl_set_of_nodup entries (by simpa using h)

/-- Two maps with the same entries are permutations of one another. -/
theorem perm_of_get? (h : (entries.map key).Nodup) (h' : (entries'.map key).Nodup)
    (hsame : ∀ k, get? key entries k = get? key entries' k) : entries.Perm entries' := by
  rw [List.perm_ext_iff_of_nodup (List.Nodup.of_map key h) (List.Nodup.of_map key h')]
  intro a
  have hleft := get?_eq_some_iff (k := key a) (b := a) h
  have hright := get?_eq_some_iff (k := key a) (b := a) h'
  rw [hsame, hright] at hleft
  simpa using hleft.symm

end ShejaneRuntime.Lib.OrderedMap
