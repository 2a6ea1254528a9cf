import ShejaneRuntime.Lib.Table

/-!
# How the rows of a table evolve

A table evolves along a relation when every row is still there as a later
version of itself. Updates that follow the relation and insertions do that.
-/

namespace ShejaneRuntime.Lib

namespace Table

variable {κ ρ : Type} {key : ρ → κ} {R : ρ → ρ → Prop} {t t' t'' : Table key}

/-- Every row is still there, as a later version of itself. -/
def Evolves (R : ρ → ρ → Prop) (t t' : Table key) : Prop :=
  ∀ r ∈ t.rows, ∃ r' ∈ t'.rows, key r' = key r ∧ R r r'

theorem Evolves.refl (hrefl : ∀ r, R r r) (t : Table key) : t.Evolves R t :=
  fun r hr ↦ ⟨r, hr, rfl, hrefl r⟩

theorem Evolves.trans (htrans : ∀ r r' r'', R r r' → R r' r'' → R r r'')
    (h : t.Evolves R t') (h' : t'.Evolves R t'') : t.Evolves R t'' := by
  intro r hr
  obtain ⟨r', hr', hkey, hR⟩ := h r hr
  obtain ⟨r'', hr'', hkey', hR'⟩ := h' r' hr'
  exact ⟨r'', hr'', hkey'.trans hkey, htrans r r' r'' hR hR'⟩

theorem evolves_update {p : ρ → Bool} {f : ρ → ρ} (hf : ∀ r, key (f r) = key r)
    (hrefl : ∀ r, R r r) (h : ∀ r ∈ t.rows, p r = true → R r (f r)) :
    t.Evolves R (t.update p f hf) := by
  intro r hr
  by_cases hp : p r = true
  · exact ⟨f r, mem_update.mpr ⟨r, hr, if_pos hp⟩, hf r, h r hr hp⟩
  · exact ⟨r, mem_update.mpr ⟨r, hr, if_neg hp⟩, rfl, hrefl r⟩

variable [DecidableEq κ]

theorem evolves_insert? {row : ρ} (hrefl : ∀ r, R r r) (h : t.insert? row = some t') :
    t.Evolves R t' :=
  fun r hr ↦ ⟨r, (mem_insert? h).mpr (.inl hr), rfl, hrefl r⟩

/-- A lookup finds the later version of what it found before. -/
theorem Evolves.find? (h : t.Evolves R t') {k : κ} {r : ρ} (hr : t.find? k = some r) :
    ∃ r', t'.find? k = some r' ∧ R r r' := by
  obtain ⟨hmem, hkey⟩ := find?_eq_some_iff.mp hr
  obtain ⟨r', hmem', hkey', hR⟩ := h r hmem
  exact ⟨r', find?_eq_some_iff.mpr ⟨hmem', hkey'.trans hkey⟩, hR⟩

end Table

end ShejaneRuntime.Lib
