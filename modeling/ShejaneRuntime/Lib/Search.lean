import Mathlib.Data.Nat.Notation

/-!
# Binary search for the greatest number that does

Where a number that does lets every smaller one do, halving the range finds the
greatest one of it.
-/

namespace ShejaneRuntime.Lib

/-- The loop of a binary search from `low` on for the greatest number before `past` that does;
the last one found is kept. -/
def searchGreatest (does : ℕ → Bool) : ℕ → ℕ → ℕ → Option ℕ → Option ℕ
  | 0, _, _, best => best
  | fuel + 1, low, past, best =>
      if low < past then
        let candidate := (low + (past - 1)) / 2
        if does candidate then searchGreatest does fuel (candidate + 1) past (some candidate)
        else searchGreatest does fuel low candidate best
      else best

/-- The greatest number of a range that does. -/
structure GreatestIn (does : ℕ → Bool) (low past c : ℕ) : Prop where
  low_le : low ≤ c
  lt_past : c < past
  holds : does c = true
  greatest : ∀ d, c < d → d < past → does d = false

variable {does : ℕ → Bool} {fuel low past c d : ℕ} {o : Option ℕ}

theorem GreatestIn.le (h : GreatestIn does low past c) (hd : d < past) (hdoes : does d = true) :
    d ≤ c := by
  by_cases hle : d ≤ c
  · exact hle
  · rw [h.greatest d (by omega) hd] at hdoes
    cases hdoes

/-- No round is missing: more fuel makes no difference. -/
theorem searchGreatest_fuel (hfuel : past - low ≤ fuel) :
    searchGreatest does (fuel + 1) low past o = searchGreatest does fuel low past o := by
  induction fuel generalizing low past o with
  | zero =>
      unfold searchGreatest
      rw [if_neg (by omega)]
  | succ fuel ih =>
      rw [searchGreatest]
      conv => rhs; rw [searchGreatest]
      by_cases hlt : low < past
      · rw [if_pos hlt, if_pos hlt]
        dsimp only
        rw [ih (by omega), ih (by omega)]
      · rw [if_neg hlt, if_neg hlt]

theorem searchGreatest_add (hfuel : past - low ≤ fuel) (k : ℕ) :
    searchGreatest does (fuel + k) low past o = searchGreatest does fuel low past o := by
  induction k with
  | zero => rfl
  | succ k ih => rw [← Nat.add_assoc, searchGreatest_fuel (by omega), ih]

/-- The search finds the greatest number of the range that does, if there is one. -/
theorem searchGreatest_spec (hfuel : past - low ≤ fuel)
    (hdown : ∀ a b, low ≤ a → a ≤ b → b < past → does b = true → does a = true) :
    (∃ c, searchGreatest does fuel low past o = some c ∧ GreatestIn does low past c) ∨
      searchGreatest does fuel low past o = o ∧
        ∀ c, low ≤ c → c < past → does c = false := by
  induction fuel generalizing low past o with
  | zero =>
      right
      exact ⟨rfl, fun c hlow hpast ↦ by omega⟩
  | succ fuel ih =>
      unfold searchGreatest
      by_cases hlt : low < past
      · rw [if_pos hlt]
        dsimp only
        have hmid : low ≤ (low + (past - 1)) / 2 ∧ (low + (past - 1)) / 2 < past := by omega
        generalize (low + (past - 1)) / 2 = mid at hmid
        by_cases hdoes : does mid = true
        · -- everything up to the middle does: the greatest one is there or further up
          rw [if_pos hdoes]
          have hup : ∀ a b, mid + 1 ≤ a → a ≤ b → b < past → does b = true → does a = true :=
            fun a b ha ↦ hdown a b (by omega)
          rcases ih (o := some mid) (by omega) hup with ⟨c, hsearch, hc⟩ | ⟨hsearch, hnone⟩
          · exact .inl ⟨c, hsearch, ⟨Nat.le_trans (by omega) hc.low_le, hc.lt_past, hc.holds,
              hc.greatest⟩⟩
          · exact .inl ⟨mid, hsearch, ⟨hmid.1, hmid.2, hdoes,
              fun d hd hpast ↦ hnone d (by omega) hpast⟩⟩
        · -- nothing from the middle on does
          rw [if_neg hdoes]
          have hnot : ∀ d, mid ≤ d → d < past → does d = false := by
            intro d hd hpast
            rw [Bool.eq_false_iff]
            exact fun h ↦ hdoes (hdown mid d hmid.1 hd hpast h)
          have hbelow : ∀ a b, low ≤ a → a ≤ b → b < mid → does b = true → does a = true :=
            fun a b ha hab hb ↦ hdown a b ha hab (by omega)
          rcases ih (o := o) (by omega) hbelow with ⟨c, hsearch, hc⟩ | ⟨hsearch, hnone⟩
          · refine .inl ⟨c, hsearch, ⟨hc.low_le, Nat.lt_trans hc.lt_past hmid.2, hc.holds, ?_⟩⟩
            intro d hd hpast
            by_cases hdmid : d < mid
            · exact hc.greatest d hd hdmid
            · exact hnot d (by omega) hpast
          · refine .inr ⟨hsearch, ?_⟩
            intro c hlow hpast
            by_cases hcmid : c < mid
            · exact hnone c hlow hcmid
            · exact hnot c (by omega) hpast
      · rw [if_neg hlt]
        right
        exact ⟨rfl, fun c hlow hpast ↦ by omega⟩

end ShejaneRuntime.Lib
