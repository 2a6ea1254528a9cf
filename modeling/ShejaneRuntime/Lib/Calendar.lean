import Mathlib.Logic.Basic
import Mathlib.Tactic.SplitIfs
import ShejaneRuntime.Lib.Search

/-!
# The proleptic Gregorian calendar

Dates from year 1 to 9999 and their ordinals, the number of days since the
day before the first of January of year 1.
-/

namespace ShejaneRuntime.Lib

def isLeap (year : ℕ) : Bool := year % 4 = 0 && (year % 100 ≠ 0 || year % 400 = 0)

def daysInMonth (year month : ℕ) : ℕ :=
  if month = 2 then if isLeap year then 29 else 28
  else if month = 4 ∨ month = 6 ∨ month = 9 ∨ month = 11 then 30
  else 31

/-- The days of a year before its month. -/
def daysBeforeMonth (year : ℕ) : ℕ → ℕ
  | 0 => 0
  | 1 => 0
  | month + 2 => daysBeforeMonth year (month + 1) + daysInMonth year (month + 1)

/-- The days before the first of January of a year. -/
def daysBeforeYear (year : ℕ) : ℕ :=
  (year - 1) * 365 + (year - 1) / 4 - (year - 1) / 100 + (year - 1) / 400

structure Date where
  year : ℕ
  month : ℕ
  day : ℕ
  one_le_year : 1 ≤ year
  year_le : year ≤ 9999
  one_le_month : 1 ≤ month
  month_le : month ≤ 12
  one_le_day : 1 ≤ day
  day_le : day ≤ daysInMonth year month
  deriving DecidableEq

def Date.ordinal (d : Date) : ℕ := daysBeforeYear d.year + daysBeforeMonth d.year d.month + d.day

variable {year year' month month' k k' n : ℕ} {f g : ℕ → ℕ} {d e : Date}

/-! ## Sums of days -/

/-- Where each step adds its days, a later start has all the days of the earlier step behind it. -/
theorem add_le_of_lt (hstep : ∀ k, 1 ≤ k → f (k + 1) = f k + g k) (hk : 1 ≤ k) (hlt : k < k') :
    f k + g k ≤ f k' := by
  induction k' with
  | zero => omega
  | succ k' ih =>
      rw [hstep k' (by omega)]
      rcases Nat.eq_or_lt_of_le (Nat.le_of_lt_succ hlt) with rfl | hlt
      · exact Nat.le_refl _
      · exact Nat.le_trans (ih hlt) (Nat.le_add_right _ _)

theorem daysBeforeMonth_succ (year : ℕ) (hmonth : 1 ≤ month) :
    daysBeforeMonth year (month + 1) = daysBeforeMonth year month + daysInMonth year month := by
  obtain ⟨month, rfl⟩ : ∃ k, month = k + 1 := ⟨month - 1, by omega⟩
  rfl

theorem daysBeforeMonth_thirteen (year : ℕ) :
    daysBeforeMonth year 13 = if isLeap year then 366 else 365 := by
  unfold daysBeforeMonth daysInMonth
  simp only [daysBeforeMonth, daysInMonth]
  cases isLeap year <;> rfl

theorem daysBeforeYear_succ (hyear : 1 ≤ year) :
    daysBeforeYear (year + 1) = daysBeforeYear year + daysBeforeMonth year 13 := by
  obtain ⟨year, rfl⟩ : ∃ k, year = k + 1 := ⟨year - 1, by omega⟩
  have hfewer : year / 100 ≤ year / 4 := Nat.div_le_div_left (by decide) (by decide)
  have hcentury : (year + 1) % 100 = 0 → (year + 1) % 4 = 0 := by omega
  have hcycle : (year + 1) % 400 = 0 → (year + 1) % 100 = 0 := by omega
  rw [daysBeforeMonth_thirteen]
  unfold daysBeforeYear isLeap
  simp only [Nat.add_sub_cancel, Nat.succ_div, Nat.dvd_iff_mod_eq_zero]
  -- only how many there are of each counts
  generalize year / 4 = fourths at *
  generalize year / 100 = centuries at *
  generalize year / 400 = cycles
  by_cases h4 : (year + 1) % 4 = 0
  · by_cases h100 : (year + 1) % 100 = 0
    · by_cases h400 : (year + 1) % 400 = 0
      · simp [h4, h100, h400]
        omega
      · simp [h4, h100, h400]
        omega
    · have h400 : ¬ (year + 1) % 400 = 0 := fun h ↦ h100 (hcycle h)
      simp [h4, h100, h400]
      omega
  · have h100 : ¬ (year + 1) % 100 = 0 := fun h ↦ h4 (hcentury h)
    have h400 : ¬ (year + 1) % 400 = 0 := fun h ↦ h100 (hcycle h)
    simp [h4, h100, h400]
    omega
/-- The days of a date within its year. -/
theorem Date.dayOfYear_le (d : Date) :
    daysBeforeMonth d.year d.month + d.day ≤ daysBeforeMonth d.year 13 := by
  have hlt : d.month < 13 := Nat.lt_succ_of_le d.month_le
  have hle := add_le_of_lt (fun k ↦ daysBeforeMonth_succ d.year) d.one_le_month hlt
  have hday := d.day_le
  omega

/-! ## Ordinals order as dates -/

theorem ordinal_lt_of_year_lt (h : d.year < e.year) : d.ordinal < e.ordinal := by
  have hle := add_le_of_lt (fun k ↦ daysBeforeYear_succ) d.one_le_year h
  have hday := d.dayOfYear_le
  have hpos := e.one_le_day
  unfold Date.ordinal
  omega

theorem ordinal_lt_of_month_lt (hyear : d.year = e.year) (h : d.month < e.month) :
    d.ordinal < e.ordinal := by
  have hle := add_le_of_lt (fun k ↦ daysBeforeMonth_succ d.year) d.one_le_month h
  have hday := d.day_le
  have hpos := e.one_le_day
  unfold Date.ordinal
  rw [← hyear]
  omega

/-- A date as one number, its places two digits wide. -/
def Date.number (d : Date) : ℕ := (d.year * 100 + d.month) * 100 + d.day

theorem daysInMonth_le (year month : ℕ) : daysInMonth year month ≤ 31 := by
  unfold daysInMonth
  split_ifs <;> omega

theorem Date.day_lt (d : Date) : d.day < 100 := by
  have hle := d.day_le
  have hmonth := daysInMonth_le d.year d.month
  omega

theorem Date.number_lt_iff : d.number < e.number ↔ d.ordinal < e.ordinal := by
  have hd := d.day_lt
  have he := e.day_lt
  have hdm := d.month_le
  have hem := e.month_le
  unfold Date.number
  rcases Nat.lt_trichotomy d.year e.year with hlt | hyear | hgt
  · have h := ordinal_lt_of_year_lt hlt
    omega
  · rcases Nat.lt_trichotomy d.month e.month with hlt | hmonth | hgt
    · have h := ordinal_lt_of_month_lt hyear hlt
      omega
    · unfold Date.ordinal
      rw [hyear, hmonth]
      omega
    · have h := ordinal_lt_of_month_lt hyear.symm hgt
      omega
  · have h := ordinal_lt_of_year_lt hgt
    omega

theorem Date.number_eq_iff : d.number = e.number ↔ d.ordinal = e.ordinal := by
  have hlt := Date.number_lt_iff (d := d) (e := e)
  have hgt := Date.number_lt_iff (d := e) (e := d)
  omega

/-! ## The date of an ordinal -/

/-- The date of these parts, if there is one. -/
def Date.mk? (year month day : ℕ) : Option Date :=
  if h : (1 ≤ year ∧ year ≤ 9999) ∧ (1 ≤ month ∧ month ≤ 12) ∧
      1 ≤ day ∧ day ≤ daysInMonth year month then
    some ⟨year, month, day, h.1.1, h.1.2, h.2.1.1, h.2.1.2, h.2.2.1, h.2.2.2⟩
  else none

/-- The year is the last one that begins before the day, and so is its month. -/
def Date.ofOrdinal (n : ℕ) : Option Date :=
  (searchGreatest (fun year ↦ daysBeforeYear year < n) 9999 1 10000 none).bind fun year ↦
    let rest := n - daysBeforeYear year
    (searchGreatest (fun month ↦ daysBeforeMonth year month < rest) 12 1 13 none).bind fun month ↦
      Date.mk? year month (rest - daysBeforeMonth year month)

theorem Date.mk?_eq_some {day : ℕ} (h : Date.mk? year month day = some d) :
    d.year = year ∧ d.month = month ∧ d.day = day := by
  unfold Date.mk? at h
  split at h
  · obtain rfl := Option.some.inj h
    exact ⟨rfl, rfl, rfl⟩
  · cases h

theorem Date.mk?_self (d : Date) : Date.mk? d.year d.month d.day = some d :=
  dif_pos ⟨⟨d.one_le_year, d.year_le⟩, ⟨d.one_le_month, d.month_le⟩, d.one_le_day, d.day_le⟩

theorem Date.ordinal_of_ofOrdinal (h : Date.ofOrdinal n = some d) : d.ordinal = n := by
  unfold Date.ofOrdinal at h
  obtain ⟨year, _, h⟩ := Option.bind_eq_some_iff.mp h
  obtain ⟨month, _, h⟩ := Option.bind_eq_some_iff.mp h
  obtain ⟨hyear, hmonth, hday⟩ := Date.mk?_eq_some h
  have hpos := d.one_le_day
  unfold Date.ordinal
  rw [hyear, hmonth, hday]
  omega

/-- The search finds where a sum of days passes the number. -/
theorem searchGreatest_sum {fuel past c : ℕ} (hstep : ∀ k, 1 ≤ k → f (k + 1) = f k + g k)
    (hfuel : past - 1 ≤ fuel) (hc : 1 ≤ c) (hpast : c < past) (hlt : f c < n)
    (hle : n ≤ f c + g c) :
    searchGreatest (fun k ↦ f k < n) fuel 1 past none = some c := by
  have hdown : ∀ a b, 1 ≤ a → a ≤ b → b < past → decide (f b < n) = true →
      decide (f a < n) = true := by
    intro a b ha hab _ hb
    rw [decide_eq_true_eq] at hb ⊢
    rcases Nat.eq_or_lt_of_le hab with rfl | hab
    · exact hb
    · have h := add_le_of_lt hstep ha hab
      omega
  rcases searchGreatest_spec (o := none) hfuel hdown with ⟨k, hsearch, hk⟩ | ⟨_, hnone⟩
  · rw [hsearch]
    have hcle := hk.le hpast (decide_eq_true hlt)
    rcases Nat.eq_or_lt_of_le hcle with rfl | hck
    · rfl
    · have hkn := of_decide_eq_true hk.holds
      have h := add_le_of_lt hstep hc hck
      omega
  · exact absurd (hnone c hc hpast) (by simpa using hlt)

theorem Date.ofOrdinal_ordinal (d : Date) : Date.ofOrdinal d.ordinal = some d := by
  have hpos := d.one_le_day
  have hday := d.dayOfYear_le
  have hle := d.day_le
  have hyear : searchGreatest (fun year ↦ daysBeforeYear year < d.ordinal) 9999 1 10000 none =
      some d.year :=
    searchGreatest_sum (fun k ↦ daysBeforeYear_succ) (by omega) d.one_le_year
      (Nat.lt_succ_of_le d.year_le) (by unfold Date.ordinal; omega)
      (by unfold Date.ordinal; omega)
  have hrest : d.ordinal - daysBeforeYear d.year = daysBeforeMonth d.year d.month + d.day := by
    unfold Date.ordinal
    omega
  have hmonth : searchGreatest
      (fun month ↦ daysBeforeMonth d.year month < daysBeforeMonth d.year d.month + d.day) 12 1 13
        none = some d.month :=
    searchGreatest_sum (fun k ↦ daysBeforeMonth_succ d.year) (by omega) d.one_le_month
      (Nat.lt_succ_of_le d.month_le) (by omega) (by omega)
  unfold Date.ofOrdinal
  rw [hyear, Option.bind_some]
  dsimp only
  rw [hrest, hmonth, Option.bind_some, Nat.add_sub_cancel_left]
  exact d.mk?_self

end ShejaneRuntime.Lib
