import Mathlib.Data.Int.Notation
import ShejaneRuntime.Lib.Calendar
import ShejaneRuntime.Lib.Decimal

/-!
# Timestamps

The store keeps instants as the text that `datetime.isoformat` writes of a
datetime in UTC: its fraction has six digits and is left out where it is zero.
-/

namespace ShejaneRuntime.Timestamps

open Lib

/-- A datetime in UTC. -/
structure Datetime where
  date : Date
  hour : ℕ
  minute : ℕ
  second : ℕ
  microsecond : ℕ
  hour_lt : hour < 24
  minute_lt : minute < 60
  second_lt : second < 60
  microsecond_lt : microsecond < 1000000
  deriving DecidableEq

/-- The offset `+00:00` and before it the fraction, where it is not zero. -/
def fractionAndOffset (microsecond : ℕ) : List Char :=
  (if microsecond = 0 then [] else '.' :: padded 6 microsecond) ++
    ['+', '0', '0', ':', '0', '0']

def isodate (d : Date) : List Char :=
  padded 4 d.year ++ ['-'] ++ padded 2 d.month ++ ['-'] ++ padded 2 d.day

def wholeSeconds (d : Datetime) : List Char :=
  isodate d.date ++ ['T'] ++ padded 2 d.hour ++ [':'] ++ padded 2 d.minute ++ [':'] ++
    padded 2 d.second

def isoformat (d : Datetime) : String :=
  String.ofList (wholeSeconds d ++ fractionAndOffset d.microsecond)

example : isoformat ⟨⟨2024, 2, 29, by decide, by decide, by decide, by decide, by decide, by decide⟩,
    7, 5, 9, 120, by decide, by decide, by decide, by decide⟩ =
      "2024-02-29T07:05:09.000120+00:00" := by decide +kernel

/-! ## Instants -/

def Datetime.seconds (d : Datetime) : ℕ :=
  ((d.date.ordinal * 24 + d.hour) * 60 + d.minute) * 60 + d.second

/-- Microseconds since the day before year 1. -/
def Datetime.instant (d : Datetime) : ℕ := d.seconds * 1000000 + d.microsecond

/-- The datetime of an instant between the years 1 and 9999. -/
def Datetime.ofInstant (n : ℕ) : Option Datetime :=
  (Date.ofOrdinal (n / 86400000000)).map fun date ↦
    { date := date
      hour := n / 3600000000 % 24
      minute := n / 60000000 % 60
      second := n / 1000000 % 60
      microsecond := n % 1000000
      hour_lt := Nat.mod_lt _ (by decide)
      minute_lt := Nat.mod_lt _ (by decide)
      second_lt := Nat.mod_lt _ (by decide)
      microsecond_lt := Nat.mod_lt _ (by decide) }

/-- A datetime plus a `timedelta` of microseconds; beyond the years 1 to 9999 it is an error. -/
def Datetime.plus (d : Datetime) (delta : ℤ) : Option Datetime :=
  if 0 ≤ d.instant + delta then Datetime.ofInstant (d.instant + delta).toNat else none

variable {d e : Datetime} {n : ℕ} {delta : ℤ}

theorem Datetime.instant_of_ofInstant (h : Datetime.ofInstant n = some d) : d.instant = n := by
  unfold Datetime.ofInstant at h
  obtain ⟨date, hdate, rfl⟩ := Option.map_eq_some_iff.mp h
  have hordinal := Date.ordinal_of_ofOrdinal hdate
  unfold Datetime.instant Datetime.seconds
  dsimp only
  omega

theorem Datetime.ofInstant_instant (d : Datetime) : Datetime.ofInstant d.instant = some d := by
  have hhour := d.hour_lt
  have hminute := d.minute_lt
  have hsecond := d.second_lt
  have hmicrosecond := d.microsecond_lt
  have hdate : d.instant / 86400000000 = d.date.ordinal := by
    unfold Datetime.instant Datetime.seconds
    omega
  have hh : d.instant / 3600000000 % 24 = d.hour := by
    unfold Datetime.instant Datetime.seconds
    omega
  have hm : d.instant / 60000000 % 60 = d.minute := by
    unfold Datetime.instant Datetime.seconds
    omega
  have hs : d.instant / 1000000 % 60 = d.second := by
    unfold Datetime.instant Datetime.seconds
    omega
  have hu : d.instant % 1000000 = d.microsecond := by
    unfold Datetime.instant
    omega
  unfold Datetime.ofInstant
  rw [hdate, Date.ofOrdinal_ordinal, Option.map_some]
  congr 1
  cases d
  simp_all

theorem Datetime.instant_inj (h : d.instant = e.instant) : d = e := by
  have hd := d.ofInstant_instant
  rw [h, e.ofInstant_instant] at hd
  exact (Option.some.inj hd).symm

/-! ## Texts order as instants -/

theorem orders_isodate (d e : Date) : Orders (isodate d) (isodate e) d.ordinal e.ordinal := by
  have hyear : Orders (padded 4 d.year) (padded 4 e.year) d.year e.year :=
    orders_padded (Nat.lt_succ_of_le d.year_le) (Nat.lt_succ_of_le e.year_le)
  have hdm : d.month < 10 ^ 2 := Nat.lt_of_le_of_lt d.month_le (by decide)
  have hem : e.month < 10 ^ 2 := Nat.lt_of_le_of_lt e.month_le (by decide)
  have hmonth := (hyear.separated ['-']).append (orders_padded hdm hem) hdm hem
  have hdd : d.day < 10 ^ 2 := d.day_lt
  have hed : e.day < 10 ^ 2 := e.day_lt
  have hday := (hmonth.separated ['-']).append (orders_padded hdd hed) hdd hed
  exact ⟨hday.length, hday.eq_iff.trans Date.number_eq_iff, hday.lt_iff.trans Date.number_lt_iff⟩

theorem orders_wholeSeconds (d e : Datetime) :
    Orders (wholeSeconds d) (wholeSeconds e) d.seconds e.seconds := by
  have hplaces : ∀ {a b r : ℕ}, a < r → b < r → r ≤ 100 → Orders (padded 2 a) (padded 2 b) a b :=
    fun ha hb hr ↦ orders_padded (Nat.lt_of_lt_of_le ha hr) (Nat.lt_of_lt_of_le hb hr)
  have hdate := (orders_isodate d.date e.date).separated ['T']
  have hhour := hdate.append (hplaces d.hour_lt e.hour_lt (by decide)) d.hour_lt e.hour_lt
  have hminute := (hhour.separated [':']).append
    (hplaces d.minute_lt e.minute_lt (by decide)) d.minute_lt e.minute_lt
  exact (hminute.separated [':']).append
    (hplaces d.second_lt e.second_lt (by decide)) d.second_lt e.second_lt

/-- `+` stands before `.`: the text without a fraction is the first one of its second. -/
theorem fractionAndOffset_lt_iff {a b : ℕ} (ha : a < 1000000) (hb : b < 1000000) :
    fractionAndOffset a < fractionAndOffset b ↔ a < b := by
  have hpadded := orders_padded (show a < 10 ^ 6 from ha) (show b < 10 ^ 6 from hb)
  have hplus : '+' < '.' := by decide
  have hdot : ¬ '.' < '+' := by decide
  unfold fractionAndOffset
  by_cases ha0 : a = 0 <;> by_cases hb0 : b = 0
  · subst ha0 hb0
    simp
  · rw [if_pos ha0, if_neg hb0]
    simp only [List.nil_append, List.cons_append, List.cons_lt_cons_iff, hplus, true_or, true_iff]
    omega
  · rw [if_neg ha0, if_pos hb0]
    simp only [List.nil_append, List.cons_append, List.cons_lt_cons_iff, hdot, false_or]
    constructor
    · rintro ⟨h, _⟩
      exact absurd h (by decide)
    · intro h
      omega
  · rw [if_neg ha0, if_neg hb0]
    have hlt := (hpadded.separated ['+', '0', '0', ':', '0', '0']).lt_iff
    rw [List.cons_append, List.cons_append, List.cons_lt_cons_self, hlt]

/-- The texts of two datetimes in UTC order as their instants. -/
theorem isoformat_lt_iff : isoformat d < isoformat e ↔ d.instant < e.instant := by
  have hwhole := orders_wholeSeconds d e
  unfold isoformat Datetime.instant
  rw [String.lt_iff_toList_lt, String.toList_ofList, String.toList_ofList,
    append_lt_append_iff hwhole.length, hwhole.lt_iff, hwhole.eq_iff,
    fractionAndOffset_lt_iff d.microsecond_lt e.microsecond_lt,
    mul_add_lt_iff d.microsecond_lt e.microsecond_lt]

end ShejaneRuntime.Timestamps
