import Mathlib.Algebra.BigOperators.Intervals
import Mathlib.Algebra.Order.BigOperators.Group.Finset
import TeamspeakWebserver.Ltc.Calendar

/-! The seconds between two civil times, and those between the values of `str_to_time`. -/

namespace TeamspeakWebserver.Ltc

open Finset

structure CivilTime where
  year : ℕ
  month : ℕ
  day : ℕ
  hour : ℕ
  min : ℕ
  sec : ℕ
  year_ge : 1970 ≤ year
  month_mem : 1 ≤ month ∧ month ≤ 12
  day_mem : 1 ≤ day ∧ day ≤ daysInMonth (isLeap year) month
  hour_lt : hour < 24
  min_lt : min < 60
  sec_lt : sec < 60

def daysInYear (year : ℕ) : ℕ := if isLeap year then 366 else 365

def isSkipped (year : ℕ) : Bool := year % 100 = 0 ∧ year % 400 ≠ 0

namespace CivilTime

def tm (t : CivilTime) : Tm := ⟨t.year - 1900, t.month - 1, t.day, t.hour, t.min, t.sec⟩

def dayOfYear (t : CivilTime) : ℕ := daysBeforeMonth (isLeap t.year) t.month + (t.day - 1)

def days (t : CivilTime) : ℕ := (∑ y ∈ Ico 1970 t.year, daysInYear y) + t.dayOfYear

def secondOfDay (t : CivilTime) : ℕ := t.hour * 3600 + t.min * 60 + t.sec

def seconds (t : CivilTime) : ℕ := t.days * 86400 + t.secondOfDay

def fields (t : CivilTime) : List ℕ := [t.year, t.month, t.day, t.hour, t.min, t.sec]

/-- The days `str_to_time` counts and the calendar does not have: one for every skipped leap day of a
year before, and the leap day of a year divisible by 4 up to its end. -/
def surplus (t : CivilTime) : ℕ := #{y ∈ Ico 1970 t.year | isSkipped y} +
  if t.year % 4 = 0 ∧ ¬ (isLeap t.year ∧ 2 < t.month) then 1 else 0

def strToTime (t : CivilTime) : ℤ := Cpp.strToTime (some t.tm)

def Faithful (a b : CivilTime) : Prop :=
  b.strToTime - a.strToTime = (b.seconds : ℤ) - a.seconds ∧
    (a.fields < b.fields → a.strToTime < b.strToTime)

end CivilTime

section Years

lemma sum_daysInYear {year : ℕ} (h : 1970 ≤ year) :
    (∑ y ∈ Ico 1970 year, daysInYear y) + leapsBefore 1970 =
      365 * (year - 1970) + leapsBefore year := by
  induction year, h using Nat.le_induction with
  | base => simp
  | succ year h ih =>
    rw [sum_Ico_succ_top h, leapsBefore_succ year, daysInYear]
    split <;> omega

/-- The quarters of `str_to_time` are the leap days and the skipped ones. -/
lemma quarters_eq {year : ℕ} (h : 1970 ≤ year) : (year - 1968) / 4 + leapsBefore 1970 =
    leapsBefore year + #{y ∈ Ico 1970 year | isSkipped y} + if year % 4 = 0 then 1 else 0 := by
  induction year, h using Nat.le_induction with
  | base => simp
  | succ year h ih =>
    have hstep : (year + 1 - 1968) / 4 = (year - 1968) / 4 + if (year + 1) % 4 = 0 then 1 else 0 := by
      split <;> omega
    have hfour : (if year % 4 = 0 then 1 else 0) =
        (if isLeap year then 1 else 0) + if isSkipped year then 1 else 0 := by
      simp only [isLeap, isSkipped, decide_eq_true_eq]
      split_ifs <;> omega
    have hcard : #{y ∈ Ico 1970 (year + 1) | isSkipped y} =
        #{y ∈ Ico 1970 year | isSkipped y} + if isSkipped year then 1 else 0 := by
      rw [card_filter, card_filter, sum_Ico_succ_top h]
    rw [hstep, leapsBefore_succ year, hcard]
    omega

lemma daysBeforeMonth_succ (leap : Bool) {month : ℕ} (h : 1 ≤ month) :
    daysBeforeMonth leap (month + 1) = daysBeforeMonth leap month + daysInMonth leap month := by
  obtain ⟨m, rfl⟩ := Nat.exists_eq_add_of_le' h
  rw [daysBeforeMonth, daysBeforeMonth, Nat.add_sub_cancel, Nat.add_sub_cancel, List.range_succ,
    List.map_append, List.sum_append, List.map_singleton, List.sum_singleton]

lemma daysBeforeMonth_mono (leap : Bool) {m n : ℕ} (hm : 1 ≤ m) (h : m ≤ n) :
    daysBeforeMonth leap m ≤ daysBeforeMonth leap n := by
  induction n, h using Nat.le_induction with
  | base => exact le_rfl
  | succ n hn ih =>
    rw [daysBeforeMonth_succ leap (hm.trans hn)]
    omega

lemma daysBeforeMonth_year (year : ℕ) : daysBeforeMonth (isLeap year) 13 = daysInYear year := by
  rw [daysInYear]
  cases isLeap year <;> decide

end Years

namespace CivilTime

variable {s t : CivilTime}

lemma dayOfYear_lt (t : CivilTime) :
    t.dayOfYear < daysBeforeMonth (isLeap t.year) t.month + daysInMonth (isLeap t.year) t.month := by
  have hd := t.day_mem
  rw [dayOfYear]
  omega

lemma dayOfYear_lt_year (t : CivilTime) : t.dayOfYear < daysInYear t.year := by
  refine t.dayOfYear_lt.trans_le ?_
  rw [← daysBeforeMonth_succ _ t.month_mem.1, ← daysBeforeMonth_year]
  exact daysBeforeMonth_mono _ (by omega) (by have := t.month_mem.2; omega)

lemma secondOfDay_lt (t : CivilTime) : t.secondOfDay < 86400 := by
  have hh := t.hour_lt
  have hm := t.min_lt
  have hs := t.sec_lt
  rw [secondOfDay]
  omega

lemma days_lt_of_year (h : s.year < t.year) : s.days < t.days := by
  have hsum : (∑ y ∈ Ico 1970 s.year, daysInYear y) + daysInYear s.year ≤
      ∑ y ∈ Ico 1970 t.year, daysInYear y := by
    rw [← sum_Ico_succ_top s.year_ge]
    exact sum_le_sum_of_subset (Ico_subset_Ico_right h)
  have hd := s.dayOfYear_lt_year
  rw [days, days]
  omega

lemma days_lt_of_month (hy : s.year = t.year) (h : s.month < t.month) : s.days < t.days := by
  have hd := s.dayOfYear_lt
  have hm : daysBeforeMonth (isLeap s.year) (s.month + 1) ≤ daysBeforeMonth (isLeap s.year) t.month :=
    daysBeforeMonth_mono _ (by omega) h
  rw [daysBeforeMonth_succ _ s.month_mem.1] at hm
  have ht : t.dayOfYear = daysBeforeMonth (isLeap s.year) t.month + (t.day - 1) := by
    rw [dayOfYear, hy]
  rw [days, days, ← hy, ht]
  omega

lemma days_lt_of_day (hy : s.year = t.year) (hm : s.month = t.month) (h : s.day < t.day) :
    s.days < t.days := by
  have hs := s.day_mem.1
  rw [days, days, dayOfYear, dayOfYear, ← hy, ← hm]
  omega

lemma seconds_lt_of_days (h : s.days < t.days) : s.seconds < t.seconds := by
  have hs := s.secondOfDay_lt
  rw [seconds, seconds]
  omega

lemma seconds_lt (h : s.fields < t.fields) : s.seconds < t.seconds := by
  simp only [fields, List.cons_lt_cons_iff, List.not_lt_nil, and_false, or_false] at h
  rcases h with h | ⟨hy, h | ⟨hm, h | ⟨hd, h⟩⟩⟩
  · exact seconds_lt_of_days (days_lt_of_year h)
  · exact seconds_lt_of_days (days_lt_of_month hy h)
  · exact seconds_lt_of_days (days_lt_of_day hy hm h)
  · have hdays : s.days = t.days := by
      rw [days, days, dayOfYear, dayOfYear, hy, hm, hd]
    have ht : s.secondOfDay < t.secondOfDay := by
      have hmin := s.min_lt
      have hsec := s.sec_lt
      rw [secondOfDay, secondOfDay]
      omega
    rw [seconds, seconds, hdays]
    omega

lemma surplus_eq (t : CivilTime) :
    t.surplus + (if isLeap t.year ∧ 2 < t.month then 1 else 0) =
      #{y ∈ Ico 1970 t.year | isSkipped y} + if t.year % 4 = 0 then 1 else 0 := by
  have hleap : isLeap t.year = true → t.year % 4 = 0 := by
    simp only [isLeap, decide_eq_true_eq]
    exact fun h => h.1
  rw [surplus]
  by_cases h4 : t.year % 4 = 0
  · by_cases hl : isLeap t.year = true ∧ 2 < t.month <;> simp [h4, hl]
  · have hl : ¬ (isLeap t.year = true ∧ 2 < t.month) := fun h => h4 (hleap h.1)
    simp [h4, hl]

lemma strToTime_eq (t : CivilTime) :
    t.strToTime = t.seconds + Cpp.utcDiff * 3600 + t.surplus * 86400 := by
  have hy := t.year_ge
  have hd := t.day_mem.1
  have hquarters := quarters_eq hy
  have hsum := sum_daysInYear hy
  have hsurplus := t.surplus_eq
  have htdiv : ((t.year : ℤ) - 1900 - 70 + 2).tdiv 4 = ((t.year - 1968) / 4 : ℕ) := by
    rw [Int.tdiv_eq_ediv_of_nonneg (by omega)]
    omega
  have hpast : (if isLeap t.year ∧ 2 < t.month then 1 else 0 : ℤ) =
      (if isLeap t.year ∧ 2 < t.month then 1 else 0 : ℕ) := by
    split <;> rfl
  simp only [strToTime, Cpp.strToTime, tm, htdiv, daysBefore_eq (isLeap t.year) t.month_mem, hpast,
    seconds, days, dayOfYear, secondOfDay, Cpp.utcDiff]
  generalize (if isLeap t.year ∧ 2 < t.month then 1 else 0 : ℕ) = past at *
  generalize (if t.year % 4 = 0 then 1 else 0 : ℕ) = fourth at *
  generalize (∑ y ∈ Ico 1970 t.year, daysInYear y) = before at *
  omega

lemma surplus_of_lt (h : t.year < 2100) :
    t.surplus = if isLeap t.year ∧ t.month ≤ 2 then 1 else 0 := by
  have hnone : #{y ∈ Ico 1970 t.year | isSkipped y} = 0 := by
    rw [card_eq_zero, filter_eq_empty_iff]
    intro y hy
    obtain ⟨h1, h2⟩ := mem_Ico.mp hy
    simp only [isSkipped, decide_eq_true_eq]
    omega
  have hy := t.year_ge
  have hleap : isLeap t.year = true ↔ t.year % 4 = 0 := by
    simp only [isLeap, decide_eq_true_eq]
    omega
  have hiff : (t.year % 4 = 0 ∧ ¬ (isLeap t.year = true ∧ 2 < t.month)) ↔
      isLeap t.year = true ∧ t.month ≤ 2 := by
    rw [hleap, not_and, not_lt]
    exact ⟨fun h => ⟨h.1, h.2 h.1⟩, fun h => ⟨h.1, fun _ => h.2⟩⟩
  rw [surplus, hnone, Nat.zero_add]
  by_cases h2 : isLeap t.year = true ∧ t.month ≤ 2
  · rw [if_pos h2, if_pos (hiff.mpr h2)]
  · rw [if_neg h2, if_neg (fun hc => h2 (hiff.mp hc))]

end CivilTime

section Stamps

variable {st : Stamp}

def Stamp.civil (st : Stamp) (h : 1970 ≤ st.year) : CivilTime :=
  ⟨st.year, st.month, st.day, st.hour, st.min, st.sec, h, st.month_mem, st.day_mem, st.hour_lt,
    st.min_lt, st.sec_lt⟩

lemma timestamp_civil (h : 1970 ≤ st.year) : st.timestamp = (st.civil h).seconds := by
  have hsum := sum_daysInYear h
  have hd := st.day_mem.1
  simp only [Stamp.timestamp, Stamp.days, CivilTime.seconds, CivilTime.days, CivilTime.dayOfYear,
    CivilTime.secondOfDay, Stamp.civil]
  generalize (∑ y ∈ Ico 1970 st.year, daysInYear y) = before at *
  omega

lemma ahead_civil (h : 1970 ≤ st.year) : Cpp.ahead st = (st.civil h).surplus := by
  have hstamp := strToTime_tm st
  have hcivil := (st.civil h).strToTime_eq
  rw [timestamp_civil h] at hstamp
  have htm : (st.civil h).strToTime = Cpp.strToTime (some st.tm) := rfl
  omega

end Stamps

theorem faithful_iff_surplus (a b : CivilTime) : a.Faithful b ↔ a.surplus = b.surplus := by
  have ha := a.strToTime_eq
  have hb := b.strToTime_eq
  constructor
  · rintro ⟨hdiff, -⟩
    omega
  · intro h
    refine ⟨by omega, fun hlt => ?_⟩
    have hs := CivilTime.seconds_lt hlt
    omega

def leapDay : CivilTime where
  year := 2020
  month := 2
  day := 29
  hour := 12
  min := 30
  sec := 30
  year_ge := by decide
  month_mem := by decide
  day_mem := by decide
  hour_lt := by decide
  min_lt := by decide
  sec_lt := by decide

def marchMorning : CivilTime where
  year := 2020
  month := 3
  day := 1
  hour := 8
  min := 30
  sec := 30
  year_ge := by decide
  month_mem := by decide
  day_mem := by decide
  hour_lt := by decide
  min_lt := by decide
  sec_lt := by decide

theorem march_before_february : ¬ ∀ a b : CivilTime, a.Faithful b := by
  intro h
  have hlt := (h leapDay marchMorning).2 (by decide)
  exact absurd hlt (by decide)

end TeamspeakWebserver.Ltc
