import TeamspeakWebserver.Text.Decimal

/-! Civil times, their number of seconds since the epoch, and the one `str_to_time` of `ltc.cpp`
computes. -/

namespace TeamspeakWebserver.Ltc

open Text

def isLeap (year : ℕ) : Bool := year % 4 = 0 ∧ (year % 100 ≠ 0 ∨ year % 400 = 0)

def leapsBefore (year : ℕ) : ℕ := (year + 3) / 4 - (year + 99) / 100 + (year + 399) / 400

def daysInMonth (leap : Bool) (month : ℕ) : ℕ :=
  if month = 2 then if leap then 29 else 28
  else if month = 4 ∨ month = 6 ∨ month = 9 ∨ month = 11 then 30 else 31

def daysBeforeMonth (leap : Bool) (month : ℕ) : ℕ :=
  ((List.range (month - 1)).map fun m => daysInMonth leap (m + 1)).sum

structure Stamp where
  year : ℕ
  month : ℕ
  day : ℕ
  hour : ℕ
  min : ℕ
  sec : ℕ
  year_lt : year < 10000
  month_mem : 1 ≤ month ∧ month ≤ 12
  day_mem : 1 ≤ day ∧ day ≤ daysInMonth (isLeap year) month
  hour_lt : hour < 24
  min_lt : min < 60
  sec_lt : sec < 60

/-- `struct tm`: the year counts from 1900, the month from 0. -/
structure Tm where
  year : ℤ
  mon : ℤ
  mday : ℤ
  hour : ℤ
  min : ℤ
  sec : ℤ
deriving DecidableEq

namespace Stamp

def days (st : Stamp) : ℤ :=
  365 * (st.year - 1970) + (leapsBefore st.year - leapsBefore 1970) +
    daysBeforeMonth (isLeap st.year) st.month + st.day - 1

def timestamp (st : Stamp) : ℤ := st.days * 86400 + st.hour * 3600 + st.min * 60 + st.sec

def tm (st : Stamp) : Tm := ⟨st.year - 1900, st.month - 1, st.day, st.hour, st.min, st.sec⟩

def text (gap : Bytes) (colon : UInt8) (st : Stamp) : Bytes :=
  pad 4 st.year ++ 45 :: pad 2 st.month ++ 45 :: pad 2 st.day ++ gap ++
    pad 2 st.hour ++ colon :: pad 2 st.min ++ colon :: pad 2 st.sec

def ofNumbers (year month day hour min sec : ℕ) : Option Stamp :=
  if h : year < 10000 ∧ (1 ≤ month ∧ month ≤ 12) ∧
      (1 ≤ day ∧ day ≤ daysInMonth (isLeap year) month) ∧ hour < 24 ∧ min < 60 ∧ sec < 60 then
    some ⟨year, month, day, hour, min, sec, h.1, h.2.1, h.2.2.1, h.2.2.2.1, h.2.2.2.2.1,
      h.2.2.2.2.2⟩
  else none

def number (b : Bytes) (start len : ℕ) : ℕ := value ((b.drop start).take len)

def ofText (gap : Bytes) (colon : UInt8) (b : Bytes) : Option Stamp :=
  (ofNumbers (number b 0 4) (number b 5 2) (number b 8 2) (number b (10 + gap.length) 2)
    (number b (13 + gap.length) 2) (number b (16 + gap.length) 2)).filter
      fun st => st.text gap colon = b

end Stamp

namespace Cpp

def utcDiff : ℤ := 5

def daysPastInYear : List ℤ := [31, 59, 90, 120, 151, 181, 212, 243, 273, 304, 334, 365]

def daysBefore (mon : ℤ) : ℤ := if mon > 0 then daysPastInYear.getD (mon - 1).toNat 0 else 0

/-- `str_to_time`, on what `strptime` answers. -/
def strToTime : Option Tm → ℤ
  | none => -1
  | some tm =>
    let tyears := tm.year - 70
    let leaps := (tyears + 2).tdiv 4
    let tdays := daysBefore tm.mon
    let tdays := tdays + (tm.mday - 1)
    let tdays := tdays + tyears * 365 + leaps
    let utcHrs := tm.hour + utcDiff
    tdays * 86400 + utcHrs * 3600 + tm.min * 60 + tm.sec

def ahead (st : Stamp) : ℤ :=
  ((st.year : ℤ) - 1970 + 2).tdiv 4 - (leapsBefore st.year - leapsBefore 1970) -
    if isLeap st.year ∧ 2 < st.month then 1 else 0

end Cpp

lemma ofNumbers_eq (st : Stamp) :
    Stamp.ofNumbers st.year st.month st.day st.hour st.min st.sec = some st :=
  dif_pos ⟨st.year_lt, st.month_mem, st.day_mem, st.hour_lt, st.min_lt, st.sec_lt⟩

lemma number_pad {w n : ℕ} (h : n < 10 ^ w) (p q : Bytes) {start : ℕ} (hp : p.length = start) :
    Stamp.number (p ++ (pad w n ++ q)) start w = n := by
  rw [Stamp.number, ← hp, List.drop_left, List.take_left' (length_pad w n), value_pad h]

lemma ofText_text (gap : Bytes) (colon : UInt8) (st : Stamp) :
    Stamp.ofText gap colon (st.text gap colon) = some st := by
  have hday : st.day < 10 ^ 2 := by
    have h31 : daysInMonth (isLeap st.year) st.month ≤ 31 := by
      unfold daysInMonth
      split_ifs <;> decide
    have hd := st.day_mem.2
    omega
  have hmonth := st.month_mem.2
  have hhour := st.hour_lt
  have hmin := st.min_lt
  have hsec := st.sec_lt
  have hnum {w n : ℕ} (hn : n < 10 ^ w) (p q : Bytes) (start : ℕ) (hp : p.length = start)
      (he : st.text gap colon = p ++ (pad w n ++ q)) :
      Stamp.number (st.text gap colon) start w = n := by
    rw [he, number_pad hn p q hp]
  let date := pad 4 st.year ++ 45 :: (pad 2 st.month ++ [45])
  let time := colon :: (pad 2 st.min ++ colon :: pad 2 st.sec)
  have hd : date.length = 8 := by simp [date]
  rw [Stamp.ofText]
  rw [hnum (w := 4) st.year_lt []
    (45 :: (pad 2 st.month ++ 45 :: (pad 2 st.day ++ (gap ++ (pad 2 st.hour ++ time))))) 0 rfl
    (by simp [Stamp.text, time])]
  rw [hnum (w := 2) (n := st.month) (by omega) (pad 4 st.year ++ [45])
    (45 :: (pad 2 st.day ++ (gap ++ (pad 2 st.hour ++ time)))) 5 (by simp)
    (by simp [Stamp.text, time])]
  rw [hnum hday date (gap ++ (pad 2 st.hour ++ time)) 8 hd (by simp [Stamp.text, date, time])]
  rw [hnum (w := 2) (n := st.hour) (by omega) (date ++ (pad 2 st.day ++ gap)) time
    (10 + gap.length) (by simp [hd]; omega) (by simp [Stamp.text, date, time])]
  rw [hnum (w := 2) (n := st.min) (by omega) (date ++ (pad 2 st.day ++ gap ++ pad 2 st.hour ++ [colon]))
    (colon :: pad 2 st.sec) (13 + gap.length) (by simp [hd]; omega) (by simp [Stamp.text, date])]
  rw [hnum (w := 2) (n := st.sec) (by omega)
    (date ++ (pad 2 st.day ++ gap ++ pad 2 st.hour ++ colon :: (pad 2 st.min ++ [colon]))) []
    (16 + gap.length) (by simp [hd]; omega) (by simp [Stamp.text, date])]
  rw [ofNumbers_eq]
  simp

lemma leapsBefore_succ (year : ℕ) :
    leapsBefore (year + 1) = leapsBefore year + if isLeap year then 1 else 0 := by
  have h4 : (year + 1 + 3) / 4 = (year + 3) / 4 + if year % 4 = 0 then 1 else 0 := by
    split <;> omega
  have h100 : (year + 1 + 99) / 100 = (year + 99) / 100 + if year % 100 = 0 then 1 else 0 := by
    split <;> omega
  have h400 : (year + 1 + 399) / 400 = (year + 399) / 400 + if year % 400 = 0 then 1 else 0 := by
    split <;> omega
  have hle : (year + 99) / 100 ≤ (year + 3) / 4 := by omega
  have h1 : year % 100 = 0 → year % 4 = 0 := by omega
  have h2 : year % 400 = 0 → year % 100 = 0 := by omega
  simp only [leapsBefore, isLeap, decide_eq_true_eq, h4, h100, h400]
  generalize (year + 99) / 100 = a at *
  generalize (year + 3) / 4 = b at *
  generalize (year + 399) / 400 = c at *
  split_ifs <;> omega

lemma daysBefore_eq (leap : Bool) {month : ℕ} (h : 1 ≤ month ∧ month ≤ 12) :
    Cpp.daysBefore ((month : ℤ) - 1) =
      daysBeforeMonth leap month - if leap ∧ 2 < month then 1 else 0 := by
  have hall : ∀ leap : Bool, ∀ m < 12, Cpp.daysBefore (((m + 1 : ℕ) : ℤ) - 1) =
      daysBeforeMonth leap (m + 1) - if leap ∧ 2 < m + 1 then 1 else 0 := by decide
  have hm := hall leap (month - 1) (by omega)
  rwa [Nat.sub_add_cancel h.1] at hm

lemma strToTime_tm (st : Stamp) :
    Cpp.strToTime (some st.tm) = st.timestamp + Cpp.utcDiff * 3600 + Cpp.ahead st * 86400 := by
  simp only [Cpp.strToTime, Stamp.tm, Stamp.timestamp, Stamp.days, Cpp.ahead, Cpp.utcDiff]
  rw [daysBefore_eq (isLeap st.year) st.month_mem,
    show (st.year : ℤ) - 1900 - 70 + 2 = st.year - 1970 + 2 by ring]
  ring

lemma ahead_eq {st : Stamp} (h : 1970 ≤ st.year) (h' : st.year < 2100) :
    Cpp.ahead st = if isLeap st.year ∧ st.month ≤ 2 then 1 else 0 := by
  have hd : ((st.year : ℤ) - 1970 + 2).tdiv 4 = ((st.year - 1968) / 4 : ℕ) := by
    rw [Int.tdiv_eq_ediv_of_nonneg (by omega)]
    omega
  simp only [Cpp.ahead, hd, isLeap, leapsBefore, decide_eq_true_eq]
  split <;> split <;> omega

end TeamspeakWebserver.Ltc
