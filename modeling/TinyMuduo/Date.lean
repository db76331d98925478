import TinyMuduo.Fault
import TinyMuduo.Lib.Calendar
import TinyMuduo.Lib.MachineInt

/-!
The Date: a Julian day number, and the conversions from and to the year, the
month and the day. Both are computed with the 32-bit integers of the source,
where an overflow is a fault; up to the last number that they can represent they
number the days of the Gregorian calendar.
-/
namespace TinyMuduo

open Checked Calendar MachineInt

def int (n : ℤ) : Except Fault ℤ := checked .intOverflow n

def getJulianDayNumber (year month day : ℤ) : Except Fault ℤ := do
  let a := (← int (14 - month)).tdiv 12
  let y ← int ((← int (year + 4800)) - a)
  let m ← int ((← int (month + (← int (12 * a)))) - 3)
  -- the terms of the sum are added from the left
  let n ← int (day + (← int ((← int (153 * m)) + 2)).tdiv 5)
  let n ← int (n + (← int (y * 365)))
  let n ← int (n + y.tdiv 4)
  let n ← int (n - y.tdiv 100)
  let n ← int (n + y.tdiv 400)
  int (n - 32045)

def getYearMonthDay (julianDayNumber : ℤ) : Except Fault Calendar.Date := do
  let a ← int (julianDayNumber + 32044)
  let b := (← int ((← int (4 * a)) + 3)).tdiv 146097
  let c ← int (a - (← int (b * 146097)).tdiv 4)
  let d := (← int ((← int (4 * c)) + 3)).tdiv 1461
  let e ← int (c - (← int (1461 * d)).tdiv 4)
  let m := (← int ((← int (5 * e)) + 2)).tdiv 153
  let day ← int ((← int (e - (← int ((← int (153 * m)) + 2)).tdiv 5)) + 1)
  let month ← int ((← int (m + 3)) - (← int (12 * m.tdiv 10)))
  let year ← int ((← int ((← int ((← int (b * 100)) + d)) - 4800)) + m.tdiv 10)
  return ⟨year, month, day⟩

def kJulianDayOf1970_01_01 : Except Fault ℤ := getJulianDayNumber 1970 1 1

structure Date where
  julianDayNumber_ : ℤ
  deriving DecidableEq, Repr

namespace Date

def ofYearMonthDay (year month day : ℤ) : Except Fault Date := do
  return ⟨← getJulianDayNumber year month day⟩

def yearMonthDay (date : Date) : Except Fault Calendar.Date :=
  getYearMonthDay date.julianDayNumber_

/-- From 0 for Sunday to 6 for Saturday. -/
def weekDay (date : Date) : Except Fault ℤ := do
  return (← int (date.julianDayNumber_ + 1)).tmod 7

end Date

theorem int_ok {n : ℤ} (h0 : -2147483648 ≤ n) (h1 : n ≤ 2147483647) : int n = .ok n :=
  checked_ok h0 h1

theorem kJulianDayOf1970_01_01_eq : kJulianDayOf1970_01_01 = .ok 2440588 := by decide

theorem int_eq_ok {n m : ℤ} :
    int n = .ok m ↔ (-2147483648 ≤ n ∧ n ≤ 2147483647) ∧ n = m := checked_eq_ok

/-- From the year -4800 on the quotients are floors, and the number is the day of
the calendar. -/
theorem getJulianDayNumber_eq {date : Calendar.Date} (h : date.Valid) (h0 : -4799 ≤ date.year)
    (h1 : date.year ≤ 5000000) :
    getJulianDayNumber date.year date.month date.day = .ok (dayNumber date + 2440588) := by
  obtain ⟨year, month, day⟩ := date
  obtain ⟨⟨hm0, hm1⟩, hd0, hd1⟩ := h
  obtain ⟨-, hlast⟩ := daysOfMonth_range year month
  dsimp only at h0 h1 hm0 hm1 hd0 hd1 ⊢
  have ha : (14 - month).tdiv 12 = if month ≤ 2 then 1 else 0 := by
    rw [Int.tdiv_eq_ediv_of_nonneg (by omega)]
    split <;> omega
  unfold getJulianDayNumber
  rw [int_ok (by omega) (by omega), ok_bind, ha]
  generalize hy : year + 4800 - (if month ≤ 2 then 1 else 0) = y
  generalize hm : month + 12 * (if month ≤ 2 then 1 else 0) - 3 = m
  have hy' : 0 ≤ y ∧ y ≤ 5005000 := by split at hy <;> omega
  have hm' : 0 ≤ m ∧ m ≤ 11 := by split at hm <;> omega
  dsimp only
  simp (disch := omega) only [int_ok, ok_bind, hy, hm, Int.tdiv_eq_ediv_of_nonneg]
  have hsum : dayNumber ⟨year, month, day⟩ = start (y - 4800) + ((153 * m + 2) / 5 + day - 1) -
      719468 := by
    unfold dayNumber start
    dsimp only
    by_cases hspring : month ≤ 2
    · rw [if_pos hspring] at hy hm
      rw [if_pos hspring, if_pos hspring]
      omega
    · rw [if_neg hspring] at hy hm
      rw [if_neg hspring, if_neg hspring]
      omega
  have hcycles := start_cycle (-12) y
  rw [hsum]
  unfold start at hcycles ⊢
  congr 1
  omega

/-- A number that was computed without an overflow is the sum of the source. -/
theorem getJulianDayNumber_sum {year month day j : ℤ}
    (h : getJulianDayNumber year month day = .ok j) :
    ∃ y m, y = year + 4800 - (14 - month).tdiv 12 ∧ m = month + 12 * (14 - month).tdiv 12 - 3 ∧
      j = day + (153 * m + 2).tdiv 5 + y * 365 + y.tdiv 4 - y.tdiv 100 + y.tdiv 400 - 32045 := by
  unfold getJulianDayNumber at h
  simp only [bind_eq_ok, int_eq_ok] at h
  obtain ⟨_, ⟨-, rfl⟩, _, ⟨-, rfl⟩, _, ⟨-, rfl⟩, _, ⟨-, rfl⟩, _, ⟨-, rfl⟩, _, ⟨-, rfl⟩, _, ⟨-, rfl⟩,
    _, ⟨-, rfl⟩, _, ⟨-, rfl⟩, _, ⟨-, rfl⟩, _, ⟨-, rfl⟩, _, ⟨-, rfl⟩, _, ⟨-, rfl⟩, _, ⟨-, rfl⟩, -,
    hj⟩ := h
  exact ⟨_, _, rfl, rfl, hj.symm⟩

/-- A number that is computed and not negative is the one of a year from -4800
on. -/
theorem year_of_getJulianDayNumber {date : Calendar.Date} {j : ℤ} (h : date.Valid)
    (hj : getJulianDayNumber date.year date.month date.day = .ok j) (h0 : 0 ≤ j)
    (h1 : j ≤ 536838867) : -4799 ≤ date.year ∧ date.year ≤ 5000000 := by
  obtain ⟨⟨hm0, hm1⟩, hd0, hd1⟩ := h
  obtain ⟨-, hlast⟩ := daysOfMonth_range date.year date.month
  obtain ⟨y, m, hy, hm, hsum⟩ := getJulianDayNumber_sum hj
  rw [Int.tdiv_eq_ediv_of_nonneg (by omega)] at hy hm
  have hm' : 0 ≤ m ∧ m ≤ 11 := by omega
  rw [@Int.tdiv_eq_ediv_of_nonneg (153 * m + 2) 5 (by omega)] at hsum
  by_cases hneg : y < 0
  · -- the quotients are rounded up, and the sum is negative
    generalize hn : -y = n
    have hy' : y = -n := by omega
    rw [hy', Int.neg_tdiv, Int.neg_tdiv, Int.neg_tdiv, Int.tdiv_eq_ediv_of_nonneg (by omega),
      Int.tdiv_eq_ediv_of_nonneg (by omega), Int.tdiv_eq_ediv_of_nonneg (by omega)] at hsum
    omega
  · rw [Int.tdiv_eq_ediv_of_nonneg (by omega), Int.tdiv_eq_ediv_of_nonneg (by omega),
      Int.tdiv_eq_ediv_of_nonneg (by omega)] at hsum
    omega

/-- A day number in the range is the one of a year from -4800 on. -/
theorem year_of_dayNumber {date : Calendar.Date} (h : date.Valid)
    (h0 : 0 ≤ dayNumber date + 2440588) (h1 : dayNumber date + 2440588 ≤ 536838867) :
    -4799 ≤ date.year ∧ date.year ≤ 5000000 := by
  obtain ⟨⟨hm0, hm1⟩, hd0, hd1⟩ := h
  obtain ⟨-, hlast⟩ := daysOfMonth_range date.year date.month
  unfold dayNumber at h0 h1
  dsimp only at h0 h1
  split at h0 <;> split at h1 <;> omega

/-- The date that the quotients give, where nothing overflows. -/
theorem getYearMonthDay_march {j : ℤ} (h0 : 0 ≤ j) (h1 : j ≤ 536838867) : ∃ year e,
    0 ≤ e ∧ start year + e = j + 32044 ∧ j + 32044 < start (year + 1) ∧
      getYearMonthDay j = .ok (marchDate (year - 4800) e) := by
  unfold getYearMonthDay
  rw [int_ok (by omega) (by omega), ok_bind]
  generalize ha : j + 32044 = a
  rw [int_ok (by omega) (by omega), ok_bind, int_ok (by omega) (by omega), ok_bind,
    Int.tdiv_eq_ediv_of_nonneg (by omega)]
  generalize hb : (4 * a + 3) / 146097 = b
  dsimp only
  rw [int_ok (by omega) (by omega), ok_bind, @Int.tdiv_eq_ediv_of_nonneg (b * 146097) 4 (by omega),
    int_ok (by omega) (by omega), ok_bind]
  generalize hc : a - b * 146097 / 4 = c
  have hc' : 0 ≤ c ∧ c ≤ 36524 := by omega
  rw [int_ok (by omega) (by omega), ok_bind, int_ok (by omega) (by omega), ok_bind,
    @Int.tdiv_eq_ediv_of_nonneg (4 * c + 3) 1461 (by omega)]
  generalize hd : (4 * c + 3) / 1461 = d
  rw [int_ok (by omega) (by omega), ok_bind, @Int.tdiv_eq_ediv_of_nonneg (1461 * d) 4 (by omega),
    int_ok (by omega) (by omega), ok_bind]
  generalize he : c - 1461 * d / 4 = e
  have he' : 0 ≤ e ∧ e ≤ 365 := by omega
  have hstart := @start_quarters a b d e hb.symm (by rw [hc, hd]) (by rw [hc, he])
  refine ⟨b * 100 + d, e, hstart.1, hstart.2.1, hstart.2.2, ?_⟩
  have hyear : 0 ≤ b * 100 + d ∧ b * 100 + d ≤ 1500000 := by omega
  have hb' : 0 ≤ b ∧ 0 ≤ d := by omega
  clear hb hc hc' hd he hstart h0 h1 ha
  rw [int_ok (by omega) (by omega), ok_bind, int_ok (by omega) (by omega), ok_bind,
    @Int.tdiv_eq_ediv_of_nonneg (5 * e + 2) 153 (by omega)]
  generalize hm : (5 * e + 2) / 153 = m
  have hm' : 0 ≤ m ∧ m ≤ 11 := by omega
  have hten : m.tdiv 10 = if m < 10 then 0 else 1 := by
    rw [Int.tdiv_eq_ediv_of_nonneg hm'.1]
    split <;> omega
  rw [hten]
  simp (disch := omega) only [int_ok, ok_bind, Int.tdiv_eq_ediv_of_nonneg, pure_eq_ok]
  rw [marchDate, hm]
  unfold ofMarch
  by_cases hspring : m < 10
  · simp only [if_pos hspring]
    congr 2
    · omega
    · omega
  · simp only [if_neg hspring]
    congr 2
    omega

theorem getYearMonthDay_spec {j : ℤ} (h0 : 0 ≤ j) (h1 : j ≤ 536838867) :
    ∃ date : Calendar.Date, getYearMonthDay j = .ok date ∧ date.Valid ∧
      dayNumber date + 2440588 = j := by
  obtain ⟨year, e, he, hsum, hlt, hdate⟩ := getYearMonthDay_march h0 h1
  have hyear := start_cycle (-12) year
  have hyear' := start_cycle (-12) (year + 1)
  have hshift : -12 * 400 + year = year - 4800 := by omega
  have hshift' : -12 * 400 + (year + 1) = year - 4800 + 1 := by omega
  rw [hshift] at hyear
  rw [hshift'] at hyear'
  have hlt' : start (year - 4800) + e < start (year - 4800 + 1) := by omega
  refine ⟨_, hdate, marchDate_valid he hlt', ?_⟩
  rw [dayNumber_march he hlt']
  omega

/-- Up to the last number the date is the one of the calendar. -/
theorem getYearMonthDay_eq {j : ℤ} (h0 : 0 ≤ j) (h1 : j ≤ 536838867) :
    getYearMonthDay j = .ok (civil (j - 2440588)) := by
  obtain ⟨date, hdate, hvalid, hnumber⟩ := getYearMonthDay_spec h0 h1
  have hday : dayNumber date = dayNumber (civil (j - 2440588)) := by
    rw [dayNumber_civil]
    omega
  rw [hdate, dayNumber_injective hvalid (civil_valid _) hday]

/-- A date in the range has the number of its day. -/
theorem getJulianDayNumber_of_day {date : Calendar.Date} {j : ℤ} (h : date.Valid)
    (hj : dayNumber date + 2440588 = j) (h0 : 0 ≤ j) (h1 : j ≤ 536838867) :
    getJulianDayNumber date.year date.month date.day = .ok j := by
  obtain ⟨hyear0, hyear1⟩ := year_of_dayNumber h (by omega) (by omega)
  rw [getJulianDayNumber_eq h hyear0 hyear1, hj]

/-- The date of a number is the only one that has it. -/
theorem getYearMonthDay_of_day {date : Calendar.Date} {j : ℤ} (h : date.Valid)
    (hj : dayNumber date + 2440588 = j) (h0 : 0 ≤ j) (h1 : j ≤ 536838867) :
    getYearMonthDay j = .ok date := by
  obtain ⟨date', hdate', hvalid', hnumber'⟩ := getYearMonthDay_spec h0 h1
  rw [hdate', dayNumber_injective hvalid' h (by omega)]

/-- The days of the week, counted from the Monday that has the number 0. -/
theorem Date.weekDay_eq {j : ℤ} (h0 : 0 ≤ j) (h1 : j ≤ 536838867) :
    (Date.mk j).weekDay = .ok ((j + 1) % 7) := by
  unfold Date.weekDay
  dsimp only
  rw [int_ok (by omega) (by omega), ok_bind, pure_eq_ok, Int.tmod_eq_emod_of_nonneg (by omega)]

/-- The Julian day numbers that fit enumerate the Gregorian calendar. In the
second part the number of a date is the one of the calendar, in the third the one
that the source computes. -/
theorem julianDayNumbers_enumerate :
    (∀ j, 0 ≤ j → j ≤ 536838867 → ∃ date : Calendar.Date,
      getYearMonthDay j = .ok date ∧ date.Valid ∧
      getJulianDayNumber date.year date.month date.day = .ok j ∧
      (j + 1 ≤ 536838867 → getYearMonthDay (j + 1) = .ok date.next)) ∧
    (∀ date : Calendar.Date, date.Valid → 0 ≤ dayNumber date + 2440588 →
      dayNumber date + 2440588 ≤ 536838867 →
      (getJulianDayNumber date.year date.month date.day >>= getYearMonthDay) = .ok date) ∧
    ∀ (date : Calendar.Date) (j : ℤ), date.Valid →
      getJulianDayNumber date.year date.month date.day = .ok j → 0 ≤ j → j ≤ 536838867 →
      getYearMonthDay j = .ok date := by
  refine ⟨?_, ?_, ?_⟩
  · intro j h0 h1
    obtain ⟨date, hdate, hvalid, hnumber⟩ := getYearMonthDay_spec h0 h1
    refine ⟨date, hdate, hvalid, getJulianDayNumber_of_day hvalid hnumber h0 h1, ?_⟩
    intro hnext
    have hnumber' := dayNumber_next hvalid
    exact getYearMonthDay_of_day hvalid.next (by omega) (by omega) hnext
  · intro date hvalid h0 h1
    rw [getJulianDayNumber_of_day hvalid rfl h0 h1, ok_bind]
    exact getYearMonthDay_of_day hvalid rfl h0 h1
  · intro date j hvalid hj h0 h1
    obtain ⟨hyear0, hyear1⟩ := year_of_getJulianDayNumber hvalid hj h0 h1
    rw [getJulianDayNumber_eq hvalid hyear0 hyear1] at hj
    exact getYearMonthDay_of_day hvalid (Except.ok.inj hj) h0 h1

/-- The next number does not fit. -/
example : getYearMonthDay 536838868 = .error .intOverflow := by decide

/-- The day after the last day of February 2000. -/
theorem julianDayNumbers_leapDay :
    (getJulianDayNumber 2000 2 29 >>= getYearMonthDay) = .ok ⟨2000, 2, 29⟩ ∧
      ∃ date : Calendar.Date, getYearMonthDay 2451604 = .ok date ∧
        getYearMonthDay 2451605 = .ok date.next := by
  refine ⟨julianDayNumbers_enumerate.2.1 ⟨2000, 2, 29⟩ (by decide) (by decide) (by decide), ?_⟩
  obtain ⟨date, hdate, -, -, hnext⟩ :=
    julianDayNumbers_enumerate.1 2451604 (by decide) (by decide)
  exact ⟨date, hdate, hnext (by decide)⟩

end TinyMuduo
