import TinyMuduo.BrokenDownTime
import TinyMuduo.Date

/-!
The conversions of the TimeZone between a time and a broken-down time in UTC,
which are made with the Date and not with the C library. Where the Julian day
number fits, they agree with gmtime and are the inverse of each other, before
1970 as well as after it.
-/
namespace TinyMuduo

open Checked Calendar MachineInt

structure UtcTm extends Tm where
  /-- days since Sunday -/
  tm_wday : ℤ
  /-- days since the first of January -/
  tm_yday : ℤ
  deriving DecidableEq, Repr

def kSecondsPerDay : ℤ := 24 * 60 * 60

/-- The seconds are `unsigned`. -/
def fillHMS (seconds : ℤ) (utc : UtcTm) : UtcTm :=
  let minutes := seconds / 60
  { utc with tm_sec := seconds % 60, tm_min := minutes % 60, tm_hour := minutes / 60 }

namespace TimeZone

def utcZero : UtcTm where
  tm_sec := 0
  tm_min := 0
  tm_hour := 0
  tm_mday := 0
  tm_mon := 0
  tm_year := 0
  tm_isdst := 0
  tm_gmtoff := 0
  tm_zone := .gmt
  tm_wday := 0
  tm_yday := 0

def fillUtc (seconds days : ℤ) (yday : Bool) : Except Fault UtcTm := do
  let utc := fillHMS (unsigned seconds) utcZero
  let date : Date := ⟨← int (days + (← kJulianDayOf1970_01_01))⟩
  let ymd ← date.yearMonthDay
  let tm_year ← int (ymd.year - 1900)
  let tm_mon ← int (ymd.month - 1)
  let tm_wday ← date.weekDay
  let utc := { utc with tm_year, tm_mon, tm_mday := ymd.day, tm_wday }
  if yday then do
    let startOfYear ← Date.ofYearMonthDay ymd.year 1 1
    let tm_yday ← int (date.julianDayNumber_ - startOfYear.julianDayNumber_)
    return { utc with tm_yday }
  else return utc

/-- The time is a `time_t` of 64 bits. -/
def toUtcTime (secondsSinceEpoch : ℤ) (yday : Bool) : Except Fault UtcTm := do
  let seconds := narrow (secondsSinceEpoch.tmod kSecondsPerDay)
  let days := narrow (secondsSinceEpoch.tdiv kSecondsPerDay)
  if seconds < 0 then do
    let seconds ← int (seconds + kSecondsPerDay)
    let days ← int (days - 1)
    fillUtc seconds days yday
  else fillUtc seconds days yday

def fromUtcTime (year month day hour minute seconds : ℤ) : Except Fault ℤ := do
  let date ← Date.ofYearMonthDay year month day
  let secondsInDay ← int ((← int ((← int (hour * 3600)) + (← int (minute * 60)))) + seconds)
  let days ← int (date.julianDayNumber_ - (← kJulianDayOf1970_01_01))
  return days * kSecondsPerDay + secondsInDay

def fromUtcTm (utc : UtcTm) : Except Fault ℤ := do
  fromUtcTime (← int (utc.tm_year + 1900)) (← int (utc.tm_mon + 1)) utc.tm_mday utc.tm_hour
    utc.tm_min utc.tm_sec

def utcFields (t : ℤ) (yday : Bool) : UtcTm where
  toTm := gmtime t
  tm_wday := (t / 86400 + 4) % 7
  tm_yday := if yday then (civil (t / 86400)).dayOfYear else 0

/-- The source rounds the quotient and the remainder down. -/
theorem toUtcTime_floor {t : ℤ} (h0 : 0 ≤ t / 86400 + 2440588)
    (h1 : t / 86400 + 2440588 ≤ 536838867) (yday : Bool) :
    toUtcTime t yday = fillUtc (t % 86400) (t / 86400) yday := by
  have hday : kSecondsPerDay = 86400 := by decide
  have hlow := Int.lt_tmod_of_pos t (show 0 < 86400 by decide)
  have hhigh := Int.tmod_lt_of_pos t (show 0 < 86400 by decide)
  unfold toUtcTime
  rw [hday]
  by_cases hneg : t.tmod 86400 < 0
  · obtain ⟨hdiv, hmod⟩ := ediv_of_tmod_neg (show 0 < 86400 by decide) hneg
    rw [narrow_of_fits (by omega) (by omega), narrow_of_fits (by omega) (by omega)]
    dsimp only
    rw [if_pos hneg, int_ok (by omega) (by omega), ok_bind, int_ok (by omega) (by omega), ok_bind,
      hdiv, hmod]
  · obtain ⟨hdiv, hmod⟩ := ediv_of_tmod_nonneg (show 0 < 86400 by decide) (Int.not_lt.mp hneg)
    rw [narrow_of_fits (by omega) (by omega), narrow_of_fits (by omega) (by omega)]
    dsimp only
    rw [if_neg hneg, hdiv, hmod]

/-- The first day of the year. -/
theorem ofYearMonthDay_first {year : ℤ} (h0 : -4799 ≤ year) (h1 : year ≤ 5000000) :
    Date.ofYearMonthDay year 1 1 = .ok ⟨dayNumber ⟨year, 1, 1⟩ + 2440588⟩ := by
  have hnumber := getJulianDayNumber_eq (first_valid year) h0 h1
  dsimp only at hnumber
  rw [Date.ofYearMonthDay, hnumber, ok_bind, pure_eq_ok]

theorem toUtcTime_eq {t : ℤ} (h0 : 0 ≤ t / 86400 + 2440588)
    (h1 : t / 86400 + 2440588 ≤ 536838867) (yday : Bool) :
    toUtcTime t yday = .ok (utcFields t yday) := by
  rw [toUtcTime_floor h0 h1, fillUtc, kJulianDayOf1970_01_01_eq, ok_bind,
    int_ok (by omega) (by omega), ok_bind]
  have hvalid := civil_valid (t / 86400)
  have hnumber := dayNumber_civil (t / 86400)
  obtain ⟨hyear0, hyear1⟩ := year_of_dayNumber hvalid (by omega) (by omega)
  obtain ⟨hm0, hm1⟩ := civil_month (t / 86400)
  have hfirst := ofYearMonthDay_first hyear0 hyear1
  have hyday := dayNumber_sub hvalid
  have hrange := dayOfYear_range hvalid
  have hdate : (⟨t / 86400 + 2440588⟩ : Date).yearMonthDay = .ok (civil (t / 86400)) := by
    rw [Date.yearMonthDay, getYearMonthDay_eq h0 h1, Int.add_sub_cancel]
  have hweek : (t / 86400 + 2440588 + 1) % 7 = (t / 86400 + 4) % 7 := by omega
  have hgmtime : fillHMS (unsigned (t % 86400)) utcZero =
      { utcZero with tm_sec := t % 60, tm_min := t / 60 % 60, tm_hour := t / 3600 % 24 } := by
    rw [unsigned_of_nonneg (by omega) (by omega), fillHMS]
    congr 2 <;> omega
  dsimp only
  rw [hdate, ok_bind, int_ok (by omega) (by omega), ok_bind, int_ok (by omega) (by omega), ok_bind,
    Date.weekDay_eq h0 h1, ok_bind, hgmtime, hweek]
  cases yday with
  | false => rfl
  | true =>
    have hyday' : t / 86400 + 2440588 - (dayNumber ⟨(civil (t / 86400)).year, 1, 1⟩ + 2440588) =
        (civil (t / 86400)).dayOfYear := by omega
    dsimp only
    rw [if_pos rfl, hfirst, ok_bind]
    dsimp only
    rw [hyday', int_ok (by omega) (by omega)]
    rfl

/-- The time of a date and a time of the day. -/
theorem fromUtcTime_eq {date : Calendar.Date} {hour minute second : ℤ} (h : date.Valid)
    (h0 : 0 ≤ dayNumber date + 2440588) (h1 : dayNumber date + 2440588 ≤ 536838867)
    (hhour : 0 ≤ hour ∧ hour ≤ 23) (hminute : 0 ≤ minute ∧ minute ≤ 59)
    (hsecond : 0 ≤ second ∧ second ≤ 59) :
    fromUtcTime date.year date.month date.day hour minute second =
      .ok (dayNumber date * 86400 + (hour * 3600 + minute * 60 + second)) := by
  have hnumber := getJulianDayNumber_of_day h rfl h0 h1
  unfold fromUtcTime Date.ofYearMonthDay
  rw [hnumber, ok_bind, pure_eq_ok, ok_bind, kJulianDayOf1970_01_01_eq]
  simp (disch := omega) only [int_ok, ok_bind, Int.add_sub_cancel]
  rfl

theorem fromUtcTm_utcFields {t : ℤ} (h0 : 0 ≤ t / 86400 + 2440588)
    (h1 : t / 86400 + 2440588 ≤ 536838867) (yday : Bool) :
    fromUtcTm (utcFields t yday) = .ok t := by
  have hvalid := civil_valid (t / 86400)
  have hnumber := dayNumber_civil (t / 86400)
  obtain ⟨hyear0, hyear1⟩ := year_of_dayNumber hvalid (by omega) (by omega)
  obtain ⟨hm0, hm1⟩ := civil_month (t / 86400)
  unfold fromUtcTm utcFields gmtime
  dsimp only
  rw [Int.sub_add_cancel, Int.sub_add_cancel, int_ok (by omega) (by omega), ok_bind,
    int_ok (by omega) (by omega), ok_bind,
    fromUtcTime_eq hvalid (by omega) (by omega) (by omega) (by omega) (by omega), hnumber]
  congr 1
  omega

/-- The conversions are exact in both directions. -/
theorem utcTime_exact :
    (∀ t, 0 ≤ t / 86400 + 2440588 → t / 86400 + 2440588 ≤ 536838867 → ∃ utc,
      toUtcTime t true = .ok utc ∧ utc.toTm = gmtime t ∧
      (0 ≤ utc.tm_hour ∧ utc.tm_hour ≤ 23) ∧ (0 ≤ utc.tm_min ∧ utc.tm_min ≤ 59) ∧
      (0 ≤ utc.tm_sec ∧ utc.tm_sec ≤ 59) ∧
      (⟨utc.tm_year + 1900, utc.tm_mon + 1, utc.tm_mday⟩ : Calendar.Date).Valid ∧
      utc.tm_wday = (t / 86400 + 4) % 7 ∧
      utc.tm_yday = (⟨utc.tm_year + 1900, utc.tm_mon + 1, utc.tm_mday⟩ : Calendar.Date).dayOfYear ∧
      ∀ yday, (toUtcTime t yday >>= fromUtcTm) = .ok t) ∧
    ∀ (date : Calendar.Date) (hour minute second : ℤ), date.Valid →
      0 ≤ dayNumber date + 2440588 → dayNumber date + 2440588 ≤ 536838867 →
      0 ≤ hour ∧ hour ≤ 23 → 0 ≤ minute ∧ minute ≤ 59 → 0 ≤ second ∧ second ≤ 59 →
      ∀ yday, ∃ t utc, fromUtcTime date.year date.month date.day hour minute second = .ok t ∧
        toUtcTime t yday = .ok utc ∧ utc.tm_year + 1900 = date.year ∧
        utc.tm_mon + 1 = date.month ∧ utc.tm_mday = date.day ∧ utc.tm_hour = hour ∧
        utc.tm_min = minute ∧ utc.tm_sec = second := by
  refine ⟨?_, ?_⟩
  · intro t h0 h1
    have hdate : (⟨(utcFields t true).tm_year + 1900, (utcFields t true).tm_mon + 1,
        (utcFields t true).tm_mday⟩ : Calendar.Date) = civil (t / 86400) := by
      unfold utcFields gmtime
      dsimp only
      rw [Int.sub_add_cancel, Int.sub_add_cancel]
    refine ⟨utcFields t true, toUtcTime_eq h0 h1 true, rfl, ?_, ?_, ?_, ?_, rfl, ?_, ?_⟩
    · change 0 ≤ t / 3600 % 24 ∧ t / 3600 % 24 ≤ 23
      omega
    · change 0 ≤ t / 60 % 60 ∧ t / 60 % 60 ≤ 59
      omega
    · change 0 ≤ t % 60 ∧ t % 60 ≤ 59
      omega
    · rw [hdate]
      exact civil_valid _
    · rw [hdate]
      rfl
    · intro yday
      rw [toUtcTime_eq h0 h1, ok_bind, fromUtcTm_utcFields h0 h1]
  · intro date hour minute second hvalid h0 h1 hhour hminute hsecond yday
    generalize ht : dayNumber date * 86400 + (hour * 3600 + minute * 60 + second) = t
    have hday : t / 86400 = dayNumber date := by omega
    refine ⟨t, utcFields t yday, ?_, toUtcTime_eq (by omega) (by omega) yday, ?_⟩
    · rw [fromUtcTime_eq hvalid h0 h1 hhour hminute hsecond, ht]
    · unfold utcFields gmtime
      dsimp only
      rw [hday, civil_dayNumber hvalid]
      omega

/-- The last second before the epoch, and the last one of a leap day. -/
theorem utcTime_exact_lastSeconds :
    (toUtcTime (-1) true >>= fromUtcTm) = .ok (-1) ∧
      ∃ t utc, fromUtcTime 2000 2 29 23 59 59 = .ok t ∧ toUtcTime t true = .ok utc ∧
        utc.tm_mon + 1 = 2 ∧ utc.tm_mday = 29 := by
  obtain ⟨-, -, -, -, -, -, -, -, -, hback⟩ := utcTime_exact.1 (-1) (by decide) (by decide)
  obtain ⟨t, utc, hfrom, hto, -, hmonth, hday, -⟩ := utcTime_exact.2 ⟨2000, 2, 29⟩ 23 59 59
    (by decide) (by decide) (by decide) (by decide) (by decide) (by decide) true
  exact ⟨hback true, t, utc, hfrom, hto, hmonth, hday⟩

end TimeZone

end TinyMuduo
