import TinyMuduo.Lib.Calendar

/-!
The broken-down time of the C library and its conversions in UTC. The days of
the week and of the year are left out.
-/
namespace TinyMuduo

open Calendar

inductive TmZone
  | gmt
  /-- a position in the abbreviations of a time zone -/
  | abbreviation (arrbIdx : ℤ)
  deriving DecidableEq, Repr

structure Tm where
  tm_sec : ℤ
  tm_min : ℤ
  tm_hour : ℤ
  tm_mday : ℤ
  /-- months since January -/
  tm_mon : ℤ
  /-- years since 1900 -/
  tm_year : ℤ
  tm_isdst : ℤ
  tm_gmtoff : ℤ
  tm_zone : TmZone
  deriving DecidableEq, Repr

def gmtime (seconds : ℤ) : Tm where
  tm_sec := seconds % 60
  tm_min := seconds / 60 % 60
  tm_hour := seconds / 3600 % 24
  tm_mday := (civil (seconds / 86400)).day
  tm_mon := (civil (seconds / 86400)).month - 1
  tm_year := (civil (seconds / 86400)).year - 1900
  tm_isdst := 0
  tm_gmtoff := 0
  tm_zone := .gmt

/-- timegm(3). Months beyond the year carry over into it, and the other fields
into the seconds; the daylight saving flag, the offset and the zone are not
read. -/
def timegm (tm : Tm) : ℤ :=
  let month := dayNumber ⟨tm.tm_year + 1900 + tm.tm_mon / 12, tm.tm_mon % 12 + 1, 1⟩
  (month + tm.tm_mday - 1) * 86400 + tm.tm_hour * 3600 + tm.tm_min * 60 + tm.tm_sec

theorem timegm_gmtime (seconds : ℤ) : timegm (gmtime seconds) = seconds := by
  obtain ⟨hm0, hm1⟩ := civil_month (seconds / 86400)
  have hdate := dayNumber_civil (seconds / 86400)
  unfold timegm gmtime
  dsimp only
  generalize civil (seconds / 86400) = date at hm0 hm1 hdate
  have hcarry : (date.month - 1) / 12 = 0 := by omega
  have hmonth : (date.month - 1) % 12 + 1 = date.month := by omega
  rw [hcarry, hmonth, Int.sub_add_cancel, Int.add_zero]
  unfold dayNumber at hdate ⊢
  dsimp only at hdate ⊢
  omega

/-- A time from the epoch to the end of the year 9999 has fields of the usual
sizes. -/
theorem gmtime_ranges {seconds : ℤ} (h0 : 0 ≤ seconds) (h1 : seconds ≤ 253402300799) :
    (0 ≤ (gmtime seconds).tm_year + 1900 ∧ (gmtime seconds).tm_year + 1900 < 10000) ∧
      (0 ≤ (gmtime seconds).tm_mon + 1 ∧ (gmtime seconds).tm_mon + 1 < 100) ∧
      (0 ≤ (gmtime seconds).tm_mday ∧ (gmtime seconds).tm_mday < 100) ∧
      (0 ≤ (gmtime seconds).tm_hour ∧ (gmtime seconds).tm_hour < 100) ∧
      (0 ≤ (gmtime seconds).tm_min ∧ (gmtime seconds).tm_min < 100) ∧
      0 ≤ (gmtime seconds).tm_sec ∧ (gmtime seconds).tm_sec < 100 := by
  have hepoch : dayNumber ⟨1970, 1, 1⟩ = 0 := by decide
  have hend : dayNumber ⟨10000, 1, 1⟩ = 2932897 := by decide
  have hyear : 1970 ≤ (civil (seconds / 86400)).year := civil_year_ge (by rw [hepoch]; omega)
  have hyear' : (civil (seconds / 86400)).year < 10000 := civil_year_lt (by rw [hend]; omega)
  obtain ⟨hm0, hm1⟩ := civil_month (seconds / 86400)
  obtain ⟨hd0, hd1⟩ := civil_day (seconds / 86400)
  unfold gmtime
  dsimp only
  omega

end TinyMuduo
