import Mathlib.Algebra.Order.Group.Unbundled.Int
import Mathlib.Tactic.IntervalCases

/-!
The Gregorian calendar. Days are counted from the first of January 1970. A year
begins in March here, so that the leap day is its last one; 400 years have
146097 days, a century has 36524, four years have 1461. The last day of a cycle
is the one that would begin one century, or one year, too many.
-/
namespace TinyMuduo.Calendar

structure Date where
  year : ℤ
  /-- from 1 to 12 -/
  month : ℤ
  day : ℤ
  deriving DecidableEq, Repr

/-- Years since the cycle began and days since the year began. -/
def yearOfCycle (day : ℤ) : ℤ × ℤ :=
  let century := min (day / 36524) 3
  let day := day - century * 36524
  let four := day / 1461
  let day := day - four * 1461
  let year := min (day / 365) 3
  (century * 100 + four * 4 + year, day - year * 365)

/-- A date by the year that begins in March, whose months count from 0. -/
def ofMarch (year month day : ℤ) : Date where
  year := if month < 10 then year else year + 1
  month := if month < 10 then month + 3 else month - 9
  day := day

def civil (days : ℤ) : Date :=
  let z := days + 719468
  let (year, day) := yearOfCycle (z % 146097)
  let month := (5 * day + 2) / 153
  ofMarch (z / 146097 * 400 + year) month (day - (153 * month + 2) / 5 + 1)

def dayNumber (d : Date) : ℤ :=
  let year := if d.month ≤ 2 then d.year - 1 else d.year
  let month := if d.month ≤ 2 then d.month + 9 else d.month - 3
  let day := (153 * month + 2) / 5 + d.day - 1
  year * 365 + year / 4 - year / 100 + year / 400 + day - 719468

/-- The days before a year that begins in March. -/
def start (year : ℤ) : ℤ := year * 365 + year / 4 - year / 100 + year / 400

theorem start_cycle (cycle year : ℤ) :
    start (cycle * 400 + year) = cycle * 146097 + start year := by
  unfold start
  omega

theorem start_mono {year year' : ℤ} (h : year ≤ year') : start year ≤ start year' := by
  unfold start
  omega

/-- In January and February the year has not begun. -/
theorem dayNumber_early {year month day : ℤ} (h : month ≤ 2) : dayNumber ⟨year, month, day⟩ =
    start (year - 1) + ((153 * (month + 9) + 2) / 5 + day - 1) - 719468 := by
  unfold dayNumber start
  dsimp only
  rw [if_pos h, if_pos h]

theorem dayNumber_late {year month day : ℤ} (h : 2 < month) : dayNumber ⟨year, month, day⟩ =
    start year + ((153 * (month - 3) + 2) / 5 + day - 1) - 719468 := by
  unfold dayNumber start
  dsimp only
  rw [if_neg (by omega), if_neg (by omega)]

/-- The months of a year that begins in March. -/
theorem month_spec {day : ℤ} (h0 : 0 ≤ day) (h1 : day ≤ 365) :
    0 ≤ (5 * day + 2) / 153 ∧ (5 * day + 2) / 153 ≤ 11 ∧
      0 ≤ day - (153 * ((5 * day + 2) / 153) + 2) / 5 ∧
      day - (153 * ((5 * day + 2) / 153) + 2) / 5 ≤ 30 := by
  omega

/-- The day that begins a century too many is the last one of the fourth, and so
it is with the years. -/
theorem yearOfCycle_parts {day : ℤ} (h0 : 0 ≤ day) (h1 : day < 146097) :
    ∃ century four year rest, yearOfCycle day = (century * 100 + four * 4 + year, rest) ∧
      (0 ≤ century ∧ century ≤ 3) ∧ (0 ≤ four ∧ four ≤ 24) ∧ (0 ≤ year ∧ year ≤ 3) ∧
      century * 36524 + four * 1461 + year * 365 + rest = day ∧ 0 ≤ rest ∧
      (rest < 365 ∨ rest = 365 ∧ year = 3 ∧ (four = 24 → century = 3)) := by
  unfold yearOfCycle
  dsimp only
  generalize hcentury : min (day / 36524) 3 = century
  have hcentury' : 0 ≤ century ∧ century ≤ 3 ∧ century * 36524 ≤ day ∧
      day ≤ century * 36524 + 36524 ∧ (century ≠ 3 → day < century * 36524 + 36524) := by omega
  generalize hfour : (day - century * 36524) / 1461 = four
  generalize hrest : day - century * 36524 - four * 1461 = rest
  have hfour' : 0 ≤ four ∧ four ≤ 24 ∧ 0 ≤ rest ∧ rest ≤ 1460 := by omega
  generalize hyear : min (rest / 365) 3 = year
  refine ⟨century, four, year, rest - year * 365, rfl, ?_⟩
  omega

theorem yearOfCycle_spec {day : ℤ} (h0 : 0 ≤ day) (h1 : day < 146097) :
    0 ≤ (yearOfCycle day).2 ∧ (yearOfCycle day).2 ≤ 365 ∧
      start (yearOfCycle day).1 + (yearOfCycle day).2 = day := by
  obtain ⟨century, four, year, rest, heq, hcentury, hfour, hyear, hsum, hrest0, hrest1⟩ :=
    yearOfCycle_parts h0 h1
  have hquarters : (century * 100 + four * 4 + year) / 4 = century * 25 + four := by omega
  have hcenturies : (century * 100 + four * 4 + year) / 100 = century := by omega
  have hcycles : (century * 100 + four * 4 + year) / 400 = 0 := by omega
  rw [heq, start]
  dsimp only
  rw [hquarters, hcenturies, hcycles]
  omega

theorem civil_month (days : ℤ) : 1 ≤ (civil days).month ∧ (civil days).month ≤ 12 := by
  unfold civil ofMarch
  dsimp only
  generalize days + 719468 = z
  have hcycle := @yearOfCycle_spec (z % 146097) (by omega) (by omega)
  have hmonth := month_spec hcycle.1 hcycle.2.1
  split <;> omega

theorem civil_day (days : ℤ) : 1 ≤ (civil days).day ∧ (civil days).day ≤ 31 := by
  unfold civil ofMarch
  dsimp only
  generalize days + 719468 = z
  have hcycle := @yearOfCycle_spec (z % 146097) (by omega) (by omega)
  have hmonth := month_spec hcycle.1 hcycle.2.1
  omega

theorem dayNumber_ofMarch {year month day : ℤ} (h0 : 0 ≤ month) (h1 : month ≤ 11) :
    dayNumber (ofMarch year month day) =
      start year + ((153 * month + 2) / 5 + day - 1) - 719468 := by
  unfold ofMarch
  by_cases hmonth : month < 10
  · rw [if_pos hmonth, if_pos hmonth, dayNumber_late (by omega), Int.add_sub_cancel]
  · rw [if_neg hmonth, if_neg hmonth, dayNumber_early (by omega), Int.add_sub_cancel,
      Int.sub_add_cancel]

/-- The date denotes the day. -/
theorem dayNumber_civil (days : ℤ) : dayNumber (civil days) = days := by
  unfold civil
  dsimp only
  generalize hz : days + 719468 = z
  obtain ⟨hday0, hday1, hsum⟩ := @yearOfCycle_spec (z % 146097) (by omega) (by omega)
  obtain ⟨hm0, hm1, -, -⟩ := month_spec hday0 hday1
  rw [dayNumber_ofMarch hm0 hm1, start_cycle]
  omega

/-- A date is not after the year that its day precedes. -/
theorem civil_year_lt {days year : ℤ} (h : days < dayNumber ⟨year, 1, 1⟩) :
    (civil days).year < year := by
  obtain ⟨hm0, hm1⟩ := civil_month days
  obtain ⟨hd0, -⟩ := civil_day days
  have hdays := dayNumber_civil days
  unfold dayNumber at h hdays
  dsimp only at h hdays
  split at hdays
  · rw [if_pos (by omega), if_pos (by omega)] at h
    omega
  · rw [if_pos (by omega), if_pos (by omega)] at h
    omega

/-- A date is not before the year whose first day its day reaches. -/
theorem civil_year_ge {days year : ℤ} (h : dayNumber ⟨year, 1, 1⟩ ≤ days) :
    year ≤ (civil days).year := by
  obtain ⟨hm0, hm1⟩ := civil_month days
  obtain ⟨-, hd1⟩ := civil_day days
  have hdays := dayNumber_civil days
  unfold dayNumber at h hdays
  dsimp only at h hdays
  split at hdays
  · rw [if_pos (by omega), if_pos (by omega)] at h
    omega
  · rw [if_pos (by omega), if_pos (by omega)] at h
    omega

/-! The dates themselves, by the lengths of the months. -/

def isLeapYear (year : ℤ) : Prop := year % 400 = 0 ∨ year % 100 ≠ 0 ∧ year % 4 = 0

instance (year : ℤ) : Decidable (isLeapYear year) :=
  inferInstanceAs (Decidable (year % 400 = 0 ∨ year % 100 ≠ 0 ∧ year % 4 = 0))

def daysOfMonth (year month : ℤ) : ℤ :=
  if month = 2 then if isLeapYear year then 29 else 28
  else if month = 4 ∨ month = 6 ∨ month = 9 ∨ month = 11 then 30
  else 31

namespace Date

def Valid (d : Date) : Prop :=
  (1 ≤ d.month ∧ d.month ≤ 12) ∧ 1 ≤ d.day ∧ d.day ≤ daysOfMonth d.year d.month

instance (d : Date) : Decidable d.Valid :=
  inferInstanceAs (Decidable
    ((1 ≤ d.month ∧ d.month ≤ 12) ∧ 1 ≤ d.day ∧ d.day ≤ daysOfMonth d.year d.month))

def next (d : Date) : Date :=
  if d.day < daysOfMonth d.year d.month then ⟨d.year, d.month, d.day + 1⟩
  else if d.month < 12 then ⟨d.year, d.month + 1, 1⟩
  else ⟨d.year + 1, 1, 1⟩

end Date

def daysBefore (year : ℤ) : ℕ → ℤ
  | 0 => 0
  | month + 1 => daysBefore year month + daysOfMonth year (month + 1)

def Date.dayOfYear (d : Date) : ℤ := daysBefore d.year (d.month - 1).toNat + d.day - 1

theorem start_succ (year : ℤ) :
    start (year + 1) = start year + if isLeapYear (year + 1) then 366 else 365 := by
  by_cases hleap : isLeapYear (year + 1)
  · rw [if_pos hleap]
    unfold isLeapYear at hleap
    unfold start
    omega
  · rw [if_neg hleap]
    unfold isLeapYear at hleap
    unfold start
    omega

def marchDate (year day : ℤ) : Date :=
  ofMarch year ((5 * day + 2) / 153) (day - (153 * ((5 * day + 2) / 153) + 2) / 5 + 1)

theorem marchDate_valid {year day : ℤ} (h0 : 0 ≤ day)
    (h1 : start year + day < start (year + 1)) : (marchDate year day).Valid := by
  rw [start_succ] at h1
  have hday : day ≤ 365 := by split at h1 <;> omega
  have hmonth := month_spec h0 hday
  unfold marchDate ofMarch Date.Valid daysOfMonth
  dsimp only
  generalize hm : (5 * day + 2) / 153 = m at hmonth ⊢
  by_cases hspring : m < 10
  · rw [if_pos hspring, if_pos hspring, if_neg (by omega)]
    split <;> omega
  · rw [if_neg hspring, if_neg hspring]
    split
    · split
      · omega
      · rename_i hleap
        rw [if_neg hleap] at h1
        omega
    · split <;> omega

/-- The month of a year that begins in March is determined by the day. -/
theorem month_of_day {month day : ℤ} (h0 : 0 ≤ month) (h1 : month ≤ 11) (hday : 1 ≤ day)
    (hlast : day ≤ 31) (hshort : month = 1 ∨ month = 3 ∨ month = 6 ∨ month = 8 → day ≤ 30)
    (hleap : month = 11 → day ≤ 29) :
    (5 * ((153 * month + 2) / 5 + day - 1) + 2) / 153 = month := by
  interval_cases month <;> omega

/-- Where a date is in the year that begins in March. -/
theorem Date.Valid.march {d : Date} (h : d.Valid) : ∃ year day, 0 ≤ day ∧
    start year + day < start (year + 1) ∧ d = marchDate year day := by
  obtain ⟨year, month, day⟩ := d
  obtain ⟨⟨hm0, hm1⟩, hd0, hd1⟩ := h
  dsimp only at hm0 hm1 hd0 hd1
  unfold daysOfMonth at hd1
  by_cases hspring : month ≤ 2
  · have hlast : day ≤ 31 ∧ (month = 2 → day ≤ 29) := by
      split at hd1
      · split at hd1 <;> omega
      · split at hd1 <;> omega
    have hm : (5 * ((153 * (month + 9) + 2) / 5 + day - 1) + 2) / 153 = month + 9 :=
      month_of_day (by omega) (by omega) hd0 hlast.1 (by omega) (by omega)
    refine ⟨year - 1, (153 * (month + 9) + 2) / 5 + day - 1, by omega, ?_, ?_⟩
    · rw [start_succ, Int.sub_add_cancel]
      split at hd1
      · split at hd1
        · rename_i hleap
          rw [if_pos hleap]
          omega
        · rename_i hleap
          rw [if_neg hleap]
          omega
      · split <;> omega
    · rw [marchDate, hm, ofMarch, if_neg (by omega), if_neg (by omega), Int.sub_add_cancel]
      congr 1 <;> omega
  · rw [if_neg (by omega)] at hd1
    have hm : (5 * ((153 * (month - 3) + 2) / 5 + day - 1) + 2) / 153 = month - 3 := by
      refine month_of_day (by omega) (by omega) hd0 ?_ ?_ (by omega)
      · split at hd1 <;> omega
      · intro hshort
        rw [if_pos (by omega)] at hd1
        exact hd1
    have hlast : day ≤ 31 := by split at hd1 <;> omega
    refine ⟨year, (153 * (month - 3) + 2) / 5 + day - 1, by omega, ?_, ?_⟩
    · rw [start_succ]
      split <;> omega
    · rw [marchDate, hm, ofMarch, if_pos (by omega), if_pos (by omega), Int.sub_add_cancel]
      congr 1
      omega

theorem dayNumber_march {year day : ℤ} (h0 : 0 ≤ day) (h1 : start year + day < start (year + 1)) :
    dayNumber (marchDate year day) = start year + day - 719468 := by
  rw [start_succ] at h1
  have hday : day ≤ 365 := by split at h1 <;> omega
  obtain ⟨hm0, hm1, -, -⟩ := month_spec h0 hday
  rw [marchDate, dayNumber_ofMarch hm0 hm1]
  omega

/-- No two dates have the same day. -/
theorem dayNumber_injective {d d' : Date} (h : d.Valid) (h' : d'.Valid)
    (hdays : dayNumber d = dayNumber d') : d = d' := by
  obtain ⟨year, day, h0, h1, rfl⟩ := h.march
  obtain ⟨year', day', h0', h1', rfl⟩ := h'.march
  rw [dayNumber_march h0 h1, dayNumber_march h0' h1'] at hdays
  have hyear : year = year' := by
    rcases lt_trichotomy year year' with hlt | heq | hgt
    · have := start_mono (show year + 1 ≤ year' by omega)
      omega
    · exact heq
    · have := start_mono (show year' + 1 ≤ year by omega)
      omega
  subst hyear
  have hday : day = day' := by omega
  rw [hday]

theorem daysOfMonth_range (year month : ℤ) :
    28 ≤ daysOfMonth year month ∧ daysOfMonth year month ≤ 31 := by
  unfold daysOfMonth
  split
  · split <;> omega
  · split <;> omega

theorem first_valid (year : ℤ) : (⟨year, 1, 1⟩ : Date).Valid := by
  obtain ⟨hlow, -⟩ := daysOfMonth_range year 1
  exact ⟨⟨by dsimp only; omega, by dsimp only; omega⟩, Int.le_refl _, by dsimp only; omega⟩

theorem Date.Valid.next {d : Date} (h : d.Valid) : d.next.Valid := by
  obtain ⟨⟨hm0, hm1⟩, hd0, hd1⟩ := h
  unfold Date.next
  split
  · rename_i hday
    exact ⟨⟨hm0, hm1⟩, by dsimp only; omega, hday⟩
  · split
    · rename_i hmonth
      obtain ⟨hlow, -⟩ := daysOfMonth_range d.year (d.month + 1)
      exact ⟨⟨by dsimp only; omega, hmonth⟩, Int.le_refl _, by dsimp only; omega⟩
    · exact first_valid _

/-- A month begins after the days of the one before it. -/
theorem dayNumber_month {year month : ℤ} (h0 : 1 ≤ month) (h1 : month ≤ 11) :
    dayNumber ⟨year, month + 1, 1⟩ = dayNumber ⟨year, month, 1⟩ + daysOfMonth year month := by
  rcases lt_trichotomy month 2 with hlt | rfl | hgt
  · obtain rfl : month = 1 := by omega
    have hlength : daysOfMonth year 1 = 31 := rfl
    rw [dayNumber_early (by omega), dayNumber_early (by omega), hlength]
    omega
  · -- the leap day is the last of the year that began in March
    have hlength : daysOfMonth year 2 = if isLeapYear year then 29 else 28 := rfl
    have hyear := start_succ (year - 1)
    rw [Int.sub_add_cancel] at hyear
    rw [dayNumber_late (by omega), dayNumber_early (by omega), hlength, hyear]
    split <;> omega
  · rw [dayNumber_late (by omega), dayNumber_late hgt]
    unfold daysOfMonth
    rw [if_neg (by omega)]
    by_cases hshort : month = 4 ∨ month = 6 ∨ month = 9 ∨ month = 11
    · rw [if_pos hshort]
      omega
    · rw [if_neg hshort]
      interval_cases month <;> omega

theorem dayNumber_newYear (year : ℤ) :
    dayNumber ⟨year + 1, 1, 1⟩ = dayNumber ⟨year, 12, 1⟩ + daysOfMonth year 12 := by
  have hlength : daysOfMonth year 12 = 31 := rfl
  rw [dayNumber_early (by omega), dayNumber_late (by omega), Int.add_sub_cancel, hlength]
  omega

/-- The days of a month follow its first one. -/
theorem dayNumber_first (d : Date) :
    dayNumber d = dayNumber ⟨d.year, d.month, 1⟩ + (d.day - 1) := by
  unfold dayNumber
  dsimp only
  omega

theorem dayNumber_next {d : Date} (h : d.Valid) : dayNumber d.next = dayNumber d + 1 := by
  obtain ⟨⟨hm0, hm1⟩, -, hd1⟩ := h
  have hfirst := dayNumber_first d
  unfold Date.next
  by_cases hday : d.day < daysOfMonth d.year d.month
  · rw [if_pos hday, dayNumber_first]
    dsimp only
    omega
  · rw [if_neg hday]
    by_cases hmonth : d.month < 12
    · rw [if_pos hmonth, dayNumber_month hm0 (by omega)]
      omega
    · have hlast : d.month = 12 := by omega
      rw [hlast] at hday hd1 hfirst
      rw [if_neg hmonth, dayNumber_newYear]
      omega

theorem daysBefore_eq (year : ℤ) {month : ℕ} (h : month ≤ 11) :
    daysBefore year month = dayNumber ⟨year, month + 1, 1⟩ - dayNumber ⟨year, 1, 1⟩ := by
  induction month with
  | zero =>
    change 0 = dayNumber ⟨year, 1, 1⟩ - dayNumber ⟨year, 1, 1⟩
    omega
  | succ month ih =>
    have hmonth := @dayNumber_month year (month + 1) (by omega) (by omega)
    rw [daysBefore, ih (by omega), Nat.cast_succ, hmonth]
    omega

/-- The day of the year is the number of days since its first one. -/
theorem dayNumber_sub {d : Date} (h : d.Valid) :
    dayNumber d - dayNumber ⟨d.year, 1, 1⟩ = d.dayOfYear := by
  obtain ⟨⟨hm0, hm1⟩, -, -⟩ := h
  have hmonth : ((d.month - 1).toNat : ℤ) + 1 = d.month := by omega
  rw [Date.dayOfYear, daysBefore_eq _ (by omega), hmonth, dayNumber_first d]
  omega

/-- The days of a cycle stay within their year. -/
theorem yearOfCycle_lt {day : ℤ} (h0 : 0 ≤ day) (h1 : day < 146097) :
    start (yearOfCycle day).1 + (yearOfCycle day).2 < start ((yearOfCycle day).1 + 1) := by
  obtain ⟨century, four, year, rest, heq, hcentury, hfour, hyear, -, -, hrest⟩ :=
    yearOfCycle_parts h0 h1
  rw [heq]
  dsimp only
  rw [start_succ]
  rcases hrest with hlt | ⟨rfl, rfl, hlast⟩
  · split <;> omega
  · -- only the last day of the fourth year makes a year of 366 days
    have hleap : isLeapYear (century * 100 + four * 4 + 3 + 1) := by
      unfold isLeapYear
      omega
    rw [if_pos hleap]
    omega

/-- Centuries of 36524 days and a quarter. -/
theorem century_quarters {days century rest : ℤ} (hcentury : century = (4 * days + 3) / 146097)
    (hrest : rest = days - century * 146097 / 4) :
    century * 36524 + century / 4 + rest = days ∧ 0 ≤ rest ∧ rest ≤ 36524 ∧
      (rest = 36524 → century % 4 = 3) := by
  have hquarters : century * 146097 / 4 = century * 36524 + century / 4 := by omega
  have hbounds : 146097 * century ≤ 4 * days + 3 ∧ 4 * days + 3 < 146097 * century + 146097 := by
    omega
  clear hcentury
  rw [hquarters] at hrest
  have hparts := Int.mul_ediv_add_emod century 4
  have hrange : 0 ≤ century % 4 ∧ century % 4 ≤ 3 := by omega
  generalize century / 4 = quarter at hrest hparts ⊢
  generalize century % 4 = part at hrange hparts ⊢
  subst hrest hparts
  omega

/-- Years of 365 days and a quarter. -/
theorem year_quarters {rest year day : ℤ} (h0 : 0 ≤ rest) (h1 : rest ≤ 36524)
    (hyear : year = (4 * rest + 3) / 1461) (hday : day = rest - 1461 * year / 4) :
    year * 365 + year / 4 + day = rest ∧ (0 ≤ year ∧ year ≤ 99) ∧ 0 ≤ day ∧ day ≤ 365 ∧
      (day = 365 → year % 4 = 3) := by
  have hquarters : 1461 * year / 4 = year * 365 + year / 4 := by omega
  have hbounds : 1461 * year ≤ 4 * rest + 3 ∧ 4 * rest + 3 < 1461 * year + 1461 := by omega
  clear hyear
  rw [hquarters] at hday
  have hparts := Int.mul_ediv_add_emod year 4
  have hrange : 0 ≤ year % 4 ∧ year % 4 ≤ 3 := by omega
  generalize year / 4 = quarter at hday hparts ⊢
  generalize year % 4 = part at hrange hparts ⊢
  subst hday hparts
  omega

/-- The year of a day and the day of that year, by quarters. -/
theorem start_quarters {days century year day : ℤ} (hcentury : century = (4 * days + 3) / 146097)
    (hyear : year = (4 * (days - century * 146097 / 4) + 3) / 1461)
    (hday : day = days - century * 146097 / 4 - 1461 * year / 4) :
    0 ≤ day ∧ start (century * 100 + year) + day = days ∧
      days < start (century * 100 + year + 1) := by
  obtain ⟨hdays, hrest0, hrest1, hlast⟩ := century_quarters hcentury rfl
  obtain ⟨hrest, hyear', hday0, hday1, hfourth⟩ := year_quarters hrest0 hrest1 hyear hday
  generalize days - century * 146097 / 4 = rest at hdays hrest0 hrest1 hlast hrest
  clear hcentury hyear hday
  have hsum : start (century * 100 + year) + day = days := by
    have hquarters : (century * 100 + year) / 4 = century * 25 + year / 4 := by omega
    have hcenturies : (century * 100 + year) / 100 = century := by omega
    have hcycles : (century * 100 + year) / 400 = century / 4 := by omega
    rw [start, hquarters, hcenturies, hcycles]
    omega
  refine ⟨hday0, hsum, ?_⟩
  rw [start_succ, ← hsum]
  by_cases hlong : day = 365
  · have hyear4 := hfourth hlong
    have hcentury4 : year = 99 → century % 4 = 3 := by
      intro hyear99
      apply hlast
      omega
    have hleap : isLeapYear (century * 100 + year + 1) := by
      clear hsum hdays hrest hlast hfourth
      unfold isLeapYear
      omega
    rw [if_pos hleap]
    omega
  · split <;> omega

theorem civil_valid (days : ℤ) : (civil days).Valid := by
  unfold civil
  dsimp only
  generalize days + 719468 = z
  have h0 : 0 ≤ z % 146097 := by omega
  have h1 : z % 146097 < 146097 := by omega
  obtain ⟨hday, -, -⟩ := yearOfCycle_spec h0 h1
  have hyear := yearOfCycle_lt h0 h1
  apply marchDate_valid hday
  rw [Int.add_assoc, start_cycle, start_cycle]
  omega

/-- The date of a day is the only one that denotes it. -/
theorem civil_dayNumber {d : Date} (h : d.Valid) : civil (dayNumber d) = d :=
  dayNumber_injective (civil_valid _) h (dayNumber_civil _)

theorem dayOfYear_range {d : Date} (h : d.Valid) : 0 ≤ d.dayOfYear ∧ d.dayOfYear ≤ 366 := by
  obtain ⟨-, hlast⟩ := daysOfMonth_range d.year d.month
  rw [← dayNumber_sub h]
  obtain ⟨⟨hm0, hm1⟩, hd0, hd1⟩ := h
  unfold dayNumber
  dsimp only
  split <;> omega

/-- Dates in the order in which they are written, the year first. -/
def Date.Before (d d' : Date) : Prop :=
  d.year < d'.year ∨ d.year = d'.year ∧ (d.month < d'.month ∨
    d.month = d'.month ∧ d.day < d'.day)

theorem daysBefore_mono (year : ℤ) {month month' : ℕ} (h : month ≤ month') :
    daysBefore year month ≤ daysBefore year month' := by
  induction month', h using Nat.le_induction with
  | base => exact Int.le_refl _
  | succ month' _ ih =>
    have hlength := (daysOfMonth_range year (month' + 1)).1
    rw [daysBefore]
    omega

/-- A later day has a later date. -/
theorem civil_before {days days' : ℤ} (h : days < days') : (civil days).Before (civil days') := by
  have hvalid := civil_valid days
  have hvalid' := civil_valid days'
  have hsub := dayNumber_sub hvalid
  have hsub' := dayNumber_sub hvalid'
  rw [dayNumber_civil] at hsub hsub'
  have hyear : (civil days).year ≤ (civil days').year := by
    apply civil_year_ge
    have hfirst := (dayOfYear_range hvalid).1
    omega
  rcases Int.lt_or_eq_of_le hyear with hless | hsame
  · exact Or.inl hless
  · refine Or.inr ⟨hsame, ?_⟩
    obtain ⟨⟨hm0, hm1⟩, hd0, hd1⟩ := hvalid
    obtain ⟨⟨hm0', hm1'⟩, hd0', hd1'⟩ := hvalid'
    rw [← hsame] at hsub' hd1'
    unfold Date.dayOfYear at hsub hsub'
    rw [← hsame] at hsub'
    rcases Int.lt_trichotomy (civil days).month (civil days').month with hless | heq | hmore
    · exact Or.inl hless
    · refine Or.inr ⟨heq, ?_⟩
      rw [heq] at hsub
      omega
    · -- The month of the later day would be over before the other one begins.
      have hover : daysBefore (civil days).year ((civil days').month - 1).toNat +
          daysOfMonth (civil days).year (civil days').month =
            daysBefore (civil days).year (civil days').month.toNat := by
        obtain ⟨n, hn⟩ : ∃ n : ℕ, (civil days').month = n + 1 :=
          ⟨((civil days').month - 1).toNat, by omega⟩
        have hpred : ((civil days').month - 1).toNat = n := by omega
        have hself : (civil days').month.toNat = n + 1 := by omega
        rw [hpred, hself, daysBefore, hn]
      have hmono : daysBefore (civil days).year (civil days').month.toNat ≤
          daysBefore (civil days).year ((civil days).month - 1).toNat :=
        daysBefore_mono _ (by omega)
      omega

end TinyMuduo.Calendar
