import TinyMuduo.Date
import TinyMuduo.DecimalText

/-!
The texts of times and dates. They go through buffers on the stack, which are large
enough. Texts of times are in the order of the times up to the year 9999, as those of
dates are; a Timestamp as a number of seconds can be read back whatever its sign.
-/
namespace TinyMuduo

open Calendar Checked LogStream Logging Lexicographic MachineInt

def Timestamp.toString (microSecondsSinceEpoch_ : ℤ) : List UInt8 :=
  let seconds := microSecondsSinceEpoch_.tdiv 1000000
  let microseconds := microSecondsSinceEpoch_.tmod 1000000
  cStr (snprintf 31 (decimal seconds ++ ascii "." ++ zeroPadded 6 microseconds))

/-- `Timestamp::toFormattedString`; up to the seconds the format is that of a log line. -/
def Timestamp.toFormattedString (microSecondsSinceEpoch_ : ℤ) : List UInt8 :=
  let seconds := microSecondsSinceEpoch_.tdiv 1000000
  let microseconds := microSecondsSinceEpoch_.tmod 1000000
  cStr (snprintf 64 (ThreadLocal.timeText seconds ++ ascii "." ++ zeroPadded 6 microseconds))

def Date.toIsoString (date : Date) : Except Fault (List UInt8) := do
  let ymd ← date.yearMonthDay
  return cStr (snprintf 32 (blankPadded 4 ymd.year ++ ascii "-" ++ zeroPadded 2 ymd.month ++
    ascii "-" ++ zeroPadded 2 ymd.day))

namespace TimestampText

section Fields

def number (w : ℕ) (hw : 0 < w) (c : UInt8) (hc : c ≤ 48) (after : List UInt8) :
    TextField UInt8 where
  text v := (decimal v).leftpad w c ++ after
  bound := 10 ^ w
  width := w + after.length
  length_text v hv := by rw [List.length_append, length_leftpad_decimal hw hv]
  text_lt a b hab hb := by
    apply append_lt_append (leftpad_decimal_lt hc hab hb)
    rw [length_leftpad_decimal hw (by omega), length_leftpad_decimal hw hb]

theorem zeroPadded_eq {w : ℕ} {v : ℤ} (h0 : 0 ≤ v) :
    zeroPadded w v = (decimal (v.toNat : ℤ)).leftpad w 48 := by
  rw [zeroPadded, if_neg (Int.not_lt.mpr h0), Int.toNat_of_nonneg h0]

theorem blankPadded_eq {w : ℕ} {v : ℤ} (h0 : 0 ≤ v) :
    blankPadded w v = (decimal (v.toNat : ℤ)).leftpad w 32 := by
  rw [blankPadded, Int.toNat_of_nonneg h0]

def year (after : List UInt8) : TextField UInt8 := number 4 (by decide) 32 (by decide) after

def twoDigits (after : List UInt8) : TextField UInt8 := number 2 (by decide) 48 (by decide) after

def sixDigits : TextField UInt8 := number 6 (by decide) 48 (by decide) []

/-- "%4d%02d%02d %02d:%02d:%02d.%06d" -/
def formatted : List (TextField UInt8) :=
  [year [], twoDigits [], twoDigits (ascii " "), twoDigits (ascii ":"), twoDigits (ascii ":"),
    twoDigits (ascii "."), sixDigits]

/-- "%4d-%02d-%02d" -/
def iso : List (TextField UInt8) := [year (ascii "-"), twoDigits (ascii "-"), twoDigits []]

end Fields

section Formatted

def numbers (t : ℤ) : List ℕ :=
  let tm := gmtime (t / 1000000)
  [(tm.tm_year + 1900).toNat, (tm.tm_mon + 1).toNat, tm.tm_mday.toNat, tm.tm_hour.toNat,
    tm.tm_min.toNat, tm.tm_sec.toNat, (t % 1000000).toNat]

/-- From the epoch to the end of the year 9999. -/
def Dated (t : ℤ) : Prop := 0 ≤ t ∧ t ≤ 253402300799999999

variable {t t' : ℤ}

theorem numbers_fit (h : Dated t) : Fits formatted (numbers t) := by
  obtain ⟨h0, h1⟩ := h
  obtain ⟨hyear, hmon, hmday, hhour, hmin, hsec⟩ :=
    @gmtime_ranges (t / 1000000) (by omega) (by omega)
  refine ⟨show _ < 10 ^ 4 by omega, show _ < 10 ^ 2 by omega, show _ < 10 ^ 2 by omega,
    show _ < 10 ^ 2 by omega, show _ < 10 ^ 2 by omega, show _ < 10 ^ 2 by omega,
    show _ < 10 ^ 6 by omega, trivial⟩

theorem toFormattedString_eq (h : Dated t) :
    Timestamp.toFormattedString t = layout formatted (numbers t) := by
  obtain ⟨h0, h1⟩ := h
  obtain ⟨hyear, hmon, hmday, hhour, hmin, hsec⟩ :=
    @gmtime_ranges (t / 1000000) (by omega) (by omega)
  have htext : ThreadLocal.timeText (t / 1000000) ++ ascii "." ++ zeroPadded 6 (t % 1000000) =
      layout formatted (numbers t) := by
    unfold ThreadLocal.timeText
    dsimp only
    rw [blankPadded_eq hyear.1, zeroPadded_eq hmon.1, zeroPadded_eq hmday.1, zeroPadded_eq hhour.1,
      zeroPadded_eq hmin.1, zeroPadded_eq hsec.1, zeroPadded_eq (v := t % 1000000) (by omega)]
    simp only [layout, formatted, numbers, year, twoDigits, sixDigits, number, List.append_assoc,
      List.append_nil]
  have hlength : (layout formatted (numbers t)).length = 24 :=
    length_layout (numbers_fit ⟨h0, h1⟩)
  unfold Timestamp.toFormattedString
  dsimp only
  rw [Int.tdiv_eq_ediv_of_nonneg h0, Int.tmod_eq_emod_of_nonneg h0, cStr_snprintf, htext]
  · simp only [List.mem_append, not_or]
    refine ⟨⟨zero_notMem_timeText _, by decide⟩, zero_notMem_zeroPadded _ _⟩
  · rw [htext, hlength]
    decide

theorem cons_lt_cons {a b : ℕ} {x y : List ℕ} (hle : a ≤ b) (h : a = b → x < y) :
    a :: x < b :: y := by
  rcases Nat.lt_or_eq_of_le hle with hlt | heq
  · exact .rel hlt
  · rw [heq]
    exact .cons (h heq)

/-- Two dates, with the numbers that follow them. -/
theorem date_lt {d d' : Calendar.Date} {x y : List ℕ} (hyear : 0 ≤ d.year) (hmonth : 0 ≤ d.month)
    (hday : 0 ≤ d.day) (h : d.Before d' ∨ d = d' ∧ x < y) :
    d.year.toNat :: d.month.toNat :: d.day.toNat :: x <
      d'.year.toNat :: d'.month.toNat :: d'.day.toNat :: y := by
  rcases h with (hlt | ⟨heq, hlt | ⟨heq', hlt⟩⟩) | ⟨rfl, hlt⟩
  · exact .rel (by omega)
  · rw [heq]
    exact .cons (.rel (by omega))
  · rw [heq, heq']
    exact .cons (.cons (.rel (by omega)))
  · exact .cons (.cons (.cons hlt))

/-- A later time has larger numbers, the first different one deciding. -/
theorem numbers_lt (h : Dated t) (hlt : t < t') : numbers t < numbers t' := by
  obtain ⟨h0, h1⟩ := h
  obtain ⟨hyear, hmon, hmday, -⟩ :=
    @gmtime_ranges (t / 1000000) (by omega) (by omega)
  simp only [gmtime, Int.sub_add_cancel] at hyear hmon hmday
  simp only [numbers, gmtime, Int.sub_add_cancel]
  apply date_lt hyear.1 hmon.1 hmday.1
  generalize hs : t / 1000000 = s
  generalize hs' : t' / 1000000 = s'
  rcases Int.lt_or_eq_of_le (show s / 86400 ≤ s' / 86400 by omega) with hday | hday
  · exact Or.inl (civil_before hday)
  · refine Or.inr ⟨by rw [hday], ?_⟩
    -- In the same day each number decides if those before it are the same.
    apply cons_lt_cons (by omega)
    intro hhour
    apply cons_lt_cons (by omega)
    intro hmin
    apply cons_lt_cons (by omega)
    intro hsec
    exact .rel (by omega)

theorem toFormattedString_lt_iff (h : Dated t) (h' : Dated t') :
    Timestamp.toFormattedString t < Timestamp.toFormattedString t' ↔ t < t' := by
  apply lt_iff_lt_of_mono (P := Dated) _ h h'
  intro a b ha hb hab
  rw [toFormattedString_eq ha, toFormattedString_eq hb]
  exact layout_lt (numbers_fit ha) (numbers_fit hb) (numbers_lt ha hab)

end Formatted

section Iso

/-- From the first day of the year 0 to the last one of the year 9999. -/
def FourDigits (j : ℤ) : Prop := 1721060 ≤ j ∧ j ≤ 5373484

def dateNumbers (j : ℤ) : List ℕ :=
  let date := civil (j - 2440588)
  [date.year.toNat, date.month.toNat, date.day.toNat]

variable {j j' : ℤ}

theorem civil_ranges (h : FourDigits j) :
    0 ≤ (civil (j - 2440588)).year ∧ (civil (j - 2440588)).year < 10000 := by
  obtain ⟨h0, h1⟩ := h
  have hfirst : dayNumber ⟨0, 1, 1⟩ = -719528 := by decide
  have hend : dayNumber ⟨10000, 1, 1⟩ = 2932897 := by decide
  constructor
  · apply civil_year_ge
    omega
  · apply civil_year_lt
    omega

theorem dateNumbers_fit (h : FourDigits j) : Fits iso (dateNumbers j) := by
  obtain ⟨hyear0, hyear1⟩ := civil_ranges h
  obtain ⟨hm0, hm1⟩ := civil_month (j - 2440588)
  obtain ⟨hd0, hd1⟩ := civil_day (j - 2440588)
  exact ⟨show _ < 10 ^ 4 by omega, show _ < 10 ^ 2 by omega, show _ < 10 ^ 2 by omega, trivial⟩

theorem toIsoString_eq (h : FourDigits j) :
    Date.toIsoString ⟨j⟩ = .ok (layout iso (dateNumbers j)) := by
  obtain ⟨hyear0, -⟩ := civil_ranges h
  obtain ⟨hm0, -⟩ := civil_month (j - 2440588)
  obtain ⟨hd0, -⟩ := civil_day (j - 2440588)
  have hdate : Date.yearMonthDay ⟨j⟩ = .ok (civil (j - 2440588)) := by
    apply getYearMonthDay_eq
    · unfold FourDigits at h
      dsimp only
      omega
    · unfold FourDigits at h
      dsimp only
      omega
  have hlength : (layout iso (dateNumbers j)).length = 10 := length_layout (dateNumbers_fit h)
  have htext : blankPadded 4 (civil (j - 2440588)).year ++ ascii "-" ++
      zeroPadded 2 (civil (j - 2440588)).month ++ ascii "-" ++
        zeroPadded 2 (civil (j - 2440588)).day = layout iso (dateNumbers j) := by
    rw [blankPadded_eq hyear0, zeroPadded_eq (by omega), zeroPadded_eq (by omega)]
    simp only [layout, iso, dateNumbers, year, twoDigits, number, List.append_assoc,
      List.append_nil]
  unfold Date.toIsoString
  rw [hdate, ok_bind, pure_eq_ok, cStr_snprintf, htext]
  · simp only [List.mem_append, not_or]
    exact ⟨⟨⟨⟨zero_notMem_blankPadded _ _, by decide⟩, zero_notMem_zeroPadded _ _⟩, by decide⟩,
      zero_notMem_zeroPadded _ _⟩
  · rw [htext, hlength]
    decide

theorem toIsoString_lt_iff (h : FourDigits j) (h' : FourDigits j') :
    layout iso (dateNumbers j) < layout iso (dateNumbers j') ↔ j < j' := by
  apply lt_iff_lt_of_mono (f := fun j => layout iso (dateNumbers j)) (P := FourDigits) _ h h'
  intro a b ha hb hab
  apply layout_lt (dateNumbers_fit ha) (dateNumbers_fit hb)
  obtain ⟨hm0, -⟩ := civil_month (a - 2440588)
  obtain ⟨hd0, -⟩ := civil_day (a - 2440588)
  apply date_lt (civil_ranges ha).1 (by omega) (by omega)
  exact Or.inl (civil_before (by omega))

end Iso

section Signed

variable {v v' : ℤ}

theorem decimal_neg (h : v < 0) : decimal v = ascii "-" ++ decimal (-v) := by
  have hpos : ¬ -v < 0 := by omega
  rw [decimal, decimal, if_pos h, if_neg hpos, List.nil_append, Int.natAbs_neg]

/-- The characters of a number that is not negative are digits. -/
theorem isDigit_of_mem_decimal {c : UInt8} (h0 : 0 ≤ v) (hc : c ∈ decimal v) :
    isDigit c = true := by
  rw [← Int.toNat_of_nonneg h0] at hc
  exact decimal_digits hc

theorem isDigit_of_mem_leftpad {c : UInt8} {w : ℕ} (h0 : 0 ≤ v)
    (hc : c ∈ (decimal v).leftpad w 48) : isDigit c = true := by
  rcases List.mem_append.mp hc with hpad | hdigit
  · obtain rfl := List.eq_of_mem_replicate hpad
    rfl
  · exact isDigit_of_mem_decimal h0 hdigit

/-- A text that shows the sign and from which the amount can be read. -/
theorem signed_inj {text : ℤ → List UInt8} (below above : ℤ → List UInt8)
    (hbelow : ∀ v < 0, text v = ascii "-" ++ below (-v)) (habove : ∀ v, 0 ≤ v → text v = above v)
    (hdigits : ∀ v c, 0 ≤ v → c ∈ above v → isDigit c = true)
    (hinj : ∀ v v', 0 ≤ v → 0 ≤ v' → below v = below v' → v = v')
    (hinj' : ∀ v v', 0 ≤ v → 0 ≤ v' → above v = above v' → v = v') (h : text v = text v') :
    v = v' := by
  have hminus : ∀ a b, a < 0 → 0 ≤ b → text a ≠ text b := by
    intro a b ha hb heq
    have hmem : (45 : UInt8) ∈ above b := by
      rw [← habove b hb, ← heq, hbelow a ha]
      exact List.mem_cons_self
    have hsign := hdigits b 45 hb hmem
    cases hsign
  rcases Int.lt_or_le v 0 with hv | hv
  · rcases Int.lt_or_le v' 0 with hv' | hv'
    · rw [hbelow v hv, hbelow v' hv'] at h
      have hrest := hinj (-v) (-v') (by omega) (by omega) (List.append_cancel_left h)
      omega
    · exact absurd h (hminus v v' hv hv')
  · rcases Int.lt_or_le v' 0 with hv' | hv'
    · exact absurd h.symm (hminus v' v hv' hv)
    · rw [habove v hv, habove v' hv'] at h
      exact hinj' v v' hv hv' h

theorem decimal_injective (h : decimal v = decimal v') : v = v' := by
  apply signed_inj decimal decimal (fun _ => decimal_neg) (fun _ _ => rfl)
    (fun _ _ => isDigit_of_mem_decimal) (fun _ _ => decimal_inj) (fun _ _ => decimal_inj) h

theorem leftpad_decimal_inj {w : ℕ} (h0 : 0 ≤ v) (h0' : 0 ≤ v')
    (h : (decimal v).leftpad w 48 = (decimal v').leftpad w 48) : v = v' := by
  apply zeroPadded_inj (w := w) h0 h0'
  rw [zeroPadded, zeroPadded, if_neg (by omega), if_neg (by omega), h]

theorem zeroPadded_injective {w : ℕ} (h : zeroPadded w v = zeroPadded w v') : v = v' := by
  apply signed_inj (fun v => (decimal v).leftpad (w - 1) 48) (fun v => (decimal v).leftpad w 48)
    _ _ (fun _ _ => isDigit_of_mem_leftpad) (fun _ _ => leftpad_decimal_inj)
    (fun _ _ => leftpad_decimal_inj) h
  · intro v hv
    rw [zeroPadded, if_pos hv]
  · intro v hv
    rw [zeroPadded, if_neg (by omega)]

theorem dot_notMem_decimal (v : ℤ) : (46 : UInt8) ∉ decimal v := by
  intro hmem
  rcases Int.lt_or_le v 0 with hv | hv
  · rw [decimal_neg hv, List.mem_append] at hmem
    rcases hmem with hsign | hdigit
    · exact absurd hsign (by decide)
    · have hdot := isDigit_of_mem_decimal (by omega) hdigit
      cases hdot
  · have hdot := isDigit_of_mem_decimal hv hmem
    cases hdot

theorem dot_notMem_zeroPadded (w : ℕ) (v : ℤ) : (46 : UInt8) ∉ zeroPadded w v := by
  intro hmem
  unfold zeroPadded at hmem
  split at hmem
  · rcases List.mem_append.mp hmem with hsign | hdigit
    · exact absurd hsign (by decide)
    · have hdot := isDigit_of_mem_leftpad (by omega) hdigit
      cases hdot
  · have hdot := isDigit_of_mem_leftpad (by omega) hmem
    cases hdot

theorem length_decimal_le {w : ℕ} (hw : 0 < w) (h0 : -10 ^ w < v) (h1 : v < 10 ^ w) :
    (decimal v).length ≤ w + 1 := by
  rcases Int.lt_or_le v 0 with hv | hv
  · have hdigits := (length_decimal_le_iff hw (v := -v) (by omega)).mpr (by omega)
    rw [decimal_neg hv, List.length_append]
    change 1 + _ ≤ _
    omega
  · have hdigits := (length_decimal_le_iff hw hv).mpr h1
    omega

theorem length_zeroPadded_le {w : ℕ} (hw : 0 < w) (h0 : -10 ^ w < v) (h1 : v < 10 ^ w) :
    (zeroPadded w v).length ≤ w + 1 := by
  unfold zeroPadded
  split
  · have hdigits := (length_decimal_le_iff hw (v := -v) (by omega)).mpr (by omega)
    rw [List.length_append, List.length_leftpad]
    change 1 + _ ≤ _
    omega
  · have hdigits := (length_decimal_le_iff hw (v := v) (by omega)).mpr h1
    rw [List.length_leftpad]
    omega

theorem toString_eq {t : ℤ} (h : InInt64 t) : Timestamp.toString t =
    decimal (t.tdiv 1000000) ++ ascii "." ++ zeroPadded 6 (t.tmod 1000000) := by
  obtain ⟨h0, h1⟩ := h
  have hsplit := Int.mul_tdiv_add_tmod t 1000000
  have hupper := Int.tmod_lt_of_pos t (b := 1000000) (by decide)
  have hlower := Int.lt_tmod_of_pos t (b := 1000000) (by decide)
  have hseconds : (decimal (t.tdiv 1000000)).length ≤ 14 := by
    apply length_decimal_le (by decide) <;> omega
  have hmicro : (zeroPadded 6 (t.tmod 1000000)).length ≤ 7 := by
    apply length_zeroPadded_le (by decide) <;> omega
  have hdot : (ascii ".").length = 1 := rfl
  apply cStr_snprintf
  · simp only [List.mem_append, not_or]
    exact ⟨⟨zero_notMem_decimal _, by decide⟩, zero_notMem_zeroPadded _ _⟩
  · rw [List.length_append, List.length_append, hdot]
    omega

/-- The seconds and the microseconds stand before and behind the one dot. -/
theorem toString_inj {t t' : ℤ} (h : InInt64 t) (h' : InInt64 t')
    (heq : Timestamp.toString t = Timestamp.toString t') : t = t' := by
  rw [toString_eq h, toString_eq h', List.append_assoc, List.append_assoc] at heq
  obtain ⟨hseconds, -, hmicro⟩ := (List.append_cons_inj_of_notMem (dot_notMem_decimal _)
    (dot_notMem_zeroPadded _ _)).mp heq
  have hdiv := decimal_injective hseconds
  have hmod := zeroPadded_injective hmicro
  rw [← Int.mul_tdiv_add_tmod t 1000000, hdiv, hmod, Int.mul_tdiv_add_tmod]

end Signed

/-- No text is cut off by its buffer. Different values of a Timestamp have different
texts, negative ones as well; formatted, the texts of times from the epoch to the end
of the year 9999 sort as the times do, and so do the ISO texts of the dates of the
years 0 to 9999, none of which overflows. -/
theorem timestampText_law :
    (∀ t t', InInt64 t → InInt64 t' → (Timestamp.toString t = Timestamp.toString t' ↔ t = t')) ∧
      (∀ t t', Dated t → Dated t' →
        (Timestamp.toFormattedString t < Timestamp.toFormattedString t' ↔ t < t')) ∧
      ∀ j j', FourDigits j → FourDigits j' → ∃ text text', Date.toIsoString ⟨j⟩ = .ok text ∧
        Date.toIsoString ⟨j'⟩ = .ok text' ∧ (text < text' ↔ j < j') := by
  refine ⟨?_, ?_, ?_⟩
  · intro t t' h h'
    exact ⟨toString_inj h h', congrArg _⟩
  · intro t t' h h'
    exact toFormattedString_lt_iff h h'
  · intro j j' h h'
    exact ⟨_, _, toIsoString_eq h, toIsoString_eq h', toIsoString_lt_iff h h'⟩

/-- A microsecond before the epoch and the second it ends; the leap day of 2000. -/
theorem epoch_texts :
    (Timestamp.toString (-1) = Timestamp.toString 0 ↔ (-1 : ℤ) = 0) ∧
      Timestamp.toString (-1) = ascii "0.-00001" ∧
      (Timestamp.toFormattedString 0 < Timestamp.toFormattedString 951782400000000 ↔
        (0 : ℤ) < 951782400000000) ∧
      ∃ text text', Date.toIsoString ⟨2440588⟩ = .ok text ∧ Date.toIsoString ⟨2451604⟩ = .ok text' ∧
        (text < text' ↔ (2440588 : ℤ) < 2451604) := by
  obtain ⟨hseconds, hformatted, hiso⟩ := timestampText_law
  refine ⟨hseconds (-1) 0 ⟨by decide, by decide⟩ ⟨by decide, by decide⟩, by decide, ?_, ?_⟩
  · exact hformatted 0 951782400000000 ⟨by decide, by decide⟩ ⟨by decide, by decide⟩
  · exact hiso 2440588 2451604 ⟨by decide, by decide⟩ ⟨by decide, by decide⟩

end TimestampText

end TinyMuduo
