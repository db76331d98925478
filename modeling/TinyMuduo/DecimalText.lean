import TinyMuduo.Lib.Lexicographic
import TinyMuduo.Logging

/-!
Decimal texts can be read back: what `%d`, `%4d` and `%02d` print determines the
number, whatever it is padded with. Texts of one width are in the order of the
numbers.
-/
namespace TinyMuduo

open Numeral Logging LogStream Lexicographic

/-- A character as a digit; a blank counts as a zero. -/
def digitOf (c : UInt8) : ℕ := c.toNat - 48

def textValue (text : List UInt8) : ℕ := value 10 (text.map digitOf)

theorem digitOf_digitChar {d : ℕ} (hd : d < 10) : digitOf (digitChar d) = d := by
  interval_cases d <;> rfl

theorem textValue_decimal {v : ℤ} (h0 : 0 ≤ v) : textValue (decimal v) = v.toNat := by
  have hdigits : (numeral 10 v.natAbs).map (digitOf ∘ digitChar) = numeral 10 v.natAbs := by
    refine (List.map_congr_left ?_).trans (List.map_id _)
    intro d hd
    exact digitOf_digitChar (digit_lt (by decide) (List.mem_reverse.mp hd))
  rw [textValue, decimal, if_neg (Int.not_lt.mpr h0), List.nil_append, List.map_map, hdigits,
    value_numeral]
  omega

/-- Padding with zeros or blanks leaves the number alone. -/
theorem textValue_leftpad {c : UInt8} (hc : digitOf c = 0) (w : ℕ) (text : List UInt8) :
    textValue (text.leftpad w c) = textValue text := by
  rw [textValue, List.leftpad, List.map_append, List.map_replicate, hc]
  exact value_zeros 10 _ _

theorem textValue_zeroPadded {v : ℤ} (h0 : 0 ≤ v) (w : ℕ) :
    textValue (zeroPadded w v) = v.toNat := by
  rw [zeroPadded, if_neg (Int.not_lt.mpr h0), textValue_leftpad rfl, textValue_decimal h0]

theorem decimal_inj {v v' : ℤ} (h0 : 0 ≤ v) (h0' : 0 ≤ v') (h : decimal v = decimal v') :
    v = v' := by
  have hvalue := congrArg textValue h
  rw [textValue_decimal h0, textValue_decimal h0'] at hvalue
  omega

theorem zeroPadded_inj {v v' : ℤ} {w : ℕ} (h0 : 0 ≤ v) (h0' : 0 ≤ v')
    (h : zeroPadded w v = zeroPadded w v') : v = v' := by
  have hvalue := congrArg textValue h
  rw [textValue_zeroPadded h0, textValue_zeroPadded h0'] at hvalue
  omega

def isDigit (c : UInt8) : Bool := 48 ≤ c && c ≤ 57

theorem digitOf_lt {c : UInt8} (h : isDigit c = true) : digitOf c < 10 := by
  simp only [isDigit, Bool.and_eq_true, decide_eq_true_eq, UInt8.le_iff_toNat_le] at h
  have hupper : c.toNat ≤ 57 := h.2
  unfold digitOf
  omega

theorem digitChar_digitOf {c : UInt8} (h : isDigit c = true) : digitChar (digitOf c) = c := by
  have hlt := digitOf_lt h
  simp only [isDigit, Bool.and_eq_true, decide_eq_true_eq, UInt8.le_iff_toNat_le] at h
  have hlower : 48 ≤ c.toNat := h.1
  have hsum : 48 + digitOf c = c.toNat := by
    unfold digitOf
    omega
  rw [digitChar, if_pos hlt, hsum]
  simp

theorem isDigit_digitChar {d : ℕ} (hd : d < 10) : isDigit (digitChar d) = true := by
  interval_cases d <;> rfl

theorem decimal_digit {d : ℕ} (hd : d < 10) : decimal d = [digitChar d] := by
  interval_cases d <;> rfl

/-- One more digit. -/
theorem decimal_snoc {v d : ℕ} (hv : 0 < v) (hd : d < 10) :
    decimal (v * 10 + d : ℕ) = decimal v ++ [digitChar d] := by
  have hdiv : (v * 10 + d) / 10 = v := by omega
  have hmod : (v * 10 + d) % 10 = d := by omega
  have hlow : lowFirst 10 (v * 10 + d) = d :: lowFirst 10 v := by
    rw [lowFirst_eq (by decide), hdiv, hmod, if_neg (by omega)]
  unfold decimal numeral
  rw [if_neg (by omega), if_neg (by omega), Int.natAbs_natCast, Int.natAbs_natCast, hlow]
  simp

theorem decimal_digits {v : ℕ} {c : UInt8} (h : c ∈ decimal v) : isDigit c = true := by
  unfold decimal at h
  rw [if_neg (by omega), List.nil_append, List.mem_map] at h
  obtain ⟨d, hd, rfl⟩ := h
  exact isDigit_digitChar (digit_lt (by decide) (List.mem_reverse.mp hd))

def cStr (buf : List UInt8) : List UInt8 := buf.takeWhile fun c => !decide (c = 0)

theorem cStr_snprintf {size : ℕ} {text : List UInt8} (hzero : 0 ∉ text)
    (h : text.length < size) : cStr (snprintf size text) = text := by
  have hall : ∀ c ∈ text, (!decide (c = 0)) = true := by
    intro c hc
    have hne : c ≠ 0 := fun h0 => hzero (h0 ▸ hc)
    simpa using hne
  rw [snprintf_eq h, cStr, List.takeWhile_append_of_pos hall]
  simp

section Padding

variable {c : UInt8}

/-- One more digit behind the padding. -/
theorem leftpad_decimal_snoc {v : ℕ} (hv : 10 ≤ v) (w : ℕ) (c : UInt8) :
    (decimal v).leftpad (w + 1) c =
      (decimal (v / 10 : ℕ)).leftpad w c ++ [digitChar (v % 10)] := by
  have hsplit : v / 10 * 10 + v % 10 = v := by omega
  have hdigits : decimal v = decimal (v / 10 : ℕ) ++ [digitChar (v % 10)] := by
    rw [← decimal_snoc (by omega) (by omega), hsplit]
  rw [hdigits, List.leftpad, List.leftpad, List.append_assoc, List.length_append,
    List.length_singleton, Nat.add_sub_add_right]

theorem leftpad_decimal_digit {v : ℕ} (hv : v < 10) (w : ℕ) (c : UInt8) :
    (decimal v).leftpad (w + 1) c = List.replicate w c ++ [digitChar v] := by
  rw [decimal_digit hv, List.leftpad, List.length_singleton, Nat.add_sub_cancel]

theorem digitChar_lt {a b : ℕ} (hab : a < b) (hb : b < 10) : digitChar a < digitChar b := by
  interval_cases b <;> interval_cases a <;> decide

theorem lt_digitChar (hc : c ≤ 48) {v : ℕ} (h0 : 0 < v) (h1 : v < 10) : c < digitChar v :=
  UInt8.lt_of_le_of_lt hc (digitChar_lt h0 h1)

theorem length_leftpad_decimal {v w : ℕ} (hw : 0 < w) (hv : v < 10 ^ w) (c : UInt8) :
    ((decimal v).leftpad w c).length = w := by
  have hlength := (length_decimal_le_iff hw (Int.natCast_nonneg v)).mpr (by exact_mod_cast hv)
  rw [List.length_leftpad]
  omega

/-- Nothing but padding comes before every number but zero. -/
theorem replicate_lt_leftpad (hc : c ≤ 48) {w v : ℕ} (h0 : 0 < v) (h1 : v < 10 ^ w) :
    List.replicate w c < (decimal v).leftpad w c := by
  induction w generalizing v with
  | zero => omega
  | succ w ih =>
    rw [List.replicate_succ']
    by_cases hdigit : v < 10
    · rw [leftpad_decimal_digit hdigit]
      exact List.append_left_lt (.rel (lt_digitChar hc h0 hdigit))
    · rw [Nat.pow_succ] at h1
      have hw : 0 < w := by
        rcases Nat.eq_zero_or_pos w with rfl | hw
        · omega
        · exact hw
      rw [leftpad_decimal_snoc (by omega)]
      apply append_lt_append (ih (by omega) (by omega))
      rw [List.length_replicate, length_leftpad_decimal hw (by omega)]

/-- Numbers of one width are in the order of their texts. -/
theorem leftpad_decimal_lt (hc : c ≤ 48) {w a b : ℕ} (hab : a < b) (hb : b < 10 ^ w) :
    (decimal a).leftpad w c < (decimal b).leftpad w c := by
  induction w generalizing a b with
  | zero => omega
  | succ w ih =>
    rw [Nat.pow_succ] at hb
    by_cases hdigit : b < 10
    · rw [leftpad_decimal_digit hdigit, leftpad_decimal_digit (by omega)]
      exact List.append_left_lt (.rel (digitChar_lt hab hdigit))
    · have hw : 0 < w := by
        rcases Nat.eq_zero_or_pos w with rfl | hw
        · omega
        · exact hw
      have hlength := length_leftpad_decimal (v := b / 10) hw (by omega) c
      rw [leftpad_decimal_snoc (v := b) (by omega)]
      by_cases hshort : a < 10
      · rw [leftpad_decimal_digit hshort]
        apply append_lt_append (replicate_lt_leftpad hc (by omega) (by omega))
        rw [List.length_replicate, hlength]
      · rw [leftpad_decimal_snoc (v := a) (by omega)]
        rcases Nat.lt_or_ge (a / 10) (b / 10) with hless | hsame
        · apply append_lt_append (ih hless (by omega))
          rw [length_leftpad_decimal hw (by omega), hlength]
        · have hsame : a / 10 = b / 10 := by omega
          rw [hsame]
          exact List.append_left_lt (.rel (digitChar_lt (by omega) (by omega)))

end Padding

end TinyMuduo
