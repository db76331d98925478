import Mathlib.Data.Nat.Digits.Lemmas

/-!
Numerals. `Nat.digits` is empty for zero and gives the least significant digit
first; a numeral has at least one digit and is read from the most significant
one. A loop that divides by the base writes the digits in the first order.
-/
namespace TinyMuduo.Numeral

variable {b n k : ℕ}

/-- The digits of a number, the least significant one first, at least one. -/
def lowFirst (b n : ℕ) : List ℕ := if n = 0 then [0] else Nat.digits b n

/-- The canonical numeral: no leading zero, except for zero itself. -/
def numeral (b n : ℕ) : List ℕ := (lowFirst b n).reverse

/-- One round of a loop that divides by the base until nothing is left. -/
theorem lowFirst_eq (hb : 1 < b) (n : ℕ) :
    lowFirst b n = n % b :: if n / b = 0 then [] else lowFirst b (n / b) := by
  unfold lowFirst
  by_cases hn : n = 0
  · simp [hn]
  · rw [if_neg hn, Nat.digits_def' hb (Nat.pos_of_ne_zero hn)]
    split
    · rename_i hdiv
      rw [hdiv, Nat.digits_zero]
    · rfl

theorem digit_lt (hb : 1 < b) {d : ℕ} (hd : d ∈ lowFirst b n) : d < b := by
  unfold lowFirst at hd
  split at hd
  · rw [List.mem_singleton.mp hd]
    omega
  · exact Nat.digits_lt_base hb hd

/-- The numbers below a power of the base are those that have no more digits
than the exponent. -/
theorem length_lowFirst_le_iff (hb : 1 < b) (hk : 0 < k) :
    (lowFirst b n).length ≤ k ↔ n < b ^ k := by
  unfold lowFirst
  split
  · rename_i hn
    have hpos : 0 < b ^ k := Nat.pow_pos (by omega)
    rw [hn]
    exact iff_of_true hk hpos
  · exact Nat.digits_length_le_iff hb n

theorem length_numeral : (numeral b n).length = (lowFirst b n).length := List.length_reverse

/-- The number that digits stand for, the most significant one first. -/
def value (b : ℕ) (digits : List ℕ) : ℕ := digits.foldl (fun v d => b * v + d) 0

theorem value_eq_ofDigits (digits : List ℕ) : value b digits = Nat.ofDigits b digits.reverse := by
  rw [value, Nat.ofDigits_eq_foldr, List.foldr_reverse]
  simp only [Nat.cast_id, Nat.add_comm]

/-- Reading a numeral gives the number back. -/
theorem value_numeral (b n : ℕ) : value b (numeral b n) = n := by
  rw [value_eq_ofDigits, numeral, List.reverse_reverse, lowFirst]
  split
  · rename_i hn
    simp [hn]
  · exact Nat.ofDigits_digits b n

/-- Leading zeros do not count. -/
theorem value_zeros (b k : ℕ) (digits : List ℕ) :
    value b (List.replicate k 0 ++ digits) = value b digits := by
  induction k with
  | zero => rfl
  | succ k ih =>
    rw [List.replicate_succ, List.cons_append]
    simpa [value] using ih

end TinyMuduo.Numeral
