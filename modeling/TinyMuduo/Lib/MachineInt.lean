import TinyMuduo.Lib.Checked
import Mathlib.Algebra.Group.Int.Defs

/-!
The arithmetic of 32-bit integers. A result that does not fit fails, a
conversion wraps around, and the quotient is rounded towards zero: it is the
floor where the dividend is not negative. The results of 64-bit operations wrap
around.
-/
namespace TinyMuduo.MachineInt

open Checked

universe u

variable {ε : Type u}

def checked (failure : ε) (n : ℤ) : Except ε ℤ :=
  if -2147483648 ≤ n ∧ n ≤ 2147483647 then .ok n else .error failure

/-- The conversion of a wider integer. -/
def narrow (n : ℤ) : ℤ := (n + 2147483648) % 4294967296 - 2147483648

def unsigned (n : ℤ) : ℤ := n % 4294967296

theorem checked_ok {failure : ε} {n : ℤ} (h0 : -2147483648 ≤ n) (h1 : n ≤ 2147483647) :
    checked failure n = .ok n := if_pos ⟨h0, h1⟩

theorem checked_eq_ok {failure : ε} {n m : ℤ} :
    checked failure n = .ok m ↔ (-2147483648 ≤ n ∧ n ≤ 2147483647) ∧ n = m := by
  unfold checked
  by_cases h : -2147483648 ≤ n ∧ n ≤ 2147483647
  · simp [h]
  · rw [if_neg h]
    simp only [reduceCtorEq, h, false_and]

theorem narrow_of_fits {n : ℤ} (h0 : -2147483648 ≤ n) (h1 : n ≤ 2147483647) : narrow n = n := by
  unfold narrow
  omega

theorem unsigned_of_nonneg {n : ℤ} (h0 : 0 ≤ n) (h1 : n < 4294967296) : unsigned n = n := by
  unfold unsigned
  omega

def InInt64 (t : ℤ) : Prop := -9223372036854775808 ≤ t ∧ t ≤ 9223372036854775807

instance (t : ℤ) : Decidable (InInt64 t) :=
  inferInstanceAs (Decidable (-9223372036854775808 ≤ t ∧ t ≤ 9223372036854775807))

/-- What is left of a result in 64 bits. -/
def wrap64 (n : ℤ) : ℤ := (n + 9223372036854775808) % 18446744073709551616 - 9223372036854775808

theorem wrap64_inInt64 (n : ℤ) : InInt64 (wrap64 n) := by
  unfold InInt64 wrap64
  omega

theorem wrap64_of_fits {n : ℤ} (h : InInt64 n) : wrap64 n = n := by
  obtain ⟨h0, h1⟩ := h
  unfold wrap64
  omega

/-- The floor, from a quotient that is rounded towards zero. -/
theorem ediv_of_tmod_neg {n m : ℤ} (hm : 0 < m) (h : n.tmod m < 0) :
    n / m = n.tdiv m - 1 ∧ n % m = n.tmod m + m := by
  have hsum := Int.tmod_add_mul_tdiv n m
  have hlow := Int.lt_tmod_of_pos n hm
  rw [Int.ediv_emod_unique hm, Int.mul_sub, Int.mul_one]
  omega

theorem ediv_of_tmod_nonneg {n m : ℤ} (hm : 0 < m) (h : 0 ≤ n.tmod m) :
    n / m = n.tdiv m ∧ n % m = n.tmod m := by
  have hsum := Int.tmod_add_mul_tdiv n m
  have hhigh := Int.tmod_lt_of_pos n hm
  rw [Int.ediv_emod_unique hm]
  omega

end TinyMuduo.MachineInt
