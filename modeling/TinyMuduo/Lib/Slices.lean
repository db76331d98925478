import Mathlib.Data.List.Basic

/-!
Regions of a list. `slice` reads the elements between two positions, `splice`
overwrites the elements from a position on, and `resize` cuts a list off or
fills it up. The lemmas say what a slice is after the list was written: the
new elements inside the written region, the old ones outside of it.
-/
namespace TinyMuduo.Slices

variable {α : Type*} {l data : List α} {a b c i n : ℕ}

/-- The elements at the positions `a`, ..., `b - 1`. -/
def slice (l : List α) (a b : ℕ) : List α := (l.take b).drop a

/-- Overwrite the elements from position `i` on. -/
def splice (l : List α) (i : ℕ) (data : List α) : List α :=
  l.take i ++ data ++ l.drop (i + data.length)

/-- Cut off after `n` elements, or fill up to `n`. -/
def resize (l : List α) (n : ℕ) (fill : α) : List α :=
  l.take n ++ List.replicate (n - l.length) fill

theorem getElem?_slice (k : ℕ) : (slice l a b)[k]? = if a + k < b then l[a + k]? else none := by
  simp only [slice, List.getElem?_drop, List.getElem?_take]

theorem getElem?_splice (h : i + data.length ≤ l.length) (k : ℕ) :
    (splice l i data)[k]? =
      if k < i then l[k]? else if k < i + data.length then data[k - i]? else l[k]? := by
  have hlen : (l.take i).length = i := List.length_take_of_le (by omega)
  unfold splice
  by_cases hk : k < i
  · rw [if_pos hk, List.append_assoc, List.getElem?_append_left (by omega),
      List.getElem?_take_of_lt hk]
  · rw [if_neg hk]
    by_cases hin : k < i + data.length
    · rw [if_pos hin, List.append_assoc, List.getElem?_append_right (by omega), hlen,
        List.getElem?_append_left (by omega)]
    · rw [if_neg hin, List.getElem?_append_right (by simp only [List.length_append]; omega),
        List.getElem?_drop, List.length_append, hlen]
      congr 1
      omega

theorem getElem?_resize (fill : α) {k : ℕ} (hk : k < l.length) (hn : k < n) :
    (resize l n fill)[k]? = l[k]? := by
  have hlt : k < (l.take n).length := by
    rw [List.length_take]
    omega
  rw [resize, List.getElem?_append_left hlt, List.getElem?_take_of_lt hn]

theorem length_slice (hb : b ≤ l.length) : (slice l a b).length = b - a := by
  rw [slice, List.length_drop, List.length_take_of_le hb]

theorem length_splice (h : i + data.length ≤ l.length) : (splice l i data).length = l.length := by
  simp only [splice, List.length_append, List.length_drop, List.length_take]
  omega

theorem length_resize (fill : α) : (resize l n fill).length = n := by
  simp only [resize, List.length_append, List.length_take, List.length_replicate]
  omega

@[simp]
theorem slice_self : slice l a a = [] :=
  List.drop_eq_nil_of_le (List.length_take_le a l)

theorem drop_slice : (slice l a b).drop n = slice l (a + n) b := by
  rw [slice, List.drop_drop, slice]

theorem slice_append (hab : a ≤ b) (hbc : b ≤ c) (hb : b ≤ l.length) :
    slice l a b ++ slice l b c = slice l a c := by
  have hlen : (l.take b).length = b := List.length_take_of_le hb
  have htake : l.take b ++ (l.take c).drop b = l.take c := by
    rw [show l.take b = (l.take c).take b by rw [List.take_take, Nat.min_eq_left hbc],
      List.take_append_drop]
  symm
  calc slice l a c = (l.take b ++ (l.take c).drop b).drop a := by rw [htake, slice]
    _ = slice l a b ++ slice l b c := List.drop_append_of_le_length (by omega)

theorem slice_splice_before (h : i + data.length ≤ l.length) (hb : b ≤ i) :
    slice (splice l i data) a b = slice l a b := by
  apply List.ext_getElem?
  intro k
  rw [getElem?_slice, getElem?_slice, getElem?_splice h]
  split
  · rw [if_pos (by omega)]
  · rfl

theorem slice_splice_after (h : i + data.length ≤ l.length) (ha : i + data.length ≤ a) :
    slice (splice l i data) a b = slice l a b := by
  apply List.ext_getElem?
  intro k
  rw [getElem?_slice, getElem?_slice, getElem?_splice h, if_neg (by omega : ¬ a + k < i),
    if_neg (by omega : ¬ a + k < i + data.length)]

theorem slice_splice_inside (h : i + data.length ≤ l.length) :
    slice (splice l i data) i (i + data.length) = data := by
  apply List.ext_getElem?
  intro k
  rw [getElem?_slice, getElem?_splice h, if_neg (by omega : ¬ i + k < i)]
  by_cases hk : k < data.length
  · rw [if_pos (by omega), if_pos (by omega), Nat.add_sub_cancel_left]
  · rw [if_neg (by omega), List.getElem?_eq_none (by omega)]

/-- Two regions written one after the other. -/
theorem splice_append {more : List α} (h : i + data.length + more.length ≤ l.length) :
    splice (splice l i data) (i + data.length) more = splice l i (data ++ more) := by
  have hfirst : i + data.length ≤ l.length := by omega
  have hboth : i + (data ++ more).length ≤ l.length := by
    rw [List.length_append]
    omega
  apply List.ext_getElem?
  intro k
  rw [getElem?_splice (by rw [length_splice hfirst]; exact h), getElem?_splice hfirst,
    getElem?_splice hboth, List.length_append]
  by_cases hk : k < i
  · rw [if_pos (by omega), if_pos hk, if_pos hk]
  · rw [if_neg hk, if_neg hk]
    by_cases hin : k < i + data.length
    · rw [if_pos hin, if_pos hin, if_pos (by omega), List.getElem?_append_left (by omega)]
    · rw [if_neg hin, if_neg hin]
      by_cases hmore : k < i + data.length + more.length
      · rw [if_pos hmore, if_pos (by omega), List.getElem?_append_right (by omega)]
        congr 1
        omega
      · rw [if_neg hmore, if_neg (by omega)]

/-- The front of a region written again. -/
theorem splice_front {front more : List α} (hfront : front.length = data.length)
    (h : i + (data ++ more).length ≤ l.length) :
    splice (splice l i (data ++ more)) i front = splice l i (front ++ more) := by
  have hlen : (front ++ more).length = (data ++ more).length := by simp [hfront]
  have hfirst : i + front.length ≤ l.length := by
    rw [List.length_append] at h
    omega
  apply List.ext_getElem?
  intro k
  rw [getElem?_splice (by rw [length_splice h]; exact hfirst), getElem?_splice h,
    getElem?_splice (by rw [hlen]; exact h), hlen, hfront]
  by_cases hk : k < i
  · rw [if_pos hk, if_pos hk, if_pos hk]
  · rw [if_neg hk, if_neg hk, if_neg hk]
    by_cases hin : k < i + data.length
    · rw [if_pos hin, if_pos (by rw [List.length_append]; omega),
        List.getElem?_append_left (by omega)]
    · rw [if_neg hin]
      split
      · rw [List.getElem?_append_right (by omega), List.getElem?_append_right (by omega), hfront]
      · rfl

/-- What stands before the end of a region that was written. -/
theorem take_splice (h : i + data.length ≤ l.length) (hn : n ≤ data.length) :
    (splice l i data).take (i + n) = l.take i ++ data.take n := by
  have hlen : (l.take i).length = i := List.length_take_of_le (by omega)
  rw [splice, List.append_assoc, List.take_append, List.take_append, hlen]
  rw [List.take_of_length_le (by omega), Nat.add_sub_cancel_left, Nat.sub_eq_zero_of_le hn,
    List.take_zero, List.append_nil]

theorem slice_resize (fill : α) (hb : b ≤ l.length) (hn : b ≤ n) :
    slice (resize l n fill) a b = slice l a b := by
  apply List.ext_getElem?
  intro k
  rw [getElem?_slice, getElem?_slice]
  split
  · exact getElem?_resize fill (by omega) (by omega)
  · rfl

end TinyMuduo.Slices
