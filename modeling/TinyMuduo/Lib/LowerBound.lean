import Mathlib.Data.List.Basic
import Mathlib.Order.Lattice

/-!
`std::lower_bound`: a binary search for the first element of a range that is not
below a bound. On a range in which the elements below the bound come first, it
finds the place where the others begin.
-/
namespace TinyMuduo.LowerBound

variable {α : Type*} {below : α → Bool} {low high : List α}

def search (below : α → Bool) (xs : List α) (first len : ℕ) : ℕ :=
  if h : 0 < len then
    let middle := first + len / 2
    if xs[middle]?.any below then search below xs (middle + 1) (len - len / 2 - 1)
    else search below xs first (len / 2)
  else first
termination_by len

def lowerBound (below : α → Bool) (xs : List α) : ℕ := search below xs 0 xs.length

/-- An element is below the bound exactly when it is in the first part. -/
theorem any_getElem? (hlow : ∀ a ∈ low, below a = true) (hhigh : ∀ a ∈ high, below a = false)
    (i : ℕ) : (low ++ high)[i]?.any below = true ↔ i < low.length := by
  by_cases hi : i < low.length
  · rw [List.getElem?_append_left hi, List.getElem?_eq_getElem hi, Option.any_some]
    exact iff_of_true (hlow _ (List.getElem_mem hi)) hi
  · rw [List.getElem?_append_right (Nat.not_lt.mp hi)]
    refine iff_of_false ?_ hi
    cases helem : high[i - low.length]? with
    | none => simp
    | some a => simp [hhigh a (List.mem_of_getElem? helem)]

theorem search_eq (hlow : ∀ a ∈ low, below a = true) (hhigh : ∀ a ∈ high, below a = false)
    {first len : ℕ} (h0 : first ≤ low.length) (h1 : low.length ≤ first + len) :
    search below (low ++ high) first len = low.length := by
  induction len using Nat.strongRecOn generalizing first with
  | ind len ih =>
    rw [search]
    by_cases hlen : 0 < len
    · rw [dif_pos hlen]
      dsimp only
      by_cases hmiddle : first + len / 2 < low.length
      · rw [if_pos ((any_getElem? hlow hhigh _).mpr hmiddle)]
        exact ih _ (by omega) hmiddle (by omega)
      · rw [if_neg (fun h => hmiddle ((any_getElem? hlow hhigh _).mp h))]
        exact ih _ (by omega) h0 (by omega)
    · rw [dif_neg hlen]
      omega

/-- The partition point. -/
theorem lowerBound_eq (hlow : ∀ a ∈ low, below a = true)
    (hhigh : ∀ a ∈ high, below a = false) : lowerBound below (low ++ high) = low.length :=
  search_eq hlow hhigh (Nat.zero_le _) (by rw [List.length_append]; omega)

/-- Where nothing is known of the order, the search still stops at an element that
is not below the bound, or behind the last one. -/
theorem search_high {xs : List α} {first len : ℕ} (h : xs[first + len]?.any below = false) :
    search below xs first len ≤ first + len ∧
      xs[search below xs first len]?.any below = false := by
  induction len using Nat.strongRecOn generalizing first with
  | ind len ih =>
    rw [search]
    by_cases hlen : 0 < len
    · rw [dif_pos hlen]
      dsimp only
      by_cases hmiddle : xs[first + len / 2]?.any below = true
      · rw [if_pos hmiddle]
        have hend : first + len / 2 + 1 + (len - len / 2 - 1) = first + len := by omega
        rw [← hend] at h
        have hrest := ih (len - len / 2 - 1) (by omega) h
        rw [hend] at hrest
        exact hrest
      · rw [if_neg hmiddle]
        have hrest := @ih (len / 2) (by omega) first (Bool.eq_false_iff.mpr hmiddle)
        exact ⟨by omega, hrest.2⟩
    · rw [dif_neg hlen]
      have hzero : len = 0 := by omega
      subst hzero
      exact ⟨Nat.le_refl _, h⟩

theorem lowerBound_high (xs : List α) : lowerBound below xs ≤ xs.length ∧
    xs[lowerBound below xs]?.any below = false := by
  have hend : xs[0 + xs.length]?.any below = false := by simp
  have hsearch := search_high hend
  rw [Nat.zero_add] at hsearch
  exact hsearch

/-- The search by a key. -/
theorem search_map {β : Type*} (key : β → α) (xs : List β) (first len : ℕ) :
    search below (xs.map key) first len = search (fun b => below (key b)) xs first len := by
  induction len using Nat.strongRecOn generalizing first with
  | ind len ih =>
    conv_lhs => rw [search]
    conv_rhs => rw [search]
    by_cases hlen : 0 < len
    · rw [dif_pos hlen, dif_pos hlen]
      dsimp only
      rw [ih _ (by omega), ih _ (by omega), List.getElem?_map, Option.any_map]
    · rw [dif_neg hlen, dif_neg hlen]

theorem lowerBound_map {β : Type*} (key : β → α) (xs : List β) :
    lowerBound below (xs.map key) = lowerBound (fun b => below (key b)) xs := by
  rw [lowerBound, search_map, List.length_map]
  rfl

/-- A list sorted by a key has a place for every bound. -/
theorem exists_split {β : Type*} [LinearOrder β] (key : α → β) (bound : β) {xs : List α}
    (hsorted : xs.Pairwise fun a b => key a < key b) :
    ∃ low high, xs = low ++ high ∧ (∀ a ∈ low, key a ≤ bound) ∧ ∀ a ∈ high, bound < key a := by
  induction xs with
  | nil => exact ⟨[], [], rfl, by simp, by simp⟩
  | cons x xs ih =>
    obtain ⟨hx, hxs⟩ := List.pairwise_cons.mp hsorted
    by_cases hbound : key x ≤ bound
    · obtain ⟨low, high, rfl, hlow, hhigh⟩ := ih hxs
      exact ⟨x :: low, high, rfl, List.forall_mem_cons.mpr ⟨hbound, hlow⟩, hhigh⟩
    · have hlt : bound < key x := lt_of_not_ge hbound
      refine ⟨[], x :: xs, rfl, by simp, List.forall_mem_cons.mpr ⟨hlt, ?_⟩⟩
      intro a ha
      exact lt_trans hlt (hx a ha)

end TinyMuduo.LowerBound
