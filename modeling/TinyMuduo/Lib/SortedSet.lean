import Mathlib.Data.List.Sort
import Mathlib.Order.Basic

/-!
Ordered sets as `std::set` keeps them: a strictly increasing list carries its
own order, so a duplicate or misplaced element cannot be built. Insertion
reports whether the element was new and erasure how many elements left, as the
C++ members do. The lower bound of a key splits the set in place.
-/
namespace TinyMuduo

structure SortedSet (α : Type*) [LinearOrder α] where
  toList : List α
  sorted : toList.Pairwise (· < ·)

namespace SortedSet

variable {α : Type*} [LinearOrder α]

instance : Membership α (SortedSet α) := ⟨fun s a => a ∈ s.toList⟩

theorem mem_def {s : SortedSet α} {a : α} : a ∈ s ↔ a ∈ s.toList := Iff.rfl

instance (s : SortedSet α) (a : α) : Decidable (a ∈ s) :=
  inferInstanceAs (Decidable (a ∈ s.toList))

def empty : SortedSet α := ⟨[], List.Pairwise.nil⟩

def size (s : SortedSet α) : ℕ := s.toList.length

def first? (s : SortedSet α) : Option α := s.toList.head?

/-- Place a key before the first larger one; an equal key stays alone. -/
def place (a : α) : List α → List α
  | [] => [a]
  | b :: rest => if a < b then a :: b :: rest else if a = b then b :: rest else b :: place a rest

theorem mem_place {a x : α} {l : List α} : x ∈ place a l ↔ x = a ∨ x ∈ l := by
  induction l with
  | nil => simp [place]
  | cons b rest ih =>
    unfold place
    split
    · simp
    · split
      · rename_i h
        subst h
        simp
      · simp only [List.mem_cons, ih]
        tauto

theorem place_sorted {a : α} {l : List α} (h : l.Pairwise (· < ·)) :
    (place a l).Pairwise (· < ·) := by
  induction l with
  | nil => simp [place]
  | cons b rest ih =>
    obtain ⟨hb, hrest⟩ := List.pairwise_cons.mp h
    unfold place
    split
    · rename_i hab
      refine List.pairwise_cons.mpr ⟨?_, h⟩
      intro x hx
      rcases List.mem_cons.mp hx with rfl | hx
      · exact hab
      · exact lt_trans hab (hb x hx)
    · split
      · exact h
      · rename_i hlt hne
        refine List.pairwise_cons.mpr ⟨?_, ih hrest⟩
        intro x hx
        rcases mem_place.mp hx with rfl | hx
        · exact lt_of_le_of_ne (not_lt.mp hlt) (Ne.symm hne)
        · exact hb x hx

theorem place_length {a : α} {l : List α} (h : a ∉ l) :
    (place a l).length = l.length + 1 := by
  induction l with
  | nil => rfl
  | cons b rest ih =>
    obtain ⟨hne, hrest⟩ : a ≠ b ∧ a ∉ rest := by simpa using h
    simp only [place, hne, if_false]
    split
    · simp
    · simp [ih hrest]

/-- `set::insert`; the flag says whether the key was new. -/
def insert (s : SortedSet α) (a : α) : SortedSet α × Bool :=
  (⟨place a s.toList, place_sorted s.sorted⟩, decide (a ∉ s))

def erase (s : SortedSet α) (a : α) : SortedSet α × ℕ :=
  (⟨s.toList.erase a, s.sorted.sublist List.erase_sublist⟩, if a ∈ s then 1 else 0)

@[simp]
theorem mem_empty {a : α} : a ∉ (empty : SortedSet α) := by simp [empty, mem_def]

@[simp]
theorem mem_insert {s : SortedSet α} {a x : α} : x ∈ (s.insert a).1 ↔ x = a ∨ x ∈ s :=
  mem_place

@[simp]
theorem insert_flag {s : SortedSet α} {a : α} : (s.insert a).2 = true ↔ a ∉ s := by
  simp [insert]

theorem nodup (s : SortedSet α) : s.toList.Nodup := s.sorted.imp ne_of_lt

@[simp]
theorem mem_erase {s : SortedSet α} {a x : α} : x ∈ (s.erase a).1 ↔ x ≠ a ∧ x ∈ s := by
  simpa [erase, mem_def] using s.nodup.mem_erase_iff (a := x) (b := a)

@[simp]
theorem erase_count {s : SortedSet α} {a : α} : (s.erase a).2 = 1 ↔ a ∈ s := by
  by_cases h : a ∈ s <;> simp [erase, h]

theorem size_insert {s : SortedSet α} {a : α} (h : a ∉ s) :
    (s.insert a).1.size = s.size + 1 := place_length h

theorem size_erase {s : SortedSet α} {a : α} (h : a ∈ s) :
    (s.erase a).1.size + 1 = s.size := by
  have hpos : 0 < s.toList.length := List.length_pos_of_mem h
  have hlen : (s.toList.erase a).length = s.toList.length - 1 := List.length_erase_of_mem h
  simp only [size, erase, hlen]
  omega

def below (s : SortedSet α) (key : α) : List α := s.toList.takeWhile (· < key)

def fromLowerBound (s : SortedSet α) (key : α) : SortedSet α :=
  ⟨s.toList.dropWhile (· < key), s.sorted.sublist (List.dropWhile_sublist _)⟩

theorem below_append (s : SortedSet α) (key : α) :
    s.below key ++ (s.fromLowerBound key).toList = s.toList :=
  List.takeWhile_append_dropWhile

theorem mem_below {s : SortedSet α} {key x : α} : x ∈ s.below key ↔ x ∈ s ∧ x < key := by
  obtain ⟨l, hl⟩ := s
  simp only [below, mem_def]
  induction l with
  | nil => simp
  | cons b rest ih =>
    obtain ⟨hb, hrest⟩ := List.pairwise_cons.mp hl
    by_cases hk : b < key
    · simp only [hk, decide_true, List.takeWhile_cons_of_pos, List.mem_cons, ih hrest]
      constructor
      · rintro (rfl | ⟨hx, hlt⟩)
        · exact ⟨Or.inl rfl, hk⟩
        · exact ⟨Or.inr hx, hlt⟩
      · rintro ⟨rfl | hx, hlt⟩
        · exact Or.inl rfl
        · exact Or.inr ⟨hx, hlt⟩
    · have hnil : (b :: rest).takeWhile (fun y => decide (y < key)) = [] := by simp [hk]
      rw [hnil]
      simp only [List.not_mem_nil, List.mem_cons, false_iff, not_and]
      rintro (rfl | hx)
      · exact hk
      · exact fun hlt => hk (lt_trans (hb x hx) hlt)

theorem mem_fromLowerBound {s : SortedSet α} {key x : α} :
    x ∈ s.fromLowerBound key ↔ x ∈ s ∧ ¬ x < key := by
  have hnodup := s.nodup
  rw [← below_append s key, List.nodup_append] at hnodup
  have hall : x ∈ s ↔ x ∈ s.below key ∨ x ∈ s.fromLowerBound key := by
    rw [mem_def, ← below_append s key, List.mem_append]
    rfl
  constructor
  · intro hx
    refine ⟨hall.mpr (Or.inr hx), fun hlt => ?_⟩
    exact hnodup.2.2 x (mem_below.mpr ⟨hall.mpr (Or.inr hx), hlt⟩) x hx rfl
  · rintro ⟨hx, hnot⟩
    rcases hall.mp hx with h | h
    · exact absurd (mem_below.mp h).2 hnot
    · exact h

theorem size_split (s : SortedSet α) (key : α) :
    (s.below key).length + (s.fromLowerBound key).size = s.size := by
  have h := congrArg List.length (below_append s key)
  simpa [size] using h

theorem below_nodup (s : SortedSet α) (key : α) : (s.below key).Nodup :=
  s.nodup.sublist (List.takeWhile_sublist _)

theorem first?_mem {s : SortedSet α} {a : α} (h : s.first? = some a) : a ∈ s :=
  List.mem_of_head? h

theorem first?_le {s : SortedSet α} {a x : α} (h : s.first? = some a) (hx : x ∈ s) : a ≤ x := by
  obtain ⟨rest, hl⟩ := List.head?_eq_some_iff.mp h
  rw [mem_def, hl, List.mem_cons] at hx
  rcases hx with rfl | hx
  · exact le_refl x
  · have hsorted := s.sorted
    rw [hl, List.pairwise_cons] at hsorted
    exact le_of_lt (hsorted.1 x hx)

theorem exists_first? {s : SortedSet α} {x : α} (hx : x ∈ s) : ∃ a, s.first? = some a := by
  cases hl : s.toList with
  | nil => simp [mem_def, hl] at hx
  | cons a rest => exact ⟨a, by simp [first?, hl]⟩

end SortedSet

end TinyMuduo
