import Mathlib.Data.List.Basic

/-!
A value behind a shared pointer that readers copy and writers change. A reader
takes a copy of the pointer and reads without a lock; a writer changes the value
in place if nobody else has the pointer, and goes on with a copy of the value
otherwise. A reader goes on seeing what it saw when it took the pointer.
-/
namespace TinyMuduo.CopyOnWrite

/-- The pointer, the values it has pointed to, and the readers that have copies
of it. -/
structure Cell (α ρ : Type*) where
  versions : List α
  current : ℕ
  readers : List (ρ × ℕ)
  valid : current < versions.length
  held : ∀ r ∈ readers, r.2 < versions.length

namespace Cell

variable {α ρ : Type*}

def create (a : α) : Cell α ρ := ⟨[a], 0, [], Nat.one_pos, nofun⟩

def value (c : Cell α ρ) : α := c.versions.get ⟨c.current, c.valid⟩

def unique (c : Cell α ρ) : Bool := c.readers.all fun r => r.2 != c.current

/-- `if (!p.unique()) p.reset(new T(*p))`. -/
def copyOnWrite (c : Cell α ρ) : Cell α ρ :=
  if c.unique then c
  else
    { c with
      versions := c.versions ++ [c.value]
      current := c.versions.length
      valid := by simp
      held := fun r hr => by
        rw [List.length_append]
        exact Nat.lt_add_right _ (c.held r hr) }

def modify (f : α → α) (c : Cell α ρ) : Cell α ρ :=
  { c with
    versions := c.versions.set c.current (f c.value)
    valid := by simpa using c.valid
    held := by simpa using c.held }

def snapshot (r : ρ) (c : Cell α ρ) : Cell α ρ :=
  { c with
    readers := (r, c.current) :: c.readers
    held := by
      intro p hp
      rcases List.mem_cons.mp hp with rfl | hp
      · exact c.valid
      · exact c.held p hp }

theorem getElem?_current (c : Cell α ρ) : c.versions[c.current]? = some c.value :=
  List.getElem?_eq_getElem c.valid

/-- A copy is as good as the value. -/
@[simp]
theorem value_copyOnWrite (c : Cell α ρ) : c.copyOnWrite.value = c.value := by
  unfold copyOnWrite
  split
  · rfl
  · simp [value]

@[simp]
theorem value_modify (f : α → α) (c : Cell α ρ) : (c.modify f).value = f c.value := by
  simp [value, modify]

@[simp]
theorem value_snapshot (r : ρ) (c : Cell α ρ) : (c.snapshot r).value = c.value := rfl

/-- The writer has the value to itself. -/
theorem unique_copyOnWrite (c : Cell α ρ) : c.copyOnWrite.unique = true := by
  unfold copyOnWrite
  split
  · assumption
  · rw [unique, List.all_eq_true]
    intro r hr
    have hlt := c.held r hr
    simpa using Nat.ne_of_lt hlt

section Readers

variable [DecidableEq ρ]

def release (r : ρ) (c : Cell α ρ) : Cell α ρ :=
  { c with
    readers := c.readers.filter fun p => p.1 ≠ r
    held := fun p hp => c.held p (List.mem_of_mem_filter hp) }

def view (c : Cell α ρ) (r : ρ) : Option α :=
  (c.readers.find? fun p => p.1 = r).bind fun p => c.versions[p.2]?

@[simp]
theorem view_copyOnWrite (c : Cell α ρ) (r : ρ) : c.copyOnWrite.view r = c.view r := by
  unfold copyOnWrite
  split
  · rfl
  · unfold view
    dsimp only
    cases hfind : c.readers.find? fun p => p.1 = r with
    | none => rfl
    | some p =>
      have hlt := c.held p (List.mem_of_find?_eq_some hfind)
      exact List.getElem?_append_left hlt

/-- A change in place is not seen, because nobody looks. -/
theorem view_modify {c : Cell α ρ} (h : c.unique = true) (f : α → α) (r : ρ) :
    (c.modify f).view r = c.view r := by
  unfold view modify
  dsimp only
  cases hfind : c.readers.find? fun p => p.1 = r with
  | none => rfl
  | some p =>
    have hne : p.2 ≠ c.current := by
      simpa using List.all_eq_true.mp h p (List.mem_of_find?_eq_some hfind)
    exact List.getElem?_set_ne (Ne.symm hne)

theorem view_snapshot_self (r : ρ) (c : Cell α ρ) : (c.snapshot r).view r = some c.value := by
  simp [view, snapshot, getElem?_current]

theorem view_snapshot_of_ne {r r' : ρ} (h : r' ≠ r) (c : Cell α ρ) :
    (c.snapshot r').view r = c.view r := by
  simp [view, snapshot, h]

theorem view_release_of_ne {r r' : ρ} (h : r' ≠ r) (c : Cell α ρ) :
    (c.release r').view r = c.view r := by
  unfold view release
  dsimp only
  rw [List.find?_filter]
  congr 2
  funext p
  by_cases hp : p.1 = r
  · simp [hp, Ne.symm h]
  · simp [hp]

end Readers

end Cell

end TinyMuduo.CopyOnWrite
