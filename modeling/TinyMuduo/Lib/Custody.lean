import Mathlib.Data.List.Basic

/-!
Items whose tokens lie in places. Each item has at most one token, in one
place; `held` counts what the places really hold. A step that takes the token
of one item away or puts one down is described by the counts alone, so the
order inside a place does not matter.
-/
namespace TinyMuduo.Custody

variable {π κ τ : Type*} [DecidableEq π] [DecidableEq κ] [DecidableEq τ]

/-- One for the place and the token where `site` says the item is, else none. -/
def mark (k : κ) (site : Option (π × τ)) (p : π) (j : κ) (t : τ) : ℕ :=
  if j = k ∧ site = some (p, t) then 1 else 0

/-- The places hold exactly the tokens that `sites` assigns to them. -/
def Kept (sites : κ → Option (π × τ)) (held : π → κ → τ → ℕ) : Prop :=
  ∀ p j t, held p j t = if sites j = some (p, t) then 1 else 0

section Marks

variable (k : κ) (p : π) (j : κ) (t : τ)

@[simp]
theorem mark_none : mark k (none : Option (π × τ)) p j t = 0 := by
  simp [mark]

theorem mark_self (site : Option (π × τ)) :
    mark k site p k t = if site = some (p, t) then 1 else 0 := by
  simp [mark]

theorem mark_of_ne {j k : κ} (h : j ≠ k) (site : Option (π × τ)) (p : π) (t : τ) :
    mark k site p j t = 0 := by
  simp [mark, h]

end Marks

variable {sites : κ → Option (π × τ)} {held held' : π → κ → τ → ℕ} {k : κ} {p : π} {t : τ}

omit [DecidableEq κ] in
theorem Kept.site (h : Kept sites held) (hpos : 0 < held p k t) : sites k = some (p, t) := by
  have hcount := h p k t
  by_contra hne
  rw [if_neg hne] at hcount
  omega

omit [DecidableEq κ] in
theorem Kept.pos (h : Kept sites held) (hsite : sites k = some (p, t)) : 0 < held p k t := by
  have hcount := h p k t
  rw [if_pos hsite] at hcount
  omega

/-- A step that takes the token of one item from its site and puts another
down at a new one. -/
theorem Kept.move (h : Kept sites held) (site : Option (π × τ))
    (hmove : ∀ p j t, held' p j t + mark k (sites k) p j t = held p j t + mark k site p j t) :
    Kept (Function.update sites k site) held' := by
  intro p j t
  have hcount := h p j t
  have hstep := hmove p j t
  by_cases hj : j = k
  · subst hj
    rw [mark_self, mark_self] at hstep
    rw [Function.update_self]
    omega
  · rw [mark_of_ne hj, mark_of_ne hj] at hstep
    rw [Function.update_of_ne hj]
    omega

end TinyMuduo.Custody
