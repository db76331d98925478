import Mathlib.Data.List.Basic

/-!
Checked computations: a computation returns a value or the check that failed.
The inversion lemmas peel a successful computation apart one check at a time,
so that proofs about callers never unfold the monad.
-/
namespace TinyMuduo.Checked

universe u v

variable {ε : Type u} {α β : Type v}

def require (p : Prop) [Decidable p] (failure : ε) : Except ε Unit :=
  if p then .ok () else .error failure

@[simp]
theorem require_eq_ok {p : Prop} [Decidable p] {failure : ε} {u : Unit} :
    require p failure = .ok u ↔ p := by
  by_cases h : p <;> simp [require, h]

@[simp]
theorem require_eq_error {p : Prop} [Decidable p] {failure e : ε} :
    require p failure = .error e ↔ ¬ p ∧ e = failure := by
  by_cases h : p <;> simp [require, h, eq_comm]

theorem require_pos {p : Prop} [Decidable p] (failure : ε) (h : p) :
    require p failure = .ok () := by simp [h]

@[simp]
theorem bind_eq_ok {x : Except ε α} {f : α → Except ε β} {b : β} :
    (x >>= f) = .ok b ↔ ∃ a, x = .ok a ∧ f a = .ok b := by
  cases x with
  | ok a => simp [bind, Except.bind]
  | error e => simp [bind, Except.bind]

@[simp]
theorem ok_bind (a : α) (f : α → Except ε β) : ((Except.ok a : Except ε α) >>= f) = f a := rfl

@[simp]
theorem pure_eq_ok (a : α) : (pure a : Except ε α) = .ok a := rfl

/-- A failed check is either the first computation's or its continuation's. -/
theorem bind_eq_error {x : Except ε α} {f : α → Except ε β} {e : ε} :
    (x >>= f) = .error e ↔ x = .error e ∨ ∃ a, x = .ok a ∧ f a = .error e := by
  cases x with
  | ok a => simp [bind, Except.bind]
  | error e' => simp [bind, Except.bind]

/-- A computation whose continuation checks nothing. -/
theorem bind_pure_eq_ok {x : Except ε α} {g : α → β} {b : β} :
    (x >>= fun a => pure (g a)) = .ok b ↔ ∃ a, x = .ok a ∧ g a = b := by
  simp only [bind_eq_ok, pure_eq_ok, Except.ok.injEq]

theorem bind_pure_eq_error {x : Except ε α} {g : α → β} {e : ε} :
    (x >>= fun a => pure (g a)) = .error e ↔ x = .error e := by
  simp [bind_eq_error]

def demand (x : Option α) (failure : ε) : Except ε α :=
  match x with
  | some a => .ok a
  | none => .error failure

@[simp]
theorem demand_eq_ok {x : Option α} {failure : ε} {a : α} :
    demand x failure = .ok a ↔ x = some a := by
  cases x <;> simp [demand]

@[simp]
theorem demand_eq_error {x : Option α} {failure e : ε} :
    demand x failure = .error e ↔ x = none ∧ e = failure := by
  cases x <;> simp [demand, eq_comm]

/-- A failed check under another name. -/
theorem mapError_eq_ok {ε' : Type u} {x : Except ε α} {f : ε → ε'} {a : α} :
    x.mapError f = .ok a ↔ x = .ok a := by
  cases x <;> simp [Except.mapError]

theorem mapError_eq_error {ε' : Type u} {x : Except ε α} {f : ε → ε'} {e : ε'} :
    x.mapError f = .error e ↔ ∃ e', x = .error e' ∧ f e' = e := by
  cases x <;> simp [Except.mapError]

end TinyMuduo.Checked
