import Mathlib.Data.List.Basic

/-!
Computations that read an input from its front and build a value on the side.
They may be stopped, and then what was built so far stays. A computation is
described from two sides: the inputs on which it succeeds, and what holds of the
value however it ends.
-/
namespace TinyMuduo.Reading

variable {ε β σ α γ : Type}

/-- From the rest of the input and the value so far to a result, or the reason
why it was stopped, and what the two are then. -/
def Reader (ε β σ α : Type) := List β × σ → Except ε α × (List β × σ)

namespace Reader

instance : Monad (Reader ε β σ) where
  pure a s := (.ok a, s)
  bind x f s :=
    match x s with
    | (.ok a, s') => f a s'
    | (.error e, s') => (.error e, s')

def stop (reason : ε) : Reader ε β σ α := fun s => (.error reason, s)

def read (n : ℕ) (reason : ε) : Reader ε β σ (List β) := fun (input, value) =>
  if n ≤ input.length then (.ok (input.take n), (input.drop n, value))
  else (.error reason, ([], value))

def built : Reader ε β σ σ := fun s => (.ok s.2, s)

def build (f : σ → σ) : Reader ε β σ Unit := fun (input, value) => (.ok (), (input, f value))

def collect (x : Reader ε β σ α) : ℕ → Reader ε β σ (List α)
  | 0 => pure []
  | n + 1 => do
    let a ← x
    let as ← collect x n
    return a :: as

section Success

variable {x : Reader ε β σ α} {f : α → Reader ε β σ γ} {s s' : List β × σ} {a b : α} {c : γ}
  {input rest tokens : List β} {value value' : σ} {reason : ε} {n : ℕ}

theorem pure_ok : (pure a : Reader ε β σ α) s = (.ok b, s') ↔ b = a ∧ s' = s := by
  change (Except.ok a, s) = (Except.ok b, s') ↔ _
  rw [Prod.mk.injEq, Except.ok.injEq, eq_comm, @eq_comm _ s]

theorem bind_apply : (x >>= f) s =
    match x s with
    | (.ok a, s') => f a s'
    | (.error e, s') => (.error e, s') := rfl

/-- A computation succeeds when both its parts do. -/
theorem bind_ok : (x >>= f) s = (.ok c, s') ↔
    ∃ a s'', x s = (.ok a, s'') ∧ f a s'' = (.ok c, s') := by
  rw [bind_apply]
  constructor
  · intro h
    rcases hx : x s with ⟨e | a, s''⟩
    · rw [hx] at h
      cases h
    · rw [hx] at h
      exact ⟨a, s'', rfl, h⟩
  · rintro ⟨a, s'', hx, hf⟩
    rw [hx]
    exact hf

theorem stop_ok : ¬ (stop reason : Reader ε β σ α) s = (.ok a, s') := by
  intro h
  cases h

/-- A check before a computation. -/
theorem ite_stop_ok {p : Prop} [Decidable p] :
    (if p then stop reason else x) s = (.ok a, s') ↔ ¬ p ∧ x s = (.ok a, s') := by
  by_cases hp : p
  · rw [if_pos hp]
    exact iff_of_false stop_ok (fun h => h.1 hp)
  · rw [if_neg hp]
    exact ⟨fun h => ⟨hp, h⟩, fun h => h.2⟩

theorem build_bind_ok {g : σ → σ} {f : Unit → Reader ε β σ γ} :
    (build g >>= f) (input, value) = (.ok c, s') ↔ f () (input, g value) = (.ok c, s') := Iff.rfl

end Success

section Encodings

variable {ω : Type} {x : Reader ε β σ α} {encode : ω → List β} {result : ω → α}
  {change : ω → σ → σ} {n : ℕ} {reason : ε}

/-- A computation succeeds exactly on the encodings of some type. -/
def Reads (x : Reader ε β σ α) (encode : ω → List β) (result : ω → α) (change : ω → σ → σ) :
    Prop :=
  ∀ input value a rest value', x (input, value) = (.ok a, (rest, value')) ↔
    ∃ w, input = encode w ++ rest ∧ a = result w ∧ value' = change w value

theorem read_reads : Reads (read n reason : Reader ε β σ (List β))
    (fun tokens : { tokens : List β // tokens.length = n } => tokens.1) (fun tokens => tokens.1)
    (fun _ value => value) := by
  intro input value a rest value'
  unfold read
  dsimp only
  constructor
  · intro h
    split at h
    · rename_i hlen
      simp only [Prod.mk.injEq, Except.ok.injEq] at h
      obtain ⟨rfl, rfl, rfl⟩ := h
      have htake : (input.take n).length = n := by
        rw [List.length_take]
        omega
      exact ⟨⟨input.take n, htake⟩, (List.take_append_drop n input).symm, rfl, rfl⟩
    · cases h
  · rintro ⟨⟨tokens, rfl⟩, rfl, rfl, rfl⟩
    dsimp only
    rw [if_pos (by rw [List.length_append]; omega), List.take_left, List.drop_left]

namespace Reads

theorem bind_ok (h : Reads x encode result change) {f : α → Reader ε β σ γ} {input : List β}
    {value : σ} {c : γ} {s' : List β × σ} : (x >>= f) (input, value) = (.ok c, s') ↔
      ∃ w rest, input = encode w ++ rest ∧ f (result w) (rest, change w value) = (.ok c, s') := by
  rw [Reader.bind_ok]
  constructor
  · rintro ⟨a, ⟨rest, value'⟩, hx, hf⟩
    obtain ⟨w, hinput, rfl, rfl⟩ := (h ..).mp hx
    exact ⟨w, rest, hinput, hf⟩
  · rintro ⟨w, rest, hinput, hf⟩
    exact ⟨_, _, (h ..).mpr ⟨w, hinput, rfl, rfl⟩, hf⟩

/-- A result computed from what was read. -/
theorem map (h : Reads x encode result change) (g : α → γ) :
    Reads (do return g (← x)) encode (fun w => g (result w)) change := by
  intro input value c rest value'
  rw [h.bind_ok]
  constructor
  · rintro ⟨w, rest', rfl, hpure⟩
    obtain ⟨rfl, hs⟩ := pure_ok.mp hpure
    obtain ⟨rfl, rfl⟩ := Prod.mk.inj hs
    exact ⟨w, rfl, rfl, rfl⟩
  · rintro ⟨w, rfl, rfl, rfl⟩
    exact ⟨w, rest, rfl, rfl⟩

/-- The repetition reads the encodings one after the other. -/
theorem collect (h : Reads x encode result change) (n : ℕ) : Reads (collect x n)
    (fun ws : { ws : List ω // ws.length = n } => ws.1.flatMap encode) (fun ws => ws.1.map result)
    (fun ws value => ws.1.foldl (fun value w => change w value) value) := by
  induction n with
  | zero =>
    intro input value as rest value'
    rw [Reader.collect, pure_ok, Prod.mk.injEq]
    constructor
    · rintro ⟨rfl, rfl, rfl⟩
      exact ⟨⟨[], rfl⟩, rfl, rfl, rfl⟩
    · rintro ⟨⟨ws, hlen⟩, rfl, rfl, rfl⟩
      rw [List.length_eq_zero_iff] at hlen
      subst hlen
      exact ⟨rfl, rfl, rfl⟩
  | succ n ih =>
    intro input value as rest value'
    rw [Reader.collect, h.bind_ok]
    simp only [ih.bind_ok, pure_ok, Prod.mk.injEq]
    constructor
    · rintro ⟨w, rest₁, rfl, ⟨ws, rfl⟩, rest₂, rfl, rfl, rfl, rfl⟩
      exact ⟨⟨w :: ws, rfl⟩, by rw [List.flatMap_cons, List.append_assoc], rfl, rfl⟩
    · rintro ⟨⟨ws, hlen⟩, rfl, rfl, rfl⟩
      cases ws with
      | nil => cases hlen
      | cons w ws =>
        refine ⟨w, ws.flatMap encode ++ rest, ?_, ⟨ws, Nat.succ.inj hlen⟩, rest, rfl, rfl, rfl, rfl⟩
        rw [List.flatMap_cons, List.append_assoc]

end Reads

end Encodings

/-- From a value with the property `P` a computation ends with `Q`, or it is
stopped with `E` of the reason and the value. -/
def Triple (P : σ → Prop) (x : Reader ε β σ α) (Q : σ → Prop) (E : ε → σ → Prop) : Prop :=
  ∀ input value, P value →
    match x (input, value) with
    | (.ok _, (_, value')) => Q value'
    | (.error e, (_, value')) => E e value'

namespace Triple

variable {P Q R : σ → Prop} {E : ε → σ → Prop} {x : Reader ε β σ α} {f : α → Reader ε β σ γ}
  {reason : ε}

theorem pure {a : α} : Triple P (pure a : Reader ε β σ α) P E := fun _ _ hP => hP

theorem stop (h : ∀ value, P value → E reason value) :
    Triple P (stop reason : Reader ε β σ α) Q E := fun _ value hP => h value hP

theorem read {n : ℕ} (h : ∀ value, P value → E reason value) :
    Triple P (read n reason : Reader ε β σ (List β)) P E := by
  intro input value hP
  unfold Reader.read
  dsimp only
  by_cases hn : n ≤ input.length
  · rw [if_pos hn]
    exact hP
  · rw [if_neg hn]
    exact h value hP

theorem built : Triple P (built : Reader ε β σ σ) P E := fun _ _ hP => hP

theorem build {g : σ → σ} (h : ∀ value, P value → Q (g value)) :
    Triple P (build g : Reader ε β σ Unit) Q E := fun _ value hP => h value hP

theorem bind (hx : Triple P x Q E) (hf : ∀ a, Triple Q (f a) R E) : Triple P (x >>= f) R E := by
  intro input value hP
  have hQ := hx input value hP
  rw [bind_apply]
  rcases hxs : x (input, value) with ⟨e | a, rest, value'⟩
  · rw [hxs] at hQ
    exact hQ
  · rw [hxs] at hQ
    exact hf a rest value' hQ

/-- The invariant of a repetition. -/
theorem collect (hx : Triple P x P E) (n : ℕ) : Triple P (collect x n) P E := by
  induction n with
  | zero => exact pure
  | succ n ih =>
    apply bind hx
    intro a
    apply bind ih
    intro as
    exact pure

end Triple

end Reader

end TinyMuduo.Reading
