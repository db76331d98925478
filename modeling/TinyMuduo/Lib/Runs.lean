import Mathlib.Data.List.Basic

/-!
Runs of a program whose steps can fail. A system has start states, inputs the
environment may offer in a state, and an execution function that returns the
next state or the assertion that failed. A failed assertion ends the run, so
only successful steps extend one. Conditions on steps are part of reachability:
this is how a law that holds under a side condition is stated over whole runs.
-/
namespace TinyMuduo.Runs

structure System (σ ι ε : Type*) where
  start : σ → Prop
  allowed : σ → ι → Prop
  exec : σ → ι → Except ε σ

variable {σ ι ε : Type*} {M : System σ ι ε} {cond : σ → ι → Prop}

/-- States reached by runs whose every step meets `cond`. -/
inductive Reach (M : System σ ι ε) (cond : σ → ι → Prop) : σ → Prop
  | start {s : σ} : M.start s → Reach M cond s
  | step {s s' : σ} {i : ι} : Reach M cond s → M.allowed s i → cond s i →
      M.exec s i = .ok s' → Reach M cond s'

def Free (_ : σ) (_ : ι) : Prop := True

abbrev Reachable (M : System σ ι ε) : σ → Prop := Reach M Free

/-- What holds initially and survives every permitted step holds of every
reached state. -/
theorem Reach.invariant {I : σ → Prop} (h0 : ∀ s, M.start s → I s)
    (hstep : ∀ s i s', I s → M.allowed s i → cond s i → M.exec s i = .ok s' → I s')
    {s : σ} (h : Reach M cond s) : I s := by
  induction h with
  | start h => exact h0 _ h
  | step _ hallow hcond hexec ih => exact hstep _ _ _ ih hallow hcond hexec

theorem Reach.free {s : σ} (h : Reach M cond s) : Reachable M s := by
  induction h with
  | start h => exact .start h
  | step _ hallow _ hexec ih => exact .step ih hallow trivial hexec

/-- A run with its history: every earlier state with the input it received. -/
inductive Run (M : System σ ι ε) : List (σ × ι) → σ → Prop
  | start {s : σ} : M.start s → Run M [] s
  | step {past : List (σ × ι)} {s s' : σ} {i : ι} : Run M past s → M.allowed s i →
      M.exec s i = .ok s' → Run M (past ++ [(s, i)]) s'

theorem Run.reach {past : List (σ × ι)} {s : σ} (h : Run M past s)
    (hcond : ∀ p ∈ past, cond p.1 p.2) : Reach M cond s := by
  induction h with
  | start h0 => exact .start h0
  | step _ hallow hexec ih =>
    refine .step (ih fun p hp => hcond p (List.mem_append_left _ hp)) hallow ?_ hexec
    exact hcond _ (List.mem_append_right _ (List.mem_singleton_self _))

/-- What one step of a run establishes, and every later step of the run keeps,
holds from then on. -/
theorem Run.after {P : σ → Prop} {s₀ : σ} {i₀ : ι} (hset : ∀ s, M.exec s₀ i₀ = .ok s → P s)
    (hkeep : ∀ s i s', P s → M.allowed s i → cond s i → M.exec s i = .ok s' → P s')
    {past : List (σ × ι)} {s : σ} (h : Run M past s) {before after : List (σ × ι)}
    (hpast : past = before ++ (s₀, i₀) :: after) (hcond : ∀ p ∈ after, cond p.1 p.2) :
    (∀ p ∈ after, P p.1 ∧ M.allowed p.1 p.2) ∧ P s := by
  induction h generalizing after with
  | start h => simp at hpast
  | @step past s s' i _ hallow hexec ih =>
    rcases List.eq_nil_or_concat after with rfl | ⟨init, last, rfl⟩
    · obtain ⟨-, hlast⟩ := List.append_inj' hpast rfl
      obtain ⟨rfl, rfl⟩ : s = s₀ ∧ i = i₀ := by simpa using hlast
      exact ⟨by simp, hset s' hexec⟩
    · rw [List.concat_eq_append, ← List.cons_append, ← List.append_assoc] at hpast
      obtain ⟨hinit, hlast⟩ := List.append_inj' hpast rfl
      obtain rfl : (s, i) = last := by simpa using hlast
      simp only [List.concat_eq_append, List.mem_append, List.mem_singleton] at hcond ⊢
      obtain ⟨hpasts, hs⟩ := ih hinit fun p hp => hcond p (Or.inl hp)
      refine ⟨?_, hkeep s i s' hs hallow (hcond _ (Or.inr rfl)) hexec⟩
      rintro p (hp | rfl)
      · exact hpasts p hp
      · exact ⟨hs, hallow⟩

/-- A law holds in every state of a run exactly when every step meets the
condition, provided it holds at the start and one step keeps it exactly under
the condition. -/
theorem Run.law_iff {law : σ → Prop} (h0 : ∀ s, M.start s → law s)
    (hstep : ∀ s i s', Reach M cond s → law s → M.allowed s i → M.exec s i = .ok s' →
      (law s' ↔ cond s i))
    {past : List (σ × ι)} {s : σ} (h : Run M past s) :
    ((∀ p ∈ past, law p.1) ∧ law s) ↔ ∀ p ∈ past, cond p.1 p.2 := by
  induction h with
  | start h => simp [h0 _ h]
  | @step past s s' i hrun hallow hexec ih =>
    constructor
    · rintro ⟨hpast, hlast⟩
      have hs : law s := hpast (s, i) (by simp)
      have hold := ih.mp ⟨fun p hp => hpast p (List.mem_append_left _ hp), hs⟩
      intro p hp
      rcases List.mem_append.mp hp with hp | hp
      · exact hold p hp
      · obtain rfl := List.mem_singleton.mp hp
        exact (hstep s i s' (hrun.reach hold) hs hallow hexec).mp hlast
    · intro hall
      have hold : ∀ p ∈ past, cond p.1 p.2 := fun p hp => hall p (List.mem_append_left _ hp)
      obtain ⟨hpast, hs⟩ := ih.mpr hold
      refine ⟨?_, (hstep s i s' (hrun.reach hold) hs hallow hexec).mpr
        (hall (s, i) (by simp))⟩
      intro p hp
      rcases List.mem_append.mp hp with hp | hp
      · exact hpast p hp
      · obtain rfl := List.mem_singleton.mp hp
        exact hs

/-- Execute a list of inputs, checking the environment's contract and the side
condition on the way. -/
def System.replay (M : System σ ι ε) (cond : σ → ι → Prop) [∀ s i, Decidable (M.allowed s i)]
    [∀ s i, Decidable (cond s i)] : σ → List ι → Option σ
  | s, [] => some s
  | s, i :: rest =>
      if M.allowed s i ∧ cond s i then
        match M.exec s i with
        | .ok s' => M.replay cond s' rest
        | .error _ => none
      else none

instance (s : σ) (i : ι) : Decidable (Free s i) := isTrue trivial

section Replay

variable [∀ s i, Decidable (M.allowed s i)]

/-- A replayed list of inputs extends a run, and its steps meet the condition. -/
theorem replay_run [∀ s i, Decidable (cond s i)] (inputs : List ι) {past : List (σ × ι)}
    {s s' : σ} (hrun : Run M past s) (hpast : ∀ p ∈ past, cond p.1 p.2)
    (h : M.replay cond s inputs = some s') :
    ∃ all, Run M all s' ∧ all.map Prod.snd = past.map Prod.snd ++ inputs ∧
      ∀ p ∈ all, cond p.1 p.2 := by
  induction inputs generalizing past s with
  | nil =>
    obtain rfl : s = s' := by simpa [System.replay] using h
    exact ⟨past, hrun, by simp, hpast⟩
  | cons i rest ih =>
    unfold System.replay at h
    split at h
    · rename_i hstep
      split at h
      · rename_i next hexec
        have hnext : ∀ p ∈ past ++ [(s, i)], cond p.1 p.2 := by
          intro p hp
          rcases List.mem_append.mp hp with hp | hp
          · exact hpast p hp
          · obtain rfl := List.mem_singleton.mp hp
            exact hstep.2
        obtain ⟨all, hall, hinputs, hconds⟩ := ih (hrun.step hstep.1 hexec) hnext h
        exact ⟨all, hall, by simpa using hinputs, hconds⟩
      · simp at h
    · simp at h

/-- A replayed trace whose last state passes a test is a run to such a state. -/
theorem exists_run_of_replay (cond : σ → ι → Prop) [∀ s i, Decidable (cond s i)] {s : σ}
    (hs : M.start s) (inputs : List ι) (test : σ → Bool)
    (h : (M.replay cond s inputs).map test = some true) :
    ∃ past s', Run M past s' ∧ past.map Prod.snd = inputs ∧ (∀ p ∈ past, cond p.1 p.2) ∧
      test s' = true := by
  cases hr : M.replay cond s inputs with
  | none => simp [hr] at h
  | some s' =>
    obtain ⟨past, hrun, hinputs, hcond⟩ := replay_run inputs (Run.start hs) (by simp) hr
    exact ⟨past, s', hrun, by simpa using hinputs, hcond, by simpa [hr] using h⟩

theorem exists_of_replay (cond : σ → ι → Prop) [∀ s i, Decidable (cond s i)] {s : σ}
    (hs : M.start s) (inputs : List ι) (test : σ → Bool)
    (h : (M.replay cond s inputs).map test = some true) :
    ∃ s', Reach M cond s' ∧ test s' = true := by
  obtain ⟨past, s', hrun, -, hcond, htest⟩ := exists_run_of_replay cond hs inputs test h
  exact ⟨s', hrun.reach hcond, htest⟩

end Replay

end TinyMuduo.Runs
