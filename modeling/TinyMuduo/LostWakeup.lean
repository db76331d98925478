import TinyMuduo.LoopRuns

/-!
No wake-up is lost. From the swap on the loop thread wakes itself up for what
it pushes, since `callingPendingFunctors` is set; before the swap it need not.
So outside the stretch from the return of `poll` to the swap, a pending functor
is announced by the counter or by a thread that is about to write it.
-/
namespace TinyMuduo.LoopRuns

open Runs

variable {φ : Type}

/-- The loop thread queues functors only while `loop()` is executing, in a
channel callback or in a pending functor. -/
def QueuesInLoop (s : State φ) : Input φ → Prop
  | .pushBack .loop _ => s.pc = .callback ∨ s.pc = .functor
  | _ => True

instance (s : State φ) : (i : Input φ) → Decidable (QueuesInLoop s i)
  | .pushBack .loop _ => inferInstanceAs (Decidable (s.pc = .callback ∨ s.pc = .functor))
  | .pushBack (.other _) _ | .finishQueue _ | .wakeUp | .quit | .callback | .handleRead
  | .loopStep => isTrue trivial

def LoopPc.beforeSwap : LoopPc → Bool
  | .handling | .callback | .beginFunctors | .swap => true
  | _ => false

def LoopPc.flagged : LoopPc → Bool
  | .swap | .calling | .functor | .endFunctors => true
  | _ => false

def Announced (s : State φ) : Prop :=
  s.loop.pendingFunctors = [] ∨ 0 < s.eventfd ∨ s.waking ≠ [] ∨ s.testing = true

structure Awake (s : State φ) : Prop where
  flag : s.pc.flagged = true → s.callingPendingFunctors = true
  testing : s.testing = true → s.pc = .callback ∨ s.pc = .functor
  announced : s.pc.beforeSwap = false → Announced s

theorem initial_awake (b : Bool) : Awake (initial b : State φ) :=
  ⟨by simp [initial, LoopPc.flagged], by simp [initial], fun _ => Or.inl rfl⟩

/-- The counter is positive after every `wakeUp`, a failed write included. -/
theorem wakeUp_pos (s : State φ) : 0 < (wakeUp s).eventfd := by
  simp only [wakeUp]
  split
  · omega
  · rename_i h
    have hmax : 0 < EventLoopThread.eventfdMax := by decide
    omega

theorem wakeUp_awake {s : State φ}
    (hflag : s.pc.flagged = true → s.callingPendingFunctors = true)
    (htesting : s.testing = true → s.pc = .callback ∨ s.pc = .functor) : Awake (wakeUp s) :=
  ⟨hflag, htesting, fun _ => Or.inr (Or.inl (wakeUp_pos s))⟩

theorem pushBack_awake {s : State φ} (h : Awake s) {t : Thread} {cb : φ}
    (hcond : QueuesInLoop s (.pushBack t cb)) : Awake (pushBack s t cb) := by
  cases t with
  | loop => exact ⟨h.flag, fun _ => hcond, fun _ => Or.inr (Or.inr (Or.inr rfl))⟩
  | other id =>
    refine ⟨h.flag, h.testing, fun _ => Or.inr (Or.inr (Or.inl ?_))⟩
    simp [pushBack]

theorem finishQueue_awake {s : State φ} (h : Awake s) {t : Thread}
    (hallow : Allowed s (.finishQueue t)) : Awake (finishQueue s t) := by
  cases t with
  | other id => exact wakeUp_awake h.flag h.testing
  | loop =>
    simp only [finishQueue]
    split
    · exact wakeUp_awake h.flag (by simp)
    · rename_i hunset
      -- the flag is not set, so the call came from a channel callback
      have hpc : s.pc = .callback := by
        rcases h.testing hallow with hpc | hpc
        · exact hpc
        · exact absurd (h.flag (by rw [hpc]; rfl)) hunset
      refine ⟨h.flag, by simp, ?_⟩
      intro hout
      change s.pc.beforeSwap = false at hout
      simp [hpc, LoopPc.beforeSwap] at hout

/-- A step of the loop thread that leaves the queue and the counter alone. -/
theorem Awake.move {s : State φ} (h : Awake s) (htesting : s.testing = false) (s' : State φ)
    (hsame : s'.loop.pendingFunctors = s.loop.pendingFunctors ∧ s'.eventfd = s.eventfd ∧
      s'.waking = s.waking ∧ s'.testing = s.testing)
    (hflag : s'.pc.flagged = true → s'.callingPendingFunctors = true)
    (hout : s'.pc.beforeSwap = false → s.pc.beforeSwap = false) : Awake s' := by
  obtain ⟨hpending, heventfd, hwaking, htest⟩ := hsame
  refine ⟨hflag, ?_, ?_⟩
  · rw [htest, htesting]
    intro hfalse
    cases hfalse
  · intro hswap
    have hannounced := h.announced (hout hswap)
    unfold Announced at hannounced ⊢
    rw [hpending, heventfd, hwaking, htest]
    exact hannounced

theorem loopStep_awake {s s' : State φ} (h : Awake s) (htesting : s.testing = false)
    (hexec : loopStep s = .ok s') : Awake s' := by
  have hflag := h.flag
  unfold loopStep at hexec
  split at hexec
  case h_1 hpc =>
    simp only [Checked.bind_eq_ok, Checked.require_eq_ok, Checked.pure_eq_ok,
      Except.ok.injEq] at hexec
    obtain ⟨-, -, rfl⟩ := hexec
    exact h.move htesting _ ⟨rfl, rfl, rfl, rfl⟩ (by simp [LoopPc.flagged])
      (by simp [hpc, LoopPc.beforeSwap])
  case h_3 hpc =>
    cases hexec
    refine h.move htesting _ ⟨rfl, rfl, rfl, rfl⟩ ?_ (by simp [hpc, LoopPc.beforeSwap])
    dsimp only
    split <;> simp [LoopPc.flagged]
  case h_8 hpc =>
    cases hexec
    exact h.move htesting _ ⟨rfl, rfl, rfl, rfl⟩ (fun _ => rfl) (by simp [LoopPc.beforeSwap])
  case h_9 hpc =>
    -- the swap empties the queue
    cases hexec
    rw [hpc] at hflag
    refine ⟨fun _ => hflag rfl, ?_, fun _ => Or.inl rfl⟩
    rw [htesting]
    intro hfalse
    cases hfalse
  case h_10 hpc =>
    rw [hpc] at hflag
    split at hexec
    · cases hexec
      exact h.move htesting _ ⟨rfl, rfl, rfl, rfl⟩ (fun _ => hflag rfl)
        (by simp [hpc, LoopPc.beforeSwap])
    · cases hexec
      exact h.move htesting _ ⟨rfl, rfl, rfl, rfl⟩ (fun _ => hflag rfl)
        (by simp [hpc, LoopPc.beforeSwap])
  case h_11 hpc =>
    rw [hpc] at hflag
    cases hexec
    exact h.move htesting _ ⟨rfl, rfl, rfl, rfl⟩ (fun _ => hflag rfl)
      (by simp [hpc, LoopPc.beforeSwap])
  all_goals
    rename_i hpc
    cases hexec
    exact h.move htesting _ ⟨rfl, rfl, rfl, rfl⟩ (by simp [LoopPc.flagged])
      (by simp [hpc, LoopPc.beforeSwap])

theorem step_awake {s s' : State φ} (h : Awake s) {i : Input φ} (hallow : Allowed s i)
    (hcond : QueuesInLoop s i) (hexec : exec s i = .ok s') : Awake s' := by
  cases i with
  | pushBack t cb =>
    cases hexec
    exact pushBack_awake h hcond
  | finishQueue t =>
    cases hexec
    exact finishQueue_awake h hallow
  | wakeUp =>
    cases hexec
    exact wakeUp_awake h.flag h.testing
  | quit =>
    cases hexec
    exact ⟨h.flag, h.testing, h.announced⟩
  | callback =>
    have hpc : s.pc = .handling := hallow
    cases hexec
    refine ⟨by simp [LoopPc.flagged], fun _ => Or.inl rfl, by simp [LoopPc.beforeSwap]⟩
  | handleRead =>
    have hpc : s.pc = .handling := hallow.1
    cases hexec
    refine ⟨h.flag, h.testing, ?_⟩
    simp [handleRead, hpc, LoopPc.beforeSwap]
  | loopStep => exact loopStep_awake h hallow.1 hexec

theorem reach_awake {s : State φ} (h : Reach (system φ) QueuesInLoop s) : Awake s := by
  refine h.invariant ?_ ?_
  · rintro _ ⟨b, rfl⟩
    exact initial_awake b
  · intro s i s' hs hallow hcond hexec
    exact step_awake hs hallow hcond hexec

/-- Whenever the loop thread is inside `poll` and a functor is pending, the
wakeup counter is positive or another thread is about to write it. -/
theorem no_lost_wakeup {s : State φ} (h : Reach (system φ) QueuesInLoop s)
    (hpoll : s.pc = .polling) (hpending : s.loop.pendingFunctors ≠ []) :
    0 < s.eventfd ∨ ∃ id, id ∈ s.waking := by
  have hawake := reach_awake h
  rcases hawake.announced (by rw [hpoll]; rfl) with hnil | hpos | hwaking | htesting
  · exact absurd hnil hpending
  · exact Or.inl hpos
  · exact Or.inr (List.exists_mem_of_ne_nil _ hwaking)
  · rcases hawake.testing htesting with hpc | hpc <;> simp [hpoll] at hpc

/-- The counter is read for one functor while a functor it runs queues the
next and a second thread has pushed without having written yet. -/
def pollAgainRun : List (Input ℕ) :=
  [.loopStep, .loopStep, .loopStep, .loopStep, .pushBack (.other 1) 10, .finishQueue (.other 1),
    .loopStep, .handleRead, .callback, .pushBack .loop 11, .finishQueue .loop, .loopStep,
    .loopStep, .loopStep, .loopStep, .loopStep, .pushBack .loop 20, .finishQueue .loop,
    .loopStep, .loopStep, .loopStep, .loopStep, .pushBack (.other 2) 30, .loopStep, .loopStep,
    .loopStep]

theorem pollAgainRun_announced :
    ∃ s, Reach (system ℕ) QueuesInLoop s ∧ s.loop.pendingFunctors = [20, 30] ∧
      (0 < s.eventfd ∨ ∃ id, id ∈ s.waking) := by
  obtain ⟨s, hs, htest⟩ := exists_of_replay (M := system ℕ) (s := initial true) QueuesInLoop
    ⟨_, rfl⟩ pollAgainRun (fun s => decide (s.pc = .polling ∧
      s.loop.pendingFunctors = [20, 30])) (by decide)
  obtain ⟨hpoll, hpending⟩ := of_decide_eq_true htest
  exact ⟨s, hs, hpending, no_lost_wakeup hs hpoll (by simp [hpending])⟩

end TinyMuduo.LoopRuns
