import TinyMuduo.Fault
import TinyMuduo.Lib.Checked
import TinyMuduo.Lib.Runs
import Mathlib.Algebra.Group.Nat.Defs

/-!
An EventLoopThread: the owner starts the thread, waits for the loop pointer,
calls `quit()` and joins; the thread constructs the loop, publishes it and runs
`loop()`. Every assignment or test of `isQuited`, every eventfd access and
every poll is one step. The pointer is published before `loop()` executes
`isQuited = false`, so a `quit()` that comes in between is overwritten. A
`quit()` that stores its flag after that point is never lost: the thread ends
after a bounded number of its own steps.
-/
namespace TinyMuduo.EventLoopThread

open Checked Runs

inductive LoopPc
  | notStarted
  | construct
  | publish
  | beginLoop
  | clearQuited
  | test
  | enterPoll
  | polling
  | handling
  | functors
  | endLoop
  | destruct
  | finished
  deriving DecidableEq, Repr

inductive OwnerPc
  | created
  | waiting
  | ready
  | quitWakeUp
  | exitWakeUp
  | joining
  | joined
  deriving DecidableEq, Repr

structure State where
  owner : OwnerPc
  loopPc : LoopPc
  /-- the member `loop` of EventLoopThread is not null -/
  published : Bool
  exiting : Bool
  isLooping : Bool
  isQuited : Bool
  eventfd : ℕ
  /-- the current `activeChannels` contain `wakeupChannel` -/
  woken : Bool
  quitReturned : Bool

def initial : State := ⟨.created, .notStarted, false, false, false, false, 0, false, false⟩

/-- The local EventLoop of `threadFunc` exists. -/
def LoopPc.alive : LoopPc → Bool
  | .notStarted | .construct | .finished => false
  | _ => true

/-- `loop()` has executed `isQuited = false`. -/
def LoopPc.cleared : LoopPc → Bool
  | .notStarted | .construct | .publish | .beginLoop | .clearQuited => false
  | _ => true

def eventfdMax : ℕ := 2 ^ 64 - 2

/-- `EventLoop::wakeUp`: a write that would overflow fails and is only logged. -/
def wakeUp (s : State) : State :=
  { s with eventfd := if s.eventfd < eventfdMax then s.eventfd + 1 else s.eventfd }

def loopStep (s : State) : Except Fault State :=
  match s.loopPc with
  | .notStarted | .finished => .ok s
  | .construct =>
      .ok { s with loopPc := .publish, isLooping := false, isQuited := false, eventfd := 0 }
  | .publish => .ok { s with loopPc := .beginLoop, published := true }
  | .beginLoop => do
      require (s.isLooping = false) .alreadyLooping
      return { s with loopPc := .clearQuited, isLooping := true }
  | .clearQuited => .ok { s with loopPc := .test, isQuited := false }
  | .test => .ok { s with loopPc := if s.isQuited then .endLoop else .enterPoll }
  | .enterPoll => .ok { s with loopPc := .polling }
  | .polling => .ok { s with loopPc := .handling, woken := 0 < s.eventfd }
  | .handling =>
      .ok { s with loopPc := .functors, eventfd := if s.woken then 0 else s.eventfd }
  | .functors => .ok { s with loopPc := .test }
  | .endLoop => .ok { s with loopPc := .destruct, isLooping := false }
  | .destruct => do
      require (s.isLooping = false) .destroyedWhileLooping
      return { s with loopPc := .finished }

inductive Input
  | loopStep
  | startLoop
  | returnLoop
  | quit
  | quitWakeUp
  | exit
  | exitWakeUp
  | join
  | otherWakeUp

/-- The order of the owner's steps; another thread wakes the loop up only
through a published pointer. -/
def Allowed (s : State) : Input → Prop
  | .loopStep => s.loopPc ≠ .notStarted ∧ s.loopPc ≠ .finished
  | .startLoop => s.owner = .created
  | .returnLoop => s.owner = .waiting ∧ s.published = true
  | .quit | .exit => s.owner = .ready
  | .quitWakeUp => s.owner = .quitWakeUp
  | .exitWakeUp => s.owner = .exitWakeUp
  | .join => s.owner = .joining ∧ s.loopPc = .finished
  | .otherWakeUp => s.published = true

/-- `quit` and `quitWakeUp` are the two steps of `EventLoop::quit`; `exit` and
`exitWakeUp` are those that `~EventLoopThread` makes. -/
def exec (s : State) : Input → Except Fault State
  | .loopStep => loopStep s
  | .startLoop => .ok { s with owner := .waiting, loopPc := .construct }
  | .returnLoop => .ok { s with owner := .ready }
  | .quit => do
      require (s.loopPc.alive = true) .useAfterFree
      return { s with owner := .quitWakeUp, isQuited := true }
  | .quitWakeUp => do
      require (s.loopPc.alive = true) .useAfterFree
      return { wakeUp s with owner := .ready, quitReturned := true }
  | .exit => do
      require (s.loopPc.alive = true) .useAfterFree
      return { s with owner := .exitWakeUp, exiting := true, isQuited := true }
  | .exitWakeUp => do
      require (s.loopPc.alive = true) .useAfterFree
      return { wakeUp s with owner := .joining, quitReturned := true }
  | .join => .ok { s with owner := .joined }
  | .otherWakeUp => do
      require (s.loopPc.alive = true) .useAfterFree
      return wakeUp s

def system : System State Input Fault where
  start := fun s => s = initial
  allowed := Allowed
  exec := exec

def QuitAfterClear (s : State) : Input → Prop
  | .quit | .exit => s.loopPc.cleared = true
  | _ => True

def LoopPc.atPoll : LoopPc → Bool
  | .enterPoll | .polling => true
  | _ => false

/-- Once `quit()` has returned, the loop thread does not poll with `isQuited`
equal to false. -/
def QuitLaw (s : State) : Prop :=
  s.quitReturned = true → s.loopPc.atPoll = true → s.isQuited = true

/-- The number of steps the loop thread takes at most until it ends, once
`isQuited` stays true. -/
def LoopPc.rank : LoopPc → ℕ
  | .enterPoll => 7
  | .polling => 6
  | .handling => 5
  | .functors => 4
  | .test => 3
  | .endLoop => 2
  | .destruct => 1
  | .finished => 0
  | .notStarted | .construct | .publish | .beginLoop | .clearQuited => 8

def LoopPc.looping : LoopPc → Bool
  | .clearQuited | .test | .enterPoll | .polling | .handling | .functors | .endLoop => true
  | _ => false

def State.quitStored (s : State) : Prop :=
  s.owner = .quitWakeUp ∨ s.owner = .exitWakeUp ∨ s.quitReturned = true

/-- A stored flag stays, and the wake-up of a `quit()` that has returned is
still in the counter while the loop thread has not left that poll. -/
structure Inv (s : State) : Prop where
  unstarted : s.owner = .created → s.loopPc = .notStarted ∧ s.quitReturned = false
  looping : s.isLooping = s.loopPc.looping
  stored : s.quitStored → s.loopPc.cleared = true ∧ s.isQuited = true
  awake : s.quitReturned = true → s.loopPc.atPoll = true → 0 < s.eventfd

theorem initial_inv : Inv initial := by
  refine ⟨fun _ => ⟨rfl, rfl⟩, rfl, ?_, ?_⟩
  · simp [State.quitStored, initial]
  · simp [initial]

theorem wakeUp_pos (s : State) : 0 < (wakeUp s).eventfd := by
  have hmax : 0 < eventfdMax := by decide
  simp only [wakeUp]
  split <;> omega

/-- A step of the loop thread keeps the invariant if it leaves a stored flag
alone and enters poll only with the flag still false. -/
theorem Inv.advance {s s' : State} (h : Inv s) (hpc : s.loopPc ≠ .notStarted)
    (howner : s'.owner = s.owner)
    (hreturned : s'.quitReturned = s.quitReturned) (hlooping : s'.isLooping = s'.loopPc.looping)
    (hcleared : s.loopPc.cleared = true →
      s'.loopPc.cleared = true ∧ s'.isQuited = s.isQuited)
    (hpoll : s.isQuited = true → s'.loopPc.atPoll = true →
      s.loopPc.atPoll = true ∧ s'.eventfd = s.eventfd) : Inv s' := by
  refine ⟨?_, hlooping, ?_, ?_⟩
  · intro hcreated
    rw [howner] at hcreated
    exact absurd (h.unstarted hcreated).1 hpc
  · intro hstored
    unfold State.quitStored at hstored
    rw [howner, hreturned] at hstored
    obtain ⟨hpast, hquited⟩ := h.stored hstored
    obtain ⟨hpast', hsame⟩ := hcleared hpast
    exact ⟨hpast', by rw [hsame, hquited]⟩
  · intro hret hat
    rw [hreturned] at hret
    obtain ⟨-, hquited⟩ := h.stored (Or.inr (Or.inr hret))
    obtain ⟨hat', hsame⟩ := hpoll hquited hat
    rw [hsame]
    exact h.awake hret hat'

/-- The loop thread clears the flag only before it is stored, and once it is
stored it does not enter poll again. -/
theorem loopStep_inv {s s' : State} (h : Inv s) (hexec : loopStep s = .ok s') : Inv s' := by
  have hlooping := h.looping
  cases hpc : s.loopPc with
  | notStarted | finished =>
    simp only [loopStep, hpc, Except.ok.injEq] at hexec
    subst hexec
    exact h
  | beginLoop | destruct =>
    simp only [loopStep, hpc, bind_eq_ok, require_eq_ok, pure_eq_ok, Except.ok.injEq] at hexec
    obtain ⟨-, hidle, rfl⟩ := hexec
    refine h.advance (by simp [hpc]) rfl rfl ?_ ?_ ?_
    · simp [hidle, LoopPc.looping]
    · simp [hpc, LoopPc.cleared]
    · simp [LoopPc.atPoll]
  | test =>
    simp only [loopStep, hpc, Except.ok.injEq] at hexec
    subst hexec
    rw [hpc] at hlooping
    refine h.advance (by simp [hpc]) rfl rfl ?_ ?_ ?_
    · cases hq : s.isQuited <;> simp [hlooping, LoopPc.looping]
    · cases hq : s.isQuited <;> simp [LoopPc.cleared]
    · intro hq hat
      simp [hq, LoopPc.atPoll] at hat
  | construct | publish | clearQuited | enterPoll | polling | handling | functors | endLoop =>
    simp only [loopStep, hpc, Except.ok.injEq] at hexec
    subst hexec
    rw [hpc] at hlooping
    refine h.advance (by simp [hpc]) rfl rfl ?_ ?_ ?_
    · simp [hlooping, LoopPc.looping]
    · simp [hpc, LoopPc.cleared]
    · simp [hpc, LoopPc.atPoll]

/-- A `quit()` may store its flag once the loop thread has cleared it. -/
theorem Inv.store {s s' : State} (h : Inv s) (hcleared : s.loopPc.cleared = true)
    (howner : s'.owner ≠ .created) (hpc : s'.loopPc = s.loopPc)
    (hlooping : s'.isLooping = s.isLooping) (hquited : s'.isQuited = true)
    (hreturned : s'.quitReturned = s.quitReturned) (heventfd : s'.eventfd = s.eventfd) :
    Inv s' := by
  refine ⟨fun hcreated => absurd hcreated howner, ?_, ?_, ?_⟩
  · rw [hlooping, hpc]
    exact h.looping
  · intro _
    rw [hpc]
    exact ⟨hcleared, hquited⟩
  · rw [hreturned, hpc, heventfd]
    exact h.awake

/-- A wake-up of a `quit()` that has stored its flag, and its return. -/
theorem Inv.wake {s s' : State} (h : Inv s) (hstored : s.quitStored)
    (howner : s'.owner ≠ .created) (hpc : s'.loopPc = s.loopPc)
    (hlooping : s'.isLooping = s.isLooping) (hquited : s'.isQuited = s.isQuited)
    (heventfd : 0 < s'.eventfd) : Inv s' := by
  obtain ⟨hcleared, hold⟩ := h.stored hstored
  refine ⟨fun hcreated => absurd hcreated howner, ?_, ?_, fun _ _ => heventfd⟩
  · rw [hlooping, hpc]
    exact h.looping
  · intro _
    rw [hpc, hquited]
    exact ⟨hcleared, hold⟩

theorem step_inv {s s' : State} (h : Inv s) {i : Input} (hallow : Allowed s i)
    (hcond : QuitAfterClear s i) (hexec : exec s i = .ok s') : Inv s' := by
  cases i with
  | loopStep => exact loopStep_inv h hexec
  | startLoop =>
    have hcreated : s.owner = .created := hallow
    obtain ⟨hpc, hreturned⟩ := h.unstarted hcreated
    have hlooping := h.looping
    rw [hpc] at hlooping
    simp only [exec, Except.ok.injEq] at hexec
    subst hexec
    exact ⟨by simp, hlooping, by simp [State.quitStored, hreturned], by simp [hreturned]⟩
  | returnLoop =>
    simp only [exec, Except.ok.injEq] at hexec
    subst hexec
    refine ⟨by simp, h.looping, ?_, h.awake⟩
    intro hstored
    exact h.stored (Or.inr (Or.inr (by simpa [State.quitStored] using hstored)))
  | quit | exit =>
    simp only [exec, bind_eq_ok, require_eq_ok, pure_eq_ok, Except.ok.injEq] at hexec
    obtain ⟨-, -, rfl⟩ := hexec
    exact h.store hcond (by simp) rfl rfl rfl rfl rfl
  | quitWakeUp =>
    simp only [exec, bind_eq_ok, require_eq_ok, pure_eq_ok, Except.ok.injEq] at hexec
    obtain ⟨-, -, rfl⟩ := hexec
    exact h.wake (Or.inl hallow) (by simp) rfl rfl rfl (wakeUp_pos s)
  | exitWakeUp =>
    simp only [exec, bind_eq_ok, require_eq_ok, pure_eq_ok, Except.ok.injEq] at hexec
    obtain ⟨-, -, rfl⟩ := hexec
    exact h.wake (Or.inr (Or.inl hallow)) (by simp) rfl rfl rfl (wakeUp_pos s)
  | join =>
    simp only [exec, Except.ok.injEq] at hexec
    subst hexec
    refine ⟨by simp, h.looping, ?_, h.awake⟩
    intro hstored
    exact h.stored (Or.inr (Or.inr (by simpa [State.quitStored] using hstored)))
  | otherWakeUp =>
    simp only [exec, bind_eq_ok, require_eq_ok, pure_eq_ok, Except.ok.injEq] at hexec
    obtain ⟨-, -, rfl⟩ := hexec
    exact ⟨h.unstarted, h.looping, h.stored, fun _ _ => wakeUp_pos s⟩

theorem reach_inv {s : State} (h : Reach system QuitAfterClear s) : Inv s := by
  refine h.invariant ?_ ?_
  · rintro _ rfl
    exact initial_inv
  · intro s i s' hs hallow hcond hexec
    exact step_inv hs hallow hcond hexec

/-- With the flag set, every step of the loop thread brings it closer to its
end. -/
theorem loopStep_rank {s : State} (hlooping : s.isLooping = s.loopPc.looping)
    (hcleared : s.loopPc.cleared = true) (hquited : s.isQuited = true)
    (hrunning : s.loopPc ≠ .finished) :
    ∃ s', exec s .loopStep = .ok s' ∧ s'.loopPc.rank < s.loopPc.rank := by
  cases hpc : s.loopPc with
  | notStarted | construct | publish | beginLoop | clearQuited =>
    simp [hpc, LoopPc.cleared] at hcleared
  | finished => exact absurd hpc hrunning
  | test =>
    refine ⟨{ s with loopPc := .endLoop }, ?_, by simp [LoopPc.rank]⟩
    simp [exec, loopStep, hpc, hquited]
  | destruct =>
    have hidle : s.isLooping = false := by rw [hlooping, hpc]; rfl
    refine ⟨{ s with loopPc := .finished }, ?_, by simp [LoopPc.rank]⟩
    simp [exec, loopStep, hpc, require_pos _ hidle]
  | enterPoll | polling | handling | functors | endLoop =>
    simp only [exec, loopStep, hpc]
    exact ⟨_, rfl, by simp [LoopPc.rank]⟩

/-- In every run in which `quit()` stores its flag after `loop()` cleared it:
once `quit()` has returned, the loop thread polls only with the flag set and a
readable eventfd, and every further step of it is one of at most seven. -/
theorem quit_after_clear_ends_loop {s : State} (h : Reach system QuitAfterClear s) :
    QuitLaw s ∧ (s.quitReturned = true →
      (s.loopPc.atPoll = true → 0 < s.eventfd) ∧ s.loopPc.rank ≤ 7 ∧
      (s.loopPc ≠ .finished →
        ∃ s', exec s .loopStep = .ok s' ∧ s'.loopPc.rank < s.loopPc.rank)) := by
  have hinv := reach_inv h
  constructor
  · intro hreturned _
    exact (hinv.stored (Or.inr (Or.inr hreturned))).2
  · intro hreturned
    obtain ⟨hcleared, hquited⟩ := hinv.stored (Or.inr (Or.inr hreturned))
    refine ⟨hinv.awake hreturned, ?_, loopStep_rank hinv.looping hcleared hquited⟩
    cases hpc : s.loopPc <;> simp_all [LoopPc.cleared, LoopPc.rank]

instance (s : State) : (i : Input) → Decidable (system.allowed s i)
  | .loopStep => inferInstanceAs (Decidable (s.loopPc ≠ .notStarted ∧ s.loopPc ≠ .finished))
  | .startLoop => inferInstanceAs (Decidable (s.owner = .created))
  | .returnLoop => inferInstanceAs (Decidable (s.owner = .waiting ∧ s.published = true))
  | .quit | .exit => inferInstanceAs (Decidable (s.owner = .ready))
  | .quitWakeUp => inferInstanceAs (Decidable (s.owner = .quitWakeUp))
  | .exitWakeUp => inferInstanceAs (Decidable (s.owner = .exitWakeUp))
  | .join => inferInstanceAs (Decidable (s.owner = .joining ∧ s.loopPc = .finished))
  | .otherWakeUp => inferInstanceAs (Decidable (s.published = true))

instance (s : State) : (i : Input) → Decidable (QuitAfterClear s i)
  | .quit | .exit => inferInstanceAs (Decidable (s.loopPc.cleared = true))
  | .loopStep | .startLoop | .returnLoop | .quitWakeUp | .exitWakeUp | .join
  | .otherWakeUp => isTrue trivial

def lateExit : List Input :=
  [.startLoop, .loopStep, .loopStep, .returnLoop, .loopStep, .loopStep, .loopStep, .loopStep,
    .exit, .exitWakeUp]

theorem lateExit_ends : ∃ s, Reach system QuitAfterClear s ∧ s.quitReturned = true ∧
    s.loopPc = .polling ∧ s.isQuited = true ∧
    ∃ s', exec s .loopStep = .ok s' ∧ s'.loopPc.rank < 6 := by
  obtain ⟨s, hs, htest⟩ := exists_of_replay (M := system) QuitAfterClear rfl lateExit
    (fun s => decide (s.quitReturned = true ∧ s.loopPc = .polling)) (by decide)
  obtain ⟨hreturned, hpolling⟩ := of_decide_eq_true htest
  obtain ⟨hlaw, hends⟩ := quit_after_clear_ends_loop hs
  obtain ⟨s', hexec, hrank⟩ := (hends hreturned).2.2 (by simp [hpolling])
  rw [hpolling] at hrank
  exact ⟨s, hs, hreturned, hpolling, hlaw hreturned (by simp [hpolling, LoopPc.atPoll]),
    s', hexec, hrank⟩

/-- `quit()` runs between the publication of the pointer and `loop()`; after
one more iteration the loop waits in poll with nothing left to wake it. -/
def earlyQuit : List Input :=
  [.startLoop, .loopStep, .loopStep, .returnLoop, .quit, .quitWakeUp, .loopStep, .loopStep,
    .loopStep, .loopStep, .loopStep, .loopStep, .loopStep, .loopStep, .loopStep]

theorem earlyQuit_lost : ¬ ∀ s, Reachable system s → QuitLaw s := by
  intro hall
  obtain ⟨s, hs, htest⟩ := exists_of_replay (M := system) Free rfl earlyQuit
    (fun s => decide (s.quitReturned = true ∧ s.loopPc = .polling ∧ s.isQuited = false ∧
      s.eventfd = 0)) (by decide)
  obtain ⟨hreturned, hpolling, hquited, -⟩ := of_decide_eq_true htest
  have hlaw := hall s hs hreturned (by simp [hpolling, LoopPc.atPoll])
  rw [hquited] at hlaw
  simp at hlaw

end TinyMuduo.EventLoopThread
