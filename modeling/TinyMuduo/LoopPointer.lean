import TinyMuduo.EventLoopThread
import Mathlib.Logic.Relation

/-!
The pointer that an EventLoopThread keeps to the loop of its thread. It is
published when the loop has been constructed and never taken back, and the
destructor calls `quit()` through it. The owner starts the thread at most once,
uses the returned pointer, may tell the loop to quit once, and then runs the
destructor. Whether the loop still exists is up to the loop thread as soon as
`isQuited` has been stored for it to see, and the destructor's own `quit()`
stores it before it makes its last access.
-/
namespace TinyMuduo.LoopPointer

open Checked Runs EventLoopThread

inductive Input
  | loopStep
  | startLoop
  | returnLoop
  | runInLoop
  | quit
  | quitWakeUp
  | destroy
  | exitWakeUp
  | join

/-- The steps of the owner and of the loop thread. `runInLoop` and `quit` are
called before the loop was told to quit. -/
def Allowed (s : State) : Input → Prop
  | .loopStep => s.loopPc ≠ .notStarted ∧ s.loopPc ≠ .finished
  | .startLoop => s.owner = .created
  | .returnLoop => s.owner = .waiting ∧ s.published = true
  | .runInLoop | .quit => s.owner = .ready ∧ s.quitReturned = false
  | .quitWakeUp => s.owner = .quitWakeUp
  | .destroy => s.owner = .created ∨ s.owner = .ready
  | .exitWakeUp => s.owner = .exitWakeUp
  | .join => s.owner = .joining ∧ s.loopPc = .finished

/-- `runInLoop` of another thread queues the functor and wakes the loop up.
`destroy` is `~EventLoopThread` up to the store of `quit()`. -/
def exec (s : State) : Input → Except Fault State
  | .loopStep => EventLoopThread.exec s .loopStep
  | .startLoop => EventLoopThread.exec s .startLoop
  | .returnLoop => EventLoopThread.exec s .returnLoop
  | .runInLoop => EventLoopThread.exec s .otherWakeUp
  | .quit => EventLoopThread.exec s .quit
  | .quitWakeUp => EventLoopThread.exec s .quitWakeUp
  | .destroy => do
      require (s.published = true) .nullPointer
      EventLoopThread.exec s .exit
  | .exitWakeUp => EventLoopThread.exec s .exitWakeUp
  | .join => EventLoopThread.exec s .join

def system : System State Input Fault where
  start := fun s => s = initial
  allowed := Allowed
  exec := exec

instance (s : State) : (i : Input) → Decidable (system.allowed s i)
  | .loopStep => inferInstanceAs (Decidable (s.loopPc ≠ .notStarted ∧ s.loopPc ≠ .finished))
  | .startLoop => inferInstanceAs (Decidable (s.owner = .created))
  | .returnLoop => inferInstanceAs (Decidable (s.owner = .waiting ∧ s.published = true))
  | .runInLoop | .quit =>
      inferInstanceAs (Decidable (s.owner = .ready ∧ s.quitReturned = false))
  | .quitWakeUp => inferInstanceAs (Decidable (s.owner = .quitWakeUp))
  | .destroy => inferInstanceAs (Decidable (s.owner = .created ∨ s.owner = .ready))
  | .exitWakeUp => inferInstanceAs (Decidable (s.owner = .exitWakeUp))
  | .join => inferInstanceAs (Decidable (s.owner = .joining ∧ s.loopPc = .finished))

def PointerValid (s : State) : Prop := s.published = true ∧ s.loopPc.alive = true

def published : LoopPc → Bool
  | .notStarted | .construct | .publish => false
  | _ => true

def left : LoopPc → Bool
  | .endLoop | .destruct | .finished => true
  | _ => false

structure Inv (s : State) : Prop where
  looping : s.isLooping = s.loopPc.looping
  pointer : s.published = published s.loopPc
  unstarted : s.owner = .created ↔ s.loopPc = .notStarted
  returned : s.owner ≠ .created → s.owner ≠ .waiting → s.published = true
  untold : s.owner = .created ∨ s.owner = .waiting → s.isQuited = false
  told : left s.loopPc = true → s.isQuited = true

theorem initial_inv : Inv initial := by
  refine ⟨rfl, rfl, ?_, ?_, fun _ => rfl, ?_⟩
  · simp [initial]
  · simp [initial]
  · simp [initial, left]

/-- A step of the loop thread never sets the flag, and leaves the loop only when
it is set. -/
theorem Inv.advance {s s' : State} (h : Inv s) (hpc : s.loopPc ≠ .notStarted)
    (howner : s'.owner = s.owner) (hnext : s'.loopPc ≠ .notStarted)
    (hlooping : s'.isLooping = s'.loopPc.looping) (hpointer : s'.published = published s'.loopPc)
    (hkept : s.published = true → s'.published = true)
    (hquited : s'.isQuited = true → s.isQuited = true)
    (hleft : left s'.loopPc = true → s'.isQuited = true) : Inv s' := by
  have hcreated : s.owner ≠ .created := fun hc => hpc (h.unstarted.mp hc)
  refine ⟨hlooping, hpointer, ?_, ?_, ?_, hleft⟩
  · rw [howner]
    exact ⟨fun hc => absurd hc hcreated, fun hc => absurd hc hnext⟩
  · rw [howner]
    exact fun _ hwaiting => hkept (h.returned hcreated hwaiting)
  · rw [howner]
    intro huntold
    by_contra htold
    rw [Bool.not_eq_false] at htold
    rw [h.untold huntold] at hquited
    cases hquited htold

theorem loopStep_inv {s s' : State} (h : Inv s) (hpc : s.loopPc ≠ .notStarted)
    (hexec : loopStep s = .ok s') : Inv s' := by
  have hlooping := h.looping
  have hpointer := h.pointer
  have htold := h.told
  cases hcase : s.loopPc with
  | notStarted => exact absurd hcase hpc
  | finished =>
    simp only [loopStep, hcase, Except.ok.injEq] at hexec
    subst hexec
    exact h
  | beginLoop | destruct =>
    simp only [loopStep, hcase, bind_eq_ok, require_eq_ok, pure_eq_ok, Except.ok.injEq] at hexec
    obtain ⟨-, hidle, rfl⟩ := hexec
    rw [hcase] at hpointer htold
    refine h.advance hpc rfl (by simp) ?_ hpointer id id ?_
    · simp [hidle, LoopPc.looping]
    · simp_all [left]
  | test =>
    simp only [loopStep, hcase, Except.ok.injEq] at hexec
    rw [hcase] at hlooping hpointer
    by_cases hquited : s.isQuited = true
    · rw [if_pos hquited] at hexec
      subst hexec
      exact h.advance hpc rfl (by simp) hlooping hpointer id id (fun _ => hquited)
    · rw [if_neg hquited] at hexec
      subst hexec
      exact h.advance hpc rfl (by simp) hlooping hpointer id id (by simp [left])
  | construct | publish | clearQuited | enterPoll | polling | handling | functors | endLoop =>
    simp only [loopStep, hcase, Except.ok.injEq] at hexec
    subst hexec
    rw [hcase] at hlooping hpointer htold
    refine h.advance hpc rfl (by simp) ?_ ?_ ?_ ?_ ?_
    · simp [hlooping, LoopPc.looping]
    · simp [hpointer, published]
    · simp
    · simp
    · simp_all [left]

/-- What the owner does to the loop through its pointer. -/
theorem Inv.ownerStep {s s' : State} (h : Inv s) (howner : s.owner ≠ .created)
    (hwaiting : s.owner ≠ .waiting) (howner' : s'.owner ≠ .created)
    (hwaiting' : s'.owner ≠ .waiting) (hpc : s'.loopPc = s.loopPc)
    (hlooping : s'.isLooping = s.isLooping) (hpointer : s'.published = s.published)
    (hquited : s.isQuited = true → s'.isQuited = true) : Inv s' := by
  refine ⟨?_, ?_, ?_, ?_, ?_, ?_⟩
  · rw [hlooping, hpc]
    exact h.looping
  · rw [hpointer, hpc]
    exact h.pointer
  · rw [hpc]
    exact ⟨fun hc => absurd hc howner', fun hc => absurd (h.unstarted.mpr hc) howner⟩
  · intro _ _
    rw [hpointer]
    exact h.returned howner hwaiting
  · rintro (hc | hc)
    · exact absurd hc howner'
    · exact absurd hc hwaiting'
  · rw [hpc]
    exact fun hleft => hquited (h.told hleft)

/-- What the destructor has done when it has stored the flag. -/
theorem destroy_cases {s stored : State} (hexec : exec s .destroy = .ok stored) :
    s.published = true ∧
      stored = { s with owner := .exitWakeUp, exiting := true, isQuited := true } := by
  simp only [exec, EventLoopThread.exec, bind_eq_ok, require_eq_ok, pure_eq_ok,
    Except.ok.injEq] at hexec
  obtain ⟨-, hpublished, -, -, rfl⟩ := hexec
  exact ⟨hpublished, rfl⟩

theorem step_inv {s s' : State} (h : Inv s) {i : Input} (hallow : Allowed s i)
    (hexec : exec s i = .ok s') : Inv s' := by
  cases i with
  | loopStep => exact loopStep_inv h hallow.1 hexec
  | startLoop =>
    have hcreated : s.owner = .created := hallow
    have hpc := h.unstarted.mp hcreated
    have hlooping := h.looping
    have hpointer := h.pointer
    rw [hpc] at hlooping hpointer
    cases hexec
    refine ⟨hlooping, hpointer, by simp, by simp, fun _ => h.untold (Or.inl hcreated), ?_⟩
    simp [left]
  | returnLoop =>
    obtain ⟨hwaiting, hpublished⟩ : s.owner = .waiting ∧ s.published = true := hallow
    have hpc : s.loopPc ≠ .notStarted := by
      intro hpc
      have hcreated := h.unstarted.mpr hpc
      rw [hwaiting] at hcreated
      cases hcreated
    cases hexec
    refine ⟨h.looping, h.pointer, ?_, fun _ _ => hpublished, by simp, h.told⟩
    exact ⟨by simp, fun hc => absurd hc hpc⟩
  | runInLoop =>
    obtain ⟨hready, -⟩ : s.owner = .ready ∧ s.quitReturned = false := hallow
    simp only [exec, EventLoopThread.exec, bind_eq_ok, require_eq_ok, pure_eq_ok,
      Except.ok.injEq] at hexec
    obtain ⟨-, -, rfl⟩ := hexec
    exact h.ownerStep (by simp [hready]) (by simp [hready]) (by simp [wakeUp, hready])
      (by simp [wakeUp, hready]) rfl rfl rfl id
  | quit =>
    obtain ⟨hready, -⟩ : s.owner = .ready ∧ s.quitReturned = false := hallow
    simp only [exec, EventLoopThread.exec, bind_eq_ok, require_eq_ok, pure_eq_ok,
      Except.ok.injEq] at hexec
    obtain ⟨-, -, rfl⟩ := hexec
    exact h.ownerStep (by simp [hready]) (by simp [hready]) (by simp) (by simp) rfl rfl rfl
      fun _ => rfl
  | quitWakeUp | exitWakeUp =>
    simp only [exec, EventLoopThread.exec, bind_eq_ok, require_eq_ok, pure_eq_ok,
      Except.ok.injEq] at hexec
    obtain ⟨-, -, rfl⟩ := hexec
    exact h.ownerStep (by simp [show s.owner = _ from hallow])
      (by simp [show s.owner = _ from hallow]) (by simp) (by simp) rfl rfl rfl id
  | destroy =>
    obtain ⟨hpublished, rfl⟩ := destroy_cases hexec
    have hready : s.owner = .ready := by
      refine hallow.resolve_left ?_
      intro hcreated
      have hpointer := h.pointer
      rw [hpublished, h.unstarted.mp hcreated] at hpointer
      cases hpointer
    exact h.ownerStep (by simp [hready]) (by simp [hready]) (by simp) (by simp) rfl rfl rfl
      fun _ => rfl
  | join =>
    have hjoining : s.owner = .joining := hallow.1
    cases hexec
    exact h.ownerStep (by simp [hjoining]) (by simp [hjoining]) (by simp) (by simp) rfl rfl rfl id

theorem reach_inv {s : State} (h : Reachable system s) : Inv s := by
  refine h.invariant ?_ ?_
  · rintro _ rfl
    exact initial_inv
  · intro s i s' hs hallow _ hexec
    exact step_inv hs hallow hexec

def LoopStep (s s' : State) : Prop := Allowed s .loopStep ∧ exec s .loopStep = .ok s'

abbrev LoopSteps : State → State → Prop := Relation.ReflTransGen LoopStep

/-- Some `quit()` was stored behind the assignment with which `loop()` begins. -/
def Told (s : State) : Prop := s.isQuited = true ∧ s.loopPc.cleared = true

/-- A step of the loop thread leaves the owner where it is and does not change
whether the loop was told to quit. -/
theorem loopStep_told {s s' : State} (h : LoopStep s s') :
    s'.owner = s.owner ∧ (Told s' ↔ Told s) := by
  obtain ⟨⟨hstarted, hrunning⟩, hexec⟩ := h
  cases hcase : s.loopPc with
  | notStarted => exact absurd hcase hstarted
  | finished => exact absurd hcase hrunning
  | beginLoop | destruct =>
    simp only [exec, EventLoopThread.exec, loopStep, hcase, bind_eq_ok, require_eq_ok, pure_eq_ok,
      Except.ok.injEq] at hexec
    obtain ⟨-, -, rfl⟩ := hexec
    simp [Told, hcase, LoopPc.cleared]
  | test =>
    simp only [exec, EventLoopThread.exec, loopStep, hcase, Except.ok.injEq] at hexec
    subst hexec
    cases hquited : s.isQuited <;> simp [Told, hcase, hquited, LoopPc.cleared]
  | construct | publish | clearQuited | enterPoll | polling | handling | functors | endLoop =>
    simp only [exec, EventLoopThread.exec, loopStep, hcase, Except.ok.injEq] at hexec
    subst hexec
    simp [Told, hcase, LoopPc.cleared]

theorem loopSteps_told {s s' : State} (h : LoopSteps s s') (hinv : Inv s) :
    Inv s' ∧ s'.owner = s.owner ∧ (Told s' ↔ Told s) := by
  induction h with
  | refl => exact ⟨hinv, rfl, Iff.rfl⟩
  | tail _ hstep ih =>
    obtain ⟨hinv', howner, htold⟩ := ih
    obtain ⟨howner', htold'⟩ := loopStep_told hstep
    exact ⟨loopStep_inv hinv' hstep.1.1 hstep.2, howner'.trans howner, htold'.trans htold⟩

/-- A published loop that was not told to quit exists. -/
theorem alive_of_untold {s : State} (h : Inv s) (hpublished : s.published = true)
    (huntold : ¬ Told s) : s.loopPc.alive = true := by
  have hpointer := h.pointer
  have htold := h.told
  rw [hpublished] at hpointer
  cases hcase : s.loopPc with
  | notStarted | construct =>
    rw [hcase] at hpointer
    cases hpointer
  | finished =>
    rw [hcase] at htold
    exact absurd ⟨htold rfl, by rw [hcase]; rfl⟩ huntold
  | publish | beginLoop | clearQuited | test | enterPoll | polling | handling | functors
  | endLoop | destruct => rfl

/-- A loop that was told to quit is destroyed when its thread goes on. -/
theorem told_destroyed {s : State} (h : Inv s) (htold : Told s) :
    ∃ s', LoopSteps s s' ∧ s'.loopPc = .finished := by
  induction hrank : s.loopPc.rank using Nat.strongRecOn generalizing s with
  | ind n ih =>
    obtain ⟨hquited, hcleared⟩ := htold
    by_cases hend : s.loopPc = .finished
    · exact ⟨s, .refl, hend⟩
    · obtain ⟨s₁, hexec, hlt⟩ := loopStep_rank h.looping hcleared hquited hend
      have hstarted : s.loopPc ≠ .notStarted := by
        intro hpc
        rw [hpc] at hcleared
        cases hcleared
      have hstep : LoopStep s s₁ := ⟨⟨hstarted, hend⟩, hexec⟩
      have htold₁ := (loopStep_told hstep).2.mpr ⟨hquited, hcleared⟩
      obtain ⟨s', hsteps, hfinished⟩ :=
        ih s₁.loopPc.rank (by omega) (loopStep_inv h hstarted hexec) htold₁ rfl
      exact ⟨s', .head hstep hsteps, hfinished⟩

/-- The pointer that `startLoop` returns is that of an existing loop. -/
theorem returned_valid {s : State} (h : Inv s) (hreturn : Allowed s .returnLoop) :
    PointerValid s := by
  obtain ⟨hwaiting, hpublished⟩ := hreturn
  refine ⟨hpublished, alive_of_untold h hpublished ?_⟩
  rintro ⟨hquited, -⟩
  rw [h.untold (Or.inr hwaiting)] at hquited
  cases hquited

/-- Without `startLoop` the destructor meets a null pointer. -/
theorem ready_of_valid {s : State} (h : Inv s) (hdestroy : Allowed s .destroy)
    (hvalid : PointerValid s) : s.owner = .ready := by
  refine hdestroy.resolve_left ?_
  intro hcreated
  have hpublished := hvalid.1
  rw [h.pointer, h.unstarted.mp hcreated] at hpublished
  cases hpublished

theorem valid_of_untold {s : State} (h : Inv s) (hcreated : s.owner ≠ .created)
    (hwaiting : s.owner ≠ .waiting) (huntold : ¬ Told s) : PointerValid s := by
  have hpublished := h.returned hcreated hwaiting
  exact ⟨hpublished, alive_of_untold h hpublished huntold⟩

/-- The first access of the destructor is good however far the loop thread goes
before it, if and only if `startLoop` has returned and `loop()` was not told to
quit after it began. -/
theorem destructor_store_valid_iff {s : State} (h : Inv s) (hdestroy : Allowed s .destroy) :
    (∀ s', LoopSteps s s' → PointerValid s') ↔ s.owner = .ready ∧ ¬ Told s := by
  constructor
  · intro hvalid
    refine ⟨ready_of_valid h hdestroy (hvalid s .refl), ?_⟩
    intro htold
    obtain ⟨s', hsteps, hfinished⟩ := told_destroyed h htold
    have halive := (hvalid s' hsteps).2
    rw [hfinished] at halive
    cases halive
  · rintro ⟨hready, huntold⟩ s' hsteps
    obtain ⟨hinv', howner, htold⟩ := loopSteps_told hsteps h
    exact valid_of_untold hinv' (by simp [howner, hready]) (by simp [howner, hready])
      (mt htold.mp huntold)

/-- The whole `quit()` of the destructor finds the loop: the store of the flag,
and what comes after it however far the loop thread has gone in between. -/
def CallValid (s : State) : Prop :=
  PointerValid s ∧ ∃ stored, exec s .destroy = .ok stored ∧
    ∀ s', LoopSteps stored s' → PointerValid s'

/-- The destructor runs when `startLoop` has returned and `loop()` has not yet
executed `isQuited = false`. -/
def BeforeLoop (s : State) : Input → Prop
  | .destroy => s.owner = .ready ∧ s.loopPc.cleared = false
  | .loopStep | .startLoop | .returnLoop | .runInLoop | .quit | .quitWakeUp | .exitWakeUp | .join =>
      True

instance (s : State) : (i : Input) → Decidable (BeforeLoop s i)
  | .destroy => inferInstanceAs (Decidable (s.owner = .ready ∧ s.loopPc.cleared = false))
  | .loopStep | .startLoop | .returnLoop | .runInLoop | .quit | .quitWakeUp | .exitWakeUp | .join =>
      isTrue trivial

theorem destroy_ok {s : State} (hvalid : PointerValid s) :
    ∃ stored, exec s .destroy = .ok stored := by
  simp only [exec, EventLoopThread.exec, require_pos _ hvalid.1, require_pos _ hvalid.2, ok_bind]
  exact ⟨_, rfl⟩

/-- The store is overwritten if it comes before the assignment of `loop()`, and
nothing keeps the loop if it comes after it. -/
theorem callValid_iff {s : State} (h : Inv s) (hdestroy : Allowed s .destroy) :
    CallValid s ↔ BeforeLoop s .destroy := by
  constructor
  · rintro ⟨hvalid, stored, hexec, hafter⟩
    refine ⟨ready_of_valid h hdestroy hvalid, ?_⟩
    by_contra hcleared
    have hinv := step_inv h hdestroy hexec
    obtain ⟨-, rfl⟩ := destroy_cases hexec
    obtain ⟨s', hsteps, hfinished⟩ := told_destroyed hinv ⟨rfl, by simpa using hcleared⟩
    have halive := (hafter s' hsteps).2
    rw [hfinished] at halive
    cases halive
  · rintro ⟨hready, hcleared⟩
    have huntold : ∀ t : State, t.loopPc = s.loopPc → ¬ Told t := by
      rintro t hpc ⟨-, hpast⟩
      rw [hpc, hcleared] at hpast
      cases hpast
    have hvalid := valid_of_untold h (by simp [hready]) (by simp [hready]) (huntold s rfl)
    obtain ⟨stored, hexec⟩ := destroy_ok hvalid
    have hinv := step_inv h hdestroy hexec
    refine ⟨hvalid, stored, hexec, ?_⟩
    obtain ⟨-, rfl⟩ := destroy_cases hexec
    intro s' hsteps
    obtain ⟨hinv', howner, htold⟩ := loopSteps_told hsteps hinv
    exact valid_of_untold hinv' (by simp [howner]) (by simp [howner])
      (mt htold.mp (huntold _ rfl))

/-- Between the two accesses of the destructor the loop was not told to quit. -/
theorem exiting_untold {s : State} (h : Reach system BeforeLoop s) :
    Inv s ∧ (s.owner = .exitWakeUp → ¬ Told s) := by
  refine h.invariant (I := fun s => Inv s ∧ (s.owner = .exitWakeUp → ¬ Told s)) ?_ ?_
  · rintro _ rfl
    exact ⟨initial_inv, by simp [initial]⟩
  · rintro s i s' ⟨hinv, huntold⟩ hallow hcond hexec
    refine ⟨step_inv hinv hallow hexec, ?_⟩
    intro hexit
    cases i with
    | loopStep =>
      obtain ⟨howner, htold⟩ := loopStep_told ⟨hallow, hexec⟩
      exact mt htold.mp (huntold (howner.symm.trans hexit))
    | destroy =>
      obtain ⟨-, rfl⟩ := destroy_cases hexec
      rintro ⟨-, hpast⟩
      have hcleared : s.loopPc.cleared = true := hpast
      rw [hcond.2] at hcleared
      cases hcleared
    | startLoop | returnLoop | join =>
      cases hexec
      cases hexit
    | runInLoop =>
      simp only [system, exec, EventLoopThread.exec, bind_eq_ok, require_eq_ok, pure_eq_ok,
        Except.ok.injEq] at hexec
      obtain ⟨-, -, rfl⟩ := hexec
      have hready : s.owner = .ready := hallow.1
      simp [wakeUp, hready] at hexit
    | quit | quitWakeUp | exitWakeUp =>
      simp only [system, exec, EventLoopThread.exec, bind_eq_ok, require_eq_ok, pure_eq_ok,
        Except.ok.injEq] at hexec
      obtain ⟨-, -, rfl⟩ := hexec
      cases hexit

/-- In every reachable state: the pointer that `startLoop` returns is that of an
existing loop, and when the owner is about to run the destructor, the whole
`quit()` that it calls finds the loop if and only if `startLoop` has returned and
`loop()` has not yet begun. In every run in which it is called so, its last access
finds the loop. -/
theorem destructor_pointer_valid_iff {s : State} (h : Reachable system s) :
    (Allowed s .returnLoop → PointerValid s) ∧
    (Allowed s .destroy → (CallValid s ↔ BeforeLoop s .destroy)) ∧
    (Reach system BeforeLoop s → Allowed s .exitWakeUp → PointerValid s) := by
  have hinv := reach_inv h
  refine ⟨returned_valid hinv, callValid_iff hinv, ?_⟩
  intro hbefore hexit
  have howner : s.owner = .exitWakeUp := hexit
  exact valid_of_untold hinv (by simp [howner]) (by simp [howner])
    ((exiting_untold hbefore).2 howner)

def earlyDestroy : List Input := [.startLoop, .loopStep, .loopStep, .returnLoop]

def pollsOn : List Input :=
  earlyDestroy ++ [.destroy, .loopStep, .loopStep, .loopStep, .loopStep]

theorem earlyDestroy_valid :
    (∃ s, Reachable system s ∧ Allowed s .destroy ∧ CallValid s) ∧
      ∃ s, Reach system BeforeLoop s ∧ s.loopPc = .polling ∧ PointerValid s := by
  constructor
  · obtain ⟨s, hs, htest⟩ := exists_of_replay (M := system) Free rfl earlyDestroy
      (fun s => decide (s.owner = .ready ∧ s.loopPc.cleared = false)) (by decide)
    obtain ⟨hready, hcleared⟩ := of_decide_eq_true htest
    have hcall := (destructor_pointer_valid_iff hs).2.1 (Or.inr hready)
    exact ⟨s, hs, Or.inr hready, hcall.mpr ⟨hready, hcleared⟩⟩
  · obtain ⟨s, hs, htest⟩ := exists_of_replay (M := system) BeforeLoop rfl pollsOn
      (fun s => decide (s.owner = .exitWakeUp ∧ s.loopPc = .polling)) (by decide)
    obtain ⟨hexit, hpolling⟩ := of_decide_eq_true htest
    exact ⟨s, hs, hpolling, (destructor_pointer_valid_iff hs.free).2.2 hs hexit⟩

/-- The owner calls `quit()`, as the example program does, and the loop thread
ends before the destructor runs. -/
def quitThenDestroy : List Input :=
  [.startLoop, .loopStep, .loopStep, .returnLoop, .loopStep, .loopStep, .loopStep, .loopStep,
    .runInLoop, .quit, .quitWakeUp, .loopStep, .loopStep, .loopStep, .loopStep, .loopStep,
    .loopStep]

/-- The loop leaves its poll and ends inside the `quit()` of the destructor. -/
def destroyRace : List Input :=
  [.startLoop, .loopStep, .loopStep, .returnLoop, .loopStep, .loopStep, .loopStep, .loopStep,
    .destroy, .loopStep, .loopStep, .loopStep, .loopStep, .loopStep, .loopStep]

theorem quitThenDestroy_dangles :
    (∃ s, Reachable system s ∧ Allowed s .destroy ∧ s.published = true ∧
      s.loopPc.alive = false ∧ exec s .destroy = .error .useAfterFree) ∧
    (∃ s, Reachable system s ∧ Allowed s .exitWakeUp ∧
      exec s .exitWakeUp = .error .useAfterFree) ∧
    ¬ ∀ s, Reachable system s → Allowed s .destroy → PointerValid s := by
  obtain ⟨s, hs, htest⟩ := exists_of_replay (M := system) Free rfl quitThenDestroy
    (fun s => decide (s.owner = .ready ∧ s.published = true ∧ s.loopPc.alive = false)) (by decide)
  obtain ⟨hready, hpublished, hdead⟩ := of_decide_eq_true htest
  refine ⟨⟨s, hs, Or.inr hready, hpublished, hdead, ?_⟩, ?_, ?_⟩
  · rw [exec, require_pos _ hpublished, ok_bind, EventLoopThread.exec, bind_eq_error]
    left
    rw [require_eq_error]
    simp [hdead]
  · obtain ⟨s, hs, htest⟩ := exists_of_replay (M := system) Free rfl destroyRace
      (fun s => decide (s.owner = .exitWakeUp ∧ s.loopPc.alive = false)) (by decide)
    obtain ⟨hexit, hdead⟩ := of_decide_eq_true htest
    refine ⟨s, hs, hexit, ?_⟩
    rw [exec, EventLoopThread.exec, bind_eq_error]
    left
    rw [require_eq_error]
    simp [hdead]
  · intro hall
    have halive := (hall s hs (Or.inr hready)).2
    rw [hdead] at halive
    cases halive

end TinyMuduo.LoopPointer
