import TinyMuduo.ThreadPool
import Mathlib.Algebra.GroupWithZero.Nat
import Mathlib.Data.List.Nodup

/-!
Stopping a thread pool. `stop` notifies all workers once, without the mutex. A
worker that was asleep ends after three steps at most; one that had tested
`running_` before the store and has not gone to sleep at the notification sleeps
for ever, unless another task or a spurious wake-up helps it, and `stop` does not
return from joining it.
-/
namespace TinyMuduo.ThreadPool

open Checked Runs

variable {s s' : State τ} {i : ℕ} {pc : Pc τ}

def Pc.stalls (pc : Pc τ) : Bool := pc.isWaits || pc.isAsleep

def Pc.taking : Pc τ → Bool
  | .wants | .waits | .asleep | .woken => true
  | .test | .running _ | .exited => false

/-- The steps that a worker which never waits again has left. -/
def Pc.left : Pc τ → ℕ
  | .wants | .woken | .waits | .asleep => 3
  | .running _ => 2
  | .test => 1
  | .exited => 0

theorem Pc.left_le (pc : Pc τ) : pc.left ≤ 3 := by
  cases pc <;> simp [Pc.left]

def stepsLeft (threads_ : List (Pc τ)) : ℕ := (threads_.map Pc.left).sum

theorem stepsLeft_perm {l l' : List (Pc τ)} (h : l.Perm l') : stepsLeft l = stepsLeft l' :=
  (h.map Pc.left).sum_nat

theorem stepsLeft_le (l : List (Pc τ)) : stepsLeft l ≤ 3 * l.length := by
  induction l with
  | nil => exact Nat.le_refl 0
  | cons pc rest ih =>
    have hpc := pc.left_le
    simp only [stepsLeft, List.map_cons, List.sum_cons, List.length_cons] at ih ⊢
    omega

/-- No worker has taken two functions, and who has taken one is not back in `take`. -/
def TakenOnce (s : State τ) : Prop :=
  s.takenSince.Nodup ∧ ∀ i ∈ s.takenSince, ∀ pc, s.threads_[i]? = some pc → pc.taking = false

/-- A worker takes a function on its way out of `take`, and does not come back. -/
inductive Takes (s s' : State τ) (i : ℕ) (pc next : Pc τ) : Prop
  | nothing (hsame : s'.takenSince = s.takenSince)
      (hback : next.taking = true → pc.taking = true)
  | front (hcons : s'.takenSince = i :: s.takenSince) (htaking : pc.taking = true)
      (hout : next.taking = false)

theorem TakenOnce.replaced {next : Pc τ} (h : TakenOnce s) (hold : s.threads_[i]? = some pc)
    (hnew : s'.threads_ = s.threads_.set i next) (htakes : Takes s s' i pc next) :
    TakenOnce s' := by
  obtain ⟨hnodup, hpast⟩ := h
  have hother : ∀ j ∈ s.takenSince, j ≠ i → ∀ pc', s'.threads_[j]? = some pc' →
      pc'.taking = false := by
    intro j hj hij pc' hpc'
    rw [hnew, List.getElem?_set_ne (Ne.symm hij)] at hpc'
    exact hpast j hj pc' hpc'
  have hself : ∀ pc', s'.threads_[i]? = some pc' → pc' = next := by
    intro pc' hpc'
    obtain ⟨hlt, -⟩ := List.getElem?_eq_some_iff.mp hold
    rw [hnew, List.getElem?_set_self hlt] at hpc'
    exact (Option.some.inj hpc').symm
  cases htakes with
  | nothing hsame hback =>
    unfold TakenOnce
    rw [hsame]
    refine ⟨hnodup, ?_⟩
    intro j hj pc' hpc'
    by_cases hij : j = i
    · subst hij
      obtain rfl := hself pc' hpc'
      have hout := hpast j hj pc hold
      by_contra hin
      rw [hback (by simpa using hin)] at hout
      cases hout
    · exact hother j hj hij pc' hpc'
  | front hcons htaking hout =>
    have hfresh : i ∉ s.takenSince := by
      intro hi
      rw [hpast i hi pc hold] at htaking
      cases htaking
    unfold TakenOnce
    rw [hcons]
    refine ⟨List.nodup_cons.mpr ⟨hfresh, hnodup⟩, ?_⟩
    intro j hj pc' hpc'
    by_cases hij : j = i
    · subst hij
      rw [hself pc' hpc']
      exact hout
    · exact hother j ((List.mem_cons.mp hj).resolve_left hij) hij pc' hpc'

structure StopInv (s : State τ) : Prop where
  stored : s.stop = .stored → s.running_ = false
  running : s.missed.isSome → s.running_ = false
  stalls : ∀ missed, s.missed = some missed → ∀ i pc, s.threads_[i]? = some pc →
    pc.stalls = true → i ∈ missed
  taken : s.missed.isSome → TakenOnce s
  steps : s.missed = some [] → s.stepsSince + stepsLeft s.threads_ ≤ 3 * s.threads_.length
  joins : ∀ k, s.stop = .joining k → ∀ i pc, i < k → s.threads_[i]? = some pc → pc = .exited
  returns : s.missed.isSome → s.stop = .outside → ∀ pc ∈ s.threads_, pc = .exited

structure Replaced (s s' : State τ) (i : ℕ) (pc next : Pc τ) : Prop where
  old : s.threads_[i]? = some pc
  new : s'.threads_ = s.threads_.set i next
  running : s'.running_ = s.running_
  missed : s'.missed = s.missed
  stop : s'.stop = s.stop

/-- A thread that moves does not stall anew, and does not end before it is joined. -/
theorem StopInv.replaced {next : Pc τ} (h : StopInv s) (hrep : Replaced s s' i pc next)
    (hexited : pc ≠ .exited) (hstalls : s.running_ = false → next.stalls = true → pc.stalls = true)
    (htaken : s.running_ = false → Takes s s' i pc next)
    (hsteps : s.running_ = false → pc.stalls = false →
      s'.stepsSince + next.left ≤ s.stepsSince + pc.left) : StopInv s' := by
  obtain ⟨hold, hnew, hrunning, hmissed, hstop⟩ := hrep
  obtain ⟨others, hperm, hperm'⟩ := set_perm hold next
  have hlength : s'.threads_.length = s.threads_.length := by rw [hnew, List.length_set]
  refine ⟨?_, ?_, ?_, ?_, ?_, ?_, ?_⟩
  · rw [hstop, hrunning]
    exact h.stored
  · rw [hmissed, hrunning]
    exact h.running
  · intro missed hm j pc' hpc' hstall
    rw [hmissed] at hm
    rw [hnew, List.getElem?_set] at hpc'
    split at hpc'
    · rename_i hij
      subst hij
      split at hpc'
      · cases hpc'
        exact h.stalls missed hm i pc hold (hstalls (h.running (by simp [hm])) hstall)
      · cases hpc'
    · exact h.stalls missed hm j pc' hpc' hstall
  · intro hm
    rw [hmissed] at hm
    exact (h.taken hm).replaced hold hnew (htaken (h.running hm))
  · intro hm
    rw [hmissed] at hm
    have hawake : pc.stalls = false := by
      by_contra hstall
      have hmem := h.stalls [] hm i pc hold (by simpa using hstall)
      cases hmem
    have hless := hsteps (h.running (by simp [hm])) hawake
    have hcount := h.steps hm
    rw [stepsLeft_perm hperm] at hcount
    rw [hlength, hnew, stepsLeft_perm hperm']
    simp only [stepsLeft, List.map_cons, List.sum_cons] at hcount ⊢
    omega
  · intro k hk j pc' hj hpc'
    rw [hstop] at hk
    rw [hnew, List.getElem?_set] at hpc'
    split at hpc'
    · rename_i hij
      subst hij
      exact absurd (h.joins k hk i pc hj hold) hexited
    · exact h.joins k hk j pc' hj hpc'
  · intro hm hout
    rw [hmissed] at hm
    rw [hstop] at hout
    exact absurd (h.returns hm hout pc (List.mem_of_getElem? hold)) hexited

theorem WorkerMoves.stop (h : WorkerMoves s i pc s') (hinv : StopInv s)
    (hpc : s.threads_[i]? = some pc) : StopInv s' := by
  cases h with
  | again hrunning =>
    have hnot : s.running_ ≠ false := by simp [hrunning]
    exact hinv.replaced ⟨hpc, rfl, rfl, rfl, rfl⟩ nofun (fun h => absurd h hnot)
      (fun h => absurd h hnot) fun h => absurd h hnot
  | leave hrunning =>
    exact hinv.replaced ⟨hpc, rfl, rfl, rfl, rfl⟩ nofun nofun (fun _ => .nothing rfl nofun)
      fun _ _ => Nat.le_refl _
  | decide pc hlocks hfree hqueue hrunning =>
    have hnot : s.running_ ≠ false := by simp [hrunning]
    refine hinv.replaced ⟨hpc, rfl, rfl, rfl, rfl⟩ ?_ (fun h => absurd h hnot)
      (fun h => absurd h hnot) fun h => absurd h hnot
    rcases hlocks with rfl | rfl <;> nofun
  | nothing pc hlocks hfree hqueue hrunning =>
    rcases hlocks with rfl | rfl
    all_goals
      exact hinv.replaced ⟨hpc, rfl, rfl, rfl, rfl⟩ nofun nofun (fun _ => .nothing rfl nofun)
        fun _ _ => Nat.add_le_add_left (by decide : 1 + 1 ≤ 3) s.stepsSince
  | take pc hlocks hfree front rest hqueue =>
    have hleft : (Pc.calling front).left ≤ 2 := by cases front <;> simp [Pc.calling, Pc.left]
    have htaking : (Pc.calling front).taking = false := by cases front <;> rfl
    obtain ⟨hwaits, hasleep, -⟩ := Pc.idle_calling front
    have hstall : (Pc.calling front).stalls = false := by simp [Pc.stalls, hwaits, hasleep]
    rcases hlocks with rfl | rfl
    all_goals
      refine hinv.replaced ⟨hpc, rfl, rfl, rfl, rfl⟩ nofun (by simp [hstall])
        (fun _ => .front rfl rfl htaking) fun _ _ => ?_
      change s.stepsSince + 1 + (Pc.calling front).left ≤ s.stepsSince + 3
      omega
  | sleep =>
    exact hinv.replaced ⟨hpc, rfl, rfl, rfl, rfl⟩ nofun (fun _ _ => rfl)
      (fun _ => .nothing rfl fun _ => rfl) nofun
  | finish task =>
    exact hinv.replaced ⟨hpc, rfl, rfl, rfl, rfl⟩ nofun nofun (fun _ => .nothing rfl nofun)
      fun _ _ => Nat.le_refl _

/-- A sleeper is woken. -/
theorem StopInv.wake (h : StopInv s) (hpc : s.threads_[i]? = some .asleep)
    (hnew : s'.threads_ = s.threads_.set i .woken) (hrunning : s'.running_ = s.running_)
    (hmissed : s'.missed = s.missed) (hstop : s'.stop = s.stop)
    (htaken : s'.takenSince = s.takenSince) : StopInv s' :=
  h.replaced ⟨hpc, hnew, hrunning, hmissed, hstop⟩ nofun nofun
    (fun _ => .nothing htaken fun _ => rfl) nofun

theorem mem_waits {threads_ : List (Pc τ)} :
    i ∈ (List.range threads_.length).filter (fun i => threads_[i]?.any Pc.isWaits) ↔
      threads_[i]? = some .waits := by
  rw [List.mem_filter, List.mem_range, any_eq_true]
  constructor
  · rintro ⟨-, pc, hpc, hwaits⟩
    rw [hpc, eq_waits hwaits]
  · intro hpc
    obtain ⟨hi, -⟩ := List.getElem?_eq_some_iff.mp hpc
    exact ⟨hi, .waits, hpc, rfl⟩

/-- Who stalls after the notification was about to wait before it. -/
theorem notifyAll_stalls {threads_ : List (Pc τ)} (hpc : (notifyAll threads_)[i]? = some pc) :
    pc.stalls = true ↔ threads_[i]? = some .waits := by
  rw [notifyAll, List.getElem?_map, Option.map_eq_some_iff] at hpc
  obtain ⟨old, hold, rfl⟩ := hpc
  rw [hold]
  cases old <;> simp [Pc.stalls, Pc.isWaits, Pc.isAsleep]

theorem Moves.stopInv (h : Moves s s') (hinv : StopInv s) : StopInv s' := by
  obtain ⟨hstored, hrunning, hstalls, htaken, hsteps, hjoins, hreturns⟩ := hinv
  have hinv : StopInv s := ⟨hstored, hrunning, hstalls, htaken, hsteps, hjoins, hreturns⟩
  cases h with
  | start numThreads hstop hempty =>
    refine ⟨?_, by simp, by simp, by simp, by simp, ?_, by simp⟩
    · simp [hstop]
    · simp [hstop]
  | runHere task hempty => exact ⟨hstored, hrunning, hstalls, htaken, hsteps, hjoins, hreturns⟩
  | run task choice hfree =>
    rcases notify_cases choice s.threads_ with ⟨i, hpc, hnotify⟩ | ⟨-, hnotify⟩
    · exact hinv.wake hpc hnotify rfl rfl rfl rfl
    · rw [hnotify]
      exact ⟨hstored, hrunning, hstalls, htaken, hsteps, hjoins, hreturns⟩
  | worker i pc s' hpc hmoves => exact hmoves.stop hinv hpc
  | spurious i hpc => exact hinv.wake hpc rfl rfl rfl rfl rfl
  | stop hstop => exact ⟨fun _ => rfl, fun _ => rfl, hstalls, htaken, hsteps, by simp, by simp⟩
  | stopNotify hstop =>
    have hlength : (notifyAll s.threads_).length = s.threads_.length := by simp [notifyAll]
    refine ⟨by simp, fun _ => hstored hstop, ?_, ?_, ?_, ?_, by simp⟩
    · rintro _ ⟨⟩ i pc hpc hstall
      exact mem_waits.mpr ((notifyAll_stalls hpc).mp hstall)
    · intro _
      exact ⟨List.nodup_nil, by simp⟩
    · intro _
      rw [Nat.zero_add]
      exact stepsLeft_le _
    · rintro _ ⟨⟩ i pc hi
      cases hi
  | join k hstop hexited hjoined =>
    refine ⟨by simp, hrunning, hstalls, htaken, hsteps, ?_, by simp⟩
    rintro _ ⟨⟩ i pc hi hpc
    rcases Nat.lt_succ_iff_lt_or_eq.mp hi with hi | rfl
    · exact hjoins k hstop i pc hi hpc
    · rw [hexited] at hpc
      exact (Option.some.inj hpc).symm
  | returns k hstop hall =>
    refine ⟨by simp, hrunning, hstalls, htaken, hsteps, by simp, ?_⟩
    intro _ _ pc hpc
    obtain ⟨i, hi⟩ := List.mem_iff_getElem?.mp hpc
    obtain ⟨hlt, -⟩ := List.getElem?_eq_some_iff.mp hi
    exact hjoins k hstop i pc (Nat.lt_of_lt_of_le hlt hall) hi

theorem reach_stopInv {cond : State τ → Input τ → Prop} (h : Reach (system τ) cond s) :
    StopInv s := by
  refine h.invariant ?_ ?_
  · rintro _ rfl
    exact ⟨nofun, nofun, nofun, nofun, nofun, nofun, nofun⟩
  · intro s i s' hinv hallow _ hexec
    exact (exec_moves hallow hexec).stopInv hinv

/-- A worker that does not stall is blocked by nobody, if nobody stalls. -/
theorem enabled_of_not_stalls (hnone : ∀ pc ∈ s.threads_, pc.stalls = false) (hpc : pc ∈ s.threads_)
    (hexited : pc ≠ .exited) : enabled s pc = true := by
  have hfree : mutexFree s = true := by
    rw [mutexFree, List.all_eq_true]
    intro other hother
    have hstall := hnone other hother
    rw [Pc.stalls, Bool.or_eq_false_iff] at hstall
    simp [hstall.1]
  have hstall := hnone pc hpc
  cases pc with
  | wants | woken => exact hfree
  | test | running task => rfl
  | waits | asleep => cases hstall
  | exited => exact absurd rfl hexited

/-- After the notification of `stop`, in every run: each worker takes one function
more at most; only workers that were about to wait at the notification sleep
or wait; if there were none, every worker that has not ended can go on, and all of
them together make at most three steps each, so `stop` returns; and when it has
returned, all have ended, and what is left in the queue stays there. -/
theorem stop_law (h : Reachable (system τ) s) {missed : List ℕ} (hmissed : s.missed = some missed) :
    (∀ i, s.takenSince.count i ≤ 1) ∧
      (∀ i pc, s.threads_[i]? = some pc → pc.stalls = true → i ∈ missed) ∧
      (missed = [] → s.stepsSince ≤ 3 * s.threads_.length ∧
        ∀ pc ∈ s.threads_, pc ≠ .exited → enabled s pc = true) ∧
      (s.stop = .outside → ∀ pc ∈ s.threads_, pc = .exited) := by
  have hinv := reach_stopInv h
  have hsome : s.missed.isSome = true := by simp [hmissed]
  refine ⟨?_, hinv.stalls missed hmissed, ?_, hinv.returns hsome⟩
  · exact List.nodup_iff_count_le_one.mp (hinv.taken hsome).1
  · rintro rfl
    refine ⟨Nat.le_trans (Nat.le_add_right _ _) (hinv.steps hmissed), ?_⟩
    intro pc hpc hexited
    refine enabled_of_not_stalls ?_ hpc hexited
    intro other hother
    obtain ⟨i, hi⟩ := List.mem_iff_getElem?.mp hother
    by_contra hstall
    have hmem := hinv.stalls [] hmissed i other hi (by simpa using hstall)
    cases hmem

/-- After its notification, `stop` is helped neither by a task nor by a spurious
wake-up. -/
def Unhelped (s : State τ) : Input τ → Prop
  | .run _ _ | .spurious _ => s.missed = none
  | .start _ | .worker _ _ | .stop | .stopNotify | .join => True

instance (s : State τ) : (i : Input τ) → Decidable (Unhelped s i)
  | .run _ _ | .spurious _ => inferInstanceAs (Decidable (s.missed = none))
  | .start _ | .worker _ _ | .stop | .stopNotify | .join => isTrue trivial

def Stuck (s : State τ) : Prop :=
  ∀ missed, s.missed = some missed → ∀ i ∈ missed, ∃ pc, s.threads_[i]? = some pc ∧ pc.stalls = true

theorem WorkerMoves.stuck (h : WorkerMoves s i pc s') (hpc : s.threads_[i]? = some pc)
    (hstuck : Stuck s) : Stuck s' := by
  have hkeeps : ∀ next, s'.threads_ = s.threads_.set i next → s'.missed = s.missed →
      (pc.stalls = true → next.stalls = true) → Stuck s' := by
    intro next hnew hmissed hstalls missed hm j hj
    rw [hmissed] at hm
    obtain ⟨old, hold, hstall⟩ := hstuck missed hm j hj
    rw [hnew, List.getElem?_set]
    by_cases hij : i = j
    · subst hij
      obtain ⟨hlt, -⟩ := List.getElem?_eq_some_iff.mp hold
      rw [hpc] at hold
      cases hold
      exact ⟨next, by simp [hlt], hstalls hstall⟩
    · exact ⟨old, by simp [hij, hold], hstall⟩
  cases h with
  | again hrunning => exact hkeeps _ rfl rfl nofun
  | leave hrunning => exact hkeeps _ rfl rfl nofun
  | decide pc hlocks hfree hqueue hrunning => exact hkeeps _ rfl rfl fun _ => rfl
  | nothing pc hlocks hfree hqueue hrunning =>
    rcases hlocks with rfl | rfl <;> exact hkeeps _ rfl rfl nofun
  | take pc hlocks hfree front rest hqueue =>
    rcases hlocks with rfl | rfl <;> exact hkeeps _ rfl rfl nofun
  | sleep => exact hkeeps _ rfl rfl fun _ => rfl
  | finish task => exact hkeeps _ rfl rfl nofun

theorem reach_stuck (h : Reach (system τ) Unhelped s) : Stuck s := by
  refine h.invariant ?_ ?_
  · rintro _ rfl
    intro missed hm
    cases hm
  · intro s i s' hstuck hallow hunhelped hexec
    cases i with
    | worker j throws =>
      obtain ⟨pc, hpc, henabled⟩ := any_eq_true.mp hallow
      simp only [system, exec, hpc] at hexec
      exact (workerStep_moves henabled hexec).stuck hpc hstuck
    | start numThreads =>
      simp only [system, exec, bind_eq_ok, pure_eq_ok, Except.ok.injEq] at hexec
      obtain ⟨-, -, rfl⟩ := hexec
      intro missed hm
      cases hm
    | run task choice =>
      have hnone : s.missed = none := hunhelped
      simp only [system, exec] at hexec
      split at hexec
      · simp only [bind_eq_ok, pure_eq_ok, Except.ok.injEq] at hexec
        obtain ⟨f, -, rfl⟩ := hexec
        exact hstuck
      · cases hexec
        intro missed hm
        rw [hnone] at hm
        cases hm
    | spurious j =>
      have hnone : s.missed = none := hunhelped
      cases hexec
      intro missed hm
      rw [hnone] at hm
      cases hm
    | stop =>
      cases hexec
      exact hstuck
    | stopNotify =>
      cases hexec
      rintro _ ⟨⟩ j hj
      have hwaits := mem_waits.mp hj
      refine ⟨.waits, ?_, rfl⟩
      rw [notifyAll, List.getElem?_map, hwaits]
      rfl
    | join =>
      simp only [system, exec] at hexec
      split at hexec
      · split at hexec
        · simp only [bind_eq_ok, pure_eq_ok, Except.ok.injEq] at hexec
          obtain ⟨-, -, rfl⟩ := hexec
          exact hstuck
        · cases hexec
          exact hstuck
      · cases hexec
        exact hstuck
      · cases hexec
        exact hstuck

/-- Without a later task or a spurious wake-up, the workers that were about to wait
at the notification are the ones that sleep for ever, and `stop` does not return if
there is one. -/
theorem stop_hangs_iff (h : Reach (system τ) Unhelped s) {missed : List ℕ}
    (hmissed : s.missed = some missed) :
    (∀ i, i ∈ missed ↔ ∃ pc, s.threads_[i]? = some pc ∧ pc.stalls = true) ∧
      (s.stop = .outside → missed = []) := by
  have hinv := reach_stopInv h
  have hstuck := reach_stuck h missed hmissed
  refine ⟨?_, ?_⟩
  · intro i
    constructor
    · exact hstuck i
    · rintro ⟨pc, hpc, hstall⟩
      exact hinv.stalls missed hmissed i pc hpc hstall
  · intro hout
    rw [List.eq_nil_iff_forall_not_mem]
    intro i hi
    obtain ⟨pc, hpc, hstall⟩ := hstuck i hi
    have hexited := hinv.returns (by simp [hmissed]) hout pc (List.mem_of_getElem? hpc)
    subst hexited
    cases hstall

/-- Two workers. One sleeps when `stop` notifies; the other takes a task more. -/
def orderly : List (Input ℕ) :=
  [.start 2, .worker 0 false, .worker 0 false, .worker 0 false, .worker 1 false,
    .run (some 5) 0, .run (some 6) 0, .run (some 7) 0, .stop, .stopNotify, .worker 1 false,
    .worker 0 false, .worker 1 false, .worker 0 false, .worker 1 false, .worker 0 false, .join,
    .join, .join]

theorem orderly_stops :
    ∃ s : State ℕ, Reachable (system ℕ) s ∧ s.missed = some [] ∧ s.stop = .outside ∧
      s.queue_ = [some 7] ∧ s.takenSince = [0, 1] ∧ (∀ i, s.takenSince.count i ≤ 1) ∧
      ∀ pc ∈ s.threads_, pc = .exited := by
  obtain ⟨s, hs, htest⟩ := exists_of_replay (M := system ℕ) (s := initial ℕ) Free rfl orderly
    (fun s => decide (s.missed = some [] ∧ s.stop = .outside ∧ s.queue_ = [some 7] ∧
      s.takenSince = [0, 1])) (by decide)
  obtain ⟨hmissed, hstop, hqueue, htaken⟩ := of_decide_eq_true htest
  have hlaw := stop_law hs hmissed
  exact ⟨s, hs, hmissed, hstop, hqueue, htaken, hlaw.1, hlaw.2.2.2 hstop⟩

/-- The worker has tested `running_`; then `stop` stores and notifies. -/
def lostWakeup : List (Input ℕ) :=
  [.start 1, .worker 0 false, .worker 0 false, .stop, .stopNotify, .worker 0 false]

theorem lostWakeup_hangs :
    ∃ s : State ℕ, Reach (system ℕ) Unhelped s ∧ s.missed = some [0] ∧
      ∃ pc, s.threads_[0]? = some pc ∧ pc.stalls = true := by
  obtain ⟨s, hs, htest⟩ := exists_of_replay (M := system ℕ) (s := initial ℕ) Unhelped rfl lostWakeup
    (fun s => decide (s.missed = some [0])) (by decide)
  have hmissed := of_decide_eq_true htest
  exact ⟨s, hs, hmissed, ((stop_hangs_iff hs hmissed).1 0).mp (by simp)⟩

end TinyMuduo.ThreadPool
