import TinyMuduo.Lib.Checked
import TinyMuduo.Lib.Runs
import Mathlib.Data.List.Perm.Basic

/-!
The thread pool. `run` and `take` hold the mutex, but `running_` is read and
written without it, and `stop` notifies without it: a worker that has tested
`running_` and has not yet gone to sleep misses the notification. So the test
and the wait of `take` are two steps here, and a worker between them keeps the
mutex.
-/
namespace TinyMuduo.ThreadPool

open Checked Runs

inductive Failure
  /-- `assert(threads_.empty())` -/
  | alreadyStarted
  /-- `assert(!joined_)` in `Thread::join` -/
  | joinedTwice
  | badFunctionCall
  | aborted
  deriving DecidableEq, Repr

inductive Pc (τ : Type)
  | test
  /-- waits for the mutex in `take` -/
  | wants
  /-- has the mutex and is about to wait -/
  | waits
  | asleep
  | woken
  | running (task : τ)
  | exited

variable {τ : Type}

namespace Pc

def isWaits : Pc τ → Bool
  | .waits => true
  | .test | .wants | .asleep | .woken | .running _ | .exited => false

def isAsleep : Pc τ → Bool
  | .asleep => true
  | .test | .wants | .waits | .woken | .running _ | .exited => false

def isWoken : Pc τ → Bool
  | .woken => true
  | .test | .wants | .waits | .asleep | .running _ | .exited => false

def isExited : Pc τ → Bool
  | .exited => true
  | .test | .wants | .waits | .asleep | .woken | .running _ => false

def task : Pc τ → Option τ
  | .running task => some task
  | .test | .wants | .waits | .asleep | .woken | .exited => none

def calling : Option τ → Pc τ
  | some task => .running task
  | none => .test

end Pc

inductive Stop
  | outside
  | stored
  | joining (k : ℕ)
  deriving DecidableEq

/-- The pool. An empty function is no task. -/
structure State (τ : Type) where
  threads_ : List (Pc τ)
  queue_ : List (Option τ)
  running_ : Bool
  stop : Stop
  joined : ℕ
  /-- functions passed to `run` of a started pool, and those workers have taken -/
  submitted : List (Option τ)
  taken : List (Option τ)
  finished : List τ
  /-- tasks that `run` has called itself -/
  ran : List τ
  /-- after the notification of `stop`: the workers that were about to wait -/
  missed : Option (List ℕ)
  /-- since the notification: steps of the workers, and who has taken a function -/
  stepsSince : ℕ
  takenSince : List ℕ

def initial (τ : Type) : State τ := ⟨[], [], false, .outside, 0, [], [], [], [], none, 0, []⟩

/-- `cond_.notify` wakes one of the workers that sleep. -/
def notify (choice : ℕ) (threads_ : List (Pc τ)) : List (Pc τ) :=
  let sleepers := (List.range threads_.length).filter fun i => threads_[i]?.any Pc.isAsleep
  match sleepers[choice % sleepers.length]? with
  | some i => threads_.set i .woken
  | none => threads_

def notifyAll (threads_ : List (Pc τ)) : List (Pc τ) :=
  threads_.map fun pc => if pc.isAsleep then .woken else pc

/-- No worker is between its test and its wait. -/
def mutexFree (s : State τ) : Bool := s.threads_.all fun pc => !pc.isWaits

def enabled (s : State τ) : Pc τ → Bool
  | .test | .waits | .running _ => true
  | .wants | .woken => mutexFree s
  | .asleep | .exited => false

def State.move (s : State τ) (i : ℕ) (pc : Pc τ) : State τ :=
  { s with threads_ := s.threads_.set i pc, stepsSince := s.stepsSince + 1 }

def workerStep (s : State τ) (i : ℕ) (pc : Pc τ) (throws : Bool) : Except Failure (State τ) :=
  match pc with
  | .test => .ok (s.move i (if s.running_ then .wants else .exited))
  | .wants | .woken =>
      match s.queue_ with
      | [] => .ok (s.move i (if s.running_ then .waits else .test))
      | front :: rest =>
          .ok ({ s with queue_ := rest, taken := s.taken ++ [front]
                        takenSince := i :: s.takenSince }.move i
            (.calling front))
  | .waits => .ok (s.move i .asleep)
  | .running task =>
      if throws then .error .aborted
      else .ok ({ s with finished := s.finished ++ [task] }.move i .test)
  | .asleep | .exited => .ok s

inductive Input (τ : Type)
  | start (numThreads : ℕ)
  | run (task : Option τ) (choice : ℕ)
  | worker (i : ℕ) (throws : Bool)
  /-- `wait` may return without a notification -/
  | spurious (i : ℕ)
  /-- the store of `stop` -/
  | stop
  | stopNotify
  /-- its next `join`, or its return -/
  | join

def joinable (s : State τ) : Bool :=
  match s.stop with
  | .joining k => s.threads_[k]?.all Pc.isExited
  | .outside | .stored => false

/-- `start` and `stop` are called by one thread. -/
def Allowed (s : State τ) : Input τ → Prop
  | .start _ | .stop => s.stop = .outside
  | .run _ _ => mutexFree s = true
  | .worker i _ => s.threads_[i]?.any (enabled s) = true
  | .spurious i => s.threads_[i]?.any Pc.isAsleep = true
  | .stopNotify => s.stop = .stored
  | .join => joinable s = true

instance (s : State τ) : (i : Input τ) → Decidable (Allowed s i)
  | .start _ | .stop => inferInstanceAs (Decidable (s.stop = .outside))
  | .run _ _ => inferInstanceAs (Decidable (mutexFree s = true))
  | .worker i _ => inferInstanceAs (Decidable (s.threads_[i]?.any (enabled s) = true))
  | .spurious i => inferInstanceAs (Decidable (s.threads_[i]?.any Pc.isAsleep = true))
  | .stopNotify => inferInstanceAs (Decidable (s.stop = .stored))
  | .join => inferInstanceAs (Decidable (joinable s = true))

def exec (s : State τ) : Input τ → Except Failure (State τ)
  | .start numThreads => do
      require (s.threads_.isEmpty = true) .alreadyStarted
      return { s with running_ := true, threads_ := List.replicate numThreads .test, missed := none
                      joined := 0 }
  | .run task choice =>
      if s.threads_.isEmpty then do
        let f ← demand task .badFunctionCall
        return { s with ran := s.ran ++ [f] }
      else .ok { s with queue_ := s.queue_ ++ [task], submitted := s.submitted ++ [task]
                        threads_ := notify choice s.threads_ }
  | .worker i throws =>
      match s.threads_[i]? with
      | some pc => workerStep s i pc throws
      | none => .ok s
  | .spurious i => .ok { s with threads_ := s.threads_.set i .woken }
  | .stop => .ok { s with running_ := false, stop := .stored }
  | .stopNotify =>
      .ok { s with
        stop := .joining 0
        threads_ := notifyAll s.threads_
        missed := some ((List.range s.threads_.length).filter fun i =>
          s.threads_[i]?.any Pc.isWaits)
        stepsSince := 0
        takenSince := [] }
  | .join =>
      match s.stop with
      | .joining k =>
          if k < s.threads_.length then do
            require (s.joined ≤ k) .joinedTwice
            return { s with stop := .joining (k + 1), joined := k + 1 }
          else return { s with stop := .outside }
      | .outside | .stored => .ok s

def system (τ : Type) : System (State τ) (Input τ) Failure where
  start := fun s => s = initial τ
  allowed := Allowed
  exec := exec

instance (s : State τ) (i : Input τ) : Decidable ((system τ).allowed s i) :=
  inferInstanceAs (Decidable (Allowed s i))

section Steps

variable {s s' : State τ} {i : ℕ} {pc : Pc τ}

/-- The other threads of a list in which one has moved. -/
theorem set_perm {α : Type} {l : List α} {i : ℕ} {a : α} (h : l[i]? = some a) (b : α) :
    ∃ others, l.Perm (a :: others) ∧ (l.set i b).Perm (b :: others) := by
  obtain ⟨hi, rfl⟩ := List.getElem?_eq_some_iff.mp h
  exact ⟨l.eraseIdx i, (List.getElem_cons_eraseIdx_perm hi).symm, List.set_perm_cons_eraseIdx hi b⟩

theorem any_eq_true {o : Option (Pc τ)} {p : Pc τ → Bool} :
    o.any p = true ↔ ∃ pc, o = some pc ∧ p pc = true := by
  cases o <;> simp

theorem eq_asleep (h : pc.isAsleep = true) : pc = .asleep := by
  cases pc <;> first | rfl | cases h

theorem eq_waits (h : pc.isWaits = true) : pc = .waits := by
  cases pc <;> first | rfl | cases h

/-- One of the sleepers is woken, if there are any. -/
theorem notify_cases (choice : ℕ) (threads_ : List (Pc τ)) :
    (∃ i : ℕ, threads_[i]? = some .asleep ∧ notify choice threads_ = threads_.set i .woken) ∨
      (∀ i : ℕ, threads_[i]? ≠ some .asleep) ∧ notify choice threads_ = threads_ := by
  unfold notify
  extract_lets sleepers
  have hmem : ∀ i, i ∈ sleepers ↔ threads_[i]? = some .asleep := by
    intro i
    rw [List.mem_filter, List.mem_range, any_eq_true]
    constructor
    · rintro ⟨-, pc, hpc, hasleep⟩
      rw [hpc, eq_asleep hasleep]
    · intro hpc
      obtain ⟨hi, -⟩ := List.getElem?_eq_some_iff.mp hpc
      exact ⟨hi, .asleep, hpc, rfl⟩
  split
  · rename_i i hi
    exact Or.inl ⟨i, (hmem i).mp (List.mem_of_getElem? hi), rfl⟩
  · rename_i hnone
    refine Or.inr ⟨?_, rfl⟩
    intro i hi
    have hpos : 0 < sleepers.length := List.length_pos_of_mem ((hmem i).mpr hi)
    have hlt := Nat.mod_lt choice hpos
    rw [List.getElem?_eq_none_iff] at hnone
    omega

inductive WorkerMoves (s : State τ) (i : ℕ) : Pc τ → State τ → Prop
  | again (hrunning : s.running_ = true) : WorkerMoves s i .test (s.move i .wants)
  | leave (hrunning : s.running_ = false) : WorkerMoves s i .test (s.move i .exited)
  | decide (pc : Pc τ) (hpc : pc = .wants ∨ pc = .woken) (hfree : mutexFree s = true)
      (hqueue : s.queue_ = []) (hrunning : s.running_ = true) :
      WorkerMoves s i pc (s.move i .waits)
  | nothing (pc : Pc τ) (hpc : pc = .wants ∨ pc = .woken) (hfree : mutexFree s = true)
      (hqueue : s.queue_ = []) (hrunning : s.running_ = false) :
      WorkerMoves s i pc (s.move i .test)
  | take (pc : Pc τ) (hpc : pc = .wants ∨ pc = .woken) (hfree : mutexFree s = true)
      (front : Option τ) (rest : List (Option τ)) (hqueue : s.queue_ = front :: rest) :
      WorkerMoves s i pc ({ s with
        queue_ := rest, taken := s.taken ++ [front]
        takenSince := i :: s.takenSince }.move i (.calling front))
  | sleep : WorkerMoves s i .waits (s.move i .asleep)
  | finish (task : τ) : WorkerMoves s i (.running task)
      ({ s with finished := s.finished ++ [task] }.move i .test)

theorem workerStep_moves {throws : Bool} (hallow : enabled s pc = true)
    (h : workerStep s i pc throws = .ok s') : WorkerMoves s i pc s' := by
  have hlocked : ∀ pc : Pc τ, pc = .wants ∨ pc = .woken → mutexFree s = true →
      workerStep s i .wants throws = .ok s' → WorkerMoves s i pc s' := by
    intro pc hpc hfree h
    simp only [workerStep] at h
    split at h
    · rename_i hqueue
      cases h
      cases hrunning : s.running_ with
      | true => exact .decide pc hpc hfree hqueue hrunning
      | false => exact .nothing pc hpc hfree hqueue hrunning
    · rename_i front rest hqueue
      cases h
      exact .take pc hpc hfree front rest hqueue
  cases pc with
  | test =>
    cases h
    cases hrunning : s.running_ with
    | true => exact .again hrunning
    | false => exact .leave hrunning
  | wants => exact hlocked .wants (Or.inl rfl) hallow h
  | woken => exact hlocked .woken (Or.inr rfl) hallow h
  | waits =>
    cases h
    exact .sleep
  | running task =>
    simp only [workerStep] at h
    split at h
    · cases h
    · cases h
      exact .finish task
  | asleep => cases hallow
  | exited => cases hallow

inductive Moves (s : State τ) : State τ → Prop
  | start (numThreads : ℕ) (hstop : s.stop = .outside) (hempty : s.threads_ = []) : Moves s { s with
      running_ := true, threads_ := List.replicate numThreads .test, missed := none, joined := 0 }
  | runHere (task : τ) (hempty : s.threads_ = []) : Moves s { s with ran := s.ran ++ [task] }
  | run (task : Option τ) (choice : ℕ) (hfree : mutexFree s = true) : Moves s { s with
      queue_ := s.queue_ ++ [task], submitted := s.submitted ++ [task]
      threads_ := notify choice s.threads_ }
  | worker (i : ℕ) (pc : Pc τ) (s' : State τ) (hpc : s.threads_[i]? = some pc)
      (hmoves : WorkerMoves s i pc s') : Moves s s'
  | spurious (i : ℕ) (hpc : s.threads_[i]? = some .asleep) :
      Moves s { s with threads_ := s.threads_.set i .woken }
  | stop (hstop : s.stop = .outside) : Moves s { s with running_ := false, stop := .stored }
  | stopNotify (hstop : s.stop = .stored) : Moves s { s with
      stop := .joining 0, threads_ := notifyAll s.threads_
      missed := some ((List.range s.threads_.length).filter fun i =>
        s.threads_[i]?.any Pc.isWaits)
      stepsSince := 0, takenSince := [] }
  | join (k : ℕ) (hstop : s.stop = .joining k) (hexited : s.threads_[k]? = some .exited)
      (hjoined : s.joined ≤ k) : Moves s { s with stop := .joining (k + 1), joined := k + 1 }
  | returns (k : ℕ) (hstop : s.stop = .joining k) (hall : s.threads_.length ≤ k) :
      Moves s { s with stop := .outside }

theorem exec_moves {i : Input τ} (hallow : Allowed s i) (h : exec s i = .ok s') : Moves s s' := by
  cases i with
  | start numThreads =>
    simp only [exec, bind_eq_ok, require_eq_ok, pure_eq_ok, Except.ok.injEq] at h
    obtain ⟨-, hempty, rfl⟩ := h
    exact .start numThreads hallow (List.isEmpty_iff.mp hempty)
  | run task choice =>
    simp only [exec] at h
    split at h
    · rename_i hempty
      simp only [bind_eq_ok, demand_eq_ok, pure_eq_ok, Except.ok.injEq] at h
      obtain ⟨f, -, rfl⟩ := h
      exact .runHere f (List.isEmpty_iff.mp hempty)
    · cases h
      exact .run task choice hallow
  | worker i throws =>
    obtain ⟨pc, hpc, henabled⟩ := any_eq_true.mp hallow
    simp only [exec, hpc] at h
    exact .worker i pc s' hpc (workerStep_moves henabled h)
  | spurious i =>
    cases h
    obtain ⟨pc, hpc, hasleep⟩ := any_eq_true.mp hallow
    exact .spurious i (eq_asleep hasleep ▸ hpc)
  | stop =>
    cases h
    exact .stop hallow
  | stopNotify =>
    cases h
    exact .stopNotify hallow
  | join =>
    have hjoinable : joinable s = true := hallow
    unfold joinable at hjoinable
    simp only [exec] at h
    split at h
    · rename_i k hk
      simp only [hk] at hjoinable
      split at h
      · rename_i hlt
        simp only [bind_eq_ok, require_eq_ok, pure_eq_ok, Except.ok.injEq] at h
        obtain ⟨-, hjoined, rfl⟩ := h
        refine .join k hk ?_ hjoined
        have hpc : s.threads_[k]? = some s.threads_[k] := List.getElem?_eq_getElem hlt
        rw [hpc] at hjoinable ⊢
        have hexited : s.threads_[k].isExited = true := hjoinable
        cases hthread : s.threads_[k] <;> first | rfl | (rw [hthread] at hexited; cases hexited)
      · rename_i hle
        cases h
        exact .returns k hk (Nat.not_lt.mp hle)
    · rename_i hstop
      rw [hstop] at hjoinable
      cases hjoinable
    · rename_i hstop
      rw [hstop] at hjoinable
      cases hjoinable

end Steps

section Tasks

variable {s s' : State τ} {i : ℕ} {pc : Pc τ}

theorem mutexFree_iff : mutexFree s = true ↔ s.threads_.countP Pc.isWaits = 0 := by
  simp [mutexFree, List.countP_eq_zero]

@[simp]
theorem countP_asleep_notifyAll (l : List (Pc τ)) : (notifyAll l).countP Pc.isAsleep = 0 := by
  rw [List.countP_eq_zero]
  intro pc hpc
  obtain ⟨old, -, rfl⟩ := List.mem_map.mp hpc
  cases old <;> simp [Pc.isAsleep]

@[simp]
theorem countP_waits_notifyAll (l : List (Pc τ)) :
    (notifyAll l).countP Pc.isWaits = l.countP Pc.isWaits := by
  rw [notifyAll, List.countP_map]
  refine List.countP_congr fun pc _ => ?_
  cases pc <;> rfl

@[simp]
theorem task_notifyAll (l : List (Pc τ)) :
    (notifyAll l).filterMap Pc.task = l.filterMap Pc.task := by
  rw [notifyAll, List.filterMap_map]
  refine List.filterMap_congr fun pc _ => ?_
  cases pc <;> rfl

/-- Tasks are taken in order and are with a worker until they are finished. One
worker at most stands between its test and its wait, and then there is nothing to
take; if workers sleep, those that have been woken are enough for the tasks. -/
structure Inv (s : State τ) : Prop where
  fifo : s.taken ++ s.queue_ = s.submitted
  tasks : (s.finished ++ s.threads_.filterMap Pc.task).Perm (s.taken.filterMap id)
  lock : s.threads_.countP Pc.isWaits ≤ 1
  empty : 0 < s.threads_.countP Pc.isWaits → s.queue_ = []
  covered : 0 < s.threads_.countP Pc.isAsleep →
    s.queue_.length ≤ s.threads_.countP Pc.isWoken

/-- A worker without a task moves on, and the queue stays. -/
theorem Inv.move (h : Inv s) (hpc : s.threads_[i]? = some pc) (htask : pc.task = none)
    {next : Pc τ} (hnext : next.task = none)
    (hwaits : next.isWaits = true → mutexFree s = true ∧ s.queue_ = [])
    (hasleep : next.isAsleep = true → pc = .waits)
    (hwoken : pc.isWoken = true → s.queue_ = []) : Inv (s.move i next) := by
  obtain ⟨others, hold, hnew⟩ := set_perm hpc next
  have hthreads : (s.move i next).threads_ = s.threads_.set i next := rfl
  obtain ⟨hfifo, htasks, hlock, hempty, hcovered⟩ := h
  rw [hold.countP_eq, List.countP_cons] at hlock hempty hcovered
  rw [hold.countP_eq, List.countP_cons] at hcovered
  refine ⟨hfifo, ?_, ?_, ?_, ?_⟩
  · refine List.Perm.trans (List.Perm.append_left _ ?_) htasks
    refine (hnew.filterMap Pc.task).trans (List.Perm.trans ?_ (hold.filterMap Pc.task).symm)
    rw [List.filterMap_cons_none hnext, List.filterMap_cons_none htask]
  · rw [hthreads, hnew.countP_eq, List.countP_cons]
    by_cases hw : next.isWaits = true
    · have hfree := mutexFree_iff.mp (hwaits hw).1
      rw [hold.countP_eq, List.countP_cons] at hfree
      simp only [hw, if_true]
      omega
    · rw [if_neg hw]
      omega
  · rw [hthreads, hnew.countP_eq, List.countP_cons]
    intro hpos
    by_cases hw : next.isWaits = true
    · exact (hwaits hw).2
    · rw [if_neg hw] at hpos
      exact hempty (by omega)
  · rw [hthreads, hnew.countP_eq, hnew.countP_eq, List.countP_cons, List.countP_cons]
    intro hpos
    change s.queue_.length ≤ _
    by_cases ha : next.isAsleep = true
    · have hpcw := hasleep ha
      subst hpcw
      rw [hempty (by simp [Pc.isWaits])]
      exact Nat.zero_le _
    · rw [if_neg ha] at hpos
      by_cases hwk : pc.isWoken = true
      · rw [hwoken hwk]
        exact Nat.zero_le _
      · rw [if_neg hwk] at hcovered
        have := hcovered (by omega)
        omega

theorem Pc.task_calling (front : Option τ) : (Pc.calling front).task = front := by
  cases front <;> rfl

theorem Pc.idle_calling (front : Option τ) : (Pc.calling front).isWaits = false ∧
    (Pc.calling front).isAsleep = false ∧ (Pc.calling front).isWoken = false := by
  cases front <;> exact ⟨rfl, rfl, rfl⟩

/-- A worker takes the first task. -/
theorem Inv.take (h : Inv s) (hpc : s.threads_[i]? = some pc) (hlocks : pc = .wants ∨ pc = .woken)
    (hfree : mutexFree s = true) {front : Option τ} {rest : List (Option τ)}
    (hqueue : s.queue_ = front :: rest) :
    Inv ({ s with queue_ := rest, taken := s.taken ++ [front]
                  takenSince := i :: s.takenSince }.move i (.calling front)) := by
  obtain ⟨others, hold, hnew⟩ := set_perm hpc (.calling front)
  obtain ⟨hwaits, hasleep, hwoken⟩ := Pc.idle_calling front
  have hfree := mutexFree_iff.mp hfree
  obtain ⟨hfifo, htasks, -, -, hcovered⟩ := h
  have hnone : pc.task = none := by rcases hlocks with rfl | rfl <;> rfl
  have hzero : (s.threads_.set i (.calling front)).countP Pc.isWaits = 0 := by
    rw [hold.countP_eq, List.countP_cons] at hfree
    rw [hnew.countP_eq, List.countP_cons, hwaits]
    exact Nat.eq_zero_of_add_eq_zero_right hfree
  refine ⟨?_, ?_, Nat.le_trans (Nat.le_of_eq hzero) (Nat.zero_le 1),
    fun hpos => absurd hzero (Nat.ne_of_gt hpos), ?_⟩
  · change s.taken ++ [front] ++ rest = s.submitted
    rw [← hfifo, hqueue, List.append_assoc, List.singleton_append]
  · have hrunning := (hold.filterMap Pc.task).append_left s.finished
    rw [List.filterMap_cons_none hnone] at hrunning
    have hmore : (s.finished ++ (s.threads_.set i (.calling front)).filterMap Pc.task).Perm
        (s.finished ++ (front.toList ++ others.filterMap Pc.task)) := by
      refine List.Perm.append_left _ ((hnew.filterMap Pc.task).trans ?_)
      rw [List.filterMap_cons, Pc.task_calling]
      cases front <;> rfl
    refine hmore.trans ?_
    change List.Perm _ ((s.taken ++ [front]).filterMap id)
    rw [List.filterMap_append]
    have hfront : [front].filterMap id = front.toList := by cases front <;> rfl
    rw [hfront]
    refine (List.perm_append_comm.append_left s.finished).trans ?_
    rw [← List.append_assoc]
    exact (hrunning.symm.trans htasks).append_right _
  · change 0 < (s.threads_.set i (.calling front)).countP Pc.isAsleep →
      rest.length ≤ (s.threads_.set i (.calling front)).countP Pc.isWoken
    rw [hold.countP_eq, hold.countP_eq, List.countP_cons, List.countP_cons, hqueue,
      List.length_cons] at hcovered
    rw [hnew.countP_eq, hnew.countP_eq, List.countP_cons, List.countP_cons, hasleep, hwoken]
    simp only [Bool.false_eq_true, if_false, Nat.add_zero]
    intro hpos
    have hmost : (if pc.isWoken = true then 1 else 0) ≤ 1 := by split <;> omega
    have hcount := hcovered (Nat.lt_of_lt_of_le hpos (Nat.le_add_right _ _))
    omega

/-- A worker has done its task. -/
theorem Inv.finish (h : Inv s) {task : τ} (hpc : s.threads_[i]? = some (.running task)) :
    Inv ({ s with finished := s.finished ++ [task] }.move i .test) := by
  obtain ⟨others, hold, hnew⟩ := set_perm hpc .test
  obtain ⟨hfifo, htasks, hlock, hempty, hcovered⟩ := h
  have hsame : ∀ p : Pc τ → Bool, p (.running task) = false → p .test = false →
      (s.threads_.set i .test).countP p = s.threads_.countP p := by
    intro p hrunning htest
    rw [hnew.countP_eq, hold.countP_eq, List.countP_cons, List.countP_cons, hrunning, htest]
  have hwaits := hsame Pc.isWaits rfl rfl
  refine ⟨hfifo, ?_, Nat.le_trans (Nat.le_of_eq hwaits) hlock,
    fun hpos => hempty (hwaits ▸ hpos), ?_⟩
  · refine List.Perm.trans ?_ htasks
    refine ((hnew.filterMap Pc.task).append_left _).trans ?_
    refine List.Perm.trans ?_ ((hold.filterMap Pc.task).append_left s.finished).symm
    change List.Perm (s.finished ++ [task] ++ others.filterMap Pc.task)
      (s.finished ++ task :: others.filterMap Pc.task)
    rw [List.append_assoc, List.singleton_append]
  · change 0 < (s.threads_.set i .test).countP Pc.isAsleep →
      s.queue_.length ≤ (s.threads_.set i .test).countP Pc.isWoken
    rw [hsame Pc.isAsleep rfl rfl, hsame Pc.isWoken rfl rfl]
    exact hcovered

theorem WorkerMoves.inv (h : WorkerMoves s i pc s') (hinv : Inv s)
    (hpc : s.threads_[i]? = some pc) : Inv s' := by
  have hnone : ∀ pc : Pc τ, pc = .wants ∨ pc = .woken → pc.task = none := by
    rintro _ (rfl | rfl) <;> rfl
  cases h with
  | again hrunning => exact hinv.move hpc rfl rfl nofun nofun nofun
  | leave hrunning => exact hinv.move hpc rfl rfl nofun nofun nofun
  | decide pc hlocks hfree hqueue hrunning =>
    exact hinv.move hpc (hnone pc hlocks) rfl (fun _ => ⟨hfree, hqueue⟩) nofun fun _ => hqueue
  | nothing pc hlocks hfree hqueue hrunning =>
    exact hinv.move hpc (hnone pc hlocks) rfl nofun nofun fun _ => hqueue
  | take pc hlocks hfree front rest hqueue => exact hinv.take hpc hlocks hfree hqueue
  | sleep => exact hinv.move hpc rfl rfl nofun (fun _ => rfl) nofun
  | finish task => exact hinv.finish hpc

/-- A sleeper is woken, and perhaps one more task is in the queue. -/
theorem Inv.wake (h : Inv s) (hpc : s.threads_[i]? = some .asleep) :
    s.threads_.countP Pc.isWaits = (s.threads_.set i .woken).countP Pc.isWaits ∧
      (s.threads_.set i .woken).countP Pc.isWoken = s.threads_.countP Pc.isWoken + 1 ∧
      s.queue_.length ≤ s.threads_.countP Pc.isWoken ∧
      ((s.threads_.set i .woken).filterMap Pc.task).Perm (s.threads_.filterMap Pc.task) := by
  obtain ⟨others, hold, hnew⟩ := set_perm hpc .woken
  refine ⟨?_, ?_, h.covered ?_, ?_⟩
  · rw [hnew.countP_eq, hold.countP_eq, List.countP_cons, List.countP_cons]
    rfl
  · rw [hnew.countP_eq, hold.countP_eq, List.countP_cons, List.countP_cons]
    rfl
  · exact List.countP_pos_iff.mpr ⟨_, List.mem_of_getElem? hpc, rfl⟩
  · exact (hnew.filterMap Pc.task).trans (hold.filterMap Pc.task).symm

theorem Moves.inv (h : Moves s s') (hinv : Inv s) : Inv s' := by
  cases h with
  | start numThreads hstop hempty =>
    have htasks := hinv.tasks
    rw [hempty] at htasks
    have hnone : (List.replicate numThreads (Pc.test : Pc τ)).filterMap Pc.task = [] := by
      simp [Pc.task]
    refine ⟨hinv.fifo, ?_, ?_, ?_, ?_⟩
    · rw [hnone]
      exact htasks
    · simp [List.countP_replicate, Pc.isWaits]
    · simp [List.countP_replicate, Pc.isWaits]
    · simp [List.countP_replicate, Pc.isAsleep]
  | runHere task hempty => exact ⟨hinv.fifo, hinv.tasks, hinv.lock, hinv.empty, hinv.covered⟩
  | run task choice hfree =>
    have hfree := mutexFree_iff.mp hfree
    have hfifo : s.taken ++ (s.queue_ ++ [task]) = s.submitted ++ [task] := by
      rw [← List.append_assoc, hinv.fifo]
    rcases notify_cases choice s.threads_ with ⟨i, hpc, hnotify⟩ | ⟨hnone, hnotify⟩
    · obtain ⟨hwaits, hwoken, hroom, htasks⟩ := hinv.wake hpc
      refine ⟨hfifo, ?_, ?_, ?_, ?_⟩
      · rw [hnotify]
        exact (htasks.append_left _).trans hinv.tasks
      · rw [hnotify, ← hwaits]
        exact hinv.lock
      · rw [hnotify, ← hwaits, hfree]
        exact nofun
      · rw [hnotify, hwoken, List.length_append, List.length_singleton]
        intro _
        omega
    · refine ⟨hfifo, ?_, ?_, ?_, ?_⟩
      · rw [hnotify]
        exact hinv.tasks
      · rw [hnotify]
        exact hinv.lock
      · rw [hnotify, hfree]
        exact nofun
      · rw [hnotify]
        intro hpos
        obtain ⟨pc, hpc, hasleep⟩ := List.countP_pos_iff.mp hpos
        obtain ⟨i, hi⟩ := List.mem_iff_getElem?.mp hpc
        exact absurd (eq_asleep hasleep ▸ hi) (hnone i)
  | worker i pc s' hpc hmoves => exact hmoves.inv hinv hpc
  | spurious i hpc =>
    obtain ⟨hwaits, hwoken, hroom, htasks⟩ := hinv.wake hpc
    refine ⟨hinv.fifo, (htasks.append_left _).trans hinv.tasks, ?_, ?_, ?_⟩
    · rw [← hwaits]
      exact hinv.lock
    · rw [← hwaits]
      exact hinv.empty
    · rw [hwoken]
      intro _
      exact Nat.le_succ_of_le hroom
  | stop hstop => exact ⟨hinv.fifo, hinv.tasks, hinv.lock, hinv.empty, hinv.covered⟩
  | stopNotify hstop =>
    refine ⟨hinv.fifo, ?_, ?_, ?_, ?_⟩
    · rw [task_notifyAll]
      exact hinv.tasks
    · rw [countP_waits_notifyAll]
      exact hinv.lock
    · rw [countP_waits_notifyAll]
      exact hinv.empty
    · rw [countP_asleep_notifyAll]
      exact nofun
  | join k hstop hexited hjoined =>
    exact ⟨hinv.fifo, hinv.tasks, hinv.lock, hinv.empty, hinv.covered⟩
  | returns k hstop hall => exact ⟨hinv.fifo, hinv.tasks, hinv.lock, hinv.empty, hinv.covered⟩

theorem reach_inv {cond : State τ → Input τ → Prop} (h : Reach (system τ) cond s) : Inv s := by
  refine h.invariant ?_ ?_
  · rintro _ rfl
    exact ⟨rfl, List.Perm.refl _, Nat.zero_le 1, nofun, nofun⟩
  · intro s i s' hinv hallow _ hexec
    exact (exec_moves hallow hexec).inv hinv

/-- While there are tasks, a worker can go on, unless all have ended. -/
theorem Inv.progress (h : Inv s) (hqueue : s.queue_ ≠ []) :
    (∀ pc ∈ s.threads_, pc.isExited = true) ∨ ∃ pc ∈ s.threads_, enabled s pc = true := by
  have hfree : mutexFree s = true := by
    rw [mutexFree_iff]
    by_contra hwaits
    exact hqueue (h.empty (Nat.pos_of_ne_zero hwaits))
  by_cases hall : ∀ pc ∈ s.threads_, pc.isExited = true
  · exact Or.inl hall
  · push Not at hall
    obtain ⟨pc, hpc, hexited⟩ := hall
    refine Or.inr ?_
    by_cases hasleep : pc.isAsleep = true
    · -- the worker sleeps, so the tasks are covered by workers that are woken
      have hroom := h.covered (List.countP_pos_iff.mpr ⟨pc, hpc, hasleep⟩)
      have hpos : 0 < s.threads_.countP Pc.isWoken :=
        Nat.lt_of_lt_of_le (List.length_pos_iff.mpr hqueue) hroom
      obtain ⟨other, hother, hwoken⟩ := List.countP_pos_iff.mp hpos
      refine ⟨other, hother, ?_⟩
      cases other <;> first | exact hfree | cases hwoken
    · refine ⟨pc, hpc, ?_⟩
      cases pc <;> simp_all [enabled, Pc.isAsleep, Pc.isExited]

/-- In every run of a pool, with any number of workers and of threads that call
`run`: tasks are taken in the order in which they were submitted, and each one is
taken at most once and is then with one worker until it is finished; one worker at
most is in the critical section of `take`; if workers sleep, as many are woken as
there are tasks; and while there are tasks, a worker can go on unless all have
ended. -/
theorem threadPool_law (h : Reachable (system τ) s) :
    s.taken ++ s.queue_ = s.submitted ∧
      (s.finished ++ s.threads_.filterMap Pc.task).Perm (s.taken.filterMap id) ∧
      s.threads_.countP Pc.isWaits ≤ 1 ∧
      (0 < s.threads_.countP Pc.isAsleep →
        s.queue_.length ≤ s.threads_.countP Pc.isWoken) ∧
      (s.queue_ ≠ [] → (∀ pc ∈ s.threads_, pc.isExited = true) ∨
        ∃ pc ∈ s.threads_, enabled s pc = true) := by
  have hinv := reach_inv h
  exact ⟨hinv.fifo, hinv.tasks, hinv.lock, hinv.covered, hinv.progress⟩

end Tasks

/-- Two workers. The second one sleeps and is woken, but the first one takes two tasks
before it runs, and it is left with an empty function. -/
def overtaken : List (Input ℕ) :=
  [.start 2, .worker 0 false, .worker 1 false, .worker 1 false, .worker 1 false,
    .run (some 5) 0, .worker 0 false, .run (some 6) 0, .run none 0, .worker 0 false,
    .worker 0 false, .worker 0 false, .worker 1 false]

theorem overtaken_law :
    ∃ s : State ℕ, Reachable (system ℕ) s ∧ s.taken = [some 5, some 6, none] ∧ s.finished = [5] ∧
      (s.finished ++ s.threads_.filterMap Pc.task).Perm (s.taken.filterMap id) := by
  obtain ⟨s, hs, htest⟩ := exists_of_replay (M := system ℕ) (s := initial ℕ) Free rfl overtaken
    (fun s => decide (s.taken = [some 5, some 6, none] ∧ s.finished = [5])) (by decide)
  obtain ⟨htaken, hfinished⟩ := of_decide_eq_true htest
  exact ⟨s, hs, htaken, hfinished, (threadPool_law hs).2.1⟩

end TinyMuduo.ThreadPool
