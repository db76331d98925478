import TinyMuduo.Lib.Runs
import TinyMuduo.TimerOperations

/-!
Runs of a timer queue. Any thread may create a timer; on the loop thread
`addTimerInLoop` and `cancelInLoop` run between two `handleRead` invocations
or inside a timer callback, in any order and with any TimerId. The state also
records the history that laws about runs speak of: which timers were added,
which ids were returned for them, which `handleRead` ran which timer.
-/
namespace TinyMuduo.TimerRuns

open TimerQueue Runs Checked SortedSet

variable {φ : Type}

structure State (φ : Type) where
  queue : TimerQueue φ
  /-- timers created by `addTimer` whose `addTimerInLoop` has not run -/
  waiting : List Address
  /-- sequence numbers passed to `addTimerInLoop`, latest first -/
  added : List ℤ
  /-- ids returned by `addTimer` with the sequence number of their timer -/
  issued : List (TimerId × ℤ)
  reads : ℕ
  /-- each callback run: the timer and the number of the `handleRead` -/
  runs : List (ℤ × ℕ)
  /-- each cancelled timer with the value of `reads` at the cancel -/
  cancels : List (ℤ × ℕ)

def initial : State φ := ⟨TimerQueue.initial, [], [], [], 0, [], []⟩

inductive Input (φ : Type)
  | newTimer (p : Address) (cb : φ) (when : Timestamp) (interval : Interval)
  | addTimerInLoop (p : Address) (clock : Timestamp)
  | cancelInLoop (timerId : TimerId)
  | handleRead (now : Timestamp)
  | runTimer
  | endCallbacks
  | resetTimer
  | rearm (clock : Timestamp)

def atRun : Frame → Bool
  | .firing _ _ (_ :: _) => true
  | _ => false

def atEnd : Frame → Bool
  | .firing _ _ [] => true
  | _ => false

def atReset : Frame → Bool
  | .resetting _ (_ :: _) => true
  | _ => false

def atRearm : Frame → Bool
  | .resetting _ [] => true
  | _ => false

def atIdle : Frame → Bool
  | .idle => true
  | _ => false

/-- The allocator returns an address that holds no live Timer, the rest is
program order of the loop thread. -/
def Allowed (s : State φ) : Input φ → Prop
  | .newTimer p _ _ _ => (s.queue.heap p).isNone ∧ 0 < p ∧ p < uintptrMax
  | .addTimerInLoop p _ => p ∈ s.waiting ∧ s.queue.frame.UserCode
  | .cancelInLoop _ => s.queue.frame.UserCode
  | .handleRead _ => atIdle s.queue.frame
  | .runTimer => atRun s.queue.frame
  | .endCallbacks => atEnd s.queue.frame
  | .resetTimer => atReset s.queue.frame
  | .rearm _ => atRearm s.queue.frame

instance (s : State φ) : (i : Input φ) → Decidable (Allowed s i)
  | .newTimer p _ _ _ =>
      inferInstanceAs (Decidable ((s.queue.heap p).isNone ∧ 0 < p ∧ p < uintptrMax))
  | .addTimerInLoop p _ => inferInstanceAs (Decidable (p ∈ s.waiting ∧ s.queue.frame.UserCode))
  | .cancelInLoop _ => inferInstanceAs (Decidable s.queue.frame.UserCode)
  | .handleRead _ => inferInstanceAs (Decidable (atIdle s.queue.frame = true))
  | .runTimer => inferInstanceAs (Decidable (atRun s.queue.frame = true))
  | .endCallbacks => inferInstanceAs (Decidable (atEnd s.queue.frame = true))
  | .resetTimer => inferInstanceAs (Decidable (atReset s.queue.frame = true))
  | .rearm _ => inferInstanceAs (Decidable (atRearm s.queue.frame = true))

def State.owners (s : State φ) (timerId : TimerId) : List ℤ :=
  (s.issued.filter fun r => r.1 = timerId).map Prod.snd

def exec (s : State φ) : Input φ → Except Fault (State φ)
  | .newTimer p cb when interval =>
      let (queue, timerId) := s.queue.newTimer p cb when interval
      .ok { s with queue := queue
                   waiting := p :: s.waiting
                   issued := (timerId, queue.numCreated) :: s.issued }
  | .addTimerInLoop p clock => do
      let t ← s.queue.deref p
      let queue ← s.queue.addTimerInLoop p clock
      return { s with queue := queue
                      waiting := s.waiting.erase p
                      added := t.sequence :: s.added }
  | .cancelInLoop timerId => do
      let queue ← s.queue.cancelInLoop timerId
      return { s with queue := queue
                      cancels := (s.owners timerId).map (·, s.reads) ++ s.cancels }
  | .handleRead now => do
      let queue ← s.queue.handleRead now
      return { s with queue := queue, reads := s.reads + 1 }
  | .runTimer => do
      let (queue, ran) ← s.queue.runTimer
      return { s with queue := queue
                      runs := ran.toList.map (fun t => (t.sequence, s.reads)) ++ s.runs }
  | .endCallbacks => .ok { s with queue := s.queue.endCallbacks }
  | .resetTimer => do
      let queue ← s.queue.resetTimer
      return { s with queue := queue }
  | .rearm clock => do
      let queue ← s.queue.rearm clock
      return { s with queue := queue }

def system (φ : Type) : System (State φ) (Input φ) Fault where
  start := fun s => s = initial
  allowed := Allowed
  exec := exec

instance (s : State φ) (i : Input φ) : Decidable ((system φ).allowed s i) :=
  inferInstanceAs (Decidable (Allowed s i))

section Exec

variable {s : State φ} {q : TimerQueue φ} {p : Address} {t : Timer φ}

theorem exec_addTimerInLoop {clock : Timestamp} (ht : s.queue.heap p = some t)
    (hok : s.queue.addTimerInLoop p clock = .ok q) :
    exec s (.addTimerInLoop p clock) = .ok
      { s with queue := q, waiting := s.waiting.erase p, added := t.sequence :: s.added } := by
  simp only [exec, deref_of_live ht, hok, ok_bind, pure_eq_ok]

theorem exec_cancelInLoop {timerId : TimerId} (hok : s.queue.cancelInLoop timerId = .ok q) :
    exec s (.cancelInLoop timerId) = .ok
      { s with queue := q, cancels := (s.owners timerId).map (·, s.reads) ++ s.cancels } := by
  simp only [exec, hok, ok_bind, pure_eq_ok]

theorem exec_handleRead {now : Timestamp} (hok : s.queue.handleRead now = .ok q) :
    exec s (.handleRead now) = .ok { s with queue := q, reads := s.reads + 1 } := by
  simp only [exec, hok, ok_bind, pure_eq_ok]

theorem exec_runTimer (hok : s.queue.runTimer = .ok (q, some t)) :
    exec s .runTimer = .ok { s with queue := q, runs := (t.sequence, s.reads) :: s.runs } := by
  simp only [exec, hok, ok_bind, pure_eq_ok]
  rfl

theorem exec_resetTimer (hok : s.queue.resetTimer = .ok q) :
    exec s .resetTimer = .ok { s with queue := q } := by
  simp only [exec, hok, ok_bind, pure_eq_ok]

theorem exec_rearm {clock : Timestamp} (hok : s.queue.rearm clock = .ok q) :
    exec s (.rearm clock) = .ok { s with queue := q } := by
  simp only [exec, hok, ok_bind, pure_eq_ok]

theorem handleRead_of_exec {s' : State φ} {now : Timestamp}
    (h : exec s (.handleRead now) = .ok s') : s.queue.handleRead now = .ok s'.queue := by
  obtain ⟨q, hok, hs⟩ := bind_eq_ok.mp h
  cases hs
  exact hok

theorem resetTimer_of_exec {s' : State φ} (h : exec s .resetTimer = .ok s') :
    s.queue.resetTimer = .ok s'.queue := by
  obtain ⟨q, hok, hs⟩ := bind_eq_ok.mp h
  cases hs
  exact hok

theorem rearm_of_exec {s' : State φ} {clock : Timestamp} (h : exec s (.rearm clock) = .ok s') :
    s.queue.rearm clock = .ok s'.queue := by
  obtain ⟨q, hok, hs⟩ := bind_eq_ok.mp h
  cases hs
  exact hok

end Exec

/-- The frame an internal step of `handleRead` starts from. -/
theorem frame_of_atRun {f : Frame} (h : atRun f = true) :
    ∃ now ran e todo, f = .firing now ran (e :: todo) := by
  unfold atRun at h
  split at h
  · exact ⟨_, _, _, _, rfl⟩
  · simp at h

theorem frame_of_atEnd {f : Frame} (h : atEnd f = true) :
    ∃ now ran, f = .firing now ran [] := by
  unfold atEnd at h
  split at h
  · exact ⟨_, _, rfl⟩
  · simp at h

theorem frame_of_atReset {f : Frame} (h : atReset f = true) :
    ∃ now e todo, f = .resetting now (e :: todo) := by
  unfold atReset at h
  split at h
  · exact ⟨_, _, _, rfl⟩
  · simp at h

theorem frame_of_atRearm {f : Frame} (h : atRearm f = true) :
    ∃ now, f = .resetting now [] := by
  unfold atRearm at h
  split at h
  · exact ⟨_, rfl⟩
  · simp at h

theorem frame_of_atIdle {f : Frame} (h : atIdle f = true) : f = .idle := by
  unfold atIdle at h
  split at h
  · rfl
  · simp at h

inductive Moves (s : State φ) : Input φ → State φ → Prop
  | newTimer (p : Address) (cb : φ) (when : Timestamp) (interval : Interval)
      (hfree : s.queue.heap p = none) :
      Moves s (.newTimer p cb when interval)
        { s with queue := (s.queue.newTimer p cb when interval).1
                 waiting := p :: s.waiting
                 issued := ((s.queue.newTimer p cb when interval).2,
                  (s.queue.newTimer p cb when interval).1.numCreated) :: s.issued }
  | addTimerInLoop (p : Address) (clock : Timestamp) (t : Timer φ) (hp : p ∈ s.waiting)
      (ht : s.queue.heap p = some t) :
      Moves s (.addTimerInLoop p clock)
        { s with
          queue :=
            { s.queue with
              timerList := (s.queue.timerList.insert (entry t.expirationTimestamp p)).1
              activeTimerSet := (s.queue.activeTimerSet.insert (activeTimer p t.sequence)).1
              timerfd := if s.queue.earliestChanged t.expirationTimestamp
                then resetTimerfd clock t.expirationTimestamp else s.queue.timerfd }
          waiting := s.waiting.erase p
          added := t.sequence :: s.added }
  | cancelPresent (timerId : TimerId) (t : Timer φ)
      (hin : activeTimer timerId.timer timerId.sequence ∈ s.queue.activeTimerSet)
      (ht : s.queue.heap timerId.timer = some t) (hseq : t.sequence = timerId.sequence)
      (hlist : entry t.expirationTimestamp timerId.timer ∈ s.queue.timerList) :
      Moves s (.cancelInLoop timerId)
        { s with
          queue :=
            { s.queue with
              heap := Function.update s.queue.heap timerId.timer none
              freed := s.queue.freed ++ [t.sequence]
              timerList :=
                (s.queue.timerList.erase (entry t.expirationTimestamp timerId.timer)).1
              activeTimerSet :=
                (s.queue.activeTimerSet.erase (activeTimer timerId.timer t.sequence)).1 }
          cancels := (s.owners timerId).map (·, s.reads) ++ s.cancels }
  | cancelAbsent (timerId : TimerId) (canceling : SortedSet ActiveTimer)
      (hout : activeTimer timerId.timer timerId.sequence ∉ s.queue.activeTimerSet) :
      Moves s (.cancelInLoop timerId)
        { s with
          queue := { s.queue with cancelingTimerSet := canceling }
          cancels := (s.owners timerId).map (·, s.reads) ++ s.cancels }
  | handleRead (now : Timestamp) (active : SortedSet ActiveTimer) (fd : Timerfd)
      (hidle : s.queue.frame = .idle) :
      Moves s (.handleRead now)
        { s with
          queue :=
            { s.queue with
              timerList := s.queue.timerList.fromLowerBound (entry now uintptrMax)
              activeTimerSet := active
              cancelingTimerSet := .empty
              callingExpiredTimers := true
              timerfd := fd
              frame := .firing now [] (s.queue.timerList.below (entry now uintptrMax)) }
          reads := s.reads + 1 }
  | runTimer (now : Timestamp) (ran : List Entry) (e : Entry) (todo : List Entry) (t : Timer φ)
      (hframe : s.queue.frame = .firing now ran (e :: todo))
      (ht : s.queue.heap e.timer = some t) :
      Moves s .runTimer
        { s with
          queue := { s.queue with frame := .firing now (ran ++ [e]) todo }
          runs := (t.sequence, s.reads) :: s.runs }
  | endCallbacks (now : Timestamp) (ran : List Entry)
      (hframe : s.queue.frame = .firing now ran []) :
      Moves s .endCallbacks
        { s with
          queue := { s.queue with callingExpiredTimers := false, frame := .resetting now ran } }
  | restart (now : Timestamp) (e : Entry) (todo : List Entry) (t : Timer φ)
      (hframe : s.queue.frame = .resetting now (e :: todo)) (ht : s.queue.heap e.timer = some t)
      (hrepeat : t.isRepeat ∧ activeTimer e.timer t.sequence ∉ s.queue.cancelingTimerSet) :
      Moves s .resetTimer
        { s with
          queue :=
            { s.queue with
              heap := Function.update s.queue.heap e.timer (some (t.restart now))
              timerList := (s.queue.timerList.insert
                (entry (t.restart now).expirationTimestamp e.timer)).1
              activeTimerSet := (s.queue.activeTimerSet.insert
                (activeTimer e.timer (t.restart now).sequence)).1
              frame := .resetting now todo } }
  | delete (now : Timestamp) (e : Entry) (todo : List Entry) (t : Timer φ)
      (hframe : s.queue.frame = .resetting now (e :: todo)) (ht : s.queue.heap e.timer = some t)
      (hlast : ¬ (t.isRepeat ∧ activeTimer e.timer t.sequence ∉ s.queue.cancelingTimerSet)) :
      Moves s .resetTimer
        { s with
          queue :=
            { s.queue with
              heap := Function.update s.queue.heap e.timer none
              freed := s.queue.freed ++ [t.sequence]
              frame := .resetting now todo } }
  | rearm (clock now : Timestamp) (fd : Timerfd) (hframe : s.queue.frame = .resetting now []) :
      Moves s (.rearm clock) { s with queue := { s.queue with timerfd := fd, frame := .idle } }

/-- Every step is one of these. -/
theorem exec_moves {s s' : State φ} (h : Rep s.queue s.waiting) {i : Input φ}
    (hallow : Allowed s i) (hexec : exec s i = .ok s') : Moves s i s' := by
  cases i with
  | newTimer p cb when interval =>
    cases hexec
    exact .newTimer p cb when interval (by simpa using hallow.1)
  | addTimerInLoop p clock =>
    obtain ⟨t, ht, hok⟩ := addTimerInLoop_ok h hallow.1 clock
    rw [exec_addTimerInLoop ht hok, Except.ok.injEq] at hexec
    subst hexec
    exact .addTimerInLoop p clock t hallow.1 ht
  | cancelInLoop timerId =>
    by_cases hin : activeTimer timerId.timer timerId.sequence ∈ s.queue.activeTimerSet
    · obtain ⟨t, ht, hseq, hlist, hok⟩ := cancelInLoop_present h hin
      rw [exec_cancelInLoop hok, Except.ok.injEq] at hexec
      subst hexec
      exact .cancelPresent timerId t hin ht hseq hlist
    · obtain ⟨canceling, hok⟩ := cancelInLoop_absent h hin
      rw [exec_cancelInLoop hok, Except.ok.injEq] at hexec
      subst hexec
      exact .cancelAbsent timerId canceling hin
  | handleRead now =>
    have hidle := frame_of_atIdle hallow
    obtain ⟨active, fd, hok, -⟩ := handleRead_ok h hidle now
    rw [exec_handleRead hok, Except.ok.injEq] at hexec
    subst hexec
    exact .handleRead now active fd hidle
  | runTimer =>
    obtain ⟨now, ran, e, todo, hframe⟩ := frame_of_atRun hallow
    obtain ⟨t, ht, hok⟩ := runTimer_ok h hframe
    rw [exec_runTimer hok, Except.ok.injEq] at hexec
    subst hexec
    exact .runTimer now ran e todo t hframe ht
  | endCallbacks =>
    obtain ⟨now, ran, hframe⟩ := frame_of_atEnd hallow
    cases hexec
    rw [endCallbacks_eq hframe]
    exact .endCallbacks now ran hframe
  | resetTimer =>
    obtain ⟨now, e, todo, hframe⟩ := frame_of_atReset hallow
    obtain ⟨t, ht, hok⟩ := resetTimer_ok h hframe
    rw [exec_resetTimer hok, Except.ok.injEq] at hexec
    subst hexec
    split
    · rename_i hrepeat
      exact .restart now e todo t hframe ht hrepeat
    · rename_i hlast
      exact .delete now e todo t hframe ht hlast
  | rearm clock =>
    obtain ⟨now, hframe⟩ := frame_of_atRearm hallow
    obtain ⟨fd, hok, -⟩ := rearm_ok h hframe clock
    rw [exec_rearm hok, Except.ok.injEq] at hexec
    subst hexec
    exact .rearm clock now fd hframe

def Keeps (q q' : TimerQueue φ) : Prop :=
  (∀ k ∈ q.freed, k ∈ q'.freed) ∧
  ∀ p t, q.heap p = some t →
    t.sequence ∈ q'.freed ∨ ∃ t', q'.heap p = some t' ∧ t'.sequence = t.sequence

theorem Keeps.of_eq {q q' : TimerQueue φ} (hheap : q'.heap = q.heap)
    (hfreed : q'.freed = q.freed) : Keeps q q' := by
  constructor
  · rw [hfreed]
    exact fun k hk => hk
  · intro p t ht
    exact Or.inr ⟨t, by rw [hheap, ht], rfl⟩

theorem Keeps.of_free {q q' : TimerQueue φ} {p : Address} {t : Timer φ}
    (ht : q.heap p = some t) (hheap : q'.heap = Function.update q.heap p none)
    (hfreed : q'.freed = q.freed ++ [t.sequence]) : Keeps q q' := by
  constructor
  · intro k hk
    rw [hfreed]
    exact List.mem_append_left _ hk
  · intro a s hs
    by_cases ha : a = p
    · subst ha
      obtain rfl : t = s := Option.some.inj (ht.symm.trans hs)
      left
      rw [hfreed]
      simp
    · right
      exact ⟨s, by simpa [hheap, ha] using hs, rfl⟩

theorem Keeps.of_update {q q' : TimerQueue φ} {p : Address} {u : Timer φ}
    (hseq : ∀ t, q.heap p = some t → u.sequence = t.sequence)
    (hheap : q'.heap = Function.update q.heap p (some u)) (hfreed : q'.freed = q.freed) :
    Keeps q q' := by
  constructor
  · rw [hfreed]
    exact fun k hk => hk
  · intro a s hs
    by_cases ha : a = p
    · subst ha
      exact Or.inr ⟨u, by simp [hheap], hseq s hs⟩
    · exact Or.inr ⟨s, by simpa [hheap, ha] using hs, rfl⟩

structure Tracked (s : State φ) : Prop where
  rep : Rep s.queue s.waiting
  placed : ∀ k ∈ s.added, k ∈ s.queue.freed ∨
    ∃ p t, s.queue.heap p = some t ∧ t.sequence = k ∧ p ∉ s.waiting
  unadded : ∀ p ∈ s.waiting, ∀ t, s.queue.heap p = some t → t.sequence ∉ s.added
  bounded : ∀ k ∈ s.added, k ≤ s.queue.numCreated
  nodup : s.added.Nodup

/-- A step that creates and adds nothing keeps the places. -/
theorem Tracked.keep {s s' : State φ} (h : Tracked s) (hrep : Rep s'.queue s'.waiting)
    (hwaiting : s'.waiting = s.waiting) (hadded : s'.added = s.added)
    (hcreated : s'.queue.numCreated = s.queue.numCreated)
    (hkeeps : Keeps s.queue s'.queue) : Tracked s' := by
  refine ⟨hrep, ?_, ?_, ?_, ?_⟩
  · intro k hk
    rw [hadded] at hk
    rcases h.placed k hk with hfreed | ⟨p, t, ht, hseq, hout⟩
    · exact Or.inl (hkeeps.1 k hfreed)
    · rcases hkeeps.2 p t ht with hfreed | ⟨t', ht', hseq'⟩
      · exact Or.inl (hseq ▸ hfreed)
      · exact Or.inr ⟨p, t', ht', hseq'.trans hseq, by rw [hwaiting]; exact hout⟩
  · intro p hp t ht hmem
    rw [hwaiting] at hp
    rw [hadded] at hmem
    rcases h.placed _ hmem with hfreed | ⟨a, ta, hta, hseq, hout⟩
    · exact hrep.memory.freed_dead p t ht (hkeeps.1 _ hfreed)
    · rcases hkeeps.2 a ta hta with hfreed | ⟨ta', hta', hseq'⟩
      · exact hrep.memory.freed_dead p t ht (hseq ▸ hfreed)
      · have hap : a = p := hrep.memory.distinct a p ta' t hta' ht (hseq'.trans hseq)
        exact hout (hap ▸ hp)
  · rw [hadded, hcreated]
    exact h.bounded
  · rw [hadded]
    exact h.nodup

theorem initial_tracked : Tracked (initial : State φ) :=
  ⟨initial_rep, by simp [initial], by simp [initial], by simp [initial], by simp [initial]⟩

theorem newTimer_tracked {s : State φ} (h : Tracked s) {p : Address}
    (hfree : s.queue.heap p = none) (hp : 0 < p ∧ p < uintptrMax) (cb : φ)
    (when : Timestamp) (interval : Interval) :
    ∃ s', exec s (.newTimer p cb when interval) = .ok s' ∧ Tracked s' := by
  have hnew : ∀ a t, (s.queue.newTimer p cb when interval).1.heap a = some t →
      (a = p ∧ t.sequence = s.queue.numCreated + 1) ∨ (a ≠ p ∧ s.queue.heap a = some t) := by
    intro a t ht
    by_cases ha : a = p
    · subst ha
      have : t.sequence = s.queue.numCreated + 1 := by
        simp only [newTimer, Function.update_self, Option.some.injEq] at ht
        rw [← ht]
      exact Or.inl ⟨rfl, this⟩
    · exact Or.inr ⟨ha, by simpa [newTimer, ha] using ht⟩
  refine ⟨_, rfl, newTimer_rep h.rep hfree hp cb when interval, ?_, ?_, ?_, h.nodup⟩
  · intro k hk
    rcases h.placed k hk with hfreed | ⟨a, t, ht, hseq, hout⟩
    · exact Or.inl hfreed
    · have ha : a ≠ p := by
        rintro rfl
        simp [hfree] at ht
      refine Or.inr ⟨a, t, by simpa [newTimer, ha] using ht, hseq, ?_⟩
      simp [ha, hout]
  · intro a ha t ht hmem
    rcases hnew a t ht with ⟨rfl, hseq⟩ | ⟨hne, ht'⟩
    · have := h.bounded _ hmem
      omega
    · exact h.unadded a ((List.mem_cons.mp ha).resolve_left hne) t ht' hmem
  · intro k hk
    have := h.bounded k hk
    change k ≤ s.queue.numCreated + 1
    omega

theorem addTimerInLoop_tracked {s : State φ} (h : Tracked s) {p : Address}
    (hp : p ∈ s.waiting) (clock : Timestamp) :
    ∃ s', exec s (.addTimerInLoop p clock) = .ok s' ∧ Tracked s' := by
  obtain ⟨t, ht, hok⟩ := addTimerInLoop_ok h.rep hp clock
  have hrep := addTimerInLoop_rep h.rep hp hok
  refine ⟨_, exec_addTimerInLoop ht hok, hrep, ?_, ?_, ?_, ?_⟩
  · intro k hk
    rcases List.mem_cons.mp hk with rfl | hk
    · refine Or.inr ⟨p, t, ht, rfl, ?_⟩
      intro hmem
      exact (h.rep.index.waiting_nodup.mem_erase_iff.mp hmem).1 rfl
    · rcases h.placed k hk with hfreed | ⟨a, ta, hta, hseq, hout⟩
      · exact Or.inl hfreed
      · exact Or.inr ⟨a, ta, hta, hseq, fun hmem => hout (List.mem_of_mem_erase hmem)⟩
  · intro a ha ta hta hmem
    obtain ⟨hne, hwait⟩ := h.rep.index.waiting_nodup.mem_erase_iff.mp ha
    rcases List.mem_cons.mp hmem with heq | hmem
    · exact hne (h.rep.memory.distinct a p ta t hta ht heq)
    · exact h.unadded a hwait ta hta hmem
  · intro k hk
    rcases List.mem_cons.mp hk with rfl | hk
    · exact (h.rep.memory.sequence p t ht).2
    · exact h.bounded k hk
  · exact List.nodup_cons.mpr ⟨h.unadded p hp t ht, h.nodup⟩

theorem cancelInLoop_keeps {q q' : TimerQueue φ} {waiting : List Address} (h : Rep q waiting)
    {timerId : TimerId} (hexec : q.cancelInLoop timerId = .ok q') :
    Keeps q q' ∧ q'.numCreated = q.numCreated := by
  by_cases hin : activeTimer timerId.timer timerId.sequence ∈ q.activeTimerSet
  · obtain ⟨t, ht, -, -, hok⟩ := cancelInLoop_present h hin
    rw [hok, Except.ok.injEq] at hexec
    subst hexec
    exact ⟨Keeps.of_free ht rfl rfl, rfl⟩
  · obtain ⟨canceling, hok⟩ := cancelInLoop_absent h hin
    rw [hok, Except.ok.injEq] at hexec
    subst hexec
    exact ⟨Keeps.of_eq rfl rfl, rfl⟩

theorem resetTimer_keeps {q q' : TimerQueue φ} {waiting : List Address} (h : Rep q waiting)
    {now : Timestamp} {todo : List Entry} {e : Entry}
    (hframe : q.frame = .resetting now (e :: todo)) (hexec : q.resetTimer = .ok q') :
    Keeps q q' ∧ q'.numCreated = q.numCreated := by
  obtain ⟨t, ht, hok⟩ := resetTimer_ok h hframe
  rw [hok, Except.ok.injEq] at hexec
  subst hexec
  split
  · refine ⟨Keeps.of_update (u := t.restart now) ?_ rfl rfl, rfl⟩
    intro s hs
    obtain rfl : t = s := Option.some.inj (ht.symm.trans hs)
    exact restart_sequence t now
  · exact ⟨Keeps.of_free ht rfl rfl, rfl⟩

/-- Every step the program can take succeeds and keeps the invariant. -/
theorem step_tracked {s : State φ} (h : Tracked s) (i : Input φ) (hallow : Allowed s i) :
    ∃ s', exec s i = .ok s' ∧ Tracked s' := by
  cases i with
  | newTimer p cb when interval =>
    exact newTimer_tracked h (by simpa using hallow.1) hallow.2 cb when interval
  | addTimerInLoop p clock => exact addTimerInLoop_tracked h hallow.1 clock
  | cancelInLoop timerId =>
    obtain ⟨q, hok, hrep⟩ := cancelInLoop_rep h.rep timerId
    obtain ⟨hkeeps, hcreated⟩ := cancelInLoop_keeps h.rep hok
    exact ⟨_, exec_cancelInLoop hok, h.keep hrep rfl rfl hcreated hkeeps⟩
  | handleRead now =>
    have hidle := frame_of_atIdle hallow
    obtain ⟨active', fd, hok, -⟩ := handleRead_ok h.rep hidle now
    exact ⟨_, exec_handleRead hok,
      h.keep (handleRead_rep h.rep hidle hok) rfl rfl rfl (Keeps.of_eq rfl rfl)⟩
  | runTimer =>
    obtain ⟨now, ran, e, todo, hframe⟩ := frame_of_atRun hallow
    obtain ⟨t, -, hok⟩ := runTimer_ok h.rep hframe
    exact ⟨_, exec_runTimer hok,
      h.keep (runTimer_rep h.rep hframe) rfl rfl rfl (Keeps.of_eq rfl rfl)⟩
  | endCallbacks =>
    obtain ⟨now, ran, hframe⟩ := frame_of_atEnd hallow
    have hq := endCallbacks_eq hframe
    exact ⟨_, rfl, h.keep (endCallbacks_rep h.rep hframe) rfl rfl (by rw [hq])
      (Keeps.of_eq (by rw [hq]) (by rw [hq]))⟩
  | resetTimer =>
    obtain ⟨now, e, todo, hframe⟩ := frame_of_atReset hallow
    obtain ⟨t, -, hok⟩ := resetTimer_ok h.rep hframe
    obtain ⟨hkeeps, hcreated⟩ := resetTimer_keeps h.rep hframe hok
    exact ⟨_, exec_resetTimer hok,
      h.keep (resetTimer_rep h.rep hframe hok) rfl rfl hcreated hkeeps⟩
  | rearm clock =>
    obtain ⟨now, hframe⟩ := frame_of_atRearm hallow
    obtain ⟨fd, hok, -⟩ := rearm_ok h.rep hframe clock
    exact ⟨_, exec_rearm hok,
      h.keep (rearm_rep h.rep hframe hok) rfl rfl rfl (Keeps.of_eq rfl rfl)⟩

theorem reach_tracked {cond : State φ → Input φ → Prop} {s : State φ}
    (h : Reach (system φ) cond s) : Tracked s := by
  refine h.invariant ?_ ?_
  · rintro _ rfl
    exact initial_tracked
  · intro s i s' hs hallow _ hexec
    obtain ⟨r, hr, htracked⟩ := step_tracked hs i hallow
    obtain rfl : r = s' := Except.ok.inj (hr.symm.trans hexec)
    exact htracked

/-- What the two sets and the running batch say about the timers. -/
structure Represented (q : TimerQueue φ) : Prop where
  same : ∀ p, (∃ w, entry w p ∈ q.timerList) ↔ ∃ k, activeTimer p k ∈ q.activeTimerSet
  expiration : ∀ w p, entry w p ∈ q.timerList →
    ∃ t, q.heap p = some t ∧ t.expirationTimestamp = w
  sequence : ∀ p k, activeTimer p k ∈ q.activeTimerSet →
    ∃ t, q.heap p = some t ∧ t.sequence = k
  batch : ∀ e ∈ q.frame.batch, (∀ w, entry w e.timer ∉ q.timerList) ∧
    ∀ k, activeTimer e.timer k ∉ q.activeTimerSet

theorem represented_of_rep {q : TimerQueue φ} {waiting : List Address} (h : Rep q waiting) :
    Represented q := by
  refine ⟨?_, ?_, ?_, ?_⟩
  · intro p
    constructor
    · rintro ⟨w, hw⟩
      obtain ⟨t, -, -, hact⟩ := h.index.listed w p hw
      exact ⟨t.sequence, hact⟩
    · rintro ⟨k, hk⟩
      obtain ⟨t, -, -, hlist⟩ := h.index.active p k hk
      exact ⟨_, hlist⟩
  · intro w p hw
    obtain ⟨t, ht, hexp, -⟩ := h.index.listed w p hw
    exact ⟨t, ht, hexp⟩
  · intro p k hk
    obtain ⟨t, ht, hseq, -⟩ := h.index.active p k hk
    exact ⟨t, ht, hseq⟩
  · intro e he
    exact ⟨h.index.batch_out e he, h.index.not_active (h.index.batch_out e he)⟩

def QueuedTimer (q : TimerQueue φ) (k : ℤ) : Prop :=
  ∃ p t, q.heap p = some t ∧ t.sequence = k ∧
    entry t.expirationTimestamp p ∈ q.timerList ∧ activeTimer p k ∈ q.activeTimerSet

def BatchTimer (q : TimerQueue φ) (k : ℤ) : Prop :=
  ∃ e ∈ q.frame.batch, ∃ t, q.heap e.timer = some t ∧ t.sequence = k

def ExactlyOne (a b c : Prop) : Prop :=
  (a ∧ ¬ b ∧ ¬ c) ∨ (¬ a ∧ b ∧ ¬ c) ∨ (¬ a ∧ ¬ b ∧ c)

theorem Tracked.exactlyOne {s : State φ} (h : Tracked s) {k : ℤ} (hk : k ∈ s.added) :
    ExactlyOne (QueuedTimer s.queue k) (BatchTimer s.queue k) (k ∈ s.queue.freed) := by
  have queued_live : QueuedTimer s.queue k → k ∉ s.queue.freed := by
    rintro ⟨p, t, ht, rfl, -⟩
    exact h.rep.memory.freed_dead p t ht
  have batch_live : BatchTimer s.queue k → k ∉ s.queue.freed := by
    rintro ⟨e, -, t, ht, rfl⟩
    exact h.rep.memory.freed_dead _ t ht
  have apart : BatchTimer s.queue k → ¬ QueuedTimer s.queue k := by
    rintro ⟨e, he, t, ht, hseq⟩ ⟨p, t', ht', hseq', hlist, -⟩
    have hp : e.timer = p := h.rep.memory.distinct _ p t t' ht ht' (hseq.trans hseq'.symm)
    subst hp
    exact h.rep.index.batch_out e he _ hlist
  rcases h.placed k hk with hfreed | ⟨p, t, ht, hseq, hout⟩
  · exact Or.inr (Or.inr ⟨fun hq => queued_live hq hfreed, fun hb => batch_live hb hfreed, hfreed⟩)
  · rcases h.rep.index.covered p t ht with hlist | hbatch | hwait
    · obtain ⟨t', ht', -, hact⟩ := h.rep.index.listed _ p hlist
      obtain rfl : t = t' := Option.some.inj (ht.symm.trans ht')
      have hq : QueuedTimer s.queue k := ⟨p, t, ht, hseq, hlist, hseq ▸ hact⟩
      exact Or.inl ⟨hq, fun hb => apart hb hq, queued_live hq⟩
    · obtain ⟨e, he, rfl⟩ := List.mem_map.mp hbatch
      have hb : BatchTimer s.queue k := ⟨e, he, t, ht, hseq⟩
      exact Or.inr (Or.inl ⟨apart hb, hb, batch_live hb⟩)
    · exact absurd hwait hout

/-- In every state of every run the two sets index the same live timers under
their current keys, every added timer is queued, in the batch or deleted once,
and no assertion of any possible step fails. -/
theorem timer_queue_representation {s : State φ} (h : Reachable (system φ) s) :
    Represented s.queue ∧ s.queue.timerList.size = s.queue.activeTimerSet.size ∧
      s.added.Nodup ∧ s.queue.freed.Nodup ∧
      (∀ k ∈ s.added,
        ExactlyOne (QueuedTimer s.queue k) (BatchTimer s.queue k) (k ∈ s.queue.freed)) ∧
      ∀ i, Allowed s i → ∃ s', exec s i = .ok s' := by
  have htracked := reach_tracked h
  refine ⟨represented_of_rep htracked.rep, htracked.rep.index.sizes, htracked.nodup,
    htracked.rep.memory.freed_nodup, fun k hk => htracked.exactlyOne hk, ?_⟩
  intro i hallow
  obtain ⟨s', hexec, -⟩ := step_tracked htracked i hallow
  exact ⟨s', hexec⟩

/-- A run that fires a repeating timer whose callback cancels another timer
and adds a third at the freed address. -/
def nestedRun : List (Input Unit) :=
  [.newTimer 16 () 10 ⟨true, 5⟩, .addTimerInLoop 16 1, .newTimer 32 () 90 ⟨false, 0⟩,
    .addTimerInLoop 32 2, .handleRead 20, .runTimer, .cancelInLoop ⟨32, 2⟩,
    .newTimer 32 () 7 ⟨false, 0⟩, .addTimerInLoop 32 21, .endCallbacks, .resetTimer,
    .rearm 22]

theorem nestedRun_represented :
    ∃ s, Reachable (system Unit) s ∧ s.added = [3, 2, 1] ∧ s.queue.freed = [2] ∧
      Represented s.queue := by
  obtain ⟨s, hs, htest⟩ := exists_of_replay (M := system Unit) (s := initial) Free rfl
    nestedRun (fun s => decide (s.added = [3, 2, 1] ∧ s.queue.freed = [2])) (by decide)
  obtain ⟨hadded, hfreed⟩ := of_decide_eq_true htest
  exact ⟨s, hs, hadded, hfreed, (timer_queue_representation hs).1⟩

end TinyMuduo.TimerRuns
