import TinyMuduo.BlockingQueue
import TinyMuduo.LogFileRuns

/-!
Asynchronous logging through a queue. Any thread puts its lines; the logging
thread takes them one by one and writes them to the log file, until it takes the
empty message that `stop` puts. The queue is either of the two blocking queues,
with all the threads inside its operations; the rest of the logging thread and
of `stop` goes one access of a shared variable at a time.
-/
namespace TinyMuduo.AsyncLoggingQueue

open Checked Runs LogFile
open BlockingQueue (Op Result putItems takenItems)

/-- What the logger relies on in `QUEUE<MSG>`. -/
structure Queue where
  σ : Type
  ι : Type
  κ : Type
  [decEq : DecidableEq κ]
  program : Monitor.Program σ (Op (List UInt8) ι) κ (Result (List UInt8)) BlockingQueue.Failure
  start : σ
  items : σ → List (List UInt8)
  fifo : ∀ s, Reachable (Monitor.system program start) s →
    takenItems s.done ++ items s.shared = putItems s.done
  takes : ∀ s, Reachable (Monitor.system program start) s →
    (takenItems s.done).length = s.done.countP fun e => e.2.1.isTake
  succeeds : ∀ s, Reachable (Monitor.system program start) s →
    ∀ i, ∃ s', Monitor.exec program s i = .ok s'
  covered : ∀ s, Reachable (Monitor.system program start) s →
    ∀ thread, (thread, .take) ∈ s.asleep →
      (items s.shared).length ≤ s.woken.countP fun p => p.2.isTake

attribute [instance] Queue.decEq

inductive Failure
  /-- `assert(running_ == true)` -/
  | notRunning
  /-- `assert(running_ == false)` -/
  | stillRunning
  /-- `assert(length_ <= sizeof data_)` -/
  | tooLong
  | queue (failure : BlockingQueue.Failure)
  | noOutput
  | file (fault : Fault)
  deriving DecidableEq, Repr

inductive Pc
  | idle
  | begin
  | loop
  | taking
  | flush
  | exited
  deriving DecidableEq, Repr

structure State (Q : Queue) where
  running_ : Bool
  queue_ : Monitor.State Q.σ (Op (List UInt8) Q.ι) (Result (List UInt8))
  /-- threads in `stop` that have not called `put` -/
  stoppers : List ℕ
  pc : Pc
  /-- calls of `take` that have returned to the logging thread -/
  taken : ℕ
  output : Option LogFile
  appended : List (List UInt8)
  written : List LogLine

variable {Q : Queue}

def initial (Q : Queue) : State Q := ⟨false, .initial Q.start, [], .idle, 0, none, [], []⟩

/-- The constructor of `MSG`: a `LogMessage` has place for so many bytes, a
`string` for any number. -/
def fits (sizeofData : Option ℕ) (logline : List UInt8) : Prop :=
  ∀ n ∈ sizeofData, logline.length ≤ n

instance (sizeofData : Option ℕ) (logline : List UInt8) : Decidable (fits sizeofData logline) :=
  inferInstanceAs (Decidable (∀ n ∈ sizeofData, logline.length ≤ n))

/-- What the next `take` has returned to the logging thread, which is the only
one that takes. -/
def returned (s : State Q) : Option (List UInt8) := (takenItems s.queue_.done)[s.taken]?

structure Env where
  rollTime : ℤ
  calls : Calls

def queueStep (s : State Q) (i : Monitor.Input (Op (List UInt8) Q.ι)) :
    Except Failure (State Q) := do
  let queue_ ← (Monitor.exec Q.program s.queue_ i).mapError .queue
  return { s with queue_ := queue_ }

def loggerStep (cfg : Config) (s : State Q) (env : Env) : Except Failure (State Q) :=
  match s.pc with
  | .idle | .exited => .ok s
  | .begin => do
      require (s.running_ = true) .notRunning
      let output ← (LogFile.construct cfg env.rollTime env.calls.opens).mapError .file
      return { s with pc := .loop, output := some output }
  | .loop => queueStep { s with pc := .taking } (.call 0 .take)
  | .taking =>
      match returned s with
      | none => .ok s
      | some msg =>
          if msg.isEmpty then do
            require (s.running_ = false) .stillRunning
            return { s with pc := .flush, taken := s.taken + 1 }
          else do
            let output ← demand s.output .noOutput
            let line : LogLine := ⟨msg, env.rollTime⟩
            let output ← (LogFile.append cfg output line env.calls).mapError .file
            return { s with pc := .loop, taken := s.taken + 1, output := some output
                            written := s.written ++ [line] }
  | .flush => do
      let output ← demand s.output .noOutput
      let output ← (LogFile.flush output).mapError .file
      return { s with pc := .exited, output := some output }

inductive Input (Q : Queue)
  | append (thread : ℕ) (logline : List UInt8)
  | queue (i : Monitor.Input (Op (List UInt8) Q.ι))
  /-- `start` up to the latch -/
  | start
  /-- the store of `stop` -/
  | stop (thread : ℕ)
  | stopPut (thread : ℕ)
  | logger (env : Env)

/-- The logging thread is thread 0. `start` is called once and waits for the
latch, so a `stop` after it finds the logging thread past its first assertion. -/
def Allowed (s : State Q) : Input Q → Prop
  | .append thread logline =>
      thread ≠ 0 ∧ Monitor.Allowed s.queue_ (.call thread (.put logline))
  | .queue i => i.newCalls.isEmpty = true ∧ Monitor.Allowed s.queue_ i
  | .start => s.pc = .idle
  | .stop _ => s.pc ≠ .idle ∧ s.pc ≠ .begin
  | .stopPut thread =>
      thread ≠ 0 ∧ thread ∈ s.stoppers ∧ Monitor.Allowed s.queue_ (.call thread (.put []))
  | .logger _ => True

instance (s : State Q) : (i : Input Q) → Decidable (Allowed s i)
  | .append thread logline => inferInstanceAs (Decidable
      (thread ≠ 0 ∧ Monitor.Allowed s.queue_ (.call thread (.put logline))))
  | .queue i => inferInstanceAs (Decidable
      (i.newCalls.isEmpty = true ∧ Monitor.Allowed s.queue_ i))
  | .start => inferInstanceAs (Decidable (s.pc = .idle))
  | .stop _ => inferInstanceAs (Decidable (s.pc ≠ .idle ∧ s.pc ≠ .begin))
  | .stopPut thread => inferInstanceAs (Decidable
      (thread ≠ 0 ∧ thread ∈ s.stoppers ∧ Monitor.Allowed s.queue_ (.call thread (.put []))))
  | .logger _ => isTrue trivial

def exec (sizeofData : Option ℕ) (cfg : Config) (s : State Q) :
    Input Q → Except Failure (State Q)
  | .append thread logline => do
      require (fits sizeofData logline) .tooLong
      queueStep { s with appended := s.appended ++ [logline] } (.call thread (.put logline))
  | .queue i => queueStep s i
  | .start => .ok { s with running_ := true, pc := .begin }
  | .stop thread => .ok { s with running_ := false, stoppers := thread :: s.stoppers }
  | .stopPut thread =>
      queueStep { s with stoppers := s.stoppers.erase thread } (.call thread (.put []))
  | .logger env => loggerStep cfg s env

def system (Q : Queue) (sizeofData : Option ℕ) (cfg : Config) :
    System (State Q) (Input Q) Failure where
  start := fun s => s = initial Q
  allowed := Allowed
  exec := exec sizeofData cfg

instance (sizeofData : Option ℕ) (cfg : Config) (s : State Q) (i : Input Q) :
    Decidable ((system Q sizeofData cfg).allowed s i) :=
  inferInstanceAs (Decidable (Allowed s i))

/-- No call of fwrite(3) fails. -/
def Healthy (_ : State Q) : Input Q → Prop
  | .logger env => ∀ x ∈ env.calls.writes, 0 < x
  | .append _ _ | .queue _ | .start | .stop _ | .stopPut _ => True

instance (s : State Q) : (i : Input Q) → Decidable (Healthy s i)
  | .logger env => inferInstanceAs (Decidable (∀ x ∈ env.calls.writes, 0 < x))
  | .append _ _ | .queue _ | .start | .stop _ | .stopPut _ => isTrue trivial

section Steps

variable {cfg : Config} {s s' : State Q} {env : Env}

theorem queueStep_eq_ok {i : Monitor.Input (Op (List UInt8) Q.ι)} :
    queueStep s i = .ok s' ↔
      ∃ queue, Monitor.exec Q.program s.queue_ i = .ok queue ∧
        s' = { s with queue_ := queue } := by
  simp only [queueStep, bind_eq_ok, mapError_eq_ok, pure_eq_ok, Except.ok.injEq]
  simp only [eq_comm]

inductive LoggerMoves (cfg : Config) (s : State Q) (env : Env) : State Q → Prop
  | rest : LoggerMoves cfg s env s
  | begin (output : LogFile) (hpc : s.pc = .begin) (hrunning : s.running_ = true)
      (hopen : LogFile.construct cfg env.rollTime env.calls.opens = .ok output) :
      LoggerMoves cfg s env { s with pc := .loop, output := some output }
  | call (queue : Monitor.State Q.σ (Op (List UInt8) Q.ι) (Result (List UInt8)))
      (hpc : s.pc = .loop)
      (hcall : Monitor.exec Q.program s.queue_ (.call 0 .take) = .ok queue) :
      LoggerMoves cfg s env { s with pc := .taking, queue_ := queue }
  | last (hpc : s.pc = .taking) (hmsg : returned s = some []) (hrunning : s.running_ = false) :
      LoggerMoves cfg s env { s with pc := .flush, taken := s.taken + 1 }
  | write (msg : List UInt8) (output output' : LogFile) (hpc : s.pc = .taking)
      (hmsg : returned s = some msg) (hne : msg ≠ []) (houtput : s.output = some output)
      (happend : LogFile.append cfg output ⟨msg, env.rollTime⟩ env.calls = .ok output') :
      LoggerMoves cfg s env { s with
        pc := .loop, taken := s.taken + 1, output := some output'
        written := s.written ++ [⟨msg, env.rollTime⟩] }
  | flush (output output' : LogFile) (hpc : s.pc = .flush) (houtput : s.output = some output)
      (hflush : LogFile.flush output = .ok output') :
      LoggerMoves cfg s env { s with pc := .exited, output := some output' }

theorem loggerStep_moves (h : loggerStep cfg s env = .ok s') : LoggerMoves cfg s env s' := by
  unfold loggerStep at h
  split at h
  · cases h
    exact .rest
  · cases h
    exact .rest
  · rename_i hpc
    simp only [bind_eq_ok, require_eq_ok, mapError_eq_ok, pure_eq_ok, Except.ok.injEq] at h
    obtain ⟨-, hrunning, output, hopen, rfl⟩ := h
    exact .begin output hpc hrunning hopen
  · rename_i hpc
    obtain ⟨queue, hcall, rfl⟩ := queueStep_eq_ok.mp h
    exact .call queue hpc hcall
  · rename_i hpc
    split at h
    · cases h
      exact .rest
    · rename_i msg hmsg
      split at h
      · rename_i hempty
        simp only [bind_eq_ok, require_eq_ok, pure_eq_ok, Except.ok.injEq] at h
        obtain ⟨-, hrunning, rfl⟩ := h
        rw [List.isEmpty_iff] at hempty
        exact .last hpc (hempty ▸ hmsg) hrunning
      · rename_i hempty
        simp only [bind_eq_ok, demand_eq_ok, mapError_eq_ok, pure_eq_ok, Except.ok.injEq] at h
        obtain ⟨output, houtput, output', happend, rfl⟩ := h
        rw [List.isEmpty_iff] at hempty
        exact .write msg output output' hpc hmsg hempty houtput happend
  · rename_i hpc
    simp only [bind_eq_ok, demand_eq_ok, mapError_eq_ok, pure_eq_ok, Except.ok.injEq] at h
    obtain ⟨output, houtput, output', hflush, rfl⟩ := h
    exact .flush output output' hpc houtput hflush

end Steps

def Pc.ending : Pc → List (List UInt8)
  | .flush | .exited => [[]]
  | .idle | .begin | .loop | .taking => []

def consumed (s : State Q) : List (List UInt8) := s.written.map LogLine.text ++ s.pc.ending

structure Inv (s : State Q) : Prop where
  queue : Reachable (Monitor.system Q.program Q.start) s.queue_
  callers : ∀ p ∈ s.queue_.calls, p.1 = 0 ↔ p.2.isTake = true
  takes : s.queue_.calls.countP (fun p => p.2.isTake) =
    s.taken + if s.pc = .taking then 1 else 0
  taken : s.taken = (consumed s).length
  texts : consumed s <+: takenItems s.queue_.done
  nonempty : ∀ line ∈ s.written, line.text ≠ []
  stopped : s.running_ = true ∨ s.pc = .idle →
    s.stoppers = [] ∧ ∀ thread, (thread, .put []) ∈ s.queue_.calls → [] ∈ s.appended
  begun : s.pc = .begin → s.running_ = true
  output : s.pc ≠ .idle → s.pc ≠ .begin → ∃ output, s.output = some output

section Invariant

variable {cfg : Config} {s s' : State Q} {env : Env}

theorem initial_inv : Inv (initial Q) where
  queue := .start rfl
  callers := by simp [initial, Monitor.State.initial, Monitor.State.calls, Monitor.State.pending]
  takes := by simp [initial, Monitor.State.initial, Monitor.State.calls, Monitor.State.pending]
  taken := rfl
  texts := List.nil_prefix
  nonempty := by simp [initial]
  stopped := by simp [initial, Monitor.State.initial, Monitor.State.calls, Monitor.State.pending]
  begun := nofun
  output := fun hidle => absurd rfl hidle

theorem takenItems_mono {queue : Monitor.State Q.σ (Op (List UInt8) Q.ι) (Result (List UInt8))}
    (h : s.queue_.done <+: queue.done) :
    takenItems s.queue_.done <+: takenItems queue.done :=
  h.filterMap _

/-- The calls of `take` that have not returned to the logging thread. -/
theorem Inv.pending_takes (h : Inv s) :
    s.queue_.pending.countP (fun p => p.2.isTake) + (takenItems s.queue_.done).length =
      s.taken + if s.pc = .taking then 1 else 0 := by
  have htakes := h.takes
  rw [Monitor.State.calls, List.countP_append, List.countP_map] at htakes
  rw [Q.takes s.queue_ h.queue]
  exact htakes

/-- Other threads put, or go on. -/
theorem Inv.otherStep (h : Inv s) {i : Monitor.Input (Op (List UInt8) Q.ι)}
    {queue : Monitor.State Q.σ (Op (List UInt8) Q.ι) (Result (List UInt8))}
    (hallow : Monitor.Allowed s.queue_ i) (hexec : Monitor.exec Q.program s.queue_ i = .ok queue)
    (hothers : ∀ p ∈ i.newCalls, p.1 ≠ 0 ∧ p.2.isTake = false)
    {appended : List (List UInt8)} (happended : s.appended <+: appended) {stoppers : List ℕ}
    (hstoppers : stoppers ⊆ s.stoppers)
    (hempty : ∀ thread, (thread, .put []) ∈ i.newCalls → [] ∈ appended ∨ ∃ t, t ∈ s.stoppers) :
    Inv { s with queue_ := queue, appended := appended, stoppers := stoppers } where
  queue := .step h.queue hallow trivial hexec
  callers := by
    intro p hp
    rcases List.mem_append.mp ((Monitor.exec_calls hallow hexec).subset hp) with hp | hp
    · obtain ⟨hthread, htake⟩ := hothers p hp
      simp [hthread, htake]
    · exact h.callers p hp
  takes := by
    have hnone : i.newCalls.countP (fun p => p.2.isTake) = 0 := by
      rw [List.countP_eq_zero]
      intro p hp
      simp [(hothers p hp).2]
    rw [(Monitor.exec_calls hallow hexec).countP_eq, List.countP_append, hnone, Nat.zero_add]
    exact h.takes
  taken := h.taken
  texts := h.texts.trans (takenItems_mono (Monitor.exec_done hallow hexec))
  nonempty := h.nonempty
  stopped := by
    intro hrunning
    obtain ⟨hnone, hputs⟩ := h.stopped hrunning
    refine ⟨List.eq_nil_of_subset_nil (hnone ▸ hstoppers), ?_⟩
    intro thread hput
    rcases List.mem_append.mp ((Monitor.exec_calls hallow hexec).subset hput) with hput | hput
    · rcases hempty thread hput with hmem | ⟨t, ht⟩
      · exact hmem
      · rw [hnone] at ht
        cases ht
    · exact happended.subset (hputs thread hput)
  begun := h.begun
  output := h.output

/-- Between two calls of `take` the logging thread is in no operation. -/
theorem Inv.not_pending (h : Inv s) (hpc : s.pc ≠ .taking) :
    ∀ p ∈ s.queue_.pending, p.1 ≠ 0 := by
  have hpending := h.pending_takes
  rw [if_neg hpc] at hpending
  have hlength := h.texts.length_le
  have htaken := h.taken
  have hzero : s.queue_.pending.countP (fun p => p.2.isTake) = 0 := by omega
  intro p hp hthread
  have htake := (h.callers p (List.mem_append_left _ hp)).mp hthread
  exact List.countP_eq_zero.mp hzero p hp htake

/-- The next message. -/
theorem Inv.returned (h : Inv s) {msg : List UInt8} (hmsg : returned s = some msg) :
    consumed s ++ [msg] <+: takenItems s.queue_.done := by
  obtain ⟨rest, hrest⟩ := h.texts
  unfold AsyncLoggingQueue.returned at hmsg
  rw [← hrest, h.taken, List.getElem?_append_right le_rfl, Nat.sub_self] at hmsg
  cases rest with
  | nil => cases hmsg
  | cons first rest =>
    cases hmsg
    exact ⟨rest, by rw [← hrest, List.append_assoc, List.singleton_append]⟩

/-- The calls are counted before and after a message has been used. -/
theorem Inv.used (h : Inv s) (hpc : s.pc = .taking) :
    s.queue_.calls.countP (fun p => p.2.isTake) = s.taken + 1 := by
  have htakes := h.takes
  rwa [if_pos hpc] at htakes

/-- The step stays outside `take`. -/
theorem Inv.outside (h : Inv s) (hpc : s.pc ≠ .taking) :
    s.queue_.calls.countP (fun p => p.2.isTake) = s.taken := by
  have htakes := h.takes
  rwa [if_neg hpc] at htakes

theorem Inv.call (h : Inv s) (hpc : s.pc = .loop)
    {queue : Monitor.State Q.σ (Op (List UInt8) Q.ι) (Result (List UInt8))}
    (hcall : Monitor.exec Q.program s.queue_ (.call 0 .take) = .ok queue) :
    Inv { s with pc := .taking, queue_ := queue } := by
  have htaking : s.pc ≠ .taking := by simp [hpc]
  have hallow : Monitor.Allowed s.queue_ (.call 0 .take) := h.not_pending htaking
  have hcalls := Monitor.exec_calls hallow hcall
  have hsame : consumed { s with pc := .taking, queue_ := queue } = consumed s := by
    simp [consumed, hpc, Pc.ending]
  have hreach : Reachable (Monitor.system Q.program Q.start) queue :=
    .step (i := .call 0 .take) h.queue hallow trivial hcall
  refine ⟨hreach, ?_, ?_, ?_, ?_, h.nonempty, ?_, nofun, ?_⟩
  · intro p hp
    rcases List.mem_append.mp (hcalls.subset hp) with hp | hp
    · cases List.mem_singleton.mp hp
      simp [Op.isTake]
    · exact h.callers p hp
  · rw [hcalls.countP_eq, List.countP_append, h.outside htaking]
    simp [Monitor.Input.newCalls, Op.isTake, Nat.add_comm]
  · rw [hsame]
    exact h.taken
  · rw [hsame]
    exact h.texts.trans (takenItems_mono (Monitor.exec_done hallow hcall))
  · rintro (hrunning | hidle)
    · obtain ⟨hnone, hputs⟩ := h.stopped (Or.inl hrunning)
      refine ⟨hnone, fun thread hput => ?_⟩
      rcases List.mem_append.mp (hcalls.subset hput) with hput | hput
      · cases List.mem_singleton.mp hput
      · exact hputs thread hput
    · cases hidle
  · intro _ _
    exact h.output (by simp [hpc]) (by simp [hpc])

theorem LoggerMoves.inv (h : LoggerMoves cfg s env s') (hinv : Inv s) : Inv s' := by
  cases h with
  | rest => exact hinv
  | begin output hpc hrunning hopen =>
    have hsame : consumed { s with pc := .loop, output := some output } = consumed s := by
      simp [consumed, hpc, Pc.ending]
    exact
      { hinv with
        takes := hinv.outside (by simp [hpc])
        taken := hsame ▸ hinv.taken
        texts := hsame ▸ hinv.texts
        stopped := fun _ => hinv.stopped (Or.inl hrunning)
        begun := nofun
        output := fun _ _ => ⟨output, rfl⟩ }
  | call queue hpc hcall => exact hinv.call hpc hcall
  | last hpc hmsg hrunning =>
    have hmore : consumed { s with pc := .flush, taken := s.taken + 1 } = consumed s ++ [[]] := by
      simp [consumed, hpc, Pc.ending]
    exact
      { hinv with
        takes := hinv.used hpc
        taken := by rw [hmore, List.length_append, ← hinv.taken]; rfl
        texts := hmore ▸ hinv.returned hmsg
        stopped := by simp [hrunning]
        begun := nofun
        output := fun _ _ => hinv.output (by simp [hpc]) (by simp [hpc]) }
  | write msg output output' hpc hmsg hne houtput happend =>
    have hmore : consumed { s with
        pc := .loop, taken := s.taken + 1, output := some output'
        written := s.written ++ [⟨msg, env.rollTime⟩] } = consumed s ++ [msg] := by
      simp [consumed, hpc, Pc.ending]
    exact
      { hinv with
        takes := hinv.used hpc
        taken := by rw [hmore, List.length_append, ← hinv.taken]; rfl
        texts := hmore ▸ hinv.returned hmsg
        nonempty := by
          intro line hline
          rcases List.mem_append.mp hline with hline | hline
          · exact hinv.nonempty line hline
          · cases List.mem_singleton.mp hline
            exact hne
        stopped := by simpa using fun hrunning => hinv.stopped (Or.inl hrunning)
        begun := nofun
        output := fun _ _ => ⟨output', rfl⟩ }
  | flush output output' hpc houtput hflush =>
    have hsame : consumed { s with pc := .exited, output := some output' } = consumed s := by
      simp [consumed, hpc, Pc.ending]
    exact
      { hinv with
        takes := hinv.outside (by simp [hpc])
        taken := hsame ▸ hinv.taken
        texts := hsame ▸ hinv.texts
        stopped := by simpa using fun hrunning => hinv.stopped (Or.inl hrunning)
        begun := nofun
        output := fun _ _ => ⟨output', rfl⟩ }

theorem step_inv {sizeofData : Option ℕ} {i : Input Q} (hinv : Inv s) (hallow : Allowed s i)
    (h : exec sizeofData cfg s i = .ok s') : Inv s' := by
  cases i with
  | append thread logline =>
    simp only [exec, bind_eq_ok, require_eq_ok, queueStep_eq_ok] at h
    obtain ⟨-, -, queue, hexec, rfl⟩ := h
    refine hinv.otherStep hallow.2 hexec ?_ (List.prefix_append _ _) (List.Subset.refl _) ?_
    · intro p hp
      cases List.mem_singleton.mp hp
      exact ⟨hallow.1, rfl⟩
    · intro t ht
      cases List.mem_singleton.mp ht
      exact Or.inl (by simp)
  | queue i =>
    obtain ⟨queue, hexec, rfl⟩ := queueStep_eq_ok.mp h
    have hnone : i.newCalls = [] := List.isEmpty_iff.mp hallow.1
    refine hinv.otherStep hallow.2 hexec ?_ List.prefix_rfl (List.Subset.refl _) ?_
    · simp [hnone]
    · simp [hnone]
  | start =>
    cases h
    have hpc : s.pc = .idle := hallow
    have hsame : consumed { s with running_ := true, pc := .begin } = consumed s := by
      simp [consumed, hpc, Pc.ending]
    exact
      { hinv with
        takes := hinv.outside (by simp [hpc])
        taken := hsame ▸ hinv.taken
        texts := hsame ▸ hinv.texts
        stopped := fun _ => hinv.stopped (Or.inr hpc)
        begun := fun _ => rfl
        output := fun _ hbegin => absurd rfl hbegin }
  | stop thread =>
    cases h
    exact { hinv with
      stopped := by simp [hallow.1]
      begun := fun hbegin => absurd hbegin hallow.2 }
  | stopPut thread =>
    obtain ⟨queue, hexec, rfl⟩ := queueStep_eq_ok.mp h
    refine hinv.otherStep hallow.2.2 hexec ?_ List.prefix_rfl List.erase_subset ?_
    · intro p hp
      cases List.mem_singleton.mp hp
      exact ⟨hallow.1, rfl⟩
    · intro t ht
      exact Or.inr ⟨thread, hallow.2.1⟩
  | logger env => exact (loggerStep_moves h).inv hinv

end Invariant

section Law

variable {sizeofData : Option ℕ} {cfg : Config} {s s' : State Q}

theorem reach_inv {cond : State Q → Input Q → Prop} (h : Reach (system Q sizeofData cfg) cond s) :
    Inv s := by
  refine h.invariant ?_ ?_
  · rintro _ rfl
    exact initial_inv
  · intro s i s' hinv hallow _ hexec
    exact step_inv hinv hallow hexec

/-- An empty message that is taken while `running_` holds is not from `stop`. -/
theorem Inv.mem_appended (h : Inv s) (hrunning : s.running_ = true)
    (hmsg : AsyncLoggingQueue.returned s = some []) : [] ∈ s.appended := by
  have htaken : [] ∈ takenItems s.queue_.done := List.mem_of_getElem? hmsg
  have hput : [] ∈ putItems s.queue_.done := by
    rw [← Q.fifo s.queue_ h.queue]
    exact List.mem_append_left _ htaken
  obtain ⟨⟨thread, op, r⟩, hdone, hop⟩ := List.mem_filterMap.mp hput
  obtain rfl : op = .put [] := by
    cases op with
    | put x =>
      cases hop
      rfl
    | take => cases hop
    | look q => cases hop
  apply (h.stopped (Or.inl hrunning)).2 thread
  exact List.mem_append_right _ (List.mem_map.mpr ⟨_, hdone, rfl⟩)

/-- The queue passes its assertions. -/
theorem queueStep_succeeds (h : Reachable (Monitor.system Q.program Q.start) s.queue_)
    (i : Monitor.Input (Op (List UInt8) Q.ι)) : ∃ s', queueStep s i = .ok s' := by
  obtain ⟨queue, hqueue⟩ := Q.succeeds s.queue_ h i
  exact ⟨_, queueStep_eq_ok.mpr ⟨queue, hqueue, rfl⟩⟩

theorem loggerStep_error (hinv : Inv s) {env : Env} {e : Failure}
    (h : loggerStep cfg s env = .error e) :
    (∃ fault, e = .file fault) ∨ e = .stillRunning ∧ [] ∈ s.appended := by
  unfold loggerStep at h
  split at h
  · cases h
  · cases h
  · rename_i hpc
    rw [require_pos _ (hinv.begun hpc), ok_bind, bind_pure_eq_error, mapError_eq_error] at h
    obtain ⟨fault, -, rfl⟩ := h
    exact Or.inl ⟨fault, rfl⟩
  · obtain ⟨s', hs'⟩ :=
      queueStep_succeeds (s := { s with pc := .taking }) hinv.queue (.call 0 .take)
    rw [hs'] at h
    cases h
  · rename_i hpc
    split at h
    · cases h
    · rename_i msg hmsg
      split at h
      · rename_i hempty
        rw [List.isEmpty_iff] at hempty
        rw [bind_pure_eq_error, require_eq_error] at h
        obtain ⟨hrunning, rfl⟩ := h
        exact Or.inr ⟨rfl, hinv.mem_appended (by simpa using hrunning) (hempty ▸ hmsg)⟩
      · obtain ⟨output, houtput⟩ := hinv.output (by simp [hpc]) (by simp [hpc])
        rw [houtput] at h
        rw [demand, ok_bind, bind_pure_eq_error, mapError_eq_error] at h
        obtain ⟨fault, -, rfl⟩ := h
        exact Or.inl ⟨fault, rfl⟩
  · rename_i hpc
    obtain ⟨output, houtput⟩ := hinv.output (by simp [hpc]) (by simp [hpc])
    rw [houtput] at h
    rw [demand, ok_bind, bind_pure_eq_error, mapError_eq_error] at h
    obtain ⟨fault, -, rfl⟩ := h
    exact Or.inl ⟨fault, rfl⟩

/-- No assertion fails but those about the lines that were passed to `append`. -/
theorem exec_error (hinv : Inv s) {i : Input Q} {e : Failure}
    (h : exec sizeofData cfg s i = .error e) :
    (∃ fault, e = .file fault) ∨ e = .stillRunning ∧ [] ∈ s.appended ∨
      e = .tooLong ∧ ∃ thread logline, i = .append thread logline ∧ ¬fits sizeofData logline := by
  cases i with
  | append thread logline =>
    simp only [exec, bind_eq_error, require_eq_error] at h
    rcases h with ⟨hfits, rfl⟩ | ⟨-, -, h⟩
    · exact Or.inr (Or.inr ⟨rfl, thread, logline, rfl, hfits⟩)
    · obtain ⟨s', hs'⟩ := queueStep_succeeds
        (s := { s with appended := s.appended ++ [logline] }) hinv.queue
        (.call thread (.put logline))
      rw [hs'] at h
      cases h
  | queue i =>
    obtain ⟨s', hs'⟩ := queueStep_succeeds hinv.queue i
    simp only [exec, hs'] at h
    cases h
  | start => cases h
  | stop thread => cases h
  | stopPut thread =>
    obtain ⟨s', hs'⟩ := queueStep_succeeds
      (s := { s with stoppers := s.stoppers.erase thread }) hinv.queue (.call thread (.put []))
    simp only [exec, hs'] at h
    cases h
  | logger env =>
    rcases loggerStep_error hinv h with hfile | hrunning
    · exact Or.inl hfile
    · exact Or.inr (Or.inl hrunning)

/-- The files hold the lines that have been written. -/
structure Filed (s : State Q) : Prop where
  holds : ∀ output, s.output = some output → Holds output s.written
  early : s.pc = .idle ∨ s.pc = .begin → s.written = []

theorem LoggerMoves.filed {env : Env} (h : LoggerMoves cfg s env s') (hfiled : Filed s)
    (hwrites : ∀ x ∈ env.calls.writes, 0 < x) : Filed s' := by
  cases h with
  | rest => exact hfiled
  | begin output hpc hrunning hopen =>
    refine ⟨?_, by simp⟩
    rintro _ ⟨⟩
    rw [hfiled.early (Or.inr hpc)]
    exact construct_holds hopen
  | call queue hpc hcall => exact ⟨hfiled.holds, by simp⟩
  | last hpc hmsg hrunning => exact ⟨hfiled.holds, by simp⟩
  | write msg output output' hpc hmsg hne houtput happend =>
    refine ⟨?_, by simp⟩
    rintro _ ⟨⟩
    exact append_holds (hfiled.holds output houtput) hwrites happend
  | flush output output' hpc houtput hflush =>
    refine ⟨?_, by simp⟩
    rintro _ ⟨⟩
    exact flush_holds (hfiled.holds output houtput) hflush

theorem reach_filed (h : Reach (system Q sizeofData cfg) Healthy s) : Filed s := by
  refine h.invariant ?_ ?_
  · rintro _ rfl
    exact ⟨nofun, fun _ => rfl⟩
  · intro s i s' hfiled hallow hhealthy hexec
    cases i with
    | append thread logline =>
      simp only [system, exec, bind_eq_ok, queueStep_eq_ok] at hexec
      obtain ⟨-, -, queue, -, rfl⟩ := hexec
      exact ⟨hfiled.holds, hfiled.early⟩
    | queue i =>
      obtain ⟨queue, -, rfl⟩ := queueStep_eq_ok.mp hexec
      exact ⟨hfiled.holds, hfiled.early⟩
    | start =>
      cases hexec
      exact ⟨hfiled.holds, fun _ => hfiled.early (Or.inl hallow)⟩
    | stop thread =>
      cases hexec
      exact ⟨hfiled.holds, hfiled.early⟩
    | stopPut thread =>
      obtain ⟨queue, -, rfl⟩ := queueStep_eq_ok.mp hexec
      exact ⟨hfiled.holds, hfiled.early⟩
    | logger env => exact (loggerStep_moves hexec).filed hfiled hhealthy

/-- The messages put are those written, at most one in the hands of the logging
thread, and those in the queue. -/
theorem Inv.put_eq (h : Inv s) :
    ∃ hand, hand.length ≤ 1 ∧ s.written.map LogLine.text ++ hand ++ Q.items s.queue_.shared =
      putItems s.queue_.done := by
  obtain ⟨rest, hrest⟩ := h.texts
  refine ⟨s.pc.ending ++ rest, ?_, ?_⟩
  · have hpending := h.pending_takes
    have htaken := h.taken
    have hlength := congrArg List.length hrest
    simp only [consumed, List.length_append] at htaken hlength ⊢
    cases hpc : s.pc with
    | taking =>
      rw [hpc, if_pos rfl] at hpending
      simp only [hpc, Pc.ending, List.length_nil] at htaken hlength ⊢
      omega
    | idle | begin | loop =>
      rw [hpc, if_neg nofun] at hpending
      simp only [hpc, Pc.ending, List.length_nil] at htaken hlength ⊢
      omega
    | flush | exited =>
      rw [hpc, if_neg nofun] at hpending
      simp only [hpc, Pc.ending, List.length_singleton] at htaken hlength ⊢
      omega
  · rw [← Q.fifo s.queue_ h.queue, ← hrest, consumed]
    simp only [List.append_assoc]

/-- The logging thread ends with the first empty message. -/
theorem Inv.exited (h : Inv s) (hpc : s.pc = .exited) :
    s.written.map LogLine.text = (putItems s.queue_.done).takeWhile fun msg => !msg.isEmpty := by
  obtain ⟨rest, hrest⟩ := h.texts
  rw [← Q.fifo s.queue_ h.queue, ← hrest, consumed, hpc, Pc.ending, List.append_assoc,
    List.append_assoc, List.takeWhile_append_of_pos]
  · simp
  · intro msg hmsg
    obtain ⟨line, hline, rfl⟩ := List.mem_map.mp hmsg
    simpa using h.nonempty line hline

/-- The logging thread does not sleep over a message. -/
theorem Inv.asleep (h : Inv s) (hsleep : (0, .take) ∈ s.queue_.asleep) :
    Q.items s.queue_.shared = [] := by
  have hcovered := Q.covered s.queue_ h.queue 0 hsleep
  have hpending := h.pending_takes
  have htaken := h.taken
  have hlength := h.texts.length_le
  have hone : 0 < s.queue_.asleep.countP (fun p => p.2.isTake) :=
    List.countP_pos_iff.mpr ⟨_, hsleep, rfl⟩
  have hatmost : (if s.pc = .taking then 1 else 0) ≤ 1 := by split <;> omega
  simp only [Monitor.State.pending, List.countP_append] at hpending
  rw [← List.length_eq_zero_iff]
  omega

/-- In every run of the logging thread and of any number of threads that append,
over either queue and whenever it is stopped: no assertion fails but for a line
that is empty or does not fit a message; the lines written are the first of the
lines put, in order and whole, and all but one of the others are in the queue; the
logging thread sleeps only on an empty queue; and when it has ended, all lines put
before the message of `stop` have been written. If no call of fwrite(3) fails, the
files hold the lines written. -/
theorem asyncLoggingQueue_law (h : Reachable (system Q sizeofData cfg) s) :
    (∀ i e, exec sizeofData cfg s i = .error e → (∃ fault, e = .file fault) ∨
        e = .stillRunning ∧ [] ∈ s.appended ∨
        e = .tooLong ∧ ∃ thread logline, i = .append thread logline ∧ ¬fits sizeofData logline) ∧
      (∃ hand, hand.length ≤ 1 ∧ s.written.map LogLine.text ++ hand ++
        Q.items s.queue_.shared = putItems s.queue_.done) ∧
      ((0, .take) ∈ s.queue_.asleep → Q.items s.queue_.shared = []) ∧
      (s.pc = .exited → s.written.map LogLine.text =
        (putItems s.queue_.done).takeWhile fun msg => !msg.isEmpty) ∧
      (Reach (system Q sizeofData cfg) Healthy s → ∀ output, s.output = some output →
        fileText output = (s.written.map LogLine.text).flatten) := by
  have hinv := reach_inv h
  refine ⟨fun i e => exec_error hinv, hinv.put_eq, hinv.asleep, hinv.exited, ?_⟩
  intro hhealthy output houtput
  exact fileText_of_holds ((reach_filed hhealthy).holds output houtput)

end Law

def unbounded : Queue where
  σ := List (List UInt8)
  ι := BlockingQueue.Query
  κ := BlockingQueue.Cond
  program := BlockingQueue.program (List UInt8)
  start := []
  items := id
  fifo := fun _ h => BlockingQueue.reach_fifo h
  takes := fun _ h => BlockingQueue.reach_takes h
  succeeds := fun _ _ => Monitor.exec_succeeds fun _ => BlockingQueue.body_succeeds
  covered := by
    intro s h thread hsleep
    have hroom := BlockingQueue.reach_room h hsleep rfl
    rwa [Monitor.awakened, List.countP_congr fun p _ => by rw [BlockingQueue.on_notEmpty p]]
      at hroom

def bounded (queueSize : ℕ) : Queue where
  σ := CircularBuffer (List UInt8)
  ι := BoundedBlockingQueue.Query
  κ := BoundedBlockingQueue.Cond
  program := BoundedBlockingQueue.program (List UInt8)
  start := .construct queueSize
  items := CircularBuffer.items
  fifo := fun _ h => (BoundedBlockingQueue.reach_fifo h).2
  takes := fun _ h => BoundedBlockingQueue.reach_takes h
  succeeds := fun _ _ => Monitor.exec_succeeds fun _ => BoundedBlockingQueue.body_succeeds
  covered := by
    intro s h thread hsleep
    have hroom := BoundedBlockingQueue.reach_room h (c := .notEmpty) hsleep rfl
    rwa [Monitor.awakened,
      List.countP_congr fun p _ => by rw [BoundedBlockingQueue.on_notEmpty p]] at hroom

/-- A queue of one place. The second line waits for the first to be taken; a line
that is put behind the message of `stop` stays in the queue. -/
def stoppedRun : List (Input (bounded 1)) :=
  let env : Env := ⟨1700000000, ⟨[2], 1700000000, true⟩⟩
  [.start, .logger env, .append 1 (ascii "one\n"), .queue (.enter 0 0),
    .append 2 (ascii "two\n"), .queue (.enter 0 0), .logger env, .queue (.enter 0 0),
    .queue (.resume 0 0), .logger env, .stop 1, .logger env, .queue (.enter 0 0), .stopPut 1,
    .queue (.enter 0 0), .logger env, .logger env, .queue (.enter 0 0), .append 2 (ascii "late\n"),
    .queue (.enter 0 0), .logger env, .logger env]

theorem stoppedRun_law :
    ∃ (s : State (bounded 1)) (output : LogFile),
      Reach (system (bounded 1) (some 4000) smallFiles) Healthy s ∧ s.pc = .exited ∧
      s.output = some output ∧ putItems s.queue_.done =
        [ascii "one\n", ascii "two\n", [], ascii "late\n"] ∧
      fileText output = ascii "one\ntwo\n" := by
  obtain ⟨s, hs, htest⟩ := exists_of_replay (M := system (bounded 1) (some 4000) smallFiles)
    (s := initial (bounded 1)) Healthy rfl stoppedRun (fun s => decide (s.pc = .exited ∧
      s.output.isSome = true ∧ putItems s.queue_.done =
        [ascii "one\n", ascii "two\n", [], ascii "late\n"])) (by decide)
  obtain ⟨hpc, hsome, hput⟩ := of_decide_eq_true htest
  obtain ⟨output, houtput⟩ := Option.isSome_iff_exists.mp hsome
  obtain ⟨-, -, -, hexited, hfile⟩ := asyncLoggingQueue_law hs.free
  refine ⟨s, output, hs, hpc, houtput, hput, ?_⟩
  rw [hfile hs output houtput, hexited hpc, hput]
  decide

end TinyMuduo.AsyncLoggingQueue
