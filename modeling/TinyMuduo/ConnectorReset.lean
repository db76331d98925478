import TinyMuduo.ConnectorRuns

/-!
The deferred `resetChannel`. The Channel object of an attempt that has ended
stays until the functors of the iteration are called, and an attempt that begins
before that finds it in place. As long as the assertion of `connecting` holds,
every `resetChannel` destroys the Channel for which it was queued. The
assertion fails exactly in a step that enters `connecting` while a
`resetChannel` is queued or the Channel of an attempt is still registered.
-/
namespace TinyMuduo.ConnectorRuns

open Connector Poller Channel TimerQueue Checked Runs

/-- A step that enters `connecting` finds no `resetChannel` queued and no
Channel of an attempt registered. -/
def ResetFirst (s : State) (i : Input) : Prop :=
  Connects s i → pendingResets s.conn.loop.queued = [] ∧
    ∀ c, s.conn.channel = some c → ¬ s.conn.poller.Registered c

/-- Every `resetChannel` that ran destroyed the Channel for which it was queued,
and that one was not registered. -/
def ResetLaw (s : State) : Prop :=
  ∀ r ∈ s.conn.resets, r.destroyed = some r.queuedFor ∧ r.registered = false

/-- There is no Channel exactly when none is registered and no reset is queued. -/
theorem Sound.channel_eq_none {c : Connector} (h : Sound c) : c.channel = none ↔
    pendingResets c.loop.queued = [] ∧ ∀ ch, c.channel = some ch → ¬ c.poller.Registered ch := by
  constructor
  · intro hnone
    refine ⟨(h.empty hnone).1, ?_⟩
    intro ch hch
    rw [hnone] at hch
    simp at hch
  · rintro ⟨hpending, hgone⟩
    cases hch : c.channel with
    | none => rfl
    | some ch =>
      have hone := (h.gone ch hch (hgone ch hch)).1
      rw [hpending] at hone
      simp at hone

/-- A step that enters `connecting` while there is a Channel fails. -/
theorem connects_error {s : State} (h : Inv s) {i : Input} (hallow : Allowed s i)
    (hconnects : Connects s i) (hsome : s.conn.channel ≠ none) :
    exec s i = .error .channelInUse := by
  cases i with
  | start thread a =>
    obtain ⟨rfl, hstate, hcourse⟩ := hconnects
    have hstart : s.conn.start .loop a = .error .channelInUse :=
      startInLoop_occupied (c := { s.conn with connect_ := true }) hstate rfl hcourse hsome
    rw [exec, hstart]
    rfl
  | restart a =>
    have hrestart : s.conn.restart a = .error .channelInUse :=
      startInLoop_occupied (c := { s.conn with
        state := .kDisconnected, retryDelayMs := kInitRetryDelayMs, connect_ := true })
        rfl rfl hconnects hsome
    rw [exec, hrestart]
    rfl
  | runTimer a =>
    obtain ⟨hcb, hstate, hwanted, hcourse⟩ := hconnects
    obtain ⟨timers, hok, -⟩ := TimerRuns.step_tracked h.sound.timers .runTimer hallow.1
    have hstart := startInLoop_occupied (c := { s.conn with timers := timers }) hstate hwanted
      hcourse hsome
    simp only [exec, hok, ok_bind, hcb, if_true, hstart]
    rfl
  | functor a =>
    obtain ⟨hhead, hstate, hwanted, hcourse⟩ := hconnects
    obtain ⟨rest, hf⟩ := List.head?_eq_some_iff.mp hhead
    have hstart := startInLoop_occupied (c := { s.conn with loop := s.conn.loop.popFunctor })
      hstate hwanted hcourse hsome
    simp only [exec, hf, call, hstart]
    rfl
  | stop | connectionClosed | queueOther | poll | handleEvent | callback | timers | swapFunctors
  | endIteration | otherChange | otherRemove => exact absurd hconnects (by simp [Connects])

/-- In every run, every `resetChannel` has destroyed the unregistered Channel for
which it was queued, and the next step finds no Channel in `connecting` exactly
when a step that enters it comes after the queued resets. -/
theorem deferred_reset_iff {s : State} (h : Reachable system s) :
    ResetLaw s ∧ ∀ i, Allowed s i → (exec s i ≠ .error .channelInUse ↔ ResetFirst s i) := by
  have hinv := reach_inv h
  refine ⟨hinv.sound.resets, ?_⟩
  intro i hallow
  constructor
  · intro hsafe hconnects
    rw [← hinv.sound.channel_eq_none]
    by_contra hsome
    exact hsafe (connects_error hinv hallow hconnects hsome)
  · intro hfirst hexec
    rcases exec_error hinv hallow hexec with ⟨hkind, -⟩ | ⟨-, hconnects, hsome⟩ | hkind
    · simp at hkind
    · exact hsome (hinv.sound.channel_eq_none.mpr (hfirst hconnects))
    · simp [Fault.ofUpdate, Fault.ofRemove] at hkind

/-- The first attempt fails, and its Channel is reset before the retry timer
fires. -/
def patientRetry : List Input :=
  [.start .loop ⟨7, some .EINPROGRESS, 0, 16, 1000⟩, .swapFunctors, .endIteration,
    .poll (some pollErr), .handleEvent, .callback ⟨111, false, 16, 2000⟩, .swapFunctors,
    .functor ⟨8, none, 1, 32, 3000⟩, .endIteration, .poll none, .timers (.handleRead 600000),
    .runTimer ⟨8, none, 1, 32, 600000⟩]

theorem patientRetry_resets : ∃ s, Reachable system s ∧ s.conn.resets = [⟨0, some 0, false⟩] ∧
    s.conn.channel = some 1 ∧ ResetLaw s := by
  obtain ⟨s, hs, htest⟩ := exists_of_replay (M := system) Free created_fresh patientRetry
    (fun s => decide (s.conn.resets = [⟨0, some 0, false⟩] ∧ s.conn.channel = some 1))
    (by decide)
  obtain ⟨hresets, hchannel⟩ := of_decide_eq_true htest
  exact ⟨s, hs, hresets, hchannel, (deferred_reset_iff hs).1⟩

/-- The timer queue is handled in the iteration in which the attempt fails, after
the retry delay has passed. -/
def hastyRetry : List Input :=
  [.start .loop ⟨7, some .EINPROGRESS, 0, 16, 1000⟩, .swapFunctors, .endIteration,
    .poll (some pollErr), .handleEvent, .callback ⟨111, false, 16, 2000⟩,
    .timers (.handleRead 600000)]

theorem hastyRetry_fails : ¬ ∀ s, Reachable system s → ∀ i, Allowed s i →
    exec s i ≠ .error .channelInUse := by
  intro hall
  obtain ⟨s, hs, htest⟩ := exists_of_replay (M := system) Free created_fresh hastyRetry
    (fun s => decide (system.allowed s (.runTimer ⟨8, none, 1, 32, 600000⟩)) &&
      match exec s (.runTimer ⟨8, none, 1, 32, 600000⟩) with
      | .error e => decide (e = .channelInUse)
      | .ok _ => false) (by decide)
  simp only [Bool.and_eq_true, decide_eq_true_eq] at htest
  obtain ⟨hallow, hfault⟩ := htest
  split at hfault
  · rename_i e hexec
    rw [of_decide_eq_true hfault] at hexec
    exact hall s hs (.runTimer ⟨8, none, 1, 32, 600000⟩) hallow hexec
  · simp at hfault

end TinyMuduo.ConnectorRuns
