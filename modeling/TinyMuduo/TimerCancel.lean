import TinyMuduo.TimerRuns

/-!
Cancelling timers. `addTimer` returns `TimerId(timer)`, whose sequence number is
the default zero, while every Timer has a positive one. The pair that
`cancelInLoop` looks up is therefore never in `activeTimerSet`, and the pair it
notes in `cancelingTimerSet` is never the one `reset` looks up: a cancel with a
returned id changes nothing. What remains true is that cancelling a timer that
is already spent is harmless.
-/
namespace TinyMuduo.TimerRuns

open TimerQueue Runs Checked SortedSet

variable {φ : Type}

/-- A timer for which `cancelInLoop` has run is in neither set and is not run
by any `handleRead` that begins after the cancel. -/
def CancelLaw (s : State φ) : Prop :=
  ∀ k n, (k, n) ∈ s.cancels →
    (∀ j, (k, j) ∈ s.runs → j ≤ n) ∧
    ∀ p t, s.queue.heap p = some t → t.sequence = k →
      (∀ w, entry w p ∉ s.queue.timerList) ∧ ∀ j, activeTimer p j ∉ s.queue.activeTimerSet

/-- The timer has been deleted, or it is in the running batch and one-shot. -/
def Spent (s : State φ) (k : ℤ) : Prop :=
  k ∈ s.queue.freed ∨ ∃ e ∈ s.queue.frame.batch, ∃ t, s.queue.heap e.timer = some t ∧
    t.sequence = k ∧ t.isRepeat = false

/-- Ids returned by `addTimer` are cancelled only when their timers are spent. -/
def CancelsSpent (s : State φ) : Input φ → Prop
  | .cancelInLoop timerId => ∀ k ∈ s.owners timerId, Spent s k
  | _ => True

theorem Spent.same {s s' : State φ} {k : ℤ} (h : Spent s k)
    (hheap : s'.queue.heap = s.queue.heap) (hfreed : s'.queue.freed = s.queue.freed)
    (hbatch : s'.queue.frame.batch = s.queue.frame.batch) : Spent s' k := by
  unfold Spent at h ⊢
  rw [hheap, hfreed, hbatch]
  exact h

/-- Freeing a timer outside the batch leaves the batch as it is. -/
theorem Spent.free {s s' : State φ} {k : ℤ} (h : Spent s k) {p : Address} {freedNow : List ℤ}
    (hp : ∀ e ∈ s.queue.frame.batch, e.timer ≠ p)
    (hheap : s'.queue.heap = Function.update s.queue.heap p none)
    (hfreed : s'.queue.freed = s.queue.freed ++ freedNow)
    (hbatch : s'.queue.frame.batch = s.queue.frame.batch) : Spent s' k := by
  rcases h with hk | ⟨e, he, t, ht, hseq, hone⟩
  · exact Or.inl (by rw [hfreed]; exact List.mem_append_left _ hk)
  · refine Or.inr ⟨e, by rw [hbatch]; exact he, t, ?_, hseq, hone⟩
    rw [hheap, Function.update_of_ne (hp e he)]
    exact ht

inductive Recorded (s s' : State φ) : Input φ → Prop
  | nothing (i : Input φ) : s'.reads = s.reads → s'.runs = s.runs → s'.cancels = s.cancels →
      Recorded s s' i
  | read (now : Timestamp) : s.queue.frame = .idle → s'.reads = s.reads + 1 →
      s'.runs = s.runs → s'.cancels = s.cancels → Recorded s s' (.handleRead now)
  | ran (p : Address) (t : Timer φ) : s.queue.heap p = some t → s'.queue.freed = s.queue.freed →
      s'.reads = s.reads → s'.runs = (t.sequence, s.reads) :: s.runs →
      s'.cancels = s.cancels → Recorded s s' .runTimer
  | cancelled (timerId : TimerId) : s'.reads = s.reads → s'.runs = s.runs →
      s'.cancels = (s.owners timerId).map (·, s.reads) ++ s.cancels →
      Recorded s s' (.cancelInLoop timerId)

structure Advance (s s' : State φ) (i : Input φ) : Prop where
  freed : ∀ k ∈ s.queue.freed, k ∈ s'.queue.freed
  spent : ∀ k, Spent s k → Spent s' k
  recorded : Recorded s s' i

theorem newTimer_advance {s s' : State φ} {p : Address} {cb : φ} {when : Timestamp}
    {interval : Interval} (hfree : s.queue.heap p = none)
    (hexec : exec s (.newTimer p cb when interval) = .ok s') :
    Advance s s' (.newTimer p cb when interval) := by
  simp only [exec, Except.ok.injEq] at hexec
  subst hexec
  refine ⟨fun k hk => hk, ?_, .nothing _ rfl rfl rfl⟩
  rintro k (hk | ⟨e, he, t, ht, hrest⟩)
  · exact Or.inl hk
  · have hne : e.timer ≠ p := by
      rintro rfl
      simp [hfree] at ht
    exact Or.inr ⟨e, he, t, by simpa [newTimer, hne] using ht, hrest⟩

/-- `reset` deletes a one-shot timer and does not touch the rest of the batch. -/
theorem resetTimer_advance {s s' : State φ} (h : Tracked s) (hallow : Allowed s .resetTimer)
    (hexec : exec s .resetTimer = .ok s') : Advance s s' .resetTimer := by
  have hindex := h.rep.index
  cases exec_moves h.rep hallow hexec with
  | restart now e todo t hframe ht hrepeat =>
    rw [hframe] at hindex
    refine ⟨fun k hk => hk, ?_, .nothing _ rfl rfl rfl⟩
    rintro k (hk | ⟨d, hd, u, hu, hseq, hone⟩)
    · exact Or.inl hk
    · rw [hframe] at hd
      rcases List.mem_cons.mp hd with rfl | hd
      · -- the head of the batch repeats
        obtain rfl : t = u := Option.some.inj (ht.symm.trans hu)
        simp [hone] at hrepeat
      · have hne : d.timer ≠ e.timer := hindex.head_apart hd
        exact Or.inr ⟨d, hd, u, by simpa [hne] using hu, hseq, hone⟩
  | delete now e todo t hframe ht hlast =>
    rw [hframe] at hindex
    refine ⟨fun k hk => List.mem_append_left _ hk, ?_, .nothing _ rfl rfl rfl⟩
    rintro k (hk | ⟨d, hd, u, hu, hseq, hone⟩)
    · exact Or.inl (List.mem_append_left _ hk)
    · rw [hframe] at hd
      rcases List.mem_cons.mp hd with rfl | hd
      · obtain rfl : t = u := Option.some.inj (ht.symm.trans hu)
        exact Or.inl (List.mem_append_right _ (List.mem_singleton.mpr hseq.symm))
      · have hne : d.timer ≠ e.timer := hindex.head_apart hd
        exact Or.inr ⟨d, hd, u, by simpa [hne] using hu, hseq, hone⟩

theorem step_advance {s s' : State φ} (h : Tracked s) {i : Input φ} (hallow : Allowed s i)
    (hexec : exec s i = .ok s') : Advance s s' i := by
  cases exec_moves h.rep hallow hexec with
  | newTimer p cb when interval hfree => exact newTimer_advance hfree hexec
  | addTimerInLoop p clock t hp ht =>
    exact ⟨fun k hk => hk, fun k hk => hk.same rfl rfl rfl, .nothing _ rfl rfl rfl⟩
  | cancelPresent timerId t hin ht hseq hlist =>
    refine ⟨fun k hk => List.mem_append_left _ hk, ?_, .cancelled timerId rfl rfl rfl⟩
    intro k hk
    refine hk.free (p := timerId.timer) ?_ rfl rfl rfl
    intro e he heq
    exact h.rep.index.batch_out e he _ (by rw [heq]; exact hlist)
  | cancelAbsent timerId canceling hout =>
    exact ⟨fun k hk => hk, fun k hk => hk.same rfl rfl rfl, .cancelled timerId rfl rfl rfl⟩
  | handleRead now active fd hidle =>
    refine ⟨fun k hk => hk, ?_, .read now hidle rfl rfl rfl⟩
    rintro k (hk | ⟨e, he, -⟩)
    · exact Or.inl hk
    · simp [hidle, Frame.batch] at he
  | runTimer now ran e todo t hframe ht =>
    refine ⟨fun k hk => hk, ?_, .ran e.timer t ht rfl rfl rfl rfl⟩
    exact fun k hk => hk.same rfl rfl (by simp [hframe, Frame.batch])
  | endCallbacks now ran hframe =>
    refine ⟨fun k hk => hk, ?_, .nothing _ rfl rfl rfl⟩
    exact fun k hk => hk.same rfl rfl (by simp [hframe, Frame.batch])
  | restart now e todo t hframe ht hrepeat => exact resetTimer_advance h hallow hexec
  | delete now e todo t hframe ht hlast => exact resetTimer_advance h hallow hexec
  | rearm clock now fd hframe =>
    refine ⟨fun k hk => hk, ?_, .nothing _ rfl rfl rfl⟩
    exact fun k hk => hk.same rfl rfl (by simp [hframe, Frame.batch])

/-- The invariant behind the law: a cancelled timer is spent, its runs are not
later than the cancel, and while it is still in a batch no new one has begun. -/
structure Settled (s : State φ) : Prop where
  runs_le : ∀ k j, (k, j) ∈ s.runs → j ≤ s.reads
  spent : ∀ k n, (k, n) ∈ s.cancels → Spent s k
  bound : ∀ k n, (k, n) ∈ s.cancels → ∀ j, (k, j) ∈ s.runs → j ≤ n
  current : ∀ k n, (k, n) ∈ s.cancels → k ∉ s.queue.freed → n = s.reads

theorem step_settled {s s' : State φ} (h : Tracked s) (hs : Settled s) {i : Input φ}
    (hallow : Allowed s i) (hcond : CancelsSpent s i) (hexec : exec s i = .ok s') :
    Settled s' := by
  obtain ⟨hfreed, hspent, hrecorded⟩ := step_advance h hallow hexec
  have still : ∀ k n, (k, n) ∈ s.cancels → k ∉ s'.queue.freed → n = s.reads :=
    fun k n hk hlive => hs.current k n hk (fun hf => hlive (hfreed k hf))
  cases hrecorded with
  | nothing _ hreads hruns hcancels =>
    refine ⟨?_, ?_, ?_, ?_⟩
    · rw [hruns, hreads]
      exact hs.runs_le
    · rw [hcancels]
      exact fun k n hk => hspent k (hs.spent k n hk)
    · rw [hcancels, hruns]
      exact hs.bound
    · rw [hcancels, hreads]
      exact still
  | read now hidle hreads hruns hcancels =>
    refine ⟨?_, ?_, ?_, ?_⟩
    · rw [hruns, hreads]
      exact fun k j hj => Nat.le_succ_of_le (hs.runs_le k j hj)
    · rw [hcancels]
      exact fun k n hk => hspent k (hs.spent k n hk)
    · rw [hcancels, hruns]
      exact hs.bound
    · rw [hcancels]
      intro k n hk hlive
      rcases hs.spent k n hk with hf | ⟨e, he, -⟩
      · exact absurd (hfreed k hf) hlive
      · simp [hidle, Frame.batch] at he
  | ran p t ht hsame hreads hruns hcancels =>
    refine ⟨?_, ?_, ?_, ?_⟩
    · rw [hruns, hreads]
      intro k j hj
      rcases List.mem_cons.mp hj with heq | hj
      · rw [(Prod.mk.inj heq).2]
      · exact hs.runs_le k j hj
    · rw [hcancels]
      exact fun k n hk => hspent k (hs.spent k n hk)
    · rw [hcancels, hruns]
      intro k n hk j hj
      rcases List.mem_cons.mp hj with heq | hj
      · -- the timer that runs now is live, so its cancel belongs to this batch
        obtain ⟨rfl, rfl⟩ := Prod.mk.inj heq
        exact le_of_eq (hs.current _ n hk (h.rep.memory.freed_dead p t ht)).symm
      · exact hs.bound k n hk j hj
    · rw [hcancels, hreads]
      exact still
  | cancelled timerId hreads hruns hcancels =>
    have old : ∀ k n, (k, n) ∈ s'.cancels →
        (k ∈ s.owners timerId ∧ n = s.reads) ∨ (k, n) ∈ s.cancels := by
      intro k n hk
      rw [hcancels] at hk
      rcases List.mem_append.mp hk with hk | hk
      · obtain ⟨k', hk', heq⟩ := List.mem_map.mp hk
        obtain ⟨rfl, rfl⟩ := Prod.mk.inj heq
        exact Or.inl ⟨hk', rfl⟩
      · exact Or.inr hk
    refine ⟨?_, ?_, ?_, ?_⟩
    · rw [hruns, hreads]
      exact hs.runs_le
    · intro k n hk
      rcases old k n hk with ⟨hk, -⟩ | hk
      · exact hspent k (hcond k hk)
      · exact hspent k (hs.spent k n hk)
    · rw [hruns]
      intro k n hk j hj
      rcases old k n hk with ⟨-, rfl⟩ | hk
      · exact hs.runs_le k j hj
      · exact hs.bound k n hk j hj
    · rw [hreads]
      intro k n hk hlive
      rcases old k n hk with ⟨-, rfl⟩ | hk
      · rfl
      · exact still k n hk hlive

theorem Settled.cancelLaw {s : State φ} (h : Tracked s) (hs : Settled s) : CancelLaw s := by
  intro k n hk
  refine ⟨hs.bound k n hk, ?_⟩
  intro p t ht hseq
  have hout : ∀ w, entry w p ∉ s.queue.timerList := by
    intro w hw
    rcases hs.spent k n hk with hf | ⟨e, he, u, hu, hseq', -⟩
    · exact h.rep.memory.freed_dead p t ht (hseq ▸ hf)
    · have hp : e.timer = p := h.rep.memory.distinct _ p u t hu ht (hseq'.trans hseq.symm)
      subst hp
      exact h.rep.index.batch_out e he w hw
  exact ⟨hout, h.rep.index.not_active hout⟩

/-- In every run in which returned ids are cancelled only for spent timers, a
cancelled timer is gone from both sets and never runs in a later batch. -/
theorem cancel_of_spent_timers {s : State φ} (h : Reach (system φ) CancelsSpent s) :
    CancelLaw s := by
  have hboth : Tracked s ∧ Settled s := by
    refine h.invariant (I := fun s => Tracked s ∧ Settled s) ?_ ?_
    · rintro _ rfl
      exact ⟨initial_tracked, ⟨by simp [initial], by simp [initial], by simp [initial],
        by simp [initial]⟩⟩
    · rintro s i s' ⟨htracked, hsettled⟩ hallow hcond hexec
      obtain ⟨r, hr, hnext⟩ := step_tracked htracked i hallow
      obtain rfl : r = s' := Except.ok.inj (hr.symm.trans hexec)
      exact ⟨hnext, step_settled htracked hsettled hallow hcond hexec⟩
  exact hboth.2.cancelLaw hboth.1

instance (s : State φ) (k : ℤ) : Decidable (Spent s k) :=
  decidable_of_iff (k ∈ s.queue.freed ∨ ∃ e ∈ s.queue.frame.batch,
      (s.queue.heap e.timer).any fun t => t.sequence = k && !t.isRepeat) <| by
    simp [Spent, Option.any_eq_true]

instance (s : State φ) : (i : Input φ) → Decidable (CancelsSpent s i)
  | .cancelInLoop timerId => inferInstanceAs (Decidable (∀ k ∈ s.owners timerId, Spent s k))
  | .newTimer .. | .addTimerInLoop .. | .handleRead _ | .runTimer | .endCallbacks
  | .resetTimer | .rearm _ => isTrue trivial

/-- A one-shot timer cancels itself from its own callback and is cancelled
again after it has been deleted. -/
def lateCancelRun : List (Input Unit) :=
  [.newTimer 16 () 10 ⟨false, 0⟩, .addTimerInLoop 16 1, .handleRead 20, .runTimer,
    .cancelInLoop ⟨16, 0⟩, .endCallbacks, .resetTimer, .rearm 22, .cancelInLoop ⟨16, 0⟩,
    .handleRead 30]

theorem lateCancelRun_law :
    ∃ s, Reach (system Unit) CancelsSpent s ∧ s.runs = [(1, 1)] ∧
      s.cancels = [(1, 1), (1, 1)] ∧ s.reads = 2 ∧ CancelLaw s := by
  obtain ⟨s, hs, htest⟩ := exists_of_replay (M := system Unit) (s := initial) CancelsSpent rfl
    lateCancelRun (fun s => decide (s.runs = [(1, 1)] ∧ s.cancels = [(1, 1), (1, 1)] ∧
      s.reads = 2)) (by decide)
  obtain ⟨hruns, hcancels, hreads⟩ := of_decide_eq_true htest
  exact ⟨s, hs, hruns, hcancels, hreads, cancel_of_spent_timers hs⟩

/-- A timer is added, cancelled with the id that `addTimer` returned before it
expires, and fired by the next `handleRead`. -/
def earlyCancelRun : List (Input Unit) :=
  [.newTimer 16 () 100 ⟨false, 0⟩, .addTimerInLoop 16 50, .cancelInLoop ⟨16, 0⟩,
    .handleRead 100, .runTimer]

theorem earlyCancelRun_fires : ¬ ∀ s : State Unit, Reachable (system Unit) s → CancelLaw s := by
  intro hall
  obtain ⟨s, hs, htest⟩ := exists_of_replay (M := system Unit) (s := initial) Free rfl
    earlyCancelRun (fun s => decide (s.issued = [(⟨16, 0⟩, 1)] ∧ s.runs = [(1, 1)] ∧
      s.cancels = [(1, 0)])) (by decide)
  obtain ⟨-, hruns, hcancels⟩ := of_decide_eq_true htest
  have hlate := (hall s hs 1 0 (by simp [hcancels])).1 1 (by simp [hruns])
  omega

end TinyMuduo.TimerRuns
