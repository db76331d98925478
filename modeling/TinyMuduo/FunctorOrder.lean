import TinyMuduo.LoopRuns

/-!
The functor queue is first in, first out and calls every functor once. A batch
is what was pushed between two swaps, so that a functor queued by a functor of
a batch is not in it, whatever the other threads do meanwhile.
-/
namespace TinyMuduo.LoopRuns

open Runs

variable {φ : Type}

/-- The functors pushed after `j` swaps and before the next one. -/
def pushedAt (s : State φ) (j : ℕ) : List φ :=
  (s.pushes.filter fun p => p.swaps = j).map Push.functor

def startedIn (s : State φ) (j : ℕ) : List φ :=
  (s.starts.filter fun p => p.2 = j).map Prod.fst

def leftOf (s : State φ) (j : ℕ) : List φ :=
  if j + 1 = s.batches.length then s.loop.functors else []

def LoopPc.inBatch : LoopPc → Bool
  | .calling | .functor => true
  | _ => false

structure Ordered (s : State φ) : Prop where
  order : s.starts.map Prod.fst ++ s.loop.functors ++ s.loop.pendingFunctors =
    s.pushes.map Push.functor
  pending : s.loop.pendingFunctors = pushedAt s s.batches.length
  batch : ∀ j b, s.batches[j]? = some b → b = pushedAt s j
  swaps : ∀ p ∈ s.pushes, p.swaps ≤ s.batches.length
  caller : ∀ p ∈ s.pushes, ∀ j ∈ p.caller, j < p.swaps
  begun : ∀ j b, s.batches[j]? = some b → startedIn s j ++ leftOf s j = b
  started : ∀ p ∈ s.starts, p.2 < s.batches.length
  some_batch : s.pc.inBatch = true → 0 < s.batches.length
  no_functors : s.pc.inBatch = false → s.loop.functors = []

theorem initial_ordered (b : Bool) : Ordered (initial b : State φ) := by
  refine ⟨rfl, rfl, ?_, ?_, ?_, ?_, ?_, ?_, fun _ => rfl⟩
  all_goals simp [initial, LoopPc.inBatch]

/-- A step that neither pushes nor swaps nor starts a functor. -/
theorem Ordered.quiet {s s' : State φ} (h : Ordered s)
    (hqueue : s'.loop.pendingFunctors = s.loop.pendingFunctors)
    (hfunctors : s'.loop.functors = s.loop.functors) (hpushes : s'.pushes = s.pushes)
    (hbatches : s'.batches = s.batches) (hstarts : s'.starts = s.starts)
    (hpc : s'.pc.inBatch = s.pc.inBatch ∨ s'.pc.inBatch = false ∧ s.loop.functors = []) :
    Ordered s' := by
  have hpushed : ∀ j, pushedAt s' j = pushedAt s j := by simp [pushedAt, hpushes]
  have hstarted : ∀ j, startedIn s' j = startedIn s j := by simp [startedIn, hstarts]
  have hleft : ∀ j, leftOf s' j = leftOf s j := by simp [leftOf, hbatches, hfunctors]
  refine ⟨?_, ?_, ?_, ?_, ?_, ?_, ?_, ?_, ?_⟩
  · rw [hqueue, hfunctors, hpushes, hstarts]
    exact h.order
  · rw [hqueue, hbatches, hpushed]
    exact h.pending
  · intro j b hb
    rw [hpushed]
    exact h.batch j b (hbatches ▸ hb)
  · rw [hpushes, hbatches]
    exact h.swaps
  · rw [hpushes]
    exact h.caller
  · intro j b hb
    rw [hstarted, hleft]
    exact h.begun j b (hbatches ▸ hb)
  · rw [hstarts, hbatches]
    exact h.started
  · intro hin
    rw [hbatches]
    rcases hpc with hsame | ⟨hout, -⟩
    · exact h.some_batch (hsame ▸ hin)
    · simp [hout] at hin
  · intro hout
    rw [hfunctors]
    rcases hpc with hsame | ⟨-, hnil⟩
    · exact h.no_functors (hsame ▸ hout)
    · exact hnil

theorem wakeUp_ordered {s : State φ} (h : Ordered s) : Ordered (wakeUp s) :=
  h.quiet rfl rfl rfl rfl rfl (Or.inl rfl)

theorem finishQueue_ordered {s : State φ} (h : Ordered s) (t : Thread) :
    Ordered (finishQueue s t) := by
  have hquiet : ∀ waking testing, Ordered { s with waking := waking, testing := testing } :=
    fun _ _ => h.quiet rfl rfl rfl rfl rfl (Or.inl rfl)
  cases t with
  | loop =>
    simp only [finishQueue]
    split
    · exact wakeUp_ordered (hquiet _ _)
    · exact hquiet _ _
  | other id => exact wakeUp_ordered (hquiet _ _)

theorem pushBack_ordered {s : State φ} (h : Ordered s) (t : Thread) (cb : φ) :
    Ordered (pushBack s t cb) := by
  have hpushed : Ordered { s with
      loop := s.loop.queueInLoop cb
      pushes := s.pushes ++ [⟨cb, s.batches.length, callerOf s t⟩] } := by
    refine ⟨?_, ?_, ?_, ?_, ?_, h.begun, h.started, h.some_batch, h.no_functors⟩
    · simp only [List.map_append, List.map_cons, List.map_nil, ← h.order]
      simp [EventLoop.queueInLoop]
    · simp [EventLoop.queueInLoop, pushedAt, h.pending]
    · intro j b hb
      have hj : j < s.batches.length := (List.getElem?_eq_some_iff.mp hb).1
      have hne : ¬ s.batches.length = j := by omega
      rw [h.batch j b hb]
      simp [pushedAt, hne]
    · intro p hp
      rcases List.mem_append.mp hp with hp | hp
      · exact h.swaps p hp
      · obtain rfl := List.mem_singleton.mp hp
        exact Nat.le_refl _
    · intro p hp j hj
      rcases List.mem_append.mp hp with hp | hp
      · exact h.caller p hp j hj
      · obtain rfl := List.mem_singleton.mp hp
        cases t with
        | other id => simp [callerOf] at hj
        | loop =>
          -- a functor is running, so there is a batch and it is the last one
          by_cases hpc : s.pc = .functor
          · have hpos := h.some_batch (by rw [hpc]; rfl)
            simp only [callerOf, hpc, if_true, Option.mem_some_iff] at hj
            change j < s.batches.length
            omega
          · simp [callerOf, hpc] at hj
  cases t with
  | loop => exact hpushed.quiet rfl rfl rfl rfl rfl (Or.inl rfl)
  | other id => exact hpushed.quiet rfl rfl rfl rfl rfl (Or.inl rfl)

/-- The swap closes the batch of everything pushed since the last one. -/
theorem swap_ordered {s : State φ} (h : Ordered s) (hnil : s.loop.functors = []) :
    Ordered { s with pc := .calling, loop := s.loop.swapFunctors
                     batches := s.batches ++ [s.loop.pendingFunctors] } := by
  have hold : ∀ j b, (s.batches ++ [s.loop.pendingFunctors])[j]? = some b →
      s.batches[j]? = some b ∨ j = s.batches.length ∧ b = s.loop.pendingFunctors := by
    intro j b hb
    rcases Nat.lt_trichotomy j s.batches.length with hlt | rfl | hgt
    · exact Or.inl (by rwa [List.getElem?_append_left hlt] at hb)
    · exact Or.inr ⟨rfl, by simpa using hb.symm⟩
    · have hout := (List.getElem?_eq_some_iff.mp hb).1
      simp only [List.length_append, List.length_singleton] at hout
      omega
  refine ⟨?_, ?_, ?_, ?_, h.caller, ?_, ?_, ?_, ?_⟩
  · have horder := h.order
    simp only [hnil, List.append_nil] at horder
    simpa [EventLoop.swapFunctors] using horder
  · -- nothing has been pushed after the swap
    symm
    simp only [EventLoop.swapFunctors, pushedAt, List.map_eq_nil_iff, List.filter_eq_nil_iff,
      decide_eq_true_eq, List.length_append, List.length_singleton]
    intro p hp
    have := h.swaps p hp
    omega
  · intro j b hb
    rcases hold j b hb with hb | ⟨rfl, rfl⟩
    · exact h.batch j b hb
    · exact h.pending
  · intro p hp
    have := h.swaps p hp
    simp only [List.length_append, List.length_singleton]
    omega
  · intro j b hb
    rcases hold j b hb with hb | ⟨rfl, rfl⟩
    · have hj : j < s.batches.length := (List.getElem?_eq_some_iff.mp hb).1
      have hbegun := h.begun j b hb
      have hne : ¬ j = s.batches.length := by omega
      simp only [leftOf, hnil, ite_self, List.append_nil] at hbegun
      simpa [leftOf, hne, startedIn] using hbegun
    · have hnone : startedIn s s.batches.length = [] := by
        simp only [startedIn, List.map_eq_nil_iff, List.filter_eq_nil_iff, decide_eq_true_eq]
        intro p hp
        have := h.started p hp
        omega
      simpa [leftOf, EventLoop.swapFunctors, startedIn] using hnone
  · intro p hp
    have := h.started p hp
    simp only [List.length_append, List.length_singleton]
    omega
  · intro _
    simp
  · intro hout
    simp [LoopPc.inBatch] at hout

/-- The next functor of the batch starts. -/
theorem start_ordered {s : State φ} (h : Ordered s) (hpc : s.pc = .calling) {f : φ}
    {rest : List φ} (hfunctors : s.loop.functors = f :: rest) :
    Ordered { s with pc := .functor, loop := s.loop.popFunctor
                     starts := s.starts ++ [(f, s.batches.length - 1)] } := by
  have hpos : 0 < s.batches.length := h.some_batch (by rw [hpc]; rfl)
  refine ⟨?_, h.pending, h.batch, h.swaps, h.caller, ?_, ?_, fun _ => hpos, ?_⟩
  · have horder := h.order
    rw [hfunctors] at horder
    simpa [EventLoop.popFunctor, hfunctors] using horder
  · intro j b hb
    have hbegun := h.begun j b hb
    by_cases hj : j + 1 = s.batches.length
    · have hlast : s.batches.length - 1 = j := by omega
      simp only [leftOf, hj, if_true, hfunctors] at hbegun
      simpa [leftOf, hj, hlast, startedIn, EventLoop.popFunctor, hfunctors] using hbegun
    · have hlast : ¬ s.batches.length - 1 = j := by omega
      simp only [leftOf, hj, if_false, List.append_nil] at hbegun
      simpa [leftOf, hj, hlast, startedIn] using hbegun
  · intro p hp
    rcases List.mem_append.mp hp with hp | hp
    · exact h.started p hp
    · obtain rfl := List.mem_singleton.mp hp
      change s.batches.length - 1 < s.batches.length
      omega
  · intro hout
    simp [LoopPc.inBatch] at hout

theorem loopStep_ordered {s s' : State φ} (h : Ordered s) (hexec : loopStep s = .ok s') :
    Ordered s' := by
  unfold loopStep at hexec
  split at hexec
  case h_1 hpc =>
    simp only [Checked.bind_eq_ok, Checked.require_eq_ok, Checked.pure_eq_ok,
      Except.ok.injEq] at hexec
    obtain ⟨-, -, rfl⟩ := hexec
    exact h.quiet rfl rfl rfl rfl rfl (Or.inl (by rw [hpc]; rfl))
  case h_3 hpc =>
    cases hexec
    refine h.quiet rfl rfl rfl rfl rfl (Or.inl ?_)
    rw [hpc]
    dsimp only
    split <;> rfl
  case h_9 hpc =>
    cases hexec
    exact swap_ordered h (h.no_functors (by rw [hpc]; rfl))
  case h_10 hpc =>
    split at hexec
    · rename_i hnil
      cases hexec
      exact h.quiet rfl rfl rfl rfl rfl (Or.inr ⟨rfl, hnil⟩)
    · rename_i f rest hfunctors
      cases hexec
      exact start_ordered h hpc hfunctors
  all_goals
    rename_i hpc
    cases hexec
    exact h.quiet rfl rfl rfl rfl rfl (Or.inl (by rw [hpc]; rfl))

theorem step_ordered {s s' : State φ} (h : Ordered s) {i : Input φ} (hallow : Allowed s i)
    (hexec : exec s i = .ok s') : Ordered s' := by
  cases i with
  | pushBack t cb =>
    cases hexec
    exact pushBack_ordered h t cb
  | finishQueue t =>
    cases hexec
    exact finishQueue_ordered h t
  | wakeUp =>
    cases hexec
    exact wakeUp_ordered h
  | quit =>
    cases hexec
    exact h.quiet rfl rfl rfl rfl rfl (Or.inl rfl)
  | callback =>
    have hpc : s.pc = .handling := hallow
    cases hexec
    exact h.quiet rfl rfl rfl rfl rfl (Or.inl (by rw [hpc]; rfl))
  | handleRead =>
    cases hexec
    exact h.quiet rfl rfl rfl rfl rfl (Or.inl rfl)
  | loopStep => exact loopStep_ordered h hexec

theorem reach_ordered {s : State φ} (h : Reachable (system φ) s) : Ordered s := by
  refine h.invariant ?_ ?_
  · rintro _ ⟨b, rfl⟩
    exact initial_ordered b
  · intro s i s' hs hallow _ hexec
    exact step_ordered hs hallow hexec

/-- At every moment the functors already started, the rest of the batch and the
pending ones are all the functors pushed, in the order of the pushes. A batch is
exactly what was pushed between two swaps, a functor pushed by a functor of a
batch belongs to a later one, and each batch starts its own functors only, in
order and each once. -/
theorem functor_queue_fifo {s : State φ} (h : Reachable (system φ) s) :
    s.starts.map Prod.fst ++ s.loop.functors ++ s.loop.pendingFunctors =
        s.pushes.map Push.functor ∧
      (∀ j b, s.batches[j]? = some b → b = pushedAt s j) ∧
      (∀ p ∈ s.pushes, ∀ j ∈ p.caller, j < p.swaps) ∧
      ∀ j b, s.batches[j]? = some b → startedIn s j ++ leftOf s j = b := by
  have hordered := reach_ordered h
  exact ⟨hordered.order, hordered.batch, hordered.caller, hordered.begun⟩

/-- A functor of the first batch queues another one while a second thread
pushes: both wait for the next batch. -/
def nestedPushRun : List (Input ℕ) :=
  [.pushBack (.other 1) 10, .loopStep, .loopStep, .loopStep, .loopStep, .finishQueue (.other 1),
    .loopStep, .handleRead, .loopStep, .loopStep, .loopStep, .loopStep, .pushBack .loop 20,
    .pushBack (.other 2) 30, .finishQueue .loop]

theorem nestedPushRun_fifo :
    ∃ s, Reachable (system ℕ) s ∧ s.starts = [(10, 0)] ∧ s.loop.pendingFunctors = [20, 30] ∧
      [10] ++ s.loop.functors ++ [20, 30] = s.pushes.map Push.functor := by
  obtain ⟨s, hs, htest⟩ := exists_of_replay (M := system ℕ) (s := initial false) Free ⟨_, rfl⟩
    nestedPushRun (fun s => decide (s.starts = [(10, 0)] ∧
      s.loop.pendingFunctors = [20, 30])) (by decide)
  obtain ⟨hstarts, hpending⟩ := of_decide_eq_true htest
  have hfifo := (functor_queue_fifo hs).1
  rw [hstarts, hpending] at hfifo
  exact ⟨s, hs, hstarts, hpending, hfifo⟩

end TinyMuduo.LoopRuns
