import TinyMuduo.Lib.Runs
import Mathlib.Data.ENat.Basic
import Mathlib.Data.List.Perm.Basic
import Mathlib.Data.List.Rotate

/-!
Monitors: operations on a state that one mutex guards and that threads wait for
on condition variables. An operation takes the mutex, waits while its test
holds, does its work and may wake other threads up before it gives the mutex
back. Nothing else touches the state, so a thread passes from its test to its
wait, or to the end of its operation, in one step; a woken thread competes for
the mutex with threads that have just called, and tests again.
-/
namespace TinyMuduo.Monitor

open Runs

inductive Signal (κ : Type*)
  | silent
  | notify (c : κ)
  | notifyAll (c : κ)

/-- The operations `ω` of a monitor with state `σ`, conditions `κ` and results
`ρ`. -/
structure Program (σ ω κ ρ ε : Type*) where
  /-- `while (test) c.wait()`, if the operation begins with such a loop -/
  loop : ω → Option (κ × (σ → Bool))
  /-- the rest of the operation -/
  body : ω → σ → Except ε (σ × ρ × Signal κ)

variable {σ ω κ ρ ε : Type*}

def Program.blocked (M : Program σ ω κ ρ ε) (op : ω) (s : σ) : Option κ :=
  match M.loop op with
  | some (c, test) => if test s then some c else none
  | none => none

structure State (σ ω ρ : Type*) where
  shared : σ
  /-- threads that have called an operation and wait for the mutex -/
  called : List (ℕ × ω)
  /-- threads inside `wait` -/
  asleep : List (ℕ × ω)
  /-- threads that have been woken and wait for the mutex -/
  woken : List (ℕ × ω)
  /-- the finished operations, in the order in which they held the mutex -/
  done : List (ℕ × ω × ρ)

def State.initial (shared : σ) : State σ ω ρ := ⟨shared, [], [], [], []⟩

section Steps

variable [DecidableEq κ] (M : Program σ ω κ ρ ε)

def Program.on (c : κ) (p : ℕ × ω) : Bool := (M.loop p.2).map Prod.fst = some c

/-- Wake the threads of a signal up. The rotation stands for the choice of the
thread that one `notify` wakes up. -/
def deliver (signal : Signal κ) (choice : ℕ) (s : State σ ω ρ) : State σ ω ρ :=
  match signal with
  | .silent => s
  | .notify c =>
      { s with asleep := (s.asleep.rotate choice).eraseP (M.on c)
               woken := ((s.asleep.rotate choice).find? (M.on c)).toList ++ s.woken }
  | .notifyAll c =>
      { s with asleep := s.asleep.filter fun p => !M.on c p
               woken := s.asleep.filter (M.on c) ++ s.woken }

def critical (s : State σ ω ρ) (p : ℕ × ω) (choice : ℕ) : Except ε (State σ ω ρ) :=
  match M.blocked p.2 s.shared with
  | some _ => .ok { s with asleep := p :: s.asleep }
  | none =>
      match M.body p.2 s.shared with
      | .error e => .error e
      | .ok (shared, r, signal) =>
          .ok (deliver M signal choice
            { s with shared := shared, done := s.done ++ [(p.1, p.2, r)] })

inductive Input (ω : Type*)
  | call (thread : ℕ) (op : ω)
  /-- a thread that has called takes the mutex -/
  | enter (i : ℕ) (choice : ℕ)
  /-- a woken thread takes the mutex -/
  | resume (i : ℕ) (choice : ℕ)
  /-- `wait` may return without a notification -/
  | spurious (i : ℕ)

def Allowed (s : State σ ω ρ) : Input ω → Prop
  | .call thread _ => ∀ p ∈ s.called ++ (s.asleep ++ s.woken), p.1 ≠ thread
  | .enter i _ => i < s.called.length
  | .resume i _ => i < s.woken.length
  | .spurious i => i < s.asleep.length

instance (s : State σ ω ρ) : (i : Input ω) → Decidable (Allowed s i)
  | .call thread _ =>
      inferInstanceAs (Decidable (∀ p ∈ s.called ++ (s.asleep ++ s.woken), p.1 ≠ thread))
  | .enter i _ => inferInstanceAs (Decidable (i < s.called.length))
  | .resume i _ => inferInstanceAs (Decidable (i < s.woken.length))
  | .spurious i => inferInstanceAs (Decidable (i < s.asleep.length))

def exec (s : State σ ω ρ) : Input ω → Except ε (State σ ω ρ)
  | .call thread op => .ok { s with called := (thread, op) :: s.called }
  | .enter i choice =>
      match s.called[i]? with
      | some p => critical M { s with called := s.called.eraseIdx i } p choice
      | none => .ok s
  | .resume i choice =>
      match s.woken[i]? with
      | some p => critical M { s with woken := s.woken.eraseIdx i } p choice
      | none => .ok s
  | .spurious i =>
      match s.asleep[i]? with
      | some p => .ok { s with asleep := s.asleep.eraseIdx i, woken := p :: s.woken }
      | none => .ok s

def system (start : σ) : System (State σ ω ρ) (Input ω) ε where
  start := fun s => s = .initial start
  allowed := Allowed
  exec := exec M

instance (start : σ) (s : State σ ω ρ) (i : Input ω) :
    Decidable ((system M start).allowed s i) :=
  inferInstanceAs (Decidable (Allowed s i))

end Steps

section Rules

variable [DecidableEq κ] {M : Program σ ω κ ρ ε}

omit [DecidableEq κ] in
theorem blocked_eq_some {op : ω} {s : σ} {c : κ} :
    M.blocked op s = some c ↔ ∃ test, M.loop op = some (c, test) ∧ test s = true := by
  unfold Program.blocked
  cases hloop : M.loop op with
  | none => simp
  | some l =>
    obtain ⟨d, test⟩ := l
    by_cases ht : test s = true <;> simp [ht]

/-- A thread with the mutex goes to sleep or finishes its operation. -/
theorem critical_cases {s s' : State σ ω ρ} {p : ℕ × ω} {choice : ℕ}
    (h : critical M s p choice = .ok s') :
    (∃ c, M.blocked p.2 s.shared = some c ∧ s' = { s with asleep := p :: s.asleep }) ∨
      ∃ shared r signal, M.blocked p.2 s.shared = none ∧
        M.body p.2 s.shared = .ok (shared, r, signal) ∧
        s' = deliver M signal choice
          { s with shared := shared, done := s.done ++ [(p.1, p.2, r)] } := by
  unfold critical at h
  split at h
  · rename_i c hc
    cases h
    exact Or.inl ⟨c, hc, rfl⟩
  · rename_i hpass
    split at h
    · cases h
    · rename_i shared r signal hbody
      cases h
      exact Or.inr ⟨shared, r, signal, hpass, hbody, rfl⟩

inductive Moves (M : Program σ ω κ ρ ε) (s : State σ ω ρ) : State σ ω ρ → Prop
  | call (p : ℕ × ω) : Moves M s { s with called := p :: s.called }
  | enter (p : ℕ × ω) (choice : ℕ) (called : List (ℕ × ω)) (s' : State σ ω ρ)
      (hcalled : s.called.Perm (p :: called))
      (hcritical : critical M { s with called := called } p choice = .ok s') : Moves M s s'
  | resume (p : ℕ × ω) (choice : ℕ) (woken : List (ℕ × ω)) (s' : State σ ω ρ)
      (hwoken : s.woken.Perm (p :: woken))
      (hcritical : critical M { s with woken := woken } p choice = .ok s') : Moves M s s'
  | spurious (p : ℕ × ω) (asleep : List (ℕ × ω)) (hasleep : s.asleep.Perm (p :: asleep)) :
      Moves M s { s with asleep := asleep, woken := p :: s.woken }

theorem perm_eraseIdx {α : Type*} {l : List α} {i : ℕ} {a : α} (h : l[i]? = some a) :
    l.Perm (a :: l.eraseIdx i) := by
  obtain ⟨hi, rfl⟩ := List.getElem?_eq_some_iff.mp h
  exact (List.getElem_cons_eraseIdx_perm hi).symm

theorem exec_moves {s s' : State σ ω ρ} {i : Input ω} (hallow : Allowed s i)
    (h : exec M s i = .ok s') : Moves M s s' := by
  cases i with
  | call thread op =>
    cases h
    exact .call (thread, op)
  | enter i choice =>
    have hi : s.called[i]? = some s.called[i] := List.getElem?_eq_getElem hallow
    simp only [exec, hi] at h
    exact .enter _ choice _ s' (perm_eraseIdx hi) h
  | resume i choice =>
    have hi : s.woken[i]? = some s.woken[i] := List.getElem?_eq_getElem hallow
    simp only [exec, hi] at h
    exact .resume _ choice _ s' (perm_eraseIdx hi) h
  | spurious i =>
    have hi : s.asleep[i]? = some s.asleep[i] := List.getElem?_eq_getElem hallow
    simp only [exec, hi] at h
    cases h
    exact .spurious _ _ (perm_eraseIdx hi)

/-- A step fails only in the body of an operation that has passed its test. -/
theorem exec_succeeds {s : State σ ω ρ}
    (hbody : ∀ op, M.blocked op s.shared = none → ∃ out, M.body op s.shared = .ok out)
    (i : Input ω) : ∃ s', exec M s i = .ok s' := by
  have hcritical : ∀ (t : State σ ω ρ) p choice, t.shared = s.shared →
      ∃ s', critical M t p choice = .ok s' := by
    intro t p choice hshared
    unfold critical
    rw [hshared]
    cases hblocked : M.blocked p.2 s.shared with
    | some c => exact ⟨_, rfl⟩
    | none =>
      obtain ⟨out, hout⟩ := hbody p.2 hblocked
      rw [hout]
      exact ⟨_, rfl⟩
  cases i with
  | call thread op => exact ⟨_, rfl⟩
  | enter i choice =>
    cases hi : s.called[i]? with
    | none => exact ⟨s, by simp [exec, hi]⟩
    | some p =>
      obtain ⟨s', hs'⟩ := hcritical { s with called := s.called.eraseIdx i } p choice rfl
      exact ⟨s', by simp [exec, hi, hs']⟩
  | resume i choice =>
    cases hi : s.woken[i]? with
    | none => exact ⟨s, by simp [exec, hi]⟩
    | some p =>
      obtain ⟨s', hs'⟩ := hcritical { s with woken := s.woken.eraseIdx i } p choice rfl
      exact ⟨s', by simp [exec, hi, hs']⟩
  | spurious i =>
    cases hi : s.asleep[i]? with
    | none => exact ⟨s, by simp [exec, hi]⟩
    | some p =>
      refine ⟨{ s with asleep := s.asleep.eraseIdx i, woken := p :: s.woken }, ?_⟩
      simp [exec, hi]

theorem deliver_shared (signal : Signal κ) (choice : ℕ) (s : State σ ω ρ) :
    (deliver M signal choice s).shared = s.shared ∧
      (deliver M signal choice s).done = s.done := by
  cases signal <;> exact ⟨rfl, rfl⟩

/-- The state and the finished operations change together: what holds of the
state and the history at first, and is kept by every operation that passes its
test, holds in every run. -/
theorem history_invariant {start : σ} {I : σ → List (ℕ × ω × ρ) → Prop} (h0 : I start [])
    (hstep : ∀ s past thread op s' r signal, I s past → M.blocked op s = none →
      M.body op s = .ok (s', r, signal) → I s' (past ++ [(thread, op, r)]))
    {s : State σ ω ρ} (h : Reachable (system M start) s) : I s.shared s.done := by
  have hcritical : ∀ (s : State σ ω ρ) p choice s', I s.shared s.done →
      critical M s p choice = .ok s' → I s'.shared s'.done := by
    intro s p choice s' hs hexec
    rcases critical_cases hexec with ⟨c, -, rfl⟩ | ⟨shared, r, signal, hpass, hbody, rfl⟩
    · exact hs
    · obtain ⟨hshared, hdone⟩ := deliver_shared (M := M) signal choice
        { s with shared := shared, done := s.done ++ [(p.1, p.2, r)] }
      rw [hshared, hdone]
      exact hstep _ _ _ _ _ _ _ hs hpass hbody
  refine h.invariant (I := fun s => I s.shared s.done) ?_ ?_
  · rintro _ rfl
    exact h0
  · intro s i s' hs hallow _ hexec
    cases exec_moves hallow hexec with
    | call p => exact hs
    | enter p choice called s' hcalled hcrit =>
      exact hcritical { s with called := called } p choice s' hs hcrit
    | resume p choice woken s' hwoken hcrit =>
      exact hcritical { s with woken := woken } p choice s' hs hcrit
    | spurious p asleep hasleep => exact hs

theorem mem_deliver {signal : Signal κ} {choice : ℕ} {s : State σ ω ρ} {p : ℕ × ω}
    (hp : p ∈ (deliver M signal choice s).asleep ++ (deliver M signal choice s).woken) :
    p ∈ s.asleep ++ s.woken := by
  cases signal with
  | silent => exact hp
  | notify c =>
    simp only [deliver, List.mem_append, Option.mem_toList] at hp ⊢
    rcases hp with hp | hp | hp
    · exact Or.inl (List.mem_rotate.mp (List.mem_of_mem_eraseP hp))
    · exact Or.inl (List.mem_rotate.mp (List.mem_of_find?_eq_some hp))
    · exact Or.inr hp
  | notifyAll c =>
    simp only [deliver, List.mem_append, List.mem_filter] at hp ⊢
    rcases hp with hp | hp | hp
    · exact Or.inl hp.1
    · exact Or.inl hp.1
    · exact Or.inr hp

def State.pending (s : State σ ω ρ) : List (ℕ × ω) := s.called ++ (s.asleep ++ s.woken)

def State.calls (s : State σ ω ρ) : List (ℕ × ω) :=
  s.pending ++ s.done.map fun e => (e.1, e.2.1)

theorem calls_perm {s t : State σ ω ρ} {l : List (ℕ × ω)} (hdone : s.done = t.done)
    (h : s.pending.Perm (l ++ t.pending)) : s.calls.Perm (l ++ t.calls) := by
  unfold State.calls
  rw [hdone, ← List.append_assoc]
  exact h.append_right _

/-- A signal moves threads, it makes and loses none. -/
theorem deliver_pending (signal : Signal κ) (choice : ℕ) (s : State σ ω ρ) :
    (deliver M signal choice s).pending.Perm s.pending := by
  refine List.Perm.append (by cases signal <;> rfl) ?_
  cases signal with
  | silent => rfl
  | notify c =>
    simp only [deliver]
    refine List.Perm.trans ?_ ((List.rotate_perm s.asleep choice).append_right s.woken)
    cases hfind : (s.asleep.rotate choice).find? (M.on c) with
    | none =>
      have hnone := List.find?_eq_none.mp hfind
      rw [List.eraseP_of_forall_not hnone]
      rfl
    | some p =>
      obtain ⟨before, after, hsplit, hbefore⟩ :=
        (List.find?_eq_some_iff_append.mp hfind).2
      have hon := List.find?_some hfind
      rw [hsplit, List.eraseP_append_right _ (by simpa using hbefore), List.eraseP_cons_of_pos hon]
      simp only [Option.toList_some, List.append_assoc, List.cons_append]
      refine List.Perm.append_left before ?_
      exact List.perm_middle
  | notifyAll c =>
    simp only [deliver]
    rw [← List.append_assoc]
    refine List.Perm.append_right s.woken ?_
    exact List.perm_append_comm.trans (List.filter_append_perm (M.on c) s.asleep)

/-- A thread that has held the mutex sleeps, or its call is finished. -/
theorem critical_calls {s s' : State σ ω ρ} {p : ℕ × ω} {choice : ℕ}
    (h : critical M s p choice = .ok s') : s'.calls.Perm (p :: s.calls) := by
  rcases critical_cases h with ⟨c, -, rfl⟩ | ⟨shared, r, signal, -, -, rfl⟩
  · refine calls_perm (l := [p]) rfl ?_
    simp only [State.pending, List.cons_append]
    exact List.perm_middle
  · unfold State.calls
    rw [(deliver_shared signal choice _).2]
    refine ((deliver_pending signal choice _).append_right _).trans ?_
    rw [List.map_append, List.map_singleton, ← List.append_assoc]
    exact List.perm_append_singleton p _

def Input.newCalls : Input ω → List (ℕ × ω)
  | .call thread op => [(thread, op)]
  | .enter _ _ | .resume _ _ | .spurious _ => []

theorem exec_calls {s s' : State σ ω ρ} {i : Input ω} (hallow : Allowed s i)
    (h : exec M s i = .ok s') : s'.calls.Perm (i.newCalls ++ s.calls) := by
  cases i with
  | call thread op =>
    cases h
    rfl
  | enter i choice =>
    have hi : s.called[i]? = some s.called[i] := List.getElem?_eq_getElem hallow
    simp only [exec, hi] at h
    have hleft : s.calls.Perm (s.called[i] ::
        State.calls { s with called := s.called.eraseIdx i }) :=
      calls_perm (l := [s.called[i]]) rfl ((perm_eraseIdx hi).append_right _)
    exact (critical_calls h).trans hleft.symm
  | resume i choice =>
    have hi : s.woken[i]? = some s.woken[i] := List.getElem?_eq_getElem hallow
    simp only [exec, hi] at h
    have hleft : s.calls.Perm (s.woken[i] ::
        State.calls { s with woken := s.woken.eraseIdx i }) := by
      refine calls_perm (l := [s.woken[i]]) rfl ?_
      refine (((perm_eraseIdx hi).append_left s.asleep).append_left s.called).trans ?_
      simp only [State.pending, ← List.append_assoc]
      exact List.perm_middle
    exact (critical_calls h).trans hleft.symm
  | spurious i =>
    have hi : s.asleep[i]? = some s.asleep[i] := List.getElem?_eq_getElem hallow
    simp only [exec, hi] at h
    cases h
    refine calls_perm (l := []) rfl (List.Perm.append_left s.called ?_)
    exact List.perm_middle.trans ((perm_eraseIdx hi).symm.append_right _)

/-- Finished calls stay finished. -/
theorem exec_done {s s' : State σ ω ρ} {i : Input ω} (hallow : Allowed s i)
    (h : exec M s i = .ok s') : s.done <+: s'.done := by
  have hcritical : ∀ (s : State σ ω ρ) p choice, critical M s p choice = .ok s' →
      s.done <+: s'.done := by
    intro s p choice hexec
    rcases critical_cases hexec with ⟨c, -, rfl⟩ | ⟨shared, r, signal, -, -, rfl⟩
    · exact List.prefix_rfl
    · rw [(deliver_shared signal choice _).2]
      exact List.prefix_append _ _
  cases exec_moves hallow h with
  | call p => exact List.prefix_rfl
  | enter p choice called s' hcalled hcrit =>
    exact hcritical { s with called := called } p choice hcrit
  | resume p choice woken s' hwoken hcrit =>
    exact hcritical { s with woken := woken } p choice hcrit
  | spurious p asleep hasleep => exact List.prefix_rfl

/-- Only operations with a loop wait. -/
theorem waiting_loop {start : σ} {s : State σ ω ρ} (h : Reachable (system M start) s) :
    ∀ p ∈ s.asleep ++ s.woken, (M.loop p.2).isSome := by
  have hcritical : ∀ (s : State σ ω ρ) p choice s', critical M s p choice = .ok s' →
      (∀ q ∈ s.asleep ++ s.woken, (M.loop q.2).isSome) →
      ∀ q ∈ s'.asleep ++ s'.woken, (M.loop q.2).isSome := by
    intro s p choice s' hexec hs q hq
    rcases critical_cases hexec with ⟨c, hblocked, rfl⟩ | ⟨shared, r, signal, -, -, rfl⟩
    · obtain ⟨test, hloop, -⟩ := blocked_eq_some.mp hblocked
      rcases List.mem_cons.mp hq with rfl | hq
      · simp [hloop]
      · exact hs q hq
    · have hbefore := mem_deliver hq
      exact hs q hbefore
  refine h.invariant (I := fun s => ∀ p ∈ s.asleep ++ s.woken, (M.loop p.2).isSome) ?_ ?_
  · rintro _ rfl p hp
    cases hp
  · intro s i s' hs hallow _ hexec
    cases exec_moves hallow hexec with
    | call p => exact hs
    | enter p choice called s' hcalled hcrit => exact hcritical _ p choice s' hcrit hs
    | resume p choice woken s' hwoken hcrit =>
      refine hcritical _ p choice s' hcrit fun q hq => hs q ?_
      rcases List.mem_append.mp hq with hq | hq
      · exact List.mem_append_left _ hq
      · exact List.mem_append_right _ (hwoken.symm.subset (List.mem_cons_of_mem p hq))
    | spurious p asleep hasleep =>
      intro q hq
      apply hs q
      simp only [List.mem_append, List.mem_cons] at hq ⊢
      rcases hq with hq | rfl | hq
      · exact Or.inl (hasleep.symm.subset (List.mem_cons_of_mem p hq))
      · exact Or.inl (hasleep.symm.subset List.mem_cons_self)
      · exact Or.inr hq

def sleepers (M : Program σ ω κ ρ ε) (c : κ) (s : State σ ω ρ) : ℕ := s.asleep.countP (M.on c)

def awakened (M : Program σ ω κ ρ ε) (c : κ) (s : State σ ω ρ) : ℕ := s.woken.countP (M.on c)

def Signal.wakes (signal : Signal κ) (c : κ) : ℕ∞ :=
  match signal with
  | .silent => 0
  | .notify d => if d = c then 1 else 0
  | .notifyAll d => if d = c then ⊤ else 0

/-- A count of the operations that could pass their test one after the other:
none passes exactly when the count is zero, an operation raises the count by no
more than the threads its signal wakes up, and one that passes uses one up. -/
structure Counts (M : Program σ ω κ ρ ε) (room : κ → σ → ℕ∞) : Prop where
  closed : ∀ op c test s, M.loop op = some (c, test) → (test s = true ↔ room c s = 0)
  grows : ∀ op s s' r signal c, M.blocked op s = none → M.body op s = .ok (s', r, signal) →
    room c s' ≤ room c s + signal.wakes c
  uses : ∀ op c test s s' r signal, M.loop op = some (c, test) → M.blocked op s = none →
    M.body op s = .ok (s', r, signal) → room c s ≠ ⊤ → room c s' + 1 ≤ room c s + signal.wakes c

/-- If threads sleep, the woken ones are enough for all the room there is. -/
def Covered (M : Program σ ω κ ρ ε) (room : κ → σ → ℕ∞) (s : State σ ω ρ) : Prop :=
  ∀ c, 0 < sleepers M c s → room c s.shared ≤ awakened M c s

theorem on_of_loop {p : ℕ × ω} {c : κ} {test : σ → Bool} (h : M.loop p.2 = some (c, test)) (d : κ) :
    M.on d p = decide (c = d) := by
  simp [Program.on, h]

/-- A signal puts no thread to sleep, and the threads that still sleep after it
bear out that it woke its share up. -/
theorem deliver_counts (signal : Signal κ) (choice : ℕ) (s : State σ ω ρ) (c : κ) :
    sleepers M c (deliver M signal choice s) ≤ sleepers M c s ∧
      (0 < sleepers M c (deliver M signal choice s) →
        (awakened M c s : ℕ∞) + signal.wakes c ≤ awakened M c (deliver M signal choice s)) := by
  unfold sleepers awakened
  cases signal with
  | silent => simp [deliver, Signal.wakes]
  | notify d =>
    have hrotate : (s.asleep.rotate choice).countP (M.on c) = s.asleep.countP (M.on c) :=
      (List.rotate_perm s.asleep choice).countP_eq _
    simp only [deliver, List.countP_append]
    constructor
    · rw [← hrotate]
      exact List.Sublist.countP_le List.eraseP_sublist
    · intro hsleep
      by_cases hd : d = c
      · subst hd
        -- a thread that still sleeps was there before, so one was found
        obtain ⟨p, hp, hon⟩ := List.countP_pos_iff.mp hsleep
        obtain ⟨q, hq⟩ := Option.isSome_iff_exists.mp
          (List.find?_isSome.mpr ⟨p, List.mem_of_mem_eraseP hp, hon⟩)
        have hqon : M.on d q = true := List.find?_some hq
        simp [hq, hqon, Signal.wakes, add_comm]
      · simp [Signal.wakes, hd]
  | notifyAll d =>
    simp only [deliver, List.countP_append]
    constructor
    · exact List.Sublist.countP_le List.filter_sublist
    · intro hsleep
      by_cases hd : d = c
      · subst hd
        obtain ⟨p, hp, hon⟩ := List.countP_pos_iff.mp hsleep
        simp [hon] at hp
      · simp [Signal.wakes, hd]

/-- One signal's worth of room. -/
theorem Covered.finish {room : κ → σ → ℕ∞} {s : State σ ω ρ} {shared : σ} {signal : Signal κ}
    {choice : ℕ} {past : List (ℕ × ω × ρ)} {c : κ}
    (h : 0 < sleepers M c s → room c shared ≤ awakened M c s + signal.wakes c)
    (hsleep : 0 < sleepers M c
      (deliver M signal choice { s with shared := shared, done := past })) :
    room c (deliver M signal choice { s with shared := shared, done := past }).shared ≤
      awakened M c (deliver M signal choice { s with shared := shared, done := past }) := by
  obtain ⟨hle, hwakes⟩ := deliver_counts (M := M) signal choice
    { s with shared := shared, done := past } c
  rw [(deliver_shared signal choice _).1]
  exact (h (lt_of_lt_of_le hsleep hle)).trans (hwakes hsleep)

/-- A thread that called an operation keeps the balance. -/
theorem Covered.enter {room : κ → σ → ℕ∞} (hroom : Counts M room) {s s' : State σ ω ρ}
    {p : ℕ × ω} {choice : ℕ} (h : Covered M room s) (hexec : critical M s p choice = .ok s') :
    Covered M room s' := by
  intro c hsleep
  rcases critical_cases hexec with ⟨d, hblocked, rfl⟩ | ⟨shared, r, signal, hpass, hbody, rfl⟩
  · obtain ⟨test, hloop, htest⟩ := blocked_eq_some.mp hblocked
    by_cases hd : d = c
    · subst hd
      have hzero := (hroom.closed _ _ _ s.shared hloop).mp htest
      exact hzero ▸ zero_le
    · refine h c ?_
      simpa [sleepers, List.countP_cons, on_of_loop hloop, hd] using hsleep
  · refine Covered.finish (fun hslept => ?_) hsleep
    exact (hroom.grows _ _ _ _ _ c hpass hbody).trans (by gcongr; exact h c hslept)

/-- So does a woken thread, which is one of those that cover the room. -/
theorem Covered.resume {room : κ → σ → ℕ∞} (hroom : Counts M room) {s s' : State σ ω ρ}
    {p : ℕ × ω} {choice : ℕ} {woken : List (ℕ × ω)} (h : Covered M room s)
    (hwoken : s.woken.Perm (p :: woken))
    (hexec : critical M { s with woken := woken } p choice = .ok s') : Covered M room s' := by
  have hawakened : ∀ c, awakened M c s =
      awakened M c { s with woken := woken } + if M.on c p then 1 else 0 := by
    intro c
    rw [awakened, hwoken.countP_eq, List.countP_cons]
    rfl
  intro c hsleep
  rcases critical_cases hexec with ⟨d, hblocked, rfl⟩ | ⟨shared, r, signal, hpass, hbody, rfl⟩
  · obtain ⟨test, hloop, htest⟩ := blocked_eq_some.mp hblocked
    by_cases hd : d = c
    · subst hd
      have hzero := (hroom.closed _ _ _ s.shared hloop).mp htest
      exact hzero ▸ zero_le
    · have hslept : 0 < sleepers M c s := by
        simpa [sleepers, List.countP_cons, on_of_loop hloop, hd] using hsleep
      have hcovered := h c hslept
      rw [hawakened c, on_of_loop hloop, decide_eq_false hd] at hcovered
      exact hcovered
  · refine Covered.finish (fun hslept => ?_) hsleep
    have hcovered : room c s.shared ≤ awakened M c s := h c hslept
    by_cases hon : M.on c p = true
    · obtain ⟨⟨d, test⟩, hloop, rfl⟩ := Option.map_eq_some_iff.mp (of_decide_eq_true hon)
      have hfinite : room d s.shared ≠ ⊤ :=
        ne_top_of_le_ne_top (ENat.natCast_ne_top _) hcovered
      have huses := hroom.uses _ _ _ _ _ _ _ hloop hpass hbody hfinite
      rw [hawakened d, if_pos hon] at hcovered
      refine (ENat.add_le_add_iff_right ENat.one_ne_top).mp (huses.trans ?_)
      calc room d s.shared + signal.wakes d
          ≤ ((awakened M d { s with woken := woken } + 1 : ℕ) : ℕ∞) + signal.wakes d := by gcongr
        _ = awakened M d { s with woken := woken } + signal.wakes d + 1 := by
            push_cast
            exact add_right_comm _ _ _
    · rw [hawakened c, if_neg hon] at hcovered
      exact (hroom.grows _ _ _ _ _ c hpass hbody).trans (by gcongr; exact hcovered)

/-- No notification is lost: the invariant of every run. -/
theorem reach_covered {room : κ → σ → ℕ∞} (hroom : Counts M room) {start : σ}
    {s : State σ ω ρ} (h : Reachable (system M start) s) : Covered M room s := by
  refine h.invariant ?_ ?_
  · rintro _ rfl c hsleep
    simp [sleepers, State.initial] at hsleep
  · intro s i s' hs hallow _ hexec
    cases exec_moves hallow hexec with
    | call p => exact hs
    | enter p choice called s' hcalled hcrit =>
      exact Covered.enter hroom (s := { s with called := called }) hs hcrit
    | resume p choice woken s' hwoken hcrit => exact hs.resume hroom hwoken hcrit
    | spurious p asleep hasleep =>
      intro c hsleep
      have hslept : 0 < sleepers M c s := by
        rw [sleepers, hasleep.countP_eq, List.countP_cons]
        exact Nat.lt_of_lt_of_le hsleep (Nat.le_add_right _ _)
      refine (hs c hslept).trans ?_
      exact_mod_cast (List.sublist_cons_self p s.woken).countP_le

/-- A thread that sleeps although its test would let it pass is not alone: a
thread woken from the same condition can take the mutex and passes its own
test. -/
theorem exists_awakened {room : κ → σ → ℕ∞} (hroom : Counts M room) {start : σ}
    {s : State σ ω ρ} (h : Reachable (system M start) s) {p : ℕ × ω} (hp : p ∈ s.asleep)
    {c : κ} {test : σ → Bool} (hloop : M.loop p.2 = some (c, test))
    (htest : test s.shared = false) :
    ∃ q ∈ s.woken, M.on c q = true ∧ M.blocked q.2 s.shared = none := by
  have hne : room c s.shared ≠ 0 := by
    intro hzero
    rw [(hroom.closed _ _ _ _ hloop).mpr hzero] at htest
    cases htest
  have hsleep : 0 < sleepers M c s :=
    List.countP_pos_iff.mpr ⟨p, hp, by simp [on_of_loop hloop]⟩
  have hawake : 0 < awakened M c s := by
    have hle := reach_covered hroom h c hsleep
    by_contra hnone
    rw [Nat.eq_zero_of_not_pos hnone] at hle
    exact hne (le_antisymm hle zero_le)
  obtain ⟨q, hq, hon⟩ := List.countP_pos_iff.mp hawake
  refine ⟨q, hq, hon, ?_⟩
  obtain ⟨⟨d, test'⟩, hloop', rfl⟩ := Option.map_eq_some_iff.mp (of_decide_eq_true hon)
  rw [Option.eq_none_iff_forall_ne_some]
  intro d' hd'
  obtain ⟨test'', hloop'', htest''⟩ := blocked_eq_some.mp hd'
  rw [hloop'] at hloop''
  cases hloop''
  exact hne ((hroom.closed _ _ _ _ hloop').mp htest'')

end Rules

end TinyMuduo.Monitor
