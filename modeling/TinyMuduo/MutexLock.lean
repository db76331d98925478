import TinyMuduo.Lib.Checked
import TinyMuduo.Lib.Runs
import Mathlib.Logic.Function.Basic

/-!
A mutex that knows its holder. `lock` stores the id of the thread once it has the
mutex, and `unlock` clears it before the mutex is given back. Condition variables
give the mutex back and take it again without `holder_`, which other threads may
have changed by then: `isLockedByThisThread` never says yes to a thread that runs
without the mutex, but it may say no to one that has it.
-/
namespace TinyMuduo.MutexLock

open Checked Runs

inductive Pc
  | outside
  /-- in `lock`, with the mutex, before the store -/
  | locking
  | inside
  /-- in `Condition::wait` or `waitForSeconds`, without the mutex -/
  | waiting
  /-- in `unlock`, with the mutex, after the store -/
  | unlocking
  deriving DecidableEq, Repr

def Pc.hasMutex : Pc → Bool
  | .locking | .inside | .unlocking => true
  | .outside | .waiting => false

/-- The thread has called `lock`, and `unlock` has not cleared the holder. -/
def Pc.entered : Pc → Bool
  | .inside | .waiting => true
  | .outside | .locking | .unlocking => false

structure State where
  mutex_ : Option ℕ
  /-- a thread id, or 0 -/
  holder_ : ℕ
  pcs : ℕ → Pc
  /-- another thread has locked or unlocked since this one called `lock` -/
  disturbed : ℕ → Bool

inductive Input
  | acquire (tid : ℕ)
  | storeHolder (tid : ℕ)
  | wait (tid : ℕ)
  | wake (tid : ℕ)
  | clearHolder (tid : ℕ)
  | release (tid : ℕ)
  | assertLocked (tid : ℕ)
  deriving DecidableEq, Repr

inductive Failure
  | notLocked (tid : ℕ)
  deriving DecidableEq, Repr

def isLockedByThisThread (s : State) (tid : ℕ) : Bool := s.holder_ == tid

def goTo (s : State) (tid : ℕ) (pc : Pc) : State :=
  { s with pcs := Function.update s.pcs tid pc }

def exec (s : State) : Input → Except Failure State
  | .acquire tid => .ok { goTo s tid .locking with mutex_ := some tid }
  | .storeHolder tid =>
      .ok { goTo s tid .inside with
        holder_ := tid
        disturbed := fun other => decide (other ≠ tid) }
  | .wait tid => .ok { goTo s tid .waiting with mutex_ := none }
  | .wake tid => .ok { goTo s tid .inside with mutex_ := some tid }
  | .clearHolder tid =>
      .ok { goTo s tid .unlocking with
        holder_ := 0
        disturbed := fun other => decide (other ≠ tid) || s.disturbed tid }
  | .release tid => .ok { goTo s tid .outside with mutex_ := none }
  | .assertLocked tid => do
      require (isLockedByThisThread s tid = true) (.notLocked tid)
      return s

/-- The order of each thread's steps; thread ids are positive. The mutex is
recursive for nobody. -/
def Allowed (s : State) : Input → Prop
  | .acquire tid => 0 < tid ∧ s.pcs tid = .outside ∧ s.mutex_ = none
  | .storeHolder tid => s.pcs tid = .locking
  | .wait tid => s.pcs tid = .inside
  | .wake tid => s.pcs tid = .waiting ∧ s.mutex_ = none
  | .clearHolder tid => s.pcs tid = .inside
  | .release tid => s.pcs tid = .unlocking
  | .assertLocked tid => 0 < tid ∧ s.pcs tid ≠ .waiting

instance (s : State) : (i : Input) → Decidable (Allowed s i)
  | .acquire _ | .wake _ | .assertLocked _ => inferInstanceAs (Decidable (_ ∧ _))
  | .storeHolder tid => inferInstanceAs (Decidable (s.pcs tid = .locking))
  | .wait tid | .clearHolder tid => inferInstanceAs (Decidable (s.pcs tid = .inside))
  | .release tid => inferInstanceAs (Decidable (s.pcs tid = .unlocking))

def initial : State := ⟨none, 0, fun _ => .outside, fun _ => false⟩

def system : System State Input Failure where
  start := (· = initial)
  allowed := Allowed
  exec := exec

instance (s : State) (i : Input) : Decidable (system.allowed s i) :=
  inferInstanceAs (Decidable (Allowed s i))

section Law

variable {s s' : State} {tid : ℕ}

structure Inv (s : State) : Prop where
  ids : ∀ tid, s.pcs tid ≠ .outside → 0 < tid
  mutex : ∀ tid, (s.pcs tid).hasMutex = true ↔ s.mutex_ = some tid
  holder : ∀ tid, 0 < tid → s.holder_ = tid → (s.pcs tid).entered = true
  exact_iff : ∀ tid, (s.pcs tid).entered = true → (s.holder_ = tid ↔ s.disturbed tid = false)

/-- A thread moves on and `holder_` stays. -/
theorem Inv.goTo (h : Inv s) {pc : Pc} {mutex : Option ℕ} (hid : 0 < tid)
    (hentered : pc.entered = (s.pcs tid).entered)
    (hmutex : ∀ other, (Function.update s.pcs tid pc other).hasMutex = true ↔
      mutex = some other) :
    Inv { goTo s tid pc with mutex_ := mutex } := by
  have hsame : ∀ other,
      (Function.update s.pcs tid pc other).entered = (s.pcs other).entered := by
    intro other
    by_cases hother : other = tid
    · subst hother
      rw [Function.update_self, hentered]
    · rw [Function.update_of_ne hother]
  refine ⟨?_, hmutex, ?_, ?_⟩
  · intro other hout
    by_cases hother : other = tid
    · exact hother ▸ hid
    · refine h.ids other ?_
      rwa [← Function.update_of_ne hother pc s.pcs]
  · intro other hpos hholder
    exact (hsame other).trans (h.holder other hpos hholder)
  · intro other hent
    exact h.exact_iff other ((hsame other).symm.trans hent)

/-- A thread gets the mutex that nobody has. -/
theorem Inv.takes (h : Inv s) {pc : Pc} (hfree : s.mutex_ = none) (hpc : pc.hasMutex = true)
    (other : ℕ) : (Function.update s.pcs tid pc other).hasMutex = true ↔ some tid = some other := by
  by_cases hother : other = tid
  · subst hother
    rw [Function.update_self]
    exact iff_of_true hpc rfl
  · rw [Function.update_of_ne hother, h.mutex, hfree]
    simp [Ne.symm hother]

/-- A thread gives its mutex back. -/
theorem Inv.gives (h : Inv s) {pc : Pc} (hhas : (s.pcs tid).hasMutex = true)
    (hpc : pc.hasMutex = false) (other : ℕ) :
    (Function.update s.pcs tid pc other).hasMutex = true ↔ none = some other := by
  by_cases hother : other = tid
  · subst hother
    simp [hpc]
  · rw [Function.update_of_ne hother, h.mutex, (h.mutex tid).mp hhas]
    simp [Ne.symm hother]

/-- A thread keeps its mutex. -/
theorem Inv.keeps (h : Inv s) {pc : Pc} (hhas : (s.pcs tid).hasMutex = true)
    (hpc : pc.hasMutex = true) (other : ℕ) :
    (Function.update s.pcs tid pc other).hasMutex = true ↔ s.mutex_ = some other := by
  by_cases hother : other = tid
  · subst hother
    rw [Function.update_self]
    exact iff_of_true hpc ((h.mutex other).mp hhas)
  · rw [Function.update_of_ne hother, h.mutex]

/-- A thread that has the mutex stores to `holder_`: its own id on the way in, and
0 on the way out. -/
theorem Inv.stores (h : Inv s) {pc : Pc} {holder : ℕ} {disturbed : ℕ → Bool}
    (hhas : (s.pcs tid).hasMutex = true) (hpc : pc.hasMutex = true)
    (hown : pc.entered = true → holder = tid ∧ disturbed tid = false)
    (hleft : pc.entered = false → holder = 0) (hholder : holder = 0 ∨ holder = tid)
    (hothers : ∀ other, other ≠ tid → disturbed other = true) (hid : 0 < tid) :
    Inv { s with pcs := Function.update s.pcs tid pc
                 holder_ := holder
                 disturbed := disturbed } := by
  refine ⟨?_, h.keeps hhas hpc, ?_, ?_⟩
  · intro other hout
    by_cases hother : other = tid
    · exact hother ▸ hid
    · refine h.ids other ?_
      rwa [← Function.update_of_ne hother pc s.pcs]
  · intro other hpos heq
    dsimp only at heq ⊢
    have hother : other = tid := by
      rcases hholder with hzero | hself
      · omega
      · exact heq ▸ hself
    subst hother
    rw [Function.update_self]
    by_contra hnot
    have hzero := hleft (Bool.not_eq_true _ ▸ hnot)
    omega
  · intro other hent
    dsimp only at hent ⊢
    by_cases hother : other = tid
    · subst hother
      rw [Function.update_self] at hent
      obtain ⟨hself, hclean⟩ := hown hent
      exact iff_of_true hself hclean
    · rw [Function.update_of_ne hother] at hent
      have hpos : 0 < other := by
        refine h.ids other ?_
        intro hout
        rw [hout] at hent
        cases hent
      refine iff_of_false ?_ (by simp [hothers other hother])
      rcases hholder with hzero | hself
      · omega
      · exact hself ▸ Ne.symm hother

theorem step_inv {i : Input} (h : Inv s) (hallow : Allowed s i) (hexec : exec s i = .ok s') :
    Inv s' := by
  cases i with
  | acquire tid =>
    obtain ⟨hid, hpc, hfree⟩ := hallow
    obtain rfl := Except.ok.inj hexec
    exact h.goTo hid (by rw [hpc]; rfl) (h.takes hfree rfl)
  | storeHolder tid =>
    have hpc : s.pcs tid = .locking := hallow
    obtain rfl := Except.ok.inj hexec
    exact h.stores (by rw [hpc]; rfl) rfl (fun _ => ⟨rfl, by simp⟩) nofun (Or.inr rfl)
      (fun other hother => by simp [hother]) (h.ids tid (by simp [hpc]))
  | wait tid =>
    have hpc : s.pcs tid = .inside := hallow
    obtain rfl := Except.ok.inj hexec
    exact h.goTo (h.ids tid (by simp [hpc])) (by rw [hpc]; rfl) (h.gives (by rw [hpc]; rfl) rfl)
  | wake tid =>
    obtain ⟨hpc, hfree⟩ := hallow
    obtain rfl := Except.ok.inj hexec
    exact h.goTo (h.ids tid (by simp [hpc])) (by rw [hpc]; rfl) (h.takes hfree rfl)
  | clearHolder tid =>
    have hpc : s.pcs tid = .inside := hallow
    obtain rfl := Except.ok.inj hexec
    exact h.stores (by rw [hpc]; rfl) rfl nofun (fun _ => rfl) (Or.inl rfl)
      (fun other hother => by simp [hother]) (h.ids tid (by simp [hpc]))
  | release tid =>
    have hpc : s.pcs tid = .unlocking := hallow
    obtain rfl := Except.ok.inj hexec
    exact h.goTo (h.ids tid (by simp [hpc])) (by rw [hpc]; rfl) (h.gives (by rw [hpc]; rfl) rfl)
  | assertLocked tid =>
    simp only [exec, bind_eq_ok, require_eq_ok, pure_eq_ok, Except.ok.injEq] at hexec
    obtain ⟨-, -, rfl⟩ := hexec
    exact h

theorem reach_inv (h : Reachable system s) : Inv s := by
  refine h.invariant ?_ ?_
  · rintro _ rfl
    refine ⟨fun tid hout => absurd rfl hout, ?_, ?_, nofun⟩
    · simp [initial, Pc.hasMutex]
    · intro tid hpos hholder
      change 0 = tid at hholder
      omega
  · intro s i s' hs hallow _ hexec
    exact step_inv hs hallow hexec

/-- In every run at most one thread has the mutex; a thread that runs is told that
it has the mutex only if it has; a thread between `lock` and `unlock` is told so
exactly if no other thread has locked or unlocked since its `lock`; and `~MutexLock`
finds no holder if all threads are outside. -/
theorem mutexLock_law (h : Reachable system s) :
    (∀ tid, (s.pcs tid).hasMutex = true ↔ s.mutex_ = some tid) ∧
      (∀ tid, Allowed s (.assertLocked tid) → exec s (.assertLocked tid) = .ok s →
        s.mutex_ = some tid) ∧
      (∀ tid, s.pcs tid = .inside →
        (isLockedByThisThread s tid = true ↔ s.disturbed tid = false)) ∧
      ((∀ tid, s.pcs tid = .outside) → s.holder_ = 0) := by
  have hinv := reach_inv h
  refine ⟨hinv.mutex, ?_, ?_, ?_⟩
  · rintro tid ⟨hpos, hruns⟩ hexec
    simp only [exec, bind_eq_ok, require_eq_ok, isLockedByThisThread, beq_iff_eq] at hexec
    obtain ⟨-, hholder, -⟩ := hexec
    have hentered := hinv.holder tid hpos hholder
    have hinside : s.pcs tid = .inside := by
      cases hpc : s.pcs tid <;> simp [hpc, Pc.entered] at hruns hentered ⊢
    rw [← hinv.mutex, hinside]
    rfl
  · intro tid hinside
    rw [isLockedByThisThread, beq_iff_eq]
    exact hinv.exact_iff tid (by rw [hinside]; rfl)
  · intro hout
    by_contra hholder
    have hentered := hinv.holder s.holder_ (Nat.pos_of_ne_zero hholder) rfl
    rw [hout] at hentered
    cases hentered

/-- The first thread waits, and the second one locks and waits. Then the first has
the mutex again and is not told so. -/
def staleHolder : List Input :=
  [.acquire 5, .storeHolder 5, .assertLocked 5, .wait 5, .acquire 8, .storeHolder 8, .wait 8,
    .wake 5]

theorem staleHolder_law : ∃ s, Reachable system s ∧ s.mutex_ = some 5 ∧
    isLockedByThisThread s 5 ≠ true := by
  obtain ⟨s, hs, htest⟩ := exists_of_replay (M := system) (s := initial) Free rfl staleHolder
    (fun s => decide (s.mutex_ = some 5 ∧ s.pcs 5 = .inside ∧ s.disturbed 5 = true)) (by decide)
  obtain ⟨hmutex, hinside, hdisturbed⟩ := of_decide_eq_true htest
  obtain ⟨-, -, hexact, -⟩ := mutexLock_law hs
  refine ⟨s, hs, hmutex, ?_⟩
  rw [Ne, hexact 5 hinside, hdisturbed]
  exact Bool.noConfusion

end Law

end TinyMuduo.MutexLock
