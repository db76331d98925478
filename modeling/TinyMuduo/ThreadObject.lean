import TinyMuduo.Lib.Checked
import TinyMuduo.Lib.Runs

/-!
A Thread object and the thread that it starts. The new thread has a ThreadData of
its own, with a weak pointer to the `tid_` of the object, and deletes it at the
end. The object may be destroyed at any time, also before the thread has looked at
the weak pointer or while it writes through it; then the thread is detached.
-/
namespace TinyMuduo.ThreadObject

open Checked Runs

inductive Pc
  | begin
  /-- after `wkTid_.lock()`, with whether it gave a pointer -/
  | locked (ptid : Bool)
  /-- after the store through `ptid`, before its reset -/
  | stored
  | naming
  | calling
  | finishing
  | deleting
  | exited
  deriving DecidableEq, Repr

def Pc.holds : Pc → Bool
  | .locked ptid => ptid
  | .stored => true
  | .begin | .naming | .calling | .finishing | .deleting | .exited => false

inductive ThreadName
  | unnamedThread
  /-- `name_.c_str()` of the ThreadData -/
  | name
  | finished
  deriving DecidableEq, Repr

inductive Memory
  | unallocated
  | allocated
  | freed
  deriving DecidableEq, Repr

inductive OwnerPc
  | outside
  | joining
  deriving DecidableEq, Repr

inductive Failure
  | assertNotStarted
  | assertStarted
  | assertNotJoined
  /-- pthread_create(3) failed -/
  | abort
  | useAfterFree
  deriving DecidableEq, Repr

structure State where
  alive : Bool
  owner : OwnerPc
  started_ : Bool
  joined_ : Bool
  /-- `*tid_`, while the cell exists -/
  tid_ : Option ℕ
  data : Memory
  thread : Option Pc
  threadName : ThreadName
  /-- calls of `func_`, of pthread_join(3) that returned, and of pthread_detach(3) -/
  calls : ℕ
  joins : ℕ
  detaches : ℕ
  deriving DecidableEq

inductive Input
  /-- `start`, with whether pthread_create(3) succeeds -/
  | start (created : Bool)
  | join
  | joinReturns
  | destroy
  | run
  deriving DecidableEq, Repr

def construct : State where
  alive := true
  owner := .outside
  started_ := false
  joined_ := false
  tid_ := some 0
  data := .unallocated
  thread := none
  threadName := .unnamedThread
  calls := 0
  joins := 0
  detaches := 0

def start (s : State) (created : Bool) : Except Failure State := do
  require (s.started_ = false) .assertNotStarted
  let s := { s with started_ := true, data := .allocated }
  if created then
    return { s with thread := some .begin }
  else
    .error .abort

def join (s : State) : Except Failure State := do
  require (s.started_ = true) .assertStarted
  require (s.joined_ = false) .assertNotJoined
  return { s with joined_ := true, owner := .joining }

def held (s : State) : Bool := s.thread.any Pc.holds

/-- `~Thread`; the cell of `tid_` stays if the thread has a pointer to it. -/
def destroy (s : State) : State :=
  { s with alive := false
           detaches := if s.started_ && !s.joined_ then s.detaches + 1 else s.detaches
           tid_ := if held s then s.tid_ else none }

def access (s : State) : Except Failure Unit := require (s.data = .allocated) .useAfterFree

/-- `ThreadData::runInThread` and the end of `startThread`, with the id of the
thread and whether it has a name. -/
def runInThread (tid : ℕ) (named : Bool) (s : State) : Pc → Except Failure State
  | .begin => do
      access s
      return { s with thread := some (.locked s.tid_.isSome) }
  | .locked true => do
      require (s.tid_.isSome = true) .useAfterFree
      return { s with tid_ := some tid, thread := some .stored }
  | .locked false => .ok { s with thread := some .naming }
  | .stored =>
      .ok { s with tid_ := if s.alive then s.tid_ else none, thread := some .naming }
  | .naming => do
      access s
      return { s with threadName := if named then .name else s.threadName
                      thread := some .calling
                      calls := s.calls + 1 }
  | .calling => .ok { s with thread := some .finishing }
  | .finishing => .ok { s with threadName := .finished, thread := some .deleting }
  | .deleting => do
      access s
      return { s with data := .freed, thread := some .exited }
  | .exited => .ok s

def exec (tid : ℕ) (named : Bool) (s : State) : Input → Except Failure State
  | .start created => start s created
  | .join => join s
  | .joinReturns => .ok { s with owner := .outside, joins := s.joins + 1 }
  | .destroy => .ok (destroy s)
  | .run =>
      match s.thread with
      | some pc => runInThread tid named s pc
      | none => .ok s

/-- The owner uses the object while it exists and is in one function at a time. -/
def Allowed (s : State) : Input → Prop
  | .start _ | .join | .destroy => s.alive = true ∧ s.owner = .outside
  | .joinReturns => s.owner = .joining ∧ s.thread = some .exited
  | .run => s.thread.isSome = true

instance (s : State) : (i : Input) → Decidable (Allowed s i)
  | .start _ | .join | .destroy | .joinReturns => inferInstanceAs (Decidable (_ ∧ _))
  | .run => inferInstanceAs (Decidable (s.thread.isSome = true))

def system (tid : ℕ) (named : Bool) : System State Input Failure where
  start := (· = construct)
  allowed := Allowed
  exec := exec tid named

instance (tid : ℕ) (named : Bool) (s : State) (i : Input) :
    Decidable ((system tid named).allowed s i) :=
  inferInstanceAs (Decidable (Allowed s i))

section Law

variable {tid : ℕ} {named : Bool} {s s' : State}

def Pc.called : Pc → Bool
  | .calling | .finishing | .deleting | .exited => true
  | .begin | .locked _ | .stored | .naming => false

/-- The store to the `tid_` cell, or the test that found it gone, is done. -/
def Pc.published : Pc → Bool
  | .begin | .locked true => false
  | .locked false | .stored | .naming | .calling | .finishing | .deleting | .exited => true

def Pc.usesName : Pc → Bool
  | .calling | .finishing => true
  | .begin | .locked _ | .stored | .naming | .deleting | .exited => false

def dataOf : Option Pc → Memory
  | none => .unallocated
  | some .exited => .freed
  | some _ => .allocated

structure Owned (s : State) : Prop where
  started : s.started_ = s.thread.isSome
  joined : s.joined_ = true → s.started_ = true
  joining : s.owner = .joining → s.joined_ = true ∧ s.alive = true
  joins : s.joins = if s.joined_ = true ∧ s.owner = .outside then 1 else 0
  exited : s.joins = 1 → s.thread = some .exited
  detaches : s.detaches = if s.alive = false ∧ s.started_ = true ∧ s.joined_ = false then 1 else 0

structure Held (tid : ℕ) (s : State) : Prop where
  data : s.data = dataOf s.thread
  calls : s.calls = if s.thread.any Pc.called then 1 else 0
  cell : s.tid_.isSome = (s.alive || held s)
  value : ∀ v ∈ s.tid_, v = 0 ∨ v = tid
  published : s.alive = true → s.thread.any Pc.published = true → s.tid_ = some tid
  name : s.threadName = .name → s.thread.any Pc.usesName = true

theorem construct_owned : Owned construct := by
  refine ⟨rfl, nofun, nofun, rfl, nofun, rfl⟩

theorem construct_held : Held tid construct := by
  refine ⟨rfl, rfl, rfl, ?_, nofun, nofun⟩
  intro v hv
  exact Or.inl (Option.some.inj hv).symm

theorem start_ok {created : Bool} (h : start s created = .ok s') :
    s.started_ = false ∧
      s' = { s with started_ := true, data := .allocated, thread := some .begin } := by
  cases created with
  | false => simp [start, bind_eq_ok] at h
  | true =>
    simp only [start, bind_eq_ok, require_eq_ok, if_true, pure_eq_ok, Except.ok.injEq] at h
    obtain ⟨-, hnot, rfl⟩ := h
    exact ⟨hnot, rfl⟩

theorem join_ok (h : join s = .ok s') :
    s.started_ = true ∧ s.joined_ = false ∧
      s' = { s with joined_ := true, owner := .joining } := by
  simp only [join, bind_eq_ok, require_eq_ok, pure_eq_ok, Except.ok.injEq] at h
  obtain ⟨-, hstarted, -, hnot, rfl⟩ := h
  exact ⟨hstarted, hnot, rfl⟩

structure Apart (s s' : State) : Prop where
  alive : s'.alive = s.alive
  owner : s'.owner = s.owner
  started : s'.started_ = s.started_
  joined : s'.joined_ = s.joined_
  joins : s'.joins = s.joins
  detaches : s'.detaches = s.detaches
  running : s'.thread.isSome = true

theorem runInThread_apart {pc : Pc} (hpc : s.thread = some pc)
    (h : runInThread tid named s pc = .ok s') : Apart s s' := by
  cases pc with
  | begin | naming | deleting =>
    simp only [runInThread, bind_eq_ok, pure_eq_ok, Except.ok.injEq] at h
    obtain ⟨-, -, rfl⟩ := h
    exact ⟨rfl, rfl, rfl, rfl, rfl, rfl, rfl⟩
  | locked ptid =>
    cases ptid with
    | true =>
      simp only [runInThread, bind_eq_ok, pure_eq_ok, Except.ok.injEq] at h
      obtain ⟨-, -, rfl⟩ := h
      exact ⟨rfl, rfl, rfl, rfl, rfl, rfl, rfl⟩
    | false =>
      obtain rfl := Except.ok.inj h
      exact ⟨rfl, rfl, rfl, rfl, rfl, rfl, rfl⟩
  | stored | calling | finishing =>
    obtain rfl := Except.ok.inj h
    exact ⟨rfl, rfl, rfl, rfl, rfl, rfl, rfl⟩
  | exited =>
    obtain rfl := Except.ok.inj h
    exact ⟨rfl, rfl, rfl, rfl, rfl, rfl, by rw [hpc]; rfl⟩

theorem step_owned {i : Input} (h : Owned s) (hallow : Allowed s i)
    (hexec : exec tid named s i = .ok s') : Owned s' := by
  obtain ⟨hstarted, hjoined, hjoining, hjoins, hexited, hdetaches⟩ := h
  cases i with
  | start created =>
    obtain ⟨hnot, rfl⟩ := start_ok hexec
    have hfree : s.joined_ = false := by
      by_contra hj
      have hyes := hjoined (by simpa using hj)
      rw [hnot] at hyes
      cases hyes
    refine ⟨rfl, fun _ => rfl, hjoining, hjoins, ?_, ?_⟩
    · intro hone
      rw [hone, hfree] at hjoins
      simp at hjoins
    · simpa [hnot, hallow.1] using hdetaches
  | join =>
    obtain ⟨hyes, hnot, rfl⟩ := join_ok hexec
    refine ⟨hstarted, fun _ => hyes, fun _ => ⟨rfl, hallow.1⟩, ?_, hexited, ?_⟩
    · simpa [hnot] using hjoins
    · simpa [hallow.1] using hdetaches
  | joinReturns =>
    obtain ⟨hin, hdone⟩ := hallow
    obtain ⟨hyes, hlive⟩ := hjoining hin
    obtain rfl := Except.ok.inj hexec
    refine ⟨hstarted, hjoined, nofun, ?_, fun _ => hdone, hdetaches⟩
    simp [hjoins, hin, hyes]
  | destroy =>
    obtain ⟨hlive, hout⟩ := hallow
    obtain rfl := Except.ok.inj hexec
    refine ⟨hstarted, hjoined, ?_, hjoins, hexited, ?_⟩
    · intro hin
      change s.owner = .joining at hin
      rw [hout] at hin
      cases hin
    · simp [destroy, hdetaches, hlive]
  | run =>
    obtain ⟨pc, hpc⟩ := Option.isSome_iff_exists.mp hallow
    simp only [exec, hpc] at hexec
    have hapart := runInThread_apart hpc hexec
    refine ⟨?_, ?_, ?_, ?_, ?_, ?_⟩
    · rw [hapart.started, hapart.running, hstarted, hpc]
      rfl
    · rw [hapart.joined, hapart.started]
      exact hjoined
    · rw [hapart.owner, hapart.joined, hapart.alive]
      exact hjoining
    · rw [hapart.joins, hapart.joined, hapart.owner]
      exact hjoins
    · rw [hapart.joins]
      intro hone
      have hdone := hexited hone
      rw [hpc] at hdone
      obtain rfl := Option.some.inj hdone
      obtain rfl := Except.ok.inj hexec
      exact hpc
    · rw [hapart.detaches, hapart.alive, hapart.started, hapart.joined]
      exact hdetaches

theorem runInThread_held {pc : Pc} (h : Held tid s) (hpc : s.thread = some pc)
    (hexec : runInThread tid named s pc = .ok s') : Held tid s' := by
  obtain ⟨hdata, hcalls, hcell, hvalue, hpublished, hname⟩ := h
  rw [hpc] at hdata hcalls hpublished hname
  cases pc with
  | begin =>
    simp only [runInThread, bind_eq_ok, pure_eq_ok, Except.ok.injEq] at hexec
    obtain ⟨-, -, rfl⟩ := hexec
    have hsome : s.tid_.isSome = s.alive := by simpa [held, hpc, Pc.holds] using hcell
    refine ⟨hdata, hcalls, ?_, hvalue, ?_, hname⟩
    · change s.tid_.isSome = (s.alive || s.tid_.isSome)
      rw [hsome, Bool.or_self]
    · intro hlive hpub
      change s.alive = true at hlive
      rw [hsome, hlive] at hpub
      cases hpub
  | locked ptid =>
    cases ptid with
    | true =>
      simp only [runInThread, bind_eq_ok, pure_eq_ok, Except.ok.injEq] at hexec
      obtain ⟨-, -, rfl⟩ := hexec
      refine ⟨hdata, hcalls, (Bool.or_true _).symm, ?_, fun _ _ => rfl, hname⟩
      intro v hv
      exact Or.inr (Option.some.inj hv).symm
    | false =>
      obtain rfl := Except.ok.inj hexec
      refine ⟨hdata, hcalls, ?_, hvalue, fun hlive _ => hpublished hlive rfl, hname⟩
      simpa [held, hpc, Pc.holds] using hcell
  | stored =>
    obtain rfl := Except.ok.inj hexec
    have hthere : s.tid_.isSome = true := by simpa [held, hpc, Pc.holds] using hcell
    refine ⟨hdata, hcalls, ?_, ?_, ?_, hname⟩
    · cases halive : s.alive with
      | true => simpa [held, Pc.holds, halive] using hthere
      | false => simp [held, Pc.holds]
    · intro v hv
      refine hvalue v ?_
      cases halive : s.alive with
      | true => simpa [halive] using hv
      | false => simp [halive] at hv
    · intro hlive _
      change s.alive = true at hlive
      have hstored := hpublished hlive rfl
      simpa [hlive] using hstored
  | naming =>
    simp only [runInThread, bind_eq_ok, pure_eq_ok, Except.ok.injEq] at hexec
    obtain ⟨-, -, rfl⟩ := hexec
    refine ⟨hdata, ?_, ?_, hvalue, fun hlive _ => hpublished hlive rfl, fun _ => rfl⟩
    · change s.calls + 1 = 1
      rw [hcalls]
      rfl
    · simpa [held, hpc, Pc.holds] using hcell
  | calling =>
    obtain rfl := Except.ok.inj hexec
    refine ⟨hdata, hcalls, ?_, hvalue, fun hlive _ => hpublished hlive rfl, fun _ => rfl⟩
    simpa [held, hpc, Pc.holds] using hcell
  | finishing =>
    obtain rfl := Except.ok.inj hexec
    refine ⟨hdata, hcalls, ?_, hvalue, fun hlive _ => hpublished hlive rfl, nofun⟩
    simpa [held, hpc, Pc.holds] using hcell
  | deleting =>
    simp only [runInThread, bind_eq_ok, pure_eq_ok, Except.ok.injEq] at hexec
    obtain ⟨-, -, rfl⟩ := hexec
    refine ⟨rfl, hcalls, ?_, hvalue, fun hlive _ => hpublished hlive rfl, ?_⟩
    · simpa [held, hpc, Pc.holds] using hcell
    · intro hnamed
      exact absurd (hname hnamed) Bool.false_ne_true
  | exited =>
    obtain rfl := Except.ok.inj hexec
    rw [← hpc] at hdata hcalls hpublished hname
    exact ⟨hdata, hcalls, hcell, hvalue, hpublished, hname⟩

theorem step_held {i : Input} (howned : Owned s) (h : Held tid s) (hallow : Allowed s i)
    (hexec : exec tid named s i = .ok s') : Held tid s' := by
  cases i with
  | start created =>
    obtain ⟨hnot, rfl⟩ := start_ok hexec
    have hnone : s.thread = none := by
      have hstarted := howned.started
      rw [hnot] at hstarted
      simpa using hstarted.symm
    obtain ⟨hdata, hcalls, hcell, hvalue, hpublished, hname⟩ := h
    rw [hnone] at hcalls hname
    refine ⟨rfl, hcalls, ?_, hvalue, nofun, fun hnamed => absurd (hname hnamed) Bool.false_ne_true⟩
    simpa [held, hnone, Pc.holds] using hcell
  | join =>
    obtain ⟨-, -, rfl⟩ := join_ok hexec
    exact ⟨h.data, h.calls, h.cell, h.value, h.published, h.name⟩
  | joinReturns =>
    obtain rfl := Except.ok.inj hexec
    exact ⟨h.data, h.calls, h.cell, h.value, h.published, h.name⟩
  | destroy =>
    obtain rfl := Except.ok.inj hexec
    have hthere := h.cell
    rw [hallow.1, Bool.true_or] at hthere
    refine ⟨h.data, h.calls, ?_, ?_, nofun, h.name⟩
    · change (if held s = true then s.tid_ else none).isSome = (false || held s)
      cases held s with
      | true => exact hthere
      | false => rfl
    · intro v hv
      change v ∈ (if held s = true then s.tid_ else none) at hv
      split at hv
      · exact h.value v hv
      · cases hv
  | run =>
    obtain ⟨pc, hpc⟩ := Option.isSome_iff_exists.mp hallow
    simp only [exec, hpc] at hexec
    exact runInThread_held h hpc hexec

theorem reach_inv (h : Reachable (system tid named) s) : Owned s ∧ Held tid s := by
  refine h.invariant (I := fun s => Owned s ∧ Held tid s) ?_ ?_
  · rintro _ rfl
    exact ⟨construct_owned, construct_held⟩
  · rintro s i s' ⟨howned, hheld⟩ hallow _ hexec
    exact ⟨step_owned howned hallow hexec, step_held howned hheld hallow hexec⟩

/-- The new thread never touches freed memory. -/
theorem run_ok (h : Held tid s) {pc : Pc} (hpc : s.thread = some pc) :
    ∃ s', runInThread tid named s pc = .ok s' := by
  have hdata := h.data
  rw [hpc] at hdata
  cases pc with
  | begin | naming | deleting =>
    have hallocated : s.data = .allocated := hdata
    simp [runInThread, access, hallocated]
  | locked ptid =>
    cases ptid with
    | true =>
      have hthere : s.tid_.isSome = true := by
        rw [h.cell, held, hpc]
        exact Bool.or_true _
      simp [runInThread, hthere]
    | false => exact ⟨_, rfl⟩
  | stored | calling | finishing | exited => exact ⟨_, rfl⟩

def Misuse (s : State) : Input → Prop
  | .start created => s.started_ = true ∨ created = false
  | .join => s.started_ = false ∨ s.joined_ = true
  | .joinReturns | .destroy | .run => False

theorem exec_error (h : Held tid s) {i : Input} (hallow : Allowed s i) {failure : Failure}
    (hexec : exec tid named s i = .error failure) : Misuse s i ∧ failure ≠ .useAfterFree := by
  cases i with
  | start created =>
    simp only [exec, start, bind_eq_error, require_eq_ok, require_eq_error, Bool.not_eq_false]
      at hexec
    rcases hexec with ⟨hyes, rfl⟩ | ⟨-, -, hexec⟩
    · exact ⟨Or.inl hyes, by simp⟩
    · cases created with
      | true => cases hexec
      | false =>
        obtain rfl := Except.error.inj hexec
        exact ⟨Or.inr rfl, by simp⟩
  | join =>
    simp only [exec, join, bind_eq_error, require_eq_ok, require_eq_error, Bool.not_eq_true,
      Bool.not_eq_false, pure_eq_ok, reduceCtorEq, and_false, exists_false, or_false] at hexec
    rcases hexec with ⟨hno, rfl⟩ | ⟨-, -, hyes, rfl⟩
    · exact ⟨Or.inl hno, by simp⟩
    · exact ⟨Or.inr hyes, by simp⟩
  | joinReturns | destroy => cases hexec
  | run =>
    obtain ⟨pc, hpc⟩ := Option.isSome_iff_exists.mp hallow
    obtain ⟨s', hok⟩ : ∃ s', runInThread tid named s pc = .ok s' := run_ok h hpc
    simp only [exec, hpc, hok] at hexec
    cases hexec

/-- In every interleaving of the owner with the new thread: only a misuse by the
owner or a failed pthread_create(3) ends the run, and freed memory is never used,
by the thread's name either; `func_` is called at most once; `tid()` is 0 or the
id of the thread. After `join` the thread has called `func_`, its memory is freed
and `tid()` is its id. An object that is gone had its thread joined or detached,
once; and when the thread has ended as well, nothing is left. -/
theorem threadObject_law (h : Reachable (system tid named) s) :
    (∀ i failure, Allowed s i → exec tid named s i = .error failure →
        Misuse s i ∧ failure ≠ .useAfterFree) ∧
      (s.threadName = .name → s.data = .allocated) ∧
      s.calls ≤ 1 ∧ s.joins + s.detaches ≤ 1 ∧
      (s.alive = true → s.tid_ = some 0 ∨ s.tid_ = some tid) ∧
      (s.joins = 1 → s.thread = some .exited ∧ s.calls = 1 ∧ s.data = .freed ∧
        (s.alive = true → s.tid_ = some tid)) ∧
      (s.alive = false → s.started_ = true → s.joins + s.detaches = 1) ∧
      (s.alive = false → s.thread = some .exited → s.tid_ = none ∧ s.data = .freed) := by
  obtain ⟨howned, hheld⟩ := reach_inv h
  refine ⟨fun i failure hallow => exec_error hheld hallow, ?_, ?_, ?_, ?_, ?_, ?_, ?_⟩
  · intro hname
    have huses := hheld.name hname
    rw [hheld.data]
    cases hpc : s.thread with
    | none => simp [hpc] at huses
    | some pc => cases pc <;> simp [hpc, Pc.usesName, dataOf] at huses ⊢
  · rw [hheld.calls]
    split <;> omega
  · rw [howned.joins, howned.detaches]
    cases s.joined_ <;> simp <;> split <;> omega
  · intro hlive
    have hthere := hheld.cell
    rw [hlive, Bool.true_or] at hthere
    obtain ⟨v, hv⟩ := Option.isSome_iff_exists.mp hthere
    rcases hheld.value v hv with rfl | rfl
    · exact Or.inl hv
    · exact Or.inr hv
  · intro hone
    have hexited := howned.exited hone
    refine ⟨hexited, ?_, ?_, ?_⟩
    · rw [hheld.calls, hexited]
      rfl
    · rw [hheld.data, hexited]
      rfl
    · intro hlive
      exact hheld.published hlive (by rw [hexited]; rfl)
  · intro hgone hstarted
    have hout : s.owner = .outside := by
      cases howner : s.owner with
      | outside => rfl
      | joining =>
        have hlive := (howned.joining howner).2
        rw [hgone] at hlive
        cases hlive
    rw [howned.joins, howned.detaches]
    cases hjoined : s.joined_ <;> simp [hgone, hstarted, hout]
  · intro hgone hexited
    have hcell := hheld.cell
    rw [hgone, held, hexited] at hcell
    refine ⟨by simpa [Pc.holds] using hcell, ?_⟩
    rw [hheld.data, hexited]
    rfl

end Law

/-- The object is destroyed while the new thread has the pointer to `tid_`. -/
def abandoned : List Input :=
  [.start true, .run, .destroy, .run, .run, .run, .run, .run, .run]

theorem abandoned_law : ∃ s, Reachable (system 42 true) s ∧ s.alive = false ∧
    s.thread = some .exited ∧ s.calls = 1 ∧ s.joins + s.detaches = 1 ∧ s.tid_ = none := by
  obtain ⟨s, hs, htest⟩ := exists_of_replay (M := system 42 true) (s := construct) Free rfl
    abandoned (fun s => decide (s.alive = false ∧ s.thread = some .exited ∧ s.calls = 1 ∧
      s.started_ = true)) (by decide)
  obtain ⟨hgone, hexited, hcalls, hstarted⟩ := of_decide_eq_true htest
  obtain ⟨-, -, -, -, -, -, honce, hleft⟩ := threadObject_law hs
  exact ⟨s, hs, hgone, hexited, hcalls, honce hgone hstarted, (hleft hgone hexited).1⟩

end TinyMuduo.ThreadObject
