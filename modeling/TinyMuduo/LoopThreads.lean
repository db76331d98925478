import TinyMuduo.Lib.Checked
import TinyMuduo.Lib.Runs
import Mathlib.Data.Set.Card

/-!
One loop per thread. Any thread may construct EventLoops, run them, call them and
destroy them, also from the callbacks and functors of another loop, so each thread
has a stack of the loops that it is in. A call is one step here; what queueInLoop
does under its lock and after it is in LoopRuns. The contents of the Poller and of
the TimerQueue are left to their own modules: what matters is who touches them.
-/
namespace TinyMuduo.LoopThreads

open Checked Runs

abbrev ThreadId := ℕ

abbrev LoopId := ℕ

inductive Functor
  | user
  | addTimerInLoop
  | cancelInLoop
  deriving DecidableEq, Repr

inductive Event
  | channel
  | wakeup
  /-- the timerfd, with the number of timers that have expired -/
  | timers (expired : ℕ)
  deriving DecidableEq, Repr

inductive Phase
  | testing
  | polling
  /-- in the walk over `activeChannels`; in `TimerQueue::handleRead` with the number
  of callbacks that are left -/
  | walking (expired : Option ℕ) (todo : List Event)
  | calling (functors : List Functor)
  deriving DecidableEq, Repr

inductive Frame
  | user
  | loop (loop : LoopId) (phase : Phase)
  deriving DecidableEq, Repr

structure EventLoop where
  threadId : ThreadId
  isLooping : Bool
  isQuited : Bool
  callingPendingFunctors : Bool
  pendingFunctors : List Functor
  wakeups : ℕ
  deriving DecidableEq, Repr

structure State where
  loops : LoopId → Option EventLoop
  eventLoopOfThisThread : ThreadId → Option LoopId
  /-- the top comes first -/
  frames : ThreadId → List Frame
  /-- how many loops of other threads a thread has destroyed -/
  foreign : ThreadId → ℕ

inductive Failure
  /-- LOG_FATAL in `EventLoop::EventLoop` -/
  | anotherEventLoop
  | abortNotInLoopThread
  | assertNotLooping
  | assertOwnerLoop
  /-- what belongs to a loop is touched in another thread -/
  | race
  | useAfterFree
  deriving DecidableEq, Repr

inductive Input
  /-- `EventLoop::EventLoop`, with what is in `callingPendingFunctors`, which it does
  not initialise -/
  | construct (loop : LoopId) (garbage : Bool)
  | destroy (loop : LoopId)
  | loop (loop : LoopId)
  | quit (loop : LoopId)
  /-- with the loop of the Channel -/
  | updateChannel (loop owner : LoopId)
  | removeChannel (loop owner : LoopId)
  | runInLoop (loop : LoopId) (cb : Functor)
  | queueInLoop (loop : LoopId) (cb : Functor)
  /-- `runAt`, `runAfter` and `runEvery` -/
  | addTimer (loop : LoopId)
  | cancel (loop : LoopId)
  | return_
  /-- the next statement of `EventLoop::loop`, with the answer of poll(2) -/
  | next (active : List Event)
  deriving DecidableEq, Repr

def initial : State where
  loops := fun _ => none
  eventLoopOfThisThread := fun _ => none
  frames := fun _ => []
  foreign := fun _ => 0

def load (s : State) (loop : LoopId) : Except Failure EventLoop :=
  demand (s.loops loop) .useAfterFree

def store (s : State) (loop : LoopId) (l : EventLoop) : State :=
  { s with loops := Function.update s.loops loop (some l) }

def setStack (s : State) (t : ThreadId) (stack : List Frame) : State :=
  { s with frames := Function.update s.frames t stack }

def push (s : State) (t : ThreadId) (frame : Frame) : State :=
  setStack s t (frame :: s.frames t)

/-- The Poller, the TimerQueue and the active Channels of a loop are touched, or one
of its functors or callbacks is called. -/
def touch (l : EventLoop) (t : ThreadId) : Except Failure Unit :=
  require (l.threadId = t) .race

def assertInLoopThread (l : EventLoop) (t : ThreadId) : Except Failure Unit :=
  require (l.threadId = t) .abortNotInLoopThread

def construct (s : State) (t : ThreadId) (loop : LoopId) (garbage : Bool) :
    Except Failure State := do
  require (s.eventLoopOfThisThread t = none) .anotherEventLoop
  return { s with
    loops := Function.update s.loops loop (some ⟨t, false, false, garbage, [], 0⟩)
    eventLoopOfThisThread := Function.update s.eventLoopOfThisThread t (some loop) }

/-- `~EventLoop`. It is the pointer of the calling thread that is reset. -/
def destroy (s : State) (t : ThreadId) (loop : LoopId) : Except Failure State := do
  let l ← load s loop
  require (l.isLooping = false) .assertNotLooping
  return { s with
    loops := Function.update s.loops loop none
    eventLoopOfThisThread := Function.update s.eventLoopOfThisThread t none
    foreign := Function.update s.foreign t (s.foreign t + if l.threadId = t then 0 else 1) }

/-- `EventLoop::loop` up to its while loop. -/
def enterLoop (s : State) (t : ThreadId) (loop : LoopId) : Except Failure State := do
  let l ← load s loop
  require (l.isLooping = false) .assertNotLooping
  assertInLoopThread l t
  return push (store s loop { l with isLooping := true, isQuited := false }) t
    (.loop loop .testing)

def wakeUp (l : EventLoop) : EventLoop := { l with wakeups := l.wakeups + 1 }

def quit (s : State) (t : ThreadId) (loop : LoopId) : Except Failure State := do
  let l ← load s loop
  let l := { l with isQuited := true }
  return store s loop (if l.threadId = t then l else wakeUp l)

/-- `EventLoop::updateChannel` and `EventLoop::removeChannel`. -/
def changeChannel (s : State) (t : ThreadId) (loop owner : LoopId) : Except Failure State := do
  let l ← load s loop
  require (owner = loop) .assertOwnerLoop
  assertInLoopThread l t
  touch l t
  return s

def call (s : State) (t : ThreadId) (loop : LoopId) : Functor → Except Failure State
  | .user => do
      let l ← load s loop
      touch l t
      return push s t .user
  | .addTimerInLoop | .cancelInLoop => do
      let l ← load s loop
      assertInLoopThread l t
      touch l t
      return s

def queueInLoop (s : State) (t : ThreadId) (loop : LoopId) (cb : Functor) :
    Except Failure State := do
  let l ← load s loop
  let l := { l with pendingFunctors := l.pendingFunctors ++ [cb] }
  let woken := !decide (l.threadId = t) || l.callingPendingFunctors
  return store s loop (if woken then wakeUp l else l)

def runInLoop (s : State) (t : ThreadId) (loop : LoopId) (cb : Functor) :
    Except Failure State := do
  let l ← load s loop
  if l.threadId = t then call s t loop cb else queueInLoop s t loop cb

def handleEvent (s : State) (t : ThreadId) (loop : LoopId) (l : EventLoop) (rest : List Frame)
    (todo : List Event) : Event → Except Failure State
  | .channel => do
      touch l t
      return setStack s t (.user :: .loop loop (.walking none todo) :: rest)
  | .wakeup =>
      .ok (setStack (store s loop { l with wakeups := 0 }) t
        (.loop loop (.walking none todo) :: rest))
  | .timers expired => do
      assertInLoopThread l t
      touch l t
      return setStack s t (.loop loop (.walking (some expired) todo) :: rest)

/-- The next statement of `EventLoop::loop` and of what it calls, for a thread whose
stack has the loop on top. -/
def runLoop (s : State) (t : ThreadId) (loop : LoopId) (rest : List Frame)
    (active : List Event) : Phase → Except Failure State
  | .testing => do
      let l ← load s loop
      if l.isQuited then
        return setStack (store s loop { l with isLooping := false }) t rest
      else
        return setStack s t (.loop loop .polling :: rest)
  | .polling => do
      let l ← load s loop
      touch l t
      return setStack s t (.loop loop (.walking none active) :: rest)
  | .walking none (event :: todo) => do
      let l ← load s loop
      handleEvent s t loop l rest todo event
  | .walking (some (expired + 1)) todo => do
      let l ← load s loop
      touch l t
      return setStack s t (.user :: .loop loop (.walking (some expired) todo) :: rest)
  | .walking (some 0) todo => do
      -- `reset`, whose `insert` has the assertion
      let l ← load s loop
      assertInLoopThread l t
      touch l t
      return setStack s t (.loop loop (.walking none todo) :: rest)
  | .walking none [] => do
      let l ← load s loop
      let swapped := { l with callingPendingFunctors := true, pendingFunctors := [] }
      return setStack (store s loop swapped) t (.loop loop (.calling l.pendingFunctors) :: rest)
  | .calling (functor :: functors) =>
      call (setStack s t (.loop loop (.calling functors) :: rest)) t loop functor
  | .calling [] => do
      let l ← load s loop
      return setStack (store s loop { l with callingPendingFunctors := false })
        t (.loop loop .testing :: rest)

def exec (s : State) : ThreadId × Input → Except Failure State
  | (t, .construct loop garbage) => construct s t loop garbage
  | (t, .destroy loop) => destroy s t loop
  | (t, .loop loop) => enterLoop s t loop
  | (t, .quit loop) => quit s t loop
  | (t, .updateChannel loop owner) => changeChannel s t loop owner
  | (t, .removeChannel loop owner) => changeChannel s t loop owner
  | (t, .runInLoop loop cb) => runInLoop s t loop cb
  | (t, .queueInLoop loop cb) => queueInLoop s t loop cb
  | (t, .addTimer loop) => runInLoop s t loop .addTimerInLoop
  | (t, .cancel loop) => runInLoop s t loop .cancelInLoop
  | (t, .return_) => .ok (setStack s t (s.frames t).tail)
  | (t, .next active) =>
      match s.frames t with
      | .loop loop phase :: rest => runLoop s t loop rest active phase
      | _ => .ok s

def inUserCode : List Frame → Bool
  | [] | .user :: _ => true
  | .loop _ _ :: _ => false

/-- Users call loops that exist; a new one has an address that no other has. -/
def Allowed (s : State) : ThreadId × Input → Prop
  | (t, .construct loop _) => inUserCode (s.frames t) = true ∧ s.loops loop = none
  | (t, .destroy loop) | (t, .loop loop) | (t, .quit loop) | (t, .updateChannel loop _)
  | (t, .removeChannel loop _) | (t, .runInLoop loop _) | (t, .queueInLoop loop _)
  | (t, .addTimer loop) | (t, .cancel loop) =>
      inUserCode (s.frames t) = true ∧ (s.loops loop).isSome = true
  | (t, .return_) => (s.frames t).head? = some .user
  | (t, .next _) => inUserCode (s.frames t) = false

instance (s : State) : (i : ThreadId × Input) → Decidable (Allowed s i)
  | (_, .construct _ _) | (_, .destroy _) | (_, .loop _) | (_, .quit _) | (_, .updateChannel _ _)
  | (_, .removeChannel _ _) | (_, .runInLoop _ _) | (_, .queueInLoop _ _) | (_, .addTimer _)
  | (_, .cancel _) => inferInstanceAs (Decidable (_ ∧ _))
  | (t, .return_) => inferInstanceAs (Decidable ((s.frames t).head? = some .user))
  | (t, .next _) => inferInstanceAs (Decidable (inUserCode (s.frames t) = false))

def system : System State (ThreadId × Input) Failure where
  start := (· = initial)
  allowed := Allowed
  exec := exec

instance (s : State) (i : ThreadId × Input) : Decidable (system.allowed s i) :=
  inferInstanceAs (Decidable (Allowed s i))

/-- Loops and threads: the thread of each loop and whether it is looping, the pointer
of each thread, the loops that it is in from the innermost on, and how many loops of
other threads it has destroyed. -/
structure View where
  status : LoopId → Option (ThreadId × Bool)
  pointer : ThreadId → Option LoopId
  inside : ThreadId → List LoopId
  foreign : ThreadId → ℕ

namespace View

def construct (v : View) (t : ThreadId) (loop : LoopId) : View :=
  { v with status := Function.update v.status loop (some (t, false))
           pointer := Function.update v.pointer t (some loop) }

def destroy (v : View) (t owner : ThreadId) (loop : LoopId) : View :=
  { v with status := Function.update v.status loop none
           pointer := Function.update v.pointer t none
           foreign := Function.update v.foreign t (v.foreign t + if owner = t then 0 else 1) }

def move (v : View) (t : ThreadId) (loop : LoopId) (looping : Bool) (inside : List LoopId) : View :=
  { v with status := Function.update v.status loop (some (t, looping))
           inside := Function.update v.inside t inside }

inductive Step : View → View → Prop
  | stay (v : View) : Step v v
  | construct (v : View) {t : ThreadId} {loop : LoopId} (hfree : v.status loop = none)
      (hfirst : v.pointer t = none) : Step v (v.construct t loop)
  | destroy (v : View) (t : ThreadId) {owner : ThreadId} {loop : LoopId}
      (hidle : v.status loop = some (owner, false)) : Step v (v.destroy t owner loop)
  | enter (v : View) {t : ThreadId} {loop : LoopId} (hidle : v.status loop = some (t, false)) :
      Step v (v.move t loop true (loop :: v.inside t))
  | leave (v : View) {t : ThreadId} {loop : LoopId} {rest : List LoopId}
      (hlooping : v.status loop = some (t, true)) (hinside : v.inside t = loop :: rest) :
      Step v (v.move t loop false rest)

def live (v : View) (t : ThreadId) : Set LoopId := {loop | ∃ b, v.status loop = some (t, b)}

/-- A thread is in the loops that are looping and of its own, once in each. It has one
loop, or one more for each loop of another thread that it has destroyed. -/
structure Inv (v : View) : Prop where
  once : ∀ t loop, (v.inside t).count loop = if v.status loop = some (t, true) then 1 else 0
  finite : ∀ t, (v.live t).Finite
  bound : ∀ t, (v.live t).ncard + (if v.pointer t = none then 1 else 0) ≤ 1 + v.foreign t
  exact : (∀ t, v.foreign t = 0) → ∀ t loop, v.pointer t = some loop ↔ loop ∈ v.live t

variable {v v' : View} {t owner : ThreadId} {loop : LoopId}

theorem live_construct (hfree : v.status loop = none) (x : ThreadId) :
    (v.construct t loop).live x = if x = t then insert loop (v.live t) else v.live x := by
  ext other
  by_cases hother : other = loop
  · subst hother
    by_cases hx : x = t <;> simp [live, construct, hx, hfree, Ne.symm]
  · by_cases hx : x = t <;> simp [live, construct, hx, hother]

theorem Inv.construct (h : v.Inv) (hfree : v.status loop = none) (hfirst : v.pointer t = none) :
    (v.construct t loop).Inv := by
  have hnew : loop ∉ v.live t := by simp [live, hfree]
  refine ⟨?_, ?_, ?_, ?_⟩
  · intro x other
    change (v.inside x).count other = _
    rw [h.once x other]
    by_cases hother : other = loop
    · subst hother
      simp [View.construct, hfree]
    · simp [View.construct, hother]
  · intro x
    rw [live_construct hfree]
    split
    · exact (h.finite t).insert loop
    · exact h.finite x
  · intro x
    rw [live_construct hfree]
    by_cases hx : x = t
    · subst hx
      have hbound := h.bound x
      rw [if_pos hfirst] at hbound
      rw [if_pos rfl, Set.ncard_insert_of_notMem hnew (h.finite x)]
      simpa [View.construct] using hbound
    · simpa [View.construct, hx] using h.bound x
  · intro hnone x other
    rw [live_construct hfree]
    by_cases hx : x = t
    · subst hx
      have hempty : other ∉ v.live x := by
        rw [← h.exact hnone x other, hfirst]
        simp
      simp [View.construct, hempty, eq_comm]
    · simpa [View.construct, hx] using h.exact hnone x other

theorem live_destroy (x : ThreadId) : (v.destroy t owner loop).live x = v.live x \ {loop} := by
  ext other
  by_cases hother : other = loop
  · simp [live, destroy, hother]
  · simp [live, destroy, hother]

theorem Inv.destroy (h : v.Inv) (t : ThreadId) (hidle : v.status loop = some (owner, false)) :
    (v.destroy t owner loop).Inv := by
  have hmem : loop ∈ v.live owner := ⟨false, hidle⟩
  refine ⟨?_, ?_, ?_, ?_⟩
  · intro x other
    change (v.inside x).count other = _
    rw [h.once x other]
    by_cases hother : other = loop
    · subst hother
      simp [View.destroy, hidle]
    · simp [View.destroy, hother]
  · intro x
    rw [live_destroy]
    exact (h.finite x).sdiff
  · intro x
    have hbound := h.bound x
    have hless := Set.ncard_sdiff_singleton_le (v.live x) loop
    rw [live_destroy]
    by_cases hx : x = t
    · subst hx
      by_cases hown : owner = x
      · subst hown
        have hone := Set.ncard_sdiff_singleton_add_one hmem (h.finite owner)
        simp only [View.destroy, Function.update_self, if_true]
        omega
      · simp only [View.destroy, Function.update_self, hown, if_false, if_true]
        omega
    · simp only [View.destroy, Function.update_of_ne hx]
      omega
  · intro hnone x other
    have hown : owner = t := by
      by_contra hne
      have ht := hnone t
      simp [View.destroy, hne] at ht
    subst hown
    have hzero : ∀ x, v.foreign x = 0 := by
      intro x
      have hx := hnone x
      by_cases hown : x = owner
      · subst hown
        simpa [View.destroy] using hx
      · simpa [View.destroy, hown] using hx
    have hexact := h.exact hzero
    have hpointer := (hexact owner loop).mpr hmem
    rw [live_destroy]
    by_cases hx : x = owner
    · subst hx
      have honly : other ∈ v.live x ↔ other = loop := by
        rw [← hexact x other, hpointer, Option.some_inj, eq_comm]
      simp [View.destroy, honly]
    · have hapart : other ∈ v.live x → other ≠ loop := by
        rintro ⟨b, hb⟩ rfl
        rw [hidle] at hb
        obtain ⟨rfl, -⟩ := Prod.mk.inj (Option.some.inj hb)
        exact hx rfl
      rw [Set.mem_sdiff, Set.mem_singleton_iff, and_iff_left_of_imp hapart]
      simpa [View.destroy, hx] using hexact x other

theorem live_move {looping b : Bool} {inside : List LoopId} (hthere : v.status loop = some (t, b))
    (x : ThreadId) : (v.move t loop looping inside).live x = v.live x := by
  ext other
  by_cases hother : other = loop
  · subst hother
    simp only [live, move, hthere, Function.update_self, Option.some_inj, Prod.mk.injEq,
      exists_and_left, exists_eq', and_true, Set.mem_ofPred_eq]
  · simp [live, move, hother]

theorem Inv.move {looping b : Bool} {inside : List LoopId} (h : v.Inv)
    (hthere : v.status loop = some (t, b))
    (hself : inside.count loop = if looping then 1 else 0)
    (hothers : ∀ other, other ≠ loop → inside.count other = (v.inside t).count other) :
    (v.move t loop looping inside).Inv := by
  refine ⟨?_, ?_, ?_, ?_⟩
  · intro x other
    by_cases hx : x = t
    · subst hx
      by_cases hother : other = loop
      · subst hother
        simpa [View.move] using hself
      · have hsame := hothers other hother
        rw [h.once x other] at hsame
        simpa [View.move, hother] using hsame
    · have honce := h.once x other
      by_cases hother : other = loop
      · subst hother
        simpa [View.move, hx, hthere, Ne.symm hx] using honce
      · simpa [View.move, hx, hother] using honce
  · intro x
    rw [live_move hthere]
    exact h.finite x
  · intro x
    rw [live_move hthere]
    exact h.bound x
  · intro hnone x other
    rw [live_move hthere]
    exact h.exact hnone x other

theorem Inv.looping (h : v.Inv) (hin : loop ∈ v.inside t) : v.status loop = some (t, true) := by
  have honce := h.once t loop
  have hpos := List.count_pos_iff.mpr hin
  by_contra hne
  rw [if_neg hne] at honce
  omega

/-- A thread is in no more loops than it has. -/
theorem Inv.length_inside (h : v.Inv) (t : ThreadId) :
    (v.inside t).length ≤ (v.live t).ncard := by
  have hnodup : (v.inside t).Nodup := by
    apply List.nodup_iff_count_le_one.mpr
    intro loop
    rw [h.once t loop]
    split <;> omega
  rw [← List.toFinset_card_of_nodup hnodup, ← Set.ncard_coe_finset]
  apply Set.ncard_le_ncard _ (h.finite t)
  intro loop hin
  exact ⟨true, h.looping (by simpa using hin)⟩

theorem Step.inv (hstep : Step v v') (h : v.Inv) : v'.Inv := by
  cases hstep with
  | stay => exact h
  | construct hfree hfirst => exact h.construct hfree hfirst
  | destroy t hidle => exact h.destroy t hidle
  | @enter t loop hidle =>
    have hnone := h.once t loop
    rw [hidle] at hnone
    apply h.move hidle
    · simpa using hnone
    · intro other hother
      simp [Ne.symm hother]
  | @leave t loop rest hlooping hinside =>
    have hone := h.once t loop
    rw [hlooping, hinside] at hone
    apply h.move hlooping
    · simpa using hone
    · intro other hother
      simp [hinside, Ne.symm hother]

end View

def Frame.loop? : Frame → Option LoopId
  | .user => none
  | .loop id _ => some id

def loopsOf (stack : List Frame) : List LoopId := stack.filterMap Frame.loop?

def EventLoop.status (l : EventLoop) : ThreadId × Bool := (l.threadId, l.isLooping)

def view (s : State) : View where
  status := fun loop => (s.loops loop).map EventLoop.status
  pointer := s.eventLoopOfThisThread
  inside := fun t => loopsOf (s.frames t)
  foreign := s.foreign

section Simulation

variable {s s' : State} {t : ThreadId} {loop : LoopId} {l l' : EventLoop} {rest stack : List Frame}

theorem view_store (s : State) (loop : LoopId) (l : EventLoop) : view (store s loop l) =
    { view s with status := Function.update (view s).status loop (some l.status) } := by
  refine congrArg (fun status => View.mk status _ _ _) (funext fun other => ?_)
  by_cases hother : other = loop
  · subst hother
    simp [store]
  · simp [store, view, hother]

theorem view_setStack (s : State) (t : ThreadId) (stack : List Frame) :
    view (setStack s t stack) =
      { view s with inside := Function.update (view s).inside t (loopsOf stack) } := by
  refine congrArg (fun inside => View.mk _ _ inside _) (funext fun x => ?_)
  by_cases hx : x = t
  · subst hx
    simp [setStack]
  · simp [setStack, view, hx]

/-- A loop keeps its thread and goes on looping, or not. -/
theorem view_store_same (h : s.loops loop = some l) (hsame : l'.status = l.status) :
    view (store s loop l') = view s := by
  have hstatus : (view s).status loop = some l'.status := by simp [view, h, hsame]
  rw [view_store, ← hstatus, Function.update_eq_self]

theorem view_setStack_same (h : loopsOf stack = loopsOf (s.frames t)) :
    view (setStack s t stack) = view s := by
  have hinside : (view s).inside t = loopsOf stack := h.symm
  rw [view_setStack, ← hinside, Function.update_eq_self]

theorem load_eq (h : s.loops loop = some l) : load s loop = .ok l := by
  simp [load, h]

theorem load_ok (h : load s loop = .ok l) : s.loops loop = some l := by
  simpa [load] using h

theorem call_view {cb : Functor} (h : call s t loop cb = .ok s') : view s' = view s := by
  cases cb with
  | user =>
    simp only [call, bind_eq_ok, pure_eq_ok, Except.ok.injEq] at h
    obtain ⟨-, -, -, -, rfl⟩ := h
    exact view_setStack_same rfl
  | addTimerInLoop | cancelInLoop =>
    simp only [call, bind_eq_ok, pure_eq_ok, Except.ok.injEq] at h
    obtain ⟨-, -, -, -, -, -, rfl⟩ := h
    rfl

theorem queueInLoop_view {cb : Functor} (h : queueInLoop s t loop cb = .ok s') :
    view s' = view s := by
  simp only [queueInLoop, bind_eq_ok, pure_eq_ok, Except.ok.injEq] at h
  obtain ⟨l, hload, rfl⟩ := h
  apply view_store_same (load_ok hload)
  split <;> rfl

theorem runInLoop_view {cb : Functor} (h : runInLoop s t loop cb = .ok s') : view s' = view s := by
  simp only [runInLoop, bind_eq_ok] at h
  obtain ⟨l, -, h⟩ := h
  split at h
  · exact call_view h
  · exact queueInLoop_view h

theorem quit_view (h : quit s t loop = .ok s') : view s' = view s := by
  simp only [quit, bind_eq_ok, pure_eq_ok, Except.ok.injEq] at h
  obtain ⟨l, hload, rfl⟩ := h
  apply view_store_same (load_ok hload)
  split <;> rfl

theorem changeChannel_view {owner : LoopId} (h : changeChannel s t loop owner = .ok s') :
    view s' = view s := by
  simp only [changeChannel, bind_eq_ok, pure_eq_ok, Except.ok.injEq] at h
  obtain ⟨-, -, -, -, -, -, -, -, rfl⟩ := h
  rfl

theorem construct_view {garbage : Bool} (hfree : s.loops loop = none)
    (h : construct s t loop garbage = .ok s') : View.Step (view s) (view s') := by
  simp only [construct, bind_eq_ok, require_eq_ok, pure_eq_ok, Except.ok.injEq] at h
  obtain ⟨-, hfirst, rfl⟩ := h
  have hstatus := congrArg View.status (view_store s loop ⟨t, false, false, garbage, [], 0⟩)
  have hnone : (view s).status loop = none := by simp [view, hfree]
  convert View.Step.construct (view s) hnone hfirst using 1
  exact congrArg (fun status => View.mk status _ _ _) hstatus

theorem destroy_view (h : destroy s t loop = .ok s') : View.Step (view s) (view s') := by
  simp only [destroy, bind_eq_ok, require_eq_ok, pure_eq_ok, Except.ok.injEq] at h
  obtain ⟨l, hload, -, hidle, rfl⟩ := h
  have hthere := load_ok hload
  have hstatus : (view s).status loop = some (l.threadId, false) := by
    simp [view, hthere, EventLoop.status, hidle]
  convert View.Step.destroy (view s) t hstatus using 1
  refine congrArg (fun status => View.mk status _ _ _) (funext fun other => ?_)
  by_cases hother : other = loop
  · subst hother
    simp
  · simp [view, hother]

theorem enterLoop_view (h : enterLoop s t loop = .ok s') : View.Step (view s) (view s') := by
  simp only [enterLoop, bind_eq_ok, require_eq_ok, assertInLoopThread, pure_eq_ok,
    Except.ok.injEq] at h
  obtain ⟨l, hload, -, hidle, -, rfl, rfl⟩ := h
  have hstatus : (view s).status loop = some (l.threadId, false) := by
    simp [view, load_ok hload, EventLoop.status, hidle]
  have hstep := View.Step.enter (view s) hstatus
  rw [push, view_setStack, view_store]
  exact hstep

/-- A thread whose stack has a loop on top is the thread of that loop, which exists. -/
theorem top_looping {phase : Phase} (h : (view s).Inv)
    (htop : s.frames t = .loop loop phase :: rest) :
    ∃ l, s.loops loop = some l ∧ l.threadId = t ∧ l.isLooping = true := by
  have hin : loop ∈ (view s).inside t := by
    change loop ∈ loopsOf (s.frames t)
    rw [htop]
    exact List.mem_cons_self
  have hstatus := h.looping hin
  simp only [view, Option.map_eq_some_iff, EventLoop.status, Prod.mk.injEq] at hstatus
  exact hstatus

/-- A loop goes on. -/
theorem view_resume {phase : Phase} (htop : s.frames t = .loop loop phase :: rest) (next : Phase) :
    view (setStack s t (.loop loop next :: rest)) = view s := by
  apply view_setStack_same
  rw [htop]
  rfl

/-- A loop calls code of the user. -/
theorem view_callback {phase : Phase} (htop : s.frames t = .loop loop phase :: rest)
    (next : Phase) : view (setStack s t (.user :: .loop loop next :: rest)) = view s := by
  apply view_setStack_same
  rw [htop]
  rfl

theorem view_store_resume {phase : Phase} (htop : s.frames t = .loop loop phase :: rest)
    (hl : s.loops loop = some l) (hsame : l'.status = l.status) (next : Phase) :
    view (setStack (store s loop l') t (.loop loop next :: rest)) = view s := by
  have hstored : (store s loop l').frames t = .loop loop phase :: rest := htop
  rw [view_resume hstored, view_store_same hl hsame]

theorem handleEvent_view {todo : List Event} {event : Event} {phase : Phase}
    (htop : s.frames t = .loop loop phase :: rest) (hl : s.loops loop = some l)
    (h : handleEvent s t loop l rest todo event = .ok s') : view s' = view s := by
  cases event with
  | channel =>
    simp only [handleEvent, bind_eq_ok, pure_eq_ok, Except.ok.injEq] at h
    obtain ⟨-, -, rfl⟩ := h
    exact view_callback htop _
  | wakeup =>
    obtain rfl := Except.ok.inj h
    exact view_store_resume htop hl (by rfl) _
  | timers expired =>
    simp only [handleEvent, bind_eq_ok, pure_eq_ok, Except.ok.injEq] at h
    obtain ⟨-, -, -, -, rfl⟩ := h
    exact view_resume htop _

theorem step_of_view_eq (h : view s' = view s) : View.Step (view s) (view s') := by
  rw [h]
  exact .stay _

theorem runLoop_view {active : List Event} {phase : Phase} (hinv : (view s).Inv)
    (htop : s.frames t = .loop loop phase :: rest)
    (h : runLoop s t loop rest active phase = .ok s') : View.Step (view s) (view s') := by
  obtain ⟨l, hl, rfl, hlooping⟩ := top_looping hinv htop
  have hload := load_eq hl
  unfold runLoop at h
  split at h
  · simp only [hload, ok_bind] at h
    split at h
    · obtain rfl := Except.ok.inj h
      have hstatus : (view s).status loop = some (l.threadId, true) := by
        simp [view, hl, EventLoop.status, hlooping]
      have hinside : (view s).inside l.threadId = loop :: loopsOf rest := by
        change loopsOf (s.frames l.threadId) = _
        rw [htop]
        rfl
      rw [view_setStack, view_store]
      exact View.Step.leave (view s) hstatus hinside
    · obtain rfl := Except.ok.inj h
      exact step_of_view_eq (view_resume htop _)
  · simp only [hload, ok_bind, bind_eq_ok, pure_eq_ok, Except.ok.injEq] at h
    obtain ⟨-, -, rfl⟩ := h
    exact step_of_view_eq (view_resume htop _)
  · simp only [hload, ok_bind] at h
    exact step_of_view_eq (handleEvent_view htop hl h)
  · simp only [hload, ok_bind, bind_eq_ok, pure_eq_ok, Except.ok.injEq] at h
    obtain ⟨-, -, rfl⟩ := h
    exact step_of_view_eq (view_callback htop _)
  · simp only [hload, ok_bind, bind_eq_ok, pure_eq_ok, Except.ok.injEq] at h
    obtain ⟨-, -, -, -, rfl⟩ := h
    exact step_of_view_eq (view_resume htop _)
  · simp only [hload, ok_bind, pure_eq_ok, Except.ok.injEq] at h
    subst h
    exact step_of_view_eq (view_store_resume htop hl (by rfl) _)
  · apply step_of_view_eq
    rw [call_view h]
    exact view_resume htop _
  · simp only [hload, ok_bind, pure_eq_ok, Except.ok.injEq] at h
    subst h
    exact step_of_view_eq (view_store_resume htop hl (by rfl) _)

theorem exec_view {i : ThreadId × Input} (hinv : (view s).Inv) (hallow : Allowed s i)
    (h : exec s i = .ok s') : View.Step (view s) (view s') := by
  obtain ⟨t, i⟩ := i
  cases i with
  | construct loop garbage => exact construct_view hallow.2 h
  | destroy loop => exact destroy_view h
  | loop loop => exact enterLoop_view h
  | quit loop => exact step_of_view_eq (quit_view h)
  | updateChannel loop owner | removeChannel loop owner =>
    exact step_of_view_eq (changeChannel_view h)
  | runInLoop loop cb => exact step_of_view_eq (runInLoop_view h)
  | queueInLoop loop cb => exact step_of_view_eq (queueInLoop_view h)
  | addTimer loop | cancel loop => exact step_of_view_eq (runInLoop_view h)
  | return_ =>
    obtain rfl := Except.ok.inj h
    obtain ⟨rest, htop⟩ := List.head?_eq_some_iff.mp hallow
    apply step_of_view_eq
    apply view_setStack_same
    rw [htop]
    rfl
  | next active =>
    simp only [exec] at h
    split at h
    · rename_i loop phase rest htop
      exact runLoop_view hinv htop h
    · obtain rfl := Except.ok.inj h
      exact .stay _

theorem initial_inv : (view initial).Inv := by
  refine ⟨fun _ _ => rfl, ?_, ?_, ?_⟩
  · intro t
    simp [View.live, view, initial]
  · intro t
    simp [View.live, view, initial]
  · intro _ t loop
    simp [View.live, view, initial]

theorem reach_inv (h : Reachable system s) : (view s).Inv := by
  refine h.invariant (I := fun s => (view s).Inv) ?_ ?_
  · rintro _ rfl
    exact initial_inv
  · intro s i s' hinv hallow _ hexec
    exact (exec_view hinv hallow hexec).inv hinv

end Simulation

section Law

variable {s s' : State} {t : ThreadId} {loop : LoopId} {l : EventLoop} {rest : List Frame}

def Misuse (s : State) : ThreadId × Input → Failure → Prop
  | (t, .construct _ _), .anotherEventLoop => s.eventLoopOfThisThread t ≠ none
  | (_, .destroy loop), .assertNotLooping | (_, .loop loop), .assertNotLooping =>
      ∃ l ∈ s.loops loop, l.isLooping = true
  | (t, .loop loop), .abortNotInLoopThread =>
      ∃ l ∈ s.loops loop, l.isLooping = false ∧ l.threadId ≠ t
  | (_, .updateChannel loop owner), .assertOwnerLoop
  | (_, .removeChannel loop owner), .assertOwnerLoop => owner ≠ loop
  | (t, .updateChannel loop owner), .abortNotInLoopThread
  | (t, .removeChannel loop owner), .abortNotInLoopThread =>
      owner = loop ∧ ∃ l ∈ s.loops loop, l.threadId ≠ t
  | _, _ => False

theorem call_ok (hl : s.loops loop = some l) (hthread : l.threadId = t) (cb : Functor) :
    ∃ s', call s t loop cb = .ok s' := by
  cases cb <;> simp [call, load_eq hl, touch, assertInLoopThread, hthread]

theorem runInLoop_ok (hl : s.loops loop = some l) (t : ThreadId) (cb : Functor) :
    ∃ s', runInLoop s t loop cb = .ok s' := by
  by_cases hthread : l.threadId = t
  · obtain ⟨s', hcall⟩ := call_ok hl hthread cb
    exact ⟨s', by simp [runInLoop, load_eq hl, hthread, hcall]⟩
  · simp [runInLoop, queueInLoop, load_eq hl, hthread]

theorem handleEvent_ok (hthread : l.threadId = t) (todo : List Event) (event : Event) :
    ∃ s', handleEvent s t loop l rest todo event = .ok s' := by
  cases event <;> simp [handleEvent, touch, assertInLoopThread, hthread]

/-- A loop never stops at a check. -/
theorem runLoop_ok {phase : Phase} (hinv : (view s).Inv)
    (htop : s.frames t = .loop loop phase :: rest) (active : List Event) :
    ∃ s', runLoop s t loop rest active phase = .ok s' := by
  obtain ⟨l, hl, hthread, -⟩ := top_looping hinv htop
  have hload := load_eq hl
  unfold runLoop
  split
  · rw [hload, ok_bind]
    split <;> exact ⟨_, rfl⟩
  · simp [hload, touch, hthread]
  · rw [hload, ok_bind]
    exact handleEvent_ok hthread _ _
  · simp [hload, touch, hthread]
  · simp [hload, touch, assertInLoopThread, hthread]
  · simp [hload]
  · exact call_ok (s := setStack s t _) hl hthread _
  · simp [hload]

theorem exec_error_iff {i : ThreadId × Input} {failure : Failure} (hinv : (view s).Inv)
    (hallow : Allowed s i) : exec s i = .error failure ↔ Misuse s i failure := by
  obtain ⟨t, i⟩ := i
  cases i with
  | construct loop garbage =>
    simp only [exec, construct, bind_eq_error, require_eq_ok, require_eq_error]
    cases failure <;> simp [Misuse]
  | destroy loop =>
    obtain ⟨l, hl⟩ := Option.isSome_iff_exists.mp hallow.2
    simp only [exec, destroy, load_eq hl, bind_eq_error]
    cases failure <;> simp [Misuse, hl]
  | loop loop =>
    obtain ⟨l, hl⟩ := Option.isSome_iff_exists.mp hallow.2
    simp only [exec, enterLoop, load_eq hl, assertInLoopThread, bind_eq_error]
    cases failure <;> simp [Misuse, hl]
  | quit loop =>
    obtain ⟨l, hl⟩ := Option.isSome_iff_exists.mp hallow.2
    simp [exec, quit, load_eq hl, Misuse]
  | updateChannel loop owner | removeChannel loop owner =>
    obtain ⟨l, hl⟩ := Option.isSome_iff_exists.mp hallow.2
    simp only [exec, changeChannel, load_eq hl, assertInLoopThread, touch, bind_eq_error]
    cases failure <;> simp [Misuse, hl]
  | runInLoop loop cb =>
    obtain ⟨l, hl⟩ := Option.isSome_iff_exists.mp hallow.2
    obtain ⟨s', hok⟩ := runInLoop_ok hl t cb
    simp [exec, hok, Misuse]
  | queueInLoop loop cb =>
    obtain ⟨l, hl⟩ := Option.isSome_iff_exists.mp hallow.2
    simp [exec, queueInLoop, load_eq hl, Misuse]
  | addTimer loop =>
    obtain ⟨l, hl⟩ := Option.isSome_iff_exists.mp hallow.2
    obtain ⟨s', hok⟩ := runInLoop_ok hl t .addTimerInLoop
    simp [exec, hok, Misuse]
  | cancel loop =>
    obtain ⟨l, hl⟩ := Option.isSome_iff_exists.mp hallow.2
    obtain ⟨s', hok⟩ := runInLoop_ok hl t .cancelInLoop
    simp [exec, hok, Misuse]
  | return_ => simp [exec, Misuse]
  | next active =>
    simp only [exec]
    split
    · rename_i loop phase rest htop
      obtain ⟨s', hok⟩ := runLoop_ok hinv htop active
      simp [hok, Misuse]
    · simp [Misuse]

/-- In every run, whatever threads construct, run, call and destroy loops: a step fails
only by a misuse of its caller, and a misuse always ends the run, so that what belongs
to a loop is never touched in another thread, `runInLoop`, `queueInLoop`, `quit` and
timers are safe to use in any, and the loops themselves never stop. A thread is in a
loop exactly if the loop is looping and of this thread, and once. It has one loop and
is in one, or has one more for each loop of another thread that it has destroyed; if
there was none of these, `eventLoopOfThisThread` is the one loop of each thread. -/
theorem loopThreads_law (h : Reachable system s) :
    (∀ i failure, Allowed s i → (exec s i = .error failure ↔ Misuse s i failure)) ∧
      (∀ t loop, (loopsOf (s.frames t)).count loop =
        if ∃ l ∈ s.loops loop, l.threadId = t ∧ l.isLooping = true then 1 else 0) ∧
      (∀ t, {loop | ∃ l ∈ s.loops loop, l.threadId = t}.encard ≤ 1 + s.foreign t ∧
        (loopsOf (s.frames t)).length ≤ 1 + s.foreign t) ∧
      ((∀ t, s.foreign t = 0) → ∀ t loop, s.eventLoopOfThisThread t = some loop ↔
        ∃ l ∈ s.loops loop, l.threadId = t) := by
  have hinv := reach_inv h
  have hlive : ∀ t, {loop | ∃ l ∈ s.loops loop, l.threadId = t} = (view s).live t := by
    intro t
    ext loop
    simp only [View.live, view, EventLoop.status, Option.map_eq_some_iff, Prod.mk.injEq,
      Set.mem_ofPred_eq, Option.mem_def]
    constructor
    · rintro ⟨l, hl, hthread⟩
      exact ⟨l.isLooping, l, hl, hthread, rfl⟩
    · rintro ⟨b, l, hl, hthread, -⟩
      exact ⟨l, hl, hthread⟩
  refine ⟨fun i failure hallow => exec_error_iff hinv hallow, ?_, ?_, ?_⟩
  · intro t loop
    have honce := hinv.once t loop
    cases hl : s.loops loop <;> simpa [view, hl, EventLoop.status] using honce
  · intro t
    have hbound := hinv.bound t
    have hlength := hinv.length_inside t
    refine ⟨?_, ?_⟩
    · rw [hlive, ← (hinv.finite t).cast_ncard_eq]
      have hless : ((view s).live t).ncard ≤ 1 + (view s).foreign t := by omega
      exact_mod_cast hless
    · change ((view s).inside t).length ≤ 1 + (view s).foreign t
      omega
  · intro hnone t loop
    have hexact := hinv.exact hnone t loop
    rw [← hlive] at hexact
    exact hexact

/-- Thread 0 destroys the loop of thread 1, constructs a second one of its own, and runs
it inside the first. -/
theorem nestedLoops_law : ∃ s, Reachable system s ∧ loopsOf (s.frames 0) = [2, 1] ∧
    (loopsOf (s.frames 0)).length ≤ 1 + s.foreign 0 ∧ s.foreign 0 = 1 := by
  obtain ⟨s, hreach, htest⟩ := exists_of_replay (M := system) (s := initial) Free rfl
    [(1, .construct 0 false), (0, .construct 1 false), (0, .destroy 0), (0, .construct 2 false),
      (0, .loop 1), (0, .next []), (0, .next [.channel]), (0, .next []), (0, .loop 2)]
    (fun s => decide (loopsOf (s.frames 0) = [2, 1] ∧ s.foreign 0 = 1)) (by decide)
  have hstate := of_decide_eq_true htest
  exact ⟨s, hreach, hstate.1, ((loopThreads_law hreach).2.2.1 0).2, hstate.2⟩

end Law

end TinyMuduo.LoopThreads
