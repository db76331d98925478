import TinyMuduo.EventLoop
import TinyMuduo.EventLoopThread

/-!
Runs of one event loop with its functor queue and its wakeup descriptor. The
loop thread moves through `loop` and `doPendingFunctors` one assignment, test,
swap or call at a time; every other thread may be inside `queueInLoop`, between
its `push_back` and its `wakeUp`, at any of these moments. The history records
each push with the number of swaps before it, each batch and each start.
-/
namespace TinyMuduo.LoopRuns

open Checked Runs
open EventLoopThread (eventfdMax)

/-- The next step of the loop thread. In `callback` and `functor` it runs user
code, called by a channel or by `doPendingFunctors`. -/
inductive LoopPc
  | outside
  | clearQuited
  | test
  | enterPoll
  | polling
  | handling
  | callback
  | beginFunctors
  | swap
  | calling
  | functor
  | endFunctors
  | endLoop
  deriving DecidableEq, Repr

structure Push (φ : Type) where
  functor : φ
  /-- number of swaps of `doPendingFunctors` before the push -/
  swaps : ℕ
  /-- the batch whose running functor made the call, if one did -/
  caller : Option ℕ
  deriving DecidableEq

structure State (φ : Type) where
  pc : LoopPc
  loop : EventLoop φ
  isLooping : Bool
  isQuited : Bool
  callingPendingFunctors : Bool
  eventfd : ℕ
  /-- `activeChannels` has `wakeupChannel` still to be handled -/
  woken : Bool
  /-- other threads between their `push_back` and their `wakeUp` -/
  waking : List ℕ
  /-- the loop thread is between its `push_back` and the test after it -/
  testing : Bool
  pushes : List (Push φ)
  /-- what each `doPendingFunctors` swapped out -/
  batches : List (List φ)
  /-- each functor started, with the number of its batch -/
  starts : List (φ × ℕ)

variable {φ : Type}

/-- The constructor does not initialise `callingPendingFunctors`. -/
def initial (callingPendingFunctors : Bool) : State φ where
  pc := .outside
  loop := .initial
  isLooping := false
  isQuited := false
  callingPendingFunctors := callingPendingFunctors
  eventfd := 0
  woken := false
  waking := []
  testing := false
  pushes := []
  batches := []
  starts := []

/-- `wakeUp`: a write that would overflow the counter fails and is only logged. -/
def wakeUp (s : State φ) : State φ :=
  { s with eventfd := if s.eventfd < eventfdMax then s.eventfd + 1 else s.eventfd }

/-- `handleRead` of the wakeup channel: a read takes the whole counter. -/
def handleRead (s : State φ) : State φ := { s with eventfd := 0, woken := false }

def callerOf (s : State φ) : Thread → Option ℕ
  | .loop => if s.pc = .functor then some (s.batches.length - 1) else none
  | .other _ => none

def pushBack (s : State φ) (t : Thread) (cb : φ) : State φ :=
  let pushed : State φ :=
    { s with loop := s.loop.queueInLoop cb
             pushes := s.pushes ++ [⟨cb, s.batches.length, callerOf s t⟩] }
  match t with
  | .loop => { pushed with testing := true }
  | .other id => { pushed with waking := id :: s.waking }

/-- The rest of `queueInLoop`: another thread always wakes the loop up, the
loop thread only while pending functors are called. -/
def finishQueue (s : State φ) : Thread → State φ
  | .loop =>
      if s.callingPendingFunctors then wakeUp { s with testing := false }
      else { s with testing := false }
  | .other id => wakeUp { s with waking := s.waking.erase id }

def loopStep (s : State φ) : Except Fault (State φ) :=
  match s.pc with
  | .outside => do
      require (s.isLooping = false) .alreadyLooping
      return { s with pc := .clearQuited, isLooping := true }
  | .clearQuited => .ok { s with pc := .test, isQuited := false }
  | .test => .ok { s with pc := if s.isQuited then .endLoop else .enterPoll }
  | .enterPoll => .ok { s with pc := .polling }
  | .polling =>
      .ok { s with pc := .handling, loop := s.loop.handleActive, woken := 0 < s.eventfd }
  | .handling => .ok { s with pc := .beginFunctors }
  | .callback => .ok { s with pc := .handling }
  | .beginFunctors => .ok { s with pc := .swap, callingPendingFunctors := true }
  | .swap =>
      .ok { s with pc := .calling, loop := s.loop.swapFunctors
                   batches := s.batches ++ [s.loop.pendingFunctors] }
  | .calling =>
      match s.loop.functors with
      | [] => .ok { s with pc := .endFunctors }
      | f :: _ =>
          .ok { s with pc := .functor, loop := s.loop.popFunctor
                       starts := s.starts ++ [(f, s.batches.length - 1)] }
  | .functor => .ok { s with pc := .calling }
  | .endFunctors =>
      .ok { s with pc := .test, loop := s.loop.endIteration, callingPendingFunctors := false }
  | .endLoop => .ok { s with pc := .outside, isLooping := false }

inductive Input (φ : Type)
  | pushBack (t : Thread) (cb : φ)
  | finishQueue (t : Thread)
  | wakeUp
  | quit
  | callback
  | handleRead
  | loopStep

def LoopPc.userCode : LoopPc → Bool
  | .outside | .callback | .functor => true
  | _ => false

/-- Program order of each thread. `wakeUp` and the store of `quit` may happen
at any time; `poll` reports the wakeup channel, and the loop over the active
channels does not end before it is handled. -/
def Allowed (s : State φ) : Input φ → Prop
  | .pushBack .loop _ => s.testing = false ∧ s.pc.userCode = true
  | .pushBack (.other id) _ => id ∉ s.waking
  | .finishQueue .loop => s.testing = true
  | .finishQueue (.other id) => id ∈ s.waking
  | .wakeUp | .quit => True
  | .callback => s.pc = .handling
  | .handleRead => s.pc = .handling ∧ s.woken = true
  | .loopStep => s.testing = false ∧ (s.pc = .handling → s.woken = false)

instance (s : State φ) : (i : Input φ) → Decidable (Allowed s i)
  | .pushBack .loop _ => inferInstanceAs (Decidable (s.testing = false ∧ s.pc.userCode = true))
  | .pushBack (.other id) _ => inferInstanceAs (Decidable (id ∉ s.waking))
  | .finishQueue .loop => inferInstanceAs (Decidable (s.testing = true))
  | .finishQueue (.other id) => inferInstanceAs (Decidable (id ∈ s.waking))
  | .wakeUp | .quit => isTrue trivial
  | .callback => inferInstanceAs (Decidable (s.pc = .handling))
  | .handleRead => inferInstanceAs (Decidable (s.pc = .handling ∧ s.woken = true))
  | .loopStep =>
      inferInstanceAs (Decidable (s.testing = false ∧ (s.pc = .handling → s.woken = false)))

def exec (s : State φ) : Input φ → Except Fault (State φ)
  | .pushBack t cb => .ok (pushBack s t cb)
  | .finishQueue t => .ok (finishQueue s t)
  | .wakeUp => .ok (wakeUp s)
  | .quit => .ok { s with isQuited := true }
  | .callback => .ok { s with pc := .callback }
  | .handleRead => .ok (handleRead s)
  | .loopStep => loopStep s

def system (φ : Type) : System (State φ) (Input φ) Fault where
  start := fun s => ∃ b, s = initial b
  allowed := Allowed
  exec := exec

instance (s : State φ) (i : Input φ) : Decidable ((system φ).allowed s i) :=
  inferInstanceAs (Decidable (Allowed s i))

end TinyMuduo.LoopRuns
