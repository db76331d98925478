import Mathlib.Data.List.Basic

/-!
One iteration of `EventLoop::loop` and its functor queue. The loop thread polls,
handles the active channels and then calls the functors that were pending when
it swapped the queue; what those functors queue waits for the next iteration.
The functor type is a parameter: each component queues functors of its own.
-/
namespace TinyMuduo

/-- A thread that calls a member function: the loop's own or another one. -/
inductive Thread
  | loop
  | other (id : ℕ)
  deriving DecidableEq, Repr

inductive Phase
  | polling
  | handling
  | calling
  deriving DecidableEq, Repr

structure EventLoop (φ : Type) where
  phase : Phase
  pendingFunctors : List φ
  /-- what `doPendingFunctors` swapped out and has not called yet -/
  functors : List φ

namespace EventLoop

variable {φ : Type}

def initial : EventLoop φ := ⟨.polling, [], []⟩

def queueInLoop (loop : EventLoop φ) (cb : φ) : EventLoop φ :=
  { loop with pendingFunctors := loop.pendingFunctors ++ [cb] }

def handleActive (loop : EventLoop φ) : EventLoop φ := { loop with phase := .handling }

def swapFunctors (loop : EventLoop φ) : EventLoop φ :=
  { phase := .calling, pendingFunctors := [], functors := loop.pendingFunctors }

def popFunctor (loop : EventLoop φ) : EventLoop φ :=
  { loop with functors := loop.functors.tail }

def endIteration (loop : EventLoop φ) : EventLoop φ := { loop with phase := .polling }

/-- Everything queued and not called yet, in the order it will be called. -/
def queued (loop : EventLoop φ) : List φ := loop.functors ++ loop.pendingFunctors

variable (loop : EventLoop φ) (cb : φ)

@[simp]
theorem queued_queueInLoop : (loop.queueInLoop cb).queued = loop.queued ++ [cb] := by
  simp [queued, queueInLoop]

variable {loop cb}

theorem queued_swapFunctors (h : loop.functors = []) :
    loop.swapFunctors.queued = loop.queued := by
  simp [queued, swapFunctors, h]

/-- The next functor is the head of the queue. -/
theorem queued_popFunctor {rest : List φ} (h : loop.functors = cb :: rest) :
    loop.queued = cb :: loop.popFunctor.queued := by
  simp [queued, popFunctor, h]

end EventLoop

end TinyMuduo
