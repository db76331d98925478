import TinyMuduo.TcpServer
import TinyMuduo.Lib.Custody

/-!
The stages of a connection's life. Between two entries of its history a
connection is in a stage, and in most stages one functor in a queue or one
function on a stack carries it on: this is its token. The lemmas count how the
elementary changes of a thread move tokens.
-/
namespace TinyMuduo.TcpServer

open Checked Runs Custody
open TcpConnection (StateE)

inductive Stage
  | unborn
  | accepted
  | establishQueued
  | establishing
  | established
  | removeQueued
  | removing
  | erased
  | destroyQueued
  | destroying
  | destroyed
  | returned
  deriving DecidableEq, Repr

namespace Stage

/-- The loop that has the token of a connection, given its I/O loop. -/
def place (ioLoop : LoopId) : Stage → Option LoopId
  | accepted | removeQueued | removing | erased => some baseLoop
  | establishQueued | establishing | destroyQueued | destroying | destroyed => some ioLoop
  | unborn | established | returned => none

def logged : Stage → ℕ
  | unborn => 0
  | accepted | establishQueued => 1
  | establishing | established => 2
  | removeQueued => 3
  | removing => 4
  | erased | destroyQueued => 5
  | destroying | destroyed => 6
  | returned => 7

def inMap : Stage → Bool
  | accepted | establishQueued | establishing | established | removeQueued | removing => true
  | _ => false

def opened : Stage → Bool
  | unborn | accepted | establishQueued | establishing => false
  | _ => true

def up (st : Stage) : Bool :=
  st.opened && decide (st ≠ destroyed ∧ st ≠ returned)

end Stage

def Frame.token : Frame → Option (ℕ × Stage)
  | .newConnection k => some (k, .accepted)
  | .connectEstablished k => some (k, .establishing)
  | .removeConnectionInLoop k => some (k, .removing)
  | .queueDestroyed k => some (k, .erased)
  | .connectDestroyed k => some (k, .destroying)
  | .destroyed k => some (k, .destroyed)
  | .handleEvent _ | .returning => none

def Functor.token : Functor → Option (ℕ × Stage)
  | .connectEstablished k => some (k, .establishQueued)
  | .removeConnectionInLoop k => some (k, .removeQueued)
  | .connectDestroyed k => some (k, .destroyQueued)
  | .other => none

def Functor.called : Functor → Option (ℕ × Stage)
  | .connectEstablished k => some (k, .establishing)
  | .removeConnectionInLoop k => some (k, .removing)
  | .connectDestroyed k => some (k, .destroying)
  | .other => none

def LoopThread.tokens (thread : LoopThread) : List (ℕ × Stage) :=
  thread.stack.filterMap Frame.token ++ thread.loop.queued.filterMap Functor.token

def held (s : State) (ℓ : LoopId) (k : ℕ) (st : Stage) : ℕ :=
  (s.threads ℓ).tokens.count (k, st)

/-! What the elementary changes do to the tokens. -/

section Tokens

variable {s : State} {ℓ : LoopId} {f : Frame} {rest : List Frame} {cb : Functor}

def weight (ℓ : LoopId) (token : Option (ℕ × Stage)) (p : LoopId) (j : ℕ) (t : Stage) : ℕ :=
  if p = ℓ ∧ token = some (j, t) then 1 else 0

@[simp]
theorem weight_none (ℓ p : LoopId) (j : ℕ) (t : Stage) : weight ℓ none p j t = 0 := by
  simp [weight]

theorem weight_some (ℓ p : LoopId) (k j : ℕ) (st t : Stage) :
    weight ℓ (some (k, st)) p j t = mark k (some (ℓ, st)) p j t := by
  unfold weight mark
  simp only [Option.some.injEq, Prod.mk.injEq]
  congr 1
  ext
  constructor
  · rintro ⟨rfl, rfl, rfl⟩
    exact ⟨rfl, rfl, rfl⟩
  · rintro ⟨rfl, rfl, rfl⟩
    exact ⟨rfl, rfl, rfl⟩

theorem count_filterMap_cons {α β : Type} [BEq β] [LawfulBEq β] [DecidableEq β]
    (g : α → Option β) (a : α) (l : List α) (b : β) : ((a :: l).filterMap g).count b =
      (l.filterMap g).count b + if g a = some b then 1 else 0 := by
  cases hg : g a with
  | none => simp [hg]
  | some c => by_cases hc : c = b <;> simp [hg, hc]

theorem held_setThread (s : State) (ℓ : LoopId) (thread : LoopThread) (p : LoopId) (j : ℕ)
    (t : Stage) : held (s.setThread ℓ thread) p j t =
      if p = ℓ then thread.tokens.count (j, t) else held s p j t := by
  unfold held State.setThread
  by_cases hp : p = ℓ
  · subst hp
    simp
  · simp [hp]

theorem held_push (s : State) (ℓ : LoopId) (f : Frame) (p : LoopId) (j : ℕ) (t : Stage) :
    held (s.setStack ℓ (f :: (s.threads ℓ).stack)) p j t =
      held s p j t + weight ℓ f.token p j t := by
  unfold State.setStack
  rw [held_setThread]
  by_cases hp : p = ℓ
  · subst hp
    simp only [if_pos, held, weight, LoopThread.tokens, List.count_append, count_filterMap_cons,
      true_and]
    omega
  · simp [hp, weight]

theorem held_pop (hstack : (s.threads ℓ).stack = f :: rest) (p : LoopId) (j : ℕ) (t : Stage) :
    held (s.setStack ℓ rest) p j t + weight ℓ f.token p j t = held s p j t := by
  unfold State.setStack
  rw [held_setThread]
  by_cases hp : p = ℓ
  · subst hp
    simp only [if_pos, held, weight, LoopThread.tokens, hstack, List.count_append,
      count_filterMap_cons, true_and]
    omega
  · simp [hp, weight]

/-- The function on top of a stack goes to another statement. -/
theorem held_replace (g : Frame) (hstack : (s.threads ℓ).stack = f :: rest) (p : LoopId) (j : ℕ)
    (t : Stage) : held (s.setStack ℓ (g :: rest)) p j t + weight ℓ f.token p j t =
      held s p j t + weight ℓ g.token p j t := by
  have hpop := held_pop hstack p j t
  have hpush := held_push (s.setStack ℓ rest) ℓ g p j t
  have htwice : (s.setStack ℓ rest).setStack ℓ
      (g :: ((s.setStack ℓ rest).threads ℓ).stack) = s.setStack ℓ (g :: rest) := by
    simp [State.setStack, State.setThread]
  rw [htwice] at hpush
  omega

theorem held_setLoop (s : State) (ℓ : LoopId) (loop : EventLoop Functor) (p : LoopId) (j : ℕ)
    (t : Stage) : held (s.setLoop ℓ loop) p j t + (if p = ℓ then
        ((s.threads ℓ).loop.queued.filterMap Functor.token).count (j, t) else 0) =
      held s p j t + if p = ℓ then (loop.queued.filterMap Functor.token).count (j, t) else 0 := by
  unfold State.setLoop
  rw [held_setThread]
  by_cases hp : p = ℓ
  · subst hp
    simp only [if_pos, held, LoopThread.tokens, List.count_append]
    omega
  · simp [hp]

theorem held_sameQueue {loop : EventLoop Functor}
    (hqueued : loop.queued = (s.threads ℓ).loop.queued) (p : LoopId) (j : ℕ) (t : Stage) :
    held (s.setLoop ℓ loop) p j t = held s p j t := by
  have h := held_setLoop s ℓ loop p j t
  rw [hqueued] at h
  omega

theorem held_queueInLoop (s : State) (ℓ : LoopId) (cb : Functor) (p : LoopId) (j : ℕ) (t : Stage) :
    held (s.queueInLoop ℓ cb) p j t = held s p j t + weight ℓ cb.token p j t := by
  have h := held_setLoop s ℓ ((s.threads ℓ).loop.queueInLoop cb) p j t
  unfold State.queueInLoop
  by_cases hp : p = ℓ
  · subst hp
    simp only [if_pos, EventLoop.queued_queueInLoop, List.filterMap_append, List.count_append,
      count_filterMap_cons, List.filterMap_nil, List.count_nil, weight, true_and] at h ⊢
    omega
  · simpa [hp, weight] using h

theorem held_popFunctor {fs : List Functor} (hf : (s.threads ℓ).loop.functors = cb :: fs)
    (p : LoopId) (j : ℕ) (t : Stage) :
    held (s.setLoop ℓ (s.threads ℓ).loop.popFunctor) p j t + weight ℓ cb.token p j t =
      held s p j t := by
  have h := held_setLoop s ℓ (s.threads ℓ).loop.popFunctor p j t
  by_cases hp : p = ℓ
  · subst hp
    simp only [if_pos, EventLoop.queued_popFunctor hf, count_filterMap_cons, weight, true_and]
      at h ⊢
    omega
  · simpa [hp, weight] using h

theorem held_call (s : State) (ℓ : LoopId) (cb : Functor) (p : LoopId) (j : ℕ) (t : Stage) :
    held (s.call ℓ cb) p j t = held s p j t + weight ℓ cb.called p j t := by
  cases cb with
  | connectEstablished k => exact held_push s ℓ _ p j t
  | removeConnectionInLoop k => exact held_push s ℓ _ p j t
  | connectDestroyed k => exact held_push s ℓ _ p j t
  | other => simp [State.call, Functor.called]

end Tokens

end TinyMuduo.TcpServer
