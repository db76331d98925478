import TinyMuduo.TcpConnection
import TinyMuduo.Lib.Runs

/-!
A TcpServer and its connections on many loops. The base loop accepts and
removes; every connection lives on an I/O loop of its own choice, which may be
the base loop. Each loop's thread has a stack of the functions it is in, and it
moves one statement at a time, so that the threads interleave between any two
statements that another thread can observe. The history records when a
connection enters each function of its life, and on which loop.
-/
namespace TinyMuduo.TcpServer

open Checked Runs
open TcpConnection (StateE)

abbrev LoopId := ℕ

def baseLoop : LoopId := 0

/-- What the server and its users put into the loops' queues. Connections are
numbered in the order in which they were accepted. -/
inductive Functor
  | connectEstablished (k : ℕ)
  | removeConnectionInLoop (k : ℕ)
  | connectDestroyed (k : ℕ)
  | other
  deriving DecidableEq, Repr

inductive Frame
  /-- `newConnection` before its `runInLoop` -/
  | newConnection (k : ℕ)
  /-- `Channel::handleEvent` of the connection's Channel -/
  | handleEvent (k : ℕ)
  | connectEstablished (k : ℕ)
  /-- `removeConnectionInLoop` before its erase, and before its `queueInLoop` -/
  | removeConnectionInLoop (k : ℕ)
  | queueDestroyed (k : ℕ)
  /-- `connectDestroyed` before its body, and before it returns -/
  | connectDestroyed (k : ℕ)
  | destroyed (k : ℕ)
  | returning
  deriving DecidableEq, Repr

structure LoopThread where
  loop : EventLoop Functor
  stack : List Frame

inductive Event
  | newConnection
  | connectEstablished
  | closeCallback
  | removeConnectionInLoop
  | erased
  | connectDestroyed
  | returned
  deriving DecidableEq, Repr

structure Record where
  conn : ℕ
  event : Event
  loop : LoopId
  deriving DecidableEq, Repr

structure Connection where
  name : String
  ioLoop : LoopId
  state : StateE
  registered : Bool
  deriving DecidableEq, Repr

structure State where
  name : String
  nextConnId : ℤ
  connectionMap : String → Option ℕ
  /-- number of connections accepted so far; those from this number on do not
  exist yet -/
  accepted : ℕ
  connections : ℕ → Connection
  threads : LoopId → LoopThread
  history : List Record

def initial (name : String) : State where
  name := name
  nextConnId := 1
  connectionMap := fun _ => none
  accepted := 0
  connections := fun _ => ⟨"", baseLoop, .kConnecting, false⟩
  threads := fun _ => ⟨.initial, []⟩
  history := []

namespace State

variable (s : State)

def setThread (ℓ : LoopId) (thread : LoopThread) : State :=
  { s with threads := Function.update s.threads ℓ thread }

def setStack (ℓ : LoopId) (stack : List Frame) : State :=
  s.setThread ℓ { s.threads ℓ with stack := stack }

def setLoop (ℓ : LoopId) (loop : EventLoop Functor) : State :=
  s.setThread ℓ { s.threads ℓ with loop := loop }

def setConnection (k : ℕ) (conn : Connection) : State :=
  { s with connections := Function.update s.connections k conn }

def record (k : ℕ) (event : Event) (ℓ : LoopId) : State :=
  { s with history := s.history ++ [⟨k, event, ℓ⟩] }

def queueInLoop (ℓ : LoopId) (cb : Functor) : State :=
  s.setLoop ℓ ((s.threads ℓ).loop.queueInLoop cb)

def call (ℓ : LoopId) : Functor → State
  | .connectEstablished k =>
      (s.setStack ℓ (.connectEstablished k :: (s.threads ℓ).stack)).record k
        .connectEstablished ℓ
  | .removeConnectionInLoop k =>
      (s.setStack ℓ (.removeConnectionInLoop k :: (s.threads ℓ).stack)).record k
        .removeConnectionInLoop ℓ
  | .connectDestroyed k =>
      (s.setStack ℓ (.connectDestroyed k :: (s.threads ℓ).stack)).record k .connectDestroyed ℓ
  | .other => s

def runInLoop (caller ℓ : LoopId) (cb : Functor) : State :=
  if caller = ℓ then s.call ℓ cb else s.queueInLoop ℓ cb

/-- `newConnection` up to its `runInLoop`; `nextConnId` is an int. -/
def newConnection (ioLoop : LoopId) : State :=
  let connName := s.name ++ ("#" ++ toString s.nextConnId)
  let conn : Connection := ⟨connName, ioLoop, .kConnecting, false⟩
  let created := s.setStack baseLoop (.newConnection s.accepted :: (s.threads baseLoop).stack)
  { created.record s.accepted .newConnection baseLoop with
      nextConnId := (s.nextConnId + 1).bmod (2 ^ 32)
      connectionMap := Function.update s.connectionMap connName (some s.accepted)
      accepted := s.accepted + 1
      connections := Function.update s.connections s.accepted conn }

/-- `handleClose` with the server's `removeConnection` as `closeCallback`. -/
def handleClose (ℓ : LoopId) (k : ℕ) : Except Fault State := do
  require (ℓ = (s.connections k).ioLoop) .notInLoopThread
  require ((s.connections k).state = .kConnected ∨ (s.connections k).state = .kDisconnecting)
    .closeState
  return (s.record k .closeCallback ℓ).runInLoop ℓ baseLoop (.removeConnectionInLoop k)

def shutdown (k : ℕ) : State :=
  if (s.connections k).state = .kConnected then
    s.setConnection k { s.connections k with state := .kDisconnecting }
  else s

/-- The next statement of the function on top of a stack; `rest` is the stack
below it. -/
def run (ℓ : LoopId) (rest : List Frame) : Frame → Except Fault State
  | .newConnection k =>
      .ok ((s.setStack ℓ (.returning :: rest)).runInLoop ℓ (s.connections k).ioLoop
        (.connectEstablished k))
  | .connectEstablished k => do
      require (ℓ = (s.connections k).ioLoop) .notInLoopThread
      require ((s.connections k).state = .kConnecting) .establishState
      return (s.setStack ℓ (.returning :: rest)).setConnection k
        { s.connections k with state := .kConnected, registered := true }
  | .removeConnectionInLoop k => do
      require (ℓ = baseLoop) .notInLoopThread
      let connName := (s.connections k).name
      let n := if (s.connectionMap connName).isSome then 1 else 0
      require (n = 1) .connectionMapErase
      return { (s.setStack ℓ (.queueDestroyed k :: rest)).record k .erased ℓ with
                connectionMap := Function.update s.connectionMap connName none }
  | .queueDestroyed k =>
      .ok ((s.setStack ℓ (.returning :: rest)).queueInLoop (s.connections k).ioLoop
        (.connectDestroyed k))
  | .connectDestroyed k => do
      require (ℓ = (s.connections k).ioLoop) .notInLoopThread
      require ((s.connections k).state = .kConnected ∨ (s.connections k).state = .kDisconnecting)
        .destroyState
      return (s.setStack ℓ (.destroyed k :: rest)).setConnection k
        { s.connections k with state := .kDisconnected, registered := false }
  | .destroyed k => .ok ((s.setStack ℓ rest).record k .returned ℓ)
  | .handleEvent _ | .returning => .ok (s.setStack ℓ rest)

end State

/-- A step of a loop's thread, or of another thread that uses a connection or
a loop. The I/O loop of a new connection is arbitrary. -/
inductive Input
  | accept (ioLoop : LoopId)
  | handleEvent (ℓ : LoopId) (k : ℕ)
  | close (ℓ : LoopId)
  | run (ℓ : LoopId)
  | poll (ℓ : LoopId)
  | swapFunctors (ℓ : LoopId)
  | functor (ℓ : LoopId)
  | endIteration (ℓ : LoopId)
  | queueOther (ℓ : LoopId)
  | shutdown (k : ℕ)

def State.handled? (s : State) (ℓ : LoopId) : Option ℕ :=
  match (s.threads ℓ).stack with
  | .handleEvent k :: _ => some k
  | _ => none

/-- Channels are handled and functors are called one after the other, each
from the loop itself; the Poller reports Channels that are registered with it. -/
def Allowed (s : State) : Input → Prop
  | .accept _ =>
      (s.threads baseLoop).loop.phase = .handling ∧ (s.threads baseLoop).stack = []
  | .handleEvent ℓ k =>
      (s.threads ℓ).loop.phase = .handling ∧ (s.threads ℓ).stack = [] ∧ k < s.accepted ∧
        (s.connections k).ioLoop = ℓ ∧ (s.connections k).registered = true
  | .close ℓ => (s.handled? ℓ).isSome
  | .run ℓ => (s.threads ℓ).stack ≠ []
  | .poll ℓ => (s.threads ℓ).loop.phase = .polling
  | .swapFunctors ℓ => (s.threads ℓ).loop.phase = .handling ∧ (s.threads ℓ).stack = []
  | .functor ℓ =>
      (s.threads ℓ).loop.phase = .calling ∧ (s.threads ℓ).stack = [] ∧
        (s.threads ℓ).loop.functors ≠ []
  | .endIteration ℓ =>
      (s.threads ℓ).loop.phase = .calling ∧ (s.threads ℓ).stack = [] ∧
        (s.threads ℓ).loop.functors = []
  | .queueOther _ => True
  | .shutdown k => k < s.accepted

instance (s : State) : (i : Input) → Decidable (Allowed s i)
  | .accept _ => inferInstanceAs (Decidable (_ ∧ _))
  | .handleEvent _ _ => inferInstanceAs (Decidable (_ ∧ _))
  | .close _ => inferInstanceAs (Decidable (_ = true))
  | .run ℓ => inferInstanceAs (Decidable ((s.threads ℓ).stack ≠ []))
  | .poll ℓ => inferInstanceAs (Decidable ((s.threads ℓ).loop.phase = .polling))
  | .swapFunctors _ => inferInstanceAs (Decidable (_ ∧ _))
  | .functor _ => inferInstanceAs (Decidable (_ ∧ _))
  | .endIteration _ => inferInstanceAs (Decidable (_ ∧ _))
  | .queueOther _ => isTrue trivial
  | .shutdown k => inferInstanceAs (Decidable (k < s.accepted))

def exec (s : State) : Input → Except Fault State
  | .accept ioLoop => .ok (s.newConnection ioLoop)
  | .handleEvent ℓ k => .ok (s.setStack ℓ (.handleEvent k :: (s.threads ℓ).stack))
  | .close ℓ =>
      match s.handled? ℓ with
      | some k => s.handleClose ℓ k
      | none => .ok s
  | .run ℓ =>
      match (s.threads ℓ).stack with
      | [] => .ok s
      | frame :: rest => s.run ℓ rest frame
  | .poll ℓ => .ok (s.setLoop ℓ (s.threads ℓ).loop.handleActive)
  | .swapFunctors ℓ => .ok (s.setLoop ℓ (s.threads ℓ).loop.swapFunctors)
  | .functor ℓ =>
      match (s.threads ℓ).loop.functors with
      | [] => .ok s
      | f :: _ => .ok ((s.setLoop ℓ (s.threads ℓ).loop.popFunctor).call ℓ f)
  | .endIteration ℓ => .ok (s.setLoop ℓ (s.threads ℓ).loop.endIteration)
  | .queueOther ℓ => .ok (s.queueInLoop ℓ .other)
  | .shutdown k => .ok (s.shutdown k)

def system : System State Input Fault where
  start := fun s => ∃ name, s = initial name
  allowed := Allowed
  exec := exec

instance (s : State) (i : Input) : Decidable (system.allowed s i) :=
  inferInstanceAs (Decidable (Allowed s i))

/-! A connection stays on its I/O loop. -/

section Places

def SamePlaces (s s' : State) : Prop :=
  s'.accepted = s.accepted ∧ ∀ k, (s'.connections k).ioLoop = (s.connections k).ioLoop

variable {s s' : State} {ℓ : LoopId} {k : ℕ}

theorem samePlaces_setConnection {conn : Connection}
    (h : conn.ioLoop = (s.connections k).ioLoop) : SamePlaces s (s.setConnection k conn) := by
  refine ⟨rfl, fun j => ?_⟩
  by_cases hj : j = k
  · subst hj
    simpa [State.setConnection] using h
  · simp [State.setConnection, hj]

theorem samePlaces_call (s : State) (ℓ : LoopId) (cb : Functor) : SamePlaces s (s.call ℓ cb) := by
  cases cb with
  | connectEstablished j => exact ⟨rfl, fun _ => rfl⟩
  | removeConnectionInLoop j => exact ⟨rfl, fun _ => rfl⟩
  | connectDestroyed j => exact ⟨rfl, fun _ => rfl⟩
  | other => exact ⟨rfl, fun _ => rfl⟩

theorem samePlaces_runInLoop (s : State) (caller ℓ : LoopId) (cb : Functor) :
    SamePlaces s (s.runInLoop caller ℓ cb) := by
  unfold State.runInLoop
  split
  · exact samePlaces_call s ℓ cb
  · exact ⟨rfl, fun _ => rfl⟩

theorem run_samePlaces {f : Frame} {rest : List Frame} (hexec : s.run ℓ rest f = .ok s') :
    SamePlaces s s' := by
  cases f with
  | newConnection k =>
    obtain rfl := Except.ok.inj hexec
    exact samePlaces_runInLoop (s.setStack ℓ (.returning :: rest)) ℓ _ _
  | connectEstablished k =>
    simp only [State.run, bind_eq_ok, require_eq_ok, pure_eq_ok, Except.ok.injEq] at hexec
    obtain ⟨-, -, -, -, rfl⟩ := hexec
    exact samePlaces_setConnection (s := s.setStack ℓ (.returning :: rest)) rfl
  | removeConnectionInLoop k =>
    simp only [State.run, bind_eq_ok, require_eq_ok, pure_eq_ok, Except.ok.injEq] at hexec
    obtain ⟨-, -, -, -, rfl⟩ := hexec
    exact ⟨rfl, fun _ => rfl⟩
  | connectDestroyed k =>
    simp only [State.run, bind_eq_ok, require_eq_ok, pure_eq_ok, Except.ok.injEq] at hexec
    obtain ⟨-, -, -, -, rfl⟩ := hexec
    exact samePlaces_setConnection (s := s.setStack ℓ (.destroyed k :: rest)) rfl
  | queueDestroyed k =>
    obtain rfl := Except.ok.inj hexec
    exact ⟨rfl, fun _ => rfl⟩
  | destroyed k =>
    obtain rfl := Except.ok.inj hexec
    exact ⟨rfl, fun _ => rfl⟩
  | handleEvent k =>
    obtain rfl := Except.ok.inj hexec
    exact ⟨rfl, fun _ => rfl⟩
  | returning =>
    obtain rfl := Except.ok.inj hexec
    exact ⟨rfl, fun _ => rfl⟩

/-- Only an accept creates a connection, and no step moves one. -/
theorem exec_samePlaces {i : Input} (hi : ∀ ioLoop, i ≠ .accept ioLoop)
    (hexec : exec s i = .ok s') : SamePlaces s s' := by
  cases i with
  | accept ioLoop => exact absurd rfl (hi ioLoop)
  | close ℓ =>
    simp only [exec] at hexec
    split at hexec
    · rename_i k _
      simp only [State.handleClose, bind_eq_ok, require_eq_ok, pure_eq_ok, Except.ok.injEq]
        at hexec
      obtain ⟨-, -, -, -, rfl⟩ := hexec
      exact samePlaces_runInLoop (s.record k .closeCallback ℓ) ℓ _ _
    · obtain rfl := Except.ok.inj hexec
      exact ⟨rfl, fun _ => rfl⟩
  | run ℓ =>
    simp only [exec] at hexec
    split at hexec
    · obtain rfl := Except.ok.inj hexec
      exact ⟨rfl, fun _ => rfl⟩
    · exact run_samePlaces hexec
  | functor ℓ =>
    simp only [exec] at hexec
    split at hexec
    · obtain rfl := Except.ok.inj hexec
      exact ⟨rfl, fun _ => rfl⟩
    · obtain rfl := Except.ok.inj hexec
      exact samePlaces_call (s.setLoop ℓ (s.threads ℓ).loop.popFunctor) ℓ _
  | shutdown k =>
    obtain rfl := Except.ok.inj hexec
    unfold State.shutdown
    split
    · exact samePlaces_setConnection rfl
    · exact ⟨rfl, fun _ => rfl⟩
  | handleEvent ℓ k =>
    obtain rfl := Except.ok.inj hexec
    exact ⟨rfl, fun _ => rfl⟩
  | poll ℓ =>
    obtain rfl := Except.ok.inj hexec
    exact ⟨rfl, fun _ => rfl⟩
  | swapFunctors ℓ =>
    obtain rfl := Except.ok.inj hexec
    exact ⟨rfl, fun _ => rfl⟩
  | endIteration ℓ =>
    obtain rfl := Except.ok.inj hexec
    exact ⟨rfl, fun _ => rfl⟩
  | queueOther ℓ =>
    obtain rfl := Except.ok.inj hexec
    exact ⟨rfl, fun _ => rfl⟩

end Places

end TinyMuduo.TcpServer
