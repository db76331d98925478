import TinyMuduo.EventLoop
import TinyMuduo.Poller

/-!
A TcpConnection in its EventLoop. Each member function is a function of the
connection, of the loop's functor queue and of the Poller; the results of
read(2) and write(2) are arguments. A buffer is the sequence of its readable
bytes. The connection also records what happened: the bytes the socket took,
the messages that `send` accepted and `sendInLoop` executed, the moments of
`shutdownWrite`, and how often each callback of its owner was invoked.
-/
namespace TinyMuduo

open Checked Channel

abbrev Bytes := List UInt8

/-- A message accepted by `send`, numbered in the order of acceptance. -/
structure Message where
  number : ℕ
  sender : Thread
  bytes : Bytes
  deriving DecidableEq, Repr

def Message.next (accepted : List Message) (sender : Thread) (bytes : Bytes) : Message :=
  ⟨accepted.length, sender, bytes⟩

/-- What write(2) does: fail, or take a number of bytes up to those offered. -/
inductive WriteResult
  | error
  | count (n : ℕ)
  deriving DecidableEq, Repr

def WriteResult.taken (bytes : Bytes) : WriteResult → Option ℕ
  | .error => none
  | .count n => some (min n bytes.length)

/-- What readv(2) does: fail, report the end of the stream, or deliver bytes. -/
inductive ReadResult
  | error
  | eof
  | data (first : UInt8) (rest : Bytes)
  deriving DecidableEq, Repr

/-- Who holds the connection, and so what its `closeCallback` is: a TcpServer
with the connection in its map or not, a TcpClient with it as `connection_` or
not, or nobody once the TcpClient was destroyed. -/
inductive Owner
  | server (present : Bool)
  | client (present : Bool)
  | detached
  deriving DecidableEq, Repr

namespace TcpConnection

inductive StateE
  | kConnecting
  | kConnected
  | kDisconnecting
  | kDisconnected
  deriving DecidableEq, Repr

inductive Functor
  | sendInLoop (message : Message)
  | shutdownInLoop
  | writeComplete
  | connectDestroyed
  | other
  deriving DecidableEq, Repr

/-- What had been accepted, executed and written when `shutdownWrite` ran, and
which threads had called `shutdown`. -/
structure Cut where
  accepted : List Message
  executed : List Message
  closers : List Thread
  wire : Bytes
  deriving DecidableEq, Repr

end TcpConnection

open TcpConnection in
structure TcpConnection where
  poller : Poller
  loop : EventLoop TcpConnection.Functor
  channel : ChannelId
  state : StateE
  inputBuffer : Bytes
  outputBuffer : Bytes
  writeCompleteCallback : Bool
  owner : Owner
  /-- the bytes the socket has taken -/
  wire : Bytes
  accepted : List Message
  executed : List Message
  closers : List Thread
  cuts : List Cut
  /-- invocations of `closeCallback`, of `connectDestroyed`, and of
  `connectionCallback` with the connection up and with it down -/
  closes : ℕ
  destroys : ℕ
  ups : ℕ
  downs : ℕ

namespace TcpConnection

def construct (poller : Poller) (channel : ChannelId) (writeCompleteCallback : Bool)
    (owner : Owner) : TcpConnection where
  poller := poller
  loop := ⟨.handling, [], []⟩
  channel := channel
  state := .kConnecting
  inputBuffer := []
  outputBuffer := []
  writeCompleteCallback := writeCompleteCallback
  owner := owner
  wire := []
  accepted := []
  executed := []
  closers := []
  cuts := []
  closes := 0
  destroys := 0
  ups := 0
  downs := 0

def ownChannel (s : TcpConnection) : Channel := s.poller.channels s.channel

def isWriting (s : TcpConnection) : Bool := s.ownChannel.isWriting

def change (s : TcpConnection) (interest : Interest) : Except Fault TcpConnection := do
  let poller ← s.poller.change s.channel interest
  return { s with poller := poller }

def queueInLoop (s : TcpConnection) (cb : Functor) : TcpConnection :=
  { s with loop := s.loop.queueInLoop cb }

/-- The loop after a `writeCompleteCallback`, if one is set, was queued for a
completed write. -/
def notify (s : TcpConnection) (complete : Bool) : EventLoop Functor :=
  if complete && s.writeCompleteCallback then s.loop.queueInLoop .writeComplete else s.loop

def connectEstablished (s : TcpConnection) : Except Fault TcpConnection := do
  require (s.state = .kConnecting) .establishState
  let s ← { s with state := .kConnected }.change .enableReading
  return { s with ups := s.ups + 1 }

def shutdownInLoop (s : TcpConnection) : TcpConnection :=
  if s.isWriting then s
  else { s with cuts := ⟨s.accepted, s.executed, s.closers, s.wire⟩ :: s.cuts }

/-- `closeCallback`: `TcpServer::removeConnection` with
`removeConnectionInLoop`, `TcpClient::removeConnection`, or
`detail::removeConnection`. They run at once, because a connection's loop is
its owner's loop: no code starts the thread pool of a TcpServer. -/
def closeCallback (s : TcpConnection) : Except Fault TcpConnection :=
  match s.owner with
  | .server present => do
      require (present = true) .connectionMapErase
      return { s with owner := .server false, closes := s.closes + 1 }.queueInLoop
        .connectDestroyed
  | .client present => do
      require (present = true) .clientConnection
      return { s with owner := .client false, closes := s.closes + 1 }.queueInLoop
        .connectDestroyed
  | .detached => .ok ({ s with closes := s.closes + 1 }.queueInLoop .connectDestroyed)

def handleClose (s : TcpConnection) : Except Fault TcpConnection := do
  require (s.state = .kConnected ∨ s.state = .kDisconnecting) .closeState
  let s ← s.change .disableAll
  s.closeCallback

/-- The messageCallback is the user's code; what it calls are steps of its own. -/
def handleRead (s : TcpConnection) : ReadResult → Except Fault TcpConnection
  | .data first rest => .ok { s with inputBuffer := s.inputBuffer ++ first :: rest }
  | .eof => s.handleClose
  | .error => .ok s

def handleWrite (s : TcpConnection) (r : WriteResult) : Except Fault TcpConnection :=
  if s.isWriting then
    match r.taken s.outputBuffer with
    | some (n + 1) => do
        let s := { s with wire := s.wire ++ s.outputBuffer.take (n + 1)
                          outputBuffer := s.outputBuffer.drop (n + 1) }
        if s.outputBuffer = [] then
          let s ← s.change .disableWriting
          let s := { s with loop := s.notify true }
          return if s.state = .kDisconnecting then s.shutdownInLoop else s
        else return s
    | some 0 | none => .ok s
  else .ok s

/-- The number of bytes that `sendInLoop` writes at once: none unless nothing
is left in the output queue. -/
def nwrote (s : TcpConnection) (message : Message) (r : WriteResult) : ℕ :=
  if s.isWriting = false ∧ s.outputBuffer = [] then (r.taken message.bytes).getD 0 else 0

def wroteAll (s : TcpConnection) (message : Message) (r : WriteResult) : Bool :=
  s.isWriting = false ∧ s.outputBuffer = [] ∧ r.taken message.bytes = some message.bytes.length

def sendInLoop (s : TcpConnection) (message : Message) (r : WriteResult) :
    Except Fault TcpConnection := do
  let n := s.nwrote message r
  let wrote := { s with wire := s.wire ++ message.bytes.take n
                        executed := s.executed ++ [message]
                        loop := s.notify (s.wroteAll message r) }
  if n < message.bytes.length then
    let kept := { wrote with outputBuffer := wrote.outputBuffer ++ message.bytes.drop n }
    if kept.isWriting then return kept else kept.change .enableWriting
  else return wrote

/-- `runInLoop` calls the functor at once on the loop thread and queues it
otherwise. -/
def send (s : TcpConnection) (thread : Thread) (bytes : Bytes) (r : WriteResult) :
    Except Fault TcpConnection :=
  if s.state = .kConnected then
    let message := Message.next s.accepted thread bytes
    let s := { s with accepted := s.accepted ++ [message] }
    if thread = .loop then s.sendInLoop message r
    else .ok (s.queueInLoop (.sendInLoop message))
  else .ok s

def shutdown (s : TcpConnection) (thread : Thread) : TcpConnection :=
  let s := { s with closers := s.closers ++ [thread] }
  if s.state = .kConnected then
    let s := { s with state := .kDisconnecting }
    if thread = .loop then s.shutdownInLoop else s.queueInLoop .shutdownInLoop
  else s

def connectDestroyed (s : TcpConnection) : Except Fault TcpConnection := do
  require (s.state = .kConnected ∨ s.state = .kDisconnecting) .destroyState
  let s ← { s with state := .kDisconnected, destroys := s.destroys + 1 }.change .disableAll
  let poller ← s.poller.removeChannel s.channel
  return { s with poller := poller, downs := s.downs + 1 }

def call (s : TcpConnection) (r : WriteResult) : Functor → Except Fault TcpConnection
  | .sendInLoop message => s.sendInLoop message r
  | .shutdownInLoop => .ok s.shutdownInLoop
  | .connectDestroyed => s.connectDestroyed
  | .writeComplete | .other => .ok s

/-- A callback of the connection's Channel. `handleError` only reads and logs
the socket's error. -/
def handle (s : TcpConnection) (read : ReadResult) (write : WriteResult) :
    Callback → Except Fault TcpConnection
  | .close => s.handleClose
  | .error => .ok s
  | .read => s.handleRead read
  | .write => s.handleWrite write

section Cases

variable {s s' : TcpConnection} {m : Message} {r : WriteResult}

def Up (s : TcpConnection) : Prop := s.state = .kConnected ∨ s.state = .kDisconnecting

theorem change_ok {interest : Interest} : s.change interest = .ok s' ↔
    ∃ p, s.poller.change s.channel interest = .ok p ∧ s' = { s with poller := p } := by
  simp only [TcpConnection.change, bind_eq_ok, pure_eq_ok, Except.ok.injEq]
  constructor
  · rintro ⟨p, hp, heq⟩
    exact ⟨p, hp, heq.symm⟩
  · rintro ⟨p, hp, heq⟩
    exact ⟨p, hp, heq.symm⟩

theorem change_error {interest : Interest} {e : Fault} : s.change interest = .error e ↔
    s.poller.change s.channel interest = .error e := by
  simp [TcpConnection.change, bind_eq_error]

def sent (s : TcpConnection) (m : Message) (r : WriteResult) : TcpConnection :=
  { s with wire := s.wire ++ m.bytes.take (s.nwrote m r)
           executed := s.executed ++ [m]
           outputBuffer := s.outputBuffer ++ m.bytes.drop (s.nwrote m r)
           loop := s.notify (s.wroteAll m r) }

/-- `sendInLoop` changes the Channel exactly when bytes are left over and write
events are not asked for yet. -/
theorem sendInLoop_eq (s : TcpConnection) (m : Message) (r : WriteResult) :
    s.sendInLoop m r =
      if s.nwrote m r < m.bytes.length ∧ s.isWriting = false
      then (sent s m r).change .enableWriting else .ok (sent s m r) := by
  unfold TcpConnection.sendInLoop
  by_cases hleft : s.nwrote m r < m.bytes.length
  · rw [if_pos hleft]
    change (if s.isWriting = true then Except.ok (sent s m r)
      else (sent s m r).change .enableWriting) = _
    cases hw : s.isWriting with
    | true => simp
    | false => simp [hleft]
  · have hdrop : m.bytes.drop (s.nwrote m r) = [] := List.drop_eq_nil_of_le (by omega)
    rw [if_neg hleft, if_neg (fun h => hleft h.1)]
    simp [sent, hdrop]

def drained (s : TcpConnection) (p : Poller) : TcpConnection :=
  { s with poller := p, wire := s.wire ++ s.outputBuffer, outputBuffer := [] }

def finished (s : TcpConnection) : TcpConnection :=
  if s.state = .kDisconnecting then shutdownInLoop { s with loop := s.notify true }
  else { s with loop := s.notify true }

/-- `handleWrite` does nothing, writes a part, or writes everything and takes
the write interest back. -/
theorem handleWrite_cases (h : s.handleWrite r = .ok s') :
    (s' = s ∧ (s.isWriting = false ∨ ∀ n, r.taken s.outputBuffer ≠ some (n + 1))) ∨
    (∃ n, n < s.outputBuffer.length ∧ r.taken s.outputBuffer = some n ∧
      s' = { s with wire := s.wire ++ s.outputBuffer.take n
                    outputBuffer := s.outputBuffer.drop n }) ∨
    (s.isWriting = true ∧ s.outputBuffer ≠ [] ∧
      r.taken s.outputBuffer = some s.outputBuffer.length ∧
      ∃ p, s.poller.change s.channel .disableWriting = .ok p ∧
        s' = finished (drained s p)) := by
  unfold TcpConnection.handleWrite at h
  split at h
  · rename_i hw
    split at h
    · rename_i n hn
      have hle : n + 1 ≤ s.outputBuffer.length := by
        cases r with
        | error => simp [WriteResult.taken] at hn
        | count k =>
          simp only [WriteResult.taken, Option.some.injEq] at hn
          omega
      dsimp only at h
      split at h
      · rename_i hempty
        have hlen : n + 1 = s.outputBuffer.length := by
          have := List.drop_eq_nil_iff.mp hempty
          omega
        have hne : s.outputBuffer ≠ [] := by
          intro hnil
          simp [hnil] at hle
        simp only [bind_eq_ok, change_ok, pure_eq_ok, Except.ok.injEq] at h
        obtain ⟨s1, ⟨p, hp, rfl⟩, rfl⟩ := h
        refine Or.inr (Or.inr ⟨hw, hne, ?_, p, hp, ?_⟩)
        · rw [hn, Nat.succ_eq_add_one, hlen]
        · simp only [finished, drained, hlen, List.take_length, List.drop_length]
          rfl
      · rename_i hrest
        simp only [pure_eq_ok, Except.ok.injEq] at h
        subst h
        refine Or.inr (Or.inl ⟨n + 1, ?_, hn, rfl⟩)
        by_contra hge
        exact hrest (List.drop_eq_nil_of_le (by omega))
    · rename_i hn
      exact Or.inl ⟨(Except.ok.inj h).symm, Or.inr (by simp [hn])⟩
    · rename_i hn
      exact Or.inl ⟨(Except.ok.inj h).symm, Or.inr (by simp [hn])⟩
  · rename_i hw
    exact Or.inl ⟨(Except.ok.inj h).symm, Or.inl (by simpa using hw)⟩

theorem handleWrite_error {e : Fault} (h : s.handleWrite r = .error e) :
    s.isWriting = true ∧ s.poller.change s.channel .disableWriting = .error e := by
  unfold TcpConnection.handleWrite at h
  split at h
  · rename_i hw
    split at h
    · dsimp only at h
      split at h
      · simp only [bind_eq_error, change_error, pure_eq_ok, reduceCtorEq, and_false, exists_false,
          or_false] at h
        exact ⟨hw, h⟩
      · simp at h
    · simp at h
    · simp at h
  · simp at h

/-- What a successful `closeCallback` did: the owner let the connection go and
queued `connectDestroyed`. -/
theorem closeCallback_cases (h : s.closeCallback = .ok s') :
    ∃ owner, s' = { s with owner := owner, closes := s.closes + 1 }.queueInLoop
        .connectDestroyed ∧
      ((s.owner = .server true ∧ owner = .server false) ∨
        (s.owner = .client true ∧ owner = .client false) ∨
        (s.owner = .detached ∧ owner = .detached)) := by
  unfold TcpConnection.closeCallback at h
  split at h
  · rename_i present howner
    simp only [bind_eq_ok, require_eq_ok, pure_eq_ok, Except.ok.injEq] at h
    obtain ⟨-, rfl, rfl⟩ := h
    exact ⟨_, rfl, Or.inl ⟨howner, rfl⟩⟩
  · rename_i present howner
    simp only [bind_eq_ok, require_eq_ok, pure_eq_ok, Except.ok.injEq] at h
    obtain ⟨-, rfl, rfl⟩ := h
    exact ⟨_, rfl, Or.inr (Or.inl ⟨howner, rfl⟩)⟩
  · rename_i howner
    refine ⟨.detached, ?_, Or.inr (Or.inr ⟨howner, rfl⟩)⟩
    rw [← Except.ok.inj h, ← howner]

theorem closeCallback_error {e : Fault} (h : s.closeCallback = .error e) :
    (s.owner = .server false ∧ e = .connectionMapErase) ∨
      (s.owner = .client false ∧ e = .clientConnection) := by
  unfold TcpConnection.closeCallback at h
  split at h
  · rename_i present howner
    simp only [bind_eq_error, require_eq_error, Bool.not_eq_true, pure_eq_ok, reduceCtorEq,
      and_false, exists_false, or_false] at h
    obtain ⟨rfl, rfl⟩ := h
    exact Or.inl ⟨howner, rfl⟩
  · rename_i present howner
    simp only [bind_eq_error, require_eq_error, Bool.not_eq_true, pure_eq_ok, reduceCtorEq,
      and_false, exists_false, or_false] at h
    obtain ⟨rfl, rfl⟩ := h
    exact Or.inr ⟨howner, rfl⟩
  · simp at h

/-- What a successful `handleClose` did. -/
theorem handleClose_cases (h : s.handleClose = .ok s') :
    Up s ∧ ∃ p owner, s.poller.change s.channel .disableAll = .ok p ∧
      s' = { s with poller := p, owner := owner, closes := s.closes + 1 }.queueInLoop
        .connectDestroyed ∧
      ((s.owner = .server true ∧ owner = .server false) ∨
        (s.owner = .client true ∧ owner = .client false) ∨
        (s.owner = .detached ∧ owner = .detached)) := by
  simp only [TcpConnection.handleClose, bind_eq_ok, require_eq_ok, change_ok] at h
  obtain ⟨-, hup, s1, ⟨p, hp, rfl⟩, h⟩ := h
  obtain ⟨owner, rfl, howner⟩ := closeCallback_cases h
  exact ⟨hup, p, owner, hp, rfl, howner⟩

theorem handleClose_error {e : Fault} (h : s.handleClose = .error e) :
    (¬ Up s ∧ e = .closeState) ∨ s.poller.change s.channel .disableAll = .error e ∨
      (s.owner = .server false ∧ e = .connectionMapErase) ∨
      (s.owner = .client false ∧ e = .clientConnection) := by
  simp only [TcpConnection.handleClose, bind_eq_error, require_eq_ok, require_eq_error,
    change_ok, change_error] at h
  rcases h with ⟨hdown, rfl⟩ | ⟨-, -, h | ⟨s1, ⟨p, -, rfl⟩, h⟩⟩
  · exact Or.inl ⟨hdown, rfl⟩
  · exact Or.inr (Or.inl h)
  · have howner := closeCallback_error h
    exact Or.inr (Or.inr howner)

/-- What a successful `connectDestroyed` did. -/
theorem connectDestroyed_cases (h : s.connectDestroyed = .ok s') :
    Up s ∧ ∃ p q, s.poller.change s.channel .disableAll = .ok p ∧
      p.removeChannel s.channel = .ok q ∧
      s' = { s with poller := q, state := .kDisconnected, destroys := s.destroys + 1
                    downs := s.downs + 1 } := by
  simp only [TcpConnection.connectDestroyed, bind_eq_ok, require_eq_ok, change_ok, pure_eq_ok,
    Except.ok.injEq] at h
  obtain ⟨-, hup, s1, ⟨p, hp, rfl⟩, q, hq, rfl⟩ := h
  exact ⟨hup, p, q, hp, hq, rfl⟩

theorem connectDestroyed_error {e : Fault} (h : s.connectDestroyed = .error e) :
    (¬ Up s ∧ e = .destroyState) ∨ (Up s ∧ (s.poller.change s.channel .disableAll = .error e ∨
      ∃ p, s.poller.change s.channel .disableAll = .ok p ∧
        p.removeChannel s.channel = .error e)) := by
  simp only [TcpConnection.connectDestroyed, bind_eq_error, require_eq_ok, require_eq_error,
    change_ok, change_error, pure_eq_ok, reduceCtorEq, and_false, exists_false, or_false] at h
  rcases h with ⟨hdown, rfl⟩ | ⟨-, hup, h | ⟨s1, ⟨p, hp, rfl⟩, h⟩⟩
  · exact Or.inl ⟨hdown, rfl⟩
  · exact Or.inr ⟨hup, Or.inl h⟩
  · exact Or.inr ⟨hup, Or.inr ⟨p, hp, h⟩⟩

end Cases

end TcpConnection

end TinyMuduo
