import TinyMuduo.Ownership

/-!
A program of servers, clients, Connectors and timers in one EventLoop, step by
step through its iterations. `poll` yields the active Channels, `handleEvent`
takes the next of them and calls its callbacks, and the functors that were
pending come last. Any thread calls the public functions; on another thread
they set flags and queue a functor. No server, client or Connector is
destroyed. A server's connections are on its own loop, since the loop that its
thread pool returns is the server's. Every call of `Poller::removeChannel` is
recorded with the moment at which it was made.
-/
namespace TinyMuduo.LoopProgram

open Checked Channel TcpConnection Runs
open Connector (States course)
open Ownership (CloseCallback Server Client Attempt Env)

structure Connection where
  channel : ChannelId
  state : StateE
  closeCallback : CloseCallback
  deriving DecidableEq, Repr

structure Connector where
  /-- the client that `newConnectionCallback` is bound to, if it is one -/
  client : Option ℕ
  connect_ : Bool
  state : States
  channel : Option ChannelId
  deriving DecidableEq, Repr

/-- What is in the loop's queue. The functors of user code, `shutdownInLoop`,
`addTimerInLoop`, `cancelInLoop` and the `writeCompleteCallback` do nothing to
Channels. -/
inductive Functor
  | listen (s : ℕ)
  | sendInLoop (k : ℕ)
  | connectDestroyed (k : ℕ)
  | startInLoop (n : ℕ)
  | resetChannel (n : ℕ)
  | other
  deriving DecidableEq, Repr

inductive TimerCallback
  | startInLoop (n : ℕ)
  | other
  deriving DecidableEq, Repr

structure Removal where
  channel : ChannelId
  owner : Option Ownership.Owner
  phase : Phase
  current : Option ChannelId
  deriving DecidableEq, Repr

/-- The timers that have not fired are kept without their order: any of them may
be the next one. -/
structure Program where
  poller : Poller
  owner : ChannelId → Option Ownership.Owner
  servers : ℕ → Option Server
  clients : ℕ → Option Client
  connectors : ℕ → Option Connector
  connections : ℕ → Option Connection
  loop : EventLoop Functor
  timers : List TimerCallback
  timerfdChannel : ChannelId
  /-- the active Channels whose `handleEvent` has not started -/
  activeChannels : List ChannelId
  /-- the Channel whose `handleEvent` is running, and what it has still to call -/
  current : Option ChannelId
  callbacks : List Callback
  removals : List Removal
  next : ℕ

namespace Program

def setServer (w : Program) (s : ℕ) (sv : Server) : Program :=
  { w with servers := Function.update w.servers s (some sv) }

def setClient (w : Program) (c : ℕ) (cl : Client) : Program :=
  { w with clients := Function.update w.clients c (some cl) }

def setConnector (w : Program) (n : ℕ) (x : Connector) : Program :=
  { w with connectors := Function.update w.connectors n (some x) }

def setConnection (w : Program) (k : ℕ) (conn : Connection) : Program :=
  { w with connections := Function.update w.connections k (some conn) }

def queueInLoop (w : Program) (cb : Functor) : Program := { w with loop := w.loop.queueInLoop cb }

def newChannel (w : Program) (o : Ownership.Owner) (fd : ℕ) : Program :=
  { w with poller := w.poller.newChannel w.next fd
           owner := Function.update w.owner w.next (some o)
           next := w.next + 1 }

def change (w : Program) (c : ChannelId) (interest : Interest) : Except Fault Program := do
  let poller ← w.poller.change c interest
  return { w with poller := poller }

def removeChannel (w : Program) (c : ChannelId) : Except Fault Program := do
  let poller ← w.poller.removeChannel c
  return { w with poller := poller
                  removals := ⟨c, w.owner c, w.loop.phase, w.current⟩ :: w.removals }

/-! Connections. -/

def newTcpConnection (w : Program) (fd : ℕ) (cb : CloseCallback) : Program :=
  (w.newChannel (.connection w.next) fd).setConnection w.next ⟨w.next, .kConnecting, cb⟩

def connectEstablished (w : Program) (k : ℕ) : Except Fault Program := do
  let conn ← demand (w.connections k) .useAfterFree
  require (conn.state = .kConnecting) .establishState
  (w.setConnection k { conn with state := .kConnected }).change conn.channel .enableReading

def connectDestroyed (w : Program) (k : ℕ) : Except Fault Program := do
  let conn ← demand (w.connections k) .useAfterFree
  require (conn.state = .kConnected ∨ conn.state = .kDisconnecting) .destroyState
  let w ← (w.setConnection k { conn with state := .kDisconnected }).change conn.channel .disableAll
  w.removeChannel conn.channel

/-- `sendInLoop`: bytes are left over, or the message was written and a
`writeCompleteCallback` may be queued. -/
def sendInLoop (w : Program) (k : ℕ) (left notify : Bool) : Except Fault Program := do
  let conn ← demand (w.connections k) .useAfterFree
  if left then
    if (w.poller.channels conn.channel).isWriting then return w
    else w.change conn.channel .enableWriting
  else return if notify then w.queueInLoop .other else w

def send (w : Program) (thread : Thread) (k : ℕ) (left notify : Bool) : Except Fault Program := do
  let conn ← demand (w.connections k) .useAfterFree
  if conn.state = .kConnected then
    if thread = .loop then w.sendInLoop k left notify else return w.queueInLoop (.sendInLoop k)
  else return w

/-- `shutdown`; `shutdownInLoop` does nothing to the Channel. -/
def shutdown (w : Program) (thread : Thread) (k : ℕ) : Except Fault Program := do
  let conn ← demand (w.connections k) .useAfterFree
  if conn.state = .kConnected then
    let w := w.setConnection k { conn with state := .kDisconnecting }
    return if thread = .loop then w else w.queueInLoop .other
  else return w

def handleWrite (w : Program) (k : ℕ) (drained notify : Bool) : Except Fault Program := do
  let conn ← demand (w.connections k) .useAfterFree
  if (w.poller.channels conn.channel).isWriting && drained then
    let w ← w.change conn.channel .disableWriting
    return if notify then w.queueInLoop .other else w
  else return w

/-! Connectors. -/

def retry (w : Program) (n : ℕ) : Except Fault Program := do
  let x ← demand (w.connectors n) .useAfterFree
  let w := w.setConnector n { x with state := .kDisconnected }
  return if x.connect_ then { w with timers := w.timers ++ [.startInLoop n] } else w

def connecting (w : Program) (n : ℕ) (sockfd : ℕ) : Except Fault Program := do
  let x ← demand (w.connectors n) .useAfterFree
  require (x.channel = none) .channelInUse
  let started := (w.newChannel (.connector n) sockfd).setConnector n
    { x with state := .kConnecting, channel := some w.next }
  started.change w.next .enableWriting

def connect (w : Program) (n : ℕ) (a : Attempt) : Except Fault Program :=
  match course a.savedErrno with
  | .connecting => w.connecting n a.sockfd
  | .retry => w.retry n
  | .close => .ok w

def startInLoop (w : Program) (n : ℕ) (a : Attempt) : Except Fault Program := do
  let x ← demand (w.connectors n) .useAfterFree
  require (x.state = .kDisconnected) .startState
  if x.connect_ then w.connect n a else return w

def start (w : Program) (thread : Thread) (n : ℕ) (a : Attempt) : Except Fault Program := do
  let x ← demand (w.connectors n) .useAfterFree
  let w := w.setConnector n { x with connect_ := true }
  if thread = .loop then w.startInLoop n a else return w.queueInLoop (.startInLoop n)

def restart (w : Program) (n : ℕ) (a : Attempt) : Except Fault Program := do
  let x ← demand (w.connectors n) .useAfterFree
  (w.setConnector n { x with state := .kDisconnected, connect_ := true }).startInLoop n a

/-- `stop`, with the `cancelInLoop` that another thread queues. -/
def stop (w : Program) (thread : Thread) (n : ℕ) : Except Fault Program := do
  let x ← demand (w.connectors n) .useAfterFree
  let w := w.setConnector n { x with connect_ := false }
  return if thread = .loop then w else w.queueInLoop .other

def removeAndResetChannel (w : Program) (n : ℕ) : Except Fault (Program × ℕ) := do
  let x ← demand (w.connectors n) .useAfterFree
  let c ← demand x.channel .nullPointer
  let w ← w.change c .disableAll
  let w ← w.removeChannel c
  return (w.queueInLoop (.resetChannel n), (w.poller.channels c).fd)

def resetChannel (w : Program) (n : ℕ) : Except Fault Program := do
  let x ← demand (w.connectors n) .useAfterFree
  return w.setConnector n { x with channel := none }

/-! Servers and clients. -/

def newTcpServer (w : Program) (fd : ℕ) : Program :=
  (w.newChannel (.acceptor w.next) fd).setServer w.next ⟨w.next, false, []⟩

def listen (w : Program) (s : ℕ) : Except Fault Program := do
  let sv ← demand (w.servers s) .useAfterFree
  (w.setServer s { sv with listening := true }).change sv.acceptChannel .enableReading

def startServer (w : Program) (thread : Thread) (s : ℕ) : Except Fault Program := do
  let sv ← demand (w.servers s) .useAfterFree
  if sv.listening then return w
  else if thread = .loop then w.listen s
  else return w.queueInLoop (.listen s)

def newServerConnection (w : Program) (s : ℕ) (fd : ℕ) : Except Fault Program := do
  let sv ← demand (w.servers s) .useAfterFree
  let created := (w.newTcpConnection fd (.server s)).setServer s
    { sv with connectionMap := sv.connectionMap ++ [w.next] }
  created.connectEstablished w.next

def acceptorHandleRead (w : Program) (s : ℕ) : Option ℕ → Except Fault Program
  | none => .ok w
  | some fd => w.newServerConnection s fd

def newConnector (w : Program) (client : Option ℕ) : Program :=
  { w.setConnector w.next ⟨client, false, .kDisconnected, none⟩ with next := w.next + 1 }

/-- `TcpClient::TcpClient`; the client and its Connector have the same number. -/
def newTcpClient (w : Program) : Program :=
  (w.newConnector (some w.next)).setClient w.next ⟨w.next, none, false, true⟩

def connectClient (w : Program) (thread : Thread) (c : ℕ) (a : Attempt) :
    Except Fault Program := do
  let cl ← demand (w.clients c) .useAfterFree
  (w.setClient c { cl with connect := true }).start thread cl.connector a

def disconnectClient (w : Program) (thread : Thread) (c : ℕ) : Except Fault Program := do
  let cl ← demand (w.clients c) .useAfterFree
  let w := w.setClient c { cl with connect := false }
  match cl.connection with
  | none => return w
  | some k => w.shutdown thread k

def stopClient (w : Program) (thread : Thread) (c : ℕ) : Except Fault Program := do
  let cl ← demand (w.clients c) .useAfterFree
  (w.setClient c { cl with connect := false }).stop thread cl.connector

def enableRetry (w : Program) (c : ℕ) : Except Fault Program := do
  let cl ← demand (w.clients c) .useAfterFree
  return w.setClient c { cl with retry := true }

def newClientConnection (w : Program) (c : ℕ) (fd : ℕ) : Except Fault Program := do
  let cl ← demand (w.clients c) .useAfterFree
  let created := (w.newTcpConnection fd (.client c)).setClient c
    { cl with connection := some w.next }
  created.connectEstablished w.next

/-- The `closeCallback` of a connection: `TcpServer::removeConnection` on the
server's loop, or `TcpClient::removeConnection`. -/
def closeCallback (w : Program) (k : ℕ) (a : Attempt) : CloseCallback → Except Fault Program
  | .server s => do
      let sv ← demand (w.servers s) .useAfterFree
      require (k ∈ sv.connectionMap) .connectionMapErase
      return (w.setServer s { sv with connectionMap := sv.connectionMap.erase k }).queueInLoop
        (.connectDestroyed k)
  | .client c => do
      let cl ← demand (w.clients c) .useAfterFree
      require (cl.connection = some k) .clientConnection
      let w := (w.setClient c { cl with connection := none }).queueInLoop (.connectDestroyed k)
      if cl.retry && cl.connect then w.restart cl.connector a else return w
  | .detached => .ok (w.queueInLoop (.connectDestroyed k))

def handleClose (w : Program) (k : ℕ) (a : Attempt) : Except Fault Program := do
  let conn ← demand (w.connections k) .useAfterFree
  require (conn.state = .kConnected ∨ conn.state = .kDisconnecting) .closeState
  let w ← w.change conn.channel .disableAll
  w.closeCallback k a conn.closeCallback

def handleConnection (w : Program) (k : ℕ) (e : Env) : Callback → Except Fault Program
  | .close => w.handleClose k e.attempt
  | .error => .ok w
  | .read => if e.read = .eof then w.handleClose k e.attempt else .ok w
  | .write => w.handleWrite k e.drained e.notify

def handOver (w : Program) (client : Option ℕ) (sockfd : ℕ) : Except Fault Program :=
  match client with
  | none => .ok w
  | some c => w.newClientConnection c sockfd

def connectorHandleWrite (w : Program) (n : ℕ) (e : Env) : Except Fault Program := do
  let x ← demand (w.connectors n) .useAfterFree
  if x.state = .kConnecting then
    let (w, sockfd) ← w.removeAndResetChannel n
    if e.soError ≠ 0 ∨ e.isSelfConnect = true then w.retry n
    else
      let w := w.setConnector n { x with state := .kConnected }
      if x.connect_ then w.handOver x.client sockfd else return w
  else do
    require (x.state = .kDisconnected) .writeState
    return w

def connectorHandleError (w : Program) (n : ℕ) : Except Fault Program := do
  let x ← demand (w.connectors n) .useAfterFree
  require (x.state = .kConnecting) .errorState
  let (w, _) ← w.removeAndResetChannel n
  w.retry n

def handleConnector (w : Program) (n : ℕ) (e : Env) : Callback → Except Fault Program
  | .write => w.connectorHandleWrite n e
  | .error => w.connectorHandleError n
  | .close | .read => .ok w

/-- A callback of a Channel, through the object that it is part of. The other
Channels are the loop's own: that of `wakeupFd` only reads its descriptor, and
the timers that `TimerQueue::handleRead` runs are steps of their own. -/
def handle (w : Program) (c : ChannelId) (e : Env) (cb : Callback) : Except Fault Program :=
  match w.owner c with
  | none => .error .useAfterFree
  | some (.acceptor s) => if cb = .read then w.acceptorHandleRead s e.accepted else .ok w
  | some (.connection k) => w.handleConnection k e cb
  | some (.connector n) => w.handleConnector n e cb
  | some .other => .ok w

def call (w : Program) (a : Attempt) (left notify : Bool) : Functor → Except Fault Program
  | .listen s => w.listen s
  | .sendInLoop k => w.sendInLoop k left notify
  | .connectDestroyed k => w.connectDestroyed k
  | .startInLoop n => w.startInLoop n a
  | .resetChannel n => w.resetChannel n
  | .other => .ok w

def fire (w : Program) (a : Attempt) : TimerCallback → Except Fault Program
  | .startInLoop n => w.startInLoop n a
  | .other => .ok w

/-- `Poller::poll` stores what was reported in the Channels. -/
def reported (p : Poller) (events : List (ChannelId × EventMask)) : Poller :=
  events.foldl (fun p event => p.setRevents event.1 event.2) p

end Program

inductive Input
  | newServer (fd : ℕ)
  | startServer (thread : Thread) (s : ℕ)
  | newConnector
  | start (thread : Thread) (n : ℕ) (a : Attempt)
  | restart (n : ℕ) (a : Attempt)
  | stop (thread : Thread) (n : ℕ)
  | newClient
  | connectClient (thread : Thread) (c : ℕ) (a : Attempt)
  | disconnectClient (thread : Thread) (c : ℕ)
  | stopClient (thread : Thread) (c : ℕ)
  | enableRetry (c : ℕ)
  | send (thread : Thread) (k : ℕ) (left notify : Bool)
  | shutdown (thread : Thread) (k : ℕ)
  | addTimer
  | cancel (j : ℕ)
  | queueInLoop
  | poll (events : List (ChannelId × EventMask))
  | handleEvent
  | callback (e : Env)
  | timer (j : ℕ) (a : Attempt)
  | endEvent
  | swapFunctors
  | functor (a : Attempt) (left notify : Bool)
  | endIteration

/-- The kernel returns descriptors that no registered Channel has, and poll(2)
reports each descriptor once; the rest is the order of the loop's steps. -/
def Allowed (w : Program) : Input → Prop
  | .newServer fd => w.poller.channelMap.find fd = none
  | .start _ _ a | .restart _ a | .connectClient _ _ a =>
      w.poller.channelMap.find a.sockfd = none
  | .poll events => w.loop.phase = .polling ∧ (events.map Prod.fst).Nodup ∧
      ∀ p ∈ events, w.poller.Registered p.1 ∧ (w.poller.channels p.1).events ≠ kNoneEvent
  | .handleEvent => w.loop.phase = .handling ∧ w.current = none ∧ w.activeChannels ≠ []
  | .callback e => w.callbacks ≠ [] ∧ (∀ fd ∈ e.accepted, w.poller.channelMap.find fd = none) ∧
      w.poller.channelMap.find e.attempt.sockfd = none
  | .timer j a => w.current = some w.timerfdChannel ∧ j < w.timers.length ∧
      w.poller.channelMap.find a.sockfd = none
  | .endEvent => w.callbacks = []
  | .swapFunctors => w.loop.phase = .handling ∧ w.current = none ∧ w.activeChannels = []
  | .functor a _ _ => w.loop.phase = .calling ∧ w.loop.functors ≠ [] ∧
      w.poller.channelMap.find a.sockfd = none
  | .endIteration => w.loop.phase = .calling ∧ w.loop.functors = []
  | .startServer _ _ | .newConnector | .stop _ _ | .newClient | .disconnectClient _ _
  | .stopClient _ _ | .enableRetry _ | .send _ _ _ _ | .shutdown _ _ | .addTimer | .cancel _
  | .queueInLoop => True

def exec (w : Program) : Input → Except Fault Program
  | .newServer fd => .ok (w.newTcpServer fd)
  | .startServer thread s => w.startServer thread s
  | .newConnector => .ok (w.newConnector none)
  | .start thread n a => w.start thread n a
  | .restart n a => w.restart n a
  | .stop thread n => w.stop thread n
  | .newClient => .ok w.newTcpClient
  | .connectClient thread c a => w.connectClient thread c a
  | .disconnectClient thread c => w.disconnectClient thread c
  | .stopClient thread c => w.stopClient thread c
  | .enableRetry c => w.enableRetry c
  | .send thread k left notify => w.send thread k left notify
  | .shutdown thread k => w.shutdown thread k
  | .addTimer => .ok { w with timers := w.timers ++ [.other] }
  | .cancel j => .ok { w with timers := w.timers.eraseIdx j }
  | .queueInLoop => .ok (w.queueInLoop .other)
  | .poll events => .ok { w with loop := w.loop.handleActive
                                 poller := Program.reported w.poller events
                                 activeChannels := events.map Prod.fst }
  | .handleEvent =>
      match w.activeChannels with
      | [] => .ok w
      | c :: rest =>
          .ok { w with activeChannels := rest
                       current := some c
                       callbacks := handleEvent (fun _ => true) (w.poller.channels c).revents }
  | .callback e =>
      match w.current, w.callbacks with
      | some c, cb :: rest => { w with callbacks := rest }.handle c e cb
      | _, _ => .ok w
  | .timer j a =>
      match w.timers[j]? with
      | none => .ok w
      | some cb => { w with timers := w.timers.eraseIdx j }.fire a cb
  | .endEvent => .ok { w with current := none }
  | .swapFunctors => .ok { w with loop := w.loop.swapFunctors }
  | .functor a left notify =>
      match w.loop.functors with
      | [] => .ok w
      | f :: _ => { w with loop := w.loop.popFunctor }.call a left notify f
  | .endIteration => .ok { w with loop := w.loop.endIteration }

def initial (poller : Poller) (timerfdChannel : ChannelId) (next : ℕ) : Program where
  poller := poller
  owner := fun c => if c < next then some .other else none
  servers := fun _ => none
  clients := fun _ => none
  connectors := fun _ => none
  connections := fun _ => none
  loop := .initial
  timers := []
  timerfdChannel := timerfdChannel
  activeChannels := []
  current := none
  callbacks := []
  removals := []
  next := next

def Fresh (w : Program) : Prop :=
  ∃ poller timerfdChannel next, Poller.Table poller ∧ (∀ c, poller.Registered c → c < next) ∧
    w = initial poller timerfdChannel next

def system : System Program Input Fault where
  start := Fresh
  allowed := Allowed
  exec := exec

instance (w : Program) : (i : Input) → Decidable (system.allowed w i)
  | .newServer fd => inferInstanceAs (Decidable (w.poller.channelMap.find fd = none))
  | .start _ _ a | .restart _ a | .connectClient _ _ a =>
      inferInstanceAs (Decidable (w.poller.channelMap.find a.sockfd = none))
  | .poll events => inferInstanceAs (Decidable (w.loop.phase = .polling ∧
      (events.map Prod.fst).Nodup ∧
      ∀ p ∈ events, w.poller.Registered p.1 ∧ (w.poller.channels p.1).events ≠ kNoneEvent))
  | .handleEvent => inferInstanceAs (Decidable (w.loop.phase = .handling ∧ w.current = none ∧
      w.activeChannels ≠ []))
  | .callback e => inferInstanceAs (Decidable (w.callbacks ≠ [] ∧
      (∀ fd ∈ e.accepted, w.poller.channelMap.find fd = none) ∧
      w.poller.channelMap.find e.attempt.sockfd = none))
  | .timer j a => inferInstanceAs (Decidable (w.current = some w.timerfdChannel ∧
      j < w.timers.length ∧ w.poller.channelMap.find a.sockfd = none))
  | .endEvent => inferInstanceAs (Decidable (w.callbacks = []))
  | .swapFunctors => inferInstanceAs (Decidable (w.loop.phase = .handling ∧ w.current = none ∧
      w.activeChannels = []))
  | .functor a _ _ => inferInstanceAs (Decidable (w.loop.phase = .calling ∧
      w.loop.functors ≠ [] ∧ w.poller.channelMap.find a.sockfd = none))
  | .endIteration => inferInstanceAs (Decidable (w.loop.phase = .calling ∧ w.loop.functors = []))
  | .startServer _ _ | .newConnector | .stop _ _ | .newClient | .disconnectClient _ _
  | .stopClient _ _ | .enableRetry _ | .send _ _ _ _ | .shutdown _ _ | .addTimer | .cancel _
  | .queueInLoop => isTrue trivial

end TinyMuduo.LoopProgram
