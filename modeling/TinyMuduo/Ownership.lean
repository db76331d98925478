import TinyMuduo.Connector
import TinyMuduo.Lib.Runs
import TinyMuduo.PollerTable
import TinyMuduo.TcpConnection

/-!
Who owns the Channels of a loop. Servers, clients, connections and Connectors
are objects that are created and destroyed on the loop thread; each of them
destroys its Channel and closes its socket when it goes. Connections and
Connectors are shared, and go with their last pointer. The functions are those
of the source as far as they create, register, unregister or destroy Channels
and pass pointers on; what user code does in callbacks is a step of its own.
Objects are named by numbers that are never given twice, so that a pointer to a
destroyed object never finds another one.
-/
namespace TinyMuduo.Ownership

open Checked Channel Connector TcpConnection Runs

inductive Owner
  | acceptor (server : ℕ)
  | connection (k : ℕ)
  | connector (n : ℕ)
  | other
  deriving DecidableEq, Repr

inductive CloseCallback
  | server (s : ℕ)
  | client (c : ℕ)
  | detached
  deriving DecidableEq, Repr

structure Connection where
  channel : ChannelId
  state : StateE
  closeCallback : CloseCallback
  useCount : ℕ
  deriving DecidableEq, Repr

structure Server where
  acceptChannel : ChannelId
  listening : Bool
  connectionMap : List ℕ
  deriving DecidableEq, Repr

structure Client where
  connector : ℕ
  connection : Option ℕ
  retry : Bool
  connect : Bool
  deriving DecidableEq, Repr

structure Connector where
  client : ℕ
  connect_ : Bool
  state : States
  channel : Option ChannelId
  useCount : ℕ
  deriving DecidableEq, Repr

/-- A `connectDestroyed` and a `writeComplete` hold a pointer to the connection,
a `resetChannel` holds the address of the Connector only. -/
inductive Functor
  | connectDestroyed (k : ℕ)
  | writeComplete (k : ℕ)
  | resetChannel (n : ℕ)
  | other
  deriving DecidableEq, Repr

/-- A `removeConnector` holds a pointer to the Connector, a `startInLoop` its
address only. -/
inductive TimerCallback
  | startInLoop (n : ℕ)
  | removeConnector (n : ℕ)
  | other
  deriving DecidableEq, Repr

/-- The objects of a loop. The timers that have not fired are kept without their
order: any of them may be the next one. -/
structure World where
  poller : Poller
  owner : ChannelId → Option Owner
  isOpen : ℕ → Bool
  servers : ℕ → Option Server
  clients : ℕ → Option Client
  connectors : ℕ → Option Connector
  connections : ℕ → Option Connection
  /-- pointers to connections that user code holds -/
  users : List ℕ
  loop : EventLoop Functor
  /-- the functors of the running batch that were called -/
  called : List Functor
  timers : List TimerCallback
  active : List (ChannelId × Callback)
  next : ℕ

structure Attempt where
  sockfd : ℕ
  savedErrno : Option Errno
  deriving DecidableEq, Repr

structure Env where
  accepted : Option ℕ
  read : ReadResult
  drained : Bool
  notify : Bool
  soError : ℤ
  isSelfConnect : Bool
  attempt : Attempt
  deriving DecidableEq, Repr

namespace World

def setServer (w : World) (s : ℕ) (sv : Option Server) : World :=
  { w with servers := Function.update w.servers s sv }

def setClient (w : World) (c : ℕ) (cl : Option Client) : World :=
  { w with clients := Function.update w.clients c cl }

def setConnector (w : World) (n : ℕ) (x : Option Connector) : World :=
  { w with connectors := Function.update w.connectors n x }

def setConnection (w : World) (k : ℕ) (conn : Option Connection) : World :=
  { w with connections := Function.update w.connections k conn }

def queueInLoop (w : World) (cb : Functor) : World := { w with loop := w.loop.queueInLoop cb }

def newChannel (w : World) (o : Owner) (fd : ℕ) : World :=
  { w with poller := w.poller.newChannel w.next fd
           owner := Function.update w.owner w.next (some o)
           isOpen := Function.update w.isOpen fd true
           next := w.next + 1 }

def destroyChannel (w : World) (c : ChannelId) : World :=
  { w with owner := Function.update w.owner c none }

def close (w : World) (fd : ℕ) : World := { w with isOpen := Function.update w.isOpen fd false }

def change (w : World) (c : ChannelId) (interest : Interest) : Except Fault World := do
  let poller ← w.poller.change c interest
  return { w with poller := poller }

def removeChannel (w : World) (c : ChannelId) : Except Fault World := do
  let poller ← w.poller.removeChannel c
  return { w with poller := poller }

/-! Connections. -/

def newTcpConnection (w : World) (fd : ℕ) (cb : CloseCallback) : World :=
  (w.newChannel (.connection w.next) fd).setConnection w.next
    (some ⟨w.next, .kConnecting, cb, 1⟩)

def connectEstablished (w : World) (k : ℕ) : Except Fault World := do
  let conn ← demand (w.connections k) .useAfterFree
  require (conn.state = .kConnecting) .establishState
  (w.setConnection k (some { conn with state := .kConnected })).change conn.channel .enableReading

def retain (w : World) (k : ℕ) : Except Fault World := do
  let conn ← demand (w.connections k) .useAfterFree
  return w.setConnection k (some { conn with useCount := conn.useCount + 1 })

/-- A TcpConnectionPtr goes, and the connection with the last one. -/
def release (w : World) (k : ℕ) : Except Fault World := do
  let conn ← demand (w.connections k) .useAfterFree
  if conn.useCount ≤ 1 then
    return ((w.setConnection k none).destroyChannel conn.channel).close
      (w.poller.channels conn.channel).fd
  else return w.setConnection k (some { conn with useCount := conn.useCount - 1 })

def releaseAll (w : World) : List ℕ → Except Fault World
  | [] => .ok w
  | k :: rest => do
      let w ← w.release k
      w.releaseAll rest

/-- The `connectionCallback` between the two calls is user code. -/
def connectDestroyed (w : World) (k : ℕ) : Except Fault World := do
  let conn ← demand (w.connections k) .useAfterFree
  require (conn.state = .kConnected ∨ conn.state = .kDisconnecting) .destroyState
  let w ← (w.setConnection k (some { conn with state := .kDisconnected })).change conn.channel
    .disableAll
  w.removeChannel conn.channel

def shutdown (w : World) (k : ℕ) : Except Fault World := do
  let conn ← demand (w.connections k) .useAfterFree
  if conn.state = .kConnected then
    return w.setConnection k (some { conn with state := .kDisconnecting })
  else return w

def notifyComplete (w : World) (k : ℕ) (notify : Bool) : Except Fault World :=
  if notify then do
    let w ← w.retain k
    return w.queueInLoop (.writeComplete k)
  else .ok w

/-- `send` on the loop thread: bytes are left over, or the message was written. -/
def send (w : World) (k : ℕ) (left notify : Bool) : Except Fault World := do
  let conn ← demand (w.connections k) .useAfterFree
  if conn.state = .kConnected then
    if left then
      if (w.poller.channels conn.channel).isWriting then return w
      else w.change conn.channel .enableWriting
    else w.notifyComplete k notify
  else return w

def handleWrite (w : World) (k : ℕ) (drained notify : Bool) : Except Fault World := do
  let conn ← demand (w.connections k) .useAfterFree
  if (w.poller.channels conn.channel).isWriting && drained then
    let w ← w.change conn.channel .disableWriting
    w.notifyComplete k notify
  else return w

/-! Connectors. -/

/-- `retry`: the socket is closed, and a timer holds the Connector's address. -/
def retry (w : World) (n : ℕ) (sockfd : ℕ) : Except Fault World := do
  let x ← demand (w.connectors n) .useAfterFree
  let w := (w.close sockfd).setConnector n (some { x with state := .kDisconnected })
  return if x.connect_ then { w with timers := w.timers ++ [.startInLoop n] } else w

def connecting (w : World) (n : ℕ) (sockfd : ℕ) : Except Fault World := do
  let x ← demand (w.connectors n) .useAfterFree
  require (x.channel = none) .channelInUse
  let started := (w.newChannel (.connector n) sockfd).setConnector n
    (some { x with state := .kConnecting, channel := some w.next })
  started.change w.next .enableWriting

def connect (w : World) (n : ℕ) (a : Attempt) : Except Fault World :=
  match course a.savedErrno with
  | .connecting => w.connecting n a.sockfd
  | .retry => w.retry n a.sockfd
  | .close => .ok (w.close a.sockfd)

def startInLoop (w : World) (n : ℕ) (a : Attempt) : Except Fault World := do
  let x ← demand (w.connectors n) .useAfterFree
  require (x.state = .kDisconnected) .startState
  if x.connect_ then w.connect n a else return w

def start (w : World) (n : ℕ) (a : Attempt) : Except Fault World := do
  let x ← demand (w.connectors n) .useAfterFree
  (w.setConnector n (some { x with connect_ := true })).startInLoop n a

def restart (w : World) (n : ℕ) (a : Attempt) : Except Fault World := do
  let x ← demand (w.connectors n) .useAfterFree
  (w.setConnector n (some { x with state := .kDisconnected, connect_ := true })).startInLoop n a

/-- `stop`. The id that it cancels names no timer. -/
def stop (w : World) (n : ℕ) : Except Fault World := do
  let x ← demand (w.connectors n) .useAfterFree
  return w.setConnector n (some { x with connect_ := false })

def removeAndResetChannel (w : World) (n : ℕ) : Except Fault (World × ℕ) := do
  let x ← demand (w.connectors n) .useAfterFree
  let c ← demand x.channel .nullPointer
  let w ← w.change c .disableAll
  let w ← w.removeChannel c
  return (w.queueInLoop (.resetChannel n), (w.poller.channels c).fd)

def resetChannel (w : World) (n : ℕ) : Except Fault World := do
  let x ← demand (w.connectors n) .useAfterFree
  match x.channel with
  | none => return w
  | some c => return (w.destroyChannel c).setConnector n (some { x with channel := none })

def releaseConnector (w : World) (n : ℕ) : Except Fault World := do
  let x ← demand (w.connectors n) .useAfterFree
  if x.useCount ≤ 1 then
    require (x.channel = none) .destroyedConnecting
    return w.setConnector n none
  else return w.setConnector n (some { x with useCount := x.useCount - 1 })

/-! Servers and clients. -/

def newTcpServer (w : World) (fd : ℕ) : World :=
  (w.newChannel (.acceptor w.next) fd).setServer w.next (some ⟨w.next, false, []⟩)

/-- `TcpServer::start` with `Acceptor::listen`. -/
def startServer (w : World) (s : ℕ) : Except Fault World := do
  let sv ← demand (w.servers s) .useAfterFree
  if sv.listening then return w
  else (w.setServer s (some { sv with listening := true })).change sv.acceptChannel .enableReading

def newServerConnection (w : World) (s : ℕ) (fd : ℕ) : Except Fault World := do
  let sv ← demand (w.servers s) .useAfterFree
  let created := (w.newTcpConnection fd (.server s)).setServer s
    (some { sv with connectionMap := sv.connectionMap ++ [w.next] })
  created.connectEstablished w.next

def acceptorHandleRead (w : World) (s : ℕ) (accepted : Option ℕ) : Except Fault World :=
  match accepted with
  | none => .ok w
  | some fd => w.newServerConnection s fd

/-- `TcpServer::~TcpServer`: its connection map goes, then its Acceptor. -/
def destroyServer (w : World) (s : ℕ) : Except Fault World := do
  let sv ← demand (w.servers s) .useAfterFree
  let w ← (w.setServer s none).releaseAll sv.connectionMap
  return (w.destroyChannel sv.acceptChannel).close (w.poller.channels sv.acceptChannel).fd

def newTcpClient (w : World) : World :=
  let w' := (w.setClient w.next (some ⟨w.next, none, false, true⟩)).setConnector w.next
    (some ⟨w.next, false, .kDisconnected, none, 1⟩)
  { w' with next := w.next + 1 }

def connectClient (w : World) (c : ℕ) (a : Attempt) : Except Fault World := do
  let cl ← demand (w.clients c) .useAfterFree
  (w.setClient c (some { cl with connect := true })).start cl.connector a

def disconnectClient (w : World) (c : ℕ) : Except Fault World := do
  let cl ← demand (w.clients c) .useAfterFree
  let w := w.setClient c (some { cl with connect := false })
  match cl.connection with
  | none => return w
  | some k => w.shutdown k

def stopClient (w : World) (c : ℕ) : Except Fault World := do
  let cl ← demand (w.clients c) .useAfterFree
  (w.setClient c (some { cl with connect := false })).stop cl.connector

def enableRetry (w : World) (c : ℕ) : Except Fault World := do
  let cl ← demand (w.clients c) .useAfterFree
  return w.setClient c (some { cl with retry := true })

/-- `TcpClient::newConnection`; the assignment releases a previous connection. -/
def newClientConnection (w : World) (c : ℕ) (fd : ℕ) : Except Fault World := do
  let cl ← demand (w.clients c) .useAfterFree
  let created := (w.newTcpConnection fd (.client c)).setClient c
    (some { cl with connection := some w.next })
  let assigned ← created.releaseAll cl.connection.toList
  assigned.connectEstablished w.next

/-- `TcpClient::~TcpClient`. A connection is detached before the client's
pointer to it goes; a Connector without one is handed to a timer. -/
def destroyClient (w : World) (c : ℕ) : Except Fault World := do
  let cl ← demand (w.clients c) .useAfterFree
  let w := w.setClient c none
  match cl.connection with
  | some k => do
      let conn ← demand (w.connections k) .useAfterFree
      let w ← (w.setConnection k (some { conn with closeCallback := .detached })).release k
      w.releaseConnector cl.connector
  | none => do
      let w ← w.stop cl.connector
      return { w with timers := w.timers ++ [.removeConnector cl.connector] }

/-- The `closeCallback` of a connection. Its owner's pointer passes to the queued
`connectDestroyed`; the detached one makes a copy. -/
def closeCallback (w : World) (k : ℕ) (cb : CloseCallback) (a : Attempt) : Except Fault World :=
  match cb with
  | .server s => do
      let sv ← demand (w.servers s) .useAfterFree
      require (k ∈ sv.connectionMap) .connectionMapErase
      return (w.setServer s (some { sv with
        connectionMap := sv.connectionMap.erase k })).queueInLoop (.connectDestroyed k)
  | .client c => do
      let cl ← demand (w.clients c) .useAfterFree
      require (cl.connection = some k) .clientConnection
      let w := (w.setClient c (some { cl with connection := none })).queueInLoop
        (.connectDestroyed k)
      if cl.retry && cl.connect then w.restart cl.connector a else return w
  | .detached => do
      let w ← w.retain k
      return w.queueInLoop (.connectDestroyed k)

def handleClose (w : World) (k : ℕ) (a : Attempt) : Except Fault World := do
  let conn ← demand (w.connections k) .useAfterFree
  require (conn.state = .kConnected ∨ conn.state = .kDisconnecting) .closeState
  let w ← w.change conn.channel .disableAll
  w.closeCallback k conn.closeCallback a

def handleConnection (w : World) (k : ℕ) (e : Env) : Callback → Except Fault World
  | .close => w.handleClose k e.attempt
  | .error => .ok w
  | .read => if e.read = .eof then w.handleClose k e.attempt else .ok w
  | .write => w.handleWrite k e.drained e.notify

def connectorHandleWrite (w : World) (n : ℕ) (e : Env) : Except Fault World := do
  let x ← demand (w.connectors n) .useAfterFree
  if x.state = .kConnecting then
    let (w, sockfd) ← w.removeAndResetChannel n
    if e.soError ≠ 0 ∨ e.isSelfConnect = true then w.retry n sockfd
    else
      let w := w.setConnector n (some { x with state := .kConnected })
      if x.connect_ then w.newClientConnection x.client sockfd else return w.close sockfd
  else do
    require (x.state = .kDisconnected) .writeState
    return w

def connectorHandleError (w : World) (n : ℕ) : Except Fault World := do
  let x ← demand (w.connectors n) .useAfterFree
  require (x.state = .kConnecting) .errorState
  let (w, sockfd) ← w.removeAndResetChannel n
  w.retry n sockfd

def handleConnector (w : World) (n : ℕ) (e : Env) : Callback → Except Fault World
  | .write => w.connectorHandleWrite n e
  | .error => w.connectorHandleError n
  | .close | .read => .ok w

def handle (w : World) (c : ChannelId) (e : Env) (cb : Callback) : Except Fault World :=
  match w.owner c with
  | none => .error .useAfterFree
  | some (.acceptor s) => if cb = .read then w.acceptorHandleRead s e.accepted else .ok w
  | some (.connection k) => w.handleConnection k e cb
  | some (.connector n) => w.handleConnector n e cb
  | some .other => .ok w

def call (w : World) : Functor → Except Fault World
  | .connectDestroyed k => w.connectDestroyed k
  | .resetChannel n => w.resetChannel n
  | .writeComplete _ | .other => .ok w

def fire (w : World) (a : Attempt) : TimerCallback → Except Fault World
  | .startInLoop n => w.startInLoop n a
  | .removeConnector n => w.releaseConnector n
  | .other => .ok w

end World

def references (functors : List Functor) : List ℕ :=
  functors.filterMap fun f => match f with
    | .connectDestroyed k | .writeComplete k => some k
    | .resetChannel _ | .other => none

inductive Input
  | newServer (fd : ℕ)
  | startServer (s : ℕ)
  | destroyServer (s : ℕ)
  | newClient
  | connectClient (c : ℕ) (a : Attempt)
  | disconnectClient (c : ℕ)
  | stopClient (c : ℕ)
  | enableRetry (c : ℕ)
  | destroyClient (c : ℕ)
  | hold (k : ℕ)
  | drop (k : ℕ)
  | send (k : ℕ) (left notify : Bool)
  | shutdown (k : ℕ)
  | addTimer
  | queueOther
  | poll (events : List (ChannelId × EventMask))
  | callback (e : Env)
  | timer (j : ℕ) (a : Attempt)
  | swapFunctors
  | functor
  | endIteration
  | otherChange (d : ChannelId) (interest : Interest)
  | otherRemove (d : ChannelId)

/-- The kernel returns descriptors that are not open; servers and clients are
destroyed outside `handleEvent`; the rest is the order of the loop's steps. -/
def Allowed (w : World) : Input → Prop
  | .newServer fd => w.isOpen fd = false
  | .destroyServer _ | .destroyClient _ => w.loop.phase ≠ .handling
  | .connectClient _ a => w.isOpen a.sockfd = false
  | .drop k => k ∈ w.users
  | .poll events => w.loop.phase = .polling ∧ ∀ p ∈ events, w.poller.Registered p.1 ∧
      (w.poller.channels p.1).events ≠ kNoneEvent
  | .callback e => w.active ≠ [] ∧ (∀ fd ∈ e.accepted, w.isOpen fd = false) ∧
      w.isOpen e.attempt.sockfd = false
  | .timer j a => w.loop.phase = .handling ∧ j < w.timers.length ∧ w.isOpen a.sockfd = false
  | .swapFunctors => w.loop.phase = .handling ∧ w.active = []
  | .functor => w.loop.phase = .calling ∧ w.loop.functors ≠ []
  | .endIteration => w.loop.phase = .calling ∧ w.loop.functors = []
  | .otherChange d _ | .otherRemove d => w.owner d = some .other
  | .startServer _ | .newClient | .disconnectClient _ | .stopClient _ | .enableRetry _ | .hold _
  | .send _ _ _ | .shutdown _ | .addTimer | .queueOther => True

def exec (w : World) : Input → Except Fault World
  | .newServer fd => .ok (w.newTcpServer fd)
  | .startServer s => w.startServer s
  | .destroyServer s => w.destroyServer s
  | .newClient => .ok w.newTcpClient
  | .connectClient c a => w.connectClient c a
  | .disconnectClient c => w.disconnectClient c
  | .stopClient c => w.stopClient c
  | .enableRetry c => w.enableRetry c
  | .destroyClient c => w.destroyClient c
  | .hold k => do
      let w ← w.retain k
      return { w with users := k :: w.users }
  | .drop k => { w with users := w.users.erase k }.release k
  | .send k left notify => w.send k left notify
  | .shutdown k => w.shutdown k
  | .addTimer => .ok { w with timers := w.timers ++ [.other] }
  | .queueOther => .ok (w.queueInLoop .other)
  | .poll events =>
      .ok { w with loop := w.loop.handleActive
                   active := events.flatMap fun p =>
                    (handleEvent (fun _ => true) p.2).map fun cb => (p.1, cb) }
  | .callback e =>
      match w.active with
      | [] => .ok w
      | (c, cb) :: rest => { w with active := rest }.handle c e cb
  | .timer j a =>
      match w.timers[j]? with
      | none => .ok w
      | some cb => { w with timers := w.timers.eraseIdx j }.fire a cb
  | .swapFunctors => .ok { w with loop := w.loop.swapFunctors }
  | .functor =>
      match w.loop.functors with
      | [] => .ok w
      | f :: _ => { w with loop := w.loop.popFunctor, called := w.called ++ [f] }.call f
  | .endIteration =>
      { w with loop := w.loop.endIteration, called := [] }.releaseAll (references w.called)
  | .otherChange d interest => w.change d interest
  | .otherRemove d => w.removeChannel d

def initial (poller : Poller) (isOpen : ℕ → Bool) (next : ℕ) : World where
  poller := poller
  owner := fun c => if c < next then some .other else none
  isOpen := isOpen
  servers := fun _ => none
  clients := fun _ => none
  connectors := fun _ => none
  connections := fun _ => none
  users := []
  loop := .initial
  called := []
  timers := []
  active := []
  next := next

def Fresh (w : World) : Prop :=
  ∃ poller isOpen next, Poller.Table poller ∧ (∀ c, poller.Registered c → c < next) ∧
    (∀ c < next, isOpen (poller.channels c).fd = true) ∧
    (∀ c < next, ∀ d < next, (poller.channels c).fd = (poller.channels d).fd → c = d) ∧
    w = initial poller isOpen next

def system : System World Input Fault where
  start := Fresh
  allowed := Allowed
  exec := exec

end TinyMuduo.Ownership
