import TinyMuduo.EventLoop
import TinyMuduo.Poller
import TinyMuduo.TimerRuns

/-!
A Connector in its EventLoop. An attempt creates a socket and a Channel for it,
or leaves a timer that starts the next attempt. The results of connect(2), of
SO_ERROR and of the self-connect test are arguments, and so are the addresses
at which Channel and Timer objects are allocated. The Connector also records
which descriptors it closed, which it handed over, and what every run of
`resetChannel` destroyed.
-/
namespace TinyMuduo

open Checked Channel TimerQueue

namespace Connector

inductive States
  | kDisconnected
  | kConnecting
  | kConnected
  deriving DecidableEq, Repr

/-- The functors a Connector and others put into the loop's queue. A
`resetChannel` carries the Channel for which it was queued. -/
inductive Functor
  | startInLoop
  | cancelInLoop (timerId : TimerId)
  | resetChannel (queuedFor : ChannelId)
  | other
  deriving DecidableEq, Repr

inductive TimerCallback
  | startInLoop
  | other
  deriving DecidableEq, Repr

inductive Errno
  | EINPROGRESS
  | EINTR
  | EISCONN
  | EAGAIN
  | EADDRINUSE
  | EADDRNOTAVAIL
  | ECONNREFUSED
  | ENETUNREACH
  | EACCES
  | EPERM
  | EAFNOSUPPORT
  | EALREADY
  | EBADF
  | EFAULT
  | ENOTSOCK
  | unexpected
  deriving DecidableEq, Repr

inductive Course
  | connecting
  | retry
  | close
  deriving DecidableEq, Repr

/-- The switch on `savedErrno`, which is zero when connect(2) succeeded. -/
def course : Option Errno → Course
  | none | some .EINPROGRESS | some .EINTR | some .EISCONN => .connecting
  | some .EAGAIN | some .EADDRINUSE | some .EADDRNOTAVAIL | some .ECONNREFUSED
  | some .ENETUNREACH => .retry
  | some .EACCES | some .EPERM | some .EAFNOSUPPORT | some .EALREADY | some .EBADF
  | some .EFAULT | some .ENOTSOCK => .close
  | some .unexpected => .close

/-- What an attempt meets: its socket and the result of connect(2), and where
and when it allocates. -/
structure Attempt where
  sockfd : ℕ
  savedErrno : Option Errno
  channel : ChannelId
  timer : Address
  now : Timestamp

structure Verdict where
  soError : ℤ
  isSelfConnect : Bool
  timer : Address
  now : Timestamp

structure Reset where
  queuedFor : ChannelId
  destroyed : Option ChannelId
  registered : Bool
  deriving DecidableEq, Repr

def kMaxRetryDelayMs : ℕ := 30 * 1000

def kInitRetryDelayMs : ℕ := 500

end Connector

open Connector in
structure Connector where
  poller : Poller
  loop : EventLoop Connector.Functor
  timers : TimerRuns.State TimerCallback
  connect_ : Bool
  state : States
  channel : Option ChannelId
  retryDelayMs : ℕ
  timerId : TimerId
  /-- descriptors passed to `sockets::close` and to `newConnectionCallback` -/
  closed : List ℕ
  handed : List ℕ
  resets : List Reset

namespace Connector

def construct (poller : Poller) (timers : TimerRuns.State TimerCallback) : Connector where
  poller := poller
  loop := ⟨.handling, [], []⟩
  timers := timers
  connect_ := false
  state := .kDisconnected
  channel := none
  retryDelayMs := kInitRetryDelayMs
  timerId := ⟨0, 0⟩
  closed := []
  handed := []
  resets := []

def queueInLoop (s : Connector) (cb : Functor) : Connector :=
  { s with loop := s.loop.queueInLoop cb }

def runAfter (s : Connector) (timer : Address) (now : Timestamp) (delay : Interval)
    (cb : TimerCallback) : Except Fault (Connector × TimerId) := do
  let timers ← TimerRuns.exec s.timers (.newTimer timer cb (addTime now delay) ⟨false, 0⟩)
  let timers ← TimerRuns.exec timers (.addTimerInLoop timer now)
  return ({ s with timers := timers }, TimerId.ofTimer timer)

def cancel (s : Connector) (thread : Thread) : Except Fault Connector :=
  if thread = .loop then do
    let timers ← TimerRuns.exec s.timers (.cancelInLoop s.timerId)
    return { s with timers := timers }
  else .ok (s.queueInLoop (.cancelInLoop s.timerId))

def retry (s : Connector) (sockfd : ℕ) (timer : Address) (now : Timestamp) :
    Except Fault Connector :=
  let s := { s with closed := sockfd :: s.closed, state := .kDisconnected }
  if s.connect_ then do
    let (s, timerId) ← s.runAfter timer now ⟨true, s.retryDelayMs * 1000⟩ .startInLoop
    return { s with timerId := timerId, retryDelayMs := min (s.retryDelayMs * 2) kMaxRetryDelayMs }
  else .ok s

def connecting (s : Connector) (sockfd : ℕ) (c : ChannelId) : Except Fault Connector := do
  let s := { s with state := .kConnecting }
  require (s.channel = none) .channelInUse
  let poller ← (s.poller.newChannel c sockfd).change c .enableWriting
  return { s with poller := poller, channel := some c }

def connect (s : Connector) (a : Attempt) : Except Fault Connector :=
  match course a.savedErrno with
  | .connecting => s.connecting a.sockfd a.channel
  | .retry => s.retry a.sockfd a.timer a.now
  | .close => .ok { s with closed := a.sockfd :: s.closed }

def startInLoop (s : Connector) (a : Attempt) : Except Fault Connector := do
  require (s.state = .kDisconnected) .startState
  if s.connect_ then s.connect a else return s

/-- `start` with the `runInLoop` of `startInLoop`. -/
def start (s : Connector) (thread : Thread) (a : Attempt) : Except Fault Connector :=
  let s := { s with connect_ := true }
  if thread = .loop then s.startInLoop a else .ok (s.queueInLoop .startInLoop)

def restart (s : Connector) (a : Attempt) : Except Fault Connector :=
  { s with state := .kDisconnected, retryDelayMs := kInitRetryDelayMs
           connect_ := true }.startInLoop a

def stop (s : Connector) (thread : Thread) : Except Fault Connector :=
  { s with connect_ := false }.cancel thread

def removeAndResetChannel (s : Connector) : Except Fault (Connector × ℕ) := do
  let c ← demand s.channel .nullPointer
  let poller ← s.poller.change c .disableAll
  let poller ← poller.removeChannel c
  return ({ s with poller := poller }.queueInLoop (.resetChannel c), (poller.channels c).fd)

def resetChannel (s : Connector) (queuedFor : ChannelId) : Connector :=
  { s with channel := none
           resets := ⟨queuedFor, s.channel, s.channel.any fun c => s.poller.Registered c⟩
            :: s.resets }

def handleWrite (s : Connector) (v : Verdict) : Except Fault Connector :=
  if s.state = .kConnecting then do
    let (s, sockfd) ← s.removeAndResetChannel
    if v.soError ≠ 0 then s.retry sockfd v.timer v.now
    else if v.isSelfConnect then s.retry sockfd v.timer v.now
    else
      let s := { s with state := .kConnected }
      if s.connect_ then return { s with handed := sockfd :: s.handed }
      else return { s with closed := sockfd :: s.closed }
  else do
    require (s.state = .kDisconnected) .writeState
    return s

def handleError (s : Connector) (v : Verdict) : Except Fault Connector := do
  require (s.state = .kConnecting) .errorState
  let (s, sockfd) ← s.removeAndResetChannel
  s.retry sockfd v.timer v.now

def bound : Callback → Bool
  | .write | .error => true
  | .close | .read => false

def handle (s : Connector) (v : Verdict) : Callback → Except Fault Connector
  | .write => s.handleWrite v
  | .error => s.handleError v
  | .close | .read => .ok s

def call (s : Connector) (a : Attempt) : Functor → Except Fault Connector
  | .startInLoop => s.startInLoop a
  | .cancelInLoop timerId => do
      let timers ← TimerRuns.exec s.timers (.cancelInLoop timerId)
      return { s with timers := timers }
  | .resetChannel queuedFor => .ok (s.resetChannel queuedFor)
  | .other => .ok s

section Cases

variable {s s' : Connector} {a : Attempt} {v : Verdict}

/-- What `retry` leaves behind when no further attempt is wanted. -/
def abandoned (s : Connector) (sockfd : ℕ) : Connector :=
  { s with closed := sockfd :: s.closed, state := .kDisconnected }

def RetryTimers (timers : TimerRuns.State TimerCallback) (timer : Address) (now : Timestamp)
    (timers' : TimerRuns.State TimerCallback) : Prop :=
  ∃ when created, TimerRuns.exec timers (.newTimer timer .startInLoop when ⟨false, 0⟩) =
      .ok created ∧ TimerRuns.exec created (.addTimerInLoop timer now) = .ok timers'

/-- What a successful `retry` did: it closed the socket and, if a connection is
still wanted, added a timer for the next attempt. -/
theorem retry_cases {sockfd : ℕ} {timer : Address} {now : Timestamp}
    (h : s.retry sockfd timer now = .ok s') :
    (s.connect_ = false ∧ s' = abandoned s sockfd) ∨
    (s.connect_ = true ∧ ∃ timers, RetryTimers s.timers timer now timers ∧
      s' = { abandoned s sockfd with
              timers := timers, timerId := TimerId.ofTimer timer
              retryDelayMs := min (s.retryDelayMs * 2) kMaxRetryDelayMs }) := by
  unfold retry at h
  dsimp only at h
  split at h
  · rename_i hwanted
    simp only [runAfter, bind_eq_ok, pure_eq_ok, Except.ok.injEq] at h
    obtain ⟨-, ⟨created, hcreated, timers, hadded, rfl⟩, rfl⟩ := h
    exact Or.inr ⟨hwanted, timers, ⟨_, created, hcreated, hadded⟩, rfl⟩
  · rename_i hwanted
    exact Or.inl ⟨by simpa using hwanted, (Except.ok.inj h).symm⟩

theorem retry_error {sockfd : ℕ} {timer : Address} {now : Timestamp} {e : Fault}
    (h : s.retry sockfd timer now = .error e) :
    ∃ when created, TimerRuns.exec s.timers (.newTimer timer .startInLoop when ⟨false, 0⟩) =
      .ok created ∧ TimerRuns.exec created (.addTimerInLoop timer now) = .error e := by
  unfold retry at h
  dsimp only at h
  split at h
  · simp only [runAfter, bind_eq_error, pure_eq_ok, reduceCtorEq, and_false, exists_false,
      or_false] at h
    rcases h with h | ⟨created, hcreated, hadded⟩
    · simp [TimerRuns.exec] at h
    · exact ⟨_, created, hcreated, hadded⟩
  · simp at h

theorem connecting_ok {sockfd : ℕ} {c : ChannelId} : s.connecting sockfd c = .ok s' ↔
    s.channel = none ∧ ∃ p, (s.poller.newChannel c sockfd).change c .enableWriting = .ok p ∧
      s' = { s with poller := p, state := .kConnecting, channel := some c } := by
  simp only [connecting, bind_eq_ok, require_eq_ok, pure_eq_ok, Except.ok.injEq]
  constructor
  · rintro ⟨-, hnone, p, hp, rfl⟩
    exact ⟨hnone, p, hp, rfl⟩
  · rintro ⟨hnone, p, hp, rfl⟩
    exact ⟨⟨⟩, hnone, p, hp, rfl⟩

theorem connecting_error {sockfd : ℕ} {c : ChannelId} {e : Fault} :
    s.connecting sockfd c = .error e ↔ (s.channel ≠ none ∧ e = .channelInUse) ∨
      (s.channel = none ∧
        (s.poller.newChannel c sockfd).change c .enableWriting = .error e) := by
  simp [connecting, bind_eq_error]

/-- What a successful `startInLoop` did. -/
theorem startInLoop_cases (h : s.startInLoop a = .ok s') : s.state = .kDisconnected ∧
    ((s.connect_ = false ∧ s' = s) ∨
      (s.connect_ = true ∧ course a.savedErrno = .connecting ∧
        s.connecting a.sockfd a.channel = .ok s') ∨
      (s.connect_ = true ∧ course a.savedErrno = .retry ∧
        s.retry a.sockfd a.timer a.now = .ok s') ∨
      (s.connect_ = true ∧ course a.savedErrno = .close ∧
        s' = { s with closed := a.sockfd :: s.closed })) := by
  simp only [startInLoop, bind_eq_ok, require_eq_ok] at h
  obtain ⟨-, hstate, h⟩ := h
  refine ⟨hstate, ?_⟩
  split at h
  · rename_i hwanted
    unfold connect at h
    cases hcourse : course a.savedErrno with
    | connecting =>
      rw [hcourse] at h
      exact Or.inr (Or.inl ⟨hwanted, rfl, h⟩)
    | retry =>
      rw [hcourse] at h
      exact Or.inr (Or.inr (Or.inl ⟨hwanted, rfl, h⟩))
    | close =>
      rw [hcourse] at h
      exact Or.inr (Or.inr (Or.inr ⟨hwanted, rfl, (Except.ok.inj h).symm⟩))
  · rename_i hwanted
    exact Or.inl ⟨by simpa using hwanted, (Except.ok.inj h).symm⟩

theorem startInLoop_error {e : Fault} (h : s.startInLoop a = .error e) :
    (s.state ≠ .kDisconnected ∧ e = .startState) ∨
      (s.state = .kDisconnected ∧ s.connect_ = true ∧
        ((course a.savedErrno = .connecting ∧ s.connecting a.sockfd a.channel = .error e) ∨
          (course a.savedErrno = .retry ∧ s.retry a.sockfd a.timer a.now = .error e))) := by
  simp only [startInLoop, bind_eq_error, require_eq_error, require_eq_ok] at h
  rcases h with ⟨hstate, rfl⟩ | ⟨-, hstate, h⟩
  · exact Or.inl ⟨hstate, rfl⟩
  · split at h
    · rename_i hwanted
      refine Or.inr ⟨hstate, hwanted, ?_⟩
      unfold connect at h
      cases hcourse : course a.savedErrno with
      | connecting =>
        rw [hcourse] at h
        exact Or.inl ⟨rfl, h⟩
      | retry =>
        rw [hcourse] at h
        exact Or.inr ⟨rfl, h⟩
      | close =>
        rw [hcourse] at h
        simp at h
    · simp at h

/-- What a successful `removeAndResetChannel` did. -/
theorem removeAndResetChannel_cases {sockfd : ℕ}
    (h : s.removeAndResetChannel = .ok (s', sockfd)) :
    ∃ c p q, s.channel = some c ∧ s.poller.change c .disableAll = .ok p ∧
      p.removeChannel c = .ok q ∧
      s' = { s with poller := q }.queueInLoop (.resetChannel c) := by
  simp only [removeAndResetChannel, bind_eq_ok, demand_eq_ok, pure_eq_ok, Except.ok.injEq,
    Prod.mk.injEq] at h
  obtain ⟨c, hc, p, hp, q, hq, rfl, -⟩ := h
  exact ⟨c, p, q, hc, hp, hq, rfl⟩

theorem removeAndResetChannel_error {e : Fault} (h : s.removeAndResetChannel = .error e) :
    (s.channel = none ∧ e = .nullPointer) ∨ ∃ c, s.channel = some c ∧
      (s.poller.change c .disableAll = .error e ∨
        ∃ p, s.poller.change c .disableAll = .ok p ∧ p.removeChannel c = .error e) := by
  simp only [removeAndResetChannel, bind_eq_error, demand_eq_error, demand_eq_ok, pure_eq_ok,
    reduceCtorEq, and_false, exists_false, or_false] at h
  rcases h with ⟨hnone, rfl⟩ | ⟨c, hc, hp⟩
  · exact Or.inl ⟨hnone, rfl⟩
  · exact Or.inr ⟨c, hc, hp⟩

/-- What a successful `handleWrite` did. -/
theorem handleWrite_cases (h : s.handleWrite v = .ok s') :
    (s.state = .kDisconnected ∧ s' = s) ∨
    (s.state = .kConnecting ∧ ∃ t sockfd, s.removeAndResetChannel = .ok (t, sockfd) ∧
      (t.retry sockfd v.timer v.now = .ok s' ∨
        s' = { t with state := .kConnected, handed := sockfd :: t.handed } ∨
        s' = { t with state := .kConnected, closed := sockfd :: t.closed })) := by
  unfold handleWrite at h
  split at h
  · rename_i hstate
    simp only [bind_eq_ok] at h
    obtain ⟨⟨t, sockfd⟩, hremove, h⟩ := h
    refine Or.inr ⟨hstate, t, sockfd, hremove, ?_⟩
    dsimp only at h
    split at h
    · exact Or.inl h
    · split at h
      · exact Or.inl h
      · split at h
        · exact Or.inr (Or.inl (Except.ok.inj h).symm)
        · exact Or.inr (Or.inr (Except.ok.inj h).symm)
  · simp only [bind_eq_ok, require_eq_ok, pure_eq_ok, Except.ok.injEq] at h
    obtain ⟨-, hstate, rfl⟩ := h
    exact Or.inl ⟨hstate, rfl⟩

theorem handleWrite_error {e : Fault} (h : s.handleWrite v = .error e) :
    e = .writeState ∨ (s.state = .kConnecting ∧ (s.removeAndResetChannel = .error e ∨
      ∃ t sockfd, s.removeAndResetChannel = .ok (t, sockfd) ∧
        t.retry sockfd v.timer v.now = .error e)) := by
  unfold handleWrite at h
  split at h
  · rename_i hstate
    refine Or.inr ⟨hstate, ?_⟩
    rcases bind_eq_error.mp h with h | ⟨⟨t, sockfd⟩, hremove, h⟩
    · exact Or.inl h
    · dsimp only at h
      split at h
      · exact Or.inr ⟨t, sockfd, hremove, h⟩
      · split at h
        · exact Or.inr ⟨t, sockfd, hremove, h⟩
        · split at h <;> simp at h
  · simp only [bind_eq_error, require_eq_error, pure_eq_ok, reduceCtorEq, and_false,
      exists_false, or_false] at h
    exact Or.inl h.2

theorem handleError_cases (h : s.handleError v = .ok s') : s.state = .kConnecting ∧
    ∃ t sockfd, s.removeAndResetChannel = .ok (t, sockfd) ∧
      t.retry sockfd v.timer v.now = .ok s' := by
  simp only [handleError, bind_eq_ok, require_eq_ok] at h
  obtain ⟨-, hstate, ⟨t, sockfd⟩, hremove, h⟩ := h
  exact ⟨hstate, t, sockfd, hremove, h⟩

theorem handleError_error {e : Fault} (h : s.handleError v = .error e) :
    e = .errorState ∨ (s.state = .kConnecting ∧ (s.removeAndResetChannel = .error e ∨
      ∃ t sockfd, s.removeAndResetChannel = .ok (t, sockfd) ∧
        t.retry sockfd v.timer v.now = .error e)) := by
  simp only [handleError, bind_eq_error, require_eq_error, require_eq_ok] at h
  rcases h with ⟨-, rfl⟩ | ⟨-, hstate, h | ⟨⟨t, sockfd⟩, hremove, h⟩⟩
  · exact Or.inl rfl
  · exact Or.inr ⟨hstate, Or.inl h⟩
  · exact Or.inr ⟨hstate, Or.inr ⟨t, sockfd, hremove, h⟩⟩

end Cases

end Connector

end TinyMuduo
