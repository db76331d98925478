import TinyMuduo.ConnectorSockets
import TinyMuduo.TcpConnection

/-!
A TcpClient with its Connector. Each call of the client, each callback and each
functor is one step, and `newConnection` runs inside the step of the Connector
that hands a descriptor over. The client and the Connector each have a flag
`connect_`. `stop` clears both, and only `connect` sets them again, so that from
then on no connection is made and no socket is opened.
-/
namespace TinyMuduo

open Checked Runs Ledger

namespace TcpClient

structure Connection where
  connId : ℕ
  sockfd : ℕ
  state : TcpConnection.StateE
  deriving DecidableEq, Repr

end TcpClient

structure TcpClient where
  connector : ConnectorRuns.State
  retry_ : Bool
  connect_ : Bool
  nextConnId : ℕ
  connection : Option TcpClient.Connection

namespace TcpClient

open Connector ConnectorRuns Channel TimerQueue

def construct (connector : ConnectorRuns.State) : TcpClient where
  connector := connector
  retry_ := false
  connect_ := true
  nextConnId := 1
  connection := none

/-- A functor that does not concern the Connector. -/
def queueInLoop (c : TcpClient) : TcpClient :=
  { c with connector := { c.connector with conn := c.connector.conn.queueInLoop .other } }

def connect (c : TcpClient) (thread : Thread) (a : Attempt) : Except Fault TcpClient := do
  let connector ← ConnectorRuns.exec c.connector (.start thread a)
  return { c with connect_ := true, connector := connector }

def shutdown (c : TcpClient) (thread : Thread) (conn : Connection) : TcpClient :=
  if conn.state = .kConnected then
    let c := { c with connection := some { conn with state := .kDisconnecting } }
    if thread = .loop then c else c.queueInLoop
  else c

def disconnect (c : TcpClient) (thread : Thread) : TcpClient :=
  let c := { c with connect_ := false }
  match c.connection with
  | none => c
  | some conn => c.shutdown thread conn

def stop (c : TcpClient) (thread : Thread) : Except Fault TcpClient := do
  let connector ← ConnectorRuns.exec c.connector (.stop thread)
  return { c with connect_ := false, connector := connector }

/-- `newConnection` with `connectEstablished`. -/
def newConnection (c : TcpClient) (sockfd : ℕ) : TcpClient :=
  { c with nextConnId := c.nextConnId + 1
           connection := some ⟨c.nextConnId, sockfd, .kConnected⟩ }

/-- `removeConnection` with the `restart` that it may call. -/
def removeConnection (c : TcpClient) (connId : ℕ) (a : Attempt) : Except Fault TcpClient := do
  require (c.connection.map Connection.connId = some connId) .clientConnection
  let c := { c with connection := none }.queueInLoop
  if c.retry_ && c.connect_ then
    let connector ← ConnectorRuns.exec c.connector (.restart a)
    return { c with connector := connector }
  else return c

inductive Input
  | connect (thread : Thread) (a : Attempt)
  | disconnect (thread : Thread)
  | stop (thread : Thread)
  | enableRetry
  | removeConnection (connId : ℕ) (a : Attempt)
  | connector (i : ConnectorRuns.Input)

def Input.IsConnect : Input → Bool
  | .connect _ _ => true
  | .disconnect _ | .stop _ | .enableRetry | .removeConnection _ _ | .connector _ => false

def Internal : ConnectorRuns.Input → Bool
  | .start _ _ | .restart _ | .stop _ | .connectionClosed => false
  | .queueOther | .poll _ | .handleEvent | .callback _ | .timers _ | .runTimer _ | .swapFunctors
  | .functor _ | .endIteration | .otherChange _ _ | .otherRemove _ => true

/-- Any connection that was ever made may close, on the loop thread. -/
def Allowed (c : TcpClient) : Input → Prop
  | .connect thread a => ConnectorRuns.Allowed c.connector (.start thread a)
  | .disconnect thread => MayCall c.connector thread
  | .stop thread => ConnectorRuns.Allowed c.connector (.stop thread)
  | .enableRetry => True
  | .removeConnection connId a => ConnectorRuns.Allowed c.connector (.restart a) ∧
      0 < connId ∧ connId < c.nextConnId
  | .connector i => ConnectorRuns.Allowed c.connector i ∧ Internal i = true

/-- The descriptors that a step of the Connector passed to
`newConnectionCallback`. -/
def handedOver (s s' : ConnectorRuns.State) : List ℕ :=
  s'.conn.handed.take (s'.conn.handed.length - s.conn.handed.length)

def exec (c : TcpClient) : Input → Except Fault TcpClient
  | .connect thread a => c.connect thread a
  | .disconnect thread => .ok (c.disconnect thread)
  | .stop thread => c.stop thread
  | .enableRetry => .ok { c with retry_ := true }
  | .removeConnection connId a => c.removeConnection connId a
  | .connector i => do
      let connector ← ConnectorRuns.exec c.connector i
      return (handedOver c.connector connector).foldl newConnection
        { c with connector := connector }

def system : System TcpClient Input Fault where
  start c := ∃ connector, Fresh connector ∧ c = construct connector
  allowed := Allowed
  exec := exec

instance (c : TcpClient) : (i : Input) → Decidable (system.allowed c i)
  | .connect thread a =>
      inferInstanceAs (Decidable (ConnectorRuns.system.allowed c.connector (.start thread a)))
  | .disconnect thread => inferInstanceAs (Decidable (MayCall c.connector thread))
  | .stop thread =>
      inferInstanceAs (Decidable (ConnectorRuns.system.allowed c.connector (.stop thread)))
  | .enableRetry => isTrue trivial
  | .removeConnection connId a =>
      inferInstanceAs (Decidable (ConnectorRuns.system.allowed c.connector (.restart a) ∧
        0 < connId ∧ connId < c.nextConnId))
  | .connector i => inferInstanceAs
      (Decidable (ConnectorRuns.system.allowed c.connector i ∧ Internal i = true))

def effects (c : TcpClient) : Input → List (Effect ℕ)
  | .connect thread a => ConnectorRuns.effects c.connector (.start thread a)
  | .removeConnection _ a =>
      if c.retry_ && c.connect_ then ConnectorRuns.effects c.connector (.restart a) else []
  | .connector i => ConnectorRuns.effects c.connector i
  | .disconnect _ | .stop _ | .enableRetry => []

/-- The Connector takes no socket: what it held it still holds, or has closed. -/
def Unopened (c c' : Connector) : Prop :=
  (held c' = held c ∧ c'.closed = c.closed) ∨
    ∃ fd, held c = some fd ∧ held c' = none ∧ c'.closed = fd :: c.closed

/-- The step opens no socket and does not reach `newConnection`, neither in its
effects nor in what it makes of the Connector. -/
structure Quiet (c : TcpClient) (i : Input) : Prop where
  opens : ∀ fd, Effect.create fd ∉ effects c i
  hands : ∀ fd, Effect.transfer fd ∉ effects c i
  invokes : ∀ c', exec c i = .ok c' → c'.connector.conn.handed = c.connector.conn.handed ∧
    c'.nextConnId = c.nextConnId
  sockets : ∀ c', exec c i = .ok c' → Unopened c.connector.conn c'.connector.conn
  channel : ∀ c', exec c i = .ok c' →
    c'.connector.conn.channel = c.connector.conn.channel ∨ c'.connector.conn.channel = none

structure Stopped (c : TcpClient) : Prop where
  client : c.connect_ = false
  connector : c.connector.conn.connect_ = false

section Unwanted

variable {c c' : Connector}

structure Still (c c' : Connector) : Prop where
  wish : c'.connect_ = c.connect_
  handed : c'.handed = c.handed
  channel : c'.channel = c.channel ∨ c'.channel = none

theorem retry_still {sockfd : ℕ} {timer : Address} {now : Timestamp}
    (hexec : c.retry sockfd timer now = .ok c') : Still c c' := by
  rcases retry_cases hexec with ⟨-, rfl⟩ | ⟨-, timers, -, rfl⟩
  · exact ⟨rfl, rfl, Or.inl rfl⟩
  · exact ⟨rfl, rfl, Or.inl rfl⟩

theorem startInLoop_unwanted {a : Attempt} (hexec : c.startInLoop a = .ok c')
    (hunwanted : c.connect_ = false) : c' = c := by
  obtain ⟨-, ⟨-, rfl⟩ | ⟨hwanted, -⟩ | ⟨hwanted, -⟩ | ⟨hwanted, -⟩⟩ := startInLoop_cases hexec
  · rfl
  · simp [hunwanted] at hwanted
  · simp [hunwanted] at hwanted
  · simp [hunwanted] at hwanted

theorem removeAndResetChannel_still {sockfd : ℕ}
    (hexec : c.removeAndResetChannel = .ok (c', sockfd)) : Still c c' := by
  obtain ⟨ch, p, q, -, -, -, rfl⟩ := removeAndResetChannel_cases hexec
  exact ⟨rfl, rfl, Or.inl rfl⟩

theorem Still.trans {c₁ : Connector} (h : Still c c₁) (h' : Still c₁ c') : Still c c' := by
  refine ⟨h'.wish.trans h.wish, h'.handed.trans h.handed, ?_⟩
  rcases h'.channel with hsame | hnone
  · rw [hsame]
    exact h.channel
  · exact Or.inr hnone

/-- The socket of an attempt that succeeds is closed. -/
theorem handleWrite_unwanted (hunwanted : c.connect_ = false) {v : Verdict}
    (hexec : c.handleWrite v = .ok c') : Still c c' := by
  unfold handleWrite at hexec
  split at hexec
  · obtain ⟨⟨t, sockfd⟩, hremove, hexec⟩ := bind_eq_ok.mp hexec
    have hstill := removeAndResetChannel_still hremove
    have ht : t.connect_ = false := hstill.wish.trans hunwanted
    dsimp only at hexec
    split at hexec
    · exact hstill.trans (retry_still hexec)
    · split at hexec
      · exact hstill.trans (retry_still hexec)
      · rw [ht, if_neg Bool.false_ne_true, pure_eq_ok, Except.ok.injEq] at hexec
        subst hexec
        exact hstill.trans ⟨ht.symm, rfl, Or.inl rfl⟩
  · simp only [bind_eq_ok, require_eq_ok, pure_eq_ok, Except.ok.injEq] at hexec
    obtain ⟨-, -, rfl⟩ := hexec
    exact ⟨rfl, rfl, Or.inl rfl⟩

theorem handle_unwanted (hunwanted : c.connect_ = false) {v : Verdict} {cb : Callback}
    (hexec : c.handle v cb = .ok c') : Still c c' := by
  cases cb with
  | close | read =>
    cases hexec
    exact ⟨rfl, rfl, Or.inl rfl⟩
  | error =>
    obtain ⟨-, t, sockfd, hremove, hretry⟩ := handleError_cases hexec
    exact (removeAndResetChannel_still hremove).trans (retry_still hretry)
  | write => exact handleWrite_unwanted hunwanted hexec

theorem call_unwanted {a : Attempt} {f : Functor} (hexec : c.call a f = .ok c')
    (hunwanted : c.connect_ = false) : Still c c' := by
  cases f with
  | startInLoop =>
    obtain rfl := startInLoop_unwanted hexec hunwanted
    exact ⟨rfl, rfl, Or.inl rfl⟩
  | cancelInLoop timerId =>
    simp only [call, bind_eq_ok, pure_eq_ok, Except.ok.injEq] at hexec
    obtain ⟨timers, -, rfl⟩ := hexec
    exact ⟨rfl, rfl, Or.inl rfl⟩
  | resetChannel =>
    cases hexec
    exact ⟨rfl, rfl, Or.inr rfl⟩
  | other =>
    cases hexec
    exact ⟨rfl, rfl, Or.inl rfl⟩

/-- A step of a Connector that wants no connection, whatever it waits for. -/
theorem exec_unwanted {s s' : ConnectorRuns.State} (hunwanted : s.conn.connect_ = false)
    {i : ConnectorRuns.Input} (hallow : ConnectorRuns.Allowed s i) (hinternal : Internal i = true)
    (hexec : ConnectorRuns.exec s i = .ok s') : Still s.conn s'.conn := by
  cases ConnectorRuns.step_of_exec hallow hexec with
  | start | restart | stop | connectionClosed => cases hinternal
  | callback hcurrent hhandle => exact handle_unwanted hunwanted hhandle
  | runTimer htimers hcb hstart =>
    obtain rfl := startInLoop_unwanted hstart hunwanted
    exact ⟨rfl, rfl, Or.inl rfl⟩
  | functor hf hcall =>
    obtain ⟨hflag, hhanded, hchannel⟩ := call_unwanted hcall hunwanted
    exact ⟨hflag, hhanded, hchannel⟩
  | queueOther | pollTimeout | poll | handleEvent | timers | runOther | swapFunctors | endIteration
  | otherChange | otherRemove => exact ⟨rfl, rfl, Or.inl rfl⟩

/-- `Connector::stop` clears the flag and hands nothing over. -/
theorem stop_still {s s' : ConnectorRuns.State} {thread : Thread}
    (hexec : ConnectorRuns.exec s (.stop thread) = .ok s') :
    s'.conn.connect_ = false ∧ s'.conn.handed = s.conn.handed ∧
      s'.conn.channel = s.conn.channel := by
  simp only [ConnectorRuns.exec, Connector.stop, Connector.cancel, bind_pure_eq_ok] at hexec
  obtain ⟨conn, hstop, rfl⟩ := hexec
  split at hstop
  · simp only [bind_pure_eq_ok] at hstop
    obtain ⟨timers, -, rfl⟩ := hstop
    exact ⟨rfl, rfl, rfl⟩
  · cases hstop
    exact ⟨rfl, rfl, rfl⟩

def Ending : Effect ℕ → Bool
  | .create _ | .transfer _ => false
  | .attach _ | .detach _ | .release _ => true

theorem removeEffects_ending {e : Effect ℕ} (he : e ∈ removeEffects c .release) :
    Ending e = true := by
  unfold removeEffects at he
  split at he
  · simp at he
  · simp only [List.mem_cons, List.not_mem_nil, or_false] at he
    rcases he with rfl | rfl
    · rfl
    · rfl

theorem handleWriteEffects_ending (hunwanted : c.connect_ = false) {v : Verdict} {e : Effect ℕ}
    (he : e ∈ handleWriteEffects c v) : Ending e = true := by
  unfold handleWriteEffects at he
  rw [hunwanted, if_neg Bool.false_ne_true, ite_self, ite_self] at he
  split at he
  · exact removeEffects_ending he
  · simp at he

theorem effects_ending {s : ConnectorRuns.State} (hunwanted : s.conn.connect_ = false)
    {i : ConnectorRuns.Input} (hinternal : Internal i = true) {e : Effect ℕ}
    (he : e ∈ ConnectorRuns.effects s i) : Ending e = true := by
  have hstart : ∀ a, startInLoopEffects s.conn a = [] := by
    intro a
    rw [startInLoopEffects, if_neg (by simp [hunwanted])]
  cases i with
  | start | restart | stop | connectionClosed => cases hinternal
  | queueOther | swapFunctors | endIteration | poll | handleEvent | timers | otherChange
  | otherRemove => simp [ConnectorRuns.effects] at he
  | callback v =>
    simp only [ConnectorRuns.effects] at he
    split at he
    · simp at he
    · rename_i cb rest _
      cases cb with
      | close | read => simp [handleEffects] at he
      | error => exact removeEffects_ending he
      | write => exact handleWriteEffects_ending hunwanted he
  | runTimer a => simp [ConnectorRuns.effects, hstart] at he
  | functor a =>
    simp only [ConnectorRuns.effects] at he
    split at he
    · simp [hstart] at he
    · simp at he

theorem unopened_of_move {es : List (Effect ℕ)} (h : Move c c' es)
    (hending : ∀ e ∈ es, Ending e = true) : Unopened c c' := by
  cases h with
  | nothing hheld hclosed => exact Or.inl ⟨hheld, hclosed⟩
  | discard fd | attach fd => cases hending (.create fd) (by simp)
  | close fd hheld hnone hclosed => exact Or.inr ⟨fd, hheld, hnone, hclosed⟩
  | hand fd => cases hending (.transfer fd) (by simp)

end Unwanted

section Invariant

variable {c c' : TcpClient}

theorem foldl_newConnection (fds : List ℕ) :
    (fds.foldl newConnection c).connector = c.connector := by
  induction fds generalizing c with
  | nil => rfl
  | cons fd rest ih => exact ih

theorem queueInLoop_inv (h : Inv c.connector) : Inv c.queueInLoop.connector :=
  ConnectorRuns.step_inv (i := .queueOther) h trivial rfl

/-- `disconnect` leaves the Connector alone; it may queue `shutdownInLoop`. -/
theorem disconnect_connector (thread : Thread) :
    (c.disconnect thread).connector = c.connector ∨
      (c.disconnect thread).connector = c.queueInLoop.connector := by
  unfold disconnect shutdown
  dsimp only
  split
  · exact Or.inl rfl
  · split
    · split
      · exact Or.inl rfl
      · exact Or.inr rfl
    · exact Or.inl rfl

theorem disconnect_fields (thread : Thread) : (c.disconnect thread).connect_ = false ∧
    (c.disconnect thread).nextConnId = c.nextConnId := by
  unfold disconnect shutdown queueInLoop
  dsimp only
  split
  · exact ⟨rfl, rfl⟩
  · split
    · split
      · exact ⟨rfl, rfl⟩
      · exact ⟨rfl, rfl⟩
    · exact ⟨rfl, rfl⟩

/-- The Connector of a client is in the invariant of its runs. -/
theorem step_inv (h : Inv c.connector) {i : Input} (hallow : Allowed c i)
    (hexec : exec c i = .ok c') : Inv c'.connector := by
  cases i with
  | connect thread a =>
    simp only [exec, connect, bind_pure_eq_ok] at hexec
    obtain ⟨connector, hstart, rfl⟩ := hexec
    exact ConnectorRuns.step_inv (i := .start thread a) h hallow hstart
  | disconnect thread =>
    cases hexec
    rcases disconnect_connector (c := c) thread with hsame | hqueued
    · rw [hsame]
      exact h
    · rw [hqueued]
      exact queueInLoop_inv h
  | stop thread =>
    simp only [exec, stop, bind_pure_eq_ok] at hexec
    obtain ⟨connector, hstop, rfl⟩ := hexec
    exact ConnectorRuns.step_inv (i := .stop thread) h hallow hstop
  | enableRetry =>
    cases hexec
    exact h
  | removeConnection connId a =>
    have hqueued := queueInLoop_inv h
    simp only [exec, removeConnection, bind_eq_ok] at hexec
    obtain ⟨-, -, hexec⟩ := hexec
    split at hexec
    · simp only [bind_pure_eq_ok] at hexec
      obtain ⟨connector, hrestart, rfl⟩ := hexec
      exact ConnectorRuns.step_inv (i := .restart a) hqueued hallow.1 hrestart
    · cases hexec
      exact hqueued
  | connector i =>
    simp only [exec, bind_pure_eq_ok] at hexec
    obtain ⟨connector, hstep, rfl⟩ := hexec
    rw [foldl_newConnection]
    exact ConnectorRuns.step_inv h hallow.1 hstep

theorem run_inv {past : List (TcpClient × Input)} (h : Run system past c) :
    (∀ p ∈ past, Inv p.1.connector) ∧ Inv c.connector := by
  refine (@Run.law_iff _ _ _ system Free (fun d => Inv d.connector) ?_ ?_ past c h).mpr
    fun _ _ => trivial
  · rintro _ ⟨connector, hfresh, rfl⟩
    exact initial_inv hfresh
  · intro d i d' _ hinv hallow hexec
    exact iff_of_true (step_inv hinv hallow hexec) trivial

end Invariant

section Stop

variable {c c' : TcpClient}

/-- Without a `connect`, the client stays stopped. -/
theorem Stopped.exec_keeps (h : Stopped c) {i : Input} (hallow : Allowed c i)
    (hi : i.IsConnect = false) (hexec : exec c i = .ok c') :
    Stopped c' ∧ Still c.connector.conn c'.connector.conn ∧ c'.nextConnId = c.nextConnId := by
  obtain ⟨hclient, hconnector⟩ := h
  cases i with
  | connect => cases hi
  | disconnect thread =>
    cases hexec
    obtain ⟨hflag, hnext⟩ := disconnect_fields (c := c) thread
    have hstill : Still c.connector.conn (c.disconnect thread).connector.conn := by
      rcases disconnect_connector (c := c) thread with hsame | hqueued
      · rw [hsame]
        exact ⟨rfl, rfl, Or.inl rfl⟩
      · rw [hqueued]
        exact ⟨rfl, rfl, Or.inl rfl⟩
    exact ⟨⟨hflag, hstill.wish.trans hconnector⟩, hstill, hnext⟩
  | stop thread =>
    simp only [exec, stop, bind_pure_eq_ok] at hexec
    obtain ⟨connector, hstop, rfl⟩ := hexec
    obtain ⟨hflag, hhanded, hchannel⟩ := stop_still hstop
    exact ⟨⟨rfl, hflag⟩, ⟨hflag.trans hconnector.symm, hhanded, Or.inl hchannel⟩, rfl⟩
  | enableRetry =>
    cases hexec
    exact ⟨⟨hclient, hconnector⟩, ⟨rfl, rfl, Or.inl rfl⟩, rfl⟩
  | removeConnection connId a =>
    simp only [exec, removeConnection, queueInLoop, bind_eq_ok, hclient, Bool.and_false,
      Bool.false_eq_true, if_false, pure_eq_ok, Except.ok.injEq] at hexec
    obtain ⟨-, -, rfl⟩ := hexec
    exact ⟨⟨rfl, hconnector⟩, ⟨rfl, rfl, Or.inl rfl⟩, rfl⟩
  | connector i =>
    simp only [exec, bind_pure_eq_ok] at hexec
    obtain ⟨connector, hstep, rfl⟩ := hexec
    have hstill := exec_unwanted hconnector hallow.1 hallow.2 hstep
    have hnone : handedOver c.connector connector = [] := by
      rw [handedOver, hstill.handed, Nat.sub_self, List.take_zero]
    rw [hnone]
    exact ⟨⟨hclient, hstill.wish.trans hconnector⟩, hstill, rfl⟩

/-- The executed Connector moves as its effects say, and they end sockets only. -/
theorem Stopped.unopened (h : Stopped c) (hinv : Inv c.connector) {i : Input}
    (hallow : Allowed c i) (hi : i.IsConnect = false) (hexec : exec c i = .ok c') :
    Unopened c.connector.conn c'.connector.conn := by
  cases i with
  | connect => cases hi
  | disconnect thread =>
    cases hexec
    rcases disconnect_connector (c := c) thread with hsame | hqueued
    · rw [hsame]
      exact Or.inl ⟨rfl, rfl⟩
    · rw [hqueued]
      exact Or.inl ⟨rfl, rfl⟩
  | stop thread =>
    simp only [exec, stop, bind_pure_eq_ok] at hexec
    obtain ⟨connector, hstop, rfl⟩ := hexec
    exact unopened_of_move (step_move (i := .stop thread) hinv hallow hstop)
      (by simp [ConnectorRuns.effects])
  | enableRetry =>
    cases hexec
    exact Or.inl ⟨rfl, rfl⟩
  | removeConnection connId a =>
    simp only [exec, removeConnection, queueInLoop, bind_eq_ok, h.client, Bool.and_false,
      Bool.false_eq_true, if_false, pure_eq_ok, Except.ok.injEq] at hexec
    obtain ⟨-, -, rfl⟩ := hexec
    exact Or.inl ⟨rfl, rfl⟩
  | connector i =>
    simp only [exec, bind_pure_eq_ok] at hexec
    obtain ⟨connector, hstep, rfl⟩ := hexec
    rw [foldl_newConnection]
    exact unopened_of_move (step_move hinv hallow.1 hstep)
      fun _ => effects_ending h.connector hallow.2

theorem Stopped.quiet (h : Stopped c) (hinv : Inv c.connector) {i : Input}
    (hallow : Allowed c i) (hi : i.IsConnect = false) : Quiet c i := by
  have hending : ∀ e ∈ effects c i, Ending e = true := by
    intro e he
    cases i with
    | connect => cases hi
    | disconnect | stop | enableRetry => simp [effects] at he
    | removeConnection connId a => simp [effects, h.client] at he
    | connector i => exact effects_ending h.connector hallow.2 he
  refine ⟨?_, ?_, ?_, ?_, ?_⟩
  · intro fd hfd
    cases hending _ hfd
  · intro fd hfd
    cases hending _ hfd
  · intro c' hexec
    obtain ⟨-, hstill, hnext⟩ := h.exec_keeps hallow hi hexec
    exact ⟨hstill.handed, hnext⟩
  · intro c' hexec
    exact h.unopened hinv hallow hi hexec
  · intro c' hexec
    exact (h.exec_keeps hallow hi hexec).2.1.channel

end Stop

/-- In every run, after a `stop` that is not followed by a `connect`, no step
invokes `newConnection` or opens a socket, be it one of the run or the next: not
in its effects and not in the executed `Connector`. -/
theorem stop_is_final {past : List (TcpClient × Input)} {c : TcpClient} (h : Run system past c)
    {before after : List (TcpClient × Input)} {c₀ : TcpClient} {thread : Thread}
    (hpast : past = before ++ (c₀, .stop thread) :: after)
    (hconnect : ∀ p ∈ after, p.2.IsConnect = false) :
    (∀ p ∈ after, Quiet p.1 p.2) ∧
      (∀ i, Allowed c i → i.IsConnect = false → Quiet c i) ∧
      c.connector.conn.handed = c₀.connector.conn.handed ∧ c.nextConnId = c₀.nextConnId := by
  obtain ⟨hinvs, hinv⟩ := run_inv h
  -- what `stop` establishes and every other step keeps
  let Kept := fun d : TcpClient => Stopped d ∧
    d.connector.conn.handed = c₀.connector.conn.handed ∧ d.nextConnId = c₀.nextConnId
  have hset : ∀ d, system.exec c₀ (.stop thread) = .ok d → Kept d := by
    intro d hexec
    simp only [system, exec, stop, bind_pure_eq_ok] at hexec
    obtain ⟨connector, hstop, rfl⟩ := hexec
    obtain ⟨hflag, hhanded, -⟩ := stop_still hstop
    exact ⟨⟨rfl, hflag⟩, hhanded, rfl⟩
  have hkeep : ∀ d i d', Kept d → system.allowed d i → i.IsConnect = false →
      system.exec d i = .ok d' → Kept d' := by
    rintro d i d' ⟨hstopped, hhanded, hnext⟩ hallow hi hexec
    obtain ⟨hstopped', hstill, hnext'⟩ := hstopped.exec_keeps hallow hi hexec
    exact ⟨hstopped', hstill.handed.trans hhanded, hnext'.trans hnext⟩
  obtain ⟨hafter, hstopped, hhanded, hnext⟩ := h.after hset hkeep hpast hconnect
  refine ⟨?_, ?_, hhanded, hnext⟩
  · intro p hp
    obtain ⟨⟨hp', -⟩, hallow⟩ := hafter p hp
    have hmem : p ∈ past := by
      rw [hpast]
      exact List.mem_append_right _ (List.mem_cons_of_mem _ hp)
    exact hp'.quiet (hinvs p hmem) hallow (hconnect p hp)
  · intro i hallow hi
    exact hstopped.quiet hinv hallow hi

def waitingToRetry : List Input :=
  [.enableRetry, .connect .loop ⟨7, some .ECONNREFUSED, 0, 16, 1000⟩, .connector .swapFunctors,
    .connector .endIteration, .connector (.poll none), .connector (.timers (.handleRead 600000))]

/-- The timer fires, and only then the functor that cancels it runs. -/
def timerFires : List Input :=
  [.connector (.runTimer ⟨8, none, 1, 32, 600000⟩), .connector (.timers .endCallbacks),
    .connector (.timers .resetTimer), .connector (.timers (.rearm 600000)),
    .connector .swapFunctors, .connector (.functor ⟨8, none, 1, 32, 700000⟩)]

theorem stopWhileWaiting_final : ∃ before after c₀ c,
    Run system (before ++ (c₀, .stop (.other 1)) :: after) c ∧
    after.map Prod.snd = timerFires ∧ c.connector.conn.closed = [7] ∧
    (∀ p ∈ after, Quiet p.1 p.2) ∧ c.nextConnId = c₀.nextConnId := by
  obtain ⟨past, c, hrun, hinputs, -, htest⟩ := exists_run_of_replay (M := system) Free
    ⟨created, created_fresh, rfl⟩ (waitingToRetry ++ .stop (.other 1) :: timerFires)
    (fun c => decide (c.connector.conn.closed = [7])) (by decide)
  obtain ⟨before, rest, rfl, -, hrest⟩ := List.map_eq_append_iff.mp hinputs
  obtain ⟨⟨c₀, i₀⟩, after, rfl, rfl, hafter⟩ := List.map_eq_cons_iff.mp hrest
  have hconnect : ∀ p ∈ after, p.2.IsConnect = false := by
    intro p hp
    have hmem : p.2 ∈ timerFires := by
      rw [← hafter]
      exact List.mem_map_of_mem hp
    have hall : ∀ i ∈ timerFires, i.IsConnect = false := by simp [timerFires, Input.IsConnect]
    exact hall p.2 hmem
  obtain ⟨hquiet, -, -, hnext⟩ := stop_is_final hrun rfl hconnect
  exact ⟨before, after, c₀, c, hrun, hafter, of_decide_eq_true htest, hquiet, hnext⟩

end TcpClient

end TinyMuduo
