import TinyMuduo.ConnectionRuns

/-!
Updates of a connection's Channel. `send` tests the state on the caller's
thread, but `sendInLoop` may run after `connectDestroyed` has removed the
Channel. Whatever such a late `sendInLoop` cannot write at once makes it ask
for write events on the removed Channel, whose index is still set: the
assertion of `updateChannel` fails. No other step of a connection updates a
removed Channel, and no step touches the entry of another Channel.
-/
namespace TinyMuduo.ConnectionRuns

open TcpConnection Poller Channel Checked Runs

def Input.own : Input → Bool
  | .otherChange _ _ | .otherRemove _ => false
  | _ => true

def UpdateSafe (s : State) (i : Input) : Prop :=
  ∀ e, exec s i = .error e → e.ofUpdate = false

/-- A `sendInLoop` that runs after `connectDestroyed` has nothing to keep: the
message is empty, or nothing is buffered and the socket takes all of it. -/
def LateSendFits (s : State) : Input → Prop
  | .functor r => ∀ m rest, s.conn.loop.functors = .sendInLoop m :: rest →
      s.conn.state = .kDisconnected →
      m.bytes = [] ∨ (s.conn.outputBuffer = [] ∧ r.taken m.bytes = some m.bytes.length)
  | _ => True

theorem change_error_ofUpdate {p : Poller} {c : ChannelId} {interest : Interest} {e : Fault}
    (h : p.change c interest = .error e) : e.ofUpdate = true :=
  updateChannel_error h

/-- While the connection is up no change of its Channel fails. -/
theorem Inv.no_change_error {s : State} (h : Inv s) (hup : Up s.conn) {interest : Interest}
    {e : Fault} : s.conn.poller.change s.conn.channel interest ≠ .error e := by
  obtain ⟨p, hp⟩ := h.placed.change_ok hup interest
  rw [hp]
  simp

theorem sendInLoop_error {c : TcpConnection} {m : Message} {r : WriteResult} {e : Fault}
    (h : c.sendInLoop m r = .error e) :
    c.nwrote m r < m.bytes.length ∧ c.poller.change c.channel .enableWriting = .error e := by
  rw [sendInLoop_eq] at h
  split at h
  · rename_i hleft
    have hchange := TcpConnection.change_error.mp h
    exact ⟨hleft.1, hchange⟩
  · simp at h

/-- Nothing is left over exactly when the message fits. -/
theorem nwrote_lt_iff {c : TcpConnection} {m : Message} {r : WriteResult}
    (hidle : c.isWriting = false) :
    c.nwrote m r < m.bytes.length ↔
      ¬ (m.bytes = [] ∨ (c.outputBuffer = [] ∧ r.taken m.bytes = some m.bytes.length)) := by
  have hpos : 0 < m.bytes.length ↔ m.bytes ≠ [] := List.length_pos_iff
  by_cases hbuffer : c.outputBuffer = []
  · have hn : c.nwrote m r = (r.taken m.bytes).getD 0 := by simp [nwrote, hidle, hbuffer]
    rw [hn]
    cases r with
    | error => simp [WriteResult.taken, hpos]
    | count n =>
      simp only [WriteResult.taken, Option.getD_some, Option.some.injEq, hbuffer, true_and,
        not_or]
      rw [← ne_eq, ← hpos]
      omega
  · have hn : c.nwrote m r = 0 := by simp [nwrote, hbuffer]
    simp [hn, hbuffer, hpos]

theorem handle_error {s : State} (h : Inv s) {read : ReadResult} {write : WriteResult}
    {cb : Callback} (hup : Up s.conn) {e : Fault}
    (hexec : s.conn.handle read write cb = .error e) :
    (s.conn.owner = .server false ∧ e = .connectionMapErase) ∨
      (s.conn.owner = .client false ∧ e = .clientConnection) := by
  have close : s.conn.handleClose = .error e →
      (s.conn.owner = .server false ∧ e = .connectionMapErase) ∨
        (s.conn.owner = .client false ∧ e = .clientConnection) := by
    intro hclose
    rcases handleClose_error hclose with ⟨hdown, -⟩ | hchange | howner
    · exact absurd hup hdown
    · exact absurd hchange (h.no_change_error hup)
    · exact howner
  cases cb with
  | close => exact close hexec
  | error => simp [handle] at hexec
  | read =>
    cases read with
    | eof => exact close hexec
    | data first rest => simp [handle, handleRead] at hexec
    | error => simp [handle, handleRead] at hexec
  | write => exact absurd (handleWrite_error hexec).2 (h.no_change_error hup)

/-- `connectDestroyed` can fail only in its assertion of the state. -/
theorem Inv.connectDestroyed_error {s : State} (h : Inv s) {e : Fault}
    (hexec : s.conn.connectDestroyed = .error e) : ¬ Up s.conn ∧ e = .destroyState := by
  rcases TcpConnection.connectDestroyed_error hexec with
    hdown | ⟨hup, hchange | ⟨p, hp, hremove⟩⟩
  · exact hdown
  · exact absurd hchange (h.no_change_error hup)
  · obtain ⟨q, hq⟩ := h.placed.remove_ok hup hp
    simp [hq] at hremove

/-- A `sendInLoop` fails exactly when it keeps bytes of a removed connection,
and then in `updateChannel`. -/
theorem Inv.sendInLoop_safe {s : State} (h : Inv s) (hstate : s.conn.state ≠ .kConnecting)
    (m : Message) (r : WriteResult) :
    (∀ e, s.conn.sendInLoop m r = .error e → e.ofUpdate = false) ↔
      (s.conn.state = .kDisconnected →
        m.bytes = [] ∨ (s.conn.outputBuffer = [] ∧ r.taken m.bytes = some m.bytes.length)) := by
  constructor
  · intro hsafe hgone
    have hidle : s.conn.isWriting = false := (h.placed.gone hgone).2
    by_contra hkeep
    have hleft := (nwrote_lt_iff hidle).mpr hkeep
    cases hexec : s.conn.sendInLoop m r with
    | error e =>
      have hfault := hsafe e hexec
      rw [change_error_ofUpdate (sendInLoop_error hexec).2] at hfault
      simp at hfault
    | ok c =>
      rw [sendInLoop_eq, if_pos ⟨hleft, hidle⟩] at hexec
      obtain ⟨p, hp, -⟩ := TcpConnection.change_ok.mp hexec
      have hup := h.placed.up_of_change hstate hp
      simp [hgone] at hup
  · intro hfits e hexec
    obtain ⟨hleft, hchange⟩ := sendInLoop_error hexec
    exfalso
    by_cases hup : Up s.conn
    · exact h.no_change_error hup hchange
    · have hgone : s.conn.state = .kDisconnected := by
        unfold Up at hup
        cases hs : s.conn.state <;> simp_all
      have hidle : s.conn.isWriting = false := (h.placed.gone hgone).2
      exact (nwrote_lt_iff hidle).mp hleft (hfits hgone)

/-- From every reachable state, a step of the connection fails in
`updateChannel` exactly when it is a late `sendInLoop` that keeps bytes. -/
theorem Inv.updateSafe_iff {s : State} (h : Inv s) {i : Input} (hallow : Allowed s i)
    (hown : i.own = true) : UpdateSafe s i ↔ LateSendFits s i := by
  unfold UpdateSafe
  have owner_safe : ∀ {e : Fault}, (s.conn.owner = .server false ∧ e = .connectionMapErase) ∨
      (s.conn.owner = .client false ∧ e = .clientConnection) → e.ofUpdate = false := by
    rintro e (⟨-, rfl⟩ | ⟨-, rfl⟩) <;> rfl
  cases i with
  | connectEstablished =>
    refine ⟨fun _ => trivial, fun _ e hexec => ?_⟩
    have hstate : s.conn.state = .kConnecting := hallow
    have hplaced := h.placed
    rw [hstate] at hplaced
    obtain ⟨p, hp⟩ := hplaced.establish_ok
    simp [exec, connectEstablished, TcpConnection.change, hstate, require, hp] at hexec
  | send thread bytes r =>
    refine ⟨fun _ => trivial, fun _ e hexec => ?_⟩
    simp only [exec, bind_pure_eq_error] at hexec
    unfold TcpConnection.send at hexec
    split at hexec
    · rename_i hstate
      dsimp only at hexec
      split at hexec
      · exact absurd (sendInLoop_error hexec).2 (h.no_change_error (Or.inl hstate))
      · simp at hexec
    · simp at hexec
  | callback read write =>
    refine ⟨fun _ => trivial, fun _ e hexec => ?_⟩
    obtain ⟨cb, rest, hcurrent⟩ := List.exists_cons_of_ne_nil hallow.2
    simp only [exec, hcurrent, bind_pure_eq_error] at hexec
    exact owner_safe (handle_error h (h.busy hallow.2).2 hexec)
  | functor r =>
    obtain ⟨hstate, -, hfunctors⟩ := hallow
    have hpop : Inv { s with conn := { s.conn with loop := s.conn.loop.popFunctor } } :=
      h.same ⟨rfl, rfl, rfl, rfl⟩ (fun hne => hne)
    obtain ⟨f, rest, hf⟩ := List.exists_cons_of_ne_nil hfunctors
    simp only [exec, hf, bind_eq_error, pure_eq_ok, reduceCtorEq, and_false, exists_false,
      or_false, LateSendFits]
    cases f with
    | sendInLoop m =>
      have hiff := hpop.sendInLoop_safe hstate m r
      constructor
      · intro hsafe m' rest' heq hgone
        obtain ⟨rfl, -⟩ : m = m' ∧ rest = rest' := by simpa using heq
        exact hiff.mp hsafe hgone
      · intro hfits
        exact hiff.mpr (fun hgone => hfits m rest rfl hgone)
    | connectDestroyed =>
      refine ⟨fun _ m' rest' heq => by simp at heq, fun _ e hexec => ?_⟩
      obtain ⟨-, rfl⟩ := hpop.connectDestroyed_error hexec
      rfl
    | shutdownInLoop | writeComplete | other =>
      refine ⟨fun _ m' rest' heq => by simp at heq, fun _ e hexec => ?_⟩
      simp [call] at hexec
  | otherChange d interest => simp [Input.own] at hown
  | otherRemove d => simp [Input.own] at hown
  | poll revents =>
    refine ⟨fun _ => trivial, fun _ e hexec => ?_⟩
    cases revents <;> simp [exec] at hexec
  | shutdown | queueOther | swapFunctors | endIteration | destroyClient =>
    refine ⟨fun _ => trivial, fun _ e hexec => ?_⟩
    simp [exec] at hexec

inductive PollerStep (p : Poller) (c : ChannelId) : Poller → Prop
  | same : PollerStep p c p
  | changed {p' : Poller} (interest : Interest) : p.change c interest = .ok p' →
      PollerStep p c p'
  | removed {p' q : Poller} : p.change c .disableAll = .ok p' → p'.removeChannel c = .ok q →
      PollerStep p c q

/-- None of these steps touches the entry of another Channel. -/
theorem PollerStep.entries {p p' : Poller} {c : ChannelId} (h : PollerStep p c p')
    (htable : Table p) {d : ChannelId} (hne : d ≠ c) (pfd : PollFd) :
    p'.Entry d pfd ↔ p.Entry d pfd := by
  cases h with
  | same => exact Iff.rfl
  | changed interest hchange => exact (change_changed htable hchange).entries d pfd hne
  | removed hchange hremove =>
    have hch := change_changed htable hchange
    rw [(removeChannel_removed hch.table hremove).entries d pfd, hch.entries d pfd hne]
    exact and_iff_right hne

/-- They keep the events that were reported for the Channel. -/
theorem PollerStep.revents {p p' : Poller} {c : ChannelId} (h : PollerStep p c p')
    (htable : Table p) : (p'.channels c).revents = (p.channels c).revents := by
  cases h with
  | same => rfl
  | changed interest hchange => exact (change_changed htable hchange).revents c
  | removed hchange hremove =>
    have hch := change_changed htable hchange
    exact ((removeChannel_removed hch.table hremove).revents c).trans (hch.revents c)

theorem sendInLoop_pollerStep {c c' : TcpConnection} {m : Message} {r : WriteResult}
    (h : c.sendInLoop m r = .ok c') :
    c'.channel = c.channel ∧ PollerStep c.poller c.channel c'.poller := by
  rw [sendInLoop_eq] at h
  split at h
  · obtain ⟨p, hp, rfl⟩ := TcpConnection.change_ok.mp h
    exact ⟨rfl, .changed _ hp⟩
  · rw [Except.ok.injEq] at h
    subst h
    exact ⟨rfl, .same⟩

theorem handle_pollerStep {c c' : TcpConnection} {read : ReadResult} {write : WriteResult}
    {cb : Callback} (h : c.handle read write cb = .ok c') :
    c'.channel = c.channel ∧ PollerStep c.poller c.channel c'.poller := by
  have close : c.handleClose = .ok c' →
      c'.channel = c.channel ∧ PollerStep c.poller c.channel c'.poller := by
    intro hclose
    obtain ⟨-, p, owner, hp, rfl, -⟩ := handleClose_cases hclose
    exact ⟨rfl, .changed _ hp⟩
  cases cb with
  | close => exact close h
  | error =>
    rw [handle, Except.ok.injEq] at h
    subst h
    exact ⟨rfl, .same⟩
  | read =>
    cases read with
    | eof => exact close h
    | data first rest =>
      rw [handle, handleRead, Except.ok.injEq] at h
      subst h
      exact ⟨rfl, .same⟩
    | error =>
      rw [handle, handleRead, Except.ok.injEq] at h
      subst h
      exact ⟨rfl, .same⟩
  | write =>
    rcases handleWrite_cases h with ⟨rfl, -⟩ | ⟨n, -, -, rfl⟩ | ⟨-, -, -, p, hp, rfl⟩
    · exact ⟨rfl, .same⟩
    · exact ⟨rfl, .same⟩
    · have hsame := same_finished (drained c p)
      rw [hsame.poller, hsame.channel]
      exact ⟨rfl, .changed _ hp⟩

theorem call_pollerStep {c c' : TcpConnection} {r : WriteResult} {f : Functor}
    (h : c.call r f = .ok c') :
    c'.channel = c.channel ∧ PollerStep c.poller c.channel c'.poller := by
  cases f with
  | sendInLoop m => exact sendInLoop_pollerStep h
  | shutdownInLoop =>
    rw [call, Except.ok.injEq] at h
    subst h
    have hsame := same_shutdownInLoop c
    rw [hsame.poller, hsame.channel]
    exact ⟨rfl, .same⟩
  | connectDestroyed =>
    obtain ⟨-, p, q, hp, hq, rfl⟩ := connectDestroyed_cases h
    exact ⟨rfl, .removed hp hq⟩
  | writeComplete | other =>
    rw [call, Except.ok.injEq] at h
    subst h
    exact ⟨rfl, .same⟩

theorem send_pollerStep {c c' : TcpConnection} {thread : Thread} {bytes : Bytes}
    {r : WriteResult} (h : c.send thread bytes r = .ok c') :
    c'.channel = c.channel ∧ PollerStep c.poller c.channel c'.poller := by
  unfold TcpConnection.send at h
  split at h
  · dsimp only at h
    split at h
    · have hstep := sendInLoop_pollerStep h
      exact hstep
    · rw [Except.ok.injEq] at h
      subst h
      exact ⟨rfl, .same⟩
  · rw [Except.ok.injEq] at h
    subst h
    exact ⟨rfl, .same⟩

theorem shutdown_pollerStep (c : TcpConnection) (thread : Thread) :
    (c.shutdown thread).channel = c.channel ∧
      PollerStep c.poller c.channel (c.shutdown thread).poller := by
  simp only [TcpConnection.shutdown]
  split
  · split
    · have hsame := same_shutdownInLoop
        { c with closers := c.closers ++ [thread], state := .kDisconnecting }
      rw [hsame.poller, hsame.channel]
      exact ⟨rfl, .same⟩
    · exact ⟨rfl, .same⟩
  · exact ⟨rfl, .same⟩

def Input.inside : Input → Bool
  | .poll _ | .otherChange _ _ | .otherRemove _ => false
  | _ => true

theorem step_pollerStep {s s' : State} {i : Input} (hinside : i.inside = true)
    (hexec : exec s i = .ok s') :
    s'.conn.channel = s.conn.channel ∧
      PollerStep s.conn.poller s.conn.channel s'.conn.poller := by
  cases i with
  | connectEstablished =>
    simp only [exec, connectEstablished, bind_eq_ok, TcpConnection.change_ok, pure_eq_ok,
      Except.ok.injEq] at hexec
    obtain ⟨conn, ⟨-, -, c1, ⟨p, hp, rfl⟩, rfl⟩, rfl⟩ := hexec
    exact ⟨rfl, .changed _ hp⟩
  | send thread bytes r =>
    simp only [exec, bind_pure_eq_ok] at hexec
    obtain ⟨conn, hsend, rfl⟩ := hexec
    exact send_pollerStep hsend
  | shutdown thread =>
    rw [exec, Except.ok.injEq] at hexec
    subst hexec
    exact shutdown_pollerStep s.conn thread
  | callback read write =>
    simp only [exec] at hexec
    split at hexec
    · rw [Except.ok.injEq] at hexec
      subst hexec
      exact ⟨rfl, .same⟩
    · simp only [bind_eq_ok, pure_eq_ok, Except.ok.injEq] at hexec
      obtain ⟨conn, hhandle, rfl⟩ := hexec
      exact handle_pollerStep hhandle
  | functor r =>
    simp only [exec] at hexec
    split at hexec
    · rw [Except.ok.injEq] at hexec
      subst hexec
      exact ⟨rfl, .same⟩
    · simp only [bind_eq_ok, pure_eq_ok, Except.ok.injEq] at hexec
      obtain ⟨conn, hcall, rfl⟩ := hexec
      have hstep := call_pollerStep hcall
      exact hstep
  | poll revents => simp [Input.inside] at hinside
  | otherChange d interest => simp [Input.inside] at hinside
  | otherRemove d => simp [Input.inside] at hinside
  | queueOther | swapFunctors | endIteration | destroyClient =>
    rw [exec, Except.ok.injEq] at hexec
    subst hexec
    exact ⟨rfl, .same⟩

theorem step_entries {s s' : State} (htable : Table s.conn.poller) {i : Input}
    (hown : i.own = true) (hexec : exec s i = .ok s') {d : ChannelId}
    (hne : d ≠ s.conn.channel) (pfd : PollFd) :
    s'.conn.poller.Entry d pfd ↔ s.conn.poller.Entry d pfd := by
  cases hinside : i.inside with
  | true => exact (step_pollerStep hinside hexec).2.entries htable hne pfd
  | false =>
    cases i with
    | poll revents =>
      cases revents <;> rw [exec, Except.ok.injEq] at hexec <;> subst hexec
      · exact Iff.rfl
      · unfold Entry Registered
        simp [Poller.setRevents, hne]
    | otherChange d interest => simp [Input.own] at hown
    | otherRemove d => simp [Input.own] at hown
    | _ => simp [Input.inside] at hinside

/-- In every state of every run, a step of the connection passes the assertions
of `updateChannel` exactly when it is not a late `sendInLoop` that keeps bytes,
and it leaves the entries of all other Channels as they are. -/
theorem connection_updates_iff {s : State} (h : Reachable system s) {i : Input}
    (hallow : Allowed s i) (hown : i.own = true) :
    (UpdateSafe s i ↔ LateSendFits s i) ∧
      ∀ s', exec s i = .ok s' → ∀ d pfd, d ≠ s.conn.channel →
        (s'.conn.poller.Entry d pfd ↔ s.conn.poller.Entry d pfd) := by
  have hinv := reach_inv h
  refine ⟨hinv.updateSafe_iff hallow hown, ?_⟩
  intro s' hexec d pfd hne
  exact step_entries hinv.placed.table hown hexec hne pfd

/-- The peer closes the connection and another thread sends while
`connectDestroyed` is queued. -/
def sendAfterClose : List Input :=
  [.connectEstablished, .swapFunctors, .endIteration, .poll (some pollIn),
    .callback .eof .error, .send (.other 1) [1, 2] .error, .swapFunctors, .functor .error]

theorem sendAfterClose_stale : ¬ ∀ s, Reachable system s → ∀ i, Allowed s i → i.own = true →
    UpdateSafe s i := by
  intro hall
  obtain ⟨s, hs, htest⟩ := exists_of_replay (M := system) Free accepted_fresh sendAfterClose
    (fun s => decide (system.allowed s (.functor .error)) &&
      match exec s (.functor .error) with
      | .error e => e.ofUpdate
      | .ok _ => false) (by decide)
  simp only [Bool.and_eq_true, decide_eq_true_eq] at htest
  obtain ⟨hallow, hfault⟩ := htest
  have hsafe := hall s hs (.functor .error) hallow rfl
  split at hfault
  · rename_i e hexec
    rw [hsafe e hexec] at hfault
    simp at hfault
  · simp at hfault

/-- The same order of steps with a socket that takes the whole late message. -/
theorem sendAfterClose_fits : ∃ s, Reachable system s ∧ s.conn.state = .kDisconnected ∧
    Allowed s (.functor (.count 2)) ∧ UpdateSafe s (.functor (.count 2)) := by
  obtain ⟨s, hs, htest⟩ := exists_of_replay (M := system) Free accepted_fresh sendAfterClose
    (fun s => decide (s.conn.state = .kDisconnected ∧ system.allowed s (.functor (.count 2)) ∧
      s.conn.loop.functors = [.sendInLoop ⟨0, .other 1, [1, 2]⟩] ∧ s.conn.outputBuffer = []))
    (by decide)
  obtain ⟨hgone, hallow, hfunctors, hbuffer⟩ := of_decide_eq_true htest
  refine ⟨s, hs, hgone, hallow,
    (connection_updates_iff hs (i := .functor (.count 2)) hallow rfl).1.mpr ?_⟩
  intro m rest heq _
  obtain ⟨rfl, -⟩ : (⟨0, .other 1, [1, 2]⟩ : Message) = m ∧ [] = rest := by
    simpa [hfunctors] using heq
  exact Or.inr ⟨hbuffer, rfl⟩

end TinyMuduo.ConnectionRuns
