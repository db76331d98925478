import TinyMuduo.Lib.Runs
import TinyMuduo.PollerTable
import TinyMuduo.TcpConnection

/-!
Runs of a TcpConnection. Any thread calls `send` and `shutdown`; the loop
thread polls, dispatches the events reported for the connection's Channel one
callback after the other, and calls the queued functors in their order. Other
Channels are registered, changed and removed in between. In every run the
Channel is registered exactly while the connection is up, callbacks are
dispatched only to a registered Channel, and the connection's steps leave the
entries of all other Channels as they are.
-/
namespace TinyMuduo.ConnectionRuns

open TcpConnection Poller Channel Checked Runs

structure State where
  conn : TcpConnection
  current : List Callback

inductive Input
  | connectEstablished
  | send (thread : Thread) (bytes : Bytes) (r : WriteResult)
  | shutdown (thread : Thread)
  | queueOther
  | poll (revents : Option EventMask)
  | callback (read : ReadResult) (write : WriteResult)
  | swapFunctors
  | functor (r : WriteResult)
  | endIteration
  | destroyClient
  | otherChange (d : ChannelId) (interest : Interest)
  | otherRemove (d : ChannelId)

def dispatch (revents : EventMask) : List Callback := handleEvent (fun _ => true) revents

/-- The order of the loop thread's steps. Events are reported for a registered
Channel with some interest, and the descriptor of the connection's socket
belongs to no other Channel. -/
def Allowed (s : State) : Input → Prop
  | .connectEstablished => s.conn.state = .kConnecting
  | .send _ _ _ | .shutdown _ | .queueOther => s.conn.state ≠ .kConnecting
  | .poll none => s.conn.state ≠ .kConnecting ∧ s.conn.loop.phase = .polling
  | .poll (some _) => s.conn.state ≠ .kConnecting ∧ s.conn.loop.phase = .polling ∧
      s.conn.poller.Registered s.conn.channel ∧ s.conn.ownChannel.events ≠ kNoneEvent
  | .callback _ _ => s.conn.state ≠ .kConnecting ∧ s.current ≠ []
  | .swapFunctors =>
      s.conn.state ≠ .kConnecting ∧ s.conn.loop.phase = .handling ∧ s.current = []
  | .functor _ => s.conn.state ≠ .kConnecting ∧ s.conn.loop.phase = .calling ∧
      s.conn.loop.functors ≠ []
  | .endIteration => s.conn.state ≠ .kConnecting ∧ s.conn.loop.phase = .calling ∧
      s.conn.loop.functors = []
  | .destroyClient => s.conn.state ≠ .kConnecting ∧ s.conn.owner = .client true
  | .otherChange d _ => d ≠ s.conn.channel ∧ (s.conn.poller.channels d).fd ≠ s.conn.ownChannel.fd
  | .otherRemove d => d ≠ s.conn.channel

/-- `~TcpClient` gives the connection a `closeCallback` that does not refer to
the client. -/
def exec (s : State) : Input → Except Fault State
  | .connectEstablished => do
      let conn ← s.conn.connectEstablished
      return { s with conn := conn }
  | .send thread bytes r => do
      let conn ← s.conn.send thread bytes r
      return { s with conn := conn }
  | .shutdown thread => .ok { s with conn := s.conn.shutdown thread }
  | .queueOther => .ok { s with conn := s.conn.queueInLoop .other }
  | .poll none => .ok { s with conn := { s.conn with loop := s.conn.loop.handleActive } }
  | .poll (some revents) =>
      .ok { conn := { s.conn with loop := s.conn.loop.handleActive
                                  poller := s.conn.poller.setRevents s.conn.channel revents }
            current := dispatch revents }
  | .callback read write =>
      match s.current with
      | [] => .ok s
      | cb :: rest => do
          let conn ← s.conn.handle read write cb
          return { conn := conn, current := rest }
  | .swapFunctors => .ok { s with conn := { s.conn with loop := s.conn.loop.swapFunctors } }
  | .functor r =>
      match s.conn.loop.functors with
      | [] => .ok s
      | cb :: _ => do
          let conn ← { s.conn with loop := s.conn.loop.popFunctor }.call r cb
          return { s with conn := conn }
  | .endIteration => .ok { s with conn := { s.conn with loop := s.conn.loop.endIteration } }
  | .destroyClient => .ok { s with conn := { s.conn with owner := .detached } }
  | .otherChange d interest => do
      let poller ← s.conn.poller.change d interest
      return { s with conn := { s.conn with poller := poller } }
  | .otherRemove d => do
      let poller ← s.conn.poller.removeChannel d
      return { s with conn := { s.conn with poller := poller } }

/-- A connection that was just constructed for a new socket, in a loop with any
other Channels. -/
def Fresh (s : State) : Prop :=
  ∃ poller channel fd writeCompleteCallback owner,
    Table poller ∧ poller.channels channel = Channel.construct fd ∧
    poller.channelMap.find fd = none ∧ (owner = .server true ∨ owner = .client true) ∧
    s = ⟨TcpConnection.construct poller channel writeCompleteCallback owner, []⟩

def system : System State Input Fault where
  start := Fresh
  allowed := Allowed
  exec := exec

instance (s : State) : (i : Input) → Decidable (system.allowed s i)
  | .connectEstablished => inferInstanceAs (Decidable (s.conn.state = .kConnecting))
  | .send _ _ _ | .shutdown _ | .queueOther =>
      inferInstanceAs (Decidable (s.conn.state ≠ .kConnecting))
  | .poll none => inferInstanceAs
      (Decidable (s.conn.state ≠ .kConnecting ∧ s.conn.loop.phase = .polling))
  | .poll (some _) => inferInstanceAs
      (Decidable (s.conn.state ≠ .kConnecting ∧ s.conn.loop.phase = .polling ∧
        s.conn.poller.Registered s.conn.channel ∧ s.conn.ownChannel.events ≠ kNoneEvent))
  | .callback _ _ => inferInstanceAs
      (Decidable (s.conn.state ≠ .kConnecting ∧ s.current ≠ []))
  | .swapFunctors => inferInstanceAs (Decidable (s.conn.state ≠ .kConnecting ∧
      s.conn.loop.phase = .handling ∧ s.current = []))
  | .functor _ => inferInstanceAs (Decidable (s.conn.state ≠ .kConnecting ∧
      s.conn.loop.phase = .calling ∧ s.conn.loop.functors ≠ []))
  | .endIteration => inferInstanceAs (Decidable (s.conn.state ≠ .kConnecting ∧
      s.conn.loop.phase = .calling ∧ s.conn.loop.functors = []))
  | .destroyClient => inferInstanceAs
      (Decidable (s.conn.state ≠ .kConnecting ∧ s.conn.owner = .client true))
  | .otherChange d _ => inferInstanceAs (Decidable (d ≠ s.conn.channel ∧
      (s.conn.poller.channels d).fd ≠ s.conn.ownChannel.fd))
  | .otherRemove d => inferInstanceAs (Decidable (d ≠ s.conn.channel))

inductive Step (s : State) : Input → State → Prop
  | connectEstablished {conn} (hestablish : s.conn.connectEstablished = .ok conn) :
      Step s .connectEstablished { s with conn := conn }
  | send {thread bytes r conn} (hsend : s.conn.send thread bytes r = .ok conn) :
      Step s (.send thread bytes r) { s with conn := conn }
  | shutdown (thread) : Step s (.shutdown thread) { s with conn := s.conn.shutdown thread }
  | queueOther : Step s .queueOther { s with conn := s.conn.queueInLoop .other }
  | pollTimeout :
      Step s (.poll none) { s with conn := { s.conn with loop := s.conn.loop.handleActive } }
  | poll (revents) : Step s (.poll (some revents))
      { conn := { s.conn with
          loop := s.conn.loop.handleActive
          poller := s.conn.poller.setRevents s.conn.channel revents }
        current := dispatch revents }
  | callback {read write cb rest conn} (hcurrent : s.current = cb :: rest)
      (hhandle : s.conn.handle read write cb = .ok conn) :
      Step s (.callback read write) { conn := conn, current := rest }
  | swapFunctors :
      Step s .swapFunctors { s with conn := { s.conn with loop := s.conn.loop.swapFunctors } }
  | functor {r f rest conn} (hf : s.conn.loop.functors = f :: rest)
      (hcall : { s.conn with loop := s.conn.loop.popFunctor }.call r f = .ok conn) :
      Step s (.functor r) { s with conn := conn }
  | endIteration :
      Step s .endIteration { s with conn := { s.conn with loop := s.conn.loop.endIteration } }
  | destroyClient : Step s .destroyClient { s with conn := { s.conn with owner := .detached } }
  | otherChange {d interest p} (hp : s.conn.poller.change d interest = .ok p) :
      Step s (.otherChange d interest) { s with conn := { s.conn with poller := p } }
  | otherRemove {d p} (hp : s.conn.poller.removeChannel d = .ok p) :
      Step s (.otherRemove d) { s with conn := { s.conn with poller := p } }

theorem step_of_exec {s s' : State} {i : Input} (hallow : Allowed s i)
    (hexec : exec s i = .ok s') : Step s i s' := by
  cases i with
  | connectEstablished =>
    obtain ⟨conn, hestablish, rfl⟩ := bind_pure_eq_ok.mp hexec
    exact .connectEstablished hestablish
  | send thread bytes r =>
    obtain ⟨conn, hsend, rfl⟩ := bind_pure_eq_ok.mp hexec
    exact .send hsend
  | shutdown thread =>
    obtain rfl := Except.ok.inj hexec
    exact .shutdown thread
  | queueOther =>
    obtain rfl := Except.ok.inj hexec
    exact .queueOther
  | poll revents =>
    cases revents with
    | none =>
      obtain rfl := Except.ok.inj hexec
      exact .pollTimeout
    | some revents =>
      obtain rfl := Except.ok.inj hexec
      exact .poll revents
  | callback read write =>
    obtain ⟨cb, rest, hcurrent⟩ := List.exists_cons_of_ne_nil hallow.2
    simp only [exec, hcurrent, bind_pure_eq_ok] at hexec
    obtain ⟨conn, hhandle, rfl⟩ := hexec
    exact .callback hcurrent hhandle
  | swapFunctors =>
    obtain rfl := Except.ok.inj hexec
    exact .swapFunctors
  | functor r =>
    obtain ⟨f, rest, hf⟩ := List.exists_cons_of_ne_nil hallow.2.2
    simp only [exec, hf, bind_pure_eq_ok] at hexec
    obtain ⟨conn, hcall, rfl⟩ := hexec
    exact .functor hf hcall
  | endIteration =>
    obtain rfl := Except.ok.inj hexec
    exact .endIteration
  | destroyClient =>
    obtain rfl := Except.ok.inj hexec
    exact .destroyClient
  | otherChange d interest =>
    obtain ⟨p, hp, rfl⟩ := bind_pure_eq_ok.mp hexec
    exact .otherChange hp
  | otherRemove d =>
    obtain ⟨p, hp, rfl⟩ := bind_pure_eq_ok.mp hexec
    exact .otherRemove hp

theorem connectEstablished_ok {c c' : TcpConnection} (h : c.connectEstablished = .ok c') :
    ∃ p, c.poller.change c.channel .enableReading = .ok p ∧
      c' = { c with state := .kConnected, poller := p, ups := c.ups + 1 } := by
  simp only [connectEstablished, bind_eq_ok, require_eq_ok, TcpConnection.change_ok, pure_eq_ok,
    Except.ok.injEq] at h
  obtain ⟨-, -, c₁, ⟨p, hp, rfl⟩, rfl⟩ := h
  exact ⟨p, hp, rfl⟩

/-- Where the connection's Channel is in the Poller: not there yet, registered
while the connection is up, and gone with no write interest afterwards. -/
structure Placed (p : Poller) (c : ChannelId) (state : StateE) : Prop where
  table : Table p
  fresh : state = .kConnecting →
    (p.channels c).index < 0 ∧ p.channelMap.find (p.channels c).fd = none
  registered : p.Registered c ↔ state = .kConnected ∨ state = .kDisconnecting
  gone : state = .kDisconnected → 0 ≤ (p.channels c).index ∧ (p.channels c).isWriting = false

namespace Placed

variable {p p' : Poller} {c d : ChannelId} {state : StateE}

theorem not_mapped (h : Table p) {fd : ℤ} (hnone : ∀ x, p.Registered x → (p.channels x).fd ≠ fd) :
    p.channelMap.find fd = none := by
  cases hfind : p.channelMap.find fd with
  | none => rfl
  | some x =>
    have hkey := h.keyed fd x hfind
    subst hkey
    exact absurd rfl (hnone x hfind)

theorem change_ok (h : Placed p c state) (hup : state = .kConnected ∨ state = .kDisconnecting)
    (interest : Interest) : ∃ p', p.change c interest = .ok p' :=
  change_registered h.table (h.registered.mpr hup) interest

theorem establish_ok (h : Placed p c .kConnecting) :
    ∃ p', p.change c .enableReading = .ok p' := by
  obtain ⟨hindex, hnone⟩ := h.fresh rfl
  refine updateChannel_ok (h.table.setEvents c _) (Or.inl ⟨?_, ?_⟩)
  · rw [setEvents_index]
    exact hindex
  · rw [setEvents_fd, setEvents_channelMap]
    exact hnone

/-- An update of a removed Channel fails: its index is still there and its
descriptor is not. -/
theorem up_of_change (h : Placed p c state) (hstate : state ≠ .kConnecting)
    {interest : Interest} (hexec : p.change c interest = .ok p') :
    state = .kConnected ∨ state = .kDisconnecting := by
  have hch := change_changed h.table hexec
  obtain ⟨-, -, -, ⟨hneg, -, -⟩ | ⟨old, hold, -⟩⟩ := hch.own
  · cases state with
    | kConnecting => exact absurd rfl hstate
    | kConnected => exact Or.inl rfl
    | kDisconnecting => exact Or.inr rfl
    | kDisconnected =>
      have := (h.gone rfl).1
      omega
  · exact h.registered.mp hold.1

theorem remove_ok (h : Placed p c state) (hup : state = .kConnected ∨ state = .kDisconnecting)
    (hexec : p.change c .disableAll = .ok p') : ∃ q, p'.removeChannel c = .ok q :=
  removeChannel_disabled h.table (h.registered.mpr hup) hexec

theorem establish (h : Placed p c .kConnecting) (hexec : p.change c .enableReading = .ok p') :
    Placed p' c .kConnected := by
  have hch := change_changed h.table hexec
  refine ⟨hch.table, by simp, ?_, by simp⟩
  simp [hch.registered c]

theorem change (h : Placed p c state) (hup : state = .kConnected ∨ state = .kDisconnecting)
    {interest : Interest} (hexec : p.change c interest = .ok p') : Placed p' c state := by
  have hch := change_changed h.table hexec
  refine ⟨hch.table, ?_, ?_, ?_⟩
  · rintro rfl
    simp at hup
  · simp [hch.registered c, hup]
  · rintro rfl
    simp at hup

theorem shutdown (h : Placed p c .kConnected) : Placed p c .kDisconnecting := by
  have hreg := h.registered
  refine ⟨h.table, by simp, ?_, by simp⟩
  simpa using hreg

theorem destroy (h : Placed p c state) {q : Poller} (hexec : p.change c .disableAll = .ok p')
    (hremove : p'.removeChannel c = .ok q) : Placed q c .kDisconnected := by
  have hch := change_changed h.table hexec
  have hrm := removeChannel_removed hch.table hremove
  refine ⟨hrm.table, by simp, ?_, ?_⟩
  · simp [hrm.registered c]
  · intro _
    rw [hrm.own]
    refine ⟨?_, isWriting_apply .disableAll hch.events⟩
    obtain ⟨i, -, hi, -⟩ := removeChannel_cases hremove
    omega

theorem otherChange (h : Placed p c state) (hne : d ≠ c)
    (hfd : (p.channels d).fd ≠ (p.channels c).fd) {interest : Interest}
    (hexec : p.change d interest = .ok p') : Placed p' c state := by
  have hch := change_changed h.table hexec
  have hsame : p'.channels c = p.channels c := hch.others c (Ne.symm hne)
  refine ⟨hch.table, ?_, ?_, ?_⟩
  · intro hstate
    obtain ⟨hindex, hnone⟩ := h.fresh hstate
    rw [hsame]
    refine ⟨hindex, not_mapped hch.table ?_⟩
    intro x hx hkey
    rw [hch.fds] at hkey
    rcases (hch.registered x).mp hx with rfl | hx
    · exact hfd (by exact_mod_cast hkey)
    · rw [Registered, hkey, hnone] at hx
      simp at hx
  · rw [hch.registered c]
    simp [Ne.symm hne, h.registered]
  · rw [hsame]
    exact h.gone

theorem otherRemove (h : Placed p c state) (hne : d ≠ c) (hexec : p.removeChannel d = .ok p') :
    Placed p' c state := by
  have hrm := removeChannel_removed h.table hexec
  refine ⟨hrm.table, ?_, ?_, ?_⟩
  · intro hstate
    obtain ⟨hindex, hnone⟩ := h.fresh hstate
    refine ⟨(hrm.fresh c).mpr hindex, not_mapped hrm.table ?_⟩
    intro x hx hkey
    rw [hrm.fds, hrm.fds] at hkey
    have hx := ((hrm.registered x).mp hx).2
    rw [Registered, hkey, hnone] at hx
    simp at hx
  · rw [hrm.registered c]
    simp [Ne.symm hne, h.registered]
  · intro hstate
    obtain ⟨hindex, hidle⟩ := h.gone hstate
    rw [isWriting_iff, hrm.events, ← isWriting_iff]
    refine ⟨?_, hidle⟩
    by_contra hneg
    have := (hrm.fresh c).mp (by omega)
    omega

theorem setRevents (h : Placed p c state) (revents : EventMask) :
    Placed (p.setRevents c revents) c state := by
  refine ⟨h.table.setRevents c revents, ?_, ?_, ?_⟩
  · intro hstate
    rw [setRevents_index, setRevents_fd]
    exact h.fresh hstate
  · rw [← h.registered]
    exact registered_setRevents
  · intro hstate
    rw [setRevents_index, isWriting_iff]
    simpa [Poller.setRevents, isWriting_iff] using h.gone hstate

end Placed

structure Inv (s : State) : Prop where
  placed : Placed s.conn.poller s.conn.channel s.conn.state
  busy : s.current ≠ [] → s.conn.loop.phase = .handling ∧ Up s.conn

theorem initial_inv {s : State} (h : Fresh s) : Inv s := by
  obtain ⟨poller, channel, fd, wc, owner, htable, hfresh, hnone, -, rfl⟩ := h
  refine ⟨⟨htable, ?_, ?_, ?_⟩, ?_⟩
  · intro _
    change (poller.channels channel).index < 0 ∧
      poller.channelMap.find (poller.channels channel).fd = none
    rw [hfresh]
    exact ⟨by simp [Channel.construct], hnone⟩
  · change poller.channelMap.find (poller.channels channel).fd = some channel ↔ _
    rw [hfresh, Channel.construct_fd, hnone]
    simp [TcpConnection.construct]
  · simp [TcpConnection.construct]
  · simp

structure Same (c c' : TcpConnection) : Prop where
  poller : c'.poller = c.poller
  channel : c'.channel = c.channel
  state : c'.state = c.state
  phase : c'.loop.phase = c.loop.phase

theorem Same.refl (c : TcpConnection) : Same c c := ⟨rfl, rfl, rfl, rfl⟩

theorem Same.trans {a b c : TcpConnection} (h : Same a b) (h' : Same b c) : Same a c :=
  ⟨h'.poller.trans h.poller, h'.channel.trans h.channel, h'.state.trans h.state,
    h'.phase.trans h.phase⟩

theorem phase_notify (c : TcpConnection) (complete : Bool) :
    (c.notify complete).phase = c.loop.phase := by
  unfold notify
  split <;> rfl

theorem same_sent (c : TcpConnection) (m : Message) (r : WriteResult) : Same c (sent c m r) :=
  ⟨rfl, rfl, rfl, phase_notify c _⟩

theorem same_shutdownInLoop (c : TcpConnection) : Same c c.shutdownInLoop := by
  unfold shutdownInLoop
  split <;> exact ⟨rfl, rfl, rfl, rfl⟩

theorem same_finished (c : TcpConnection) : Same c (finished c) := by
  have hnotify : Same c { c with loop := c.notify true } := ⟨rfl, rfl, rfl, phase_notify c _⟩
  unfold finished
  split
  · exact hnotify.trans (same_shutdownInLoop _)
  · exact hnotify

theorem Inv.same {s : State} (h : Inv s) {conn : TcpConnection} {current : List Callback}
    (hsame : Same s.conn conn) (hcurrent : current ≠ [] → s.current ≠ []) :
    Inv ⟨conn, current⟩ := by
  refine ⟨?_, ?_⟩
  · change Placed conn.poller conn.channel conn.state
    rw [hsame.poller, hsame.channel, hsame.state]
    exact h.placed
  · intro hne
    obtain ⟨hphase, hup⟩ := h.busy (hcurrent hne)
    refine ⟨hsame.phase.trans hphase, ?_⟩
    unfold Up
    rw [hsame.state]
    exact hup

/-- A change of the Channel's interest while the connection is up. -/
theorem Inv.change {s : State} (h : Inv s) (hup : Up s.conn) {interest : Interest} {p : Poller}
    (hexec : s.conn.poller.change s.conn.channel interest = .ok p) {conn : TcpConnection}
    {current : List Callback} (hsame : Same { s.conn with poller := p } conn)
    (hcurrent : current ≠ [] → s.current ≠ []) : Inv ⟨conn, current⟩ :=
  Inv.same (s := ⟨{ s.conn with poller := p }, s.current⟩)
    ⟨h.placed.change hup hexec, h.busy⟩ hsame hcurrent

theorem sendInLoop_inv {s : State} (h : Inv s) (hstate : s.conn.state ≠ .kConnecting)
    {conn : TcpConnection} {m : Message} {r : WriteResult}
    (hexec : s.conn.sendInLoop m r = .ok conn) : Inv { s with conn := conn } := by
  rw [sendInLoop_eq] at hexec
  split at hexec
  · obtain ⟨p, hp, rfl⟩ := TcpConnection.change_ok.mp hexec
    exact h.change (h.placed.up_of_change hstate hp) hp ⟨rfl, rfl, rfl, phase_notify _ _⟩
      (fun hne => hne)
  · rw [Except.ok.injEq] at hexec
    subst hexec
    exact h.same (same_sent _ _ _) (fun hne => hne)

theorem send_inv {s : State} (h : Inv s) (hstate : s.conn.state ≠ .kConnecting)
    {conn : TcpConnection} {thread : Thread} {bytes : Bytes} {r : WriteResult}
    (hexec : s.conn.send thread bytes r = .ok conn) : Inv { s with conn := conn } := by
  have haccept : Inv { s with conn := { s.conn with
      accepted := s.conn.accepted ++ [.next s.conn.accepted thread bytes] } } :=
    h.same ⟨rfl, rfl, rfl, rfl⟩ (fun hne => hne)
  unfold TcpConnection.send at hexec
  split at hexec
  · dsimp only at hexec
    split at hexec
    · exact sendInLoop_inv haccept hstate hexec
    · rw [Except.ok.injEq] at hexec
      subst hexec
      exact haccept.same ⟨rfl, rfl, rfl, rfl⟩ (fun hne => hne)
  · rw [Except.ok.injEq] at hexec
    subst hexec
    exact h

theorem shutdown_inv {s : State} (h : Inv s) (thread : Thread) :
    Inv { s with conn := s.conn.shutdown thread } := by
  have hcalled : Inv { s with conn := { s.conn with closers := s.conn.closers ++ [thread] } } :=
    h.same ⟨rfl, rfl, rfl, rfl⟩ (fun hne => hne)
  unfold TcpConnection.shutdown
  dsimp only
  split
  · rename_i hstate
    have hplaced := h.placed
    rw [hstate] at hplaced
    have hdown : Inv { s with conn := { s.conn with
        closers := s.conn.closers ++ [thread], state := .kDisconnecting } } :=
      ⟨hplaced.shutdown, fun hne => ⟨(h.busy hne).1, Or.inr rfl⟩⟩
    split
    · exact hdown.same (same_shutdownInLoop _) (fun hne => hne)
    · exact hdown.same ⟨rfl, rfl, rfl, rfl⟩ (fun hne => hne)
  · exact hcalled

theorem handleClose_inv {s : State} (h : Inv s) {conn : TcpConnection} {rest : List Callback}
    (hrest : rest ≠ [] → s.current ≠ []) (hexec : s.conn.handleClose = .ok conn) :
    Inv ⟨conn, rest⟩ := by
  obtain ⟨hup, p, owner, hp, rfl, -⟩ := handleClose_cases hexec
  exact h.change hup hp ⟨rfl, rfl, rfl, rfl⟩ hrest

/-- Every callback of the Channel. -/
theorem handle_inv {s : State} (h : Inv s) {conn : TcpConnection} {read : ReadResult}
    {write : WriteResult} {cb : Callback} {rest : List Callback} (hcurrent : s.current = cb :: rest)
    (hexec : s.conn.handle read write cb = .ok conn) : Inv ⟨conn, rest⟩ := by
  have hne : s.current ≠ [] := by simp [hcurrent]
  have hup : Up s.conn := (h.busy hne).2
  have keep : ∀ conn, Same s.conn conn → Inv ⟨conn, rest⟩ :=
    fun conn hsame => h.same hsame (fun _ => hne)
  cases cb with
  | close => exact handleClose_inv h (fun _ => hne) hexec
  | error =>
    rw [handle, Except.ok.injEq] at hexec
    subst hexec
    exact keep _ (Same.refl _)
  | read =>
    cases read with
    | eof => exact handleClose_inv h (fun _ => hne) hexec
    | data first more =>
      rw [handle, handleRead, Except.ok.injEq] at hexec
      subst hexec
      exact keep _ ⟨rfl, rfl, rfl, rfl⟩
    | error =>
      rw [handle, handleRead, Except.ok.injEq] at hexec
      subst hexec
      exact keep _ (Same.refl _)
  | write =>
    rcases handleWrite_cases hexec with ⟨rfl, -⟩ | ⟨n, -, -, rfl⟩ | ⟨-, -, -, p, hp, rfl⟩
    · exact keep _ (Same.refl _)
    · exact keep _ ⟨rfl, rfl, rfl, rfl⟩
    · have hdrained : Same { s.conn with poller := p } (drained s.conn p) :=
        ⟨rfl, rfl, rfl, rfl⟩
      exact h.change hup hp (hdrained.trans (same_finished _)) (fun _ => hne)

/-- Every functor of the queue. -/
theorem call_inv {s : State} (h : Inv s) (hcurrent : s.current = [])
    (hstate : s.conn.state ≠ .kConnecting) {conn : TcpConnection} {r : WriteResult} {f : Functor}
    (hexec : s.conn.call r f = .ok conn) : Inv { s with conn := conn } := by
  cases f with
  | sendInLoop m => exact sendInLoop_inv h hstate hexec
  | shutdownInLoop =>
    rw [call, Except.ok.injEq] at hexec
    subst hexec
    exact h.same (same_shutdownInLoop _) (fun hne => hne)
  | connectDestroyed =>
    obtain ⟨-, p, q, hp, hq, rfl⟩ := connectDestroyed_cases hexec
    exact ⟨h.placed.destroy hp hq, fun hne => absurd hcurrent hne⟩
  | writeComplete | other =>
    rw [call, Except.ok.injEq] at hexec
    subst hexec
    exact h

theorem step_inv {s s' : State} (h : Inv s) {i : Input} (hallow : Allowed s i)
    (hexec : exec s i = .ok s') : Inv s' := by
  cases step_of_exec hallow hexec with
  | connectEstablished hestablish =>
    obtain ⟨p, hp, rfl⟩ := connectEstablished_ok hestablish
    have hstate : s.conn.state = .kConnecting := hallow
    have hplaced := h.placed
    rw [hstate] at hplaced
    exact ⟨hplaced.establish hp, fun hne => ⟨(h.busy hne).1, Or.inl rfl⟩⟩
  | send hsend => exact send_inv h hallow hsend
  | shutdown thread => exact shutdown_inv h thread
  | queueOther | destroyClient => exact h.same ⟨rfl, rfl, rfl, rfl⟩ (fun hne => hne)
  | pollTimeout => exact ⟨h.placed, fun hne => ⟨rfl, (h.busy hne).2⟩⟩
  | poll revents =>
    exact ⟨h.placed.setRevents revents, fun _ => ⟨rfl, h.placed.registered.mp hallow.2.2.1⟩⟩
  | callback hcurrent hhandle => exact handle_inv h hcurrent hhandle
  | swapFunctors => exact ⟨h.placed, fun hne => absurd hallow.2.2 hne⟩
  | functor hf hcall =>
    obtain ⟨hstate, hcalling, -⟩ := hallow
    have hcurrent : s.current = [] := by
      by_contra hne
      have := (h.busy hne).1
      simp [hcalling] at this
    have hpop : Inv { s with conn := { s.conn with loop := s.conn.loop.popFunctor } } :=
      h.same ⟨rfl, rfl, rfl, rfl⟩ (fun hne => hne)
    exact call_inv hpop hcurrent hstate hcall
  | endIteration =>
    obtain ⟨-, hcalling, -⟩ := hallow
    refine ⟨h.placed, fun hne => ?_⟩
    have := (h.busy hne).1
    simp [hcalling] at this
  | otherChange hp => exact ⟨h.placed.otherChange hallow.1 hallow.2 hp, h.busy⟩
  | otherRemove hp => exact ⟨h.placed.otherRemove hallow hp, h.busy⟩

theorem reach_inv {cond : State → Input → Prop} {s : State} (h : Reach system cond s) :
    Inv s := by
  refine h.invariant ?_ ?_
  · intro s hs
    exact initial_inv hs
  · intro s i s' hs hallow _ hexec
    exact step_inv hs hallow hexec

def accepted : State :=
  ⟨TcpConnection.construct (initial fun c => c + 7) 0 false (.server true), []⟩

theorem accepted_fresh : Fresh accepted :=
  ⟨initial fun c => c + 7, 0, 7, false, .server true, initial_table _, rfl, rfl, Or.inl rfl, rfl⟩

end TinyMuduo.ConnectionRuns
