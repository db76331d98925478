import TinyMuduo.ChannelUpdates

/-!
How often a connection of a TcpServer is closed. `handleClose` does not change
the state, so nothing but the dispatch of events keeps it from running twice.
One `handleEvent` can run it twice: a hang-up without input calls the close
callback, and the read callback of the same event set calls it again when
readv(2) reports the end of the stream. The map of the server then erases
nothing and its assertion fails. In every other case the connection is removed
from the map once, destroyed once, and reported up once and down at most once.
-/
namespace TinyMuduo.ConnectionRuns

open TcpConnection Poller Channel Checked Runs

/-- How many `connectDestroyed` functors wait in the running batch and in the
pending queue. -/
def tickets (c : TcpConnection) : ℕ × ℕ :=
  (c.loop.functors.count .connectDestroyed, c.loop.pendingFunctors.count .connectDestroyed)

/-- Closed at most once and destroyed at most once, with one callback each. -/
structure ClosedOnce (c : TcpConnection) : Prop where
  closes : c.closes ≤ 1
  destroys : c.destroys ≤ 1
  ups : c.ups = if c.state = .kConnecting then 0 else 1
  downs : c.downs ≤ 1

/-- The step fails neither in the erase of the server's map nor in the state
assertions of the connection. -/
def AssertionsHold (s : State) (i : Input) : Prop :=
  ∀ e, exec s i = .error e →
    e ≠ .connectionMapErase ∧ e ≠ .establishState ∧ e ≠ .closeState ∧ e ≠ .destroyState

/-- readv(2) does not report the end of the stream to a read callback whose
event set had a hang-up without input. -/
def NoEofAfterHangup (s : State) : Input → Prop
  | .callback .eof _ => s.current.head? = some .read →
      Callback.due s.conn.ownChannel.revents .close = false
  | _ => True

structure Once (b : Bool) (c : TcpConnection) : Prop where
  owner : c.owner = .server b
  closes : c.closes = if b then 0 else 1
  destroys : c.destroys = if c.state = .kDisconnected then 1 else 0
  downs : c.downs = c.destroys
  ups : c.ups = if c.state = .kConnecting then 0 else 1
  present : b = true → c.state ≠ .kDisconnected
  still : b = true ∨ c.state = .kDisconnected → tickets c = (0, 0)
  closing : b = false → c.state ≠ .kDisconnected →
    (c.loop.phase = .handling ∧ tickets c = (0, 1)) ∨
      (c.loop.phase = .calling ∧ tickets c = (1, 0))

/-- The callbacks still to be called: none closes a connection that was closed,
except the read callback after a hang-up. -/
structure Dispatching (b : Bool) (s : State) : Prop where
  suffix : s.current <:+ dispatch s.conn.ownChannel.revents
  first : .close ∈ s.current → b = true
  later : .read ∈ s.current → .close ∉ s.current →
    (b = false ↔ Callback.due s.conn.ownChannel.revents .close = true)

structure Calm (c c' : TcpConnection) : Prop where
  owner : c'.owner = c.owner
  closes : c'.closes = c.closes
  destroys : c'.destroys = c.destroys
  downs : c'.downs = c.downs
  ups : c'.ups = c.ups
  gone : c'.state = .kDisconnected ↔ c.state = .kDisconnected
  early : c'.state = .kConnecting ↔ c.state = .kConnecting
  phase : c'.loop.phase = c.loop.phase
  tickets : tickets c' = tickets c

namespace Calm

variable {c c' d : TcpConnection}

theorem refl (c : TcpConnection) : Calm c c :=
  ⟨rfl, rfl, rfl, rfl, rfl, Iff.rfl, Iff.rfl, rfl, rfl⟩

theorem trans (h : Calm c c') (h' : Calm c' d) : Calm c d :=
  ⟨h'.owner.trans h.owner, h'.closes.trans h.closes, h'.destroys.trans h.destroys,
    h'.downs.trans h.downs, h'.ups.trans h.ups, h'.gone.trans h.gone, h'.early.trans h.early,
    h'.phase.trans h.phase, h'.tickets.trans h.tickets⟩

theorem queueInLoop (c : TcpConnection) {f : Functor} (hf : f ≠ .connectDestroyed) :
    Calm c (c.queueInLoop f) := by
  refine ⟨rfl, rfl, rfl, rfl, rfl, Iff.rfl, Iff.rfl, rfl, ?_⟩
  simp [ConnectionRuns.tickets, TcpConnection.queueInLoop, EventLoop.queueInLoop,
    List.count_cons_of_ne hf]

theorem notify (c : TcpConnection) (complete : Bool) :
    Calm c { c with loop := c.notify complete } := by
  unfold TcpConnection.notify
  split
  · exact Calm.queueInLoop c (by simp)
  · exact Calm.refl c

theorem shutdownInLoop (c : TcpConnection) : Calm c c.shutdownInLoop := by
  unfold TcpConnection.shutdownInLoop
  split
  · exact Calm.refl c
  · exact ⟨rfl, rfl, rfl, rfl, rfl, Iff.rfl, Iff.rfl, rfl, rfl⟩

theorem sent (c : TcpConnection) (m : Message) (r : WriteResult) : Calm c (sent c m r) := by
  have hn := Calm.notify c (c.wroteAll m r)
  exact ⟨rfl, rfl, rfl, rfl, rfl, Iff.rfl, Iff.rfl, hn.phase, hn.tickets⟩

theorem finished (c : TcpConnection) : Calm c (finished c) := by
  unfold TcpConnection.finished
  split
  · exact (Calm.notify c true).trans (Calm.shutdownInLoop _)
  · exact Calm.notify c true

theorem sendInLoop {m : Message} {r : WriteResult} (h : c.sendInLoop m r = .ok c') :
    Calm c c' := by
  have hsent := Calm.sent c m r
  rw [sendInLoop_eq] at h
  split at h
  · obtain ⟨p, -, rfl⟩ := TcpConnection.change_ok.mp h
    exact ⟨rfl, rfl, rfl, rfl, rfl, Iff.rfl, Iff.rfl, hsent.phase, hsent.tickets⟩
  · rw [Except.ok.injEq] at h
    subst h
    exact hsent

theorem send {thread : Thread} {bytes : Bytes} {r : WriteResult}
    (h : c.send thread bytes r = .ok c') : Calm c c' := by
  have haccept : Calm c { c with
      accepted := c.accepted ++ [.next c.accepted thread bytes] } :=
    ⟨rfl, rfl, rfl, rfl, rfl, Iff.rfl, Iff.rfl, rfl, rfl⟩
  unfold TcpConnection.send at h
  split at h
  · dsimp only at h
    split at h
    · exact haccept.trans (Calm.sendInLoop h)
    · rw [Except.ok.injEq] at h
      subst h
      exact haccept.trans (Calm.queueInLoop _ (by simp))
  · rw [Except.ok.injEq] at h
    subst h
    exact Calm.refl c

theorem shutdown (c : TcpConnection) (thread : Thread) :
    Calm c (c.shutdown thread) := by
  unfold TcpConnection.shutdown
  dsimp only
  split
  · rename_i hstate
    have hdown : Calm c { c with closers := c.closers ++ [thread], state := .kDisconnecting } :=
      ⟨rfl, rfl, rfl, rfl, rfl, by simp [hstate], by simp [hstate], rfl, rfl⟩
    split
    · exact hdown.trans (Calm.shutdownInLoop _)
    · exact hdown.trans (Calm.queueInLoop _ (by simp))
  · exact ⟨rfl, rfl, rfl, rfl, rfl, Iff.rfl, Iff.rfl, rfl, rfl⟩

theorem handleWrite {r : WriteResult} (h : c.handleWrite r = .ok c') : Calm c c' := by
  rcases handleWrite_cases h with ⟨rfl, -⟩ | ⟨n, -, -, rfl⟩ | ⟨-, -, -, p, -, rfl⟩
  · exact Calm.refl c'
  · exact ⟨rfl, rfl, rfl, rfl, rfl, Iff.rfl, Iff.rfl, rfl, rfl⟩
  · have hdrained : Calm c (drained c p) :=
      ⟨rfl, rfl, rfl, rfl, rfl, Iff.rfl, Iff.rfl, rfl, rfl⟩
    exact hdrained.trans (Calm.finished _)

end Calm

theorem Once.calm {b : Bool} {c c' : TcpConnection} (h : Once b c) (hcalm : Calm c c') :
    Once b c' := by
  refine ⟨hcalm.owner.trans h.owner, hcalm.closes.trans h.closes, ?_, ?_, ?_, ?_, ?_, ?_⟩
  · rw [hcalm.destroys, h.destroys]
    simp [hcalm.gone]
  · rw [hcalm.downs, hcalm.destroys]
    exact h.downs
  · rw [hcalm.ups, h.ups]
    simp [hcalm.early]
  · intro hb
    rw [ne_eq, hcalm.gone]
    exact h.present hb
  · rw [hcalm.gone, hcalm.tickets]
    exact h.still
  · rw [ne_eq, hcalm.gone, hcalm.phase, hcalm.tickets]
    exact h.closing

theorem Once.closedOnce {b : Bool} {c : TcpConnection} (h : Once b c) : ClosedOnce c := by
  have hdestroys : c.destroys ≤ 1 := by
    rw [h.destroys]
    split <;> omega
  refine ⟨?_, hdestroys, h.ups, ?_⟩
  · rw [h.closes]
    split <;> omega
  · rw [h.downs]
    exact hdestroys

/-- A close of a connection that its server still has. -/
theorem Once.handleClose {b : Bool} {c c' : TcpConnection} (h : Once b c)
    (hphase : c.loop.phase = .handling) (hexec : c.handleClose = .ok c') :
    b = true ∧ Once false c' := by
  obtain ⟨hup, p, owner, -, rfl, howner⟩ := handleClose_cases hexec
  have hb : b = true ∧ owner = .server false := by
    rw [h.owner] at howner
    simpa using howner
  obtain ⟨rfl, rfl⟩ := hb
  have hgone : c.state ≠ .kDisconnected := h.present rfl
  have htickets := h.still (Or.inl rfl)
  refine ⟨rfl, rfl, ?_, h.destroys, h.downs, h.ups, by simp, ?_, ?_⟩
  · have hcloses := h.closes
    simpa [TcpConnection.queueInLoop] using hcloses
  · intro hor
    rcases hor with hfalse | hdisc
    · simp at hfalse
    · exact absurd hdisc hgone
  · intro _ _
    refine Or.inl ⟨hphase, ?_⟩
    simp only [tickets, Prod.mk.injEq] at htickets ⊢
    simp [TcpConnection.queueInLoop, EventLoop.queueInLoop, htickets.1, htickets.2]

/-- `connectDestroyed` is called once: with one ticket, before the connection is
gone. -/
theorem Once.connectDestroyed {b : Bool} {c c' : TcpConnection} {rest : List Functor}
    (h : Once b c) (hf : c.loop.functors = .connectDestroyed :: rest)
    (hexec : TcpConnection.connectDestroyed { c with loop := c.loop.popFunctor } = .ok c') :
    Once b c' := by
  obtain ⟨hup, p, q, -, -, rfl⟩ := connectDestroyed_cases hexec
  have hgone : c.state ≠ .kDisconnected := by
    rintro hdisc
    rcases hup with hup | hup <;> simp [hdisc] at hup
  have hcount : (tickets c).1 = rest.count .connectDestroyed + 1 := by
    simp [tickets, hf]
  have hb : b = false := by
    cases b with
    | false => rfl
    | true =>
      rw [h.still (Or.inl rfl)] at hcount
      simp at hcount
  subst hb
  have htickets : rest.count .connectDestroyed = 0 ∧
      c.loop.pendingFunctors.count .connectDestroyed = 0 := by
    rcases h.closing rfl hgone with ⟨-, ht⟩ | ⟨-, ht⟩
    · rw [ht] at hcount
      simp at hcount
    · rw [ht] at hcount
      simp only [tickets, Prod.mk.injEq] at ht
      exact ⟨by simpa using hcount.symm, ht.2⟩
  have hdestroys := h.destroys
  have hdowns := h.downs
  have hups := h.ups
  rw [if_neg hgone] at hdestroys
  refine ⟨h.owner, h.closes, ?_, ?_, ?_, by simp, ?_, ?_⟩
  · simp [hdestroys]
  · simp [hdowns]
  · have hearly : c.state ≠ .kConnecting := by
      rintro hconn
      rcases hup with hup | hup <;> simp [hconn] at hup
    simp [hups, hearly]
  · intro _
    simp [tickets, EventLoop.popFunctor, hf, htickets.1, htickets.2]
  · intro _ hnot
    simp at hnot

/-- The callbacks of one `handleEvent` are called in a fixed order. -/
theorem dispatch_sorted (revents : EventMask) :
    (dispatch revents).Sublist [.close, .error, .read, .write] :=
  List.filter_sublist

theorem due_of_mem_dispatch {revents : EventMask} {cb : Callback} (h : cb ∈ dispatch revents) :
    cb.due revents = true := by
  have hdue := (List.mem_filter.mp h).2
  simpa using hdue

/-- What comes after a callback in the fixed order. -/
theorem after_callback {cb : Callback} {rest : List Callback}
    (h : (cb :: rest).Sublist [.close, .error, .read, .write]) :
    .close ∉ rest ∧ (cb = .read → .read ∉ rest) := by
  have hsorted : ([.close, .error, .read, .write] : List Callback).Pairwise
      (fun a b => b ≠ .close ∧ (a = .read → b ≠ .read)) := by decide
  have hhead := (List.pairwise_cons.mp (hsorted.sublist h)).1
  constructor
  · intro hmem
    exact (hhead _ hmem).1 rfl
  · intro hread hmem
    exact (hhead _ hmem).2 hread rfl

theorem Dispatching.empty {b : Bool} {c : TcpConnection} : Dispatching b ⟨c, []⟩ :=
  ⟨List.nil_suffix, by simp, by simp⟩

/-- Steps other than callbacks and polls keep the list and the reported events. -/
theorem Dispatching.keep {b : Bool} {s : State} (h : Dispatching b s) {c : TcpConnection}
    (hrevents : c.ownChannel.revents = s.conn.ownChannel.revents) :
    Dispatching b { s with conn := c } := by
  refine ⟨?_, h.first, ?_⟩
  · change s.current <:+ dispatch c.ownChannel.revents
    rw [hrevents]
    exact h.suffix
  · change .read ∈ s.current → .close ∉ s.current →
      (b = false ↔ Callback.due c.ownChannel.revents .close = true)
    rw [hrevents]
    exact h.later

/-- A callback that does not close leaves the rest as it was. -/
theorem Dispatching.next {b : Bool} {s : State} (h : Dispatching b s) {cb : Callback}
    {rest : List Callback} (hcurrent : s.current = cb :: rest) {c : TcpConnection}
    (hrevents : c.ownChannel.revents = s.conn.ownChannel.revents) (hcb : cb ≠ .close) :
    Dispatching b ⟨c, rest⟩ := by
  have hsuffix := h.suffix
  rw [hcurrent] at hsuffix
  obtain ⟨hclose, -⟩ := after_callback (hsuffix.sublist.trans (dispatch_sorted _))
  refine ⟨?_, fun hmem => absurd hmem hclose, ?_⟩
  · change rest <:+ dispatch c.ownChannel.revents
    rw [hrevents]
    exact (List.suffix_cons cb rest).trans hsuffix
  · intro hread _
    change b = false ↔ Callback.due c.ownChannel.revents .close = true
    rw [hrevents]
    refine h.later (by rw [hcurrent]; exact List.mem_cons_of_mem _ hread) ?_
    rw [hcurrent, List.mem_cons]
    rintro (heq | hmem)
    · exact hcb heq.symm
    · exact hclose hmem

/-- After a callback that closed the connection only a hang-up leaves a read
callback to be called. -/
theorem Dispatching.closed {b : Bool} {s : State} (h : Dispatching b s) {cb : Callback}
    {rest : List Callback} (hcurrent : s.current = cb :: rest) {c : TcpConnection}
    (hrevents : c.ownChannel.revents = s.conn.ownChannel.revents)
    (hcb : cb = .close ∨ cb = .read) : Dispatching false ⟨c, rest⟩ := by
  have hsuffix := h.suffix
  rw [hcurrent] at hsuffix
  obtain ⟨hclose, hread⟩ := after_callback (hsuffix.sublist.trans (dispatch_sorted _))
  refine ⟨?_, fun hmem => absurd hmem hclose, ?_⟩
  · change rest <:+ dispatch c.ownChannel.revents
    rw [hrevents]
    exact (List.suffix_cons cb rest).trans hsuffix
  · intro hmem _
    change false = false ↔ Callback.due c.ownChannel.revents .close = true
    rw [hrevents]
    rcases hcb with rfl | rfl
    · have hdue := due_of_mem_dispatch (hsuffix.subset (List.mem_cons_self ..))
      simp [hdue]
    · exact absurd hmem (hread rfl)

def Life (s : State) : Prop := ∃ b, Once b s.conn ∧ Dispatching b s

theorem step_revents {s s' : State} (h : Inv s) {i : Input} (hinside : i.inside = true)
    (hexec : exec s i = .ok s') :
    s'.conn.ownChannel.revents = s.conn.ownChannel.revents := by
  obtain ⟨hchannel, hstep⟩ := step_pollerStep hinside hexec
  unfold ownChannel
  rw [hchannel]
  exact hstep.revents h.placed.table

/-- Every callback of the Channel. -/
theorem handle_life {s : State} {conn : TcpConnection} {b : Bool} (h : Inv s)
    (honce : Once b s.conn) (hdisp : Dispatching b s) {read : ReadResult} {write : WriteResult}
    {cb : Callback} {rest : List Callback} (hcurrent : s.current = cb :: rest)
    (hrevents : conn.ownChannel.revents = s.conn.ownChannel.revents)
    (hexec : s.conn.handle read write cb = .ok conn) : Life ⟨conn, rest⟩ := by
  have hphase := (h.busy (by simp [hcurrent])).1
  have calm : cb ≠ .close → Calm s.conn conn → Life ⟨conn, rest⟩ :=
    fun hcb hcalm => ⟨b, honce.calm hcalm, hdisp.next hcurrent hrevents hcb⟩
  have close : cb = .close ∨ cb = .read → s.conn.handleClose = .ok conn → Life ⟨conn, rest⟩ :=
    fun hcb hclose => ⟨false, (honce.handleClose hphase hclose).2,
      hdisp.closed hcurrent hrevents hcb⟩
  cases cb with
  | close => exact close (Or.inl rfl) hexec
  | error =>
    rw [handle, Except.ok.injEq] at hexec
    subst hexec
    exact calm (by simp) (Calm.refl _)
  | read =>
    cases read with
    | eof => exact close (Or.inr rfl) hexec
    | data first more =>
      rw [handle, handleRead, Except.ok.injEq] at hexec
      subst hexec
      exact calm (by simp) ⟨rfl, rfl, rfl, rfl, rfl, Iff.rfl, Iff.rfl, rfl, rfl⟩
    | error =>
      rw [handle, handleRead, Except.ok.injEq] at hexec
      subst hexec
      exact calm (by simp) (Calm.refl _)
  | write => exact calm (by simp) (Calm.handleWrite hexec)

/-- Every functor of the batch. -/
theorem call_once {b : Bool} {c c' : TcpConnection} (honce : Once b c) {r : WriteResult}
    {f : Functor} {rest : List Functor} (hf : c.loop.functors = f :: rest)
    (hexec : TcpConnection.call { c with loop := c.loop.popFunctor } r f = .ok c') :
    Once b c' := by
  have hpop : f ≠ .connectDestroyed → Calm c { c with loop := c.loop.popFunctor } := by
    intro hne
    refine ⟨rfl, rfl, rfl, rfl, rfl, Iff.rfl, Iff.rfl, rfl, ?_⟩
    simp [tickets, EventLoop.popFunctor, hf, List.count_cons_of_ne hne]
  cases f with
  | connectDestroyed => exact honce.connectDestroyed hf hexec
  | sendInLoop m => exact (honce.calm (hpop (by simp))).calm (Calm.sendInLoop hexec)
  | shutdownInLoop =>
    rw [call, Except.ok.injEq] at hexec
    subst hexec
    exact (honce.calm (hpop (by simp))).calm (Calm.shutdownInLoop _)
  | writeComplete | other =>
    rw [call, Except.ok.injEq] at hexec
    subst hexec
    exact honce.calm (hpop (by simp))

/-- While the loop polls, a connection that its server let go is destroyed. -/
theorem Once.polling {b : Bool} {c : TcpConnection} (h : Once b c)
    (hphase : c.loop.phase = .polling) : b = true ∨ c.state = .kDisconnected := by
  cases b with
  | true => exact Or.inl rfl
  | false =>
    by_contra hnot
    have hgone : c.state ≠ .kDisconnected := fun heq => hnot (Or.inr heq)
    rcases h.closing rfl hgone with ⟨hp, -⟩ | ⟨hp, -⟩ <;> simp [hphase] at hp

/-- So it is when the batch that had its ticket is done. -/
theorem Once.batchDone {b : Bool} {c : TcpConnection} (h : Once b c)
    (hphase : c.loop.phase = .calling) (hempty : c.loop.functors = []) :
    b = true ∨ c.state = .kDisconnected := by
  cases b with
  | true => exact Or.inl rfl
  | false =>
    by_contra hnot
    have hgone : c.state ≠ .kDisconnected := fun heq => hnot (Or.inr heq)
    rcases h.closing rfl hgone with ⟨hp, -⟩ | ⟨-, ht⟩
    · simp [hphase] at hp
    · simp [tickets, hempty] at ht

/-- A step to another phase that moves no functor, for a connection that is not
about to be destroyed. -/
theorem Once.phase {b : Bool} {c c' : TcpConnection} (h : Once b c)
    (hnot : b = true ∨ c.state = .kDisconnected) (hsame : c' = { c with loop := c'.loop })
    (htickets : tickets c' = tickets c) : Once b c' := by
  rw [hsame] at htickets ⊢
  refine ⟨h.owner, h.closes, h.destroys, h.downs, h.ups, h.present, ?_, ?_⟩
  · rw [htickets]
    exact h.still
  · intro hb hgone
    rcases hnot with htrue | hdisc
    · simp [htrue] at hb
    · exact absurd hdisc hgone

theorem Once.swapFunctors {b : Bool} {c : TcpConnection} (h : Once b c)
    (hphase : c.loop.phase = .handling) :
    Once b { c with loop := c.loop.swapFunctors } := by
  refine ⟨h.owner, h.closes, h.destroys, h.downs, h.ups, h.present, ?_, ?_⟩
  · intro hnot
    have ht := h.still hnot
    simp only [tickets, Prod.mk.injEq] at ht
    simp [tickets, EventLoop.swapFunctors, ht.2]
  · intro hb hgone
    right
    rcases h.closing hb hgone with ⟨-, ht⟩ | ⟨hp, -⟩
    · simp only [tickets, Prod.mk.injEq] at ht
      simp [tickets, EventLoop.swapFunctors, ht.2]
    · simp [hphase] at hp

theorem Once.connectEstablished {b : Bool} {c c' : TcpConnection} (h : Once b c)
    (hexec : c.connectEstablished = .ok c') : Once b c' := by
  simp only [TcpConnection.connectEstablished, bind_eq_ok, require_eq_ok,
    TcpConnection.change_ok, pure_eq_ok, Except.ok.injEq] at hexec
  obtain ⟨-, hstate, c1, ⟨p, hp, rfl⟩, rfl⟩ := hexec
  have hups := h.ups
  have hdestroys := h.destroys
  have hstill := h.still
  have hclosing := h.closing
  simp only [hstate] at hups hdestroys hstill hclosing
  refine ⟨h.owner, h.closes, ?_, h.downs, ?_, by simp, ?_, ?_⟩
  · simpa using hdestroys
  · simpa using hups
  · intro hnot
    exact hstill (Or.inl (by simpa using hnot))
  · intro hb _
    exact hclosing hb (by simp)

/-- A poll starts the dispatch of the events that it reports. -/
theorem Dispatching.polled (c : TcpConnection) (loop : EventLoop Functor) (revents : EventMask) :
    Dispatching true ⟨{ c with loop := loop, poller := c.poller.setRevents c.channel revents },
      dispatch revents⟩ := by
  refine ⟨?_, fun _ => rfl, ?_⟩
  · simp [ownChannel, Poller.setRevents]
  · intro _ hnotmem
    have hdue : Callback.due revents .close = false := by
      by_contra hdue
      exact hnotmem (List.mem_filter.mpr ⟨by simp, by simpa using hdue⟩)
    simp [ownChannel, Poller.setRevents, hdue]

theorem step_life {s s' : State} (h : Inv s) (hlife : Life s) {i : Input} (hallow : Allowed s i)
    (hexec : exec s i = .ok s') : Life s' := by
  obtain ⟨b, honce, hdisp⟩ := hlife
  have keep : i.inside = true → s'.current = s.current → Once b s'.conn → Life s' := by
    intro hinside hcurrent honce'
    have hdisp' := hdisp.keep (step_revents h hinside hexec)
    rw [← hcurrent] at hdisp'
    exact ⟨b, honce', hdisp'⟩
  cases step_of_exec hallow hexec with
  | connectEstablished hestablish => exact keep rfl rfl (honce.connectEstablished hestablish)
  | send hsend => exact keep rfl rfl (honce.calm (Calm.send hsend))
  | shutdown thread => exact keep rfl rfl (honce.calm (Calm.shutdown s.conn thread))
  | queueOther => exact keep rfl rfl (honce.calm (Calm.queueInLoop s.conn (by simp)))
  | pollTimeout =>
    have hnot := honce.polling hallow.2
    exact ⟨b, honce.phase hnot rfl rfl, hdisp.keep rfl⟩
  | poll revents =>
    obtain ⟨-, hphase, hreg, -⟩ := hallow
    have hup := h.placed.registered.mp hreg
    have hb : b = true := by
      rcases honce.polling hphase with hb | hgone
      · exact hb
      · simp [hgone] at hup
    subst hb
    refine ⟨true, ?_, Dispatching.polled s.conn _ revents⟩
    exact ⟨honce.owner, honce.closes, honce.destroys, honce.downs, honce.ups, honce.present,
      honce.still, by simp⟩
  | callback hcurrent hhandle =>
    exact handle_life h honce hdisp hcurrent (step_revents h rfl hexec) hhandle
  | swapFunctors => exact keep rfl rfl (honce.swapFunctors hallow.2.1)
  | functor hf hcall =>
    exact ⟨b, call_once honce hf hcall, hdisp.keep (step_revents h rfl hexec)⟩
  | endIteration =>
    obtain ⟨-, hcalling, hempty⟩ := hallow
    exact keep rfl rfl (honce.phase (honce.batchDone hcalling hempty) rfl rfl)
  | destroyClient =>
    have howner := hallow.2
    rw [honce.owner] at howner
    simp at howner
  | otherChange hp =>
    have hrevents := (change_changed h.placed.table hp).revents s.conn.channel
    exact ⟨b, honce.calm ⟨rfl, rfl, rfl, rfl, rfl, Iff.rfl, Iff.rfl, rfl, rfl⟩,
      hdisp.keep hrevents⟩
  | otherRemove hp =>
    have hrevents := (removeChannel_removed h.placed.table hp).revents s.conn.channel
    exact ⟨b, honce.calm ⟨rfl, rfl, rfl, rfl, rfl, Iff.rfl, Iff.rfl, rfl, rfl⟩,
      hdisp.keep hrevents⟩

def serverSystem : System State Input Fault :=
  { system with start := fun s => Fresh s ∧ s.conn.owner = .server true }

theorem initial_life {s : State} (h : Fresh s) (howner : s.conn.owner = .server true) :
    Life s := by
  obtain ⟨poller, channel, fd, wc, owner, -, -, -, -, rfl⟩ := h
  refine ⟨true, ⟨howner, rfl, rfl, rfl, rfl, ?_, ?_, ?_⟩, Dispatching.empty⟩
  · simp [TcpConnection.construct]
  · simp [TcpConnection.construct, tickets]
  · simp

theorem reach_life {cond : State → Input → Prop} {s : State} (h : Reach serverSystem cond s) :
    Inv s ∧ Life s := by
  refine h.invariant (I := fun s => Inv s ∧ Life s) ?_ ?_
  · rintro s ⟨hfresh, howner⟩
    exact ⟨initial_inv hfresh, initial_life hfresh howner⟩
  · rintro s i s' ⟨hinv, hlife⟩ hallow _ hexec
    exact ⟨step_inv hinv hallow hexec, step_life hinv hlife hallow hexec⟩

/-- A second close fails in the erase of the server's map. -/
theorem handleClose_again {s : State} (h : Inv s) (hup : Up s.conn)
    (howner : s.conn.owner = .server false) :
    s.conn.handleClose = .error .connectionMapErase := by
  obtain ⟨p, hp⟩ := h.placed.change_ok hup .disableAll
  have hchange : s.conn.change .disableAll = .ok { s.conn with poller := p } :=
    TcpConnection.change_ok.mpr ⟨p, hp, rfl⟩
  unfold Up at hup
  unfold TcpConnection.handleClose
  rw [require_pos _ hup, ok_bind, hchange, ok_bind]
  simp only [TcpConnection.closeCallback, howner]
  rfl

/-- A callback fails exactly when it is a read callback that sees the end of
the stream after a hang-up closed the connection. -/
theorem callback_assertions {s : State} (h : Inv s) {b : Bool} (honce : Once b s.conn)
    (hdisp : Dispatching b s) {read : ReadResult} {write : WriteResult}
    (hallow : Allowed s (.callback read write)) :
    AssertionsHold s (.callback read write) ↔ NoEofAfterHangup s (.callback read write) := by
  obtain ⟨cb, rest, hcurrent⟩ := List.exists_cons_of_ne_nil hallow.2
  have hup : Up s.conn := (h.busy hallow.2).2
  have hsuffix := hdisp.suffix
  rw [hcurrent] at hsuffix
  obtain ⟨hclose, -⟩ := after_callback (hsuffix.sublist.trans (dispatch_sorted _))
  have hexec : ∀ e, exec s (.callback read write) = .error e ↔
      s.conn.handle read write cb = .error e := by
    intro e
    simp [exec, hcurrent, bind_eq_error]
  have gone : ∀ e, s.conn.handle read write cb = .error e → b = false := by
    intro e he
    rcases handle_error h hup he with ⟨howner, -⟩ | ⟨howner, -⟩
    · rw [honce.owner] at howner
      simpa using howner
    · rw [honce.owner] at howner
      simp at howner
  have later : cb = .read → (b = false ↔
      Callback.due s.conn.ownChannel.revents .close = true) := by
    rintro rfl
    refine hdisp.later (by simp [hcurrent]) ?_
    simp [hcurrent, hclose]
  constructor
  · intro hhold
    cases read with
    | data first more => trivial
    | error => trivial
    | eof =>
      intro hread
      have hcb : cb = .read := by simpa [hcurrent] using hread
      by_contra hdue
      have hb : b = false := (later hcb).mpr (by simpa using hdue)
      have hfail : exec s (.callback .eof write) = .error .connectionMapErase := by
        rw [hexec, hcb]
        exact handleClose_again h hup (hb ▸ honce.owner)
      exact (hhold _ hfail).1 rfl
  · intro hno e he
    exfalso
    have hhandle := (hexec e).mp he
    have hb := gone e hhandle
    cases cb with
    | close =>
      have htrue := hdisp.first (by simp [hcurrent])
      simp [htrue] at hb
    | error => simp [handle] at hhandle
    | write => exact absurd (handleWrite_error hhandle).2 (h.no_change_error hup)
    | read =>
      cases read with
      | data first more => simp [handle, handleRead] at hhandle
      | error => simp [handle, handleRead] at hhandle
      | eof =>
        have hnot := hno (by simp [hcurrent])
        rw [(later rfl).mp hb] at hnot
        simp at hnot

/-- No functor fails in one of these assertions. -/
theorem functor_assertions {s : State} (h : Inv s) {b : Bool} (honce : Once b s.conn)
    {r : WriteResult} (hallow : Allowed s (.functor r)) : AssertionsHold s (.functor r) := by
  obtain ⟨hstate, -, hfunctors⟩ := hallow
  obtain ⟨f, rest, hf⟩ := List.exists_cons_of_ne_nil hfunctors
  have hpop : Inv { s with conn := { s.conn with loop := s.conn.loop.popFunctor } } :=
    h.same ⟨rfl, rfl, rfl, rfl⟩ (fun hne => hne)
  intro e hexec
  simp only [exec, hf, bind_pure_eq_error] at hexec
  cases f with
  | sendInLoop m =>
    have hupdate := change_error_ofUpdate (sendInLoop_error hexec).2
    refine ⟨?_, ?_, ?_, ?_⟩ <;> rintro rfl <;> simp [Fault.ofUpdate] at hupdate
  | connectDestroyed =>
    obtain ⟨hdown, -⟩ := hpop.connectDestroyed_error hexec
    have hgone : s.conn.state = .kDisconnected := by
      simp only [Up] at hdown
      cases hs : s.conn.state <;> simp_all
    have htickets := honce.still (Or.inr hgone)
    simp [tickets, hf] at htickets
  | shutdownInLoop | writeComplete | other => simp [call] at hexec

theorem assertions_iff {s : State} (h : Inv s) (hlife : Life s) {i : Input}
    (hallow : Allowed s i) (hown : i.own = true) : AssertionsHold s i ↔ NoEofAfterHangup s i := by
  obtain ⟨b, honce, hdisp⟩ := hlife
  have safe : (∀ e, exec s i = .error e → e.ofUpdate = true) → AssertionsHold s i := by
    intro hfault e hexec
    have hupdate := hfault e hexec
    refine ⟨?_, ?_, ?_, ?_⟩ <;> rintro rfl <;> simp [Fault.ofUpdate] at hupdate
  cases i with
  | callback read write => exact callback_assertions h honce hdisp hallow
  | functor r => exact ⟨fun _ => trivial, fun _ => functor_assertions h honce hallow⟩
  | connectEstablished =>
    refine ⟨fun _ => trivial, fun _ e hexec => ?_⟩
    have hstate : s.conn.state = .kConnecting := hallow
    have hplaced := h.placed
    rw [hstate] at hplaced
    obtain ⟨p, hp⟩ := hplaced.establish_ok
    simp [exec, connectEstablished, TcpConnection.change, hstate, require, hp] at hexec
  | send thread bytes r =>
    refine ⟨fun _ => trivial, fun _ => safe fun e hexec => ?_⟩
    simp only [exec, bind_pure_eq_error] at hexec
    unfold TcpConnection.send at hexec
    split at hexec
    · dsimp only at hexec
      split at hexec
      · exact change_error_ofUpdate (sendInLoop_error hexec).2
      · simp at hexec
    · simp at hexec
  | otherChange d interest => simp [Input.own] at hown
  | otherRemove d => simp [Input.own] at hown
  | poll revents =>
    refine ⟨fun _ => trivial, fun _ e hexec => ?_⟩
    cases revents <;> simp [exec] at hexec
  | shutdown | queueOther | swapFunctors | endIteration | destroyClient =>
    refine ⟨fun _ => trivial, fun _ e hexec => ?_⟩
    simp [exec] at hexec

/-- In every state of every run a connection of a TcpServer was closed at most
once, and the next step passes the assertions of the close path exactly when it
is not a read callback that sees the end of the stream after a hang-up. -/
theorem server_connection_closed_once {s : State} (h : Reachable serverSystem s) :
    ClosedOnce s.conn ∧ ∀ i, Allowed s i → i.own = true →
      (AssertionsHold s i ↔ NoEofAfterHangup s i) := by
  obtain ⟨hinv, hlife⟩ := reach_life h
  obtain ⟨b, honce, -⟩ := id hlife
  exact ⟨honce.closedOnce, fun i hallow hown => assertions_iff hinv hlife hallow hown⟩

instance (s : State) (i : Input) : Decidable (serverSystem.allowed s i) :=
  inferInstanceAs (Decidable (system.allowed s i))

/-- The peer closes a connection that was written to, and the connection is
removed and destroyed. -/
def closedByPeer : List Input :=
  [.connectEstablished, .send .loop [1, 2, 3] (.count 2), .swapFunctors, .endIteration,
    .poll (some (pollIn ||| pollOut)), .callback .eof .error, .callback .error .error,
    .swapFunctors, .functor .error]

theorem closedByPeer_once : ∃ s, Reachable serverSystem s ∧ s.conn.closes = 1 ∧
    s.conn.destroys = 1 ∧ s.conn.downs = 1 ∧ ClosedOnce s.conn := by
  obtain ⟨s, hs, htest⟩ := exists_of_replay (M := serverSystem) Free ⟨accepted_fresh, rfl⟩
    closedByPeer (fun s => decide (s.conn.closes = 1 ∧ s.conn.destroys = 1 ∧ s.conn.downs = 1))
    (by decide)
  obtain ⟨hcloses, hdestroys, hdowns⟩ := of_decide_eq_true htest
  exact ⟨s, hs, hcloses, hdestroys, hdowns, (server_connection_closed_once hs).1⟩

def hangup : List Input :=
  [.connectEstablished, .swapFunctors, .endIteration, .poll (some (pollHup ||| pollRdHup)),
    .callback .eof .error]

theorem hangup_closes_twice : ¬ ∀ s, Reachable serverSystem s → ∀ i, Allowed s i →
    i.own = true → AssertionsHold s i := by
  intro hall
  obtain ⟨s, hs, htest⟩ := exists_of_replay (M := serverSystem) Free ⟨accepted_fresh, rfl⟩
    hangup (fun s => decide (serverSystem.allowed s (.callback .eof .error)) &&
      match exec s (.callback .eof .error) with
      | .error e => decide (e = .connectionMapErase)
      | .ok _ => false) (by decide)
  simp only [Bool.and_eq_true, decide_eq_true_eq] at htest
  obtain ⟨hallow, hfault⟩ := htest
  have hhold := hall s hs (.callback .eof .error) hallow rfl
  split at hfault
  · rename_i e hexec
    exact (hhold e hexec).1 (of_decide_eq_true hfault)
  · simp at hfault

end TinyMuduo.ConnectionRuns
