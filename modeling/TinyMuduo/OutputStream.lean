import TinyMuduo.GracefulShutdown

/-!
The output stream of a connection, over every run, closed connections included.
The direct write of `sendInLoop` is made only when nothing is buffered, so what
the socket took and what is buffered are always the executed messages one after
the other. Write interest follows the buffer until the Channel is disabled, and
a completed write is reported by the step that completes it.
-/
namespace TinyMuduo.ConnectionRuns

open TcpConnection Poller Channel Checked Runs

def ofThread (t : Thread) (messages : List Message) : List Message :=
  messages.filter fun m => m.sender = t

structure Buffered (c : TcpConnection) : Prop where
  written : c.wire ++ c.outputBuffer = stream c.executed
  waiting : c.isWriting = true → c.outputBuffer ≠ []
  watched : c.closes = 0 → c.destroys = 0 → c.outputBuffer ≠ [] → c.isWriting = true

/-- Each thread's messages are executed in the order of acceptance; only other
threads queue theirs. -/
structure Threaded (accepted executed : List Message) (queue : List Functor) : Prop where
  order : ∀ t, ofThread t (executed ++ sends queue) = ofThread t accepted
  apart : ∀ m ∈ sends queue, m.sender ≠ .loop

structure Streamed (s : State) : Prop where
  inv : Inv s
  buffered : Buffered s.conn
  threaded : Threaded s.conn.accepted s.conn.executed s.conn.loop.queued
  batch : s.conn.loop.phase ≠ .calling → s.conn.loop.functors = []

namespace Threaded

variable {accepted executed : List Message} {queue rest : List Functor}

theorem push (h : Threaded accepted executed queue) {f : Functor}
    (hf : ∀ m, f ≠ .sendInLoop m) : Threaded accepted executed (queue ++ [f]) := by
  have hsends : sends (queue ++ [f]) = sends queue := by
    rw [sends_append, sends_cons_other hf]
    exact List.append_nil _
  refine ⟨?_, ?_⟩
  · rw [hsends]
    exact h.order
  · rw [hsends]
    exact h.apart

theorem queueInLoop {loop : EventLoop Functor} (h : Threaded accepted executed loop.queued)
    {f : Functor} (hf : ∀ m, f ≠ .sendInLoop m) :
    Threaded accepted executed (loop.queueInLoop f).queued := by
  rw [EventLoop.queued_queueInLoop]
  exact h.push hf

theorem pop {f : Functor} (h : Threaded accepted executed (f :: rest))
    (hf : ∀ m, f ≠ .sendInLoop m) : Threaded accepted executed rest := by
  have hsends := sends_cons_other hf rest
  refine ⟨?_, ?_⟩
  · rw [← hsends]
    exact h.order
  · rw [← hsends]
    exact h.apart

/-- The next functor executes the oldest queued message. -/
theorem popSend {m : Message} (h : Threaded accepted executed (.sendInLoop m :: rest)) :
    Threaded accepted (executed ++ [m]) rest := by
  refine ⟨?_, ?_⟩
  · intro t
    have horder := h.order t
    rw [sends_cons_send] at horder
    simpa using horder
  · intro x hx
    exact h.apart x (by rw [sends_cons_send]; exact List.mem_cons_of_mem _ hx)

/-- A message of the loop thread overtakes the queued ones, which are not its own. -/
theorem acceptDirect (h : Threaded accepted executed queue) {m : Message}
    (hm : m.sender = .loop) : Threaded (accepted ++ [m]) (executed ++ [m]) queue := by
  refine ⟨?_, h.apart⟩
  intro t
  have horder := h.order t
  unfold ofThread at horder ⊢
  by_cases ht : t = .loop
  · subst ht
    have hnone : (sends queue).filter (fun x => x.sender = .loop) = [] := by
      rw [List.filter_eq_nil_iff]
      intro x hx
      simpa using h.apart x hx
    rw [List.filter_append, hnone, List.append_nil] at horder
    rw [List.filter_append, hnone, List.append_nil, List.filter_append, List.filter_append,
      horder]
  · have hskip : [m].filter (fun x => x.sender = t) = [] := by
      simp [hm, Ne.symm ht]
    rw [List.filter_append] at horder
    rw [List.filter_append, List.filter_append, hskip, List.append_nil, horder,
      List.filter_append, hskip, List.append_nil]

theorem acceptQueued (h : Threaded accepted executed queue) {m : Message}
    (hm : m.sender ≠ .loop) :
    Threaded (accepted ++ [m]) executed (queue ++ [.sendInLoop m]) := by
  refine ⟨?_, ?_⟩
  · intro t
    have horder := h.order t
    unfold ofThread at horder ⊢
    rw [sends_append, ← List.append_assoc, List.filter_append, horder, List.filter_append]
    rfl
  · intro x hx
    rw [sends_append] at hx
    rcases List.mem_append.mp hx with hx | hx
    · exact h.apart x hx
    · rw [List.mem_singleton.mp hx]
      exact hm

theorem notified {loop loop' : EventLoop Functor} (h : Threaded accepted executed loop.queued)
    (hnotified : Notified loop loop') : Threaded accepted executed loop'.queued := by
  rcases hnotified.queued with heq | heq
  · rw [heq]
    exact h
  · rw [heq]
    exact h.push (by simp)

end Threaded

namespace Buffered

variable {c c' : TcpConnection}

/-- A step that leaves the stream and the write interest alone. -/
theorem same (h : Buffered c) (hwire : c'.wire = c.wire)
    (hbuffer : c'.outputBuffer = c.outputBuffer) (hexecuted : c'.executed = c.executed)
    (hwriting : c'.isWriting = c.isWriting) (hcloses : c'.closes = c.closes)
    (hdestroys : c'.destroys = c.destroys) : Buffered c' := by
  refine ⟨?_, ?_, ?_⟩
  · rw [hwire, hbuffer, hexecuted]
    exact h.written
  · rw [hwriting, hbuffer]
    exact h.waiting
  · rw [hwriting, hbuffer, hcloses, hdestroys]
    exact h.watched

/-- The Channel is disabled for good. -/
theorem disabled (h : Buffered c) (hwire : c'.wire = c.wire)
    (hbuffer : c'.outputBuffer = c.outputBuffer) (hexecuted : c'.executed = c.executed)
    (hwriting : c'.isWriting = false) (hdown : c'.closes ≠ 0 ∨ c'.destroys ≠ 0) :
    Buffered c' := by
  refine ⟨?_, ?_, ?_⟩
  · rw [hwire, hbuffer, hexecuted]
    exact h.written
  · rw [hwriting]
    intro hfalse
    cases hfalse
  · intro hcloses hdestroys
    rcases hdown with hdown | hdown
    · exact absurd hcloses hdown
    · exact absurd hdestroys hdown

/-- Bytes are left over exactly when the direct write did not take them all. -/
theorem leftover (c : TcpConnection) (m : Message) (r : WriteResult) :
    m.bytes.drop (c.nwrote m r) ≠ [] ↔ c.nwrote m r < m.bytes.length := by
  rw [ne_eq, List.drop_eq_nil_iff, not_le]

theorem sendInLoop (h : Buffered c) (htable : Table c.poller) {m : Message} {r : WriteResult}
    (hexec : c.sendInLoop m r = .ok c') : Buffered c' := by
  have hstream := sent_stream h.written m r
  have hleftover := leftover c m r
  rw [sendInLoop_eq] at hexec
  split at hexec
  · rename_i hleft
    obtain ⟨p, hp, rfl⟩ := TcpConnection.change_ok.mp hexec
    have hwriting : (p.channels c.channel).isWriting = true := change_isWriting htable hp
    refine ⟨hstream, ?_, fun _ _ _ => hwriting⟩
    intro _
    simp [sent, hleftover.mpr hleft.1]
  · rename_i hleft
    rw [Except.ok.injEq] at hexec
    subst hexec
    refine ⟨hstream, ?_, ?_⟩
    · intro hw
      have hbuffer := h.waiting hw
      simp [sent, hbuffer]
    · intro hcloses hdestroys hne
      by_contra hw
      have hw : c.isWriting = false := Bool.eq_false_iff.mpr hw
      have hbuffer : c.outputBuffer = [] := by
        by_contra hsome
        simp [h.watched hcloses hdestroys hsome] at hw
      have hdrop : m.bytes.drop (c.nwrote m r) = [] := by
        by_contra hsome
        exact hleft ⟨hleftover.mp hsome, hw⟩
      exact hne (by simp [sent, hbuffer, hdrop])

theorem handleWrite (h : Buffered c) (htable : Table c.poller) {r : WriteResult}
    (hexec : c.handleWrite r = .ok c') : Buffered c' := by
  rcases handleWrite_cases hexec with ⟨rfl, -⟩ | ⟨n, hn, -, rfl⟩ | ⟨hw, hne, -, p, hp, rfl⟩
  · exact h
  · have hdrop : c.outputBuffer.drop n ≠ [] := by
      rw [ne_eq, List.drop_eq_nil_iff]
      omega
    have hbuffer : c.outputBuffer ≠ [] := by
      intro hnil
      simp [hnil] at hn
    refine ⟨?_, fun _ => hdrop, fun hcloses hdestroys _ => h.watched hcloses hdestroys hbuffer⟩
    change (c.wire ++ c.outputBuffer.take n) ++ c.outputBuffer.drop n = _
    rw [List.append_assoc, List.take_append_drop]
    exact h.written
  · have hidle : (p.channels c.channel).isWriting = false := change_isWriting htable hp
    have hdrained : Buffered (drained c p) := by
      refine ⟨?_, ?_, ?_⟩
      · change (c.wire ++ c.outputBuffer) ++ [] = stream c.executed
        rw [List.append_nil]
        exact h.written
      · intro hwriting
        change (p.channels c.channel).isWriting = true at hwriting
        simp [hidle] at hwriting
      · intro _ _ hsome
        exact absurd rfl hsome
    unfold finished shutdownInLoop
    split
    · split
      · exact hdrained.same rfl rfl rfl rfl rfl rfl
      · exact hdrained.same rfl rfl rfl rfl rfl rfl
    · exact hdrained.same rfl rfl rfl rfl rfl rfl

end Buffered

theorem initial_streamed {s : State} (h : Fresh s) : Streamed s := by
  have hinv := initial_inv h
  obtain ⟨poller, channel, fd, wc, owner, -, hfresh, -, -, rfl⟩ := h
  refine ⟨hinv, ⟨rfl, ?_, ?_⟩, ⟨fun _ => rfl, ?_⟩, fun _ => rfl⟩
  · change (poller.channels channel).isWriting = true → _
    rw [hfresh]
    simp [Channel.isWriting, Channel.construct]
  · intro _ _ hne
    exact absurd rfl hne
  · simp [TcpConnection.construct, EventLoop.queued, sends]

theorem shutdownInLoop_buffered {c : TcpConnection} (h : Buffered c) :
    Buffered c.shutdownInLoop := by
  unfold shutdownInLoop
  split
  · exact h
  · exact h.same rfl rfl rfl rfl rfl rfl

theorem shutdownInLoop_loop (c : TcpConnection) : c.shutdownInLoop.loop = c.loop := by
  unfold shutdownInLoop
  split <;> rfl

def wroteRest (c : TcpConnection) (r : WriteResult) : Bool :=
  c.isWriting = true ∧ c.outputBuffer ≠ [] ∧
    r.taken c.outputBuffer = some c.outputBuffer.length

theorem sendInLoop_loop {c c' : TcpConnection} {m : Message} {r : WriteResult}
    (h : c.sendInLoop m r = .ok c') : c'.loop = c.notify (c.wroteAll m r) := by
  rw [sendInLoop_eq] at h
  split at h
  · obtain ⟨p, -, rfl⟩ := TcpConnection.change_ok.mp h
    rfl
  · rw [Except.ok.injEq] at h
    subst h
    rfl

/-- The cases of `handleWrite`, told apart by whether it wrote all that was
left. -/
theorem handleWrite_rest {c c' : TcpConnection} {r : WriteResult} (h : c.handleWrite r = .ok c') :
    (wroteRest c r = false ∧ (c' = c ∨ ∃ n, n < c.outputBuffer.length ∧
      c' = { c with wire := c.wire ++ c.outputBuffer.take n
                    outputBuffer := c.outputBuffer.drop n })) ∨
    (wroteRest c r = true ∧ ∃ p, c' = finished (drained c p)) := by
  rcases handleWrite_cases h with ⟨hsame, hnot⟩ | ⟨n, hn, htaken, hpart⟩ |
    ⟨hw, hne, htaken, p, -, hall⟩
  · refine Or.inl ⟨?_, Or.inl hsame⟩
    simp only [wroteRest, decide_eq_false_iff_not, not_and]
    intro hw hne htaken
    rcases hnot with hidle | hnot
    · simp [hidle] at hw
    · obtain ⟨k, hk⟩ := Nat.exists_eq_succ_of_ne_zero
        (Nat.ne_of_gt (List.length_pos_iff.mpr hne))
      exact hnot k (by rw [htaken, hk])
  · refine Or.inl ⟨?_, Or.inr ⟨n, hn, hpart⟩⟩
    simp only [wroteRest, decide_eq_false_iff_not, not_and, htaken, Option.some.injEq]
    intro _ _ heq
    omega
  · exact Or.inr ⟨by simp [wroteRest, hw, hne, htaken], p, hall⟩

theorem handleWrite_fields {c c' : TcpConnection} {r : WriteResult}
    (h : c.handleWrite r = .ok c') : c'.accepted = c.accepted ∧ c'.executed = c.executed ∧
      c'.loop = c.notify (wroteRest c r) := by
  rcases handleWrite_rest h with ⟨hrest, rfl | ⟨n, -, rfl⟩⟩ | ⟨hrest, p, rfl⟩
  · rw [hrest]
    exact ⟨rfl, rfl, rfl⟩
  · rw [hrest]
    exact ⟨rfl, rfl, rfl⟩
  · rw [hrest]
    unfold finished
    split
    · refine ⟨?_, ?_, shutdownInLoop_loop _⟩
      · unfold shutdownInLoop
        split <;> rfl
      · unfold shutdownInLoop
        split <;> rfl
    · exact ⟨rfl, rfl, rfl⟩

theorem send_streamed {s : State} (h : Streamed s) {thread : Thread} {bytes : Bytes}
    {r : WriteResult} {conn : TcpConnection} (hinv : Inv { s with conn := conn })
    (hexec : s.conn.send thread bytes r = .ok conn) : Streamed { s with conn := conn } := by
  unfold TcpConnection.send at hexec
  split at hexec
  · dsimp only at hexec
    have haccept : Buffered { s.conn with
        accepted := s.conn.accepted ++ [.next s.conn.accepted thread bytes] } :=
      h.buffered.same rfl rfl rfl rfl rfl rfl
    split at hexec
    · rename_i hthread
      obtain ⟨hexecuted, haccepted, -, -, -, hloop⟩ := sendInLoop_fields hexec
      refine ⟨hinv, haccept.sendInLoop h.inv.placed.table hexec, ?_, ?_⟩
      · change Threaded conn.accepted conn.executed conn.loop.queued
        rw [hexecuted, haccepted]
        exact (h.threaded.acceptDirect hthread).notified hloop
      · intro hphase
        exact hloop.functors.trans (h.batch (hloop.phase ▸ hphase))
    · rename_i hthread
      rw [Except.ok.injEq] at hexec
      subst hexec
      refine ⟨hinv, haccept.same rfl rfl rfl rfl rfl rfl, ?_, h.batch⟩
      change Threaded _ _ (s.conn.loop.queueInLoop _).queued
      rw [EventLoop.queued_queueInLoop]
      exact h.threaded.acceptQueued hthread
  · rw [Except.ok.injEq] at hexec
    subst hexec
    exact h

theorem shutdown_streamed {s : State} (h : Streamed s) {thread : Thread}
    (hinv : Inv { s with conn := s.conn.shutdown thread }) :
    Streamed { s with conn := s.conn.shutdown thread } := by
  have hcalled : ∀ state, Buffered { s.conn with
      closers := s.conn.closers ++ [thread], state := state } :=
    fun _ => h.buffered.same rfl rfl rfl rfl rfl rfl
  unfold TcpConnection.shutdown at hinv ⊢
  dsimp only at hinv ⊢
  by_cases hconn : s.conn.state = .kConnected
  · rw [if_pos hconn] at hinv ⊢
    by_cases hthread : thread = .loop
    · rw [if_pos hthread] at hinv ⊢
      refine ⟨hinv, shutdownInLoop_buffered (hcalled _), ?_, ?_⟩
      · unfold TcpConnection.shutdownInLoop
        split <;> exact h.threaded
      · rw [shutdownInLoop_loop]
        exact h.batch
    · rw [if_neg hthread] at hinv ⊢
      exact ⟨hinv, h.buffered.same rfl rfl rfl rfl rfl rfl, h.threaded.queueInLoop (by simp),
        h.batch⟩
  · rw [if_neg hconn] at hinv ⊢
    exact ⟨hinv, hcalled _, h.threaded, h.batch⟩

theorem handleClose_streamed {s : State} (h : Streamed s) {conn : TcpConnection}
    {rest : List Callback} (hinv : Inv ⟨conn, rest⟩) (hexec : s.conn.handleClose = .ok conn) :
    Streamed ⟨conn, rest⟩ := by
  obtain ⟨-, p, owner, hp, rfl, -⟩ := handleClose_cases hexec
  have hidle : (p.channels s.conn.channel).isWriting = false :=
    change_isWriting h.inv.placed.table hp
  exact ⟨hinv, h.buffered.disabled rfl rfl rfl hidle (Or.inl (Nat.succ_ne_zero _)),
    h.threaded.queueInLoop (by simp), h.batch⟩

theorem handle_streamed {s : State} (h : Streamed s) {read : ReadResult} {write : WriteResult}
    {cb : Callback} {rest : List Callback} {conn : TcpConnection} (hinv : Inv ⟨conn, rest⟩)
    (hexec : s.conn.handle read write cb = .ok conn) : Streamed ⟨conn, rest⟩ := by
  cases cb with
  | close => exact handleClose_streamed h hinv hexec
  | error =>
    rw [handle, Except.ok.injEq] at hexec
    subst hexec
    exact ⟨hinv, h.buffered, h.threaded, h.batch⟩
  | read =>
    cases read with
    | eof => exact handleClose_streamed h hinv hexec
    | data first more =>
      rw [handle, handleRead, Except.ok.injEq] at hexec
      subst hexec
      exact ⟨hinv, h.buffered.same rfl rfl rfl rfl rfl rfl, h.threaded, h.batch⟩
    | error =>
      rw [handle, handleRead, Except.ok.injEq] at hexec
      subst hexec
      exact ⟨hinv, h.buffered, h.threaded, h.batch⟩
  | write =>
    have hbuffered := h.buffered.handleWrite h.inv.placed.table hexec
    obtain ⟨haccepted, hexecuted, hnotify⟩ := handleWrite_fields hexec
    have hloop : Notified s.conn.loop conn.loop := hnotify ▸ notify_notified s.conn _
    refine ⟨hinv, hbuffered, ?_, ?_⟩
    · change Threaded conn.accepted conn.executed conn.loop.queued
      rw [haccepted, hexecuted]
      exact h.threaded.notified hloop
    · intro hphase
      exact hloop.functors.trans (h.batch (hloop.phase ▸ hphase))

theorem connectDestroyed_streamed {s : State} (h : Streamed s) {conn : TcpConnection}
    (hinv : Inv { s with conn := conn }) (hexec : s.conn.connectDestroyed = .ok conn) :
    Streamed { s with conn := conn } := by
  obtain ⟨-, p, q, hp, hq, rfl⟩ := connectDestroyed_cases hexec
  have hch := change_changed h.inv.placed.table hp
  have hidle : (q.channels s.conn.channel).isWriting = false := by
    rw [isWriting_iff, (removeChannel_removed hch.table hq).events, ← isWriting_iff]
    exact change_isWriting h.inv.placed.table hp
  exact ⟨hinv, h.buffered.disabled rfl rfl rfl hidle (Or.inr (Nat.succ_ne_zero _)), h.threaded,
    h.batch⟩

theorem functor_streamed {s : State} (h : Streamed s) {r : WriteResult} {f : Functor}
    {rest : List Functor} (hf : s.conn.loop.functors = f :: rest)
    (hcalling : s.conn.loop.phase = .calling) {conn : TcpConnection}
    (hinv : Inv { s with conn := conn })
    (hexec : { s.conn with loop := s.conn.loop.popFunctor }.call r f = .ok conn) :
    Streamed { s with conn := conn } := by
  have hthreaded := h.threaded
  rw [EventLoop.queued_popFunctor hf] at hthreaded
  have hbuffered : Buffered { s.conn with loop := s.conn.loop.popFunctor } :=
    h.buffered.same rfl rfl rfl rfl rfl rfl
  have hbatch : ∀ loop : EventLoop Functor, loop.phase = s.conn.loop.phase →
      loop.phase ≠ .calling → loop.functors = [] :=
    fun loop hphase hne => absurd (hphase.trans hcalling) hne
  cases f with
  | sendInLoop m =>
    obtain ⟨hexecuted, haccepted, -, -, -, hloop⟩ := sendInLoop_fields hexec
    refine ⟨hinv, hbuffered.sendInLoop h.inv.placed.table hexec, ?_, hbatch _ hloop.phase⟩
    change Threaded conn.accepted conn.executed conn.loop.queued
    rw [hexecuted, haccepted]
    exact hthreaded.popSend.notified hloop
  | shutdownInLoop =>
    rw [call, Except.ok.injEq] at hexec
    subst hexec
    have hrest := hthreaded.pop (f := .shutdownInLoop) (by simp)
    refine ⟨hinv, shutdownInLoop_buffered hbuffered, ?_, ?_⟩
    · unfold TcpConnection.shutdownInLoop
      split <;> exact hrest
    · rw [shutdownInLoop_loop]
      exact hbatch _ rfl
  | connectDestroyed =>
    have hpop : Streamed { s with conn := { s.conn with loop := s.conn.loop.popFunctor } } :=
      ⟨h.inv.same ⟨rfl, rfl, rfl, rfl⟩ (fun hne => hne), hbuffered, hthreaded.pop (by simp),
        hbatch _ rfl⟩
    exact connectDestroyed_streamed hpop hinv hexec
  | writeComplete | other =>
    rw [call, Except.ok.injEq] at hexec
    subst hexec
    exact ⟨hinv, hbuffered, hthreaded.pop (by simp), hbatch _ rfl⟩

/-- A change of the poller that leaves the connection's write interest. -/
theorem Streamed.poller {s : State} (h : Streamed s) {p : Poller}
    (hevents : (p.channels s.conn.channel).events = s.conn.ownChannel.events)
    (hinv : Inv { s with conn := { s.conn with poller := p } }) :
    Streamed { s with conn := { s.conn with poller := p } } := by
  refine ⟨hinv, h.buffered.same rfl rfl rfl ?_ rfl rfl, h.threaded, h.batch⟩
  change (p.channels s.conn.channel).isWriting = s.conn.ownChannel.isWriting
  rw [isWriting_iff, hevents, ← isWriting_iff]

theorem step_streamed {s s' : State} (h : Streamed s) {i : Input} (hallow : Allowed s i)
    (hexec : exec s i = .ok s') : Streamed s' := by
  have hinv := step_inv h.inv hallow hexec
  cases step_of_exec hallow hexec with
  | connectEstablished hestablish =>
    obtain ⟨p, hp, rfl⟩ := connectEstablished_ok hestablish
    have hwriting : (p.channels s.conn.channel).isWriting = s.conn.isWriting :=
      change_isWriting h.inv.placed.table hp
    exact ⟨hinv, h.buffered.same rfl rfl rfl hwriting rfl rfl, h.threaded, h.batch⟩
  | send hsend => exact send_streamed h hinv hsend
  | shutdown thread => exact shutdown_streamed h hinv
  | queueOther =>
    exact ⟨hinv, h.buffered.same rfl rfl rfl rfl rfl rfl, h.threaded.queueInLoop (by simp),
      h.batch⟩
  | pollTimeout =>
    have hpolling : s.conn.loop.phase ≠ .calling := by simp [hallow.2]
    exact ⟨hinv, h.buffered.same rfl rfl rfl rfl rfl rfl, h.threaded, fun _ => h.batch hpolling⟩
  | poll revents =>
    have hpolling : s.conn.loop.phase ≠ .calling := by simp [hallow.2.1]
    refine ⟨hinv, h.buffered.same rfl rfl rfl ?_ rfl rfl, h.threaded, fun _ => h.batch hpolling⟩
    simp [TcpConnection.isWriting, ownChannel, Poller.setRevents, Channel.isWriting]
  | callback hcurrent hhandle => exact handle_streamed h hinv hhandle
  | swapFunctors =>
    obtain ⟨-, hhandling, -⟩ := hallow
    refine ⟨hinv, h.buffered.same rfl rfl rfl rfl rfl rfl, ?_, fun hne => absurd rfl hne⟩
    change Threaded _ _ s.conn.loop.swapFunctors.queued
    rw [EventLoop.queued_swapFunctors (h.batch (by simp [hhandling]))]
    exact h.threaded
  | functor hf hcall => exact functor_streamed h hf hallow.2.1 hinv hcall
  | endIteration =>
    exact ⟨hinv, h.buffered.same rfl rfl rfl rfl rfl rfl, h.threaded, fun _ => hallow.2.2⟩
  | destroyClient =>
    exact ⟨hinv, h.buffered.same rfl rfl rfl rfl rfl rfl, h.threaded, h.batch⟩
  | otherChange hp =>
    have hch := change_changed h.inv.placed.table hp
    have hown := hch.others s.conn.channel (Ne.symm hallow.1)
    exact h.poller (congrArg Channel.events hown) hinv
  | otherRemove hp =>
    have hrm := removeChannel_removed h.inv.placed.table hp
    exact h.poller (hrm.events _) hinv

theorem reach_streamed {s : State} (h : Reachable system s) : Streamed s := by
  refine h.invariant ?_ ?_
  · intro s hs
    exact initial_streamed hs
  · intro s i s' hs hallow _ hexec
    exact step_streamed hs hallow hexec

/-- The write(2) that a step makes: the bytes offered and the result. -/
def attempt (s : State) : Input → Option (Bytes × WriteResult)
  | .send thread bytes r =>
      if s.conn.state = .kConnected ∧ thread = .loop ∧ s.conn.isWriting = false ∧
        s.conn.outputBuffer = [] then some (bytes, r) else none
  | .functor r =>
      match s.conn.loop.functors with
      | .sendInLoop m :: _ =>
          if s.conn.isWriting = false ∧ s.conn.outputBuffer = [] then some (m.bytes, r) else none
      | _ => none
  | .callback _ write =>
      if s.current.head? = some .write ∧ s.conn.isWriting = true then
        some (s.conn.outputBuffer, write) else none
  | _ => none

def Completing (s : State) (i : Input) (s' : State) : Prop :=
  (∃ bytes r n, attempt s i = some (bytes, r) ∧ r.taken bytes = some n) ∧
    s'.conn.outputBuffer = []

/-- The functors that a step adds to the queue, which only a swap shortens. -/
def queuedBy (s s' : State) : List Functor :=
  s'.conn.loop.pendingFunctors.drop s.conn.loop.pendingFunctors.length

/-- The step queues one `writeCompleteCallback` if it completes a write, and
none otherwise. -/
structure Reports (s : State) (i : Input) (s' : State) : Prop where
  appended : i ≠ .swapFunctors →
    s'.conn.loop.pendingFunctors = s.conn.loop.pendingFunctors ++ queuedBy s s'
  once : s.conn.writeCompleteCallback = true → Completing s i s' →
    (queuedBy s s').count .writeComplete = 1
  only : .writeComplete ∈ queuedBy s s' →
    s.conn.writeCompleteCallback = true ∧ Completing s i s'

theorem WriteResult.taken_le {bytes : Bytes} {r : WriteResult} {n : ℕ}
    (h : r.taken bytes = some n) : n ≤ bytes.length := by
  cases r with
  | error => simp [WriteResult.taken] at h
  | count k =>
    simp only [WriteResult.taken, Option.some.injEq] at h
    omega

theorem notify_pending (c : TcpConnection) (b : Bool) :
    (c.notify b).pendingFunctors = c.loop.pendingFunctors ++
      if b = true ∧ c.writeCompleteCallback = true then [.writeComplete] else [] := by
  unfold TcpConnection.notify
  by_cases h : b = true ∧ c.writeCompleteCallback = true
  · rw [if_pos h, if_pos (by simp [h])]
    rfl
  · rw [if_neg h, if_neg (by simpa using h), List.append_nil]

/-- A step that reports exactly when it completes. -/
theorem Reports.of_notify {s s' : State} {i : Input} {b : Bool}
    (hloop : s'.conn.loop.pendingFunctors = (s.conn.notify b).pendingFunctors)
    (hb : b = true ↔ Completing s i s') : Reports s i s' := by
  have hqueued : queuedBy s s' =
      if b = true ∧ s.conn.writeCompleteCallback = true then [.writeComplete] else [] := by
    rw [queuedBy, hloop, notify_pending, List.drop_left]
  refine ⟨?_, ?_, ?_⟩
  · intro _
    rw [hqueued, hloop, notify_pending]
  · intro hset hcomplete
    rw [hqueued, if_pos ⟨hb.mpr hcomplete, hset⟩]
    rfl
  · intro hmem
    rw [hqueued] at hmem
    split at hmem
    · rename_i hboth
      exact ⟨hboth.2, hb.mp hboth.1⟩
    · simp at hmem

/-- A step that makes no write reports nothing. -/
theorem Reports.of_silent {s s' : State} {i : Input} (hnone : attempt s i = none)
    (happended : i ≠ .swapFunctors →
      s'.conn.loop.pendingFunctors = s.conn.loop.pendingFunctors ++ queuedBy s s')
    (hqueued : .writeComplete ∉ queuedBy s s') : Reports s i s' := by
  refine ⟨happended, ?_, fun hmem => absurd hmem hqueued⟩
  rintro - ⟨⟨bytes, r, n, hsome, -⟩, -⟩
  rw [hnone] at hsome
  cases hsome

theorem Reports.of_same {s s' : State} {i : Input} (hnone : attempt s i = none)
    (hsame : s'.conn.loop.pendingFunctors = s.conn.loop.pendingFunctors) : Reports s i s' := by
  have hqueued : queuedBy s s' = [] := by rw [queuedBy, hsame, List.drop_length]
  refine Reports.of_silent hnone ?_ ?_
  · intro _
    rw [hqueued, hsame, List.append_nil]
  · rw [hqueued]
    exact List.not_mem_nil

theorem Reports.of_push {s s' : State} {i : Input} (hnone : attempt s i = none) {f : Functor}
    (hpush : s'.conn.loop.pendingFunctors = s.conn.loop.pendingFunctors ++ [f])
    (hf : f ≠ .writeComplete) : Reports s i s' := by
  have hqueued : queuedBy s s' = [f] := by rw [queuedBy, hpush, List.drop_left]
  refine Reports.of_silent hnone ?_ ?_
  · intro _
    rw [hqueued, hpush]
  · rw [hqueued, List.mem_singleton]
    exact Ne.symm hf

/-- `sendInLoop` reports exactly when its direct write succeeded and nothing is
left over. -/
theorem wroteAll_iff {c c' : TcpConnection} {m : Message} {r : WriteResult}
    (h : c.sendInLoop m r = .ok c') : c.wroteAll m r = true ↔
      ((c.isWriting = false ∧ c.outputBuffer = []) ∧ ∃ n, r.taken m.bytes = some n) ∧
        c'.outputBuffer = [] := by
  have hbuffer : c'.outputBuffer = c.outputBuffer ++ m.bytes.drop (c.nwrote m r) := by
    rw [sendInLoop_eq] at h
    split at h
    · obtain ⟨p, -, rfl⟩ := TcpConnection.change_ok.mp h
      rfl
    · rw [Except.ok.injEq] at h
      subst h
      rfl
  simp only [wroteAll, decide_eq_true_eq]
  constructor
  · rintro ⟨hidle, hempty, htaken⟩
    refine ⟨⟨⟨hidle, hempty⟩, _, htaken⟩, ?_⟩
    simp [hbuffer, nwrote, hidle, hempty, htaken]
  · rintro ⟨⟨⟨hidle, hempty⟩, n, htaken⟩, hrest⟩
    refine ⟨hidle, hempty, ?_⟩
    have hn : c.nwrote m r = n := by simp [nwrote, hidle, hempty, htaken]
    rw [hbuffer, hn, hempty, List.nil_append, List.drop_eq_nil_iff] at hrest
    have hle := WriteResult.taken_le htaken
    rw [htaken, Option.some.injEq]
    omega

/-- `handleWrite` reports exactly when its write succeeded and nothing is left. -/
theorem wroteRest_iff {c c' : TcpConnection} (hbuffered : Buffered c) {r : WriteResult}
    (h : c.handleWrite r = .ok c') : wroteRest c r = true ↔
      (c.isWriting = true ∧ ∃ n, r.taken c.outputBuffer = some n) ∧ c'.outputBuffer = [] := by
  rcases handleWrite_rest h with ⟨hrest, rfl | ⟨n, hn, rfl⟩⟩ | ⟨hrest, p, rfl⟩
  · rw [hrest]
    refine ⟨fun hall => absurd hall Bool.false_ne_true, ?_⟩
    rintro ⟨⟨hw, -⟩, hempty⟩
    exact absurd hempty (hbuffered.waiting hw)
  · rw [hrest]
    refine ⟨fun hall => absurd hall Bool.false_ne_true, ?_⟩
    rintro ⟨-, hempty⟩
    have hle := List.drop_eq_nil_iff.mp hempty
    omega
  · refine ⟨fun hall => ?_, fun _ => hrest⟩
    simp only [wroteRest, decide_eq_true_eq] at hall
    obtain ⟨hw, -, htaken⟩ := hall
    refine ⟨⟨hw, _, htaken⟩, ?_⟩
    unfold finished shutdownInLoop
    split
    · split <;> rfl
    · rfl

theorem completing_iff {s s' : State} {i : Input} {bytes : Bytes} {r : WriteResult} {p : Prop}
    [Decidable p] (h : attempt s i = if p then some (bytes, r) else none) :
    Completing s i s' ↔ (p ∧ ∃ n, r.taken bytes = some n) ∧ s'.conn.outputBuffer = [] := by
  unfold Completing
  rw [h]
  by_cases hp : p
  · simp [hp]
  · simp [hp]

/-- A `sendInLoop` on the connection of a state, up to what it does not read. -/
theorem sendInLoop_reports {s : State} {i : Input} {c conn : TcpConnection} {m : Message}
    {r : WriteResult} (hexec : c.sendInLoop m r = .ok conn)
    (hpending : c.loop.pendingFunctors = s.conn.loop.pendingFunctors)
    (hset : c.writeCompleteCallback = s.conn.writeCompleteCallback)
    (hattempt : attempt s i =
      if c.isWriting = false ∧ c.outputBuffer = [] then some (m.bytes, r) else none) :
    Reports s i { s with conn := conn } := by
  refine Reports.of_notify (b := c.wroteAll m r) ?_ ?_
  · change conn.loop.pendingFunctors = _
    rw [sendInLoop_loop hexec, notify_pending, notify_pending, hpending, hset]
  · rw [completing_iff hattempt]
    exact wroteAll_iff hexec

theorem send_reports {s : State} {thread : Thread} {bytes : Bytes} {r : WriteResult}
    {conn : TcpConnection} (hexec : s.conn.send thread bytes r = .ok conn) :
    Reports s (.send thread bytes r) { s with conn := conn } := by
  unfold TcpConnection.send at hexec
  split at hexec
  · rename_i hconn
    dsimp only at hexec
    split at hexec
    · rename_i hthread
      refine sendInLoop_reports hexec rfl rfl ?_
      simp only [attempt, hconn, hthread, true_and]
      rfl
    · rename_i hthread
      rw [Except.ok.injEq] at hexec
      subst hexec
      exact Reports.of_push (f := .sendInLoop (.next s.conn.accepted thread bytes))
        (by simp [attempt, hthread]) rfl (by simp)
  · rename_i hconn
    rw [Except.ok.injEq] at hexec
    subst hexec
    exact Reports.of_same (by simp [attempt, hconn]) rfl

theorem shutdown_reports {s : State} {thread : Thread} :
    Reports s (.shutdown thread) { s with conn := s.conn.shutdown thread } := by
  unfold TcpConnection.shutdown
  dsimp only
  split
  · split
    · exact Reports.of_same rfl (congrArg EventLoop.pendingFunctors (shutdownInLoop_loop _))
    · exact Reports.of_push (f := .shutdownInLoop) rfl rfl (by simp)
  · exact Reports.of_same rfl rfl

theorem handle_reports {s : State} (h : Streamed s) {read : ReadResult} {write : WriteResult}
    {cb : Callback} {rest : List Callback} (hcurrent : s.current = cb :: rest)
    {conn : TcpConnection} (hexec : s.conn.handle read write cb = .ok conn) :
    Reports s (.callback read write) ⟨conn, rest⟩ := by
  have hsilent : cb ≠ .write → attempt s (.callback read write) = none := by
    intro hcb
    simp [attempt, hcurrent, hcb]
  have hclose : cb ≠ .write → s.conn.handleClose = .ok conn →
      Reports s (.callback read write) ⟨conn, rest⟩ := by
    intro hcb hclose
    obtain ⟨-, p, owner, -, rfl, -⟩ := handleClose_cases hclose
    exact Reports.of_push (f := .connectDestroyed) (hsilent hcb) rfl (by simp)
  cases cb with
  | close => exact hclose (by simp) hexec
  | error =>
    rw [handle, Except.ok.injEq] at hexec
    subst hexec
    exact Reports.of_same (hsilent (by simp)) rfl
  | read =>
    cases read with
    | eof => exact hclose (by simp) hexec
    | data first more =>
      rw [handle, handleRead, Except.ok.injEq] at hexec
      subst hexec
      exact Reports.of_same (hsilent (by simp)) rfl
    | error =>
      rw [handle, handleRead, Except.ok.injEq] at hexec
      subst hexec
      exact Reports.of_same (hsilent (by simp)) rfl
  | write =>
    refine Reports.of_notify (b := wroteRest s.conn write)
      (congrArg EventLoop.pendingFunctors (handleWrite_fields hexec).2.2) ?_
    have hcompleting : Completing s (.callback read write) ⟨conn, rest⟩ ↔ _ := completing_iff rfl
    rw [hcompleting, wroteRest_iff h.buffered hexec]
    simp [hcurrent]

theorem functor_reports {s : State} {r : WriteResult} {f : Functor} {rest : List Functor}
    (hf : s.conn.loop.functors = f :: rest) {conn : TcpConnection}
    (hexec : { s.conn with loop := s.conn.loop.popFunctor }.call r f = .ok conn) :
    Reports s (.functor r) { s with conn := conn } := by
  cases f with
  | sendInLoop m =>
    refine sendInLoop_reports hexec rfl rfl ?_
    simp only [attempt, hf]
    rfl
  | shutdownInLoop =>
    rw [call, Except.ok.injEq] at hexec
    subst hexec
    refine Reports.of_same (by simp [attempt, hf]) ?_
    rw [shutdownInLoop_loop]
    rfl
  | connectDestroyed =>
    obtain ⟨-, p, q, -, -, rfl⟩ := connectDestroyed_cases hexec
    exact Reports.of_same (by simp [attempt, hf]) rfl
  | writeComplete | other =>
    rw [call, Except.ok.injEq] at hexec
    subst hexec
    exact Reports.of_same (by simp [attempt, hf]) rfl

theorem step_reports {s s' : State} (h : Streamed s) {i : Input} (hallow : Allowed s i)
    (hexec : exec s i = .ok s') : Reports s i s' := by
  cases step_of_exec hallow hexec with
  | connectEstablished hestablish =>
    obtain ⟨p, -, rfl⟩ := connectEstablished_ok hestablish
    exact Reports.of_same rfl rfl
  | send hsend => exact send_reports hsend
  | shutdown thread => exact shutdown_reports
  | queueOther => exact Reports.of_push (f := .other) rfl rfl (by simp)
  | callback hcurrent hhandle => exact handle_reports h hcurrent hhandle
  | swapFunctors =>
    refine Reports.of_silent rfl (fun hne => absurd rfl hne) ?_
    simp [queuedBy, EventLoop.swapFunctors]
  | functor hf hcall => exact functor_reports hf hcall
  | pollTimeout | poll | endIteration | destroyClient | otherChange | otherRemove =>
    exact Reports.of_same rfl rfl

/-- In every state of every run the bytes the socket took and the buffered ones
are the executed messages one after the other, each thread's in the order of
its sends; write interest is there exactly while bytes are buffered, until the
Channel is disabled; and a step queues a `writeCompleteCallback` exactly when it
completes a write, one each time, with everything executed so far written. -/
theorem output_stream_integrity {s : State} (h : Reachable system s) :
    s.conn.wire ++ s.conn.outputBuffer = stream s.conn.executed ∧
    (∀ t, ofThread t (s.conn.executed ++ sends s.conn.loop.queued) =
      ofThread t s.conn.accepted) ∧
    (s.conn.closes = 0 → s.conn.destroys = 0 →
      (s.conn.isWriting = true ↔ s.conn.outputBuffer ≠ [])) ∧
    ∀ i s', Allowed s i → exec s i = .ok s' → Reports s i s' ∧
      (Completing s i s' → s'.conn.wire = stream s'.conn.executed) := by
  have hstreamed := reach_streamed h
  have hbuffered := hstreamed.buffered
  refine ⟨hbuffered.written, hstreamed.threaded.order, ?_, ?_⟩
  · intro hcloses hdestroys
    exact ⟨hbuffered.waiting, hbuffered.watched hcloses hdestroys⟩
  · intro i s' hallow hexec
    refine ⟨step_reports hstreamed hallow hexec, ?_⟩
    rintro ⟨-, hempty⟩
    have hwritten := (step_streamed hstreamed hallow hexec).buffered.written
    rw [hempty, List.append_nil] at hwritten
    exact hwritten

def reporting : State :=
  ⟨TcpConnection.construct (initial fun c => c + 7) 0 true (.server true), []⟩

theorem reporting_fresh : Fresh reporting :=
  ⟨initial fun c => c + 7, 0, 7, true, .server true, initial_table _, rfl, rfl, Or.inl rfl, rfl⟩

/-- A direct write takes one byte of two, another thread's message is appended
behind the rest, and `handleWrite` needs two writes for all of it. -/
def partialWrites : List Input :=
  [.connectEstablished, .send .loop [1, 2] (.count 1), .send (.other 1) [3] .error,
    .swapFunctors, .functor .error, .endIteration, .poll (some pollOut),
    .callback .error (.count 1), .swapFunctors, .endIteration, .poll (some pollOut)]

theorem partialWrites_reported : ∃ s s', Reachable system s ∧
    exec s (.callback .error (.count 1)) = .ok s' ∧ s'.conn.wire = [1, 2, 3] ∧
    Completing s (.callback .error (.count 1)) s' ∧
    (queuedBy s s').count .writeComplete = 1 := by
  obtain ⟨s, hs, htest⟩ := exists_of_replay (M := system) Free reporting_fresh partialWrites
    (fun s => decide (system.allowed s (.callback .error (.count 1)) ∧
      s.conn.writeCompleteCallback = true ∧
      s.current.head? = some .write ∧ s.conn.isWriting = true ∧ s.conn.outputBuffer = [3] ∧
      ((exec s (.callback .error (.count 1))).toOption.map fun s' =>
        (s'.conn.wire, s'.conn.outputBuffer)) = some ([1, 2, 3], []))) (by decide)
  obtain ⟨hallow, hset, hhead, hw, hbuffer, hnext⟩ := of_decide_eq_true htest
  cases hexec : exec s (.callback .error (.count 1)) with
  | error e => simp [hexec, Except.toOption] at hnext
  | ok s' =>
    simp only [hexec, Except.toOption, Option.map_some, Option.some.injEq, Prod.mk.injEq] at hnext
    have hcomplete : Completing s (.callback .error (.count 1)) s' := by
      refine ⟨⟨[3], .count 1, 1, ?_, rfl⟩, hnext.2⟩
      simp [attempt, hhead, hw, hbuffer]
    obtain ⟨hreports, -⟩ := (output_stream_integrity hs).2.2.2 (.callback .error (.count 1)) s'
      hallow hexec
    exact ⟨s, s', hs, hexec, hnext.1, hcomplete, hreports.once hset hcomplete⟩

end TinyMuduo.ConnectionRuns
