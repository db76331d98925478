import TinyMuduo.ConnectionRuns

/-!
What has been written when a connection shuts its write side down. `shutdown`
changes the state at once, while the sends that its thread made before it may
still be queued. The queue is called in order, so a queued `shutdownInLoop`
comes after all of them, and a `shutdown` on the loop thread comes after sends
that were made at once. `handleWrite` does not wait for the queue when it drains
the output buffer of a disconnecting connection, and loses data exactly when a
send of a thread that called `shutdown` is still queued.
-/
namespace TinyMuduo.ConnectionRuns

open TcpConnection Poller Channel Checked Runs

def stream (messages : List Message) : Bytes := (messages.map Message.bytes).flatten

def sends (queue : List Functor) : List Message :=
  queue.filterMap fun f => match f with
    | .sendInLoop m => some m
    | _ => none

/-- Every byte that `send` had accepted from a thread that has called `shutdown`
was written, in the place of its message in the stream. -/
def Cut.Complete (cut : Cut) : Prop :=
  ∀ m ∈ cut.accepted, m.sender ∈ cut.closers → m.bytes ≠ [] →
    ∃ before after, cut.executed = before ++ m :: after ∧
      (stream before ++ m.bytes) <+: cut.wire

def ShutdownLaw (s : State) : Prop := ∀ cut ∈ s.conn.cuts, Cut.Complete cut

/-- The peer does not hang up, and readv(2) does not report the end of the
stream. -/
def PeerOpen (s : State) : Input → Prop
  | .callback read _ => s.current.head? ≠ some .close ∧
      (s.current.head? = some .read → read ≠ .eof)
  | _ => True

def openSystem : System State Input Fault :=
  { system with allowed := fun s i => Allowed s i ∧ PeerOpen s i }

/-- No send of some bytes is queued that a thread made before its `shutdown`. -/
def Settled (s : State) : Prop :=
  ∀ m ∈ sends s.conn.loop.queued, m.sender ∈ s.conn.closers → m.bytes = []

/-- A `handleWrite` that drains the buffer of a disconnecting connection comes
when no send made before a `shutdown` is queued. -/
def Graceful (s : State) : Input → Prop
  | .callback _ write => s.current.head? = some .write → s.conn.state = .kDisconnecting →
      s.conn.isWriting = true → write.taken s.conn.outputBuffer = some s.conn.outputBuffer.length →
      Settled s
  | _ => True

@[simp]
theorem stream_append (a b : List Message) : stream (a ++ b) = stream a ++ stream b := by
  simp [stream]

@[simp]
theorem stream_singleton (m : Message) : stream [m] = m.bytes := by
  simp [stream]

@[simp]
theorem sends_append (a b : List Functor) : sends (a ++ b) = sends a ++ sends b := by
  simp [sends]

theorem sends_cons_send (m : Message) (rest : List Functor) :
    sends (.sendInLoop m :: rest) = m :: sends rest := rfl

theorem sends_cons_other {f : Functor} (hf : ∀ m, f ≠ .sendInLoop m) (rest : List Functor) :
    sends (f :: rest) = sends rest := by
  cases f with
  | sendInLoop m => exact absurd rfl (hf m)
  | shutdownInLoop | writeComplete | connectDestroyed | other => rfl

theorem mem_sends {m : Message} {queue : List Functor} :
    m ∈ sends queue ↔ .sendInLoop m ∈ queue := by
  induction queue with
  | nil => simp [sends]
  | cons f rest ih =>
    cases f with
    | sendInLoop m' => simp [sends_cons_send, ih]
    | shutdownInLoop | writeComplete | connectDestroyed | other =>
      rw [sends_cons_other (by simp), ih]
      simp

/-- Write events are asked for exactly while bytes are buffered, and the socket
has taken the rest of the stream. -/
structure Piped (c : TcpConnection) : Prop where
  writing : c.isWriting = true ↔ c.outputBuffer ≠ []
  written : c.wire ++ c.outputBuffer = stream c.executed

/-- The accepted messages are those executed and those queued by other threads;
no send is queued behind a `shutdownInLoop`, and nobody has called `shutdown`
while the connection is connected. -/
structure Booked (accepted executed : List Message) (closers : List Thread)
    (queue : List Functor) (state : StateE) : Prop where
  perm : (executed ++ sends queue).Perm accepted
  nodup : accepted.Nodup
  numbered : ∀ m ∈ accepted, m.number < accepted.length
  apart : ∀ m ∈ sends queue, m.sender ≠ .loop
  order : queue.Pairwise fun a b => a = .shutdownInLoop → ∀ m, b ≠ .sendInLoop m
  early : state = .kConnecting ∨ state = .kConnected → .shutdownInLoop ∉ queue ∧ closers = []
  kept : .connectDestroyed ∉ queue
  alive : state ≠ .kDisconnected

namespace Booked

variable {accepted executed : List Message} {closers : List Thread} {queue rest : List Functor}
  {state : StateE}

/-- A functor that is neither a send nor part of a shutdown. -/
theorem push (h : Booked accepted executed closers queue state) {f : Functor}
    (hf : f = .writeComplete ∨ f = .other) :
    Booked accepted executed closers (queue ++ [f]) state := by
  have hsends : sends (queue ++ [f]) = sends queue := by
    rcases hf with rfl | rfl <;> simp [sends]
  refine ⟨?_, h.nodup, h.numbered, ?_, ?_, ?_, ?_, h.alive⟩
  · rw [hsends]
    exact h.perm
  · rw [hsends]
    exact h.apart
  · refine List.pairwise_append.mpr ⟨h.order, List.pairwise_singleton _ _, ?_⟩
    intro a _ b hb _ m
    obtain rfl := List.mem_singleton.mp hb
    rcases hf with rfl | rfl <;> simp
  · intro hstate
    obtain ⟨hnone, hclosers⟩ := h.early hstate
    refine ⟨?_, hclosers⟩
    rcases hf with rfl | rfl <;> simp [hnone]
  · have hkept := h.kept
    rcases hf with rfl | rfl <;> simp [hkept]

/-- A new message is numbered past all others. -/
theorem fresh (h : Booked accepted executed closers queue state) (thread : Thread)
    (bytes : Bytes) :
    (accepted ++ [Message.next accepted thread bytes]).Nodup ∧
      ∀ m ∈ accepted ++ [Message.next accepted thread bytes],
        m.number < (accepted ++ [Message.next accepted thread bytes]).length := by
  constructor
  · refine List.nodup_append.mpr ⟨h.nodup, by simp, ?_⟩
    rintro a ha b hb rfl
    have hnumber := h.numbered a ha
    rw [List.mem_singleton.mp hb] at hnumber
    simp [Message.next] at hnumber
  · intro m hm
    rw [List.length_append, List.length_singleton]
    rcases List.mem_append.mp hm with hm | hm
    · have := h.numbered m hm
      omega
    · rw [List.mem_singleton.mp hm]
      exact Nat.lt_succ_self _

/-- A message sent on the loop thread. -/
theorem acceptDirect (h : Booked accepted executed closers queue state) (thread : Thread)
    (bytes : Bytes) :
    Booked (accepted ++ [Message.next accepted thread bytes])
      (executed ++ [Message.next accepted thread bytes]) closers queue state := by
  obtain ⟨hnodup, hnumbered⟩ := h.fresh thread bytes
  refine ⟨?_, hnodup, hnumbered, h.apart, h.order, h.early, h.kept, h.alive⟩
  have hswap : (executed ++ [Message.next accepted thread bytes] ++ sends queue).Perm
      ((executed ++ sends queue) ++ [Message.next accepted thread bytes]) := by
    rw [List.append_assoc, List.append_assoc]
    exact List.Perm.append_left _ List.perm_append_comm
  exact hswap.trans (h.perm.append_right _)

/-- A message queued by another thread. -/
theorem acceptQueued (h : Booked accepted executed closers queue .kConnected) {thread : Thread}
    (hthread : thread ≠ .loop) (bytes : Bytes) :
    Booked (accepted ++ [Message.next accepted thread bytes]) executed closers
      (queue ++ [.sendInLoop (Message.next accepted thread bytes)]) .kConnected := by
  obtain ⟨hnodup, hnumbered⟩ := h.fresh thread bytes
  refine ⟨?_, hnodup, hnumbered, ?_, ?_, ?_, ?_, h.alive⟩
  · rw [sends_append, ← List.append_assoc]
    exact h.perm.append_right _
  · intro m hm
    rw [sends_append] at hm
    rcases List.mem_append.mp hm with hm | hm
    · exact h.apart m hm
    · rw [List.mem_singleton.mp hm]
      exact hthread
  · refine List.pairwise_append.mpr ⟨h.order, List.pairwise_singleton _ _, ?_⟩
    rintro a ha b - rfl
    exact absurd ha (h.early (Or.inr rfl)).1
  · intro hstate
    obtain ⟨hnone, hclosers⟩ := h.early hstate
    exact ⟨by simp [hnone], hclosers⟩
  · have hkept := h.kept
    simp [hkept]

/-- `shutdown` on the loop thread, or in a state that ignores it. -/
theorem shutdownDirect (h : Booked accepted executed closers queue state) (thread : Thread) :
    Booked accepted executed (closers ++ [thread]) queue .kDisconnecting :=
  ⟨h.perm, h.nodup, h.numbered, h.apart, h.order, by simp, h.kept, by simp⟩

/-- `shutdown` by another thread. -/
theorem shutdownQueued (h : Booked accepted executed closers queue state) (thread : Thread) :
    Booked accepted executed (closers ++ [thread]) (queue ++ [.shutdownInLoop])
      .kDisconnecting := by
  have hsends : sends (queue ++ [.shutdownInLoop]) = sends queue := by simp [sends]
  refine ⟨?_, h.nodup, h.numbered, ?_, ?_, by simp, ?_, by simp⟩
  · rw [hsends]
    exact h.perm
  · rw [hsends]
    exact h.apart
  · refine List.pairwise_append.mpr ⟨h.order, List.pairwise_singleton _ _, ?_⟩
    intro a _ b hb _ m
    rw [List.mem_singleton.mp hb]
    simp
  · have hkept := h.kept
    simp [hkept]

/-- What every functor that leaves the queue leaves in place. -/
theorem tail {f : Functor} (h : Booked accepted executed closers (f :: rest) state)
    {done : List Message} (hperm : (done ++ sends rest).Perm accepted) :
    Booked accepted done closers rest state := by
  refine ⟨hperm, h.nodup, h.numbered, ?_, (List.pairwise_cons.mp h.order).2, ?_, ?_, h.alive⟩
  · intro m hm
    exact h.apart m (mem_sends.mpr (List.mem_cons_of_mem _ (mem_sends.mp hm)))
  · intro hstate
    obtain ⟨hnone, hclosers⟩ := h.early hstate
    exact ⟨fun hmem => hnone (List.mem_cons_of_mem _ hmem), hclosers⟩
  · intro hmem
    exact h.kept (List.mem_cons_of_mem _ hmem)

/-- The next functor is a send. -/
theorem popSend {m : Message}
    (h : Booked accepted executed closers (.sendInLoop m :: rest) state) :
    Booked accepted (executed ++ [m]) closers rest state := by
  refine h.tail ?_
  have hperm := h.perm
  rw [sends_cons_send] at hperm
  simpa using hperm

/-- The next functor is not a send. -/
theorem pop {f : Functor} (h : Booked accepted executed closers (f :: rest) state)
    (hf : ∀ m, f ≠ .sendInLoop m) : Booked accepted executed closers rest state := by
  refine h.tail ?_
  have hperm := h.perm
  rw [sends_cons_other hf] at hperm
  exact hperm

/-- Behind a `shutdownInLoop` no send is queued. -/
theorem behind_shutdown (h : Booked accepted executed closers (.shutdownInLoop :: rest) state) :
    sends rest = [] := by
  have hnone := (List.pairwise_cons.mp h.order).1
  rw [List.eq_nil_iff_forall_not_mem]
  intro m hm
  exact hnone _ (mem_sends.mp hm) rfl m rfl

end Booked

/-- With an empty output buffer, what was written is complete exactly when no
send made before a `shutdown` is queued. -/
theorem complete_iff {accepted executed : List Message} {closers before : List Thread}
    {queue : List Functor} {state : StateE} (h : Booked accepted executed before queue state) :
    Cut.Complete ⟨accepted, executed, closers, stream executed⟩ ↔
      ∀ m ∈ sends queue, m.sender ∈ closers → m.bytes = [] := by
  constructor
  · intro hcomplete m hm hcloser
    by_contra hbytes
    have hmem : m ∈ accepted := h.perm.subset (List.mem_append_right _ hm)
    obtain ⟨before, after, hexec, -⟩ := hcomplete m hmem hcloser hbytes
    have hnodup : (executed ++ sends queue).Nodup := h.perm.nodup_iff.mpr h.nodup
    have hdone : m ∈ executed := by
      simp only at hexec
      rw [hexec]
      simp
    exact List.disjoint_of_nodup_append hnodup hdone hm
  · intro hnone m hm hcloser hbytes
    have hboth := List.mem_append.mp (h.perm.symm.subset hm)
    rcases hboth with hdone | hqueued
    · obtain ⟨before, after, heq⟩ := List.append_of_mem hdone
      refine ⟨before, after, heq, ?_⟩
      simp only
      rw [heq]
      exact ⟨stream after, by simp [stream]⟩
    · exact absurd (hnone m hqueued hcloser) hbytes

theorem change_isWriting {p p' : Poller} {c : ChannelId} (htable : Table p) {interest : Interest}
    (h : p.change c interest = .ok p') :
    (p'.channels c).isWriting = interest.writing (p.channels c).isWriting :=
  isWriting_apply interest (change_changed htable h).events

/-- `sendInLoop` appends the message to the stream. -/
theorem sent_stream {c : TcpConnection} (h : c.wire ++ c.outputBuffer = stream c.executed)
    (m : Message) (r : WriteResult) :
    (sent c m r).wire ++ (sent c m r).outputBuffer = stream (sent c m r).executed := by
  change (c.wire ++ m.bytes.take (c.nwrote m r)) ++
    (c.outputBuffer ++ m.bytes.drop (c.nwrote m r)) = stream (c.executed ++ [m])
  rw [stream_append, stream_singleton, ← h]
  by_cases hbuffer : c.outputBuffer = []
  · simp [hbuffer]
  · have hn : c.nwrote m r = 0 := by simp [nwrote, hbuffer]
    simp [hn]

theorem Piped.sendInLoop {c c' : TcpConnection} (h : Piped c) (htable : Table c.poller)
    {m : Message} {r : WriteResult} (hexec : c.sendInLoop m r = .ok c') : Piped c' := by
  have hstream := sent_stream h.written m r
  rw [sendInLoop_eq] at hexec
  split at hexec
  · rename_i hleft
    obtain ⟨p, hp, rfl⟩ := TcpConnection.change_ok.mp hexec
    refine ⟨?_, hstream⟩
    have hwriting : (p.channels c.channel).isWriting = true := change_isWriting htable hp
    have hkept : m.bytes.drop (c.nwrote m r) ≠ [] := by
      rw [ne_eq, List.drop_eq_nil_iff]
      omega
    constructor
    · intro _
      simp [TcpConnection.sent, hkept]
    · intro _
      exact hwriting
  · rename_i hleft
    rw [Except.ok.injEq] at hexec
    subst hexec
    refine ⟨?_, hstream⟩
    change c.isWriting = true ↔ c.outputBuffer ++ m.bytes.drop (c.nwrote m r) ≠ []
    by_cases hw : c.isWriting = true
    · have hbuffer := h.writing.mp hw
      simp [hw, hbuffer]
    · have hbuffer : c.outputBuffer = [] := by
        by_contra hne
        exact hw (h.writing.mpr hne)
      have hdrop : m.bytes.drop (c.nwrote m r) = [] := by
        refine List.drop_eq_nil_of_le ?_
        by_contra hlt
        exact hleft ⟨by omega, by simpa using hw⟩
      simp [hw, hbuffer, hdrop]

structure Flow (s : State) : Prop where
  inv : Inv s
  piped : Piped s.conn
  booked : Booked s.conn.accepted s.conn.executed s.conn.closers s.conn.loop.queued s.conn.state
  batch : s.conn.loop.phase ≠ .calling → s.conn.loop.functors = []

/-- A `shutdownWrite` of a connection with nothing left to write. -/
theorem Flow.complete_cut {c : TcpConnection} (hpiped : Piped c) {closers before : List Thread}
    {queue : List Functor} {state : StateE}
    (hbooked : Booked c.accepted c.executed before queue state) (hidle : c.isWriting = false) :
    Cut.Complete ⟨c.accepted, c.executed, closers, c.wire⟩ ↔
      ∀ m ∈ sends queue, m.sender ∈ closers → m.bytes = [] := by
  have hbuffer : c.outputBuffer = [] := by
    by_contra hne
    simp [hpiped.writing.mpr hne] at hidle
  have hwire : c.wire = stream c.executed := by
    rw [← hpiped.written, hbuffer, List.append_nil]
  rw [hwire]
  exact complete_iff hbooked

/-- What a step does to the law: at most one more `shutdownWrite`. -/
theorem law_cons {cuts : List Cut} (hold : ∀ cut ∈ cuts, Cut.Complete cut) (cut : Cut) :
    (∀ x ∈ cut :: cuts, Cut.Complete x) ↔ Cut.Complete cut := by
  constructor
  · intro hall
    exact hall cut (List.mem_cons_self ..)
  · intro hcut x hx
    rcases List.mem_cons.mp hx with rfl | hx
    · exact hcut
    · exact hold x hx

theorem initial_flow {s : State} (h : Fresh s) : Flow s := by
  have hinv := initial_inv h
  obtain ⟨poller, channel, fd, wc, owner, -, hfresh, -, -, rfl⟩ := h
  refine ⟨hinv, ⟨?_, rfl⟩, ⟨?_, ?_, ?_, ?_, ?_, ?_, ?_, ?_⟩, fun _ => rfl⟩
  · change (poller.channels channel).isWriting = true ↔ ([] : Bytes) ≠ []
    rw [hfresh]
    simp [Channel.isWriting, Channel.construct]
  · exact List.Perm.refl _
  · exact List.nodup_nil
  · simp [TcpConnection.construct]
  · simp [TcpConnection.construct, EventLoop.queued, sends]
  · exact List.Pairwise.nil
  · simp [TcpConnection.construct, EventLoop.queued]
  · simp [TcpConnection.construct, EventLoop.queued]
  · simp [TcpConnection.construct]

structure Notified (loop loop' : EventLoop Functor) : Prop where
  phase : loop'.phase = loop.phase
  functors : loop'.functors = loop.functors
  queued : loop'.queued = loop.queued ∨ loop'.queued = loop.queued ++ [.writeComplete]

theorem notify_notified (c : TcpConnection) (complete : Bool) :
    Notified c.loop (c.notify complete) := by
  unfold TcpConnection.notify
  split
  · exact ⟨rfl, rfl, Or.inr (EventLoop.queued_queueInLoop _ _)⟩
  · exact ⟨rfl, rfl, Or.inl rfl⟩

theorem Booked.notified {accepted executed : List Message} {closers : List Thread}
    {loop loop' : EventLoop Functor} {state : StateE}
    (h : Booked accepted executed closers loop.queued state) (hnotified : Notified loop loop') :
    Booked accepted executed closers loop'.queued state := by
  rcases hnotified.queued with heq | heq
  · rw [heq]
    exact h
  · rw [heq]
    exact h.push (Or.inl rfl)

theorem sendInLoop_fields {c c' : TcpConnection} {m : Message} {r : WriteResult}
    (h : c.sendInLoop m r = .ok c') :
    c'.executed = c.executed ++ [m] ∧ c'.accepted = c.accepted ∧ c'.closers = c.closers ∧
      c'.state = c.state ∧ c'.cuts = c.cuts ∧ Notified c.loop c'.loop := by
  rw [sendInLoop_eq] at h
  split at h
  · obtain ⟨p, -, rfl⟩ := TcpConnection.change_ok.mp h
    exact ⟨rfl, rfl, rfl, rfl, rfl, notify_notified c _⟩
  · rw [Except.ok.injEq] at h
    subst h
    exact ⟨rfl, rfl, rfl, rfl, rfl, notify_notified c _⟩

def Outcome (s : State) (i : Input) (s' : State) : Prop :=
  Flow s' ∧ (ShutdownLaw s → (ShutdownLaw s' ↔ Graceful s i))

/-- A step without a `shutdownWrite`. -/
theorem Outcome.quiet {s s' : State} {i : Input} (hflow : Flow s')
    (hcuts : s'.conn.cuts = s.conn.cuts) (hgraceful : Graceful s i) : Outcome s i s' := by
  refine ⟨hflow, fun hlaw => ⟨fun _ => hgraceful, fun _ => ?_⟩⟩
  unfold ShutdownLaw
  rw [hcuts]
  exact hlaw

/-- A step that performs `shutdownWrite` with an empty output buffer. -/
theorem Outcome.cut {s s' : State} {i : Input} (hflow : Flow s') {c : TcpConnection}
    (hpiped : Piped c) {closers before : List Thread} {queue : List Functor} {state : StateE}
    (hbooked : Booked c.accepted c.executed before queue state) (hidle : c.isWriting = false)
    (hcuts : s'.conn.cuts = ⟨c.accepted, c.executed, closers, c.wire⟩ :: s.conn.cuts)
    (hgraceful : Graceful s i ↔ ∀ m ∈ sends queue, m.sender ∈ closers → m.bytes = []) :
    Outcome s i s' := by
  refine ⟨hflow, fun hlaw => ?_⟩
  unfold ShutdownLaw
  rw [hcuts, law_cons hlaw, hgraceful]
  exact Flow.complete_cut hpiped hbooked hidle

theorem send_outcome {s : State} (h : Flow s) {thread : Thread} {bytes : Bytes}
    {r : WriteResult} {conn : TcpConnection} (hstate : s.conn.state ≠ .kConnecting)
    (hexec : s.conn.send thread bytes r = .ok conn) :
    Outcome s (.send thread bytes r) { s with conn := conn } := by
  have hinv := send_inv h.inv hstate hexec
  unfold TcpConnection.send at hexec
  split at hexec
  · rename_i hconn
    have hbooked := h.booked
    rw [hconn] at hbooked
    dsimp only at hexec
    split at hexec
    · have haccept : Piped { s.conn with
          accepted := s.conn.accepted ++ [.next s.conn.accepted thread bytes] } :=
        ⟨h.piped.writing, h.piped.written⟩
      have hpiped := haccept.sendInLoop h.inv.placed.table hexec
      obtain ⟨hexecuted, haccepted, hclosers, hst, hcuts, hloop⟩ := sendInLoop_fields hexec
      refine Outcome.quiet ⟨hinv, hpiped, ?_, ?_⟩ hcuts trivial
      · change Booked conn.accepted conn.executed conn.closers conn.loop.queued conn.state
        rw [hexecuted, haccepted, hclosers, hst, hconn]
        exact (hbooked.acceptDirect thread bytes).notified hloop
      · intro hphase
        exact hloop.functors.trans (h.batch (hloop.phase ▸ hphase))
    · rename_i hthread
      rw [Except.ok.injEq] at hexec
      subst hexec
      refine Outcome.quiet ⟨hinv, ⟨h.piped.writing, h.piped.written⟩, ?_, h.batch⟩ rfl trivial
      change Booked _ _ _ (s.conn.loop.queueInLoop _).queued s.conn.state
      rw [EventLoop.queued_queueInLoop, hconn]
      exact hbooked.acceptQueued hthread bytes
  · rw [Except.ok.injEq] at hexec
    subst hexec
    exact Outcome.quiet h rfl trivial

theorem shutdown_outcome {s : State} (h : Flow s) {thread : Thread}
    (hstate : s.conn.state ≠ .kConnecting) :
    Outcome s (.shutdown thread) { s with conn := s.conn.shutdown thread } := by
  have hinv := shutdown_inv h.inv thread
  have hpiped : ∀ state cuts, Piped { s.conn with
      closers := s.conn.closers ++ [thread], state := state, cuts := cuts } :=
    fun _ _ => ⟨h.piped.writing, h.piped.written⟩
  unfold TcpConnection.shutdown at hinv ⊢
  dsimp only at hinv ⊢
  split at hinv
  · rename_i hconn
    rw [if_pos hconn]
    split at hinv
    · rename_i hthread
      rw [if_pos hthread]
      unfold TcpConnection.shutdownInLoop at hinv ⊢
      split at hinv
      · rename_i hw
        rw [if_pos hw]
        exact Outcome.quiet ⟨hinv, hpiped _ _, h.booked.shutdownDirect thread, h.batch⟩ rfl trivial
      · rename_i hw
        rw [if_neg hw]
        have hidle : s.conn.isWriting = false := Bool.eq_false_iff.mpr hw
        refine Outcome.cut ⟨hinv, hpiped _ _, h.booked.shutdownDirect thread, h.batch⟩ h.piped
          h.booked hidle rfl ⟨fun _ m hm hcloser => ?_, fun _ => trivial⟩
        -- the only thread that has called `shutdown` is the loop's, which queues no sends
        rw [(h.booked.early (Or.inr hconn)).2, hthread] at hcloser
        exact absurd (List.mem_singleton.mp hcloser) (h.booked.apart m hm)
    · rename_i hthread
      rw [if_neg hthread]
      refine Outcome.quiet ⟨hinv, ?_, ?_, h.batch⟩ rfl trivial
      · exact ⟨h.piped.writing, h.piped.written⟩
      · change Booked _ _ _ (s.conn.loop.queueInLoop _).queued _
        rw [EventLoop.queued_queueInLoop]
        exact h.booked.shutdownQueued thread
  · rename_i hconn
    rw [if_neg hconn]
    have hdisc : s.conn.state = .kDisconnecting := by
      have halive := h.booked.alive
      cases hs : s.conn.state with
      | kConnecting => exact absurd hs hstate
      | kConnected => exact absurd hs hconn
      | kDisconnecting => rfl
      | kDisconnected => exact absurd hs halive
    refine Outcome.quiet ⟨hinv, hpiped _ _, ?_, h.batch⟩ rfl trivial
    change Booked _ _ _ _ s.conn.state
    rw [hdisc]
    exact h.booked.shutdownDirect thread

/-- `handleWrite` that drains the buffer, before it notifies and shuts down. -/
theorem Piped.drained {c : TcpConnection} (h : Piped c) (htable : Table c.poller) {p : Poller}
    (hp : c.poller.change c.channel .disableWriting = .ok p) :
    Piped (drained c p) ∧
      TcpConnection.isWriting (drained c p) = false := by
  have hidle : TcpConnection.isWriting (TcpConnection.drained c p) = false :=
    change_isWriting htable hp
  refine ⟨⟨?_, ?_⟩, hidle⟩
  · rw [hidle]
    simp [TcpConnection.drained]
  · change (c.wire ++ c.outputBuffer) ++ [] = ConnectionRuns.stream c.executed
    rw [List.append_nil]
    exact h.written

/-- A `handleWrite` that is not a drain of a disconnecting connection performs
no `shutdownWrite`. -/
theorem finished_cuts {c : TcpConnection} (h : c.state ≠ .kDisconnecting) :
    finished c = { c with loop := c.notify true } := by
  simp [finished, h]

theorem finished_disconnecting {c : TcpConnection} (h : c.state = .kDisconnecting)
    (hidle : c.isWriting = false) :
    finished c = { c with loop := c.notify true
                          cuts := ⟨c.accepted, c.executed, c.closers, c.wire⟩ :: c.cuts } := by
  unfold finished
  rw [if_pos h]
  exact if_neg (by simp [show TcpConnection.isWriting { c with loop := c.notify true } = false
    from hidle])

theorem handleWrite_outcome {s : State} (h : Flow s) {read : ReadResult} {r : WriteResult}
    {rest : List Callback} (hcurrent : s.current = .write :: rest) {conn : TcpConnection}
    (hinv : Inv ⟨conn, rest⟩) (hexec : s.conn.handleWrite r = .ok conn) :
    Outcome s (.callback read r) ⟨conn, rest⟩ := by
  rcases handleWrite_cases hexec with ⟨hsame, hnot⟩ | ⟨n, hn, htaken, rfl⟩ |
    ⟨hw, hne, htaken, p, hp, rfl⟩
  · rw [hsame] at hinv ⊢
    refine Outcome.quiet ⟨hinv, h.piped, h.booked, h.batch⟩ rfl ?_
    intro _ _ hw htaken
    rcases hnot with hidle | hnot
    · simp [hidle] at hw
    · have hpos := List.length_pos_iff.mpr (h.piped.writing.mp hw)
      obtain ⟨n, hn⟩ := Nat.exists_eq_succ_of_ne_zero (Nat.ne_of_gt hpos)
      rw [hn] at htaken
      exact absurd htaken (hnot n)
  · have hdrop : s.conn.outputBuffer.drop n ≠ [] := by
      rw [ne_eq, List.drop_eq_nil_iff]
      omega
    refine Outcome.quiet ⟨hinv, ⟨?_, ?_⟩, h.booked, h.batch⟩ rfl ?_
    · change s.conn.isWriting = true ↔ s.conn.outputBuffer.drop n ≠ []
      have hne : s.conn.outputBuffer ≠ [] := by
        intro hnil
        simp [hnil] at hn
      simp [h.piped.writing, hne, hdrop]
    · change (s.conn.wire ++ s.conn.outputBuffer.take n) ++ s.conn.outputBuffer.drop n = _
      rw [List.append_assoc, List.take_append_drop]
      exact h.piped.written
    · intro _ _ _ hall
      rw [hall, Option.some.injEq] at htaken
      omega
  · obtain ⟨hpiped, hidle⟩ := h.piped.drained h.inv.placed.table hp
    have hnotified := notify_notified (drained s.conn p) true
    have hbooked := h.booked.notified hnotified
    by_cases hstate : s.conn.state = .kDisconnecting
    · rw [finished_disconnecting (c := drained s.conn p) hstate hidle] at hinv ⊢
      refine Outcome.cut ⟨hinv, ⟨hpiped.writing, hpiped.written⟩, hbooked, ?_⟩ hpiped h.booked
        hidle rfl ?_
      · intro hphase
        exact hnotified.functors.trans (h.batch (hnotified.phase ▸ hphase))
      · constructor
        · intro hg
          exact hg (by simp [hcurrent]) hstate hw htaken
        · intro hnone _ _ _ _
          exact hnone
    · rw [finished_cuts (c := drained s.conn p) hstate] at hinv ⊢
      refine Outcome.quiet ⟨hinv, ⟨hpiped.writing, hpiped.written⟩, hbooked, ?_⟩ rfl ?_
      · intro hphase
        exact hnotified.functors.trans (h.batch (hnotified.phase ▸ hphase))
      · intro _ hdisc
        exact absurd hdisc hstate

/-- A change of the poller that leaves the connection's write interest. -/
theorem Flow.poller {s : State} (h : Flow s) {p : Poller}
    (hevents : (p.channels s.conn.channel).events = s.conn.ownChannel.events)
    (hinv : Inv { s with conn := { s.conn with poller := p } }) :
    Flow { s with conn := { s.conn with poller := p } } := by
  refine ⟨hinv, ⟨?_, h.piped.written⟩, h.booked, h.batch⟩
  change (p.channels s.conn.channel).isWriting = true ↔ _
  rw [isWriting_iff, hevents, ← isWriting_iff]
  exact h.piped.writing

/-- Every callback of the Channel, when the peer stays. -/
theorem handle_outcome {s : State} (h : Flow s) {read : ReadResult} {write : WriteResult}
    {cb : Callback} {rest : List Callback} (hcurrent : s.current = cb :: rest)
    (hopen : PeerOpen s (.callback read write)) {conn : TcpConnection}
    (hexec : s.conn.handle read write cb = .ok conn) :
    Outcome s (.callback read write) ⟨conn, rest⟩ := by
  have hinv : Inv ⟨conn, rest⟩ := handle_inv h.inv hcurrent hexec
  have hhead : s.current.head? = some cb := by simp [hcurrent]
  have hgraceful : cb ≠ .write → Graceful s (.callback read write) := by
    intro hcb hwrite
    rw [hhead, Option.some.injEq] at hwrite
    exact absurd hwrite hcb
  cases cb with
  | close => exact absurd hhead hopen.1
  | error =>
    rw [handle, Except.ok.injEq] at hexec
    subst hexec
    exact Outcome.quiet ⟨hinv, h.piped, h.booked, h.batch⟩ rfl (hgraceful (by simp))
  | read =>
    cases read with
    | eof => exact absurd rfl (hopen.2 hhead)
    | data first more =>
      rw [handle, handleRead, Except.ok.injEq] at hexec
      subst hexec
      exact Outcome.quiet ⟨hinv, ⟨h.piped.writing, h.piped.written⟩, h.booked, h.batch⟩ rfl
        (hgraceful (by simp))
    | error =>
      rw [handle, handleRead, Except.ok.injEq] at hexec
      subst hexec
      exact Outcome.quiet ⟨hinv, h.piped, h.booked, h.batch⟩ rfl (hgraceful (by simp))
  | write => exact handleWrite_outcome h hcurrent hinv hexec

/-- Every functor of the queue, when the peer stays. -/
theorem functor_outcome {s : State} (h : Flow s) {r : WriteResult} {f : Functor}
    {rest : List Functor} (hf : s.conn.loop.functors = f :: rest)
    (hcalling : s.conn.loop.phase = .calling) {conn : TcpConnection}
    (hinv : Inv { s with conn := conn })
    (hexec : { s.conn with loop := s.conn.loop.popFunctor }.call r f = .ok conn) :
    Outcome s (.functor r) { s with conn := conn } := by
  have hbooked := h.booked
  rw [EventLoop.queued_popFunctor hf] at hbooked
  have hpiped : Piped { s.conn with loop := s.conn.loop.popFunctor } :=
    ⟨h.piped.writing, h.piped.written⟩
  have hbatch : ∀ loop : EventLoop Functor, loop.phase = s.conn.loop.phase →
      loop.phase ≠ .calling → loop.functors = [] :=
    fun loop hphase hne => absurd (hphase.trans hcalling) hne
  cases f with
  | sendInLoop m =>
    obtain ⟨hexecuted, haccepted, hclosers, hst, hcuts, hloop⟩ := sendInLoop_fields hexec
    have hsent := hpiped.sendInLoop h.inv.placed.table hexec
    refine Outcome.quiet ⟨hinv, hsent, ?_, hbatch _ hloop.phase⟩ hcuts trivial
    change Booked conn.accepted conn.executed conn.closers conn.loop.queued conn.state
    rw [hexecuted, haccepted, hclosers, hst]
    exact hbooked.popSend.notified hloop
  | shutdownInLoop =>
    have hrest : Booked s.conn.accepted s.conn.executed s.conn.closers
        s.conn.loop.popFunctor.queued s.conn.state := hbooked.pop (by simp)
    rw [call, Except.ok.injEq, TcpConnection.shutdownInLoop] at hexec
    subst hexec
    split at hinv
    · rename_i hw
      rw [if_pos hw]
      exact Outcome.quiet ⟨hinv, hpiped, hrest, hbatch _ rfl⟩ rfl trivial
    · rename_i hw
      rw [if_neg hw]
      have hidle : s.conn.isWriting = false := Bool.eq_false_iff.mpr hw
      refine Outcome.cut ⟨hinv, ⟨hpiped.writing, hpiped.written⟩, hrest, hbatch _ rfl⟩ h.piped
        hrest hidle rfl ⟨fun _ m hm => ?_, fun _ => trivial⟩
      rw [hbooked.behind_shutdown] at hm
      simp at hm
  | connectDestroyed => exact absurd (List.mem_cons_self ..) hbooked.kept
  | writeComplete | other =>
    rw [call, Except.ok.injEq] at hexec
    subst hexec
    exact Outcome.quiet ⟨hinv, hpiped, hbooked.pop (by simp), hbatch _ rfl⟩ rfl trivial

theorem connectEstablished_outcome {s : State} (h : Flow s) (hstate : s.conn.state = .kConnecting)
    {p : Poller} (hp : s.conn.poller.change s.conn.channel .enableReading = .ok p) {ups : ℕ}
    (hinv : Inv { s with conn := { s.conn with poller := p, state := .kConnected, ups := ups } }) :
    Outcome s .connectEstablished
      { s with conn := { s.conn with poller := p, state := .kConnected, ups := ups } } := by
  have hbooked := h.booked
  rw [hstate] at hbooked
  have hwriting : (p.channels s.conn.channel).isWriting = s.conn.isWriting :=
    change_isWriting h.inv.placed.table hp
  refine Outcome.quiet ⟨hinv, ⟨?_, h.piped.written⟩, ?_, h.batch⟩ rfl trivial
  · change (p.channels s.conn.channel).isWriting = true ↔ _
    rw [hwriting]
    exact h.piped.writing
  · exact ⟨hbooked.perm, hbooked.nodup, hbooked.numbered, hbooked.apart, hbooked.order,
      fun _ => hbooked.early (Or.inl rfl), hbooked.kept, by simp⟩

/-- Every step, when the peer stays. -/
theorem step_outcome {s s' : State} (h : Flow s) {i : Input} (hallow : Allowed s i)
    (hopen : PeerOpen s i) (hexec : exec s i = .ok s') : Outcome s i s' := by
  have hinv := step_inv h.inv hallow hexec
  have hactive : s.conn.loop.phase ≠ .calling →
      Flow { s with conn := { s.conn with loop := s.conn.loop.handleActive } } := by
    intro hpolling
    exact ⟨⟨h.inv.placed, fun hne => ⟨rfl, (h.inv.busy hne).2⟩⟩,
      ⟨h.piped.writing, h.piped.written⟩, h.booked, fun _ => h.batch hpolling⟩
  cases step_of_exec hallow hexec with
  | connectEstablished hestablish =>
    obtain ⟨p, hp, rfl⟩ := connectEstablished_ok hestablish
    exact connectEstablished_outcome h hallow hp hinv
  | send hsend => exact send_outcome h hallow hsend
  | shutdown thread => exact shutdown_outcome h hallow
  | queueOther =>
    refine Outcome.quiet ⟨hinv, ⟨h.piped.writing, h.piped.written⟩, ?_, h.batch⟩ rfl trivial
    change Booked _ _ _ (s.conn.loop.queueInLoop _).queued _
    rw [EventLoop.queued_queueInLoop]
    exact h.booked.push (Or.inr rfl)
  | pollTimeout => exact Outcome.quiet (hactive (by simp [hallow.2])) rfl trivial
  | poll revents =>
    have hflow := hactive (by simp [hallow.2.1])
    have hkept := hflow.poller (p := s.conn.poller.setRevents s.conn.channel revents)
      (by simp [Poller.setRevents, ownChannel])
      ⟨h.inv.placed.setRevents revents, hflow.inv.busy⟩
    exact Outcome.quiet ⟨hinv, hkept.piped, hkept.booked, hkept.batch⟩ rfl trivial
  | callback hcurrent hhandle => exact handle_outcome h hcurrent hopen hhandle
  | swapFunctors =>
    obtain ⟨-, hhandling, -⟩ := hallow
    refine Outcome.quiet ⟨hinv, ⟨h.piped.writing, h.piped.written⟩, ?_, ?_⟩ rfl trivial
    · change Booked _ _ _ s.conn.loop.swapFunctors.queued _
      rw [EventLoop.queued_swapFunctors (h.batch (by simp [hhandling]))]
      exact h.booked
    · intro hne
      exact absurd rfl hne
  | functor hf hcall => exact functor_outcome h hf hallow.2.1 hinv hcall
  | endIteration =>
    exact Outcome.quiet ⟨hinv, ⟨h.piped.writing, h.piped.written⟩, h.booked,
      fun _ => hallow.2.2⟩ rfl trivial
  | destroyClient =>
    exact Outcome.quiet ⟨hinv, ⟨h.piped.writing, h.piped.written⟩, h.booked, h.batch⟩ rfl trivial
  | otherChange hp =>
    have hch := change_changed h.inv.placed.table hp
    have hown := hch.others s.conn.channel (Ne.symm hallow.1)
    exact Outcome.quiet (h.poller (congrArg Channel.events hown) hinv) rfl trivial
  | otherRemove hp =>
    have hrm := removeChannel_removed h.inv.placed.table hp
    exact Outcome.quiet (h.poller (hrm.events _) hinv) rfl trivial

theorem reach_flow {cond : State → Input → Prop} {s : State} (h : Reach openSystem cond s) :
    Flow s := by
  refine h.invariant ?_ ?_
  · intro s hs
    exact initial_flow hs
  · intro s i s' hs hallow _ hexec
    exact (step_outcome hs hallow.1 hallow.2 hexec).1

/-- In every run with a peer that stays, no `shutdownWrite` comes before the
bytes of a thread that called `shutdown`, exactly when no `handleWrite` drains
the buffer of a disconnecting connection ahead of a send that is still queued. -/
theorem shutdown_loses_nothing_iff {past : List (State × Input)} {s : State}
    (h : Run openSystem past s) :
    ((∀ p ∈ past, ShutdownLaw p.1) ∧ ShutdownLaw s) ↔ ∀ p ∈ past, Graceful p.1 p.2 := by
  refine h.law_iff ?_ ?_
  · rintro s ⟨poller, channel, fd, wc, owner, -, -, -, -, rfl⟩ cut hcut
    simp [TcpConnection.construct] at hcut
  · intro s i s' hreach hlaw hallow hexec
    exact (step_outcome (reach_flow hreach) hallow.1 hallow.2 hexec).2 hlaw

instance (s : State) : (i : Input) → Decidable (PeerOpen s i)
  | .callback read _ => inferInstanceAs (Decidable (s.current.head? ≠ some .close ∧
      (s.current.head? = some .read → read ≠ .eof)))
  | .connectEstablished | .send _ _ _ | .shutdown _ | .queueOther | .poll _ | .swapFunctors
  | .functor _ | .endIteration | .destroyClient | .otherChange _ _ | .otherRemove _ =>
      isTrue trivial

instance (s : State) (i : Input) : Decidable (openSystem.allowed s i) :=
  inferInstanceAs (Decidable (system.allowed s i ∧ PeerOpen s i))

instance (s : State) : Decidable (Settled s) :=
  inferInstanceAs (Decidable (∀ m ∈ sends s.conn.loop.queued,
    m.sender ∈ s.conn.closers → m.bytes = []))

instance (s : State) : (i : Input) → Decidable (Graceful s i)
  | .callback _ write => inferInstanceAs (Decidable (s.current.head? = some .write →
      s.conn.state = .kDisconnecting → s.conn.isWriting = true →
      write.taken s.conn.outputBuffer = some s.conn.outputBuffer.length → Settled s))
  | .connectEstablished | .send _ _ _ | .shutdown _ | .queueOther | .poll _ | .swapFunctors
  | .functor _ | .endIteration | .destroyClient | .otherChange _ _ | .otherRemove _ =>
      isTrue trivial

/-- The loop thread's message is written in part. Another thread sends and shuts
down, and both of its functors are called before the rest can be written. -/
def patientShutdown : List Input :=
  [.connectEstablished, .send .loop [1, 2] (.count 1), .send (.other 1) [3] .error,
    .shutdown (.other 1), .swapFunctors, .functor .error, .functor .error, .endIteration,
    .poll (some pollOut), .callback .error (.count 2)]

theorem patientShutdown_complete : ∃ past s, Run openSystem past s ∧ s.conn.wire = [1, 2, 3] ∧
    s.conn.cuts.length = 1 ∧ ShutdownLaw s := by
  obtain ⟨past, s, hrun, -, hcond, htest⟩ := exists_run_of_replay (M := openSystem) Graceful
    accepted_fresh patientShutdown
    (fun s => decide (s.conn.wire = [1, 2, 3] ∧ s.conn.cuts.length = 1)) (by decide)
  obtain ⟨hwire, hcuts⟩ := of_decide_eq_true htest
  exact ⟨past, s, hrun, hwire, hcuts, ((shutdown_loses_nothing_iff hrun).mpr hcond).2⟩

/-- The rest can be written while both functors of the other thread are queued. -/
def hastyShutdown : List Input :=
  [.connectEstablished, .send .loop [1, 2] (.count 1), .swapFunctors, .endIteration,
    .poll (some pollOut), .send (.other 1) [3] .error, .shutdown (.other 1),
    .callback .error (.count 1)]

theorem hastyShutdown_loses : ¬ ∀ s, Reachable openSystem s → ShutdownLaw s := by
  intro hall
  obtain ⟨s, hs, htest⟩ := exists_of_replay (M := openSystem) Free accepted_fresh hastyShutdown
    (fun s => decide (s.conn.cuts = [⟨[⟨0, .loop, [1, 2]⟩, ⟨1, .other 1, [3]⟩],
      [⟨0, .loop, [1, 2]⟩], [.other 1], [1, 2]⟩])) (by decide)
  have hcuts := of_decide_eq_true htest
  have hlaw := hall s hs _ (by rw [hcuts]; exact List.mem_singleton_self _)
    ⟨1, .other 1, [3]⟩ (by simp) (by simp) (by simp)
  obtain ⟨before, after, hexecuted, -⟩ := hlaw
  have hmem : (⟨1, .other 1, [3]⟩ : Message) ∈ before ++ ⟨1, .other 1, [3]⟩ :: after := by simp
  rw [← hexecuted] at hmem
  simp at hmem

end TinyMuduo.ConnectionRuns
