import TinyMuduo.BufferQueue
import TinyMuduo.OutputStream

/-!
Two connections at the ends of one TCP stream. Each end runs in an EventLoop of
its own, with any other Channels in it, and reads into a Buffer from which the
user retrieves. The kernel delivers the bytes that one end has written to the
other in order, some at a time; it reports the end of the stream only behind
the last of them, and only after `shutdownWrite` or after the socket was closed,
and it refuses to write after `shutdownWrite`.
-/
namespace TinyMuduo.ConnectionRuns

open TcpConnection Poller Channel Checked Runs

def delivered : ReadResult → Bytes
  | .data first rest => first :: rest
  | .eof | .error => []

def reading (s : State) : Input → Option ReadResult
  | .callback read _ => if s.current.head? = some .read then some read else none
  | _ => none

def readBy (s : State) (i : Input) : Bytes := ((reading s i).map delivered).getD []

def takenBytes (bytes : Bytes) (r : WriteResult) : Bytes := bytes.take ((r.taken bytes).getD 0)

def writtenBy (s : State) (i : Input) : Bytes :=
  ((attempt s i).map fun write => takenBytes write.1 write.2).getD []

structure Moved (c c' : TcpConnection) (wrote read : Bytes) : Prop where
  wire : c'.wire = c.wire ++ wrote
  input : c'.inputBuffer = c.inputBuffer ++ read
  cuts : c'.cuts = c.cuts ∨ ∃ cut, c'.cuts = cut :: c.cuts ∧ cut.wire = c'.wire ∧
    cut.executed = c'.executed ∧ c'.isWriting = false
  closes : c.closes ≤ c'.closes
  destroys : c.destroys ≤ c'.destroys

section Moved

variable {s s' : State} {c c' : TcpConnection} {m : Message} {r : WriteResult}

/-- A step that neither writes nor reads nor shuts down. -/
theorem Moved.idle (hwire : c'.wire = c.wire) (hinput : c'.inputBuffer = c.inputBuffer)
    (hcuts : c'.cuts = c.cuts) (hcloses : c.closes ≤ c'.closes)
    (hdestroys : c.destroys ≤ c'.destroys) : Moved c c' [] [] := by
  refine ⟨?_, ?_, Or.inl hcuts, hcloses, hdestroys⟩
  · rw [hwire, List.append_nil]
  · rw [hinput, List.append_nil]

theorem Moved.refl (c : TcpConnection) : Moved c c [] [] :=
  .idle rfl rfl rfl (Nat.le_refl _) (Nat.le_refl _)

theorem shutdownInLoop_moved (c : TcpConnection) : Moved c c.shutdownInLoop [] [] := by
  unfold shutdownInLoop
  split
  · exact .refl c
  · rename_i hidle
    refine ⟨?_, ?_, Or.inr ⟨_, rfl, rfl, rfl, ?_⟩, Nat.le_refl _, Nat.le_refl _⟩
    · exact (List.append_nil _).symm
    · exact (List.append_nil _).symm
    · exact Bool.not_eq_true _ ▸ hidle

theorem sendInLoop_moved (h : c.sendInLoop m r = .ok c') :
    Moved c c' (m.bytes.take (c.nwrote m r)) [] := by
  rw [sendInLoop_eq] at h
  split at h
  · obtain ⟨p, -, rfl⟩ := TcpConnection.change_ok.mp h
    exact ⟨rfl, (List.append_nil _).symm, Or.inl rfl, Nat.le_refl _, Nat.le_refl _⟩
  · rw [Except.ok.injEq] at h
    subst h
    exact ⟨rfl, (List.append_nil _).symm, Or.inl rfl, Nat.le_refl _, Nat.le_refl _⟩

theorem finished_moved (c : TcpConnection) : Moved c (finished c) [] [] := by
  unfold finished
  split
  · have hmoved := shutdownInLoop_moved { c with loop := c.notify true }
    exact ⟨hmoved.wire, hmoved.input, hmoved.cuts, hmoved.closes, hmoved.destroys⟩
  · exact .idle rfl rfl rfl (Nat.le_refl _) (Nat.le_refl _)

theorem handleWrite_moved (h : c.handleWrite r = .ok c') :
    Moved c c' (if c.isWriting = true then takenBytes c.outputBuffer r else []) [] := by
  by_cases hw : c.isWriting = true
  · rw [if_pos hw, takenBytes]
    rcases handleWrite_cases h with ⟨rfl, hnot⟩ | ⟨n, -, htaken, rfl⟩ | ⟨-, -, htaken, p, -, rfl⟩
    · have hzero : (r.taken c'.outputBuffer).getD 0 = 0 := by
        rcases hnot with hidle | hnone
        · simp [hidle] at hw
        · cases htaken : r.taken c'.outputBuffer with
          | none => rfl
          | some n =>
            cases n with
            | zero => rfl
            | succ n => exact absurd htaken (hnone n)
      rw [hzero, List.take_zero]
      exact .refl _
    · rw [htaken, Option.getD_some]
      exact ⟨rfl, (List.append_nil _).symm, Or.inl rfl, Nat.le_refl _, Nat.le_refl _⟩
    · rw [htaken, Option.getD_some, List.take_length]
      have hmoved := finished_moved (drained c p)
      refine ⟨?_, hmoved.input, hmoved.cuts, hmoved.closes, hmoved.destroys⟩
      rw [hmoved.wire, List.append_nil]
      rfl
  · unfold TcpConnection.handleWrite at h
    rw [if_neg hw, Except.ok.injEq] at h
    subst h
    rw [if_neg hw]
    exact .refl _

theorem handleClose_moved (h : c.handleClose = .ok c') : Moved c c' [] [] := by
  obtain ⟨-, p, owner, -, rfl, -⟩ := handleClose_cases h
  exact .idle rfl rfl rfl (Nat.le_succ _) (Nat.le_refl _)

theorem connectDestroyed_moved (h : c.connectDestroyed = .ok c') : Moved c c' [] [] := by
  obtain ⟨-, p, q, -, -, rfl⟩ := connectDestroyed_cases h
  exact .idle rfl rfl rfl (Nat.le_refl _) (Nat.le_succ _)

/-- The direct write of `sendInLoop` is the one that the step makes. -/
theorem take_nwrote (c : TcpConnection) (m : Message) (r : WriteResult) :
    m.bytes.take (c.nwrote m r) =
      if c.isWriting = false ∧ c.outputBuffer = [] then takenBytes m.bytes r else [] := by
  unfold nwrote takenBytes
  split
  · rfl
  · rw [List.take_zero]

theorem send_moved {thread : Thread} {bytes : Bytes} (h : s.conn.send thread bytes r = .ok c') :
    Moved s.conn c' (writtenBy s (.send thread bytes r)) [] := by
  unfold TcpConnection.send at h
  by_cases hstate : s.conn.state = .kConnected
  · rw [if_pos hstate] at h
    dsimp only at h
    by_cases hthread : thread = .loop
    · rw [if_pos hthread] at h
      have hmoved := sendInLoop_moved h
      rw [take_nwrote] at hmoved
      have hwritten : writtenBy s (.send thread bytes r) =
          if s.conn.isWriting = false ∧ s.conn.outputBuffer = [] then takenBytes bytes r
          else [] := by
        simp only [writtenBy, attempt, hstate, hthread, true_and]
        split <;> rfl
      rw [hwritten]
      exact ⟨hmoved.wire, hmoved.input, hmoved.cuts, hmoved.closes, hmoved.destroys⟩
    · rw [if_neg hthread, Except.ok.injEq] at h
      subst h
      have hnone : writtenBy s (.send thread bytes r) = [] := by simp [writtenBy, attempt, hthread]
      rw [hnone]
      exact .idle rfl rfl rfl (Nat.le_refl _) (Nat.le_refl _)
  · rw [if_neg hstate, Except.ok.injEq] at h
    subst h
    have hnone : writtenBy s (.send thread bytes r) = [] := by simp [writtenBy, attempt, hstate]
    rw [hnone]
    exact .refl _

theorem shutdown_moved (c : TcpConnection) (thread : Thread) :
    Moved c (c.shutdown thread) [] [] := by
  unfold TcpConnection.shutdown
  dsimp only
  split
  · split
    · have hmoved := shutdownInLoop_moved
        { c with closers := c.closers ++ [thread], state := .kDisconnecting }
      exact ⟨hmoved.wire, hmoved.input, hmoved.cuts, hmoved.closes, hmoved.destroys⟩
    · exact .idle rfl rfl rfl (Nat.le_refl _) (Nat.le_refl _)
  · exact .idle rfl rfl rfl (Nat.le_refl _) (Nat.le_refl _)

theorem handle_moved {read : ReadResult} {write : WriteResult} {cb : Callback}
    {rest : List Callback} (hcurrent : s.current = cb :: rest)
    (h : s.conn.handle read write cb = .ok c') :
    Moved s.conn c' (writtenBy s (.callback read write)) (readBy s (.callback read write)) := by
  cases cb with
  | close =>
    simpa [writtenBy, attempt, readBy, reading, hcurrent] using handleClose_moved h
  | error =>
    rw [handle, Except.ok.injEq] at h
    subst h
    simpa [writtenBy, attempt, readBy, reading, hcurrent] using Moved.refl s.conn
  | read =>
    have hwritten : writtenBy s (.callback read write) = [] := by
      simp [writtenBy, attempt, hcurrent]
    have hread : readBy s (.callback read write) = delivered read := by
      simp [readBy, reading, hcurrent]
    rw [hwritten, hread]
    cases read with
    | eof => exact handleClose_moved h
    | data first more =>
      rw [handle, handleRead, Except.ok.injEq] at h
      subst h
      exact ⟨(List.append_nil _).symm, rfl, Or.inl rfl, Nat.le_refl _, Nat.le_refl _⟩
    | error =>
      rw [handle, handleRead, Except.ok.injEq] at h
      subst h
      exact .refl _
  | write =>
    have hwritten : writtenBy s (.callback read write) =
        if s.conn.isWriting = true then takenBytes s.conn.outputBuffer write else [] := by
      simp only [writtenBy, attempt, hcurrent, List.head?_cons, true_and]
      split <;> rfl
    have hread : readBy s (.callback read write) = [] := by simp [readBy, reading, hcurrent]
    rw [hwritten, hread]
    exact handleWrite_moved h

theorem functor_moved {f : Functor} {rest : List Functor} (hf : s.conn.loop.functors = f :: rest)
    (h : { s.conn with loop := s.conn.loop.popFunctor }.call r f = .ok c') :
    Moved s.conn c' (writtenBy s (.functor r)) [] := by
  cases f with
  | sendInLoop m =>
    have hmoved := sendInLoop_moved h
    rw [take_nwrote] at hmoved
    have hwritten : writtenBy s (.functor r) =
        if s.conn.isWriting = false ∧ s.conn.outputBuffer = [] then takenBytes m.bytes r
        else [] := by
      simp only [writtenBy, attempt, hf]
      split <;> rfl
    rw [hwritten]
    exact ⟨hmoved.wire, hmoved.input, hmoved.cuts, hmoved.closes, hmoved.destroys⟩
  | shutdownInLoop =>
    rw [call, Except.ok.injEq] at h
    subst h
    have hmoved := shutdownInLoop_moved { s.conn with loop := s.conn.loop.popFunctor }
    have hnone : writtenBy s (.functor r) = [] := by simp [writtenBy, attempt, hf]
    rw [hnone]
    exact ⟨hmoved.wire, hmoved.input, hmoved.cuts, hmoved.closes, hmoved.destroys⟩
  | connectDestroyed =>
    have hmoved := connectDestroyed_moved h
    have hnone : writtenBy s (.functor r) = [] := by simp [writtenBy, attempt, hf]
    rw [hnone]
    exact ⟨hmoved.wire, hmoved.input, hmoved.cuts, hmoved.closes, hmoved.destroys⟩
  | writeComplete | other =>
    rw [call, Except.ok.injEq] at h
    subst h
    have hnone : writtenBy s (.functor r) = [] := by simp [writtenBy, attempt, hf]
    rw [hnone]
    exact .idle rfl rfl rfl (Nat.le_refl _) (Nat.le_refl _)

/-- What a step of a connection writes and reads. -/
theorem step_moved {i : Input} (hallow : Allowed s i) (hexec : exec s i = .ok s') :
    Moved s.conn s'.conn (writtenBy s i) (readBy s i) := by
  cases step_of_exec hallow hexec with
  | connectEstablished hestablish =>
    obtain ⟨p, -, rfl⟩ := connectEstablished_ok hestablish
    exact .idle rfl rfl rfl (Nat.le_refl _) (Nat.le_refl _)
  | send hsend => exact send_moved hsend
  | shutdown thread => exact shutdown_moved _ _
  | callback hcurrent hhandle => exact handle_moved hcurrent hhandle
  | functor hf hcall => exact functor_moved hf hcall
  | queueOther | pollTimeout | poll | swapFunctors | endIteration | destroyClient | otherChange
  | otherRemove => exact .idle rfl rfl rfl (Nat.le_refl _) (Nat.le_refl _)

end Moved

end TinyMuduo.ConnectionRuns

namespace TinyMuduo.PeerStream

open TcpConnection ConnectionRuns Checked Runs

/-- A connection, the Buffer that its `messageCallback` is given, and what has
happened to it. -/
structure Endpoint where
  run : ConnectionRuns.State
  inputBuffer : Buffer
  retrieved : Bytes
  eof : Bool
  /-- `~TcpConnection` has closed the socket -/
  closed : Bool

namespace Endpoint

def conn (p : Endpoint) : TcpConnection := p.run.conn

def received (p : Endpoint) : Bytes := p.retrieved ++ p.inputBuffer.readable

def Silent (p : Endpoint) : Prop := p.conn.cuts ≠ [] ∨ p.closed = true

instance (p : Endpoint) : Decidable p.Silent :=
  inferInstanceAs (Decidable (p.conn.cuts ≠ [] ∨ p.closed = true))

end Endpoint

abbrev State := Bool → Endpoint

inductive Input
  | step (e : Bool) (i : ConnectionRuns.Input)
  | retrieve (e : Bool) (len : ℕ)
  | retrieveAsString (e : Bool)
  | destroy (e : Bool)

/-- The bytes that an end has written and the other has not read. -/
def flight (s : State) (e : Bool) : Bytes :=
  (s e).conn.wire.drop (s !e).conn.inputBuffer.length

def Readable (s : State) (e : Bool) : ReadResult → Prop
  | .data first rest => first :: rest <+: flight s !e ∧
      rest.length < (s e).inputBuffer.writableBytes + Buffer.extraSize
  | .eof => flight s (!e) = [] ∧ (s !e).Silent
  | .error => True

instance (s : State) (e : Bool) : (read : ReadResult) → Decidable (Readable s e read)
  | .data first rest => inferInstanceAs (Decidable (first :: rest <+: flight s !e ∧
      rest.length < (s e).inputBuffer.writableBytes + Buffer.extraSize))
  | .eof => inferInstanceAs (Decidable (flight s (!e) = [] ∧ (s !e).Silent))
  | .error => isTrue trivial

/-- An end takes the steps of a connection until it is destroyed. A write fails
after `shutdownWrite`. -/
def Allowed (s : State) : Input → Prop
  | .step e i => (s e).closed = false ∧ ConnectionRuns.system.allowed (s e).run i ∧
      (∀ write ∈ attempt (s e).run i, (s e).conn.cuts ≠ [] → write.2 = .error) ∧
      ∀ read ∈ reading (s e).run i, Readable s e read
  | .retrieve e len => len ≤ (s e).inputBuffer.readableBytes
  | .retrieveAsString _ => True
  | .destroy e => (s e).conn.state = .kDisconnected

/-- The bytes that readv(2) leaves for `readFd`, if it does not fail. -/
def readv : ReadResult → Option Bytes
  | .data first rest => some (first :: rest)
  | .eof => some []
  | .error => none

def fill (p : Endpoint) (i : ConnectionRuns.Input) : Except Fault Buffer :=
  match reading p.run i with
  | some read => p.inputBuffer.readFd (readv read)
  | none => .ok p.inputBuffer

def exec (s : State) : Input → Except Fault State
  | .step e i => do
      let inputBuffer ← fill (s e) i
      let run ← ConnectionRuns.exec (s e).run i
      return Function.update s e { s e with
        run := run
        inputBuffer := inputBuffer
        eof := (s e).eof || decide (reading (s e).run i = some .eof) }
  | .retrieve e len => do
      let inputBuffer ← (s e).inputBuffer.retrieve len
      return Function.update s e { s e with
        inputBuffer := inputBuffer
        retrieved := (s e).retrieved ++ (s e).inputBuffer.readable.take len }
  | .retrieveAsString e => do
      let (str, inputBuffer) ← (s e).inputBuffer.retrieveAsString
      return Function.update s e { s e with
        inputBuffer := inputBuffer
        retrieved := (s e).retrieved ++ str }
  | .destroy e => .ok (Function.update s e { s e with closed := true })

def Fresh (s : State) : Prop :=
  ∀ e, ConnectionRuns.Fresh (s e).run ∧ Buffer.construct = .ok (s e).inputBuffer ∧
    (s e).retrieved = [] ∧ (s e).eof = false ∧ (s e).closed = false

def system : System State Input Fault where
  start := Fresh
  allowed := Allowed
  exec := exec

instance (s : State) : (i : Input) → Decidable (system.allowed s i)
  | .step e i => inferInstanceAs (Decidable ((s e).closed = false ∧
      ConnectionRuns.system.allowed (s e).run i ∧
      (∀ write ∈ attempt (s e).run i, (s e).conn.cuts ≠ [] → write.2 = .error) ∧
      ∀ read ∈ reading (s e).run i, Readable s e read))
  | .retrieve e len => inferInstanceAs (Decidable (len ≤ (s e).inputBuffer.readableBytes))
  | .retrieveAsString _ => isTrue trivial
  | .destroy e => inferInstanceAs (Decidable ((s e).conn.state = .kDisconnected))

section Law

variable {s s' : State} {p q : Endpoint}

/-- One direction of the stream: what the first end writes and the second one
reads. -/
structure Directed (p q : Endpoint) : Prop where
  streamed : Streamed p.run
  sound : p.inputBuffer.Refines p.inputBuffer.readable
  received : p.received = p.conn.inputBuffer
  arrived : q.conn.inputBuffer <+: p.conn.wire
  cuts : ∀ cut ∈ p.conn.cuts, cut.wire = p.conn.wire
  complete : p.conn.closes = 0 → p.conn.destroys = 0 →
    ∀ cut ∈ p.conn.cuts, cut.wire = stream cut.executed
  eof : q.eof = true → q.conn.inputBuffer = p.conn.wire ∧ p.Silent

def Inv (s : State) : Prop := ∀ e, Directed (s e) (s !e)

theorem initial_inv (h : Fresh s) : Inv s := by
  intro e
  obtain ⟨hfresh, hbuffer, hretrieved, -, -⟩ := h e
  obtain ⟨hfresh', -, -, heof, -⟩ := h !e
  obtain ⟨b, hok, hrefines, -⟩ := Buffer.construct_refines
  obtain rfl : (s e).inputBuffer = b := Except.ok.inj (hbuffer.symm.trans hok)
  have hstreamed := initial_streamed hfresh
  obtain ⟨poller, channel, fd, wc, owner, -, -, -, -, hrun⟩ := hfresh
  obtain ⟨poller', channel', fd', wc', owner', -, -, -, -, hrun'⟩ := hfresh'
  have hconn : (s e).conn = TcpConnection.construct poller channel wc owner := by
    rw [Endpoint.conn, hrun]
  have hconn' : (s !e).conn = TcpConnection.construct poller' channel' wc' owner' := by
    rw [Endpoint.conn, hrun']
  refine ⟨hstreamed, ?_, ?_, ?_, ?_, ?_, ?_⟩
  · rw [hrefines.content]
    exact hrefines
  · rw [Endpoint.received, hretrieved, hrefines.content, hconn]
    rfl
  · rw [hconn, hconn']
    exact List.nil_prefix
  · rw [hconn]
    exact fun cut hcut => nomatch hcut
  · rw [hconn]
    exact fun _ _ cut hcut => nomatch hcut
  · intro hend
    rw [heof] at hend
    cases hend

/-- An end writes nothing after `shutdownWrite`. -/
theorem writtenBy_cut {i : ConnectionRuns.Input} {r : ConnectionRuns.State}
    (hrefuse : ∀ write ∈ attempt r i, r.conn.cuts ≠ [] → write.2 = .error)
    (hcuts : r.conn.cuts ≠ []) : writtenBy r i = [] := by
  unfold writtenBy
  cases hattempt : attempt r i with
  | none => rfl
  | some write =>
    have herror := hrefuse write hattempt hcuts
    rw [Option.map_some, Option.getD_some, takenBytes, herror]
    rfl

/-- The Buffer after a step has what was there and what the step has read. -/
theorem fill_refines (h : p.inputBuffer.Refines p.inputBuffer.readable)
    (i : ConnectionRuns.Input) :
    ∃ b, fill p i = .ok b ∧ b.Refines (p.inputBuffer.readable ++ readBy p.run i) := by
  unfold fill readBy
  cases reading p.run i with
  | none => exact ⟨_, rfl, by simpa using h⟩
  | some read =>
    cases read with
    | data first rest =>
      obtain ⟨b, hok, hrefines, -⟩ := Buffer.readFd_refines h (first :: rest)
      exact ⟨b, hok, hrefines⟩
    | eof =>
      obtain ⟨b, hok, hrefines, -⟩ := Buffer.readFd_refines h []
      exact ⟨b, hok, hrefines⟩
    | error => exact ⟨_, rfl, by simpa [delivered] using h⟩

/-- A step of the end that writes. -/
theorem Directed.writes (h : Directed p q) {i : ConnectionRuns.Input} {run : ConnectionRuns.State}
    {b : Buffer} (eof : Bool) (hopen : p.closed = false) (hallow : ConnectionRuns.Allowed p.run i)
    (hrefuse : ∀ write ∈ attempt p.run i, p.conn.cuts ≠ [] → write.2 = .error)
    (hfill : fill p i = .ok b) (hexec : ConnectionRuns.exec p.run i = .ok run) :
    Directed { p with run := run, inputBuffer := b, eof := eof } q := by
  have hmoved : Moved p.conn run.conn (writtenBy p.run i) (readBy p.run i) :=
    step_moved hallow hexec
  have hstreamed := step_streamed h.streamed hallow hexec
  have hquiet : p.conn.cuts ≠ [] → run.conn.wire = p.conn.wire := by
    intro hcuts
    rw [hmoved.wire, writtenBy_cut hrefuse hcuts, List.append_nil]
  have hkept : ∀ cut ∈ p.conn.cuts, cut.wire = run.conn.wire := by
    intro cut hcut
    rw [h.cuts cut hcut, hquiet (List.ne_nil_of_mem hcut)]
  obtain ⟨b', hok, hrefines⟩ := fill_refines h.sound i
  obtain rfl : b = b' := Except.ok.inj (hfill.symm.trans hok)
  refine ⟨hstreamed, ?_, ?_, ?_, ?_, ?_, ?_⟩
  · change b.Refines b.readable
    rw [hrefines.content]
    exact hrefines
  · change p.retrieved ++ b.readable = run.conn.inputBuffer
    rw [hrefines.content, ← List.append_assoc, hmoved.input, ← h.received]
    rfl
  · refine h.arrived.trans ?_
    change p.conn.wire <+: run.conn.wire
    rw [hmoved.wire]
    exact List.prefix_append _ _
  · intro cut hcut
    change cut ∈ run.conn.cuts at hcut
    rcases hmoved.cuts with hsame | ⟨new, hnew, hwire, -, -⟩
    · rw [hsame] at hcut
      exact hkept cut hcut
    · rw [hnew] at hcut
      rcases List.mem_cons.mp hcut with rfl | hold
      · exact hwire
      · exact hkept cut hold
  · intro hcloses hdestroys cut hcut
    change run.conn.closes = 0 at hcloses
    change run.conn.destroys = 0 at hdestroys
    change cut ∈ run.conn.cuts at hcut
    have hbefore := h.complete (Nat.eq_zero_of_le_zero (hcloses ▸ hmoved.closes))
      (Nat.eq_zero_of_le_zero (hdestroys ▸ hmoved.destroys))
    rcases hmoved.cuts with hsame | ⟨new, hnew, hwire, hexecuted, hidle⟩
    · rw [hsame] at hcut
      exact hbefore cut hcut
    · rw [hnew] at hcut
      rcases List.mem_cons.mp hcut with rfl | hold
      · have hempty : run.conn.outputBuffer = [] := by
          by_contra hleft
          have hwriting := hstreamed.buffered.watched hcloses hdestroys hleft
          rw [hidle] at hwriting
          cases hwriting
        have hwritten := hstreamed.buffered.written
        rw [hempty, List.append_nil] at hwritten
        rw [hwire, hexecuted, hwritten]
      · exact hbefore cut hold
  · intro heof
    obtain ⟨harrived, hsilent⟩ := h.eof heof
    rcases hsilent with hcuts | hclosed
    · refine ⟨?_, Or.inl ?_⟩
      · change q.conn.inputBuffer = run.conn.wire
        rw [hquiet hcuts, harrived]
      · change run.conn.cuts ≠ []
        rcases hmoved.cuts with hsame | ⟨new, hnew, -, -, -⟩
        · rw [hsame]
          exact hcuts
        · rw [hnew]
          exact List.cons_ne_nil _ _
    · rw [hopen] at hclosed
      cases hclosed

/-- A step of the end that reads. -/
theorem Directed.reads (h : Directed p q) {i : ConnectionRuns.Input} {run : ConnectionRuns.State}
    (b : Buffer) (hallow : ConnectionRuns.Allowed q.run i)
    (hnext : readBy q.run i <+: p.conn.wire.drop q.conn.inputBuffer.length)
    (hlast : reading q.run i = some .eof →
      p.conn.wire.drop q.conn.inputBuffer.length = [] ∧ p.Silent)
    (hexec : ConnectionRuns.exec q.run i = .ok run) :
    Directed p { q with run := run
                        inputBuffer := b
                        eof := q.eof || decide (reading q.run i = some .eof) } := by
  have hmoved : Moved q.conn run.conn (writtenBy q.run i) (readBy q.run i) :=
    step_moved hallow hexec
  -- Once nothing is in flight, nothing is read.
  have hdone : p.conn.wire.drop q.conn.inputBuffer.length = [] →
      run.conn.inputBuffer = p.conn.wire := by
    intro hempty
    rw [hempty] at hnext
    obtain ⟨rest, hrest⟩ := h.arrived
    rw [← hrest, List.drop_left] at hempty
    rw [hmoved.input, List.prefix_nil.mp hnext, List.append_nil, ← hrest, hempty,
      List.append_nil]
  refine ⟨h.streamed, h.sound, h.received, ?_, h.cuts, h.complete, ?_⟩
  · change run.conn.inputBuffer <+: p.conn.wire
    obtain ⟨rest, hrest⟩ := h.arrived
    rw [← hrest, List.drop_left] at hnext
    rw [hmoved.input, ← hrest]
    exact (List.prefix_append_right_inj _).mpr hnext
  · intro heof
    change (q.eof || decide (reading q.run i = some .eof)) = true at heof
    rw [Bool.or_eq_true, decide_eq_true_eq] at heof
    rcases heof with hold | hnow
    · obtain ⟨harrived, hsilent⟩ := h.eof hold
      refine ⟨hdone ?_, hsilent⟩
      rw [harrived, List.drop_length]
    · obtain ⟨hempty, hsilent⟩ := hlast hnow
      exact ⟨hdone hempty, hsilent⟩

/-- The user retrieves. -/
theorem Directed.retrieves (h : Directed p q) {b : Buffer} {taken rest : Bytes}
    (hsplit : p.inputBuffer.readable = taken ++ rest) (hrefines : b.Refines rest) :
    Directed { p with inputBuffer := b, retrieved := p.retrieved ++ taken } q := by
  refine ⟨h.streamed, ?_, ?_, h.arrived, h.cuts, h.complete, h.eof⟩
  · change b.Refines b.readable
    rw [hrefines.content]
    exact hrefines
  · change p.retrieved ++ taken ++ b.readable = p.conn.inputBuffer
    rw [hrefines.content, List.append_assoc, ← hsplit]
    exact h.received

/-- Replacing one end. -/
theorem inv_update {e : Bool} (hout : Directed p (s !e)) (hin : Directed (s !e) p) :
    Inv (Function.update s e p) := by
  intro x
  by_cases hx : x = e
  · subst hx
    rw [Function.update_self, Function.update_of_ne (Bool.not_ne_self x)]
    exact hout
  · obtain rfl : x = !e := Bool.eq_not.mpr hx
    rw [Function.update_of_ne hx, Bool.not_not, Function.update_self]
    exact hin

theorem step_inv (h : Inv s) {i : Input} (hallow : Allowed s i) (hexec : exec s i = .ok s') :
    Inv s' := by
  cases i with
  | step e i =>
    obtain ⟨hopen, hrun, hrefuse, hread⟩ := hallow
    simp only [exec, bind_eq_ok, pure_eq_ok, Except.ok.injEq] at hexec
    obtain ⟨b, hfill, run, hstep, rfl⟩ := hexec
    have hin := h !e
    rw [Bool.not_not] at hin
    refine inv_update ((h e).writes _ hopen hrun hrefuse hfill hstep) ?_
    refine hin.reads b hrun ?_ ?_ hstep
    · unfold readBy
      cases hreading : reading (s e).run i with
      | none => exact List.nil_prefix
      | some read =>
        have hreadable := hread read hreading
        cases read with
        | data first rest => simpa [Readable, flight, delivered] using hreadable.1
        | eof | error => exact List.nil_prefix
    · intro heof
      simpa [Readable, flight] using hread .eof heof
  | retrieve e len =>
    obtain ⟨b, hok, hrefines, -⟩ := Buffer.retrieve_refines (h e).sound hallow
    simp only [exec, hok, ok_bind, pure_eq_ok, Except.ok.injEq] at hexec
    subst hexec
    have hin := h !e
    rw [Bool.not_not] at hin
    refine inv_update ((h e).retrieves (List.take_append_drop len _).symm hrefines) ?_
    exact ⟨hin.streamed, hin.sound, hin.received, hin.arrived, hin.cuts, hin.complete, hin.eof⟩
  | retrieveAsString e =>
    have hok := Buffer.retrieveAsString_refines (h e).sound
    simp only [exec, hok, ok_bind, pure_eq_ok, Except.ok.injEq] at hexec
    subst hexec
    have hin := h !e
    rw [Bool.not_not] at hin
    refine inv_update ((h e).retrieves (List.append_nil _).symm
      (Buffer.retrieveAll_refines (h e).sound).1) ?_
    exact ⟨hin.streamed, hin.sound, hin.received, hin.arrived, hin.cuts, hin.complete, hin.eof⟩
  | destroy e =>
    rw [exec, Except.ok.injEq] at hexec
    subst hexec
    have hout := h e
    have hin := h !e
    rw [Bool.not_not] at hin
    refine inv_update ?_ ?_
    · refine ⟨hout.streamed, hout.sound, hout.received, hout.arrived, hout.cuts, hout.complete, ?_⟩
      intro heof
      exact ⟨(hout.eof heof).1, Or.inr rfl⟩
    · exact ⟨hin.streamed, hin.sound, hin.received, hin.arrived, hin.cuts, hin.complete, hin.eof⟩

theorem reach_inv {cond : State → Input → Prop} (h : Reach system cond s) : Inv s := by
  refine h.invariant ?_ ?_
  · intro s hs
    exact initial_inv hs
  · intro s i s' hs hallow _ hexec
    exact step_inv hs hallow hexec

/-- A failed assertion is one of a connection: the Buffers never fail. -/
theorem exec_error (h : Inv s) {i : Input} (hallow : Allowed s i) {fault : Fault}
    (hexec : exec s i = .error fault) :
    ∃ e j, i = .step e j ∧ ConnectionRuns.exec (s e).run j = .error fault := by
  cases i with
  | step e i =>
    obtain ⟨b, hok, -⟩ := fill_refines (h e).sound i
    simp only [exec, hok, ok_bind, bind_pure_eq_error] at hexec
    exact ⟨e, i, rfl, hexec⟩
  | retrieve e len =>
    obtain ⟨b, hok, -⟩ := Buffer.retrieve_refines (h e).sound hallow
    simp [exec, hok] at hexec
  | retrieveAsString e =>
    simp [exec, Buffer.retrieveAsString_refines (h e).sound] at hexec
  | destroy e => cases hexec

/-- In every run, the bytes that an end has been given, those in flight and those
that the other end has buffered are the messages that the other end has executed,
one after the other. An end that was told that the stream has ended has been given
all of it; if the other end has only shut down, these are exactly the messages that
it had executed when it called `shutdownWrite`. -/
theorem peer_stream {cond : State → Input → Prop} (h : Reach system cond s) (e : Bool) :
    (s !e).received ++ flight s e ++ (s e).conn.outputBuffer = stream (s e).conn.executed ∧
      ((s !e).eof = true → (s !e).received = (s e).conn.wire ∧ (s e).Silent ∧
        ((s e).conn.closes = 0 → (s e).conn.destroys = 0 →
          ∀ cut ∈ (s e).conn.cuts, (s !e).received = stream cut.executed)) ∧
      ∀ i fault, Allowed s i → exec s i = .error fault →
        ∃ e j, i = .step e j ∧ ConnectionRuns.exec (s e).run j = .error fault := by
  have hinv := reach_inv h
  have hout := hinv e
  have hreceived := (hinv !e).received
  refine ⟨?_, ?_, fun i fault hallow => exec_error hinv hallow⟩
  · obtain ⟨rest, hrest⟩ := hout.arrived
    have hwire : (s !e).received ++ flight s e = (s e).conn.wire := by
      rw [hreceived, flight, ← hrest, List.drop_left]
    rw [hwire]
    exact hout.streamed.buffered.written
  · intro heof
    obtain ⟨harrived, hsilent⟩ := hout.eof heof
    refine ⟨hreceived.trans harrived, hsilent, ?_⟩
    intro hcloses hdestroys cut hcut
    rw [hreceived, harrived, ← hout.cuts cut hcut]
    exact hout.complete hcloses hdestroys cut hcut

end Law

def connected : State := fun e =>
  { run := ⟨TcpConnection.construct (Poller.initial fun c => c + 7) 0 false
      (if e then .server true else .client true), []⟩
    inputBuffer := ⟨List.replicate 1032 0, 8, 8⟩
    retrieved := []
    eof := false
    closed := false }

theorem connected_fresh : Fresh connected := by
  intro e
  refine ⟨⟨Poller.initial fun c => c + 7, 0, 7, false, _, Poller.initial_table _, rfl, rfl, ?_,
    rfl⟩, Buffer.construct_ok, rfl, rfl, rfl⟩
  cases e with
  | true => exact Or.inl rfl
  | false => exact Or.inr rfl

/-- The server's write takes one byte of two; the client reads it and retrieves it.
The server shuts down, writes the rest, and the client reads up to the end. -/
def halfClose : List Input :=
  [.step true .connectEstablished, .step false .connectEstablished,
    .step true (.send .loop [5, 6] (.count 1)), .step true (.shutdown .loop),
    .step true .swapFunctors, .step true .endIteration, .step false .swapFunctors,
    .step false .endIteration, .step false (.poll (some Channel.pollIn)),
    .step false (.callback (.data 5 []) .error), .retrieve false 1,
    .step true (.poll (some Channel.pollOut)), .step true (.callback .error (.count 1)),
    .step false .swapFunctors, .step false .endIteration,
    .step false (.poll (some Channel.pollIn)), .step false (.callback (.data 6 []) .error),
    .step false .swapFunctors, .step false .endIteration,
    .step false (.poll (some Channel.pollIn)), .step false (.callback .eof .error)]

theorem halfClose_received : ∃ s, Reachable system s ∧ (s false).eof = true ∧
    (s false).retrieved = [5] ∧ (s false).received = [5, 6] := by
  obtain ⟨s, hs, htest⟩ := exists_of_replay (M := system) Free connected_fresh halfClose
    (fun s => decide ((s false).eof = true ∧ (s false).retrieved = [5] ∧
      (s true).conn.closes = 0 ∧ (s true).conn.destroys = 0 ∧
      (s true).conn.cuts.map (fun cut => stream cut.executed) = [[5, 6]])) (by decide +kernel)
  obtain ⟨heof, hretrieved, hcloses, hdestroys, hcuts⟩ := of_decide_eq_true htest
  obtain ⟨-, hend, -⟩ := peer_stream hs true
  obtain ⟨-, -, hcomplete⟩ := hend heof
  refine ⟨s, hs, heof, hretrieved, ?_⟩
  obtain ⟨cut, rest, hcons⟩ := List.exists_cons_of_ne_nil
    (fun hnil : (s true).conn.cuts = [] => by simp [hnil] at hcuts)
  rw [hcons, List.map_cons, List.cons.injEq] at hcuts
  rw [← hcuts.1]
  exact hcomplete hcloses hdestroys cut (by rw [hcons]; exact List.mem_cons_self)

end TinyMuduo.PeerStream
