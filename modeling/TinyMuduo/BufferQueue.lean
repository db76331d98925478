import TinyMuduo.Buffer
import TinyMuduo.Lib.Runs
import Mathlib.Logic.Function.Basic

/-!
A Buffer is a byte queue. `Refines` relates a Buffer to the list of its readable
bytes; every operation passes its assertions, stays inside the vector and acts
on that list by appending, prepending or dropping. The runs are over any number
of Buffers, since `swap` exchanges the contents of two of them.
-/
namespace TinyMuduo.Buffer

open Checked Slices Runs

/-- The indices are in order, the vector has its reserved area, and the readable
bytes are the queue. -/
structure Refines (b : Buffer) (queue : List UInt8) : Prop where
  reader_le : b.readerIndex_ ≤ b.writerIndex_
  writer_le : b.writerIndex_ ≤ b.buffer_.length
  reserved : kCheapPrepend ≤ b.buffer_.length
  content : b.readable = queue

/-- The operation does not reach into the reserved area. -/
def Spares (b b' : Buffer) : Prop :=
  kCheapPrepend ≤ b.prependableBytes → kCheapPrepend ≤ b'.prependableBytes

variable {b b' : Buffer} {queue data : List UInt8} {len : ℕ}

theorem construct_ok : construct = .ok
    ⟨List.replicate (kCheapPrepend + kInitialSize) 0, kCheapPrepend, kCheapPrepend⟩ := by
  simp [construct, readableBytes, writableBytes, prependableBytes]

theorem construct_refines : ∃ b, construct = .ok b ∧ Refines b [] ∧
    kCheapPrepend ≤ b.prependableBytes := by
  refine ⟨_, construct_ok, ⟨?_, ?_, ?_, slice_self⟩, ?_⟩
  · exact Nat.le_refl _
  · simp
  · simp
  · exact Nat.le_refl _

theorem Refines.readableBytes (h : Refines b queue) : b.readableBytes = queue.length := by
  rw [← h.content, readable, length_slice h.writer_le]
  rfl

theorem store_ok {i : ℕ} (h : i + data.length ≤ b.buffer_.length) :
    b.store i data = .ok { b with buffer_ := splice b.buffer_ i data } := by
  simp [store, h]

/-- Bytes written behind the readable ones are appended to the queue. -/
theorem Refines.written (h : Refines b queue) (hroom : data.length ≤ b.writableBytes) :
    ∃ b', b.store b.writerIndex_ data = .ok b' ∧ Refines (b'.hasWritten data.length)
      (queue ++ data) ∧ b'.prependableBytes = b.prependableBytes ∧
      b'.buffer_.length = b.buffer_.length ∧ b'.writerIndex_ = b.writerIndex_ := by
  have hwriter := h.writer_le
  have hfits : b.writerIndex_ + data.length ≤ b.buffer_.length := by
    unfold writableBytes at hroom
    omega
  have hlen := length_splice hfits
  refine ⟨_, store_ok hfits, ⟨?_, ?_, ?_, ?_⟩, rfl, hlen, rfl⟩
  · exact Nat.le_trans h.reader_le (Nat.le_add_right _ _)
  · change b.writerIndex_ + data.length ≤ (splice b.buffer_ b.writerIndex_ data).length
    rw [hlen]
    exact hfits
  · change kCheapPrepend ≤ (splice b.buffer_ b.writerIndex_ data).length
    rw [hlen]
    exact h.reserved
  · change slice (splice b.buffer_ b.writerIndex_ data) b.readerIndex_
      (b.writerIndex_ + data.length) = queue ++ data
    rw [← slice_append h.reader_le (Nat.le_add_right _ _) (by rw [hlen]; exact hwriter),
      slice_splice_before hfits (Nat.le_refl _), slice_splice_inside hfits]
    exact congrArg (· ++ data) h.content

theorem retrieve_refines (h : Refines b queue) (hlen : len ≤ b.readableBytes) :
    ∃ b', b.retrieve len = .ok b' ∧ Refines b' (queue.drop len) ∧ Spares b b' := by
  have hreader := h.reader_le
  refine ⟨{ b with readerIndex_ := b.readerIndex_ + len }, by simp [retrieve, hlen],
    ⟨?_, h.writer_le, h.reserved, ?_⟩, ?_⟩
  · change b.readerIndex_ + len ≤ b.writerIndex_
    unfold Buffer.readableBytes at hlen
    omega
  · rw [← h.content]
    exact drop_slice.symm
  · intro hspare
    exact Nat.le_trans hspare (Nat.le_add_right _ _)

theorem retrieveUntil_refines (h : Refines b queue) {last : ℕ} (hbegin : b.readerIndex_ ≤ last)
    (hend : last ≤ b.writerIndex_) :
    ∃ b', b.retrieveUntil last = .ok b' ∧
      Refines b' (queue.drop (last - b.readerIndex_)) ∧ Spares b b' := by
  have hlen : last - b.readerIndex_ ≤ b.readableBytes := by
    unfold Buffer.readableBytes
    omega
  obtain ⟨b', hok, hrefines, hspares⟩ := retrieve_refines h hlen
  refine ⟨b', ?_, hrefines, hspares⟩
  simp [retrieveUntil, hbegin, hend, hok]

theorem retrieveAll_refines (h : Refines b queue) :
    Refines b.retrieveAll [] ∧ Spares b b.retrieveAll :=
  ⟨⟨Nat.le_refl _, h.reserved, h.reserved, slice_self⟩, fun _ => Nat.le_refl _⟩

theorem load_readable (h : Refines b queue) :
    b.load b.readerIndex_ b.readableBytes = .ok queue := by
  have hreader := h.reader_le
  have hwriter := h.writer_le
  have hend : b.readerIndex_ + b.readableBytes = b.writerIndex_ := by
    unfold Buffer.readableBytes
    omega
  rw [load, hend, require_pos _ hwriter, ok_bind, ← h.content]
  rfl

theorem retrieveAsString_refines (h : Refines b queue) :
    b.retrieveAsString = .ok (queue, b.retrieveAll) := by
  rw [retrieveAsString, load_readable h, ok_bind]
  rfl

/-- Growing keeps the readable bytes in place. -/
theorem grow_refines (h : Refines b queue) (hfull : b.writableBytes < len) :
    Refines { b with buffer_ := resize b.buffer_ (b.writerIndex_ + len) 0 } queue ∧
      len ≤ writableBytes { b with buffer_ := resize b.buffer_ (b.writerIndex_ + len) 0 } := by
  have hwriter := h.writer_le
  have hreserved := h.reserved
  unfold writableBytes at hfull
  refine ⟨⟨h.reader_le, ?_, ?_, ?_⟩, ?_⟩
  · change b.writerIndex_ ≤ (resize b.buffer_ (b.writerIndex_ + len) 0).length
    rw [length_resize]
    omega
  · change kCheapPrepend ≤ (resize b.buffer_ (b.writerIndex_ + len) 0).length
    rw [length_resize]
    omega
  · rw [← h.content]
    exact slice_resize 0 hwriter (Nat.le_add_right _ _)
  · change len ≤ (resize b.buffer_ (b.writerIndex_ + len) 0).length - b.writerIndex_
    rw [length_resize]
    omega

/-- There is room for the bytes once the readable ones are moved to the front;
the regions in front of and behind them are larger than what is reserved, so
the first of them is. -/
theorem slide_refines (h : Refines b queue) (hfull : b.writableBytes < len)
    (hroom : ¬ b.writableBytes + b.prependableBytes < len + kCheapPrepend) :
    ∃ b', b.makeSpace len = .ok b' ∧ Refines b' queue ∧ len ≤ b'.writableBytes ∧
      b'.readerIndex_ = kCheapPrepend := by
  have hreader := h.reader_le
  have hwriter := h.writer_le
  have hfront : kCheapPrepend < b.readerIndex_ := by
    unfold prependableBytes at hroom
    omega
  have hbytes := h.readableBytes
  have hfits : kCheapPrepend + queue.length ≤ b.buffer_.length := by
    rw [← hbytes, Buffer.readableBytes]
    omega
  refine ⟨⟨splice b.buffer_ kCheapPrepend queue, kCheapPrepend, kCheapPrepend + b.readableBytes⟩,
    ?_, ⟨Nat.le_add_right _ _, ?_, ?_, ?_⟩, ?_, rfl⟩
  · simp only [makeSpace, if_neg hroom]
    rw [require_pos _ hfront, ok_bind, load_readable h, ok_bind, store_ok hfits, ok_bind,
      require_pos _ (by simp [Buffer.readableBytes]), ok_bind]
    rfl
  · rw [length_splice hfits, hbytes]
    exact hfits
  · rw [length_splice hfits]
    exact h.reserved
  · change slice (splice b.buffer_ kCheapPrepend queue) kCheapPrepend
      (kCheapPrepend + b.readableBytes) = queue
    rw [hbytes]
    exact slice_splice_inside hfits
  · change len ≤ (splice b.buffer_ kCheapPrepend queue).length -
      (kCheapPrepend + (b.writerIndex_ - b.readerIndex_))
    rw [length_splice hfits]
    unfold writableBytes prependableBytes at hroom
    omega

theorem makeSpace_refines (h : Refines b queue) (hfull : b.writableBytes < len) :
    ∃ b', b.makeSpace len = .ok b' ∧ Refines b' queue ∧ len ≤ b'.writableBytes ∧
      Spares b b' := by
  by_cases hroom : b.writableBytes + b.prependableBytes < len + kCheapPrepend
  · obtain ⟨hrefines, hlen⟩ := grow_refines h hfull
    refine ⟨_, ?_, hrefines, hlen, fun hspare => hspare⟩
    rw [makeSpace, if_pos hroom]
  · obtain ⟨b', hok, hrefines, hlen, hreader⟩ := slide_refines h hfull hroom
    exact ⟨b', hok, hrefines, hlen, fun _ => Nat.le_of_eq hreader.symm⟩

theorem ensureWritableBytes_refines (h : Refines b queue) (len : ℕ) :
    ∃ b', b.ensureWritableBytes len = .ok b' ∧ Refines b' queue ∧ len ≤ b'.writableBytes ∧
      Spares b b' := by
  by_cases hfull : b.writableBytes < len
  · obtain ⟨b', hok, hrefines, hlen, hspares⟩ := makeSpace_refines h hfull
    refine ⟨b', ?_, hrefines, hlen, hspares⟩
    simp only [ensureWritableBytes, if_pos hfull, hok, ok_bind, require_pos _ hlen, pure_eq_ok]
  · have hlen : len ≤ b.writableBytes := Nat.le_of_not_lt hfull
    refine ⟨b, ?_, h, hlen, fun hspare => hspare⟩
    simp only [ensureWritableBytes, if_neg hfull, ok_bind, require_pos _ hlen, pure_eq_ok]

theorem writeInPlace_refines (h : Refines b queue) (hdata : data.length ≤ len) :
    ∃ b', b.writeInPlace len data = .ok b' ∧ Refines b' (queue ++ data) ∧ Spares b b' := by
  obtain ⟨b1, hok1, hrefines1, hroom, hspares⟩ := ensureWritableBytes_refines h len
  obtain ⟨b2, hok2, hrefines2, hprepend, -⟩ := hrefines1.written (Nat.le_trans hdata hroom)
  refine ⟨b2.hasWritten data.length, ?_, hrefines2, ?_⟩
  · rw [writeInPlace, hok1, ok_bind, hok2, ok_bind]
    rfl
  · intro hspare
    change kCheapPrepend ≤ b2.prependableBytes
    rw [hprepend]
    exact hspares hspare

/-- `append` is a write in place of exactly the room it asks for. -/
theorem append_refines (h : Refines b queue) (data : List UInt8) :
    ∃ b', b.append data = .ok b' ∧ Refines b' (queue ++ data) ∧ Spares b b' :=
  writeInPlace_refines h (Nat.le_refl data.length)

theorem prepend_refines (h : Refines b queue) (hdata : data.length ≤ b.prependableBytes) :
    ∃ b', b.prepend data = .ok b' ∧ Refines b' (data ++ queue) := by
  have hreader := h.reader_le
  have hwriter := h.writer_le
  have hfront : data.length ≤ b.readerIndex_ := hdata
  have hfits : b.readerIndex_ - data.length + data.length ≤ b.buffer_.length := by omega
  refine ⟨⟨splice b.buffer_ (b.readerIndex_ - data.length) data, b.readerIndex_ - data.length,
    b.writerIndex_⟩, ?_, ⟨?_, ?_, ?_, ?_⟩⟩
  · rw [prepend, require_pos _ hdata, ok_bind]
    exact store_ok hfits
  · change b.readerIndex_ - data.length ≤ b.writerIndex_
    omega
  · rw [length_splice hfits]
    exact hwriter
  · rw [length_splice hfits]
    exact h.reserved
  · change slice (splice b.buffer_ (b.readerIndex_ - data.length) data)
      (b.readerIndex_ - data.length) b.writerIndex_ = data ++ queue
    rw [← slice_append (b := b.readerIndex_ - data.length + data.length) (Nat.le_add_right _ _)
        (by omega) (by rw [length_splice hfits]; exact hfits),
      slice_splice_inside hfits, slice_splice_after hfits (Nat.le_refl _),
      Nat.sub_add_cancel hfront]
    exact congrArg (data ++ ·) h.content

/-- A read that fits stays in the vector; a longer one fills it up and appends
what went to the stack buffer. -/
theorem readFd_refines (h : Refines b queue) (data : List UInt8) :
    ∃ b', b.readFd (some data) = .ok b' ∧ Refines b' (queue ++ data) ∧ Spares b b' := by
  have hlen : (data.take b.writableBytes).length ≤ b.writableBytes := List.length_take_le _ _
  obtain ⟨b1, hok, hrefines, hprepend, hsize, hwriter⟩ := h.written hlen
  by_cases hfits : data.length ≤ b.writableBytes
  · rw [List.take_of_length_le hfits] at hok hrefines
    refine ⟨b1.hasWritten data.length, ?_, hrefines, ?_⟩
    · simp only [readFd, List.take_of_length_le hfits, hok, ok_bind, if_pos hfits]
      rfl
    · intro hspare
      change kCheapPrepend ≤ b1.prependableBytes
      rw [hprepend]
      exact hspare
  · have htake : (data.take b.writableBytes).length = b.writableBytes :=
      List.length_take_of_le (by omega)
    have hfilled : b1.hasWritten b.writableBytes =
        { b1 with writerIndex_ := b1.buffer_.length } := by
      have hle := h.writer_le
      have hend : b1.writerIndex_ + b.writableBytes = b1.buffer_.length := by
        rw [hsize, hwriter, writableBytes]
        omega
      rw [hasWritten, hend]
    rw [htake, hfilled] at hrefines
    obtain ⟨b2, hok2, hrefines2, hspares⟩ :=
      append_refines hrefines (data.drop b.writableBytes)
    rw [List.append_assoc, List.take_append_drop] at hrefines2
    refine ⟨b2, ?_, hrefines2, ?_⟩
    · simp only [readFd, hok, ok_bind, if_neg hfits]
      exact hok2
    · intro hspare
      refine hspares ?_
      change kCheapPrepend ≤ b1.prependableBytes
      rw [hprepend]
      exact hspare

/-- An operation on one Buffer. `retrieveUntil` is given the distance of its
pointer from `peek()`. -/
inductive Op
  | append (data : List UInt8)
  | prepend (data : List UInt8)
  | retrieve (len : ℕ)
  | retrieveUntil (len : ℕ)
  | retrieveAll
  | retrieveAsString
  | writeInPlace (len : ℕ) (data : List UInt8)
  | readFd (data : Option (List UInt8))

/-- The caller's part: retrieve what is readable, prepend into the room there
is, write what was asked for; readv(2) fills at most its two buffers. -/
def Op.Fits (b : Buffer) : Op → Prop
  | .append _ | .retrieveAll | .retrieveAsString | .readFd none => True
  | .prepend data => data.length ≤ b.prependableBytes
  | .retrieve len | .retrieveUntil len => len ≤ b.readableBytes
  | .writeInPlace len data => data.length ≤ len
  | .readFd (some data) => data.length ≤ b.writableBytes + extraSize

instance (b : Buffer) : (o : Op) → Decidable (o.Fits b)
  | .append _ | .retrieveAll | .retrieveAsString | .readFd none => isTrue trivial
  | .prepend data => inferInstanceAs (Decidable (data.length ≤ b.prependableBytes))
  | .retrieve len | .retrieveUntil len => inferInstanceAs (Decidable (len ≤ b.readableBytes))
  | .writeInPlace len data => inferInstanceAs (Decidable (data.length ≤ len))
  | .readFd (some data) =>
      inferInstanceAs (Decidable (data.length ≤ b.writableBytes + extraSize))

def Op.run (b : Buffer) : Op → Except Fault Buffer
  | .append data => b.append data
  | .prepend data => b.prepend data
  | .retrieve len => b.retrieve len
  | .retrieveUntil len => b.retrieveUntil (b.readerIndex_ + len)
  | .retrieveAll => .ok b.retrieveAll
  | .retrieveAsString => return (← b.retrieveAsString).2
  | .writeInPlace len data => b.writeInPlace len data
  | .readFd data => b.readFd data

def Op.onQueue (queue : List UInt8) : Op → List UInt8
  | .append data | .writeInPlace _ data | .readFd (some data) => queue ++ data
  | .prepend data => data ++ queue
  | .retrieve len | .retrieveUntil len => queue.drop len
  | .retrieveAll | .retrieveAsString => []
  | .readFd none => queue

def Op.prepends : Op → Bool
  | .prepend _ => true
  | _ => false

/-- Every operation succeeds and acts on the queue as specified. -/
theorem Op.run_refines (h : Refines b queue) (o : Op) (hfits : o.Fits b) :
    ∃ b', o.run b = .ok b' ∧ Refines b' (o.onQueue queue) ∧
      (o.prepends = false → Spares b b') := by
  cases o with
  | append data =>
    obtain ⟨b', hok, hrefines, hspares⟩ := append_refines h data
    exact ⟨b', hok, hrefines, fun _ => hspares⟩
  | prepend data =>
    obtain ⟨b', hok, hrefines⟩ := prepend_refines h hfits
    exact ⟨b', hok, hrefines, by simp [Op.prepends]⟩
  | retrieve len =>
    obtain ⟨b', hok, hrefines, hspares⟩ := retrieve_refines h hfits
    exact ⟨b', hok, hrefines, fun _ => hspares⟩
  | retrieveUntil len =>
    have hreader := h.reader_le
    have hend : b.readerIndex_ + len ≤ b.writerIndex_ := by
      change len ≤ b.writerIndex_ - b.readerIndex_ at hfits
      omega
    obtain ⟨b', hok, hrefines, hspares⟩ :=
      retrieveUntil_refines h (Nat.le_add_right _ len) hend
    rw [Nat.add_sub_cancel_left] at hrefines
    exact ⟨b', hok, hrefines, fun _ => hspares⟩
  | retrieveAll =>
    obtain ⟨hrefines, hspares⟩ := retrieveAll_refines h
    exact ⟨_, rfl, hrefines, fun _ => hspares⟩
  | retrieveAsString =>
    obtain ⟨hrefines, hspares⟩ := retrieveAll_refines h
    refine ⟨b.retrieveAll, ?_, hrefines, fun _ => hspares⟩
    rw [Op.run, retrieveAsString_refines h, ok_bind]
    rfl
  | writeInPlace len data =>
    obtain ⟨b', hok, hrefines, hspares⟩ := writeInPlace_refines h hfits
    exact ⟨b', hok, hrefines, fun _ => hspares⟩
  | readFd data =>
    cases data with
    | none => exact ⟨b, rfl, h, fun _ hspare => hspare⟩
    | some data =>
      obtain ⟨b', hok, hrefines, hspares⟩ := readFd_refines h data
      exact ⟨b', hok, hrefines, fun _ => hspares⟩

structure State where
  buffers : ℕ → Buffer
  queues : ℕ → List UInt8
  /-- the contents have been prepended to -/
  prepended : ℕ → Bool

inductive Input
  | op (i : ℕ) (o : Op)
  | swap (i j : ℕ)

def exchange {α : Type} (f : ℕ → α) (i j : ℕ) (pair : α × α) : ℕ → α :=
  Function.update (Function.update f i pair.1) j pair.2

def exec (s : State) : Input → Except Fault State
  | .op i o => do
      let b ← o.run (s.buffers i)
      return { buffers := Function.update s.buffers i b
               queues := Function.update s.queues i (o.onQueue (s.queues i))
               prepended := Function.update s.prepended i (s.prepended i || o.prepends) }
  | .swap i j =>
      .ok { buffers := exchange s.buffers i j ((s.buffers i).swap (s.buffers j))
            queues := exchange s.queues i j (s.queues j, s.queues i)
            prepended := exchange s.prepended i j (s.prepended j, s.prepended i) }

def Allowed (s : State) : Input → Prop
  | .op i o => o.Fits (s.buffers i)
  | .swap _ _ => True

def system : System State Input Fault where
  start := fun s => ∃ b, construct = .ok b ∧ s = ⟨fun _ => b, fun _ => [], fun _ => false⟩
  allowed := Allowed
  exec := exec

instance (s : State) : (i : Input) → Decidable (system.allowed s i)
  | .op i o => inferInstanceAs (Decidable (o.Fits (s.buffers i)))
  | .swap _ _ => isTrue trivial

structure Sound (b : Buffer) (queue : List UInt8) (prepended : Bool) : Prop where
  refines : Refines b queue
  spared : prepended = false → kCheapPrepend ≤ b.prependableBytes

def Inv (s : State) : Prop := ∀ i, Sound (s.buffers i) (s.queues i) (s.prepended i)

theorem op_sound {b b' : Buffer} {queue : List UInt8} {prepended : Bool}
    (h : Sound b queue prepended) (o : Op) (hrefines : Refines b' (o.onQueue queue))
    (hspares : o.prepends = false → Spares b b') :
    Sound b' (o.onQueue queue) (prepended || o.prepends) := by
  refine ⟨hrefines, ?_⟩
  intro hnever
  obtain ⟨hold, hnew⟩ := Bool.or_eq_false_iff.mp hnever
  exact hspares hnew (h.spared hold)

/-- Every step the callers may take succeeds and keeps the refinement. -/
theorem step_inv {s : State} (h : Inv s) (i : Input) (hallow : Allowed s i) :
    ∃ s', exec s i = .ok s' ∧ Inv s' := by
  cases i with
  | op i o =>
    obtain ⟨b', hok, hrefines, hspares⟩ := o.run_refines (h i).refines hallow
    refine ⟨_, by rw [exec, hok, ok_bind]; rfl, ?_⟩
    intro k
    by_cases hk : k = i
    · subst hk
      simpa using op_sound (h k) o hrefines hspares
    · simpa [hk] using h k
  | swap i j =>
    refine ⟨_, rfl, ?_⟩
    intro k
    simp only [exchange, Buffer.swap]
    by_cases hj : k = j
    · subst hj
      simpa using h i
    · by_cases hi : k = i
      · subst hi
        simpa [hj] using h j
      · simpa [hi, hj] using h k

theorem reach_sound {s : State} (h : Reachable system s) : Inv s := by
  refine h.invariant ?_ ?_
  · rintro _ ⟨b, hok, rfl⟩ i
    obtain ⟨b', hok', hrefines, hspare⟩ := construct_refines
    obtain rfl : b = b' := Except.ok.inj (hok.symm.trans hok')
    exact ⟨hrefines, fun _ => hspare⟩
  · intro s i s' hs hallow _ hexec
    obtain ⟨r, hr, hinv⟩ := step_inv hs i hallow
    obtain rfl : r = s' := Except.ok.inj (hr.symm.trans hexec)
    exact hinv

/-- In every run the indices of every Buffer are in order and its readable bytes
are its queue, which is what `retrieveAsString` returns; the reserved area is
there unless something was prepended, no assertion of a possible step fails, and
a failed `readFd` changes nothing. -/
theorem buffer_refines_queue {s : State} (h : Reachable system s) :
    (∀ i, (s.buffers i).readerIndex_ ≤ (s.buffers i).writerIndex_ ∧
      (s.buffers i).writerIndex_ ≤ (s.buffers i).buffer_.length ∧
      (s.buffers i).readable = s.queues i ∧
      (s.buffers i).retrieveAsString = .ok (s.queues i, (s.buffers i).retrieveAll) ∧
      (s.prepended i = false → 8 ≤ (s.buffers i).prependableBytes) ∧
      (s.buffers i).readFd none = .ok (s.buffers i)) ∧
    ∀ i, Allowed s i → ∃ s', exec s i = .ok s' := by
  have hinv := reach_sound h
  refine ⟨?_, ?_⟩
  · intro i
    obtain ⟨hrefines, hspared⟩ := hinv i
    exact ⟨hrefines.reader_le, hrefines.writer_le, hrefines.content,
      retrieveAsString_refines hrefines, hspared, rfl⟩
  · intro i hallow
    obtain ⟨s', hexec, -⟩ := step_inv hinv i hallow
    exact ⟨s', hexec⟩

/-- The readable bytes slide back to make room, a read overflows into the stack
buffer, a byte is prepended and the contents are exchanged. -/
def slideAndGrow : List Input :=
  [.op 0 (.append (List.replicate 1000 1)), .op 0 (.retrieve 998),
    .op 0 (.writeInPlace 100 [2, 3]), .op 0 (.readFd (some (List.replicate 1021 4))),
    .op 0 (.retrieveUntil 1023), .op 0 (.prepend [9]), .op 0 (.readFd none), .swap 0 1]

theorem slideAndGrow_refines : ∃ s, Reachable system s ∧ s.queues 1 = [9, 4, 4] ∧
    (s.buffers 1).readable = [9, 4, 4] := by
  obtain ⟨s, hs, htest⟩ := exists_of_replay (M := system) Free ⟨_, construct_ok, rfl⟩ slideAndGrow
    (fun s => decide (s.queues 1 = [9, 4, 4])) (by decide +kernel)
  have hqueue := of_decide_eq_true htest
  have hreadable := ((buffer_refines_queue hs).1 1).2.2.1
  exact ⟨s, hs, hqueue, hreadable.trans hqueue⟩

end TinyMuduo.Buffer
