import TinyMuduo.BufferQueue

/-!
`shrink` copies the readable bytes behind the reserved area of a new vector and
leaves both indices as they are. The indices fit the new vector only if the
readable bytes were there before, that is, if nothing in front of them was
retrieved or prepended.
-/
namespace TinyMuduo.Buffer

open Checked Slices Runs

/-- The Buffer takes the operations, as far as each of them is possible when it
is reached, as the byte queue does. -/
def ActsAs : Buffer → List UInt8 → List Op → Prop
  | b, queue, [] => b.readable = queue
  | b, queue, o :: rest => b.readable = queue ∧
      (o.Fits b → ∃ b', o.run b = .ok b' ∧ ActsAs b' (o.onQueue queue) rest)

/-- What `shrink` is for: the contents stay, the indices are in order, exactly
`reserve` bytes can be written, and the Buffer is still a queue. -/
structure Shrinks (b : Buffer) (reserve : ℕ) (b' : Buffer) : Prop where
  content : b'.readable = b.readable
  reader_le : b'.readerIndex_ ≤ b'.writerIndex_
  writer_le : b'.writerIndex_ ≤ b'.buffer_.length
  writable : b'.writableBytes = reserve
  later : ∀ ops, ActsAs b' b.readable ops

def ShrinkLaw (b : Buffer) (reserve : ℕ) : Prop :=
  ∃ b', b.shrink reserve = .ok b' ∧ Shrinks b reserve b'

variable {b b' : Buffer} {queue : List UInt8} {reserve : ℕ}

theorem Refines.actsAs (h : Refines b queue) (ops : List Op) : ActsAs b queue ops := by
  induction ops generalizing b queue with
  | nil => exact h.content
  | cons o rest ih =>
    refine ⟨h.content, ?_⟩
    intro hfits
    obtain ⟨b', hrun, hrefines, -⟩ := o.run_refines h hfits
    exact ⟨b', hrun, ih hrefines⟩

/-- A successful `shrink` puts the bytes at a fixed position. -/
theorem shrink_ok (h : Refines b queue) (hexec : b.shrink reserve = .ok b') :
    b'.readerIndex_ = b.readerIndex_ ∧ b'.writerIndex_ = b.writerIndex_ ∧
      b'.buffer_.length = (kCheapPrepend + queue.length + reserve) % 2 ^ 64 ∧
      b'.buffer_.length ≤ maxSize ∧
      slice b'.buffer_ kCheapPrepend (kCheapPrepend + queue.length) = queue := by
  rw [shrink, load_readable h, h.readableBytes] at hexec
  simp only [bind_eq_ok, require_eq_ok, store, pure_eq_ok, Except.ok.injEq] at hexec
  obtain ⟨-, hmax, _, rfl, -, hfits, rfl⟩ := hexec
  refine ⟨rfl, rfl, ?_, ?_, slice_splice_inside hfits⟩
  · change (splice _ kCheapPrepend queue).length = _
    rw [length_splice hfits, List.length_replicate]
  · change (splice _ kCheapPrepend queue).length ≤ _
    rw [length_splice hfits, List.length_replicate]
    exact hmax

/-- The new vector has room for the bytes when the sum of the sizes is one of a
vector. -/
theorem shrink_fits (h : Refines b queue)
    (hmax : kCheapPrepend + queue.length + reserve ≤ maxSize) :
    ∃ b', b.shrink reserve = .ok b' ∧
      b'.buffer_.length = kCheapPrepend + queue.length + reserve := by
  have hbound : kCheapPrepend + queue.length + reserve < 2 ^ 64 := by
    unfold maxSize at hmax
    omega
  have hsize := Nat.mod_eq_of_lt hbound
  have hfits : kCheapPrepend + queue.length ≤
      (List.replicate (kCheapPrepend + queue.length + reserve) (0 : UInt8)).length := by
    rw [List.length_replicate]
    exact Nat.le_add_right _ _
  refine ⟨⟨splice (List.replicate (kCheapPrepend + queue.length + reserve) 0) kCheapPrepend queue,
    b.readerIndex_, b.writerIndex_⟩, ?_, ?_⟩
  · rw [shrink, load_readable h, h.readableBytes, hsize]
    simp only [require_pos _ hmax, ok_bind]
    exact store_ok hfits
  · change (splice _ kCheapPrepend queue).length = _
    rw [length_splice hfits, List.length_replicate]

/-- A `shrink` that keeps the law finds the readable bytes at the position where
it puts them. -/
theorem reader_of_shrinkLaw (h : Refines b queue) (hlaw : ShrinkLaw b reserve) :
    b.readerIndex_ = kCheapPrepend ∧ kCheapPrepend + queue.length + reserve ≤ maxSize := by
  obtain ⟨b', hexec, hshrinks⟩ := hlaw
  obtain ⟨hreader, hwriter, hsize, hmax, -⟩ := shrink_ok h hexec
  have hlen := h.readableBytes
  have hle := hshrinks.reader_le
  have hroom := hshrinks.writer_le
  have hreserve := hshrinks.writable
  unfold Buffer.readableBytes at hlen
  unfold writableBytes at hreserve
  unfold maxSize at hmax ⊢
  unfold kCheapPrepend at hsize ⊢
  omega

theorem shrinkLaw_of_reader (h : Refines b queue) (hreader : b.readerIndex_ = kCheapPrepend)
    (hmax : kCheapPrepend + queue.length + reserve ≤ maxSize) : ShrinkLaw b reserve := by
  obtain ⟨b', hexec, hsize⟩ := shrink_fits h hmax
  obtain ⟨hreader', hwriter', -, -, hcontent⟩ := shrink_ok h hexec
  have hlen := h.readableBytes
  have hle := h.reader_le
  unfold Buffer.readableBytes at hlen
  have hwriter : b'.writerIndex_ = kCheapPrepend + queue.length := by omega
  have hrefines : Refines b' queue := by
    refine ⟨?_, ?_, ?_, ?_⟩
    · omega
    · omega
    · omega
    · unfold readable
      rw [hreader', hreader, hwriter]
      exact hcontent
  refine ⟨b', hexec, ⟨?_, hrefines.reader_le, hrefines.writer_le, ?_, ?_⟩⟩
  · rw [hrefines.content, h.content]
  · unfold writableBytes
    omega
  · rw [h.content]
    exact hrefines.actsAs

/-- In every state of every run `shrink` keeps the contents and leaves exactly
the room it is asked for if and only if the reader index is where a new Buffer
has it, and the size is one that a vector can have. -/
theorem shrink_preserves_iff {s : State} (h : Reachable system s) (i reserve : ℕ) :
    ShrinkLaw (s.buffers i) reserve ↔ (s.buffers i).readerIndex_ = kCheapPrepend ∧
      kCheapPrepend + (s.buffers i).readableBytes + reserve ≤ maxSize := by
  have hrefines := (reach_sound h i).refines
  rw [hrefines.readableBytes]
  constructor
  · intro hlaw
    exact reader_of_shrinkLaw hrefines hlaw
  · rintro ⟨hreader, hmax⟩
    exact shrinkLaw_of_reader hrefines hreader hmax

/-- Twelve bytes are read, so that the readable ones are at the end of the
used part; then all of them are taken and others are appended. -/
def refilled : List Input :=
  [.op 0 (.readFd (some (List.replicate 12 1))), .op 0 (.retrieve 4), .op 0 .retrieveAll,
    .op 0 (.append [2, 3])]

theorem refilled_shrinks : ∃ s, Reachable system s ∧ s.queues 0 = [2, 3] ∧
    ShrinkLaw (s.buffers 0) 4 := by
  obtain ⟨s, hs, htest⟩ := exists_of_replay (M := system) Free ⟨_, construct_ok, rfl⟩ refilled
    (fun s => decide (s.queues 0 = [2, 3] ∧ (s.buffers 0).readerIndex_ = 8 ∧
      (s.buffers 0).readableBytes = 2)) (by decide +kernel)
  obtain ⟨hqueue, hreader, hbytes⟩ := of_decide_eq_true htest
  refine ⟨s, hs, hqueue, (shrink_preserves_iff hs 0 4).mpr ⟨hreader, ?_⟩⟩
  rw [hbytes]
  decide

def partlyRetrieved : List Input :=
  [.op 0 (.append [0, 1, 2, 3, 4, 5, 6, 7, 8, 9]), .op 0 (.retrieve 3)]

theorem partlyRetrieved_overruns : ∃ s b', Reachable system s ∧
    (s.buffers 0).readable = [3, 4, 5, 6, 7, 8, 9] ∧ (s.buffers 0).shrink 0 = .ok b' ∧
    b'.buffer_.length < b'.writerIndex_ ∧ ¬ ShrinkLaw (s.buffers 0) 0 := by
  obtain ⟨s, hs, htest⟩ := exists_of_replay (M := system) Free ⟨_, construct_ok, rfl⟩
    partlyRetrieved (fun s => decide ((s.buffers 0).readable = [3, 4, 5, 6, 7, 8, 9] ∧
      (s.buffers 0).readerIndex_ = 11 ∧ (s.buffers 0).writerIndex_ = 18)) (by decide +kernel)
  obtain ⟨hreadable, hreader, hwriter⟩ := of_decide_eq_true htest
  have hrefines := (reach_sound hs 0).refines
  have hqueue : s.queues 0 = [3, 4, 5, 6, 7, 8, 9] := hrefines.content.symm.trans hreadable
  rw [hqueue] at hrefines
  have hmax : kCheapPrepend + [3, 4, 5, 6, 7, 8, 9].length + 0 ≤ maxSize := by decide
  obtain ⟨b', hexec, hsize⟩ := shrink_fits hrefines hmax
  refine ⟨s, b', hs, hreadable, hexec, ?_, ?_⟩
  · rw [hsize, (shrink_ok hrefines hexec).2.1, hwriter]
    decide
  · intro hlaw
    have hposition := (reader_of_shrinkLaw hrefines hlaw).1
    rw [hreader] at hposition
    cases hposition

end TinyMuduo.Buffer
