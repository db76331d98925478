import TinyMuduo.Fault
import TinyMuduo.Lib.Checked
import TinyMuduo.Lib.Slices
import Mathlib.Algebra.Group.Nat.Defs

/-!
The Buffer: one vector with a prependable, a readable and a writable region,
separated by two indices. Every access to the vector is checked, so that a
copy past its end is a fault. `makeSpace` grows the vector or slides the
readable bytes back to the front, and `readFd` reads into the writable region
and a second buffer on the stack. Sizes are natural numbers: no size_t sum of
the source overflows while the vector stays within its maximum. Only the size
that `shrink` is asked for may be anything.
-/
namespace TinyMuduo

open Checked Slices

structure Buffer where
  buffer_ : List UInt8
  readerIndex_ : ℕ
  writerIndex_ : ℕ
  deriving DecidableEq

namespace Buffer

def kCheapPrepend : ℕ := 8

def kInitialSize : ℕ := 1024

def readableBytes (b : Buffer) : ℕ := b.writerIndex_ - b.readerIndex_

def writableBytes (b : Buffer) : ℕ := b.buffer_.length - b.writerIndex_

def prependableBytes (b : Buffer) : ℕ := b.readerIndex_

/-- The bytes from `peek()` to `beginWrite()`. -/
def readable (b : Buffer) : List UInt8 := slice b.buffer_ b.readerIndex_ b.writerIndex_

def construct : Except Fault Buffer := do
  let b : Buffer :=
    ⟨List.replicate (kCheapPrepend + kInitialSize) 0, kCheapPrepend, kCheapPrepend⟩
  require (b.readableBytes = 0) .bufferConstructed
  require (b.writableBytes = kInitialSize) .bufferConstructed
  require (b.prependableBytes = kCheapPrepend) .bufferConstructed
  return b

def swap (b rhs : Buffer) : Buffer × Buffer :=
  (⟨rhs.buffer_, rhs.readerIndex_, rhs.writerIndex_⟩,
    ⟨b.buffer_, b.readerIndex_, b.writerIndex_⟩)

def store (b : Buffer) (i : ℕ) (data : List UInt8) : Except Fault Buffer := do
  require (i + data.length ≤ b.buffer_.length) .outOfBounds
  return { b with buffer_ := splice b.buffer_ i data }

def load (b : Buffer) (i n : ℕ) : Except Fault (List UInt8) := do
  require (i + n ≤ b.buffer_.length) .outOfBounds
  return slice b.buffer_ i (i + n)

def retrieve (b : Buffer) (len : ℕ) : Except Fault Buffer := do
  require (len ≤ b.readableBytes) .retrieveLength
  return { b with readerIndex_ := b.readerIndex_ + len }

/-- The pointer is given by its offset from `begin()`. -/
def retrieveUntil (b : Buffer) (last : ℕ) : Except Fault Buffer := do
  require (b.readerIndex_ ≤ last) .retrieveUntilBegin
  require (last ≤ b.writerIndex_) .retrieveUntilEnd
  b.retrieve (last - b.readerIndex_)

def retrieveAll (b : Buffer) : Buffer :=
  { b with readerIndex_ := kCheapPrepend, writerIndex_ := kCheapPrepend }

def retrieveAsString (b : Buffer) : Except Fault (List UInt8 × Buffer) := do
  let str ← b.load b.readerIndex_ b.readableBytes
  return (str, b.retrieveAll)

def makeSpace (b : Buffer) (len : ℕ) : Except Fault Buffer :=
  if b.writableBytes + b.prependableBytes < len + kCheapPrepend then
    .ok { b with buffer_ := resize b.buffer_ (b.writerIndex_ + len) 0 }
  else do
    require (kCheapPrepend < b.readerIndex_) .cheapPrepend
    let readable := b.readableBytes
    let bytes ← b.load b.readerIndex_ readable
    let b ← b.store kCheapPrepend bytes
    let b := { b with readerIndex_ := kCheapPrepend, writerIndex_ := kCheapPrepend + readable }
    require (readable = b.readableBytes) .movedBytes
    return b

def ensureWritableBytes (b : Buffer) (len : ℕ) : Except Fault Buffer := do
  let b ← if b.writableBytes < len then b.makeSpace len else .ok b
  require (len ≤ b.writableBytes) .writableBytes
  return b

def hasWritten (b : Buffer) (len : ℕ) : Buffer :=
  { b with writerIndex_ := b.writerIndex_ + len }

def append (b : Buffer) (data : List UInt8) : Except Fault Buffer := do
  let b ← b.ensureWritableBytes data.length
  let b ← b.store b.writerIndex_ data
  return b.hasWritten data.length

def prepend (b : Buffer) (data : List UInt8) : Except Fault Buffer := do
  require (data.length ≤ b.prependableBytes) .prependLength
  let b := { b with readerIndex_ := b.readerIndex_ - data.length }
  b.store b.readerIndex_ data

/-- The largest size of a vector of bytes, which is half of what a size_t holds. -/
def maxSize : ℕ := 2 ^ 63 - 1

/-- `shrink`. The sum of the sizes is a size_t, and the constructor of the vector
throws when it is too large. -/
def shrink (b : Buffer) (reserve : ℕ) : Except Fault Buffer := do
  let size := (kCheapPrepend + b.readableBytes + reserve) % 2 ^ 64
  require (size ≤ maxSize) .vectorLength
  let buf : Buffer := { b with buffer_ := List.replicate size 0 }
  let bytes ← b.load b.readerIndex_ b.readableBytes
  buf.store kCheapPrepend bytes

def extraSize : ℕ := 65536

/-- `readFd` with the bytes that readv(2) delivers, or none when it fails. -/
def readFd (b : Buffer) : Option (List UInt8) → Except Fault Buffer
  | none => .ok b
  | some data => do
      let writable := b.writableBytes
      let b ← b.store b.writerIndex_ (data.take writable)
      if data.length ≤ writable then
        return { b with writerIndex_ := b.writerIndex_ + data.length }
      else do
        let filled := { b with writerIndex_ := b.buffer_.length }
        filled.append (data.drop writable)

/-- `ensureWritableBytes(len)`, then the caller writes at `beginWrite()` and
calls `hasWritten`. -/
def writeInPlace (b : Buffer) (len : ℕ) (data : List UInt8) : Except Fault Buffer := do
  let b ← b.ensureWritableBytes len
  let b ← b.store b.writerIndex_ data
  return b.hasWritten data.length

end Buffer

end TinyMuduo
