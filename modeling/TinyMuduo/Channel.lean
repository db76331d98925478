import Mathlib.Data.BitVec

/-!
A Channel: one file descriptor, the events its owner cares about, the events
the last poll reported, and the index that a Poller keeps in it. The event
masks are the constants of poll(2). A Channel is named by its address, and the
objects themselves live in a table that the Poller reads through its pointers.
-/
namespace TinyMuduo

abbrev ChannelId := ℕ

abbrev EventMask := BitVec 32

namespace Channel

def pollIn : EventMask := 0x001

def pollPri : EventMask := 0x002

def pollOut : EventMask := 0x004

def pollErr : EventMask := 0x008

def pollHup : EventMask := 0x010

def pollNval : EventMask := 0x020

def pollRdHup : EventMask := 0x2000

def kNoneEvent : EventMask := 0

def kReadEvent : EventMask := pollIn ||| pollPri

def kWriteEvent : EventMask := pollOut

end Channel

structure Channel where
  fd : ℕ
  events : EventMask
  revents : EventMask
  index : ℤ
  deriving DecidableEq, Repr

namespace Channel

def construct (fd : ℕ) : Channel := ⟨fd, 0, 0, -1⟩

def isNoneEvent (ch : Channel) : Bool := ch.events == kNoneEvent

def isWriting (ch : Channel) : Bool := ch.events &&& kWriteEvent != 0

/-- The change of interest that each of the four operations makes before it
calls `update()`. -/
inductive Interest
  | enableReading
  | enableWriting
  | disableWriting
  | disableAll
  deriving DecidableEq, Repr

def Interest.apply : Interest → EventMask → EventMask
  | .enableReading, events => events ||| kReadEvent
  | .enableWriting, events => events ||| kWriteEvent
  | .disableWriting, events => events &&& ~~~kWriteEvent
  | .disableAll, _ => kNoneEvent

def Interest.enables : Interest → Bool
  | .enableReading | .enableWriting => true
  | .disableWriting | .disableAll => false

inductive Callback
  | close
  | error
  | read
  | write
  deriving DecidableEq, Repr

/-- The test that `handleEvent` makes of the reported events before each
callback. -/
def Callback.due (revents : EventMask) : Callback → Bool
  | .close => revents &&& pollHup != 0 && revents &&& pollIn == 0
  | .error => revents &&& (pollErr ||| pollNval) != 0
  | .read => revents &&& (pollIn ||| pollPri ||| pollRdHup) != 0
  | .write => revents &&& pollOut != 0

def handleEvent (bound : Callback → Bool) (revents : EventMask) : List Callback :=
  [.close, .error, .read, .write].filter fun cb => cb.due revents && bound cb

@[simp]
theorem construct_fd (fd : ℕ) : (construct fd).fd = fd := rfl

@[simp]
theorem isNoneEvent_iff (ch : Channel) : ch.isNoneEvent = true ↔ ch.events = kNoneEvent := by
  simp [isNoneEvent]

/-- Combining a mask with a non-empty one leaves some interest. -/
theorem Interest.apply_ne_none {interest : Interest} (h : interest.enables = true)
    (events : EventMask) : interest.apply events ≠ kNoneEvent := by
  intro hnone
  cases interest with
  | enableReading =>
    have hbit := congrArg (fun mask : EventMask => mask.getLsbD 0) hnone
    simp [Interest.apply, kReadEvent, pollIn, pollPri, kNoneEvent] at hbit
  | enableWriting =>
    have hbit := congrArg (fun mask : EventMask => mask.getLsbD 2) hnone
    simp [Interest.apply, kWriteEvent, pollOut, kNoneEvent] at hbit
  | disableWriting => simp [Interest.enables] at h
  | disableAll => simp [Interest.enables] at h

/-- Taking interest away from a channel that has none leaves none. -/
theorem Interest.apply_none {interest : Interest} (h : interest.enables = false) :
    interest.apply kNoneEvent = kNoneEvent := by
  cases interest with
  | enableReading => simp [Interest.enables] at h
  | enableWriting => simp [Interest.enables] at h
  | disableWriting => simp [Interest.apply, kNoneEvent]
  | disableAll => rfl

/-- Write interest is one bit of the mask. -/
theorem isWriting_iff (ch : Channel) : ch.isWriting = ch.events.getLsbD 2 := by
  have hone : ∀ i, (kWriteEvent.getLsbD i = true ↔ i = 2) := by
    intro i
    rw [show kWriteEvent = BitVec.twoPow 32 2 by decide, BitVec.getLsbD_twoPow]
    simp only [Bool.and_eq_true, decide_eq_true_eq]
    omega
  cases hbit : ch.events.getLsbD 2 with
  | true =>
    simp only [isWriting, bne_iff_ne, ne_eq]
    intro hzero
    have hboth := congrArg (fun mask : EventMask => mask.getLsbD 2) hzero
    rw [BitVec.getLsbD_and, hbit, (hone 2).mpr rfl] at hboth
    simp at hboth
  | false =>
    simp only [isWriting, bne_eq_false_iff_eq]
    apply BitVec.eq_of_getLsbD_eq
    intro i _
    rw [BitVec.getLsbD_and]
    cases hi : kWriteEvent.getLsbD i with
    | true =>
      rw [(hone i).mp hi, hbit]
      rfl
    | false => simp

def Interest.writing : Interest → Bool → Bool
  | .enableReading, writing => writing
  | .enableWriting, _ => true
  | .disableWriting, _ => false
  | .disableAll, _ => false

theorem isWriting_apply {ch ch' : Channel} (interest : Interest)
    (h : ch'.events = interest.apply ch.events) :
    ch'.isWriting = interest.writing ch.isWriting := by
  rw [isWriting_iff, isWriting_iff, h]
  cases interest with
  | enableReading =>
    rw [Interest.apply, BitVec.getLsbD_or, show kReadEvent.getLsbD 2 = false by decide]
    simp [Interest.writing]
  | enableWriting =>
    rw [Interest.apply, BitVec.getLsbD_or, show kWriteEvent.getLsbD 2 = true by decide]
    simp [Interest.writing]
  | disableWriting =>
    rw [Interest.apply, BitVec.getLsbD_and, show (~~~kWriteEvent).getLsbD 2 = false by decide]
    simp [Interest.writing]
  | disableAll =>
    rw [Interest.apply, show kNoneEvent.getLsbD 2 = false by decide]
    rfl

end Channel

end TinyMuduo
