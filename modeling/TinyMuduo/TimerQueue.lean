import TinyMuduo.Fault
import TinyMuduo.Lib.Checked
import TinyMuduo.Lib.MachineInt
import TinyMuduo.Lib.SortedSet
import Mathlib.Algebra.Group.Nat.Defs
import Mathlib.Data.Prod.Lex
import Mathlib.Logic.Function.Basic

/-!
Timers and the timer queue. Timer objects live in a heap whose addresses may
be reused after a delete; `timerList` and `activeTimerSet` index the same
objects by different keys. `handleRead` runs callbacks that re-enter the
queue, so its local variables (the expired batch and the position in it) are
kept in an explicit frame and its loop bodies are separate operations.
-/
namespace TinyMuduo.TimerQueue

open Checked MachineInt

abbrev Timestamp := ℤ

abbrev Address := ℕ

def uintptrMax : Address := 2 ^ 64 - 1

def invalid : Timestamp := 0

def valid (t : Timestamp) : Prop := 0 < t

instance (t : Timestamp) : Decidable (valid t) := inferInstanceAs (Decidable (0 < t))

/-- A `double` number of seconds through the two values the code takes from
it: whether it is positive, and the `int64_t` to which its microseconds are
cast. The cast of a number that does not fit is negative on this machine. -/
structure Interval where
  positive : Bool
  micros : ℤ
  deriving DecidableEq, Repr

def addTime (t : Timestamp) (seconds : Interval) : Timestamp := wrap64 (t + seconds.micros)

structure Timer (φ : Type) where
  callback : φ
  expirationTimestamp : Timestamp
  interval : Interval
  sequence : ℤ

variable {φ : Type}

namespace Timer

def isRepeat (t : Timer φ) : Bool := t.interval.positive

def restart (t : Timer φ) (now : Timestamp) : Timer φ :=
  if t.isRepeat then { t with expirationTimestamp := addTime now t.interval }
  else { t with expirationTimestamp := invalid }

end Timer

structure TimerId where
  timer : Address
  sequence : ℤ
  deriving DecidableEq, Repr

/-- `TimerId(Timer *timer = nullptr, int64_t seq = 0)`. -/
def TimerId.ofTimer (timer : Address) : TimerId := ⟨timer, 0⟩

abbrev Entry := Timestamp ×ₗ Address

abbrev ActiveTimer := Address ×ₗ ℤ

def entry (t : Timestamp) (p : Address) : Entry := toLex (t, p)

def activeTimer (p : Address) (k : ℤ) : ActiveTimer := toLex (p, k)

namespace Entry

def time (e : Entry) : Timestamp := (ofLex e).1

def timer (e : Entry) : Address := (ofLex e).2

end Entry

inductive Frame
  | idle
  | firing (now : Timestamp) (ran todo : List Entry)
  | resetting (now : Timestamp) (todo : List Entry)

namespace Frame

def batch : Frame → List Entry
  | idle => []
  | firing _ ran todo => ran ++ todo
  | resetting _ todo => todo

/-- User code runs on the loop thread: outside `handleRead`, or inside the
callback of the timer taken last from the batch. -/
def UserCode : Frame → Prop
  | idle => True
  | firing _ ran _ => ran ≠ []
  | resetting _ _ => False

instance : (f : Frame) → Decidable f.UserCode
  | idle => isTrue trivial
  | firing _ ran _ => inferInstanceAs (Decidable (ran ≠ []))
  | resetting _ _ => isFalse id

end Frame

/-- The one-shot alarm: the instant at which it becomes (or became) readable,
and the clock reading when it was last set. -/
structure Timerfd where
  alarm : Option Timestamp
  armedAt : Timestamp

structure Timespec where
  tv_sec : ℤ
  tv_nsec : ℤ
  deriving DecidableEq, Repr

def kMicroSecondsPerSecond : ℤ := 1000 * 1000

/-- The delay in microseconds, at least one hundred. The difference is an
`int64_t`. -/
def delayFromNow (when now : Timestamp) : ℤ :=
  let ms := wrap64 (when - now)
  if ms < 100 then 100 else ms

def howMuchTimeFromNow (when now : Timestamp) : Timespec :=
  ⟨(delayFromNow when now).tdiv kMicroSecondsPerSecond,
    (delayFromNow when now).tmod kMicroSecondsPerSecond * 1000⟩

def Timespec.micros (ts : Timespec) : ℤ :=
  ts.tv_sec * kMicroSecondsPerSecond + ts.tv_nsec / 1000

/-- `timerfd_settime` with a relative value replaces the previous setting and
clears an unread expiration. -/
def resetTimerfd (clock expiration : Timestamp) : Timerfd :=
  ⟨some (clock + (howMuchTimeFromNow expiration clock).micros), clock⟩

/-- Reading consumes an expiration that has happened; otherwise the read fails
and the setting stays. -/
def readTimerfd (fd : Timerfd) (now : Timestamp) : Timerfd :=
  match fd.alarm with
  | none => fd
  | some a => if a ≤ now then { fd with alarm := none } else fd

end TimerQueue

/-- The queue with the heap of Timer objects. `freed` lists the sequence
numbers of deleted timers in order, `numCreated` is `Timer::s_numCreated`. -/
structure TimerQueue (φ : Type) where
  heap : TimerQueue.Address → Option (TimerQueue.Timer φ)
  freed : List ℤ
  numCreated : ℤ
  timerList : SortedSet TimerQueue.Entry
  activeTimerSet : SortedSet TimerQueue.ActiveTimer
  cancelingTimerSet : SortedSet TimerQueue.ActiveTimer
  callingExpiredTimers : Bool
  timerfd : TimerQueue.Timerfd
  frame : TimerQueue.Frame

namespace TimerQueue

open Checked

variable {φ : Type}

def initial : TimerQueue φ where
  heap := fun _ => none
  freed := []
  numCreated := 0
  timerList := .empty
  activeTimerSet := .empty
  cancelingTimerSet := .empty
  callingExpiredTimers := false
  timerfd := ⟨none, 0⟩
  frame := .idle

def deref (q : TimerQueue φ) (p : Address) : Except Fault (Timer φ) :=
  demand (q.heap p) .useAfterFree

def delete (q : TimerQueue φ) (p : Address) : Except Fault (TimerQueue φ) := do
  let t ← q.deref p
  return { q with heap := Function.update q.heap p none, freed := q.freed ++ [t.sequence] }

/-- The first half of `addTimer`: construct the Timer at an address chosen by
the allocator and form the TimerId that the caller receives. -/
def newTimer (q : TimerQueue φ) (p : Address) (cb : φ) (when : Timestamp)
    (interval : Interval) : TimerQueue φ × TimerId :=
  ({ q with heap := Function.update q.heap p (some ⟨cb, when, interval, q.numCreated + 1⟩),
            numCreated := q.numCreated + 1 },
    TimerId.ofTimer p)

def earliestChanged (q : TimerQueue φ) (when : Timestamp) : Bool :=
  match q.timerList.first? with
  | none => true
  | some e => decide (when < e.time)

def insert (q : TimerQueue φ) (p : Address) : Except Fault (TimerQueue φ × Bool) := do
  require (q.timerList.size = q.activeTimerSet.size) .timerSetSizes
  let t ← q.deref p
  let when := t.expirationTimestamp
  let earliestChanged := q.earliestChanged when
  let (timerList, isNew) := q.timerList.insert (entry when p)
  require (isNew = true) .timerListInsert
  let (activeTimerSet, isNew) := q.activeTimerSet.insert (activeTimer p t.sequence)
  require (isNew = true) .activeTimerInsert
  require (timerList.size = activeTimerSet.size) .timerSetSizes
  return ({ q with timerList := timerList, activeTimerSet := activeTimerSet }, earliestChanged)

/-- The second half of `addTimer`, on the loop thread. -/
def addTimerInLoop (q : TimerQueue φ) (p : Address) (clock : Timestamp) :
    Except Fault (TimerQueue φ) := do
  let (q, earliestChanged) ← q.insert p
  if earliestChanged then
    let t ← q.deref p
    return { q with timerfd := resetTimerfd clock t.expirationTimestamp }
  else return q

def cancelInLoop (q : TimerQueue φ) (timerId : TimerId) : Except Fault (TimerQueue φ) := do
  require (q.timerList.size = q.activeTimerSet.size) .timerSetSizes
  let timer := activeTimer timerId.timer timerId.sequence
  if timer ∈ q.activeTimerSet then
    let t ← q.deref timerId.timer
    let (timerList, n) := q.timerList.erase (entry t.expirationTimestamp timerId.timer)
    require (n = 1) .timerListErase
    let q ← q.delete timerId.timer
    let activeTimerSet := (q.activeTimerSet.erase timer).1
    require (timerList.size = activeTimerSet.size) .timerSetSizes
    return { q with timerList := timerList, activeTimerSet := activeTimerSet }
  else if q.callingExpiredTimers then
    return { q with cancelingTimerSet := (q.cancelingTimerSet.insert timer).1 }
  else return q

/-- The loop of `getExpired` that drops the expired timers from the second set. -/
def eraseActive (q : TimerQueue φ) (active : SortedSet ActiveTimer) :
    List Entry → Except Fault (SortedSet ActiveTimer)
  | [] => .ok active
  | e :: rest => do
      let t ← q.deref e.timer
      let (active, n) := active.erase (activeTimer e.timer t.sequence)
      require (n = 1) .activeTimerErase
      q.eraseActive active rest

def getExpired (q : TimerQueue φ) (now : Timestamp) :
    Except Fault (TimerQueue φ × List Entry) := do
  require (q.timerList.size = q.activeTimerSet.size) .timerSetSizes
  let sentry := entry now uintptrMax
  let expired := q.timerList.below sentry
  let timerList := q.timerList.fromLowerBound sentry
  require (∀ e ∈ timerList.first?, now < e.time) .lowerBoundNotLater
  let activeTimerSet ← q.eraseActive q.activeTimerSet expired
  require (timerList.size = activeTimerSet.size) .timerSetSizes
  return ({ q with timerList := timerList, activeTimerSet := activeTimerSet }, expired)

/-- `handleRead` up to its callback loop. -/
def handleRead (q : TimerQueue φ) (now : Timestamp) : Except Fault (TimerQueue φ) := do
  let (q, expired) ← { q with timerfd := readTimerfd q.timerfd now }.getExpired now
  return { q with callingExpiredTimers := true
                  cancelingTimerSet := .empty
                  frame := .firing now [] expired }

def runTimer (q : TimerQueue φ) : Except Fault (TimerQueue φ × Option (Timer φ)) :=
  match q.frame with
  | .firing now ran (e :: todo) => do
      let t ← q.deref e.timer
      return ({ q with frame := .firing now (ran ++ [e]) todo }, some t)
  | _ => .ok (q, none)

def endCallbacks (q : TimerQueue φ) : TimerQueue φ :=
  match q.frame with
  | .firing now ran [] => { q with callingExpiredTimers := false, frame := .resetting now ran }
  | _ => q

def resetTimer (q : TimerQueue φ) : Except Fault (TimerQueue φ) :=
  match q.frame with
  | .resetting now (e :: todo) => do
      let t ← q.deref e.timer
      if t.isRepeat ∧ activeTimer e.timer t.sequence ∉ q.cancelingTimerSet then
        let q := { q with heap := Function.update q.heap e.timer (some (t.restart now)) }
        let (q, _) ← q.insert e.timer
        return { q with frame := .resetting now todo }
      else
        let q ← q.delete e.timer
        return { q with frame := .resetting now todo }
  | _ => .ok q

/-- The end of `reset`, with the clock reading of `resetTimerfd`. -/
def rearm (q : TimerQueue φ) (clock : Timestamp) : Except Fault (TimerQueue φ) :=
  match q.frame with
  | .resetting _ [] => do
      let nextExpire ← match q.timerList.first? with
        | none => Except.ok invalid
        | some e => (·.expirationTimestamp) <$> q.deref e.timer
      if valid nextExpire then
        return { q with timerfd := resetTimerfd clock nextExpire, frame := .idle }
      else return { q with frame := .idle }
  | _ => .ok q

end TimerQueue

end TinyMuduo
