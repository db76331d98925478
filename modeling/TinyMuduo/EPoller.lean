import TinyMuduo.Poller

/-!
The EPoller with the epoll set that the kernel keeps for it. A Channel's index
says how the two are related: not in `channels_`, in the epoll set, or taken
out of the epoll set while it stays in `channels_`. The calls of epoll_ctl(2)
are recorded with whether their descriptor was in the set.
-/
namespace TinyMuduo

open Checked Channel

structure EpollEvent where
  events : EventMask
  ptr : ChannelId
  deriving DecidableEq, Repr

inductive EpollOp
  | add
  | mod
  | del
  deriving DecidableEq, Repr

/-- A call of epoll_ctl(2), and whether the descriptor was in the epoll set. -/
structure EpollCall where
  operation : EpollOp
  fd : ℕ
  present : Bool
  deriving DecidableEq, Repr

/-- An EPoller with the Channel objects that its pointers refer to and the
kernel's epoll set; `channelMap` is the member `channels_`. -/
structure EPoller where
  channels : ChannelId → Channel
  channelMap : ChannelMap
  epollSet : ℕ → Option EpollEvent
  eventListSize : ℕ
  calls : List EpollCall

namespace EPoller

def kNew : ℤ := -1

def kAdded : ℤ := 1

def kDeleted : ℤ := 2

def kInitEventListSize : ℕ := 16

def initial (fds : ChannelId → ℕ) : EPoller :=
  ⟨fun c => Channel.construct (fds c), .empty, fun _ => none, kInitEventListSize, []⟩

def setIndex (p : EPoller) (c : ChannelId) (index : ℤ) : EPoller :=
  { p with channels := Function.update p.channels c { p.channels c with index := index } }

def setEvents (p : EPoller) (c : ChannelId) (events : EventMask) : EPoller :=
  { p with channels := Function.update p.channels c { p.channels c with events := events } }

def setRevents (p : EPoller) (c : ChannelId) (revents : EventMask) : EPoller :=
  { p with channels := Function.update p.channels c { p.channels c with revents := revents } }

/-- epoll_ctl(2), which fails only to add a descriptor of the set (EEXIST) and
to modify or delete one that is not in it (ENOENT). -/
def epollCtl (set : ℕ → Option EpollEvent) (operation : EpollOp) (fd : ℕ) (event : EpollEvent) :
    Option (ℕ → Option EpollEvent) :=
  match operation, set fd with
  | .add, none => some (Function.update set fd (some event))
  | .mod, some _ => some (Function.update set fd (some event))
  | .del, some _ => some (Function.update set fd none)
  | .add, some _ | .mod, none | .del, none => none

/-- `EPoller::update`: a failed deletion is only logged, any other failure ends
the process. -/
def update (p : EPoller) (operation : EpollOp) (c : ChannelId) : Except Fault EPoller :=
  let channel := p.channels c
  let called := { p with calls := p.calls ++ [⟨operation, channel.fd,
    (p.epollSet channel.fd).isSome⟩] }
  match epollCtl p.epollSet operation channel.fd ⟨channel.events, c⟩ with
  | some set => .ok { called with epollSet := set }
  | none => if operation = .del then .ok called else .error .epollCtl

def updateChannel (p : EPoller) (c : ChannelId) : Except Fault EPoller :=
  let channel := p.channels c
  if channel.index = kNew then do
    require (p.channelMap.find channel.fd = none) .epollFdMapped
    let mapped := { p with channelMap := p.channelMap.insert channel.fd c }
    (mapped.setIndex c kAdded).update .add c
  else if channel.index = kDeleted then do
    require (p.channelMap.find channel.fd ≠ none) .epollFdNotMapped
    require (p.channelMap.find channel.fd = some c) .epollOtherMapped
    (p.setIndex c kAdded).update .add c
  else do
    require (p.channelMap.find channel.fd ≠ none) .epollFdNotMapped
    require (p.channelMap.find channel.fd = some c) .epollOtherMapped
    require (channel.index = kAdded) .epollIndex
    if channel.isNoneEvent then do
      let deleted ← p.update .del c
      return deleted.setIndex c kDeleted
    else p.update .mod c

def removeChannel (p : EPoller) (c : ChannelId) : Except Fault EPoller := do
  let channel := p.channels c
  require (p.channelMap.find channel.fd ≠ none) .epollRemoveFdNotMapped
  require (p.channelMap.find channel.fd = some c) .epollRemoveOtherMapped
  require (channel.isNoneEvent = true) .epollRemoveWithInterest
  require (channel.index = kAdded ∨ channel.index = kDeleted) .epollRemoveIndex
  let n := if p.channelMap.find channel.fd = none then 0 else 1
  require (n = 1) .epollRemoveEraseCount
  let erased := { p with channelMap := p.channelMap.erase channel.fd }
  if channel.index = kAdded then do
    let deleted ← erased.update .del c
    return deleted.setIndex c kNew
  else return erased.setIndex c kNew

/-- One of the four changes of interest of a Channel: set the mask, then
`update()`. -/
def change (p : EPoller) (c : ChannelId) (interest : Interest) : Except Fault EPoller :=
  (p.setEvents c (interest.apply (p.channels c).events)).updateChannel c

def fillActive (p : EPoller) (active : List ChannelId) :
    List EpollEvent → Except Fault (EPoller × List ChannelId)
  | [] => .ok (p, active)
  | event :: rest => do
      let found ← demand (p.channelMap.find (p.channels event.ptr).fd) .epollActiveNotMapped
      require (found = event.ptr) .epollActiveOther
      (p.setRevents event.ptr event.events).fillActive (active ++ [event.ptr]) rest

def fillActiveChannels (p : EPoller) (events : List EpollEvent) :
    Except Fault (EPoller × List ChannelId) := do
  require (events.length ≤ p.eventListSize) .epollNumEvents
  p.fillActive [] events

/-- `EPoller::poll` with what epoll_wait(2) returned: an error, or events. The
event list grows when it was full. -/
def poll (p : EPoller) : Option (List EpollEvent) → Except Fault (EPoller × List ChannelId)
  | none | some [] => .ok (p, [])
  | some events => do
      let (filled, active) ← p.fillActiveChannels events
      return (if events.length = p.eventListSize
        then { filled with eventListSize := p.eventListSize * 2 } else filled, active)

/-- The map leads from the Channel's descriptor to the Channel. -/
def Registered (p : EPoller) (c : ChannelId) : Prop :=
  p.channelMap.find (p.channels c).fd = some c

instance (p : EPoller) (c : ChannelId) : Decidable (Registered p c) :=
  inferInstanceAs (Decidable (p.channelMap.find (p.channels c).fd = some c))

section Fields

variable (p : EPoller) (c d : ChannelId) (events : EventMask) (index : ℤ)

@[simp]
theorem setEvents_fd : ((p.setEvents c events).channels d).fd = (p.channels d).fd := by
  by_cases h : d = c <;> simp [setEvents, h]

@[simp]
theorem setEvents_index : ((p.setEvents c events).channels d).index = (p.channels d).index := by
  by_cases h : d = c <;> simp [setEvents, h]

@[simp]
theorem setEvents_events : ((p.setEvents c events).channels c).events = events := by
  simp [setEvents]

@[simp]
theorem setIndex_fd : ((p.setIndex c index).channels d).fd = (p.channels d).fd := by
  by_cases h : d = c <;> simp [setIndex, h]

@[simp]
theorem setIndex_events : ((p.setIndex c index).channels d).events = (p.channels d).events := by
  by_cases h : d = c <;> simp [setIndex, h]

@[simp]
theorem setIndex_index : ((p.setIndex c index).channels c).index = index := by
  simp [setIndex]

@[simp]
theorem setIndex_channelMap : (p.setIndex c index).channelMap = p.channelMap := rfl

@[simp]
theorem setIndex_epollSet : (p.setIndex c index).epollSet = p.epollSet := rfl

@[simp]
theorem setRevents_fd : ((p.setRevents c events).channels d).fd = (p.channels d).fd := by
  by_cases h : d = c <;> simp [setRevents, h]

@[simp]
theorem setRevents_index : ((p.setRevents c events).channels d).index = (p.channels d).index := by
  by_cases h : d = c <;> simp [setRevents, h]

@[simp]
theorem setRevents_events :
    ((p.setRevents c events).channels d).events = (p.channels d).events := by
  by_cases h : d = c <;> simp [setRevents, h]

variable {p c d events index}

theorem setEvents_other (h : d ≠ c) : (p.setEvents c events).channels d = p.channels d := by
  simp [setEvents, h]

theorem setIndex_other (h : d ≠ c) : (p.setIndex c index).channels d = p.channels d := by
  simp [setIndex, h]

end Fields

end EPoller

end TinyMuduo
