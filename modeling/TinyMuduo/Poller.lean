import Mathlib.Data.List.AList
import TinyMuduo.Channel
import TinyMuduo.Fault
import TinyMuduo.Lib.Checked

/-!
The Poller: the vector of `pollfd` entries that poll(2) is given and the map
from descriptors to Channels. Each registered Channel keeps the index of its
entry. An entry is ignored by poll(2) when its descriptor is negative, which
is how a Channel without interest stays registered.
-/
namespace TinyMuduo

open Checked Channel

/-- `struct pollfd`; the masks are `short`. -/
structure PollFd where
  fd : ℤ
  events : BitVec 16
  revents : BitVec 16
  deriving DecidableEq, Repr

def ChannelMap : Type := AList fun _ : ℤ => ChannelId

namespace ChannelMap

def empty : ChannelMap := (∅ : AList fun _ : ℤ => ChannelId)

def find (m : ChannelMap) (fd : ℤ) : Option ChannelId := AList.lookup fd m

def insert (m : ChannelMap) (fd : ℤ) (c : ChannelId) : ChannelMap := AList.insert fd c m

def erase (m : ChannelMap) (fd : ℤ) : ChannelMap := AList.erase fd m

variable (m : ChannelMap) (fd fd' : ℤ) (c : ChannelId)

@[simp]
theorem find_empty : empty.find fd = none := AList.lookup_empty fd

@[simp]
theorem find_insert : (m.insert fd c).find fd = some c := AList.lookup_insert m

@[simp]
theorem find_erase : (m.erase fd).find fd = none := AList.lookup_erase fd m

variable {fd fd'}

theorem find_insert_other (h : fd' ≠ fd) : (m.insert fd c).find fd' = m.find fd' :=
  AList.lookup_insert_ne h

theorem find_erase_other (h : fd' ≠ fd) : (m.erase fd).find fd' = m.find fd' :=
  AList.lookup_erase_ne h

theorem find_insert_eq (fd fd' : ℤ) :
    (m.insert fd c).find fd' = if fd' = fd then some c else m.find fd' := by
  split
  · rename_i h
    rw [h, find_insert]
  · rename_i h
    exact find_insert_other m c h

theorem find_erase_eq (fd fd' : ℤ) :
    (m.erase fd).find fd' = if fd' = fd then none else m.find fd' := by
  split
  · rename_i h
    rw [h, find_erase]
  · rename_i h
    exact find_erase_other m h

def keys (m : ChannelMap) : List ℤ := AList.keys m

def size (m : ChannelMap) : ℕ := m.keys.length

variable {m c}

theorem find_eq_none : m.find fd = none ↔ fd ∉ m.keys := AList.lookup_eq_none

theorem keys_insert : (m.insert fd c).keys = fd :: m.keys.erase fd := AList.keys_insert m

theorem keys_erase : (m.erase fd).keys = m.keys.erase fd := AList.keys_erase fd m

theorem size_insert (h : m.find fd = none) : (m.insert fd c).size = m.size + 1 := by
  rw [size, keys_insert, List.length_cons, List.erase_of_not_mem (find_eq_none.mp h), size]

theorem size_erase (h : m.find fd = some c) : (m.erase fd).size + 1 = m.size := by
  have hkey : fd ∈ m.keys := by
    by_contra hnone
    rw [find_eq_none.mpr hnone] at h
    cases h
  have hpos := List.length_pos_of_mem hkey
  rw [size, keys_erase, List.length_erase_of_mem hkey, size]
  omega

end ChannelMap

structure Poller where
  channels : ChannelId → Channel
  pollFdList : List PollFd
  channelMap : ChannelMap

namespace Poller

/-- The descriptor that makes poll(2) ignore an entry: zero is a descriptor,
so the sign alone would not do. -/
def ignored (fd : ℤ) : ℤ := -fd - 1

def setIndex (p : Poller) (c : ChannelId) (index : ℤ) : Poller :=
  { p with channels := Function.update p.channels c { p.channels c with index := index } }

def setEvents (p : Poller) (c : ChannelId) (events : EventMask) : Poller :=
  { p with channels := Function.update p.channels c { p.channels c with events := events } }

def setRevents (p : Poller) (c : ChannelId) (revents : EventMask) : Poller :=
  { p with channels := Function.update p.channels c { p.channels c with revents := revents } }

/-- A new Channel object takes the place of whatever was at its address. -/
def newChannel (p : Poller) (c : ChannelId) (fd : ℕ) : Poller :=
  { p with channels := Function.update p.channels c (Channel.construct fd) }

def updateChannel (p : Poller) (c : ChannelId) : Except Fault Poller :=
  let channel := p.channels c
  if channel.index < 0 then do
    require (p.channelMap.find channel.fd = none) .updateFdMapped
    let pfd : PollFd := ⟨channel.fd, channel.events.setWidth 16, 0⟩
    let pollFdList := p.pollFdList ++ [pfd]
    let added := { p with pollFdList := pollFdList, channelMap := p.channelMap.insert pfd.fd c }
    return added.setIndex c (pollFdList.length - 1)
  else do
    require (p.channelMap.find channel.fd ≠ none) .updateFdNotMapped
    require (p.channelMap.find channel.fd = some c) .updateOtherMapped
    require (0 ≤ channel.index ∧ channel.index < p.pollFdList.length) .updateIndex
    let pfd ← demand p.pollFdList[channel.index.toNat]? .updateIndex
    require (pfd.fd = channel.fd ∨ pfd.fd = ignored channel.fd) .updatePollFd
    let pfd := { pfd with events := channel.events.setWidth 16, revents := 0 }
    let pfd := if channel.isNoneEvent then { pfd with fd := ignored channel.fd } else pfd
    return { p with pollFdList := p.pollFdList.set channel.index.toNat pfd }

/-- `Poller::removeChannel`. The index of the removed Channel stays as it is. -/
def removeChannel (p : Poller) (c : ChannelId) : Except Fault Poller := do
  let channel := p.channels c
  require (p.channelMap.find channel.fd ≠ none) .removeFdNotMapped
  require (p.channelMap.find channel.fd = some c) .removeOtherMapped
  require (channel.isNoneEvent = true) .removeWithInterest
  require (0 ≤ channel.index ∧ channel.index < p.pollFdList.length) .removeIndex
  let idx := channel.index.toNat
  let pfd ← demand p.pollFdList[idx]? .removeIndex
  require (pfd.fd = ignored channel.fd ∧ pfd.events.signExtend 32 = channel.events)
    .removePollFd
  let n := if p.channelMap.find channel.fd = none then 0 else 1
  require (n = 1) .removeEraseCount
  let channelMap := p.channelMap.erase channel.fd
  if idx = p.pollFdList.length - 1 then
    return { p with pollFdList := p.pollFdList.dropLast, channelMap := channelMap }
  else do
    let back ← demand p.pollFdList.getLast? .removeIndex
    let channelAtEnd := if back.fd < 0 then ignored back.fd else back.fd
    let moved ← demand (channelMap.find channelAtEnd) .nullPointer
    let rest := { p with pollFdList := (p.pollFdList.set idx back).dropLast
                         channelMap := channelMap }
    return rest.setIndex moved idx

/-- One of the four changes of interest of a Channel: set the mask, then
`update()`. -/
def change (p : Poller) (c : ChannelId) (interest : Interest) : Except Fault Poller :=
  (p.setEvents c (interest.apply (p.channels c).events)).updateChannel c

/-- What poll(2) answers: the `revents` it writes into the entries, in their
order, and its return value. -/
structure Answer where
  revents : List (BitVec 16)
  numEvents : ℤ

def answered (p : Poller) (answer : Answer) : Poller :=
  let write (pfd : PollFd) (revents : BitVec 16) : PollFd := { pfd with revents := revents }
  { p with pollFdList := List.zipWith write p.pollFdList answer.revents }

/-- `Poller::fillActiveChannels`, from an entry of the vector on. -/
def fillActiveChannels (p : Poller) (numEvents : ℤ) (activeChannels : List ChannelId) :
    List PollFd → Except Fault (Poller × List ChannelId)
  | [] => .ok (p, activeChannels)
  | pfd :: rest =>
      if 0 < numEvents then
        if 0 < pfd.revents.toInt then do
          let channel ← demand (p.channelMap.find pfd.fd) .activeNotMapped
          require ((p.channels channel).fd = pfd.fd) .activeOtherFd
          (p.setRevents channel (pfd.revents.signExtend 32)).fillActiveChannels (numEvents - 1)
            (activeChannels ++ [channel]) rest
        else p.fillActiveChannels numEvents activeChannels rest
      else .ok (p, activeChannels)

def poll (p : Poller) (answer : Answer) (activeChannels : List ChannelId) :
    Except Fault (Poller × List ChannelId) :=
  let p := p.answered answer
  if 0 < answer.numEvents then
    p.fillActiveChannels answer.numEvents activeChannels p.pollFdList
  else .ok (p, activeChannels)

/-- The map leads from the Channel's descriptor to the Channel. -/
def Registered (p : Poller) (c : ChannelId) : Prop :=
  p.channelMap.find (p.channels c).fd = some c

instance (p : Poller) (c : ChannelId) : Decidable (Registered p c) :=
  inferInstanceAs (Decidable (p.channelMap.find (p.channels c).fd = some c))

section Fields

variable (p : Poller) (c d : ChannelId) (events : EventMask) (index : ℤ)

@[simp]
theorem setEvents_fd : ((p.setEvents c events).channels d).fd = (p.channels d).fd := by
  by_cases h : d = c <;> simp [setEvents, h]

@[simp]
theorem setEvents_index : ((p.setEvents c events).channels d).index = (p.channels d).index := by
  by_cases h : d = c <;> simp [setEvents, h]

@[simp]
theorem setEvents_events : ((p.setEvents c events).channels c).events = events := by
  simp [setEvents]

@[simp]
theorem setEvents_revents :
    ((p.setEvents c events).channels d).revents = (p.channels d).revents := by
  by_cases h : d = c <;> simp [setEvents, h]

@[simp]
theorem setEvents_pollFdList : (p.setEvents c events).pollFdList = p.pollFdList := rfl

@[simp]
theorem setEvents_channelMap : (p.setEvents c events).channelMap = p.channelMap := rfl

@[simp]
theorem setIndex_fd : ((p.setIndex c index).channels d).fd = (p.channels d).fd := by
  by_cases h : d = c <;> simp [setIndex, h]

@[simp]
theorem setIndex_events : ((p.setIndex c index).channels d).events = (p.channels d).events := by
  by_cases h : d = c <;> simp [setIndex, h]

@[simp]
theorem setIndex_revents :
    ((p.setIndex c index).channels d).revents = (p.channels d).revents := by
  by_cases h : d = c <;> simp [setIndex, h]

@[simp]
theorem setIndex_index : ((p.setIndex c index).channels c).index = index := by
  simp [setIndex]

@[simp]
theorem setIndex_pollFdList : (p.setIndex c index).pollFdList = p.pollFdList := rfl

@[simp]
theorem setIndex_channelMap : (p.setIndex c index).channelMap = p.channelMap := rfl

variable {p c d events index}

theorem setEvents_other (h : d ≠ c) : (p.setEvents c events).channels d = p.channels d := by
  simp [setEvents, h]

theorem setIndex_other (h : d ≠ c) : (p.setIndex c index).channels d = p.channels d := by
  simp [setIndex, h]

theorem registered_setEvents : (p.setEvents c events).Registered d ↔ p.Registered d := by
  simp [Registered]

end Fields

/-- What a successful `updateChannel` did: it appended an entry for a Channel
seen for the first time, or it rewrote the entry of a registered one. -/
theorem updateChannel_cases {p p' : Poller} {c : ChannelId} (h : p.updateChannel c = .ok p') :
    ((p.channels c).index < 0 ∧ p.channelMap.find (p.channels c).fd = none ∧
      p' = (Poller.mk p.channels
        (p.pollFdList ++ [⟨(p.channels c).fd, (p.channels c).events.setWidth 16, 0⟩])
        (p.channelMap.insert (p.channels c).fd c)).setIndex c p.pollFdList.length) ∨
    ∃ (i : ℕ) (pfd : PollFd), (p.channels c).index = i ∧ p.Registered c ∧
      p.pollFdList[i]? = some pfd ∧
      (pfd.fd = (p.channels c).fd ∨ pfd.fd = ignored (p.channels c).fd) ∧
      p' = ⟨p.channels, p.pollFdList.set i
        ⟨if (p.channels c).isNoneEvent then ignored (p.channels c).fd else pfd.fd,
          (p.channels c).events.setWidth 16, 0⟩, p.channelMap⟩ := by
  simp only [updateChannel] at h
  split at h
  · rename_i hneg
    left
    simp only [bind_eq_ok, require_eq_ok, pure_eq_ok, Except.ok.injEq] at h
    obtain ⟨-, hnone, rfl⟩ := h
    refine ⟨hneg, hnone, ?_⟩
    simp
  · right
    simp only [bind_eq_ok, require_eq_ok, demand_eq_ok, pure_eq_ok, Except.ok.injEq] at h
    obtain ⟨-, -, -, hmap, -, ⟨hlow, -⟩, pfd, hget, -, hfd, rfl⟩ := h
    refine ⟨(p.channels c).index.toNat, pfd, by omega, hmap, hget, hfd, ?_⟩
    by_cases hnone : (p.channels c).isNoneEvent = true
    · simp [hnone]
    · simp [hnone]

theorem updateChannel_error {p : Poller} {c : ChannelId} {e : Fault}
    (h : p.updateChannel c = .error e) : e.ofUpdate = true := by
  simp only [updateChannel] at h
  split at h
  · simp only [bind_eq_error, require_eq_error, pure_eq_ok, reduceCtorEq, and_false,
      exists_false, or_false] at h
    rw [h.2]
    rfl
  · simp only [bind_eq_error, require_eq_error, require_eq_ok, demand_eq_error, pure_eq_ok,
      reduceCtorEq, and_false, exists_false, or_false] at h
    rcases h with ⟨-, rfl⟩ | ⟨-, -, ⟨-, rfl⟩ | ⟨-, -, ⟨-, rfl⟩ | ⟨-, -, ⟨-, rfl⟩ |
      ⟨-, -, -, rfl⟩⟩⟩⟩ <;> rfl

/-- What a successful `removeChannel` did: it took out the last entry, or it
moved the last entry into the gap and told its Channel so. -/
theorem removeChannel_cases {p p' : Poller} {c : ChannelId} (h : p.removeChannel c = .ok p') :
    ∃ (i : ℕ) (pfd : PollFd), (p.channels c).index = i ∧ p.Registered c ∧
      (p.channels c).events = kNoneEvent ∧ p.pollFdList[i]? = some pfd ∧
      pfd.fd = ignored (p.channels c).fd ∧
      ((i + 1 = p.pollFdList.length ∧
        p' = ⟨p.channels, p.pollFdList.dropLast, p.channelMap.erase (p.channels c).fd⟩) ∨
      ∃ (back : PollFd) (moved : ChannelId), i + 1 < p.pollFdList.length ∧
        p.pollFdList.getLast? = some back ∧
        (p.channelMap.erase (p.channels c).fd).find
          (if back.fd < 0 then ignored back.fd else back.fd) = some moved ∧
        p' = (Poller.mk p.channels (p.pollFdList.set i back).dropLast
          (p.channelMap.erase (p.channels c).fd)).setIndex moved i) := by
  simp only [removeChannel, bind_eq_ok, require_eq_ok, demand_eq_ok] at h
  obtain ⟨-, -, -, hmap, -, hnone, -, ⟨hlow, hhigh⟩, pfd, hget, -, ⟨hfd, -⟩, -, -, h⟩ := h
  refine ⟨(p.channels c).index.toNat, pfd, by omega, hmap,
    (isNoneEvent_iff _).mp hnone, hget, hfd, ?_⟩
  split at h
  · rename_i hlast
    simp only [pure_eq_ok, Except.ok.injEq] at h
    exact Or.inl ⟨by omega, h.symm⟩
  · rename_i hlast
    simp only [bind_eq_ok, demand_eq_ok, pure_eq_ok, Except.ok.injEq] at h
    obtain ⟨back, hback, moved, hmoved, h⟩ := h
    exact Or.inr ⟨back, moved, by omega, hback, hmoved, h.symm⟩

theorem removeChannel_error {p : Poller} {c : ChannelId} {e : Fault}
    (h : p.removeChannel c = .error e) : e.ofRemove = true := by
  simp only [removeChannel, bind_eq_error, require_eq_error, require_eq_ok, demand_eq_error,
    demand_eq_ok] at h
  rcases h with ⟨-, rfl⟩ | ⟨-, -, ⟨-, rfl⟩ | ⟨-, -, ⟨-, rfl⟩ | ⟨-, -, ⟨-, rfl⟩ |
    ⟨-, -, ⟨-, rfl⟩ | ⟨-, -, ⟨-, rfl⟩ | ⟨-, -, ⟨-, rfl⟩ | ⟨-, -, h⟩⟩⟩⟩⟩⟩⟩
  all_goals try rfl
  split at h
  · simp at h
  · simp only [bind_eq_error, demand_eq_error, pure_eq_ok, reduceCtorEq, and_false, exists_false,
      or_false] at h
    rcases h with ⟨-, rfl⟩ | ⟨-, -, -, rfl⟩ <;> rfl

end Poller

end TinyMuduo
