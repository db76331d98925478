import TinyMuduo.EPollerMirror
import TinyMuduo.PollerWatch

/-!
Poller and EPoller run side by side on the same operations. The two agree when
an assertion fails in both or in neither and the kernel is asked to watch the
same descriptors for the same non-empty masks. They part in three ways: the
Poller keeps the index of a removed Channel and so refuses to register it
again, it does not watch a Channel again whose entry is in the ignored form,
and it refuses to remove a Channel without interest whose entry is not in that
form. The runs without these three steps are exactly those that agree.
-/
namespace TinyMuduo.EPoller

open Checked Channel Runs

def Watches (e : EPoller) (fd : ℤ) (events : EventMask) : Prop :=
  ∃ (n : ℕ) (event : EpollEvent), fd = n ∧ e.epollSet n = some event ∧ event.events = events

/-- The epoll set has the Channels with interest, each with its own mask. -/
structure Tracks (e : EPoller) : Prop where
  mirror : Mirror e
  interest : ∀ c, e.Registered c → (e.channels c).events ≠ kNoneEvent →
    (e.epollSet (e.channels c).fd).isSome = true
  masks : ∀ fd event, e.epollSet fd = some event →
    event.events = (e.channels event.ptr).events

structure Changed (e e' : EPoller) (c : ChannelId) (mask : EventMask) : Prop where
  fds : ∀ d, (e'.channels d).fd = (e.channels d).fd
  events : (e'.channels c).events = mask
  others : ∀ d, d ≠ c → (e'.channels d).events = (e.channels d).events
  registered : ∀ d, e'.Registered d ↔ d = c ∨ e.Registered d

variable {e e' : EPoller} {c : ChannelId}

theorem Registered.inj {d : ChannelId} (hc : e.Registered c) (hd : e.Registered d)
    (hfd : (e.channels c).fd = (e.channels d).fd) : c = d := by
  unfold Registered at hc hd
  rw [hfd, hd] at hc
  exact (Option.some.inj hc).symm

/-- The Channel that an entry of the epoll set points to. -/
theorem Tracks.owner (h : Tracks e) {fd : ℕ} {event : EpollEvent}
    (hevent : e.epollSet fd = some event) :
    e.Registered event.ptr ∧ (e.channels event.ptr).fd = fd := by
  have hfind := h.mirror.ptr fd event hevent
  have hkey := h.mirror.keyed fd event.ptr hfind
  refine ⟨?_, by exact_mod_cast hkey.symm⟩
  unfold Registered
  rw [← hkey]
  exact hfind

theorem Tracks.watches_iff (h : Tracks e) {fd : ℤ} {events : EventMask}
    (hevents : events ≠ kNoneEvent) :
    e.Watches fd events ↔
      ∃ c, e.Registered c ∧ fd = (e.channels c).fd ∧ events = (e.channels c).events := by
  constructor
  · rintro ⟨n, event, rfl, hevent, rfl⟩
    obtain ⟨hreg, hfd⟩ := h.owner hevent
    exact ⟨event.ptr, hreg, by rw [hfd], h.masks n event hevent⟩
  · rintro ⟨c, hreg, rfl, rfl⟩
    obtain ⟨event, hevent⟩ := Option.isSome_iff_exists.mp (h.interest c hreg hevents)
    have hptr : some event.ptr = some c := (h.mirror.ptr _ event hevent).symm.trans hreg
    obtain rfl := Option.some.inj hptr
    exact ⟨_, event, rfl, hevent, h.masks _ event hevent⟩

theorem updated_changed {mask : EventMask} (hu : Updated (e.setEvents c mask) e' c) :
    Changed e e' c mask where
  fds d := by rw [hu.touched.fds, setEvents_fd]
  events := by rw [hu.events, setEvents_events]
  others d hd := by rw [hu.others d hd, setEvents_other hd]
  registered d := by
    by_cases hd : d = c
    · subst hd
      simp [hu.registered]
    · rw [hu.touched.registered_other hd]
      simp [Registered, hd]
      rfl

theorem updated_tracks {mask : EventMask} (h : Tracks e)
    (hu : Updated (e.setEvents c mask) e' c) : Tracks e' := by
  have hchanged := updated_changed hu
  have hset := hu.epollSet
  rw [setEvents_fd, setEvents_events] at hset
  refine ⟨hu.mirror (h.mirror.setEvents c mask), ?_, ?_⟩
  · intro d hreg hevents
    rw [hset, hchanged.fds]
    by_cases hd : d = c
    · subst hd
      have hstays : (e.setEvents d mask).leaves d = false := by
        rw [hchanged.events] at hevents
        simp [leaves, isNoneEvent, hevents]
      rw [Function.update_self, hstays]
      rfl
    · have hfd : (e.channels d).fd ≠ (e.channels c).fd := by
        intro heq
        rw [← hchanged.fds d, ← hchanged.fds c] at heq
        exact hd (hreg.inj hu.registered heq)
      rw [Function.update_of_ne hfd]
      rw [hchanged.others d hd] at hevents
      exact h.interest d (((hchanged.registered d).mp hreg).resolve_left hd) hevents
  · intro fd event hevent
    rw [hset] at hevent
    by_cases hfd : fd = (e.channels c).fd
    · subst hfd
      rw [Function.update_self] at hevent
      split at hevent
      · cases hevent
      · obtain rfl := Option.some.inj hevent
        exact hchanged.events.symm
    · rw [Function.update_of_ne hfd] at hevent
      obtain ⟨-, hptr⟩ := h.owner hevent
      have hne : event.ptr ≠ c := by
        rintro rfl
        exact hfd hptr.symm
      rw [hchanged.others event.ptr hne]
      exact h.masks fd event hevent

/-- A change of interest goes through for a registered Channel, and for a new
one whose descriptor is free. -/
theorem change_spec (h : Tracks e) (interest : Interest)
    (hfree : e.channelMap.find (e.channels c).fd = none ∨ e.Registered c) :
    ∃ e', e.change c interest = .ok e' ∧ Tracks e' ∧
      Changed e e' c (interest.apply (e.channels c).events) := by
  have hmirror := h.mirror.setEvents c (interest.apply (e.channels c).events)
  rcases updateChannel_spec hmirror c with ⟨e', hok, hu⟩ | ⟨-, hnew, hmapped⟩
  · exact ⟨e', hok, updated_tracks h hu, updated_changed hu⟩
  · rw [setEvents_fd] at hmapped
    rcases hfree with hnone | hreg
    · exact absurd hnone hmapped
    · refine absurd ?_ hnew
      unfold Registered
      rw [setEvents_fd]
      exact hreg

/-- A removal goes through for a registered Channel without interest, and for
no other one. -/
theorem remove_spec (h : Tracks e) (hreg : e.Registered c)
    (hnone : (e.channels c).events = kNoneEvent) :
    ∃ e', e.removeChannel c = .ok e' ∧ Tracks e' ∧
      (∀ d, (e'.channels d).fd = (e.channels d).fd) ∧
      (∀ d, (e'.channels d).events = (e.channels d).events) ∧
      ∀ d, e'.Registered d ↔ d ≠ c ∧ e.Registered d := by
  obtain ⟨e', hok, hr⟩ := removeChannel_spec h.mirror hreg ((isNoneEvent_iff _).mpr hnone)
  have hfds := hr.touched.fds
  have hevents : ∀ d, (e'.channels d).events = (e.channels d).events := by
    intro d
    by_cases hd : d = c
    · subst hd
      exact hr.events
    · rw [hr.others d hd]
  refine ⟨e', hok, ⟨hr.mirror h.mirror, ?_, ?_⟩, hfds, hevents, fun d => hr.registered_iff⟩
  · intro d hd hsome
    obtain ⟨hne, hold⟩ := hr.registered_iff.mp hd
    have hfd : (e.channels d).fd ≠ (e.channels c).fd := fun heq => hne (hold.inj hreg heq)
    rw [hfds, hr.epollSet, Function.update_of_ne hfd]
    exact h.interest d hold (hevents d ▸ hsome)
  · intro fd event hevent
    rw [hr.epollSet] at hevent
    by_cases hfd : fd = (e.channels c).fd
    · subst hfd
      rw [Function.update_self] at hevent
      cases hevent
    · rw [Function.update_of_ne hfd] at hevent
      rw [hevents]
      exact h.masks fd event hevent

theorem initial_tracks (fds : ChannelId → ℕ) : Tracks (initial fds) := by
  refine ⟨(EPollerRuns.initial_inv fds).mirror, ?_, ?_⟩
  · intro c hreg
    simp [initial, Registered] at hreg
  · intro fd event hevent
    cases hevent

end TinyMuduo.EPoller

namespace TinyMuduo.Agreement

open Checked Channel Runs
open Poller (Input)

/-- The two pollers, each with its own Channel objects; `none` after a failed
assertion has ended the run of one of them. -/
structure Pair where
  poller : Option Poller
  epoller : Option EPoller

def execEPoller (e : EPoller) : Input → Except Fault EPoller
  | .change c interest => e.change c interest
  | .removeChannel c => e.removeChannel c

def exec (s : Pair) (i : Input) : Pair where
  poller := s.poller.bind fun p => (Poller.exec p i).toOption
  epoller := s.epoller.bind fun e => (execEPoller e i).toOption

/-- The Channels have distinct descriptors. -/
def system : System Pair Input Fault where
  start := fun s => ∃ fds : ChannelId → ℕ, Function.Injective fds ∧
    s = ⟨some (Poller.initial fds), some (EPoller.initial fds)⟩
  allowed := fun _ _ => True
  exec := fun s i => .ok (exec s i)

instance (s : Pair) (i : Input) : Decidable (system.allowed s i) := isTrue trivial

/-- An assertion has failed in both runs or in none, and if in none, the kernel
is asked to watch the same. -/
structure Agree (s : Pair) : Prop where
  failures : s.poller = none ↔ s.epoller = none
  watched : ∀ p e, s.poller = some p → s.epoller = some e → ∀ fd events, events ≠ kNoneEvent →
    ((fd, events) ∈ p.watched ↔ e.Watches fd events)

def negated (p : Poller) (c : ChannelId) : Bool :=
  (p.pollFdList[(p.channels c).index.toNat]?).any fun pfd =>
    decide (pfd.fd = Poller.ignored (p.channels c).fd)

/-- A Channel is not used again after its removal, interest is not given to one
whose entry is in the ignored form, and a Channel without interest is removed
only when its entry is in that form. -/
def SafeStep (p : Poller) : Input → Prop
  | .change c interest =>
      if p.Registered c then interest.enables = true → negated p c = false
      else (p.channels c).index < 0
  | .removeChannel c =>
      p.Registered c → (p.channels c).events = kNoneEvent → negated p c = true

instance (p : Poller) : (i : Input) → Decidable (SafeStep p i)
  | .change c interest => inferInstanceAs (Decidable (if p.Registered c then
      interest.enables = true → negated p c = false else (p.channels c).index < 0))
  | .removeChannel c => inferInstanceAs (Decidable (p.Registered c →
      (p.channels c).events = kNoneEvent → negated p c = true))

/-- A run whose Poller has ended has nothing more to respect. -/
def Safe (s : Pair) (i : Input) : Prop := ∀ p ∈ s.poller, SafeStep p i

instance (s : Pair) (i : Input) : Decidable (Safe s i) :=
  inferInstanceAs (Decidable (∀ p ∈ s.poller, SafeStep p i))

structure Coupled (p : Poller) (e : EPoller) : Prop where
  sane : Poller.Sane p
  tracks : EPoller.Tracks e
  distinct : ∀ c d, (p.channels c).fd = (p.channels d).fd → c = d
  fds : ∀ c, (e.channels c).fd = (p.channels c).fd
  events : ∀ c, (e.channels c).events = (p.channels c).events
  registered : ∀ c, e.Registered c ↔ p.Registered c
  encoded : ∀ c pfd, p.Entry c pfd → (p.channels c).events ≠ kNoneEvent → 0 ≤ pfd.fd

section Coupled

variable {p p' : Poller} {e e' : EPoller} {c : ChannelId}

theorem negated_iff {pfd : PollFd} (h : p.Entry c pfd) :
    negated p c = true ↔ pfd.fd = Poller.ignored (p.channels c).fd := by
  obtain ⟨-, i, hi, hget⟩ := h
  simp [negated, hi, hget]

/-- A Channel whose descriptor is in a map is registered there. -/
theorem Coupled.free (h : Coupled p e) (hnew : ¬ p.Registered c) :
    p.channelMap.find (p.channels c).fd = none ∧ e.channelMap.find (e.channels c).fd = none := by
  constructor
  · by_contra hfound
    obtain ⟨d, hd⟩ := Option.ne_none_iff_exists'.mp hfound
    have hkey := h.sane.table.keyed _ d hd
    obtain rfl := h.distinct c d (by exact_mod_cast hkey)
    exact hnew hd
  · by_contra hfound
    obtain ⟨d, hd⟩ := Option.ne_none_iff_exists'.mp hfound
    have hkey := h.tracks.mirror.keyed _ d hd
    rw [h.fds, h.fds] at hkey
    obtain rfl := h.distinct c d (by exact_mod_cast hkey)
    exact hnew ((h.registered c).mp hd)

/-- What a Poller watches when every Channel with interest has an entry that
poll(2) reads. -/
theorem Coupled.agree (h : Coupled p e) : Agree ⟨some p, some e⟩ := by
  refine ⟨by simp, ?_⟩
  rintro _ _ ⟨⟩ ⟨⟩ fd events hevents
  rw [Poller.mem_watched h.sane, h.tracks.watches_iff hevents]
  constructor
  · rintro ⟨c, pfd, hentry, -, hfd, hmask⟩
    exact ⟨c, (h.registered c).mpr hentry.1, by rw [h.fds, hfd], by rw [h.events, hmask]⟩
  · rintro ⟨c, hreg, hfd, hmask⟩
    rw [h.events] at hmask
    obtain ⟨pfd, hentry, -⟩ := h.sane.table.slot c ((h.registered c).mp hreg)
    exact ⟨c, pfd, hentry, h.encoded c pfd hentry (hmask ▸ hevents), by rw [hfd, h.fds], hmask⟩

def Inv (s : Pair) : Prop :=
  s = ⟨none, none⟩ ∨ ∃ p e, s = ⟨some p, some e⟩ ∧ Coupled p e

theorem Inv.agree {s : Pair} (h : Inv s) : Agree s := by
  rcases h with rfl | ⟨p, e, rfl, h⟩
  · refine ⟨by simp, ?_⟩
    rintro _ _ ⟨⟩
  · exact h.agree

structure BothChanged (p p' : Poller) (e e' : EPoller) (c : ChannelId) (mask : EventMask) :
    Prop where
  sane : Poller.Sane p'
  tracks : EPoller.Tracks e'
  poller : Poller.Changed p p' c mask
  epoller : EPoller.Changed e e' c mask

theorem Coupled.change (h : Coupled p e) (interest : Interest)
    (hready : p.Registered c ∨ (¬ p.Registered c ∧ (p.channels c).index < 0)) :
    ∃ p' e', p.change c interest = .ok p' ∧ e.change c interest = .ok e' ∧
      BothChanged p p' e e' c (interest.apply (p.channels c).events) := by
  obtain ⟨p', hp⟩ : ∃ p', p.change c interest = .ok p' := by
    rcases hready with hreg | ⟨hnew, hindex⟩
    · exact Poller.change_registered h.sane.table hreg interest
    · refine Poller.updateChannel_ok (h.sane.table.setEvents c _) (Or.inl ?_)
      rw [Poller.setEvents_index, Poller.setEvents_channelMap, Poller.setEvents_fd]
      exact ⟨hindex, (h.free hnew).1⟩
  have hfree : e.channelMap.find (e.channels c).fd = none ∨ e.Registered c := by
    rcases hready with hreg | ⟨hnew, -⟩
    · exact Or.inr ((h.registered c).mpr hreg)
    · exact Or.inl (h.free hnew).2
  obtain ⟨e', he, htracks, hchanged⟩ := EPoller.change_spec h.tracks interest hfree
  rw [h.events] at hchanged
  exact ⟨p', e', hp, he, Poller.change_sane h.sane hp, htracks,
    Poller.change_changed h.sane.table hp, hchanged⟩

/-- They stay coupled when a Channel that has interest now is read by poll(2). -/
theorem BothChanged.coupled {mask : EventMask} (h : Coupled p e)
    (hb : BothChanged p p' e e' c mask)
    (hown : ∀ pfd, p'.Entry c pfd → mask ≠ kNoneEvent → 0 ≤ pfd.fd) : Coupled p' e' where
  sane := hb.sane
  tracks := hb.tracks
  distinct a b hfd := h.distinct a b (by rwa [hb.poller.fds, hb.poller.fds] at hfd)
  fds d := by rw [hb.epoller.fds, hb.poller.fds, h.fds]
  events d := by
    by_cases hd : d = c
    · subst hd
      rw [hb.epoller.events, hb.poller.events]
    · rw [hb.epoller.others d hd, hb.poller.others d hd, h.events]
  registered d := by rw [hb.epoller.registered, hb.poller.registered, h.registered]
  encoded d pfd hentry hsome := by
    by_cases hd : d = c
    · subst hd
      rw [hb.poller.events] at hsome
      exact hown pfd hentry hsome
    · rw [hb.poller.others d hd] at hsome
      exact h.encoded d pfd ((hb.poller.entries d pfd hd).mp hentry) hsome

/-- An entry in the ignored form stays there, and the EPoller watches what the
Poller does not. -/
theorem BothChanged.parted {mask : EventMask} (h : Coupled p e)
    (hb : BothChanged p p' e e' c mask) (hmask : mask ≠ kNoneEvent)
    (hown : ∀ pfd, p'.Entry c pfd → pfd.fd < 0) : ¬ Agree ⟨some p', some e'⟩ := by
  intro hagree
  have hwatches : e'.Watches (e'.channels c).fd mask :=
    (hb.tracks.watches_iff hmask).mpr
      ⟨c, (hb.epoller.registered c).mpr (Or.inl rfl), rfl, hb.epoller.events.symm⟩
  have hmem := (hagree.watched p' e' rfl rfl _ _ hmask).mpr hwatches
  obtain ⟨d, pfd, hentry, hpos, hfd, -⟩ := (Poller.mem_watched hb.sane).mp hmem
  rw [hb.epoller.fds, h.fds, hb.poller.fds] at hfd
  obtain rfl := h.distinct c d (by exact_mod_cast hfd)
  have hneg := hown pfd hentry
  omega

/-- A registered Channel: both take the operation, and only the form of its
entry decides. -/
theorem change_registered (h : Coupled p e) (hreg : p.Registered c) (interest : Interest) :
    ∃ p' e', p.change c interest = .ok p' ∧ e.change c interest = .ok e' ∧
      ((interest.enables = true → negated p c = false) → Coupled p' e') ∧
      (interest.enables = true → negated p c = true → ¬ Agree ⟨some p', some e'⟩) := by
  obtain ⟨p', e', hp, he, hb⟩ := h.change interest (Or.inl hreg)
  obtain ⟨own, hown, -, hcases⟩ := hb.poller.own
  obtain ⟨old, hold, hfd⟩ := hcases.resolve_left fun hnew => hnew.2.1 hreg
  have hname := h.sane.table.names hold
  refine ⟨p', e', hp, he, fun hsafe => ?_, fun hen hneg => ?_⟩
  · refine hb.coupled h fun pfd hentry hsome => ?_
    rw [hentry.unique hown, hfd, if_neg hsome]
    by_cases hevents : (p.channels c).events = kNoneEvent
    · have hen : interest.enables = true := by
        by_contra hdis
        rw [hevents] at hsome
        exact hsome (Interest.apply_none (by simpa using hdis))
      have hplain : old.fd ≠ Poller.ignored (p.channels c).fd := by
        rw [ne_eq, ← negated_iff hold, hsafe hen]
        exact Bool.false_ne_true
      rw [hname.resolve_right hplain]
      omega
    · exact h.encoded c old hold hevents
  · have hsome := Interest.apply_ne_none hen (p.channels c).events
    refine hb.parted h hsome fun pfd hentry => ?_
    rw [hentry.unique hown, hfd, if_neg hsome, (negated_iff hold).mp hneg]
    unfold Poller.ignored
    omega

/-- A Channel that is not registered: a first registration keeps the pollers
coupled. -/
theorem change_fresh (h : Coupled p e) (hnew : ¬ p.Registered c)
    (hindex : (p.channels c).index < 0) (interest : Interest) :
    ∃ p' e', p.change c interest = .ok p' ∧ e.change c interest = .ok e' ∧ Coupled p' e' := by
  obtain ⟨p', e', hp, he, hb⟩ := h.change interest (Or.inr ⟨hnew, hindex⟩)
  obtain ⟨own, hown, -, hcases⟩ := hb.poller.own
  refine ⟨p', e', hp, he, hb.coupled h fun pfd hentry _ => ?_⟩
  rcases hcases with ⟨-, -, hfd⟩ | ⟨old, hold, -⟩
  · rw [hentry.unique hown, hfd]
    omega
  · exact absurd hold.1 hnew

/-- A Channel that was removed: the stale index makes the Poller fail, and the
EPoller registers it again. -/
theorem change_stale (h : Coupled p e) (hnew : ¬ p.Registered c)
    (hindex : ¬ (p.channels c).index < 0) (interest : Interest) :
    (∃ f, p.change c interest = .error f) ∧ ∃ e', e.change c interest = .ok e' := by
  refine ⟨?_, ?_⟩
  · cases hp : p.change c interest with
    | error f => exact ⟨f, rfl⟩
    | ok p' =>
      rcases Poller.updateChannel_cases hp with ⟨hneg, -⟩ | ⟨_, _, -, hreg, -⟩
      · rw [Poller.setEvents_index] at hneg
        exact absurd hneg hindex
      · exact absurd (Poller.registered_setEvents.mp hreg) hnew
  · obtain ⟨e', he, -⟩ := EPoller.change_spec h.tracks interest (Or.inl (h.free hnew).2)
    exact ⟨e', he⟩

theorem remove_negated (h : Coupled p e) (hreg : p.Registered c)
    (hnone : (p.channels c).events = kNoneEvent) (hneg : negated p c = true) :
    ∃ p' e', p.removeChannel c = .ok p' ∧ e.removeChannel c = .ok e' ∧ Coupled p' e' := by
  obtain ⟨pfd, hentry, -⟩ := h.sane.table.slot c hreg
  obtain ⟨p', hp⟩ := Poller.removeChannel_ok h.sane.table hentry hnone
    ((negated_iff hentry).mp hneg) (h.sane.masks c pfd hentry)
  have hrm := Poller.removeChannel_removed h.sane.table hp
  obtain ⟨e', he, htracks, hfds, hevents, hregistered⟩ := EPoller.remove_spec h.tracks
    ((h.registered c).mpr hreg) ((h.events c).trans hnone)
  refine ⟨p', e', hp, he, ⟨Poller.removeChannel_sane h.sane hp, htracks, ?_, ?_, ?_, ?_, ?_⟩⟩
  · intro a b hfd
    rw [hrm.fds, hrm.fds] at hfd
    exact h.distinct a b hfd
  · intro d
    rw [hfds, hrm.fds, h.fds]
  · intro d
    rw [hevents, hrm.events, h.events]
  · intro d
    rw [hregistered, hrm.registered, h.registered]
  · intro d old hold hsome
    rw [hrm.events] at hsome
    exact h.encoded d old ((hrm.entries d old).mp hold).2 hsome

/-- A Channel that was registered without interest: its entry was never moved
to the ignored form, and only the Poller minds. -/
theorem remove_plain (h : Coupled p e) (hreg : p.Registered c)
    (hnone : (p.channels c).events = kNoneEvent) (hneg : negated p c = false) :
    (∃ f, p.removeChannel c = .error f) ∧ ∃ e', e.removeChannel c = .ok e' := by
  refine ⟨?_, ?_⟩
  · cases hp : p.removeChannel c with
    | error f => exact ⟨f, rfl⟩
    | ok p' =>
      obtain ⟨i, pfd, hi, -, -, hget, hfd, -⟩ := Poller.removeChannel_cases hp
      rw [(negated_iff ⟨hreg, i, hi, hget⟩).mpr hfd] at hneg
      cases hneg
  · obtain ⟨e', he, -⟩ := EPoller.remove_spec h.tracks ((h.registered c).mpr hreg)
      ((h.events c).trans hnone)
    exact ⟨e', he⟩

theorem remove_refused (h : Coupled p e)
    (hno : ¬ (p.Registered c ∧ (p.channels c).events = kNoneEvent)) :
    (∃ f, p.removeChannel c = .error f) ∧ ∃ f, e.removeChannel c = .error f := by
  refine ⟨?_, ?_⟩
  · cases hp : p.removeChannel c with
    | error f => exact ⟨f, rfl⟩
    | ok p' =>
      obtain ⟨_, _, -, hreg, hnone, -⟩ := Poller.removeChannel_cases hp
      exact absurd ⟨hreg, hnone⟩ hno
  · cases he : e.removeChannel c with
    | error f => exact ⟨f, rfl⟩
    | ok e' =>
      obtain ⟨hremoved, hnone⟩ := EPoller.removeChannel_ok h.tracks.mirror he
      refine absurd ⟨(h.registered c).mp hremoved.registered, ?_⟩ hno
      rw [← h.events]
      exact (isNoneEvent_iff _).mp hnone

end Coupled

/-! Runs. -/

section Runs

variable {s : Pair} {p p' : Poller} {e e' : EPoller} {i : Input}

theorem exec_ok (hp : Poller.exec p i = .ok p') (he : execEPoller e i = .ok e') :
    exec ⟨some p, some e⟩ i = ⟨some p', some e'⟩ := by
  simp [exec, hp, he, Except.toOption]

/-- One run ends where the other one goes on. -/
theorem exec_parted {f : Fault} (hp : Poller.exec p i = .error f)
    (he : execEPoller e i = .ok e') : ¬ Agree (exec ⟨some p, some e⟩ i) := by
  intro hagree
  have hfailed := hagree.failures.mp (by simp [exec, hp, Except.toOption])
  simp [exec, he, Except.toOption] at hfailed

theorem exec_ended {f f' : Fault} (hp : Poller.exec p i = .error f)
    (he : execEPoller e i = .error f') : exec ⟨some p, some e⟩ i = ⟨none, none⟩ := by
  simp [exec, hp, he, Except.toOption]

/-- One operation keeps the pollers in agreement exactly when it is safe. -/
theorem Coupled.step (h : Coupled p e) (i : Input) :
    (SafeStep p i → Inv (exec ⟨some p, some e⟩ i)) ∧
      (¬ SafeStep p i → ¬ Agree (exec ⟨some p, some e⟩ i)) := by
  cases i with
  | change c interest =>
    by_cases hreg : p.Registered c
    · obtain ⟨p', e', hp, he, hsafe, hparted⟩ := change_registered h hreg interest
      rw [SafeStep, if_pos hreg, exec_ok (i := .change c interest) hp he]
      refine ⟨fun hstep => Or.inr ⟨p', e', rfl, hsafe hstep⟩, fun hstep => ?_⟩
      simp only [Classical.not_imp, Bool.not_eq_false] at hstep
      exact hparted hstep.1 hstep.2
    · rw [SafeStep, if_neg hreg]
      refine ⟨fun hindex => ?_, fun hindex => ?_⟩
      · obtain ⟨p', e', hp, he, hnext⟩ := change_fresh h hreg hindex interest
        exact Or.inr ⟨p', e', exec_ok hp he, hnext⟩
      · obtain ⟨⟨f, hp⟩, e', he⟩ := change_stale h hreg hindex interest
        exact exec_parted hp he
  | removeChannel c =>
    by_cases hno : p.Registered c ∧ (p.channels c).events = kNoneEvent
    · obtain ⟨hreg, hnone⟩ := hno
      refine ⟨fun hstep => ?_, fun hstep => ?_⟩
      · obtain ⟨p', e', hp, he, hnext⟩ := remove_negated h hreg hnone (hstep hreg hnone)
        exact Or.inr ⟨p', e', exec_ok hp he, hnext⟩
      · have hneg : negated p c = false := by
          by_contra hneg
          exact hstep fun _ _ => by simpa using hneg
        obtain ⟨⟨f, hp⟩, e', he⟩ := remove_plain h hreg hnone hneg
        exact exec_parted hp he
    · refine ⟨fun _ => ?_, fun hstep => ?_⟩
      · obtain ⟨⟨f, hp⟩, f', he⟩ := remove_refused h hno
        exact Or.inl (exec_ended hp he)
      · exact absurd (fun hreg hnone => absurd ⟨hreg, hnone⟩ hno) hstep

theorem step_inv (h : Inv s) (hsafe : Safe s i) : Inv (exec s i) := by
  rcases h with rfl | ⟨p, e, rfl, h⟩
  · exact Or.inl rfl
  · exact (h.step i).1 (hsafe p rfl)

theorem step_agree_iff (h : Inv s) : Agree (exec s i) ↔ Safe s i := by
  constructor
  · intro hagree p hp
    rcases h with rfl | ⟨q, e, rfl, h⟩
    · cases hp
    · obtain rfl := Option.some.inj hp
      by_contra hstep
      exact (h.step i).2 hstep hagree
  · intro hsafe
    exact (step_inv h hsafe).agree

theorem initial_coupled {fds : ChannelId → ℕ} (hfds : Function.Injective fds) :
    Coupled (Poller.initial fds) (EPoller.initial fds) where
  sane := Poller.initial_sane fds
  tracks := EPoller.initial_tracks fds
  distinct _ _ hfd := hfds hfd
  fds _ := rfl
  events _ := rfl
  registered c := by simp [EPoller.initial, EPoller.Registered, Poller.initial, Poller.Registered]
  encoded c pfd hentry := by
    have hreg := hentry.1
    simp [Poller.initial, Poller.Registered] at hreg

theorem start_inv (h : system.start s) : Inv s := by
  obtain ⟨fds, hfds, rfl⟩ := h
  exact Or.inr ⟨_, _, rfl, initial_coupled hfds⟩

theorem reach_inv (h : Reach system Safe s) : Inv s := by
  refine h.invariant (fun s hs => start_inv hs) ?_
  intro s i s' hinv _ hsafe hexec
  obtain rfl := Except.ok.inj hexec
  exact step_inv hinv hsafe

/-- In every run the two pollers agree in all states exactly when every
operation is safe. -/
theorem pollers_agree_iff {past : List (Pair × Input)} (h : Run system past s) :
    ((∀ x ∈ past, Agree x.1) ∧ Agree s) ↔ ∀ x ∈ past, Safe x.1 x.2 := by
  refine h.law_iff (fun s hs => (start_inv hs).agree) ?_
  intro s i s' hreach _ _ hexec
  obtain rfl := Except.ok.inj hexec
  exact step_agree_iff (reach_inv hreach)

/-- Two Channels change their interest, are disabled and removed, and the last
operation is an assertion that both pollers make. -/
def removeBoth : List Input :=
  [.change 0 .enableReading, .change 1 .enableWriting, .change 0 .enableWriting,
    .change 0 .disableAll, .removeChannel 0, .change 1 .disableWriting, .removeChannel 1,
    .change 2 .enableReading, .removeChannel 2]

theorem removeBoth_agree : ∃ past s, Run system past s ∧ past.map Prod.snd = removeBoth ∧
    s.poller.isNone = true ∧ (∀ x ∈ past, Agree x.1) ∧ Agree s := by
  obtain ⟨past, s, hrun, hinputs, hsafe, htest⟩ := exists_run_of_replay (M := system) Safe
    ⟨fun c => c + 7, fun a b hab => by simpa using hab, rfl⟩ removeBoth
    (fun s => s.poller.isNone) (by decide +kernel)
  exact ⟨past, s, hrun, hinputs, htest, (pollers_agree_iff hrun).mpr hsafe⟩

def registerAgain : List Input :=
  [.change 0 .enableReading, .change 0 .disableAll, .removeChannel 0, .change 0 .enableReading]

theorem registerAgain_parts : ∃ s, Reachable system s ∧ s.poller.isNone = true ∧
    s.epoller.isSome = true ∧ ¬ Agree s := by
  obtain ⟨s, hs, htest⟩ := exists_of_replay (M := system) Free
    ⟨fun c => c + 7, fun a b hab => by simpa using hab, rfl⟩ registerAgain
    (fun s => s.poller.isNone && s.epoller.isSome) (by decide +kernel)
  simp only [Bool.and_eq_true] at htest
  refine ⟨s, hs, htest.1, htest.2, fun hagree => ?_⟩
  have hnone := hagree.failures.mp (Option.isNone_iff_eq_none.mp htest.1)
  rw [hnone] at htest
  exact Bool.false_ne_true htest.2

end Runs

end TinyMuduo.Agreement
