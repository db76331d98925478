import TinyMuduo.Poller

/-!
The Poller's table. The descriptor map, the vector of entries and the indices
stored in the Channels describe one partial function from Channels to entries.
`Entry` is that function, `Table` says that the three representations agree on
it, and every successful operation is described by what it does to `Entry`:
an update touches the entry of its Channel only, a removal takes out exactly
that entry although it moves another one inside the vector.
-/
namespace TinyMuduo.Poller

open Checked Channel

def Entry (p : Poller) (c : ChannelId) (pfd : PollFd) : Prop :=
  p.Registered c ∧ ∃ i : ℕ, (p.channels c).index = i ∧ p.pollFdList[i]? = some pfd

/-- The entry names the descriptor, as it is or in the ignored form. -/
def Names (pfd : PollFd) (fd : ℤ) : Prop := pfd.fd = fd ∨ pfd.fd = ignored fd

structure Table (p : Poller) : Prop where
  keyed : ∀ fd c, p.channelMap.find fd = some c → fd = (p.channels c).fd
  slot : ∀ c, p.Registered c → ∃ pfd, p.Entry c pfd ∧ Names pfd (p.channels c).fd
  owner : ∀ (i : ℕ) pfd, p.pollFdList[i]? = some pfd →
    ∃ c, p.Registered c ∧ (p.channels c).index = i

variable {p p' : Poller} {c d : ChannelId} {pfd pfd' : PollFd}

theorem Names.unique {a b : ℕ} (ha : Names pfd a) (hb : Names pfd b) : a = b := by
  unfold Names ignored at ha hb
  omega

/-- The descriptor is recovered from either form. -/
theorem Names.key {fd : ℕ} (h : Names pfd fd) :
    (if pfd.fd < 0 then ignored pfd.fd else pfd.fd) = fd := by
  unfold Names ignored at h
  unfold ignored
  split <;> omega

theorem Entry.unique (h : p.Entry c pfd) (h' : p.Entry c pfd') : pfd = pfd' := by
  obtain ⟨-, i, hi, hget⟩ := h
  obtain ⟨-, j, hj, hget'⟩ := h'
  have hij : i = j := by omega
  subst hij
  exact Option.some.inj (hget.symm.trans hget')

theorem Registered.inj (hc : p.Registered c) (hd : p.Registered d)
    (hfd : (p.channels c).fd = (p.channels d).fd) : c = d := by
  unfold Registered at hc hd
  rw [hfd, hd] at hc
  exact (Option.some.inj hc).symm

namespace Table

/-- Two registered Channels never share an index. -/
theorem apart (h : Table p) (hc : p.Registered c) (hd : p.Registered d)
    (hindex : (p.channels c).index = (p.channels d).index) : c = d := by
  obtain ⟨pc, ⟨-, i, hi, hgeti⟩, hnamec⟩ := h.slot c hc
  obtain ⟨pd, ⟨-, j, hj, hgetj⟩, hnamed⟩ := h.slot d hd
  have hij : i = j := by omega
  subst hij
  obtain rfl : pc = pd := Option.some.inj (hgeti.symm.trans hgetj)
  exact hc.inj hd (hnamec.unique hnamed)

theorem names (h : Table p) (hentry : p.Entry c pfd) : Names pfd (p.channels c).fd := by
  obtain ⟨pfd', hentry', hname⟩ := h.slot c hentry.1
  rw [hentry.unique hentry']
  exact hname

/-- The entries of the vector are the entries of the registered Channels. -/
theorem mem_iff (h : Table p) : pfd ∈ p.pollFdList ↔ ∃ c, p.Entry c pfd := by
  constructor
  · intro hmem
    obtain ⟨i, hget⟩ := List.getElem?_of_mem hmem
    obtain ⟨c, hc, hindex⟩ := h.owner i pfd hget
    exact ⟨c, hc, i, hindex, hget⟩
  · rintro ⟨c, -, i, -, hget⟩
    exact List.mem_of_getElem? hget

/-- The table reads the descriptors and the indices of the Channels only. -/
theorem same (h : Table p) (hfd : ∀ d, (p'.channels d).fd = (p.channels d).fd)
    (hindex : ∀ d, (p'.channels d).index = (p.channels d).index)
    (hlist : p'.pollFdList = p.pollFdList) (hmap : p'.channelMap = p.channelMap) : Table p' := by
  have hreg : ∀ d, p'.Registered d ↔ p.Registered d := by
    intro d
    unfold Registered
    rw [hfd, hmap]
  refine ⟨?_, ?_, ?_⟩
  · intro fd d hd
    rw [hfd]
    rw [hmap] at hd
    exact h.keyed fd d hd
  · intro d hd
    obtain ⟨pfd, ⟨-, i, hi, hget⟩, hname⟩ := h.slot d ((hreg d).mp hd)
    refine ⟨pfd, ⟨hd, i, ?_, ?_⟩, ?_⟩
    · rw [hindex]
      exact hi
    · rw [hlist]
      exact hget
    · rw [hfd]
      exact hname
  · intro i pfd hget
    rw [hlist] at hget
    obtain ⟨d, hd, hi⟩ := h.owner i pfd hget
    refine ⟨d, (hreg d).mpr hd, ?_⟩
    rw [hindex]
    exact hi

theorem setEvents (h : Table p) (c : ChannelId) (events : EventMask) :
    Table (p.setEvents c events) :=
  h.same (fun d => setEvents_fd p c d events) (fun d => setEvents_index p c d events) rfl rfl

end Table

theorem setRevents_fd (c d : ChannelId) (revents : EventMask) :
    ((p.setRevents c revents).channels d).fd = (p.channels d).fd := by
  by_cases hd : d = c <;> simp [setRevents, hd]

theorem setRevents_index (c d : ChannelId) (revents : EventMask) :
    ((p.setRevents c revents).channels d).index = (p.channels d).index := by
  by_cases hd : d = c <;> simp [setRevents, hd]

theorem registered_setRevents {revents : EventMask} :
    (p.setRevents c revents).Registered d ↔ p.Registered d := by
  unfold Registered
  rw [setRevents_fd]
  rfl

theorem Table.setRevents (h : Table p) (c : ChannelId) (revents : EventMask) :
    Table (p.setRevents c revents) :=
  h.same (fun d => setRevents_fd c d revents) (fun d => setRevents_index c d revents) rfl rfl

theorem entry_setEvents {events : EventMask} :
    (p.setEvents c events).Entry d pfd ↔ p.Entry d pfd := by
  unfold Entry
  rw [registered_setEvents, setEvents_index, setEvents_pollFdList]

def initial (fds : ChannelId → ℕ) : Poller :=
  ⟨fun c => construct (fds c), [], .empty⟩

theorem initial_table (fds : ChannelId → ℕ) : Table (initial fds) := by
  refine ⟨?_, ?_, ?_⟩
  · intro fd c h
    simp [initial] at h
  · intro c h
    simp [initial, Registered] at h
  · intro i pfd h
    simp [initial] at h

structure Updated (p p' : Poller) (c : ChannelId) : Prop where
  table : Table p'
  fds : ∀ d, (p'.channels d).fd = (p.channels d).fd
  events : ∀ d, (p'.channels d).events = (p.channels d).events
  revents : ∀ d, (p'.channels d).revents = (p.channels d).revents
  others : ∀ d, d ≠ c → p'.channels d = p.channels d
  registered : ∀ d, p'.Registered d ↔ d = c ∨ p.Registered d
  entries : ∀ d pfd, d ≠ c → (p'.Entry d pfd ↔ p.Entry d pfd)
  own : ∃ pfd, p'.Entry c pfd ∧ pfd.events = (p.channels c).events.setWidth 16 ∧
    (((p.channels c).index < 0 ∧ ¬ p.Registered c ∧ pfd.fd = (p.channels c).fd) ∨
      ∃ old, p.Entry c old ∧ pfd.fd =
        if (p.channels c).isNoneEvent then ignored (p.channels c).fd else old.fd)

def appended (p : Poller) (c : ChannelId) (entry : PollFd) : Poller :=
  (Poller.mk p.channels (p.pollFdList ++ [entry])
    (p.channelMap.insert (p.channels c).fd c)).setIndex c p.pollFdList.length

theorem appended_registered (hnone : p.channelMap.find (p.channels c).fd = none) {entry : PollFd} :
    (p.appended c entry).Registered d ↔ d = c ∨ p.Registered d := by
  unfold Registered appended
  rw [setIndex_fd, setIndex_channelMap]
  by_cases hd : (p.channels d).fd = (p.channels c).fd
  · rw [hd, ChannelMap.find_insert, hnone]
    simp [eq_comm]
  · have hne : d ≠ c := fun heq => hd (by rw [heq])
    rw [ChannelMap.find_insert_other _ _ (by exact_mod_cast hd)]
    simp [hne]

theorem appended_own (hnone : p.channelMap.find (p.channels c).fd = none) (entry : PollFd) :
    (p.appended c entry).Entry c entry := by
  refine ⟨(appended_registered hnone).mpr (Or.inl rfl), p.pollFdList.length, ?_, ?_⟩
  · exact setIndex_index ..
  · simp [appended]

/-- The other entries stay where they are. -/
theorem appended_entries (h : Table p) (hnone : p.channelMap.find (p.channels c).fd = none)
    {entry : PollFd} (hne : d ≠ c) : (p.appended c entry).Entry d pfd ↔ p.Entry d pfd := by
  unfold Entry
  rw [appended_registered hnone, appended, setIndex_other hne, setIndex_pollFdList]
  constructor
  · rintro ⟨hd, i, hi, hget⟩
    have hd : p.Registered d := hd.resolve_left hne
    obtain ⟨old, ⟨-, j, hj, hgetj⟩, -⟩ := h.slot d hd
    have hij : i = j := by
      have : ((p.channels d).index : ℤ) = i := hi
      omega
    subst hij
    have hlt : i < p.pollFdList.length := (List.getElem?_eq_some_iff.mp hgetj).1
    refine ⟨hd, i, hj, ?_⟩
    rwa [List.getElem?_append_left hlt] at hget
  · rintro ⟨hd, i, hi, hget⟩
    have hlt : i < p.pollFdList.length := (List.getElem?_eq_some_iff.mp hget).1
    refine ⟨Or.inr hd, i, hi, ?_⟩
    rw [List.getElem?_append_left hlt]
    exact hget

theorem appended_table (h : Table p) (hnone : p.channelMap.find (p.channels c).fd = none)
    {entry : PollFd} (hfd : entry.fd = (p.channels c).fd) : Table (p.appended c entry) := by
  have hreg : ∀ d, (p.appended c entry).Registered d ↔ d = c ∨ p.Registered d :=
    fun d => appended_registered hnone
  refine ⟨?_, ?_, ?_⟩
  · intro fd d hd
    rw [appended, setIndex_channelMap, ChannelMap.find_insert_eq] at hd
    rw [appended, setIndex_fd]
    split at hd
    · rename_i hkey
      rw [hkey, Option.some.inj hd]
    · exact h.keyed fd d hd
  · intro d hd
    rw [appended, setIndex_fd]
    by_cases hne : d = c
    · subst hne
      exact ⟨entry, appended_own hnone entry, Or.inl hfd⟩
    · obtain ⟨pfd, hentry, hname⟩ := h.slot d (((hreg d).mp hd).resolve_left hne)
      exact ⟨pfd, (appended_entries h hnone hne).mpr hentry, hname⟩
  · intro i pfd hget
    rw [appended, setIndex_pollFdList] at hget
    by_cases hi : i < p.pollFdList.length
    · rw [List.getElem?_append_left hi] at hget
      obtain ⟨d, hd, hindex⟩ := h.owner i pfd hget
      have hne : d ≠ c := by
        rintro rfl
        exact absurd (hnone.symm.trans hd) (by simp)
      refine ⟨d, (hreg d).mpr (Or.inr hd), ?_⟩
      rw [appended, setIndex_other hne]
      exact hindex
    · have hlen := (List.getElem?_eq_some_iff.mp hget).1
      have hi : i = p.pollFdList.length := by
        simp only [List.length_append, List.length_singleton] at hlen
        omega
      refine ⟨c, (hreg c).mpr (Or.inl rfl), ?_⟩
      rw [appended, setIndex_index, hi]

/-- A first update appends an entry. -/
theorem updated_new (h : Table p) (hneg : (p.channels c).index < 0)
    (hnone : p.channelMap.find (p.channels c).fd = none) (entry : PollFd)
    (hfd : entry.fd = (p.channels c).fd)
    (hevents : entry.events = (p.channels c).events.setWidth 16) :
    Updated p (p.appended c entry) c where
  table := appended_table h hnone hfd
  fds d := setIndex_fd ..
  events d := setIndex_events ..
  revents d := setIndex_revents ..
  others d hd := setIndex_other hd
  registered d := appended_registered hnone
  entries d pfd hd := appended_entries h hnone hd
  own := by
    refine ⟨entry, appended_own hnone entry, hevents, Or.inl ⟨hneg, ?_, hfd⟩⟩
    intro hc
    simp [Registered, hnone] at hc

/-- A later update rewrites the entry in place. -/
theorem updated_old (h : Table p) {i : ℕ} (hi : (p.channels c).index = i)
    (hc : p.Registered c) (hget : p.pollFdList[i]? = some pfd) (entry : PollFd)
    (hfd : entry.fd = if (p.channels c).isNoneEvent then ignored (p.channels c).fd else pfd.fd)
    (hevents : entry.events = (p.channels c).events.setWidth 16) :
    Updated p ⟨p.channels, p.pollFdList.set i entry, p.channelMap⟩ c := by
  have hlt : i < p.pollFdList.length := (List.getElem?_eq_some_iff.mp hget).1
  have hentry : p.Entry c pfd := ⟨hc, i, hi, hget⟩
  have hself : (p.pollFdList.set i entry)[i]? = some entry := by
    rw [List.getElem?_set_self hlt]
  have hentries : ∀ d pfd, d ≠ c →
      ((Poller.mk p.channels (p.pollFdList.set i entry) p.channelMap).Entry d pfd ↔
        p.Entry d pfd) := by
    intro d pfd hne
    have hslot : ∀ j : ℕ, p.Registered d → (p.channels d).index = j →
        (p.pollFdList.set i entry)[j]? = p.pollFdList[j]? := by
      intro j hd hj
      refine List.getElem?_set_ne ?_
      intro hij
      exact hne (h.apart hd hc (by omega))
    constructor
    · rintro ⟨hd, j, hj, hgetj⟩
      exact ⟨hd, j, hj, (hslot j hd hj).symm.trans hgetj⟩
    · rintro ⟨hd, j, hj, hgetj⟩
      exact ⟨hd, j, hj, (hslot j hd hj).trans hgetj⟩
  have hown : (Poller.mk p.channels (p.pollFdList.set i entry) p.channelMap).Entry c entry :=
    ⟨hc, i, hi, hself⟩
  have hname : Names entry (p.channels c).fd := by
    unfold Names
    rw [hfd]
    split
    · exact Or.inr rfl
    · exact h.names hentry
  refine ⟨⟨h.keyed, ?_, ?_⟩, fun _ => rfl, fun _ => rfl, fun _ => rfl, fun _ _ => rfl, ?_, hentries,
    entry, hown, hevents, Or.inr ⟨pfd, hentry, hfd⟩⟩
  · intro d hd
    by_cases hne : d = c
    · subst hne
      exact ⟨entry, hown, hname⟩
    · obtain ⟨old, hold, hnamed⟩ := h.slot d hd
      exact ⟨old, (hentries d old hne).mpr hold, hnamed⟩
  · intro j old hgetj
    by_cases hij : i = j
    · exact ⟨c, hc, by rw [← hij]; exact hi⟩
    · rw [List.getElem?_set_ne hij] at hgetj
      exact h.owner j old hgetj
  · intro d
    constructor
    · exact Or.inr
    · rintro (rfl | hd)
      · exact hc
      · exact hd

theorem updateChannel_updated (h : Table p) (hexec : p.updateChannel c = .ok p') :
    Updated p p' c := by
  rcases updateChannel_cases hexec with ⟨hneg, hnone, rfl⟩ | ⟨i, pfd, hi, hc, hget, -, rfl⟩
  · exact updated_new h hneg hnone _ rfl rfl
  · exact updated_old h hi hc hget _ rfl rfl

structure Changed (p p' : Poller) (c : ChannelId) (mask : EventMask) : Prop where
  table : Table p'
  fds : ∀ d, (p'.channels d).fd = (p.channels d).fd
  events : (p'.channels c).events = mask
  revents : ∀ d, (p'.channels d).revents = (p.channels d).revents
  others : ∀ d, d ≠ c → p'.channels d = p.channels d
  registered : ∀ d, p'.Registered d ↔ d = c ∨ p.Registered d
  entries : ∀ d pfd, d ≠ c → (p'.Entry d pfd ↔ p.Entry d pfd)
  own : ∃ pfd, p'.Entry c pfd ∧ pfd.events = mask.setWidth 16 ∧
    (((p.channels c).index < 0 ∧ ¬ p.Registered c ∧ pfd.fd = (p.channels c).fd) ∨
      ∃ old, p.Entry c old ∧
        pfd.fd = if mask = kNoneEvent then ignored (p.channels c).fd else old.fd)

/-- Setting any mask and updating changes the one Channel. -/
theorem setEvents_changed (h : Table p) {mask : EventMask}
    (hexec : (p.setEvents c mask).updateChannel c = .ok p') : Changed p p' c mask := by
  have hup := updateChannel_updated (h.setEvents c _) hexec
  refine ⟨hup.table, ?_, ?_, ?_, ?_, ?_, ?_, ?_⟩
  · intro d
    rw [hup.fds, setEvents_fd]
  · rw [hup.events, setEvents_events]
  · intro d
    rw [hup.revents, setEvents_revents]
  · intro d hd
    rw [hup.others d hd, setEvents_other hd]
  · intro d
    rw [hup.registered, registered_setEvents]
  · intro d pfd hd
    rw [hup.entries d pfd hd, entry_setEvents]
  · obtain ⟨pfd, hentry, hevents, hfd⟩ := hup.own
    rw [setEvents_events] at hevents
    refine ⟨pfd, hentry, hevents, ?_⟩
    rcases hfd with ⟨hneg, hnew, hfd⟩ | ⟨old, hold, hfd⟩
    · rw [setEvents_index] at hneg
      rw [setEvents_fd] at hfd
      exact Or.inl ⟨hneg, fun hc => hnew (registered_setEvents.mpr hc), hfd⟩
    · refine Or.inr ⟨old, entry_setEvents.mp hold, ?_⟩
      simp only [isNoneEvent_iff, setEvents_events, setEvents_fd] at hfd
      exact hfd

theorem change_changed (h : Table p) {interest : Interest}
    (hexec : p.change c interest = .ok p') :
    Changed p p' c (interest.apply (p.channels c).events) :=
  setEvents_changed h hexec

/-- `updateChannel` by itself keeps the mask. -/
theorem updateChannel_changed (h : Table p) (hexec : p.updateChannel c = .ok p') :
    Changed p p' c (p.channels c).events := by
  refine setEvents_changed h ?_
  rwa [setEvents, Function.update_eq_self]

theorem Changed.registered_other {mask : EventMask} (h : Changed p p' c mask) (hne : d ≠ c) :
    p'.Registered d ↔ p.Registered d := by
  rw [h.registered d]
  simp [hne]

/-- The assertions of an update hold for a Channel whose descriptor is not in
the map and that was never added, and for a registered one. -/
theorem updateChannel_ok (h : Table p)
    (hc : ((p.channels c).index < 0 ∧ p.channelMap.find (p.channels c).fd = none) ∨
      p.Registered c) : ∃ p', p.updateChannel c = .ok p' := by
  by_cases hneg : (p.channels c).index < 0
  · have hnone : p.channelMap.find (p.channels c).fd = none := by
      rcases hc with hc | hc
      · exact hc.2
      · obtain ⟨pfd, ⟨-, i, hi, -⟩, -⟩ := h.slot c hc
        omega
    exact ⟨_, by simp only [updateChannel, if_pos hneg, require_pos _ hnone, ok_bind]; rfl⟩
  · have hreg : p.Registered c := hc.resolve_left fun hnew => hneg hnew.1
    obtain ⟨pfd, ⟨-, i, hi, hget⟩, hname⟩ := h.slot c hreg
    unfold Names at hname
    have hlt := (List.getElem?_eq_some_iff.mp hget).1
    have hi' : (p.channels c).index.toNat = i := by omega
    have hmap : p.channelMap.find (p.channels c).fd = some c := hreg
    simp only [updateChannel, if_neg hneg, hmap, hi', hget]
    exact ⟨_, by
      rw [require_pos _ (by simp), ok_bind, require_pos _ trivial, ok_bind,
        require_pos _ (by omega), ok_bind]
      simp only [demand, ok_bind]
      rw [require_pos _ hname, ok_bind]
      rfl⟩

structure Removed (p p' : Poller) (c : ChannelId) : Prop where
  table : Table p'
  fds : ∀ d, (p'.channels d).fd = (p.channels d).fd
  events : ∀ d, (p'.channels d).events = (p.channels d).events
  revents : ∀ d, (p'.channels d).revents = (p.channels d).revents
  own : p'.channels c = p.channels c
  fresh : ∀ d, (p'.channels d).index < 0 ↔ (p.channels d).index < 0
  registered : ∀ d, p'.Registered d ↔ d ≠ c ∧ p.Registered d
  entries : ∀ d pfd, p'.Entry d pfd ↔ d ≠ c ∧ p.Entry d pfd

theorem Removed.registered_other (h : Removed p p' c) (hne : d ≠ c) :
    p'.Registered d ↔ p.Registered d := by
  rw [h.registered d]
  simp [hne]

/-- Erasing a Channel's key unregisters it and nothing else. -/
theorem find_erase_registered (hc : p.Registered c) :
    (p.channelMap.erase (p.channels c).fd).find (p.channels d).fd = some d ↔
      d ≠ c ∧ p.Registered d := by
  by_cases hfd : (p.channels d).fd = (p.channels c).fd
  · rw [hfd, ChannelMap.find_erase]
    constructor
    · intro h
      simp at h
    · rintro ⟨hne, hd⟩
      exact absurd (hd.inj hc hfd) hne
  · have hne : d ≠ c := fun heq => hfd (by rw [heq])
    rw [ChannelMap.find_erase_other _ (by exact_mod_cast hfd)]
    exact ⟨fun hd => ⟨hne, hd⟩, fun hd => hd.2⟩

theorem keyed_erase (h : Table p) {fd : ℤ} {d : ChannelId}
    (hd : (p.channelMap.erase (p.channels c).fd).find fd = some d) :
    fd = (p.channels d).fd := by
  by_cases hkey : fd = (p.channels c).fd
  · rw [hkey, ChannelMap.find_erase] at hd
    simp at hd
  · rw [ChannelMap.find_erase_other _ hkey] at hd
    exact h.keyed fd d hd

/-- A removal erases the key of its Channel, and the index of every other
registered Channel still leads to its entry. -/
theorem removed_of_slots (h : Table p) (hc : p.Registered c)
    (hmap : p'.channelMap = p.channelMap.erase (p.channels c).fd)
    (hfds : ∀ d, (p'.channels d).fd = (p.channels d).fd)
    (hevents : ∀ d, (p'.channels d).events = (p.channels d).events)
    (hrevents : ∀ d, (p'.channels d).revents = (p.channels d).revents)
    (hown : p'.channels c = p.channels c)
    (hfresh : ∀ d, (p'.channels d).index < 0 ↔ (p.channels d).index < 0)
    (hslots : ∀ d, d ≠ c → p.Registered d → ∀ pfd,
      (∃ i : ℕ, (p'.channels d).index = i ∧ p'.pollFdList[i]? = some pfd) ↔
        ∃ i : ℕ, (p.channels d).index = i ∧ p.pollFdList[i]? = some pfd)
    (howner : ∀ (i : ℕ) pfd, p'.pollFdList[i]? = some pfd →
      ∃ d, d ≠ c ∧ p.Registered d ∧ (p'.channels d).index = i) : Removed p p' c := by
  have hreg : ∀ d, p'.Registered d ↔ d ≠ c ∧ p.Registered d := by
    intro d
    unfold Registered
    rw [hfds, hmap]
    exact find_erase_registered hc
  have hentries : ∀ d pfd, p'.Entry d pfd ↔ d ≠ c ∧ p.Entry d pfd := by
    intro d pfd
    unfold Entry
    rw [hreg d]
    constructor
    · rintro ⟨⟨hne, hd⟩, hslot⟩
      exact ⟨hne, hd, (hslots d hne hd pfd).mp hslot⟩
    · rintro ⟨hne, hd, hslot⟩
      exact ⟨⟨hne, hd⟩, (hslots d hne hd pfd).mpr hslot⟩
  refine ⟨⟨?_, ?_, ?_⟩, hfds, hevents, hrevents, hown, hfresh, hreg, hentries⟩
  · intro fd d hd
    rw [hmap] at hd
    rw [hfds]
    exact keyed_erase h hd
  · intro d hd
    obtain ⟨hne, hold⟩ := (hreg d).mp hd
    obtain ⟨pfd, hentry, hname⟩ := h.slot d hold
    refine ⟨pfd, (hentries d pfd).mpr ⟨hne, hentry⟩, ?_⟩
    rw [hfds]
    exact hname
  · intro i pfd hget
    obtain ⟨d, hne, hd, hindex⟩ := howner i pfd hget
    exact ⟨d, (hreg d).mpr ⟨hne, hd⟩, hindex⟩

/-- The removed entry was the last one. -/
theorem removed_last (h : Table p) (hc : p.Registered c) {i : ℕ}
    (hi : (p.channels c).index = i) (hlast : i + 1 = p.pollFdList.length) :
    Removed p ⟨p.channels, p.pollFdList.dropLast, p.channelMap.erase (p.channels c).fd⟩ c := by
  have hget : ∀ j, j ≠ i → p.pollFdList.dropLast[j]? = p.pollFdList[j]? := by
    intro j hj
    rw [List.getElem?_dropLast]
    split
    · rfl
    · rw [List.getElem?_eq_none (by omega)]
  refine removed_of_slots h hc rfl (fun _ => rfl) (fun _ => rfl) (fun _ => rfl) rfl
    (fun _ => Iff.rfl) ?_ ?_
  · intro d hne hd pfd
    have hslot : ∀ j : ℕ, (p.channels d).index = j →
        p.pollFdList.dropLast[j]? = p.pollFdList[j]? := by
      intro j hj
      refine hget j ?_
      intro hij
      exact hne (h.apart hd hc (by omega))
    constructor
    · rintro ⟨j, hj, hgetj⟩
      exact ⟨j, hj, (hslot j hj).symm.trans hgetj⟩
    · rintro ⟨j, hj, hgetj⟩
      exact ⟨j, hj, (hslot j hj).trans hgetj⟩
  · intro j pfd hgetj
    have hlt : j < p.pollFdList.dropLast.length := (List.getElem?_eq_some_iff.mp hgetj).1
    rw [List.length_dropLast] at hlt
    have hji : j ≠ i := by omega
    obtain ⟨d, hd, hindex⟩ := h.owner j pfd ((hget j hji).symm.trans hgetj)
    refine ⟨d, ?_, hd, hindex⟩
    intro heq
    rw [heq] at hindex
    omega

/-- Moving the last element into position `i` and dropping the last position. -/
theorem getElem?_set_dropLast {α : Type*} {l : List α} {i : ℕ} {back : α}
    (hi : i + 1 < l.length) (j : ℕ) :
    (l.set i back).dropLast[j]? =
      if j = i then some back else if j + 1 < l.length then l[j]? else none := by
  rw [List.getElem?_dropLast, List.length_set]
  by_cases hji : j = i
  · subst hji
    rw [if_pos (by omega), if_pos rfl, List.getElem?_set_self (by omega)]
  · rw [if_neg hji, List.getElem?_set_ne (fun h => hji h.symm)]
    by_cases hlt : j + 1 < l.length
    · rw [if_pos (by omega), if_pos hlt]
    · rw [if_neg (by omega), if_neg hlt]

/-- The last entry belongs to another Channel, which the map leads to. -/
theorem last_owner (h : Table p) (hc : p.Registered c) {i : ℕ}
    (hi : (p.channels c).index = i) (hlt : i + 1 < p.pollFdList.length) {back : PollFd}
    (hback : p.pollFdList.getLast? = some back) :
    ∃ m, (p.channelMap.erase (p.channels c).fd).find
        (if back.fd < 0 then ignored back.fd else back.fd) = some m ∧
      m ≠ c ∧ p.Registered m ∧
      (p.channels m).index = ((p.pollFdList.length - 1 : ℕ) : ℤ) := by
  rw [List.getLast?_eq_getElem?] at hback
  obtain ⟨m, hm, hindex⟩ := h.owner _ _ hback
  have hmc : m ≠ c := by
    intro heq
    rw [heq] at hindex
    omega
  have hkey : (if back.fd < 0 then ignored back.fd else back.fd) = (p.channels m).fd :=
    (h.names ⟨hm, _, hindex, hback⟩).key
  refine ⟨m, ?_, hmc, hm, hindex⟩
  rw [hkey]
  exact (find_erase_registered hc).mpr ⟨hmc, hm⟩

/-- The last entry was moved into the gap. -/
theorem removed_moved (h : Table p) (hc : p.Registered c) {i : ℕ}
    (hi : (p.channels c).index = i) (hlt : i + 1 < p.pollFdList.length) {back : PollFd}
    (hback : p.pollFdList.getLast? = some back) {moved : ChannelId} (hmc : moved ≠ c)
    (hm : p.Registered moved)
    (hindex : (p.channels moved).index = ((p.pollFdList.length - 1 : ℕ) : ℤ)) :
    Removed p ((Poller.mk p.channels (p.pollFdList.set i back).dropLast
      (p.channelMap.erase (p.channels c).fd)).setIndex moved i) c := by
  rw [List.getLast?_eq_getElem?] at hback
  refine removed_of_slots h hc rfl (fun d => by simp) (fun d => by simp) (fun d => by simp)
    (setIndex_other hmc.symm) ?_ ?_ ?_
  · intro d
    by_cases hdm : d = moved
    · subst hdm
      rw [setIndex_index]
      omega
    · rw [setIndex_other hdm]
  · intro d hne hd pfd
    rw [setIndex_pollFdList]
    by_cases hdm : d = moved
    · subst hdm
      rw [setIndex_index]
      constructor
      · rintro ⟨j, hj, hgetj⟩
        have hji : j = i := by omega
        rw [getElem?_set_dropLast hlt, if_pos hji] at hgetj
        exact ⟨_, hindex, hback.trans hgetj⟩
      · rintro ⟨j, hj, hgetj⟩
        have hjl : j = p.pollFdList.length - 1 := by omega
        refine ⟨i, rfl, ?_⟩
        rw [getElem?_set_dropLast hlt, if_pos rfl, ← hback, ← hjl]
        exact hgetj
    · rw [setIndex_other hdm]
      have hslot : ∀ j : ℕ, (p.channels d).index = j →
          (p.pollFdList.set i back).dropLast[j]? = p.pollFdList[j]? := by
        intro j hj
        have hji : j ≠ i := fun heq => hne (h.apart hd hc (by omega))
        have hjl : j ≠ p.pollFdList.length - 1 := fun heq => hdm (h.apart hd hm (by omega))
        rw [getElem?_set_dropLast hlt, if_neg hji]
        split
        · rfl
        · rw [List.getElem?_eq_none (by omega)]
      constructor
      · rintro ⟨j, hj, hgetj⟩
        exact ⟨j, hj, (hslot j hj).symm.trans hgetj⟩
      · rintro ⟨j, hj, hgetj⟩
        exact ⟨j, hj, (hslot j hj).trans hgetj⟩
  · intro j pfd hgetj
    rw [setIndex_pollFdList, getElem?_set_dropLast hlt] at hgetj
    by_cases hji : j = i
    · exact ⟨moved, hmc, hm, by rw [setIndex_index, hji]⟩
    · rw [if_neg hji] at hgetj
      by_cases hjl : j + 1 < p.pollFdList.length
      · rw [if_pos hjl] at hgetj
        obtain ⟨d, hd, hdindex⟩ := h.owner j pfd hgetj
        have hdc : d ≠ c := by
          intro heq
          rw [heq] at hdindex
          omega
        have hdm : d ≠ moved := by
          intro heq
          rw [heq] at hdindex
          omega
        refine ⟨d, hdc, hd, ?_⟩
        rw [setIndex_other hdm]
        exact hdindex
      · rw [if_neg hjl] at hgetj
        simp at hgetj

/-- The assertions of a removal hold for a registered Channel without interest
whose entry is in the ignored form. -/
theorem removeChannel_ok (h : Table p) (hentry : p.Entry c pfd)
    (hnone : (p.channels c).events = kNoneEvent) (hfd : pfd.fd = ignored (p.channels c).fd)
    (hevents : pfd.events = (p.channels c).events.setWidth 16) :
    ∃ p', p.removeChannel c = .ok p' := by
  obtain ⟨hc, i, hi, hget⟩ := hentry
  have hlt := (List.getElem?_eq_some_iff.mp hget).1
  have hi' : (p.channels c).index.toNat = i := by omega
  have hmap : p.channelMap.find (p.channels c).fd = some c := hc
  have hmask : pfd.events.signExtend 32 = (p.channels c).events := by
    rw [hevents, hnone]
    decide
  simp only [removeChannel, hmap, hi', hget]
  rw [require_pos _ (by simp), ok_bind, require_pos _ trivial, ok_bind,
    require_pos _ ((isNoneEvent_iff _).mpr hnone), ok_bind, require_pos _ (by omega), ok_bind]
  simp only [demand, ok_bind]
  rw [require_pos _ ⟨hfd, hmask⟩, ok_bind, require_pos _ (by simp), ok_bind]
  split
  · exact ⟨_, rfl⟩
  · rename_i hlast
    obtain ⟨back, hback⟩ : ∃ back, p.pollFdList.getLast? = some back := by
      rw [List.getLast?_eq_getElem?]
      exact ⟨_, List.getElem?_eq_getElem (by omega)⟩
    obtain ⟨m, hfind, -⟩ := last_owner h hc hi (by omega) hback
    rw [hback]
    simp only [ok_bind, hfind]
    exact ⟨_, rfl⟩

theorem removeChannel_removed (h : Table p) (hexec : p.removeChannel c = .ok p') :
    Removed p p' c := by
  obtain ⟨i, pfd, hi, hc, -, -, -, hlast | hmoved⟩ := removeChannel_cases hexec
  · obtain ⟨hlast, rfl⟩ := hlast
    exact removed_last h hc hi hlast
  · obtain ⟨back, moved, hlt, hback, hmoved, rfl⟩ := hmoved
    obtain ⟨m, hfind, hmc, hm, hindex⟩ := last_owner h hc hi hlt hback
    obtain rfl : m = moved := Option.some.inj (hfind.symm.trans hmoved)
    exact removed_moved h hc hi hlt hback hmc hm hindex

/-- Every operation on a registered Channel passes its assertions. -/
theorem change_registered (h : Table p) (hc : p.Registered c) (interest : Interest) :
    ∃ p', p.change c interest = .ok p' :=
  updateChannel_ok (h.setEvents c _) (Or.inr (registered_setEvents.mpr hc))

/-- After `disableAll` on a registered Channel the entry is in the form that
`removeChannel` expects. -/
theorem removeChannel_disabled (h : Table p) (hc : p.Registered c)
    (hexec : p.change c .disableAll = .ok p') : ∃ q, p'.removeChannel c = .ok q := by
  have hch := change_changed h hexec
  obtain ⟨pfd, hentry, hevents, hfd⟩ := hch.own
  rcases hfd with ⟨-, hnew, -⟩ | ⟨old, -, hfd⟩
  · exact absurd hc hnew
  · rw [if_pos (show Interest.apply .disableAll _ = kNoneEvent from rfl), ← hch.fds] at hfd
    rw [← hch.events] at hevents
    exact removeChannel_ok hch.table hentry hch.events hfd hevents

theorem newChannel_other {fd : ℕ} (hne : d ≠ c) :
    (p.newChannel c fd).channels d = p.channels d := by
  simp [newChannel, hne]

/-- A new object at the address of an unregistered Channel. -/
theorem registered_newChannel {fd : ℕ} (hc : ¬ p.Registered c)
    (hfd : p.channelMap.find fd = none) : (p.newChannel c fd).Registered d ↔ p.Registered d := by
  by_cases hd : d = c
  · subst hd
    have hnew : ¬ (p.newChannel d fd).Registered d := by
      simp [Registered, newChannel, hfd]
    exact ⟨fun h => absurd h hnew, fun h => absurd h hc⟩
  · unfold Registered
    rw [newChannel_other hd]
    rfl

theorem Table.newChannel (h : Table p) {fd : ℕ} (hc : ¬ p.Registered c)
    (hfd : p.channelMap.find fd = none) : Table (p.newChannel c fd) := by
  have hother : ∀ d, p.Registered d → (p.newChannel c fd).channels d = p.channels d := by
    intro d hd
    refine newChannel_other ?_
    rintro rfl
    exact hc hd
  refine ⟨?_, ?_, ?_⟩
  · intro key d hd
    have hkey : key = (p.channels d).fd := h.keyed key d hd
    have hreg : p.Registered d := by
      unfold Registered
      rw [← hkey]
      exact hd
    rw [hother d hreg]
    exact hkey
  · intro d hd
    have hreg := (registered_newChannel hc hfd).mp hd
    obtain ⟨pfd, ⟨-, i, hi, hget⟩, hname⟩ := h.slot d hreg
    rw [← hother d hreg] at hi hname
    exact ⟨pfd, ⟨hd, i, hi, hget⟩, hname⟩
  · intro i pfd hget
    obtain ⟨d, hreg, hi⟩ := h.owner i pfd hget
    rw [← hother d hreg] at hi
    exact ⟨d, (registered_newChannel hc hfd).mpr hreg, hi⟩

end TinyMuduo.Poller
