import TinyMuduo.PollerWatch

/-!
The three representations of the Poller's table over whole runs. Besides the
changes of interest, `updateChannel` may be called by itself. The state records
for each Channel the mask it had at its last update, which is what its entry
must hold, and the sizes of the map and the vector move together.
-/
namespace TinyMuduo.PollerRuns

open Checked Channel Runs Poller

structure State where
  poller : Poller
  /-- the mask each Channel had when it was last updated -/
  updated : ChannelId → EventMask

inductive Input
  | change (c : ChannelId) (interest : Interest)
  | updateChannel (c : ChannelId)
  | removeChannel (c : ChannelId)

def State.record (s : State) (c : ChannelId) (poller : Poller) : State :=
  ⟨poller, Function.update s.updated c (poller.channels c).events⟩

def exec (s : State) : Input → Except Fault State
  | .change c interest => return s.record c (← s.poller.change c interest)
  | .updateChannel c => return s.record c (← s.poller.updateChannel c)
  | .removeChannel c => return { s with poller := ← s.poller.removeChannel c }

def system : System State Input Fault where
  start := fun s => ∃ fds, s = ⟨Poller.initial fds, fun _ => kNoneEvent⟩
  allowed := fun _ _ => True
  exec := exec

instance (s : State) (i : Input) : Decidable (system.allowed s i) := isTrue trivial

structure Inv (s : State) : Prop where
  table : Table s.poller
  size : s.poller.channelMap.size = s.poller.pollFdList.length
  plain : ∀ c, PlainMask (s.poller.channels c).events
  updated : ∀ c, s.poller.Registered c → s.updated c = (s.poller.channels c).events
  masks : ∀ c pfd, s.poller.Entry c pfd →
    pfd.events = (s.poller.channels c).events.setWidth 16

theorem initial_inv (fds : ChannelId → ℕ) :
    Inv ⟨Poller.initial fds, fun _ => kNoneEvent⟩ := by
  refine ⟨initial_table fds, rfl, fun _ => Or.inl rfl, fun _ _ => rfl, ?_⟩
  exact (initial_sane fds).masks

section Size

variable {p p' : Poller} {c : ChannelId}

theorem updateChannel_size (hsize : p.channelMap.size = p.pollFdList.length)
    (hexec : p.updateChannel c = .ok p') : p'.channelMap.size = p'.pollFdList.length := by
  rcases updateChannel_cases hexec with ⟨-, hnone, rfl⟩ | ⟨i, pfd, -, -, -, -, rfl⟩
  · simp [ChannelMap.size_insert hnone, hsize]
  · simp [hsize]

theorem removeChannel_size (hsize : p.channelMap.size = p.pollFdList.length)
    (hexec : p.removeChannel c = .ok p') : p'.channelMap.size = p'.pollFdList.length := by
  obtain ⟨i, pfd, -, hc, -, -, -, ⟨hlast, rfl⟩ | ⟨back, moved, hlt, -, -, rfl⟩⟩ :=
    removeChannel_cases hexec
  · have herase := ChannelMap.size_erase hc
    simp only [List.length_dropLast]
    omega
  · have herase := ChannelMap.size_erase hc
    simp only [setIndex_channelMap, setIndex_pollFdList, List.length_dropLast, List.length_set]
    omega

end Size

/-- An update writes the mask of its Channel and leaves the others alone. -/
theorem changed_inv {s : State} (h : Inv s) {c : ChannelId} {mask : EventMask} {p : Poller}
    (hch : Changed s.poller p c mask) (hmask : PlainMask mask)
    (hsize : p.channelMap.size = p.pollFdList.length) : Inv (s.record c p) := by
  refine ⟨hch.table, hsize, ?_, ?_, ?_⟩
  · intro d
    by_cases hd : d = c
    · subst hd
      change PlainMask (p.channels d).events
      rw [hch.events]
      exact hmask
    · change PlainMask (p.channels d).events
      rw [hch.others d hd]
      exact h.plain d
  · intro d hreg
    by_cases hd : d = c
    · subst hd
      exact Function.update_self ..
    · have hold := h.updated d ((hch.registered_other hd).mp hreg)
      change Function.update s.updated c _ d = (p.channels d).events
      rw [Function.update_of_ne hd, hch.others d hd]
      exact hold
  · intro d pfd hentry
    by_cases hd : d = c
    · subst hd
      obtain ⟨own, hown, hevents, -⟩ := hch.own
      change pfd.events = (p.channels d).events.setWidth 16
      rw [Entry.unique hentry hown, hch.events]
      exact hevents
    · change pfd.events = (p.channels d).events.setWidth 16
      rw [hch.others d hd]
      exact h.masks d pfd ((hch.entries d pfd hd).mp hentry)

theorem step_inv {s s' : State} (h : Inv s) {i : Input} (hexec : exec s i = .ok s') : Inv s' := by
  cases i with
  | change c interest =>
    simp only [exec, bind_pure_eq_ok] at hexec
    obtain ⟨p, hok, rfl⟩ := hexec
    refine changed_inv h (change_changed h.table hok) ((h.plain c).apply interest) ?_
    exact updateChannel_size (p := s.poller.setEvents c _) h.size hok
  | updateChannel c =>
    simp only [exec, bind_pure_eq_ok] at hexec
    obtain ⟨p, hok, rfl⟩ := hexec
    exact changed_inv h (updateChannel_changed h.table hok) (h.plain c)
      (updateChannel_size h.size hok)
  | removeChannel c =>
    simp only [exec, bind_pure_eq_ok] at hexec
    obtain ⟨p, hok, rfl⟩ := hexec
    have hrm := removeChannel_removed h.table hok
    refine ⟨hrm.table, removeChannel_size h.size hok, ?_, ?_, ?_⟩
    · intro d
      rw [hrm.events]
      exact h.plain d
    · intro d hd
      rw [hrm.events]
      exact h.updated d ((hrm.registered d).mp hd).2
    · intro d pfd hentry
      rw [hrm.events]
      exact h.masks d pfd ((hrm.entries d pfd).mp hentry).2

theorem reach_inv {s : State} (h : Reachable system s) : Inv s := by
  refine h.invariant ?_ ?_
  · rintro _ ⟨fds, rfl⟩
    exact initial_inv fds
  · intro s i s' hs _ _ hexec
    exact step_inv hs hexec

structure MapEntry (s : State) (fd : ℤ) (c : ChannelId) : Prop where
  fd_eq : (s.poller.channels c).fd = fd
  entry : ∃ (i : ℕ) (pfd : PollFd), (s.poller.channels c).index = i ∧
    s.poller.pollFdList[i]? = some pfd ∧ (pfd.fd = fd ∨ pfd.fd = -fd - 1) ∧
    pfd.events.signExtend 32 = s.updated c

theorem Inv.mapEntry {s : State} (h : Inv s) {fd : ℤ} {c : ChannelId}
    (hfind : s.poller.channelMap.find fd = some c) : MapEntry s fd c := by
  have hkey := h.table.keyed fd c hfind
  have hreg : s.poller.Registered c := by
    unfold Poller.Registered
    rw [← hkey]
    exact hfind
  obtain ⟨pfd, hentry, hname⟩ := h.table.slot c hreg
  obtain ⟨-, i, hi, hget⟩ := hentry
  refine ⟨hkey.symm, i, pfd, hi, hget, ?_, ?_⟩
  · rw [hkey]
    exact hname
  · rw [h.masks c pfd ⟨hreg, i, hi, hget⟩, h.updated c hreg]
    exact (h.plain c).signExtend

theorem Inv.registered {s : State} (h : Inv s) {fd : ℤ} {c : ChannelId}
    (hfind : s.poller.channelMap.find fd = some c) : s.poller.Registered c := by
  unfold Poller.Registered
  rw [(h.mapEntry hfind).fd_eq]
  exact hfind

/-- In every state of every run the map, the vector and the indices describe
one bijection: the containers have the same size, every map entry leads to the
vector entry that names its descriptor and holds the mask of the last update,
every vector entry belongs to a map entry, and no two Channels share an index.
A removal leaves the entry of every other Channel as it was. -/
theorem poller_table_invariant {s : State} (h : Reachable system s) :
    s.poller.channelMap.size = s.poller.pollFdList.length ∧
    (∀ fd c, s.poller.channelMap.find fd = some c → MapEntry s fd c) ∧
    (∀ i, i < s.poller.pollFdList.length → ∃ fd c, s.poller.channelMap.find fd = some c ∧
      (s.poller.channels c).index = i) ∧
    (∀ fd fd' c d, s.poller.channelMap.find fd = some c → s.poller.channelMap.find fd' = some d →
      c ≠ d → (s.poller.channels c).index ≠ (s.poller.channels d).index) ∧
    ∀ c s', exec s (.removeChannel c) = .ok s' → ∀ d, d ≠ c → s.poller.Registered d →
      s'.poller.Registered d ∧ ∃ pfd, s.poller.Entry d pfd ∧ s'.poller.Entry d pfd := by
  have hinv := reach_inv h
  refine ⟨hinv.size, fun fd c hfind => hinv.mapEntry hfind, ?_, ?_, ?_⟩
  · intro i hi
    obtain ⟨c, hc, hindex⟩ := hinv.table.owner i _ (List.getElem?_eq_getElem hi)
    exact ⟨_, c, hc, hindex⟩
  · intro fd fd' c d hc hd hne hindex
    exact hne (hinv.table.apart (hinv.registered hc) (hinv.registered hd) hindex)
  · intro c s' hexec d hne hreg
    simp only [exec, bind_pure_eq_ok] at hexec
    obtain ⟨p, hok, rfl⟩ := hexec
    have hrm := removeChannel_removed hinv.table hok
    obtain ⟨pfd, hentry, -⟩ := hinv.table.slot d hreg
    exact ⟨(hrm.registered d).mpr ⟨hne, hreg⟩, pfd, hentry,
      (hrm.entries d pfd).mpr ⟨hne, hentry⟩⟩

/-- The first of three Channels is removed while the last one, which moves into
its place, is in the ignored form. -/
def removeBeforeIgnored : List Input :=
  [.change 0 .enableReading, .change 1 .enableReading, .change 2 .enableWriting,
    .change 2 .disableAll, .updateChannel 1, .change 0 .disableAll, .removeChannel 0]

theorem removeBeforeIgnored_table : ∃ s, Reachable system s ∧
    s.poller.pollFdList = [⟨-10, 0, 0⟩, ⟨8, 3, 0⟩] ∧ MapEntry s 9 2 ∧ MapEntry s 8 1 := by
  obtain ⟨s, hs, htest⟩ := exists_of_replay (M := system) Free ⟨fun c => c + 7, rfl⟩
    removeBeforeIgnored (fun s => decide (s.poller.pollFdList = [⟨-10, 0, 0⟩, ⟨8, 3, 0⟩] ∧
      s.poller.channelMap.find 9 = some 2 ∧ s.poller.channelMap.find 8 = some 1)) (by decide)
  obtain ⟨hlist, hlast, hmiddle⟩ := of_decide_eq_true htest
  have htable := (poller_table_invariant hs).2.1
  exact ⟨s, hs, hlist, htable 9 2 hlast, htable 8 1 hmiddle⟩

end TinyMuduo.PollerRuns
