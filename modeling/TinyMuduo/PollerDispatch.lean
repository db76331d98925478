import TinyMuduo.PollerRuns

/-!
`Poller::poll` between the updates. The scan of `fillActiveChannels` is compared
with the list of hits: the Channels that the map finds for the entries with
events, in the order of the vector. The count that poll(2) returns reaches zero
behind the last of them only, and an entry with events is never in the ignored
form, so that the table leads from it to its own Channel.
-/
namespace TinyMuduo.PollerDispatch

open Checked Channel Runs Poller PollerRuns

structure Obeys (p : Poller) (answer : Answer) : Prop where
  length : answer.revents.length = p.pollFdList.length
  nonneg : ∀ r ∈ answer.revents, 0 ≤ r.toInt
  ignored : ∀ e ∈ p.pollFdList.zip answer.revents, e.1.fd < 0 → e.2 = 0
  count : answer.numEvents = answer.revents.countP (· ≠ 0)

instance (p : Poller) (answer : Answer) : Decidable (Obeys p answer) :=
  decidable_of_iff (answer.revents.length = p.pollFdList.length ∧
    (answer.revents.all fun r => decide (0 ≤ r.toInt)) ∧
    (∀ e ∈ p.pollFdList.zip answer.revents, e.1.fd < 0 → e.2 = 0) ∧
    answer.numEvents = answer.revents.countP (· ≠ 0))
    ⟨fun ⟨hlength, hnonneg, hignored, hcount⟩ =>
        ⟨hlength, by simpa [List.all_eq_true] using hnonneg, hignored, hcount⟩,
      fun h => ⟨h.length, by simpa [List.all_eq_true] using h.nonneg, h.ignored, h.count⟩⟩

def hit (p : Poller) (pfd : PollFd) : Option (ChannelId × BitVec 16) :=
  if pfd.revents = 0 then none else (p.channelMap.find pfd.fd).map fun c => (c, pfd.revents)

def stamp (p : Poller) (hits : List (ChannelId × BitVec 16)) : Poller :=
  hits.foldl (fun p hit => p.setRevents hit.1 (hit.2.signExtend 32)) p

section Stamp

variable {p : Poller} {c : ChannelId} {r : BitVec 16} {hits : List (ChannelId × BitVec 16)}

theorem stamp_pollFdList : (stamp p hits).pollFdList = p.pollFdList := by
  induction hits generalizing p with
  | nil => rfl
  | cons hit rest ih => exact ih

theorem stamp_channelMap : (stamp p hits).channelMap = p.channelMap := by
  induction hits generalizing p with
  | nil => rfl
  | cons hit rest ih => exact ih

theorem stamp_other (h : c ∉ hits.map Prod.fst) : (stamp p hits).channels c = p.channels c := by
  induction hits generalizing p with
  | nil => rfl
  | cons hit rest ih =>
    rw [List.map_cons, List.mem_cons, not_or] at h
    refine (ih (p := p.setRevents hit.1 _) h.2).trans ?_
    exact Function.update_of_ne h.1 _ _

theorem stamp_own (hnodup : (hits.map Prod.fst).Nodup) (hmem : (c, r) ∈ hits) :
    (stamp p hits).channels c = { p.channels c with revents := r.signExtend 32 } := by
  induction hits generalizing p with
  | nil => cases hmem
  | cons hit rest ih =>
    rw [List.map_cons, List.nodup_cons] at hnodup
    rcases List.mem_cons.mp hmem with rfl | hrest
    · refine (stamp_other (p := p.setRevents c _) hnodup.1).trans ?_
      exact Function.update_self ..
    · have hne : c ≠ hit.1 := by
        rintro rfl
        exact hnodup.1 (List.mem_map.mpr ⟨_, hrest, rfl⟩)
      refine (ih (p := p.setRevents hit.1 _) hnodup.2 hrest).trans ?_
      simp [Poller.setRevents, hne]

end Stamp

def Leads (p : Poller) (pfd : PollFd) : Prop :=
  pfd.revents ≠ 0 → ∃ c, p.channelMap.find pfd.fd = some c ∧ (p.channels c).fd = pfd.fd

theorem toInt_pos {r : BitVec 16} (h : 0 ≤ r.toInt) : 0 < r.toInt ↔ r ≠ 0 := by
  have hzero : r = 0 ↔ r.toInt = 0 := by
    rw [← BitVec.toInt_inj]
    rfl
  rw [ne_eq, hzero]
  omega

/-- The scan finds the hits as long as the count is that of the entries left. -/
theorem fillActiveChannels_ok {p : Poller} {numEvents : ℤ} {active : List ChannelId}
    {entries : List PollFd} (hleads : ∀ pfd ∈ entries, Leads p pfd)
    (hnonneg : ∀ pfd ∈ entries, 0 ≤ pfd.revents.toInt)
    (hcount : numEvents = entries.countP (·.revents ≠ 0)) :
    p.fillActiveChannels numEvents active entries = .ok (stamp p (entries.filterMap (hit p)),
      active ++ (entries.filterMap (hit p)).map Prod.fst) := by
  induction entries generalizing p numEvents active with
  | nil => simp [fillActiveChannels, stamp]
  | cons pfd rest ih =>
    have hrest : ∀ e ∈ rest, Leads p e := fun e he => hleads e (List.mem_cons_of_mem _ he)
    have hnonneg' : ∀ e ∈ rest, 0 ≤ e.revents.toInt :=
      fun e he => hnonneg e (List.mem_cons_of_mem _ he)
    have hpos := toInt_pos (hnonneg pfd List.mem_cons_self)
    rw [List.countP_cons] at hcount
    by_cases hzero : pfd.revents = 0
    · have hhit : hit p pfd = none := if_pos hzero
      rw [List.filterMap_cons_none hhit]
      have hcount' : numEvents = rest.countP (·.revents ≠ 0) := by
        simpa [hzero] using hcount
      rw [fillActiveChannels, if_neg (mt hpos.mp (not_not.mpr hzero))]
      by_cases hleft : 0 < numEvents
      · rw [if_pos hleft]
        exact ih hrest hnonneg' hcount'
      · rw [if_neg hleft]
        -- the count is used up, so the entries that are left have no events
        have hnone : rest.filterMap (hit p) = [] := by
          rw [List.filterMap_eq_nil_iff]
          intro e he
          have hquiet : rest.countP (·.revents ≠ 0) = 0 := by omega
          have := List.countP_eq_zero.mp hquiet e he
          exact if_pos (by simpa using this)
        rw [hnone]
        simp [stamp]
    · obtain ⟨c, hfind, hfd⟩ := hleads pfd List.mem_cons_self hzero
      have hhit : hit p pfd = some (c, pfd.revents) := by
        rw [hit, if_neg hzero, hfind]
        rfl
      rw [List.filterMap_cons_some hhit]
      have hcount' : numEvents - 1 = rest.countP (·.revents ≠ 0) := by
        rw [if_pos (decide_eq_true hzero)] at hcount
        omega
      have hleft : 0 < numEvents := by omega
      rw [fillActiveChannels, if_pos hleft, if_pos (hpos.mpr hzero),
        demand_eq_ok.mpr hfind, ok_bind, require_pos _ hfd, ok_bind]
      have hsame : hit (p.setRevents c (pfd.revents.signExtend 32)) = hit p := rfl
      rw [ih ?_ hnonneg' hcount', hsame]
      · simp [stamp]
      · intro e he hne
        obtain ⟨d, hd, hdfd⟩ := hrest e he hne
        exact ⟨d, hd, by rw [setRevents_fd]; exact hdfd⟩

section Answer

variable {p : Poller} {answer : Answer} {i : ℕ} {c : ChannelId} {pfd : PollFd} {r : BitVec 16}

theorem answered_getElem? : (p.answered answer).pollFdList[i]? = some pfd ↔
    ∃ old r, p.pollFdList[i]? = some old ∧ answer.revents[i]? = some r ∧
      { old with revents := r } = pfd := by
  simp only [answered, List.getElem?_zipWith_eq_some]

theorem answered_length (h : Obeys p answer) :
    (p.answered answer).pollFdList.length = p.pollFdList.length := by
  rw [answered, List.length_zipWith, h.length, Nat.min_self]

theorem answered_revents (h : Obeys p answer) :
    (p.answered answer).pollFdList.map PollFd.revents = answer.revents := by
  apply List.ext_getElem
  · rw [List.length_map, answered_length h, h.length]
  · intro i _ _
    simp [answered]

/-- Every entry keeps its descriptor and its mask. -/
theorem answered_entry (h : Obeys p answer) (hentry : p.Entry c pfd) :
    ∃ r, (p.answered answer).Entry c { pfd with revents := r } := by
  obtain ⟨hc, i, hi, hget⟩ := hentry
  have hlt : i < answer.revents.length := by
    rw [h.length]
    exact (List.getElem?_eq_some_iff.mp hget).1
  exact ⟨answer.revents[i], hc, i, hi,
    answered_getElem?.mpr ⟨pfd, _, hget, List.getElem?_eq_getElem hlt, rfl⟩⟩

theorem answered_table (htable : Table p) (h : Obeys p answer) : Table (p.answered answer) := by
  refine ⟨htable.keyed, ?_, ?_⟩
  · intro c hc
    obtain ⟨pfd, hentry, hname⟩ := htable.slot c hc
    obtain ⟨r, hanswered⟩ := answered_entry h hentry
    exact ⟨_, hanswered, hname⟩
  · intro i pfd hget
    obtain ⟨old, r, hold, -, -⟩ := answered_getElem?.mp hget
    exact htable.owner i old hold

/-- poll(2) reports events for an entry only while it has the descriptor of its
Channel itself. -/
theorem entry_active (htable : Table p) (h : Obeys p answer)
    (hget : (p.answered answer).pollFdList[i]? = some pfd) (hne : pfd.revents ≠ 0)
    (hc : p.Registered c) (hindex : (p.channels c).index = i) :
    p.channelMap.find pfd.fd = some c ∧ (p.channels c).fd = pfd.fd := by
  obtain ⟨old, r, hold, hr, rfl⟩ := answered_getElem?.mp hget
  have hpair : (old, r) ∈ p.pollFdList.zip answer.revents :=
    List.mem_of_getElem? (List.getElem?_zip_eq_some.mpr ⟨hold, hr⟩)
  have hsign : ¬ old.fd < 0 := fun hneg => hne (h.ignored _ hpair hneg)
  have hname := htable.names ⟨hc, i, hindex, hold⟩
  unfold Names Poller.ignored at hname
  have hfd : old.fd = (p.channels c).fd := by omega
  refine ⟨?_, hfd.symm⟩
  change p.channelMap.find old.fd = some c
  rw [hfd]
  exact hc

/-- A hit is the Channel whose index is the position of the entry. -/
theorem hit_owner (htable : Table p) (h : Obeys p answer)
    (hget : (p.answered answer).pollFdList[i]? = some pfd)
    (hhit : hit (p.answered answer) pfd = some (c, r)) :
    p.Registered c ∧ (p.channels c).index = i ∧ pfd.revents = r ∧ r ≠ 0 := by
  rw [hit] at hhit
  split at hhit
  · cases hhit
  · rename_i hne
    obtain ⟨old, _, hold, -, -⟩ := answered_getElem?.mp hget
    obtain ⟨d, hd, hindex⟩ := htable.owner i old hold
    obtain ⟨hfind, -⟩ := entry_active htable h hget hne hd hindex
    change (p.channelMap.find pfd.fd).map _ = _ at hhit
    rw [hfind, Option.map_some, Option.some.injEq, Prod.mk.injEq] at hhit
    obtain ⟨rfl, rfl⟩ := hhit
    exact ⟨hd, hindex, rfl, hne⟩

end Answer

/-- `poll` reports the Channels with events: each of them once, in the order of
the vector and with the events that poll(2) wrote. Nothing else changes. -/
structure Dispatched (p p' : Poller) (answer : Answer) (active : List ChannelId) : Prop where
  exactly : ∀ c, c ∈ active ↔ p.Registered c ∧ ∃ (i : ℕ) (r : BitVec 16),
    (p.channels c).index = i ∧ answer.revents[i]? = some r ∧ r ≠ 0
  once : active.Nodup
  ordered : active.Pairwise fun c d => (p.channels c).index < (p.channels d).index
  stored : ∀ c ∈ active, ∃ (i : ℕ) (r : BitVec 16), (p.channels c).index = i ∧
    answer.revents[i]? = some r ∧
    p'.channels c = { p.channels c with revents := r.signExtend 32 }
  quiet : ∀ c, c ∉ active → p'.channels c = p.channels c
  entries : p'.pollFdList = (p.answered answer).pollFdList
  map : p'.channelMap = p.channelMap

section Dispatch

variable {p : Poller} {answer : Answer} {c : ChannelId} {r : BitVec 16}

def hits (p : Poller) : List (ChannelId × BitVec 16) := p.pollFdList.filterMap (hit p)

theorem mem_hits (htable : Table p) (h : Obeys p answer) :
    (c, r) ∈ hits (p.answered answer) ↔ p.Registered c ∧ r ≠ 0 ∧
      ∃ i : ℕ, (p.channels c).index = i ∧ answer.revents[i]? = some r := by
  rw [hits, List.mem_filterMap]
  constructor
  · rintro ⟨pfd, hmem, hhit⟩
    obtain ⟨i, hget⟩ := List.getElem?_of_mem hmem
    obtain ⟨hc, hindex, hr, hne⟩ := hit_owner htable h hget hhit
    obtain ⟨old, r', -, hr', rfl⟩ := answered_getElem?.mp hget
    obtain rfl : r' = r := hr
    exact ⟨hc, hne, i, hindex, hr'⟩
  · rintro ⟨hc, hne, i, hindex, hr⟩
    obtain ⟨pfd, ⟨-, j, hj, hold⟩, -⟩ := htable.slot c hc
    obtain rfl : i = j := by omega
    have hget := answered_getElem?.mpr ⟨pfd, r, hold, hr, rfl⟩
    refine ⟨_, List.mem_of_getElem? hget, ?_⟩
    rw [hit, if_neg hne]
    obtain ⟨hfind, -⟩ := entry_active htable h hget hne hc hindex
    exact congrArg (Option.map _) hfind

/-- The hits stand in the order of the vector. -/
theorem hits_ordered (htable : Table p) (h : Obeys p answer) :
    ((hits (p.answered answer)).map Prod.fst).Pairwise
      fun c d => (p.channels c).index < (p.channels d).index := by
  rw [List.pairwise_map, hits, List.pairwise_filterMap, List.pairwise_iff_getElem]
  intro i j hi hj hlt
  rintro ⟨c, r⟩ hc ⟨d, r'⟩ hd
  obtain ⟨-, hindexc, -⟩ := hit_owner htable h (List.getElem?_eq_getElem hi) hc
  obtain ⟨-, hindexd, -⟩ := hit_owner htable h (List.getElem?_eq_getElem hj) hd
  change (p.channels c).index < (p.channels d).index
  omega

theorem dispatched (htable : Table p) (h : Obeys p answer) :
    Dispatched p (stamp (p.answered answer) (hits (p.answered answer))) answer
      ((hits (p.answered answer)).map Prod.fst) := by
  have hordered := hits_ordered htable h
  have hnodup : ((hits (p.answered answer)).map Prod.fst).Nodup :=
    hordered.imp fun hlt heq => by simp [heq] at hlt
  refine ⟨?_, hnodup, hordered, ?_, fun c hc => stamp_other hc, stamp_pollFdList,
    stamp_channelMap⟩
  · intro c
    rw [List.mem_map]
    constructor
    · rintro ⟨⟨_, r⟩, hmem, rfl⟩
      obtain ⟨hc, hne, i, hindex, hr⟩ := (mem_hits htable h).mp hmem
      exact ⟨hc, i, r, hindex, hr, hne⟩
    · rintro ⟨hc, i, r, hindex, hr, hne⟩
      exact ⟨(c, r), (mem_hits htable h).mpr ⟨hc, hne, i, hindex, hr⟩, rfl⟩
  · intro c hc
    obtain ⟨⟨_, r⟩, hmem, rfl⟩ := List.mem_map.mp hc
    obtain ⟨-, -, i, hindex, hr⟩ := (mem_hits htable h).mp hmem
    exact ⟨i, r, hindex, hr, stamp_own hnodup hmem⟩

/-- No assertion of the scan fails, and it finds the hits. -/
theorem poll_ok (htable : Table p) (h : Obeys p answer) (active : List ChannelId) :
    p.poll answer active = .ok (stamp (p.answered answer) (hits (p.answered answer)),
      active ++ (hits (p.answered answer)).map Prod.fst) := by
  have hrevents := answered_revents h
  have hcount : answer.numEvents = (p.answered answer).pollFdList.countP (·.revents ≠ 0) := by
    rw [h.count, ← hrevents, List.countP_map]
    rfl
  have hscan : (p.answered answer).fillActiveChannels answer.numEvents active
      (p.answered answer).pollFdList = .ok (stamp (p.answered answer) (hits (p.answered answer)),
      active ++ (hits (p.answered answer)).map Prod.fst) := by
    refine fillActiveChannels_ok ?_ ?_ hcount
    · intro pfd hmem hne
      obtain ⟨i, hget⟩ := List.getElem?_of_mem hmem
      obtain ⟨old, _, hold, -, -⟩ := answered_getElem?.mp hget
      obtain ⟨c, hc, hindex⟩ := htable.owner i old hold
      have hactive := entry_active htable h hget hne hc hindex
      exact ⟨c, hactive⟩
    · intro pfd hmem
      refine h.nonneg _ ?_
      rw [← hrevents]
      exact List.mem_map_of_mem hmem
  by_cases hpos : 0 < answer.numEvents
  · rw [poll, if_pos hpos]
    exact hscan
  · rw [poll, if_neg hpos, ← hscan]
    -- without events the scan stops at once
    cases (p.answered answer).pollFdList with
    | nil => rfl
    | cons pfd rest => rw [fillActiveChannels, if_neg hpos]

end Dispatch

inductive Input
  | call (i : PollerRuns.Input)
  | poll (answer : Answer)

def exec (s : State) : Input → Except Fault State
  | .call i => PollerRuns.exec s i
  | .poll answer => return { s with poller := (← s.poller.poll answer []).1 }

def system : System State Input Fault where
  start := PollerRuns.system.start
  allowed s
    | .call _ => True
    | .poll answer => Obeys s.poller answer
  exec := exec

instance (s : State) : (i : Input) → Decidable (system.allowed s i)
  | .call _ => isTrue trivial
  | .poll answer => inferInstanceAs (Decidable (Obeys s.poller answer))

theorem answered_inv {s : State} {answer : Answer} (h : Inv s) (hobeys : Obeys s.poller answer) :
    Inv { s with poller := s.poller.answered answer } := by
  refine ⟨answered_table h.table hobeys, ?_, h.plain, h.updated, ?_⟩
  · exact h.size.trans (answered_length hobeys).symm
  · rintro c _ ⟨hc, i, hi, hget⟩
    obtain ⟨old, r, hold, -, rfl⟩ := answered_getElem?.mp hget
    exact h.masks c old ⟨hc, i, hi, hold⟩

theorem setRevents_inv {s : State} (h : Inv s) (c : ChannelId) (revents : EventMask) :
    Inv { s with poller := s.poller.setRevents c revents } := by
  have hevents : ∀ d, ((s.poller.setRevents c revents).channels d).events =
      (s.poller.channels d).events := by
    intro d
    by_cases hd : d = c <;> simp [Poller.setRevents, hd]
  refine ⟨h.table.setRevents c revents, h.size, ?_, ?_, ?_⟩
  · intro d
    rw [hevents]
    exact h.plain d
  · intro d hd
    rw [hevents]
    exact h.updated d (registered_setRevents.mp hd)
  · rintro d pfd ⟨hd, i, hi, hget⟩
    rw [hevents]
    rw [setRevents_index] at hi
    exact h.masks d pfd ⟨registered_setRevents.mp hd, i, hi, hget⟩

/-- poll(2) and the scan write reported events only. -/
theorem stamp_inv {s : State} (h : Inv s) (hits : List (ChannelId × BitVec 16)) :
    Inv { s with poller := stamp s.poller hits } := by
  induction hits generalizing s with
  | nil => exact h
  | cons hit rest ih => exact ih (setRevents_inv h hit.1 (hit.2.signExtend 32))

theorem reach_inv {s : State} (h : Reachable system s) : Inv s := by
  refine h.invariant ?_ ?_
  · rintro _ ⟨fds, rfl⟩
    exact initial_inv fds
  · intro s i s' hs hallow _ hexec
    cases i with
    | call i => exact step_inv hs hexec
    | poll answer =>
      simp only [system, exec, poll_ok hs.table hallow, ok_bind, pure_eq_ok,
        Except.ok.injEq] at hexec
      rw [← hexec]
      exact stamp_inv (answered_inv hs hallow) _

/-- In every state of every run and for every answer that obeys the contract of
poll(2), `poll` passes its assertions and appends to `activeChannels` exactly
the Channels that are ready. -/
theorem poll_dispatches_ready {s : State} (h : Reachable system s) {answer : Answer}
    (hobeys : Obeys s.poller answer) (activeChannels : List ChannelId) :
    ∃ p' active, s.poller.poll answer activeChannels = .ok (p', activeChannels ++ active) ∧
      Dispatched s.poller p' answer active := by
  have htable := (reach_inv h).table
  exact ⟨_, _, poll_ok htable hobeys activeChannels, dispatched htable hobeys⟩

/-- The second of four Channels is removed, the last one moves into its place,
and the first one is in the ignored form when poll(2) answers. -/
def pollAfterRemoval : List Input :=
  [.call (.change 0 .enableReading), .call (.change 1 .enableReading),
    .call (.change 2 .enableReading), .call (.change 3 .enableWriting),
    .poll ⟨[1, 0, 0, 4], 2⟩, .call (.change 1 .disableAll), .call (.removeChannel 1),
    .call (.change 0 .disableAll)]

theorem pollAfterRemoval_dispatches : ∃ s p' active, Reachable system s ∧
    Obeys s.poller ⟨[0, 12, 1], 2⟩ ∧ s.poller.poll ⟨[0, 12, 1], 2⟩ [] = .ok (p', active) ∧
    Dispatched s.poller p' ⟨[0, 12, 1], 2⟩ active ∧ 3 ∈ active := by
  obtain ⟨s, hs, htest⟩ := exists_of_replay (M := system) Free ⟨fun c => c + 7, rfl⟩
    pollAfterRemoval (fun s => decide (Obeys s.poller ⟨[0, 12, 1], 2⟩ ∧ s.poller.Registered 3 ∧
      (s.poller.channels 3).index = 1)) (by decide +kernel)
  obtain ⟨hobeys, hregistered, hindex⟩ := of_decide_eq_true htest
  obtain ⟨p', active, hpoll, hdispatched⟩ := poll_dispatches_ready hs hobeys []
  refine ⟨s, p', active, hs, hobeys, hpoll, hdispatched, ?_⟩
  exact (hdispatched.exactly 3).mpr ⟨hregistered, 1, 12, hindex, rfl, by decide⟩

end TinyMuduo.PollerDispatch
