import TinyMuduo.Lib.Runs
import TinyMuduo.PollerTable

/-!
What poll(2) is asked to watch. An entry whose Channel loses its interest is
moved to the ignored form, but no update moves it back, and a first update
never uses that form. A Channel is therefore watched as its mask says exactly
in the runs that never give interest back to a registered Channel without any
and never register a Channel by taking interest away.
-/
namespace TinyMuduo.Poller

open Checked Channel Runs

/-- The pairs that poll(2) reads from the vector; it skips negative descriptors. -/
def watched (p : Poller) : List (ℤ × EventMask) :=
  (p.pollFdList.filter fun pfd => 0 ≤ pfd.fd).map fun pfd => (pfd.fd, pfd.events.signExtend 32)

/-- Exactly the registered Channels with some interest are watched, each for
its own mask. -/
def WatchLaw (p : Poller) : Prop :=
  ∀ fd events, (fd, events) ∈ p.watched ↔
    ∃ c, p.Registered c ∧ (p.channels c).events ≠ kNoneEvent ∧
      fd = (p.channels c).fd ∧ events = (p.channels c).events

inductive Input
  | change (c : ChannelId) (interest : Interest)
  | removeChannel (c : ChannelId)

def exec (p : Poller) : Input → Except Fault Poller
  | .change c interest => p.change c interest
  | .removeChannel c => p.removeChannel c

def system : System Poller Input Fault where
  start := fun p => ∃ fds, p = initial fds
  allowed := fun _ _ => True
  exec := exec

instance (p : Poller) (i : Input) : Decidable (system.allowed p i) := isTrue trivial

/-- Interest is given only to a Channel that is new or has some, and taken only
from a registered one. -/
def WatchSafe (p : Poller) : Input → Prop
  | .change c interest =>
      if interest.enables then p.Registered c → (p.channels c).events ≠ kNoneEvent
      else p.Registered c
  | .removeChannel _ => True

def PlainMask (events : EventMask) : Prop :=
  events = 0 ∨ events = 3 ∨ events = 4 ∨ events = 7

theorem PlainMask.apply {events : EventMask} (h : PlainMask events) (interest : Interest) :
    PlainMask (interest.apply events) := by
  unfold PlainMask at h ⊢
  rcases h with rfl | rfl | rfl | rfl <;> cases interest <;> decide

/-- A plain mask survives the conversion to `short` and back. -/
theorem PlainMask.signExtend {events : EventMask} (h : PlainMask events) :
    (events.setWidth 16).signExtend 32 = events := by
  unfold PlainMask at h
  rcases h with rfl | rfl | rfl | rfl <;> decide

structure Sane (p : Poller) : Prop where
  table : Table p
  plain : ∀ c, PlainMask (p.channels c).events
  masks : ∀ c pfd, p.Entry c pfd → pfd.events = (p.channels c).events.setWidth 16
  fresh : ∀ c, ¬ p.Registered c → (p.channels c).index < 0 → (p.channels c).events = kNoneEvent

/-- The descriptor of each entry is in the ignored form exactly when its
Channel has no interest. -/
def Encoded (p : Poller) : Prop :=
  ∀ c pfd, p.Entry c pfd → (0 ≤ pfd.fd ↔ (p.channels c).events ≠ kNoneEvent)

variable {p p' : Poller} {c : ChannelId}

theorem initial_sane (fds : ChannelId → ℕ) : Sane (initial fds) := by
  refine ⟨initial_table fds, ?_, ?_, ?_⟩
  · intro c
    exact Or.inl rfl
  · rintro c pfd ⟨hc, -⟩
    simp [initial, Registered] at hc
  · intro c _ _
    rfl

theorem Names.nonneg_iff {pfd : PollFd} {fd : ℕ} (h : Names pfd fd) :
    0 ≤ pfd.fd ↔ pfd.fd = fd := by
  unfold Names ignored at h
  omega

theorem mem_watched (h : Sane p) {fd : ℤ} {events : EventMask} :
    (fd, events) ∈ p.watched ↔ ∃ c pfd, p.Entry c pfd ∧ 0 ≤ pfd.fd ∧
      fd = (p.channels c).fd ∧ events = (p.channels c).events := by
  have hmask : ∀ c pfd, p.Entry c pfd → pfd.events.signExtend 32 = (p.channels c).events := by
    intro c pfd hentry
    rw [h.masks c pfd hentry]
    exact (h.plain c).signExtend
  simp only [watched, List.mem_map, List.mem_filter, decide_eq_true_eq, Prod.mk.injEq]
  constructor
  · rintro ⟨pfd, ⟨hmem, hpos⟩, rfl, rfl⟩
    obtain ⟨c, hentry⟩ := h.table.mem_iff.mp hmem
    exact ⟨c, pfd, hentry, hpos, (h.table.names hentry).nonneg_iff.mp hpos,
      hmask c pfd hentry⟩
  · rintro ⟨c, pfd, hentry, hpos, rfl, rfl⟩
    exact ⟨pfd, ⟨h.table.mem_iff.mpr ⟨c, hentry⟩, hpos⟩,
      (h.table.names hentry).nonneg_iff.mp hpos, hmask c pfd hentry⟩

/-- The law is a property of each entry by itself. -/
theorem watchLaw_iff (h : Sane p) : WatchLaw p ↔ Encoded p := by
  constructor
  · intro hlaw c pfd hentry
    constructor
    · intro hpos
      have hmem := (mem_watched h).mpr ⟨c, pfd, hentry, hpos, rfl, rfl⟩
      obtain ⟨d, hd, hsome, hfd, -⟩ := (hlaw _ _).mp hmem
      obtain rfl : c = d := hentry.1.inj hd (by exact_mod_cast hfd)
      exact hsome
    · intro hsome
      have hmem := (hlaw _ _).mpr ⟨c, hentry.1, hsome, rfl, rfl⟩
      obtain ⟨d, old, hold, hpos, hfd, -⟩ := (mem_watched h).mp hmem
      obtain rfl : c = d := hentry.1.inj hold.1 (by exact_mod_cast hfd)
      rw [hentry.unique hold]
      exact hpos
  · intro henc fd events
    rw [mem_watched h]
    constructor
    · rintro ⟨c, pfd, hentry, hpos, hfd, hevents⟩
      exact ⟨c, hentry.1, (henc c pfd hentry).mp hpos, hfd, hevents⟩
    · rintro ⟨c, hc, hsome, hfd, hevents⟩
      obtain ⟨pfd, hentry, -⟩ := h.table.slot c hc
      exact ⟨c, pfd, hentry, (henc c pfd hentry).mpr hsome, hfd, hevents⟩

theorem change_sane (h : Sane p) {interest : Interest} (hexec : p.change c interest = .ok p') :
    Sane p' := by
  have hch := change_changed h.table hexec
  refine ⟨hch.table, ?_, ?_, ?_⟩
  · intro d
    by_cases hd : d = c
    · subst hd
      rw [hch.events]
      exact (h.plain d).apply interest
    · rw [hch.others d hd]
      exact h.plain d
  · intro d pfd hentry
    by_cases hd : d = c
    · subst hd
      obtain ⟨own, hown, hevents, -⟩ := hch.own
      rw [hentry.unique hown, hch.events]
      exact hevents
    · rw [hch.others d hd]
      exact h.masks d pfd ((hch.entries d pfd hd).mp hentry)
  · intro d hnew hneg
    have hd : d ≠ c := fun heq => hnew ((hch.registered d).mpr (Or.inl heq))
    rw [hch.others d hd] at hneg ⊢
    exact h.fresh d (fun hreg => hnew ((hch.registered d).mpr (Or.inr hreg))) hneg

theorem removeChannel_sane (h : Sane p) (hexec : p.removeChannel c = .ok p') : Sane p' := by
  have hrm := removeChannel_removed h.table hexec
  refine ⟨hrm.table, ?_, ?_, ?_⟩
  · intro d
    rw [hrm.events]
    exact h.plain d
  · intro d pfd hentry
    rw [hrm.events]
    exact h.masks d pfd ((hrm.entries d pfd).mp hentry).2
  · intro d hnew hneg
    rw [hrm.events]
    rw [hrm.fresh] at hneg
    by_cases hd : d = c
    · subst hd
      obtain ⟨i, -, hi, -⟩ := removeChannel_cases hexec
      omega
    · exact h.fresh d (fun hreg => hnew ((hrm.registered d).mpr ⟨hd, hreg⟩)) hneg

theorem step_sane (h : Sane p) {i : Input} (hexec : exec p i = .ok p') : Sane p' := by
  cases i with
  | change c interest => exact change_sane h hexec
  | removeChannel c => exact removeChannel_sane h hexec

theorem reach_sane {cond : Poller → Input → Prop} (h : Reach system cond p) : Sane p := by
  refine h.invariant ?_ ?_
  · rintro _ ⟨fds, rfl⟩
    exact initial_sane fds
  · intro p i p' hp _ _ hexec
    exact step_sane hp hexec

/-- After a change of interest only the entry of its Channel can be wrong. -/
theorem change_encoded (h : Sane p) (henc : Encoded p) {interest : Interest}
    (hexec : p.change c interest = .ok p') :
    Encoded p' ↔ WatchSafe p (.change c interest) := by
  have hch := change_changed h.table hexec
  obtain ⟨own, hown, -, hcases⟩ := hch.own
  have hiff : Encoded p' ↔
      (0 ≤ own.fd ↔ interest.apply (p.channels c).events ≠ kNoneEvent) := by
    constructor
    · intro henc'
      rw [henc' c own hown, hch.events]
    · intro hgood d pfd hentry
      by_cases hd : d = c
      · subst hd
        rw [hentry.unique hown, hch.events]
        exact hgood
      · rw [hch.others d hd]
        exact henc d pfd ((hch.entries d pfd hd).mp hentry)
  rw [hiff]
  simp only [WatchSafe]
  rcases hcases with ⟨hneg, hnew, hfd⟩ | ⟨old, hold, hfd⟩
  · have hpos : 0 ≤ own.fd := by omega
    cases hen : interest.enables with
    | true =>
      have hsome := Interest.apply_ne_none hen (p.channels c).events
      simp [hpos, hsome, hnew]
    | false =>
      rw [h.fresh c hnew hneg, Interest.apply_none hen]
      simp [hpos, hnew]
  · have hreg : p.Registered c := hold.1
    have hneg : ¬ (0 ≤ ignored (p.channels c).fd) := by
      unfold ignored
      omega
    cases hen : interest.enables with
    | true =>
      have hsome := Interest.apply_ne_none hen (p.channels c).events
      rw [if_neg hsome] at hfd
      rw [hfd, henc c old hold]
      simp [hsome, hreg]
    | false =>
      by_cases hnone : interest.apply (p.channels c).events = kNoneEvent
      · rw [if_pos hnone] at hfd
        rw [hfd]
        simp [hneg, hnone, hreg]
      · have hsome : (p.channels c).events ≠ kNoneEvent := by
          intro hevents
          rw [hevents] at hnone
          exact hnone (Interest.apply_none hen)
        rw [if_neg hnone] at hfd
        rw [hfd, henc c old hold]
        simp [hsome, hnone, hreg]

/-- A removal keeps every other entry and takes out the removed one. -/
theorem removeChannel_encoded (h : Sane p) (henc : Encoded p)
    (hexec : p.removeChannel c = .ok p') : Encoded p' := by
  have hrm := removeChannel_removed h.table hexec
  intro d pfd hentry
  rw [hrm.events]
  exact henc d pfd ((hrm.entries d pfd).mp hentry).2

theorem step_watchLaw_iff (h : Sane p) (hlaw : WatchLaw p) {i : Input}
    (hexec : exec p i = .ok p') : WatchLaw p' ↔ WatchSafe p i := by
  have henc := (watchLaw_iff h).mp hlaw
  rw [watchLaw_iff (step_sane h hexec)]
  cases i with
  | change c interest => exact change_encoded h henc hexec
  | removeChannel c => exact ⟨fun _ => trivial, fun _ => removeChannel_encoded h henc hexec⟩

theorem initial_watchLaw (fds : ChannelId → ℕ) : WatchLaw (initial fds) := by
  rw [watchLaw_iff (initial_sane fds)]
  rintro c pfd ⟨hc, -⟩
  simp [initial, Registered] at hc

/-- In every run the law holds in all states exactly when every step is safe. -/
theorem watch_law_of_run {past : List (Poller × Input)} (h : Run system past p) :
    ((∀ x ∈ past, WatchLaw x.1) ∧ WatchLaw p) ↔ ∀ x ∈ past, WatchSafe x.1 x.2 := by
  refine h.law_iff ?_ ?_
  · rintro _ ⟨fds, rfl⟩
    exact initial_watchLaw fds
  · intro p i p' hreach hlaw _ hexec
    exact step_watchLaw_iff (reach_sane hreach) hlaw hexec

instance (p : Poller) : (i : Input) → Decidable (WatchSafe p i)
  | .change c interest => by
      unfold WatchSafe
      infer_instance
  | .removeChannel _ => isTrue trivial

/-- Two Channels are registered, one changes its interest step by step and is
removed while the other one moves into its place. -/
def removeFirst : List Input :=
  [.change 0 .enableReading, .change 1 .enableReading, .change 0 .enableWriting,
    .change 0 .disableWriting, .change 0 .disableAll, .removeChannel 0,
    .change 1 .enableWriting]

theorem removeFirst_watched : ∃ past p, Run system past p ∧
    past.map Prod.snd = removeFirst ∧ p.watched = [(8, 7)] ∧
    (∀ x ∈ past, WatchLaw x.1) ∧ WatchLaw p := by
  obtain ⟨past, p, hrun, hinputs, hsafe, htest⟩ := exists_run_of_replay (M := system) WatchSafe
    ⟨fun c => c + 7, rfl⟩ removeFirst (fun p => decide (p.watched = [(8, 7)])) (by decide)
  exact ⟨past, p, hrun, hinputs, of_decide_eq_true htest, (watch_law_of_run hrun).mpr hsafe⟩

def enableAgain : List Input :=
  [.change 0 .enableReading, .change 0 .disableAll, .change 0 .enableReading]

theorem enableAgain_unwatched : ¬ ∀ p, Reachable system p → WatchLaw p := by
  intro hall
  obtain ⟨p, hp, htest⟩ := exists_of_replay (M := system) Free ⟨fun c => c + 7, rfl⟩ enableAgain
    (fun p => decide (p.watched = [] ∧ p.Registered 0 ∧ (p.channels 0).events ≠ kNoneEvent))
    (by decide)
  obtain ⟨hempty, hreg, hsome⟩ := of_decide_eq_true htest
  have hmem := (hall p hp _ _).mpr ⟨0, hreg, hsome, rfl, rfl⟩
  rw [hempty] at hmem
  simp at hmem

end TinyMuduo.Poller
