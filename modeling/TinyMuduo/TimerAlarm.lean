import TinyMuduo.TimerRuns
import Mathlib.Order.MinMax

/-!
The alarm behind the timer queue. `resetTimerfd` is called in two places only,
when a new timer comes first and after a batch, and the second call is guarded
by the validity of the next expiration. A queued timer still never waits
without an alarm: a timer that is not valid can only have been queued by a
callback of the batch, as the first one, and it set the alarm itself. Both the
distance to the next expiration and the time of a repeating timer are computed
in an `int64_t`: where one of them overflows, a queued timer waits without an
alarm or with a late one.
-/
namespace TinyMuduo.TimerAlarm

open TimerQueue Runs TimerRuns SortedSet MachineInt

variable {φ : Type}

def nanosPerSecond : ℤ := 1000 * 1000 * 1000

def Normalised (ts : Timespec) : Prop :=
  0 ≤ ts.tv_sec ∧ 0 ≤ ts.tv_nsec ∧ ts.tv_nsec < nanosPerSecond

instance (ts : Timespec) : Decidable (Normalised ts) :=
  inferInstanceAs (Decidable (0 ≤ ts.tv_sec ∧ 0 ≤ ts.tv_nsec ∧ ts.tv_nsec < nanosPerSecond))

/-- `timerfd_settime` with a relative value: a value that is not normalised is
an error, zero disarms, any other value replaces the setting. -/
def timerfdSettime (fd : Timerfd) (clock : Timestamp) (ts : Timespec) : Timerfd :=
  if ¬ Normalised ts then fd
  else if ts = ⟨0, 0⟩ then ⟨none, clock⟩
  else ⟨some (clock + ts.micros), clock⟩

theorem delayFromNow_pos (when now : ℤ) : 100 ≤ delayFromNow when now := by
  unfold delayFromNow
  dsimp only
  split
  · exact le_refl _
  · rename_i h
    exact not_lt.mp h

/-- The delay, where the difference does not overflow. -/
theorem delayFromNow_eq {when now : ℤ} (h : InInt64 (when - now)) :
    delayFromNow when now = max 100 (when - now) := by
  unfold delayFromNow
  rw [wrap64_of_fits h]
  dsimp only
  split
  · rename_i hsoon
    exact (max_eq_left (le_of_lt hsoon)).symm
  · rename_i hlate
    exact (max_eq_right (not_lt.mp hlate)).symm

theorem howMuchTimeFromNow_normalised (when now : Timestamp) :
    Normalised (howMuchTimeFromNow when now) := by
  have hpos := delayFromNow_pos when now
  unfold Normalised howMuchTimeFromNow kMicroSecondsPerSecond nanosPerSecond
  simp only [Int.tdiv_eq_ediv_of_nonneg (by omega : 0 ≤ delayFromNow when now),
    Int.tmod_eq_emod_of_nonneg (by omega : 0 ≤ delayFromNow when now)]
  omega

/-- The timespec names exactly the delay it was computed from. -/
theorem howMuchTimeFromNow_micros (when now : Timestamp) :
    (howMuchTimeFromNow when now).micros = delayFromNow when now := by
  have hpos := delayFromNow_pos when now
  unfold Timespec.micros howMuchTimeFromNow kMicroSecondsPerSecond
  simp only [Int.tdiv_eq_ediv_of_nonneg (by omega : 0 ≤ delayFromNow when now),
    Int.tmod_eq_emod_of_nonneg (by omega : 0 ≤ delayFromNow when now)]
  omega

theorem howMuchTimeFromNow_ne_zero (when now : Timestamp) :
    howMuchTimeFromNow when now ≠ ⟨0, 0⟩ := by
  intro h
  have hmicros := howMuchTimeFromNow_micros when now
  have hpos := delayFromNow_pos when now
  rw [h] at hmicros
  simp only [Timespec.micros] at hmicros
  omega

/-- Arming never fails and never disarms. -/
theorem settime_resetTimerfd (fd : Timerfd) (clock expiration : Timestamp) :
    timerfdSettime fd clock (howMuchTimeFromNow expiration clock) =
      resetTimerfd clock expiration := by
  unfold timerfdSettime
  rw [if_neg (not_not.mpr (howMuchTimeFromNow_normalised expiration clock)),
    if_neg (howMuchTimeFromNow_ne_zero expiration clock)]
  rfl

/-- The alarm is set, and rings no later than the given instant or one hundred
microseconds after it was set. -/
def Rings (fd : Timerfd) (expiration : Timestamp) : Prop :=
  ∃ a, fd.alarm = some a ∧ a ≤ max expiration (fd.armedAt + 100)

theorem Rings.later {fd : Timerfd} {e e' : Timestamp} (h : Rings fd e) (hle : e ≤ e') :
    Rings fd e' := by
  obtain ⟨a, ha, hbound⟩ := h
  exact ⟨a, ha, le_trans hbound (max_le_max hle (le_refl _))⟩

theorem resetTimerfd_rings {clock expiration : ℤ} (h : InInt64 (expiration - clock)) :
    Rings (resetTimerfd clock expiration) expiration := by
  refine ⟨_, rfl, ?_⟩
  change clock + (howMuchTimeFromNow expiration clock).micros ≤ max expiration (clock + 100)
  rw [howMuchTimeFromNow_micros, delayFromNow_eq h]
  omega

structure State (φ : Type) where
  timers : TimerRuns.State φ
  clock : Timestamp

def initial : State φ := ⟨TimerRuns.initial, 0⟩

def reading : Input φ → Option Timestamp
  | .addTimerInLoop _ clock => some clock
  | .handleRead now => some now
  | .rearm clock => some clock
  | _ => none

def passed : Input φ → Option Timestamp
  | .newTimer _ _ when _ => some when
  | _ => none

/-- Clock readings are positive and never go back. -/
def Allowed (s : State φ) (i : Input φ) : Prop :=
  TimerRuns.Allowed s.timers i ∧
    (∀ now ∈ reading i, 0 < now ∧ s.clock ≤ now ∧ InInt64 now) ∧ ∀ when ∈ passed i, InInt64 when

instance (s : State φ) (i : Input φ) : Decidable (Allowed s i) :=
  inferInstanceAs (Decidable (_ ∧ _ ∧ _))

def exec (s : State φ) (i : Input φ) : Except Fault (State φ) :=
  (TimerRuns.exec s.timers i).map fun timers => ⟨timers, (reading i).getD s.clock⟩

def system (φ : Type) : System (State φ) (Input φ) Fault where
  start := fun s => s = initial
  allowed := Allowed
  exec := exec

instance (s : State φ) (i : Input φ) : Decidable ((system φ).allowed s i) :=
  inferInstanceAs (Decidable (Allowed s i))

/-- A timer that becomes the first one is not too far in the past for
`howMuchTimeFromNow`. -/
def Near (q : TimerQueue φ) (p : Address) (clock : Timestamp) : Prop :=
  ∀ t ∈ q.heap p, q.earliestChanged t.expirationTimestamp = true →
    InInt64 (t.expirationTimestamp - clock)

/-- The timer that `reset` puts back next gets a valid time. -/
def Restartable (q : TimerQueue φ) : Frame → Prop
  | .resetting now (e :: _) => ∀ t ∈ q.heap e.timer,
      t.isRepeat ∧ activeTimer e.timer t.sequence ∉ q.cancelingTimerSet →
      valid (addTime now t.interval)
  | _ => True

def NoOverflow (s : State φ) : Input φ → Prop
  | .addTimerInLoop p clock => Near s.timers.queue p clock
  | .resetTimer => Restartable s.timers.queue s.timers.queue.frame
  | .newTimer _ _ _ _ | .cancelInLoop _ | .handleRead _ | .runTimer | .endCallbacks | .rearm _ =>
      True

instance (q : TimerQueue φ) : (frame : Frame) → Decidable (Restartable q frame)
  | .idle | .firing _ _ _ | .resetting _ [] => isTrue trivial
  | .resetting now (e :: _) => inferInstanceAs (Decidable (∀ t ∈ q.heap e.timer,
      t.isRepeat ∧ activeTimer e.timer t.sequence ∉ q.cancelingTimerSet →
      valid (addTime now t.interval)))

instance (s : State φ) : (i : Input φ) → Decidable (NoOverflow s i)
  | .addTimerInLoop p clock => inferInstanceAs (Decidable (∀ t ∈ s.timers.queue.heap p,
      s.timers.queue.earliestChanged t.expirationTimestamp = true →
      InInt64 (t.expirationTimestamp - clock)))
  | .resetTimer => inferInstanceAs (Decidable (Restartable s.timers.queue s.timers.queue.frame))
  | .newTimer _ _ _ _ | .cancelInLoop _ | .handleRead _ | .runTimer | .endCallbacks | .rearm _ =>
      isTrue trivial

/-- The queued timer that comes first has an alarm: always between two steps,
and inside `handleRead` when its time is not valid, as the final call of
`resetTimerfd` leaves such a timer alone. -/
def FirstRings (q : TimerQueue φ) : Prop :=
  ∀ e, q.timerList.first? = some e → (q.frame = .idle ∨ e.time ≤ 0) → Rings q.timerfd e.time

def frameNow : Frame → Option Timestamp
  | .idle => none
  | .firing now _ _ => some now
  | .resetting now _ => some now

structure Inv (s : State φ) : Prop where
  tracked : Tracked s.timers
  times : ∀ p t, s.timers.queue.heap p = some t → InInt64 t.expirationTimestamp
  now_pos : ∀ now ∈ frameNow s.timers.queue.frame, 0 < now
  rings : FirstRings s.timers.queue

/-- A step that leaves the alarm alone only has to leave an earlier timer in
front of every timer that it brings to the front. -/
theorem FirstRings.keep {q q' : TimerQueue φ} (h : FirstRings q) (hfd : q'.timerfd = q.timerfd)
    (hidle : q'.frame = .idle → q.frame = .idle)
    (hfirst : ∀ e', q'.timerList.first? = some e' → (q'.frame = .idle ∨ e'.time ≤ 0) →
      ∃ e, q.timerList.first? = some e ∧ e.time ≤ e'.time) : FirstRings q' := by
  intro e' he' hcase
  obtain ⟨e, he, hle⟩ := hfirst e' he' hcase
  rw [hfd]
  refine (h e he ?_).later hle
  rcases hcase with hf | hneg
  · exact Or.inl (hidle hf)
  · exact Or.inr (le_trans hle hneg)

theorem FirstRings.same {q q' : TimerQueue φ} (h : FirstRings q) (hfd : q'.timerfd = q.timerfd)
    (hidle : q'.frame = .idle → q.frame = .idle) (hlist : q'.timerList = q.timerList) :
    FirstRings q' := by
  refine h.keep hfd hidle ?_
  intro e he _
  exact ⟨e, by rw [← hlist, he], le_refl _⟩

theorem time_le_of_le {e e' : Entry} (h : e ≤ e') : e.time ≤ e'.time := by
  rcases (Prod.Lex.le_iff).mp h with hlt | ⟨heq, -⟩
  · exact le_of_lt hlt
  · exact le_of_eq heq

/-- The first timer of a set is no later than any of its timers. -/
theorem first_time_le {s : SortedSet Entry} {e : Entry} (he : e ∈ s) :
    ∃ d, s.first? = some d ∧ d.time ≤ e.time := by
  obtain ⟨d, hd⟩ := exists_first? he
  exact ⟨d, hd, time_le_of_le (first?_le hd he)⟩

theorem earliestChanged_le {q : TimerQueue φ} {when : Timestamp} {e : Entry}
    (h : q.earliestChanged when = true) (he : e ∈ q.timerList) : when ≤ e.time := by
  obtain ⟨d, hd, hle⟩ := first_time_le he
  simp only [earliestChanged, hd, decide_eq_true_eq] at h
  exact le_trans (le_of_lt h) hle

theorem earlier_of_not_changed {q : TimerQueue φ} {when : Timestamp}
    (h : ¬ q.earliestChanged when = true) :
    ∃ d, q.timerList.first? = some d ∧ d.time ≤ when := by
  cases hfirst : q.timerList.first? with
  | none => simp [earliestChanged, hfirst] at h
  | some d =>
    simp only [earliestChanged, hfirst, decide_eq_true_eq, not_lt] at h
    exact ⟨d, rfl, h⟩

/-- Queueing a timer sets the alarm for it or leaves an earlier one in front. -/
theorem addTimerInLoop_rings {q : TimerQueue φ} (h : FirstRings q) (p : Address)
    {clock when : Timestamp} (active : SortedSet ActiveTimer)
    (hnear : q.earliestChanged when = true → InInt64 (when - clock)) :
    FirstRings { q with timerList := (q.timerList.insert (entry when p)).1
                        activeTimerSet := active
                        timerfd := if q.earliestChanged when then resetTimerfd clock when
                          else q.timerfd } := by
  by_cases hchanged : q.earliestChanged when = true
  · simp only [hchanged, if_true]
    intro e he _
    refine (resetTimerfd_rings (hnear hchanged)).later ?_
    rcases mem_insert.mp (first?_mem he) with rfl | hold
    · exact le_refl _
    · exact earliestChanged_le hchanged hold
  · refine h.keep (by simp [hchanged]) id ?_
    intro e he _
    rcases mem_insert.mp (first?_mem he) with rfl | hold
    · exact earlier_of_not_changed hchanged
    · exact first_time_le hold

/-- Taking timers out brings only later ones to the front. -/
theorem FirstRings.shrink {q q' : TimerQueue φ} (h : FirstRings q)
    (hfd : q'.timerfd = q.timerfd) (hframe : q'.frame = q.frame)
    (hlist : ∀ e ∈ q'.timerList, e ∈ q.timerList) : FirstRings q' := by
  refine h.keep hfd (fun hidle => hframe ▸ hidle) ?_
  intro e he _
  exact first_time_le (hlist e (first?_mem he))

/-- What `handleRead` leaves in the list is later than its clock reading. -/
theorem handleRead_rings {q q' : TimerQueue φ} {waiting : List Address} (h : Rep q waiting)
    (hidle : q.frame = .idle) {now : Timestamp} (hpos : 0 < now)
    (hexec : q.handleRead now = .ok q') : FirstRings q' := by
  obtain ⟨active, fd, hok, -⟩ := handleRead_ok h hidle now
  rw [hok, Except.ok.injEq] at hexec
  subst hexec
  intro e he hcase
  obtain ⟨hold, hnot⟩ := mem_fromLowerBound.mp (first?_mem he)
  obtain ⟨t, ht, -⟩ := h.index.listed e.time e.timer hold
  rw [← Entry.eta e, below_sentry (h.memory.address _ _ ht).2] at hnot
  have hneg : e.time ≤ 0 := hcase.resolve_left (by simp)
  exact absurd (le_trans hneg (le_of_lt hpos)) hnot

/-- A restarted timer has a valid time, so it waits for the final call. -/
theorem resetTimer_rings {q q' : TimerQueue φ} {waiting : List Address} (h : Rep q waiting)
    (hrings : FirstRings q) {now : Timestamp} {e : Entry} {todo : List Entry}
    (hframe : q.frame = .resetting now (e :: todo)) (hvalid : Restartable q q.frame)
    (hexec : q.resetTimer = .ok q') : FirstRings q' := by
  obtain ⟨t, ht, hok⟩ := resetTimer_ok h hframe
  rw [hok, Except.ok.injEq] at hexec
  subst hexec
  split
  · rename_i hrepeat
    have hlater : 0 < (t.restart now).expirationTimestamp := by
      rw [hframe] at hvalid
      simp only [Timer.restart, hrepeat.1, if_true]
      exact hvalid t ht hrepeat
    refine hrings.keep rfl (by simp) ?_
    intro d hd hcase
    have hneg : d.time ≤ 0 := hcase.resolve_left (by simp)
    rcases mem_insert.mp (first?_mem hd) with rfl | hold
    · exact absurd hneg (not_le.mpr hlater)
    · exact first_time_le hold
  · exact hrings.same rfl (by simp) rfl

/-- The distance to a valid time does not overflow. -/
theorem rearm_rings {q q' : TimerQueue φ} {waiting : List Address} (h : Rep q waiting)
    (htimes : ∀ p t, q.heap p = some t → InInt64 t.expirationTimestamp) (hrings : FirstRings q)
    {now : Timestamp} {clock : ℤ} (hframe : q.frame = .resetting now []) (hpos : 0 < clock)
    (hclock : InInt64 clock) (hexec : q.rearm clock = .ok q') : FirstRings q' := by
  obtain ⟨fd, hok, hfd⟩ := rearm_ok h hframe clock
  rw [hok, Except.ok.injEq] at hexec
  subst hexec
  intro e he _
  change Rings fd e.time
  rw [hfd e he]
  split
  · rename_i hvalid
    obtain ⟨t, ht, hexp, -⟩ := h.index.listed e.time e.timer (first?_mem he)
    have htime : InInt64 e.time := hexp ▸ htimes e.timer t ht
    have hlater : (0 : ℤ) < e.time := hvalid
    apply resetTimerfd_rings
    unfold InInt64 at hclock htime ⊢
    omega
  · rename_i hinvalid
    exact hrings e he (Or.inr (not_lt.mp hinvalid))

theorem restart_inInt64 (t : Timer φ) (now : Timestamp) :
    InInt64 (t.restart now).expirationTimestamp := by
  unfold Timer.restart
  split
  · exact wrap64_inInt64 _
  · change InInt64 invalid
    decide

section Times

variable {heap : Address → Option (Timer φ)} {p : Address} {t : Timer φ}

theorem times_store (h : ∀ p t, heap p = some t → InInt64 t.expirationTimestamp)
    (ht : InInt64 t.expirationTimestamp) {a : Address} {u : Timer φ}
    (hu : Function.update heap p (some t) a = some u) : InInt64 u.expirationTimestamp := by
  by_cases ha : a = p
  · subst ha
    rw [Function.update_self] at hu
    exact Option.some.inj hu ▸ ht
  · rw [Function.update_of_ne ha] at hu
    exact h a u hu

theorem times_free (h : ∀ p t, heap p = some t → InInt64 t.expirationTimestamp) {a : Address}
    {u : Timer φ} (hu : Function.update heap p none a = some u) :
    InInt64 u.expirationTimestamp := by
  by_cases ha : a = p
  · subst ha
    simp at hu
  · rw [Function.update_of_ne ha] at hu
    exact h a u hu

end Times

theorem initial_inv : Inv (initial : State φ) := by
  refine ⟨initial_tracked, ?_, ?_, ?_⟩
  · intro p t ht
    cases ht
  · intro now hnow
    cases hnow
  · intro e he
    cases he

/-- A step without an overflow keeps the range of the times, the clock reading of
the batch and the alarm of the first timer. -/
theorem step_alarm {s : State φ} (h : Inv s) {i : Input φ} (hallow : Allowed s i)
    (hfits : NoOverflow s i) {timers : TimerRuns.State φ}
    (hexec : TimerRuns.exec s.timers i = .ok timers) :
    (∀ p t, timers.queue.heap p = some t → InInt64 t.expirationTimestamp) ∧
      (∀ now ∈ frameNow timers.queue.frame, 0 < now) ∧ FirstRings timers.queue := by
  obtain ⟨hprogram, hclock, hpassed⟩ := hallow
  have hrep := h.tracked.rep
  have hpos := h.now_pos
  cases exec_moves hrep hprogram hexec with
  | newTimer p cb when interval hfree =>
    refine ⟨?_, hpos, h.rings.same rfl id rfl⟩
    intro a t ht
    exact times_store h.times (hpassed when rfl) ht
  | addTimerInLoop p clock t hp ht =>
    exact ⟨h.times, hpos, addTimerInLoop_rings h.rings p _ (hfits t ht)⟩
  | cancelPresent timerId t hin ht hseq hlist =>
    refine ⟨fun a u hu => times_free h.times hu, hpos, ?_⟩
    exact h.rings.shrink rfl rfl fun e he => (mem_erase.mp he).2
  | cancelAbsent timerId canceling hout => exact ⟨h.times, hpos, h.rings.same rfl id rfl⟩
  | handleRead now active fd hidle =>
    have hnow := (hclock now rfl).1
    refine ⟨h.times, ?_, handleRead_rings hrep hidle hnow (handleRead_of_exec hexec)⟩
    rintro _ ⟨⟩
    exact hnow
  | runTimer now ran e todo t hframe ht =>
    rw [hframe] at hpos
    exact ⟨h.times, hpos, h.rings.same rfl (by simp) rfl⟩
  | endCallbacks now ran hframe =>
    rw [hframe] at hpos
    exact ⟨h.times, hpos, h.rings.same rfl (by simp) rfl⟩
  | restart now e todo t hframe ht hrepeat =>
    rw [hframe] at hpos
    refine ⟨?_, hpos, resetTimer_rings hrep h.rings hframe hfits (resetTimer_of_exec hexec)⟩
    intro a u hu
    exact times_store h.times (restart_inInt64 t now) hu
  | delete now e todo t hframe ht hlast =>
    rw [hframe] at hpos
    exact ⟨fun a u hu => times_free h.times hu, hpos,
      resetTimer_rings hrep h.rings hframe hfits (resetTimer_of_exec hexec)⟩
  | rearm clock now fd hframe =>
    obtain ⟨hclockPos, -, hclockFits⟩ := hclock clock rfl
    refine ⟨h.times, ?_, rearm_rings hrep h.times h.rings hframe hclockPos hclockFits
      (rearm_of_exec hexec)⟩
    intro now hnow
    cases hnow

theorem step_inv {s s' : State φ} (h : Inv s) {i : Input φ} (hallow : Allowed s i)
    (hfits : NoOverflow s i) (hexec : exec s i = .ok s') : Inv s' := by
  obtain ⟨timers, hok, htracked⟩ := step_tracked h.tracked i hallow.1
  obtain ⟨htimes, hnow, hrings⟩ := step_alarm h hallow hfits hok
  simp only [exec, hok, Except.map, Except.ok.injEq] at hexec
  subst hexec
  exact ⟨htracked, htimes, hnow, hrings⟩

theorem reach_inv {s : State φ} (h : Reach (system φ) NoOverflow s) : Inv s := by
  refine h.invariant ?_ ?_
  · rintro _ rfl
    exact initial_inv
  · intro s i s' hs hallow hfits hexec
    exact step_inv hs hallow hfits hexec

/-- In every run without an overflow: between two steps a non-empty queue has its
alarm set, no later than the first expiration or one hundred microseconds after
the last setting. Whatever overflows, every value handed to `timerfd_settime` is
normalised and not zero, so setting it never fails and never disarms. -/
theorem pending_timer_alarmed {s : State φ} (h : Reach (system φ) NoOverflow s) :
    (s.timers.queue.frame = .idle → ∀ e, s.timers.queue.timerList.first? = some e →
      ∃ a, s.timers.queue.timerfd.alarm = some a ∧
        a ≤ max e.time (s.timers.queue.timerfd.armedAt + 100)) ∧
    ∀ (fd : Timerfd) (clock expiration : Timestamp),
      Normalised (howMuchTimeFromNow expiration clock) ∧
      howMuchTimeFromNow expiration clock ≠ ⟨0, 0⟩ ∧
      timerfdSettime fd clock (howMuchTimeFromNow expiration clock) =
        resetTimerfd clock expiration := by
  constructor
  · intro hidle e he
    exact (reach_inv h).rings e he (Or.inl hidle)
  · intro fd clock expiration
    exact ⟨howMuchTimeFromNow_normalised expiration clock,
      howMuchTimeFromNow_ne_zero expiration clock, settime_resetTimerfd fd clock expiration⟩

/-- A callback queues a timer whose time is not positive; the final call of
`resetTimerfd` is skipped and the alarm set by the callback stays. -/
def invalidRun : List (Input Unit) :=
  [.newTimer 16 () 10 ⟨false, 0⟩, .addTimerInLoop 16 1, .handleRead 20, .runTimer,
    .newTimer 32 () (-5) ⟨false, 0⟩, .addTimerInLoop 32 21, .endCallbacks, .resetTimer,
    .rearm 22]

theorem invalidRun_alarmed :
    ∃ s, Reach (system Unit) NoOverflow s ∧ s.timers.queue.timerfd.armedAt = 21 ∧
      ∃ a, s.timers.queue.timerfd.alarm = some a ∧ a ≤ max (-5) (21 + 100) := by
  obtain ⟨s, hs, htest⟩ := exists_of_replay (M := system Unit) (s := initial)
    NoOverflow rfl invalidRun (fun s => decide (atIdle s.timers.queue.frame = true ∧
      s.timers.queue.timerList.first? = some (entry (-5) 32) ∧
      s.timers.queue.timerfd.armedAt = 21)) (by decide)
  obtain ⟨hidle, hfirst, hat⟩ := of_decide_eq_true htest
  refine ⟨s, hs, hat, ?_⟩
  have hrings := (pending_timer_alarmed hs).1 (frame_of_atIdle hidle) _ hfirst
  rw [hat] at hrings
  exact hrings

/-- The first time is so long ago that the distance to it overflows. -/
def longAgo : List (Input Unit) :=
  [.newTimer 16 () (-9223372036854775808) ⟨false, 0⟩, .addTimerInLoop 16 1]

/-- An interval of 292471 years: the time of the next expiration overflows. -/
def longInterval : List (Input Unit) :=
  [.newTimer 16 () 1000000 ⟨true, 9223372036853999616⟩, .addTimerInLoop 16 999000,
    .handleRead 1000000, .runTimer, .endCallbacks, .resetTimer, .rearm 1000001]

/-- The alarm of the one comes hundreds of thousands of years later, the other
waits without an alarm. -/
theorem overflow_unalarmed :
    (∃ s, Reachable (system Unit) s ∧ s.timers.queue.frame = .idle ∧
      s.timers.queue.timerList.first? = some (entry (-9223372036854775808) 16) ∧
      s.timers.queue.timerfd.alarm = some 9223372036854775808 ∧
      ¬ 9223372036854775808 ≤ max (-9223372036854775808)
        (s.timers.queue.timerfd.armedAt + 100)) ∧
    ∃ s, Reachable (system Unit) s ∧ s.timers.queue.frame = .idle ∧
      (∃ e, s.timers.queue.timerList.first? = some e) ∧ s.timers.queue.timerfd.alarm = none := by
  constructor
  · obtain ⟨s, hs, htest⟩ := exists_of_replay (M := system Unit) (s := initial) Free rfl longAgo
      (fun s => decide (atIdle s.timers.queue.frame = true ∧
        s.timers.queue.timerList.first? = some (entry (-9223372036854775808) 16) ∧
        s.timers.queue.timerfd.alarm = some 9223372036854775808 ∧
        s.timers.queue.timerfd.armedAt = 1)) (by decide)
    obtain ⟨hidle, hfirst, halarm, hat⟩ := of_decide_eq_true htest
    refine ⟨s, hs, frame_of_atIdle hidle, hfirst, halarm, ?_⟩
    rw [hat]
    decide
  · obtain ⟨s, hs, htest⟩ := exists_of_replay (M := system Unit) (s := initial) Free rfl
      longInterval (fun s => decide (atIdle s.timers.queue.frame = true ∧
        s.timers.queue.timerList.first?.isSome = true ∧ s.timers.queue.timerfd.alarm = none))
      (by decide)
    obtain ⟨hidle, hfirst, halarm⟩ := of_decide_eq_true htest
    exact ⟨s, hs, frame_of_atIdle hidle, Option.isSome_iff_exists.mp hfirst, halarm⟩

end TinyMuduo.TimerAlarm
