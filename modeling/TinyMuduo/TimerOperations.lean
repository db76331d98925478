import TinyMuduo.TimerIndex

/-!
Each operation of the timer queue succeeds on a well-represented queue and
leaves it well represented. A successful call is described by the fields it
changed, so that later modules never unfold an operation.
-/
namespace TinyMuduo.TimerQueue

open Checked SortedSet

variable {φ : Type}

def Frame.isFiring : Frame → Bool
  | firing _ _ _ => true
  | _ => false

/-- The representation invariant, for the timers in `waiting` that were
created and whose `addTimerInLoop` has not run. -/
structure Rep (q : TimerQueue φ) (waiting : List Address) : Prop where
  memory : Memory q.heap q.freed q.numCreated
  index : Indexed q.heap q.timerList q.activeTimerSet q.frame.batch waiting
  calling : q.callingExpiredTimers = q.frame.isFiring

theorem initial_rep : Rep (initial : TimerQueue φ) [] := by
  refine ⟨⟨?_, ?_, ?_, ?_, ?_, ?_, ?_⟩, ⟨?_, ?_, ?_, ?_, ?_, ?_, ?_, ?_, ?_, ?_⟩, rfl⟩
  all_goals simp [initial, Frame.batch, SortedSet.size, SortedSet.empty, SortedSet.mem_def]

theorem deref_of_live {q : TimerQueue φ} {p : Address} {t : Timer φ} (h : q.heap p = some t) :
    q.deref p = .ok t := by simp [deref, h]

theorem newTimer_rep {q : TimerQueue φ} {waiting : List Address} (h : Rep q waiting)
    {p : Address} (hfree : q.heap p = none) (hp : 0 < p ∧ p < uintptrMax) (cb : φ)
    (when : Timestamp) (interval : Interval) :
    Rep (q.newTimer p cb when interval).1 (p :: waiting) :=
  ⟨h.memory.alloc hp _ rfl, h.index.alloc hfree _, h.calling⟩

/-- `insert` on a timer that is in neither set. -/
theorem insert_ok {q : TimerQueue φ} {p : Address} {t : Timer φ}
    (hsizes : q.timerList.size = q.activeTimerSet.size) (ht : q.heap p = some t)
    (hlist : entry t.expirationTimestamp p ∉ q.timerList)
    (hactive : activeTimer p t.sequence ∉ q.activeTimerSet) :
    q.insert p = .ok
      ({ q with timerList := (q.timerList.insert (entry t.expirationTimestamp p)).1
                activeTimerSet := (q.activeTimerSet.insert (activeTimer p t.sequence)).1 },
        q.earliestChanged t.expirationTimestamp) := by
  have hafter : (q.timerList.insert (entry t.expirationTimestamp p)).1.size =
      (q.activeTimerSet.insert (activeTimer p t.sequence)).1.size := by
    rw [size_insert hlist, size_insert hactive, hsizes]
  unfold insert
  rw [require_pos _ hsizes, ok_bind, deref_of_live ht, ok_bind]
  dsimp only
  rw [require_pos _ (insert_flag.mpr hlist), ok_bind, require_pos _ (insert_flag.mpr hactive),
    ok_bind, require_pos _ hafter, ok_bind]
  rfl

/-- `addTimerInLoop` queues a waiting timer and sets the alarm for it when it
becomes the first. -/
theorem addTimerInLoop_ok {q : TimerQueue φ} {waiting : List Address} (h : Rep q waiting)
    {p : Address} (hp : p ∈ waiting) (clock : Timestamp) :
    ∃ t, q.heap p = some t ∧ q.addTimerInLoop p clock = .ok
      { q with timerList := (q.timerList.insert (entry t.expirationTimestamp p)).1
               activeTimerSet := (q.activeTimerSet.insert (activeTimer p t.sequence)).1
               timerfd := if q.earliestChanged t.expirationTimestamp
                then resetTimerfd clock t.expirationTimestamp else q.timerfd } := by
  obtain ⟨t, ht⟩ := h.index.waiting_live p hp
  obtain ⟨hout, -⟩ := h.index.waiting_out p hp
  have hinsert := insert_ok h.index.sizes ht (hout _) (h.index.not_active hout _)
  refine ⟨t, ht, ?_⟩
  unfold addTimerInLoop
  rw [hinsert, ok_bind]
  dsimp only
  split
  · simp [deref, ht]
  · rfl

theorem addTimerInLoop_rep {q q' : TimerQueue φ} {waiting : List Address} (h : Rep q waiting)
    {p : Address} (hp : p ∈ waiting) {clock : Timestamp}
    (hexec : q.addTimerInLoop p clock = .ok q') : Rep q' (waiting.erase p) := by
  obtain ⟨t, ht, hok⟩ := addTimerInLoop_ok h hp clock
  rw [hok, Except.ok.injEq] at hexec
  subst hexec
  have hindex := (h.index.enroll ht hp).enqueue t
  rw [entry_timer, ← ht, Function.update_eq_self] at hindex
  exact ⟨h.memory, hindex, h.calling⟩

/-- `cancelInLoop` of a pair that is not in the active set only notes it. -/
theorem cancelInLoop_absent {q : TimerQueue φ} {waiting : List Address} (h : Rep q waiting)
    {timerId : TimerId}
    (hout : activeTimer timerId.timer timerId.sequence ∉ q.activeTimerSet) :
    ∃ canceling, q.cancelInLoop timerId = .ok { q with cancelingTimerSet := canceling } := by
  unfold cancelInLoop
  rw [require_pos _ h.index.sizes, ok_bind]
  dsimp only
  rw [if_neg hout]
  split
  · exact ⟨_, rfl⟩
  · exact ⟨q.cancelingTimerSet, rfl⟩

/-- `cancelInLoop` of a queued timer takes it out of both sets and frees it. -/
theorem cancelInLoop_present {q : TimerQueue φ} {waiting : List Address} (h : Rep q waiting)
    {timerId : TimerId}
    (hin : activeTimer timerId.timer timerId.sequence ∈ q.activeTimerSet) :
    ∃ t, q.heap timerId.timer = some t ∧ t.sequence = timerId.sequence ∧
      entry t.expirationTimestamp timerId.timer ∈ q.timerList ∧
      q.cancelInLoop timerId = .ok
        { q with heap := Function.update q.heap timerId.timer none
                 freed := q.freed ++ [t.sequence]
                 timerList :=
                  (q.timerList.erase (entry t.expirationTimestamp timerId.timer)).1
                 activeTimerSet :=
                  (q.activeTimerSet.erase (activeTimer timerId.timer t.sequence)).1 } := by
  obtain ⟨t, ht, hseq, hlist⟩ := h.index.active _ _ hin
  have hafter := (h.index.dequeue ht hlist).sizes
  refine ⟨t, ht, hseq, hlist, ?_⟩
  unfold cancelInLoop
  rw [require_pos _ h.index.sizes, ok_bind]
  dsimp only
  rw [if_pos hin, deref_of_live ht, ok_bind, require_pos _ (erase_count.mpr hlist), ok_bind]
  unfold delete
  rw [deref_of_live ht, ok_bind, pure_eq_ok, ok_bind, ← hseq]
  dsimp only
  rw [require_pos _ hafter, ok_bind]
  rfl

theorem cancelInLoop_rep {q : TimerQueue φ} {waiting : List Address} (h : Rep q waiting)
    (timerId : TimerId) : ∃ q', q.cancelInLoop timerId = .ok q' ∧ Rep q' waiting := by
  by_cases hin : activeTimer timerId.timer timerId.sequence ∈ q.activeTimerSet
  · obtain ⟨t, ht, -, hlist, hok⟩ := cancelInLoop_present h hin
    exact ⟨_, hok, h.memory.free ht, (h.index.dequeue ht hlist).drop, h.calling⟩
  · obtain ⟨canceling, hok⟩ := cancelInLoop_absent h hin
    exact ⟨_, hok, h.memory, h.index, h.calling⟩

/-- The erasing loop of `getExpired`. -/
theorem eraseActive_ok (q : TimerQueue φ) (es : List Entry) (active : SortedSet ActiveTimer)
    (hlive : ∀ e ∈ es, ∃ t, q.heap e.timer = some t ∧ activeTimer e.timer t.sequence ∈ active)
    (hkey : ∀ p k, activeTimer p k ∈ active → ∃ t, q.heap p = some t ∧ t.sequence = k)
    (hnodup : (es.map Entry.timer).Nodup) :
    ∃ active', q.eraseActive active es = .ok active' ∧
      (∀ p k, activeTimer p k ∈ active' ↔
        activeTimer p k ∈ active ∧ p ∉ es.map Entry.timer) ∧
      active'.size + es.length = active.size := by
  induction es generalizing active with
  | nil => exact ⟨active, rfl, by simp, rfl⟩
  | cons e rest ih =>
    obtain ⟨t, ht, hact⟩ := hlive e (List.mem_cons_self ..)
    rw [List.map_cons, List.nodup_cons] at hnodup
    obtain ⟨active', hok, hmem, hsize⟩ := ih (active.erase (activeTimer e.timer t.sequence)).1
      (by
        intro d hd
        obtain ⟨s, hs, hds⟩ := hlive d (List.mem_cons_of_mem e hd)
        refine ⟨s, hs, mem_erase.mpr ⟨?_, hds⟩⟩
        intro heq
        exact hnodup.1 ((activeTimer_inj.mp heq).1 ▸ List.mem_map_of_mem hd))
      (fun p k hp => hkey p k (mem_erase.mp hp).2) hnodup.2
    refine ⟨active', ?_, ?_, ?_⟩
    · unfold eraseActive
      rw [deref_of_live ht, ok_bind]
      dsimp only
      rw [require_pos _ (erase_count.mpr hact), ok_bind]
      exact hok
    · intro p k
      rw [hmem, mem_erase, List.map_cons, List.mem_cons, not_or]
      constructor
      · rintro ⟨⟨hne, hp⟩, hrest⟩
        refine ⟨hp, ?_, hrest⟩
        rintro rfl
        obtain ⟨s, hs, hk⟩ := hkey _ _ hp
        obtain rfl : t = s := Option.some.inj (ht.symm.trans hs)
        exact hne (by rw [hk])
      · rintro ⟨hp, hne, hrest⟩
        refine ⟨⟨?_, hp⟩, hrest⟩
        intro heq
        exact hne (activeTimer_inj.mp heq).1
    · have h1 := size_erase hact
      rw [List.length_cons]
      omega

/-- The sentry pair separates the expired timers: an entry is below it exactly
when its time has come, because no Timer lives at the largest address. -/
theorem below_sentry {now w : Timestamp} {p : Address} (hp : p < uintptrMax) :
    entry w p < entry now uintptrMax ↔ w ≤ now := by
  unfold entry
  rw [Prod.Lex.toLex_lt_toLex]
  constructor
  · rintro (h | ⟨h, -⟩)
    · exact le_of_lt h
    · exact le_of_eq h
  · intro h
    rcases lt_or_eq_of_le h with h | h
    · exact Or.inl h
    · exact Or.inr ⟨h, hp⟩

/-- `handleRead` moves the expired timers into its batch. -/
theorem handleRead_ok {q : TimerQueue φ} {waiting : List Address} (h : Rep q waiting)
    (hidle : q.frame = .idle) (now : Timestamp) :
    ∃ active' fd, q.handleRead now = .ok
      { q with timerList := q.timerList.fromLowerBound (entry now uintptrMax)
               activeTimerSet := active'
               cancelingTimerSet := .empty
               callingExpiredTimers := true
               timerfd := fd
               frame := .firing now [] (q.timerList.below (entry now uintptrMax)) } ∧
      Indexed q.heap (q.timerList.fromLowerBound (entry now uintptrMax)) active'
        (q.timerList.below (entry now uintptrMax)) waiting := by
  have hindex := h.index
  rw [hidle] at hindex
  have hlisted : ∀ e ∈ q.timerList.below (entry now uintptrMax), e ∈ q.timerList :=
    fun e he => (mem_below.mp he).1
  obtain ⟨active', herase, hmem, hsize⟩ := eraseActive_ok
    { q with timerfd := readTimerfd q.timerfd now } (q.timerList.below (entry now uintptrMax))
    q.activeTimerSet
    (by
      intro e he
      obtain ⟨t, ht, -, hact⟩ := hindex.listed e.time e.timer (hlisted e he)
      exact ⟨t, ht, hact⟩)
    (by
      intro p k hp
      obtain ⟨t, ht, hk, -⟩ := hindex.active p k hp
      exact ⟨t, ht, hk⟩)
    (by
      refine (below_nodup _ _).map_on ?_
      intro d hd e he heq
      exact hindex.entry_unique (hlisted d hd) (hlisted e he) heq)
  have hexpire := hindex.expire (entry now uintptrMax) hmem hsize
  have hlater : ∀ e ∈ (q.timerList.fromLowerBound (entry now uintptrMax)).first?,
      now < e.time := by
    intro e he
    obtain ⟨hl, hnot⟩ := mem_fromLowerBound.mp (first?_mem he)
    obtain ⟨t, ht, -⟩ := hindex.listed e.time e.timer hl
    rw [← Entry.eta e, below_sentry (h.memory.address _ _ ht).2] at hnot
    exact not_le.mp hnot
  refine ⟨active', readTimerfd q.timerfd now, ?_, hexpire⟩
  unfold handleRead getExpired
  dsimp only
  rw [require_pos _ h.index.sizes, ok_bind, require_pos _ hlater, ok_bind, herase, ok_bind,
    require_pos _ hexpire.sizes, ok_bind]
  rfl

theorem handleRead_rep {q q' : TimerQueue φ} {waiting : List Address} (h : Rep q waiting)
    (hidle : q.frame = .idle) {now : Timestamp} (hexec : q.handleRead now = .ok q') :
    Rep q' waiting := by
  obtain ⟨active', fd, hok, hindex⟩ := handleRead_ok h hidle now
  rw [hok, Except.ok.injEq] at hexec
  subst hexec
  exact ⟨h.memory, hindex, rfl⟩

theorem runTimer_ok {q : TimerQueue φ} {waiting : List Address} (h : Rep q waiting)
    {now : Timestamp} {ran todo : List Entry} {e : Entry}
    (hframe : q.frame = .firing now ran (e :: todo)) :
    ∃ t, q.heap e.timer = some t ∧
      q.runTimer = .ok ({ q with frame := .firing now (ran ++ [e]) todo }, some t) := by
  obtain ⟨t, ht, -⟩ := h.index.batch_live e (by simp [hframe, Frame.batch])
  refine ⟨t, ht, ?_⟩
  unfold runTimer
  rw [hframe]
  dsimp only
  rw [deref_of_live ht, ok_bind]
  rfl

theorem runTimer_rep {q : TimerQueue φ} {waiting : List Address} (h : Rep q waiting)
    {now : Timestamp} {ran todo : List Entry} {e : Entry}
    (hframe : q.frame = .firing now ran (e :: todo)) :
    Rep { q with frame := .firing now (ran ++ [e]) todo } waiting := by
  refine ⟨h.memory, ?_, ?_⟩
  · have hindex := h.index
    rw [hframe] at hindex
    simpa [Frame.batch] using hindex
  · rw [h.calling, hframe]
    rfl

theorem endCallbacks_eq {q : TimerQueue φ} {now : Timestamp} {ran : List Entry}
    (hframe : q.frame = .firing now ran []) :
    q.endCallbacks = { q with callingExpiredTimers := false, frame := .resetting now ran } := by
  simp [endCallbacks, hframe]

theorem endCallbacks_rep {q : TimerQueue φ} {waiting : List Address} (h : Rep q waiting)
    {now : Timestamp} {ran : List Entry} (hframe : q.frame = .firing now ran []) :
    Rep q.endCallbacks waiting := by
  rw [endCallbacks_eq hframe]
  refine ⟨h.memory, ?_, rfl⟩
  have hindex := h.index
  rw [hframe] at hindex
  simpa [Frame.batch] using hindex

/-- One iteration of `reset`: a repeating timer that was not cancelled goes
back with a new expiration, every other one is deleted. -/
theorem resetTimer_ok {q : TimerQueue φ} {waiting : List Address} (h : Rep q waiting)
    {now : Timestamp} {todo : List Entry} {e : Entry}
    (hframe : q.frame = .resetting now (e :: todo)) :
    ∃ t, q.heap e.timer = some t ∧ q.resetTimer = .ok
      (if t.isRepeat ∧ activeTimer e.timer t.sequence ∉ q.cancelingTimerSet then
        { q with heap := Function.update q.heap e.timer (some (t.restart now))
                 timerList := (q.timerList.insert
                  (entry (t.restart now).expirationTimestamp e.timer)).1
                 activeTimerSet := (q.activeTimerSet.insert
                  (activeTimer e.timer (t.restart now).sequence)).1
                 frame := .resetting now todo }
      else
        { q with heap := Function.update q.heap e.timer none
                 freed := q.freed ++ [t.sequence]
                 frame := .resetting now todo }) := by
  have hmem : e ∈ q.frame.batch := by simp [hframe, Frame.batch]
  obtain ⟨t, ht, -⟩ := h.index.batch_live e hmem
  have hout := h.index.batch_out e hmem
  refine ⟨t, ht, ?_⟩
  unfold resetTimer
  rw [hframe]
  dsimp only
  rw [deref_of_live ht, ok_bind]
  split
  · have hinsert := insert_ok
      (q := { q with heap := Function.update q.heap e.timer (some (t.restart now))
                     frame := .resetting now (e :: todo) })
      (t := t.restart now) h.index.sizes (Function.update_self ..) (hout _)
      (h.index.not_active hout _)
    rw [hinsert]
    rfl
  · unfold delete
    rw [deref_of_live ht]
    simp

theorem restart_sequence (t : Timer φ) (now : Timestamp) :
    (t.restart now).sequence = t.sequence := by
  unfold Timer.restart
  split <;> rfl

theorem resetTimer_rep {q q' : TimerQueue φ} {waiting : List Address} (h : Rep q waiting)
    {now : Timestamp} {todo : List Entry} {e : Entry}
    (hframe : q.frame = .resetting now (e :: todo)) (hexec : q.resetTimer = .ok q') :
    Rep q' waiting := by
  obtain ⟨t, ht, hok⟩ := resetTimer_ok h hframe
  have hindex := h.index
  rw [hframe] at hindex
  rw [hok, Except.ok.injEq] at hexec
  subst hexec
  split
  · exact ⟨h.memory.replace ht (restart_sequence t now), hindex.enqueue (t.restart now), by
      rw [h.calling, hframe]
      rfl⟩
  · exact ⟨h.memory.free ht, hindex.drop, by
      rw [h.calling, hframe]
      rfl⟩

/-- The end of `reset` sets the alarm for the first timer when its time is valid. -/
theorem rearm_ok {q : TimerQueue φ} {waiting : List Address} (h : Rep q waiting)
    {now : Timestamp} (hframe : q.frame = .resetting now []) (clock : Timestamp) :
    ∃ fd, q.rearm clock = .ok { q with timerfd := fd, frame := .idle } ∧
      ∀ e, q.timerList.first? = some e →
        fd = if valid e.time then resetTimerfd clock e.time else q.timerfd := by
  unfold rearm
  rw [hframe]
  dsimp only
  cases hfirst : q.timerList.first? with
  | none => exact ⟨q.timerfd, rfl, by simp⟩
  | some e =>
    obtain ⟨t, ht, hexp, -⟩ := h.index.listed e.time e.timer (first?_mem hfirst)
    simp only [deref_of_live ht, Functor.map, Except.map, ok_bind, hexp]
    split
    · rename_i hvalid
      refine ⟨_, rfl, ?_⟩
      rintro d ⟨⟩
      rw [if_pos hvalid]
    · rename_i hinvalid
      refine ⟨q.timerfd, rfl, ?_⟩
      rintro d ⟨⟩
      rw [if_neg hinvalid]

theorem rearm_rep {q q' : TimerQueue φ} {waiting : List Address} (h : Rep q waiting)
    {now : Timestamp} (hframe : q.frame = .resetting now []) {clock : Timestamp}
    (hexec : q.rearm clock = .ok q') : Rep q' waiting := by
  obtain ⟨fd, hok, -⟩ := rearm_ok h hframe clock
  have hindex := h.index
  rw [hframe] at hindex
  rw [hok, Except.ok.injEq] at hexec
  subst hexec
  exact ⟨h.memory, hindex, by rw [h.calling, hframe]; rfl⟩

end TinyMuduo.TimerQueue
