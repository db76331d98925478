import TinyMuduo.ConnectorRuns

/-!
One attempt at a time. An attempt of a Connector is a registered Channel, or a
timer that will start the next one; `stop` ends neither of them, because the
Channel stays registered and the id it cancels names no timer. If every
`startInLoop` that a call of `start` causes, and every `restart`, comes when the
previous attempt has ended, then a Channel and a timer never exist together and
the assertion of `startInLoop` holds, also when a timer runs it.
-/
namespace TinyMuduo.ConnectorRuns

open Connector Poller Channel TimerQueue Checked Runs SortedSet

def todo : Frame → List Entry
  | .firing _ _ todo => todo
  | _ => []

/-- The timers whose callback is still to be run, at least once more. -/
def upcoming {φ : Type} (q : TimerQueue φ) : List Entry := q.timerList.toList ++ todo q.frame

def RetryAt (q : TimerQueue TimerCallback) (p : Address) : Prop :=
  ∃ e ∈ upcoming q, e.timer = p ∧ ∃ t, q.heap p = some t ∧ t.callback = .startInLoop

def RetryPending (c : Connector) : Prop := ∃ p, RetryAt c.timers.queue p

def LiveChannel (c : Connector) : Prop := ∃ ch, c.channel = some ch ∧ c.poller.Registered ch

def Ended (c : Connector) : Prop :=
  c.state ≠ .kConnected ∧ ¬ LiveChannel c ∧ ¬ RetryPending c

/-- `start` is called initially, after a `stop` that follows the previous one,
or after the connection handed over was closed. -/
def StartContract (s : State) : Input → Prop
  | .start _ _ => s.startable = true
  | _ => True

def callerSystem : System State Input Fault :=
  { system with allowed := fun s i => Allowed s i ∧ StartContract s i }

/-- What a call of `start` causes, at once or from the queue, and what a call of
`restart` causes, comes after the end of the previous attempt. -/
def StartsEnded (s : State) : Input → Prop
  | .start thread _ => thread = .loop → Ended s.conn
  | .restart _ => ¬ LiveChannel s.conn ∧ ¬ RetryPending s.conn
  | .functor _ => s.conn.loop.functors.head? = some .startInLoop → Ended s.conn
  | _ => True

/-- A Channel and a timer do not exist together. -/
def OneAttempt (s : State) : Prop := ¬ (LiveChannel s.conn ∧ RetryPending s.conn)

/-- Retry timers fire once, and no timer that waits for its `addTimerInLoop` is
one of them. -/
structure Known (timers : TimerRuns.State TimerCallback) : Prop where
  oneShot : ∀ p t, timers.queue.heap p = some t → t.callback = .startInLoop → t.isRepeat = false
  waiting : ∀ p ∈ timers.waiting, ∀ t, timers.queue.heap p = some t → t.callback = .other

section Timers

variable {timers timers' : TimerRuns.State TimerCallback}

theorem RetryAt.mono {q q' : TimerQueue TimerCallback} {p : Address} (h : RetryAt q' p)
    (hheap : q'.heap p = q.heap p)
    (hupcoming : ∀ e ∈ upcoming q', e.timer = p → e ∈ upcoming q) : RetryAt q p := by
  obtain ⟨e, he, hp, t, ht, hcb⟩ := h
  exact ⟨e, hupcoming e he hp, hp, t, hheap ▸ ht, hcb⟩

theorem Known.same (h : Known timers) (hheap : timers'.queue.heap = timers.queue.heap)
    (hwaiting : ∀ p ∈ timers'.waiting, p ∈ timers.waiting) : Known timers' := by
  refine ⟨?_, ?_⟩
  · rw [hheap]
    exact h.oneShot
  · rw [hheap]
    exact fun p hp => h.waiting p (hwaiting p hp)

theorem Known.free (h : Known timers) {p : Address}
    (hheap : timers'.queue.heap = Function.update timers.queue.heap p none)
    (hwaiting : timers'.waiting = timers.waiting) : Known timers' := by
  have hold : ∀ a t, timers'.queue.heap a = some t → timers.queue.heap a = some t := by
    intro a t ht
    rw [hheap] at ht
    by_cases ha : a = p
    · subst ha
      simp at ht
    · simpa [ha] using ht
  refine ⟨fun a t ht => h.oneShot a t (hold a t ht), ?_⟩
  rw [hwaiting]
  exact fun a ha t ht => h.waiting a ha t (hold a t ht)

/-- A cancel takes timers away at most. -/
theorem cancelInLoop_quiet (h : TimerRuns.Tracked timers) (hknown : Known timers)
    {timerId : TimerId} (hexec : TimerRuns.exec timers (.cancelInLoop timerId) = .ok timers') :
    Known timers' ∧ ∀ p, RetryAt timers'.queue p → RetryAt timers.queue p := by
  by_cases hin : activeTimer timerId.timer timerId.sequence ∈ timers.queue.activeTimerSet
  · obtain ⟨t, -, -, -, hok⟩ := cancelInLoop_present h.rep hin
    rw [TimerRuns.exec_cancelInLoop hok, Except.ok.injEq] at hexec
    subst hexec
    refine ⟨hknown.free rfl rfl, ?_⟩
    intro p hp
    have hne : p ≠ timerId.timer := by
      rintro rfl
      obtain ⟨-, -, -, u, hu, -⟩ := hp
      simp at hu
    refine hp.mono (by simp [hne]) ?_
    intro e he _
    rcases List.mem_append.mp he with he | he
    · exact List.mem_append_left _ (mem_erase.mp he).2
    · exact List.mem_append_right _ he
  · obtain ⟨canceling, hok⟩ := cancelInLoop_absent h.rep hin
    rw [TimerRuns.exec_cancelInLoop hok, Except.ok.injEq] at hexec
    subst hexec
    exact ⟨hknown.same rfl (fun p hp => hp), fun p hp => hp.mono rfl (fun e he _ => he)⟩

/-- `addTimer` of a timer with any callback. -/
theorem newTimer_heap {p : Address} {cb : TimerCallback} {when : Timestamp} {interval : Interval}
    (hexec : TimerRuns.exec timers (.newTimer p cb when interval) = .ok timers') :
    ∃ t, t.callback = cb ∧ t.interval = interval ∧
      timers'.queue.heap = Function.update timers.queue.heap p (some t) ∧
      timers'.waiting = p :: timers.waiting ∧ upcoming timers'.queue = upcoming timers.queue := by
  simp only [TimerRuns.exec, Except.ok.injEq] at hexec
  subst hexec
  exact ⟨_, rfl, rfl, rfl, rfl, rfl⟩

/-- `addTimerInLoop` adds one upcoming timer. -/
theorem addTimerInLoop_upcoming (h : TimerRuns.Tracked timers) {p : Address} {clock : Timestamp}
    (hp : p ∈ timers.waiting)
    (hexec : TimerRuns.exec timers (.addTimerInLoop p clock) = .ok timers') :
    timers'.queue.heap = timers.queue.heap ∧ timers'.waiting = timers.waiting.erase p ∧
      ∀ e ∈ upcoming timers'.queue, e.timer = p ∨ e ∈ upcoming timers.queue := by
  obtain ⟨t, ht, hok⟩ := addTimerInLoop_ok h.rep hp clock
  rw [TimerRuns.exec_addTimerInLoop ht hok, Except.ok.injEq] at hexec
  subst hexec
  refine ⟨rfl, rfl, ?_⟩
  intro e he
  rcases List.mem_append.mp he with he | he
  · rcases mem_insert.mp he with rfl | he
    · exact Or.inl rfl
    · exact Or.inr (List.mem_append_left _ he)
  · exact Or.inr (List.mem_append_right _ he)

/-- One iteration of `reset` does not bring a retry timer back. -/
theorem resetTimer_quiet (h : TimerRuns.Tracked timers) (hknown : Known timers)
    (hallow : TimerRuns.Allowed timers .resetTimer)
    (hexec : TimerRuns.exec timers .resetTimer = .ok timers') :
    Known timers' ∧ ∀ p, RetryAt timers'.queue p → RetryAt timers.queue p := by
  cases TimerRuns.exec_moves h.rep hallow hexec with
  | restart now e rest t hframe ht hrepeat =>
    have hother : t.callback ≠ .startInLoop := by
      intro hcb
      have := hknown.oneShot e.timer t ht hcb
      simp [this] at hrepeat
    have hrestart : (t.restart now).callback = t.callback := by
      unfold Timer.restart
      split <;> rfl
    have hheap : ∀ a u, Function.update timers.queue.heap e.timer (some (t.restart now)) a =
        some u → a ≠ e.timer ∧ timers.queue.heap a = some u ∨ a = e.timer ∧ u.callback ≠
          .startInLoop := by
      intro a u hu
      by_cases ha : a = e.timer
      · subst ha
        rw [Function.update_self, Option.some.injEq] at hu
        subst hu
        exact Or.inr ⟨rfl, hrestart ▸ hother⟩
      · exact Or.inl ⟨ha, by simpa [ha] using hu⟩
    refine ⟨⟨?_, ?_⟩, ?_⟩
    · intro a u hu hcb
      rcases hheap a u hu with ⟨-, hu⟩ | ⟨-, hne⟩
      · exact hknown.oneShot a u hu hcb
      · exact absurd hcb hne
    · intro a ha u hu
      rcases hheap a u hu with ⟨-, hu⟩ | ⟨rfl, -⟩
      · exact hknown.waiting a ha u hu
      · have hout := (h.rep.index.waiting_out _ ha).2
        exact absurd (by simp [hframe, Frame.batch]) hout
    · intro a hretry
      obtain ⟨d, hd, hda, u, hu, hcb⟩ := id hretry
      rcases hheap a u hu with ⟨hne, hold⟩ | ⟨-, hother⟩
      · refine hretry.mono (by simp [hne]) ?_
        intro d hd hda
        rcases List.mem_append.mp hd with hd | hd
        · rcases mem_insert.mp hd with rfl | hd
          · exact absurd hda.symm hne
          · exact List.mem_append_left _ hd
        · simp [todo] at hd
      · exact absurd hcb hother
  | delete now e rest t hframe ht hlast =>
    refine ⟨hknown.free rfl rfl, ?_⟩
    intro a hretry
    have hne : a ≠ e.timer := by
      rintro rfl
      obtain ⟨-, -, -, u, hu, -⟩ := hretry
      simp at hu
    refine hretry.mono (by simp [hne]) ?_
    intro d hd _
    rcases List.mem_append.mp hd with hd | hd
    · exact List.mem_append_left _ hd
    · simp [todo] at hd

theorem newTimer_quiet (hknown : Known timers) {p : Address} {when : Timestamp}
    {interval : Interval} (hexec : TimerRuns.exec timers (.newTimer p .other when interval) =
      .ok timers') :
    Known timers' ∧ ∀ p, RetryAt timers'.queue p → RetryAt timers.queue p := by
  obtain ⟨t, hcb, -, hheap, hwaiting, hupcoming⟩ := newTimer_heap hexec
  have hold : ∀ a u, timers'.queue.heap a = some u →
      (a = p ∧ u.callback = .other) ∨ (a ≠ p ∧ timers.queue.heap a = some u) := by
    intro a u hu
    rw [hheap] at hu
    by_cases ha : a = p
    · subst ha
      rw [Function.update_self, Option.some.injEq] at hu
      exact Or.inl ⟨rfl, hu ▸ hcb⟩
    · exact Or.inr ⟨ha, by simpa [ha] using hu⟩
  refine ⟨⟨?_, ?_⟩, ?_⟩
  · intro a u hu hstart
    rcases hold a u hu with ⟨-, hother⟩ | ⟨-, hu⟩
    · simp [hother] at hstart
    · exact hknown.oneShot a u hu hstart
  · intro a ha u hu
    rcases hold a u hu with ⟨-, hother⟩ | ⟨hne, hu⟩
    · exact hother
    · rw [hwaiting] at ha
      exact hknown.waiting a ((List.mem_cons.mp ha).resolve_left hne) u hu
  · intro a hretry
    obtain ⟨e, he, hea, u, hu, hstart⟩ := id hretry
    rcases hold a u hu with ⟨-, hother⟩ | ⟨hne, -⟩
    · simp [hother] at hstart
    · refine hretry.mono (by simp [hheap, hne]) ?_
      rw [hupcoming]
      exact fun e he _ => he

/-- The steps of others leave no new retry timer. -/
theorem timers_quiet (h : TimerRuns.Tracked timers) (hknown : Known timers)
    {i : TimerRuns.Input TimerCallback} (hallow : TimerRuns.Allowed timers i) (hforeign : Foreign i)
    (hexec : TimerRuns.exec timers i = .ok timers') :
    Known timers' ∧ ∀ p, RetryAt timers'.queue p → RetryAt timers.queue p := by
  cases TimerRuns.exec_moves h.rep hallow hexec with
  | newTimer p cb when interval hfree =>
    obtain rfl : cb = .other := hforeign
    exact newTimer_quiet hknown hexec
  | addTimerInLoop p clock t hp ht =>
    obtain ⟨hheap, hwaiting, hupcoming⟩ := addTimerInLoop_upcoming h hp hexec
    refine ⟨hknown.same hheap ?_, ?_⟩
    · rw [hwaiting]
      exact fun a ha => List.mem_of_mem_erase ha
    · intro a hretry
      obtain ⟨-, -, -, u, hu, hstart⟩ := id hretry
      refine hretry.mono (by rw [hheap]) ?_
      intro e he hea
      rcases hupcoming e he with hp' | he
      · rw [hheap] at hu
        have hother := hknown.waiting p hp u (by rw [← hp', hea]; exact hu)
        simp [hother] at hstart
      · exact he
  | cancelPresent timerId t hin ht hseq hlist => exact cancelInLoop_quiet h hknown hexec
  | cancelAbsent timerId canceling hout => exact cancelInLoop_quiet h hknown hexec
  | handleRead now active fd hidle =>
    refine ⟨hknown.same rfl (fun p hp => hp), fun p hp => hp.mono rfl ?_⟩
    intro e he _
    refine List.mem_append_left _ ?_
    rcases List.mem_append.mp he with he | he
    · exact (mem_fromLowerBound.mp he).1
    · exact (mem_below.mp he).1
  | runTimer now ran e todo t hframe ht => exact absurd hforeign id
  | endCallbacks now ran hframe =>
    refine ⟨hknown.same rfl (fun p hp => hp), fun p hp => hp.mono rfl ?_⟩
    intro e he _
    simpa [upcoming, hframe, todo] using he
  | restart now e todo t hframe ht hrepeat => exact resetTimer_quiet h hknown hallow hexec
  | delete now e todo t hframe ht hlast => exact resetTimer_quiet h hknown hallow hexec
  | rearm clock now fd hframe =>
    refine ⟨hknown.same rfl (fun p hp => hp), fun p hp => hp.mono rfl ?_⟩
    intro e he _
    simpa [upcoming, hframe, todo] using he

/-- A timer that runs is not upcoming any more, and the others are as before. -/
theorem runTimer_quiet (h : TimerRuns.Tracked timers) (hknown : Known timers)
    (hallow : TimerRuns.Allowed timers .runTimer)
    (hexec : TimerRuns.exec timers .runTimer = .ok timers') :
    ∃ p, Known timers' ∧ (∀ a, RetryAt timers'.queue a → RetryAt timers.queue a ∧ a ≠ p) ∧
      (nextCallback timers.queue = some .startInLoop → RetryAt timers.queue p) := by
  obtain ⟨now, ran, e, rest, hframe⟩ := TimerRuns.frame_of_atRun hallow
  obtain ⟨t, ht, hok⟩ := runTimer_ok h.rep hframe
  rw [TimerRuns.exec_runTimer hok, Except.ok.injEq] at hexec
  subst hexec
  refine ⟨e.timer, hknown.same rfl (fun p hp => hp), ?_, ?_⟩
  · intro a hretry
    refine ⟨hretry.mono rfl ?_, ?_⟩
    · intro d hd _
      rcases List.mem_append.mp hd with hd | hd
      · exact List.mem_append_left _ hd
      · refine List.mem_append_right _ ?_
        rw [hframe]
        exact List.mem_cons_of_mem _ hd
    · rintro rfl
      obtain ⟨d, hd, hde, -⟩ := hretry
      have hbatch : timers.queue.frame.batch = ran ++ e :: rest := by rw [hframe]; rfl
      rcases List.mem_append.mp hd with hd | hd
      · refine h.rep.index.batch_out e (by simp [hbatch]) d.time ?_
        rw [← hde]
        exact hd
      · have hnodup := h.rep.index.batch_nodup
        rw [hbatch, List.map_append, List.map_cons] at hnodup
        have hcons := (List.nodup_append.mp hnodup).2.1
        exact (List.nodup_cons.mp hcons).1 (hde ▸ List.mem_map_of_mem hd)
  · intro hnext
    have hcb : t.callback = .startInLoop := by
      simpa [nextCallback, hframe, ht] using hnext
    refine ⟨e, ?_, rfl, t, ht, hcb⟩
    refine List.mem_append_right _ ?_
    rw [hframe]
    exact List.mem_cons_self ..

/-- `retry` adds one retry timer. -/
theorem retryTimers_quiet (h : TimerRuns.Tracked timers) (hknown : Known timers)
    {timer : Address} {now : Timestamp}
    (hfree : (timers.queue.heap timer).isNone = true ∧ 0 < timer ∧ timer < uintptrMax)
    (hadd : RetryTimers timers timer now timers') :
    Known timers' ∧ ∀ p, RetryAt timers'.queue p → p = timer ∨ RetryAt timers.queue p := by
  obtain ⟨when, created, hcreated, hadded⟩ := hadd
  have htracked := timers_tracked h (i := .newTimer timer .startInLoop when ⟨false, 0⟩) hfree
    hcreated
  obtain ⟨t, -, hinterval, hheap, hwaiting, hupcoming⟩ := newTimer_heap hcreated
  obtain ⟨hheap', hwaiting', hupcoming'⟩ :=
    addTimerInLoop_upcoming htracked (by rw [hwaiting]; exact List.mem_cons_self ..) hadded
  have hold : ∀ a u, timers'.queue.heap a = some u →
      (a = timer ∧ u = t) ∨ (a ≠ timer ∧ timers.queue.heap a = some u) := by
    intro a u hu
    rw [hheap', hheap] at hu
    by_cases ha : a = timer
    · subst ha
      rw [Function.update_self, Option.some.injEq] at hu
      exact Or.inl ⟨rfl, hu.symm⟩
    · exact Or.inr ⟨ha, by simpa [ha] using hu⟩
  refine ⟨⟨?_, ?_⟩, ?_⟩
  · intro a u hu hstart
    rcases hold a u hu with ⟨-, rfl⟩ | ⟨-, hu⟩
    · simp [Timer.isRepeat, hinterval]
    · exact hknown.oneShot a u hu hstart
  · intro a ha u hu
    rw [hwaiting', hwaiting, List.erase_cons_head] at ha
    rcases hold a u hu with ⟨rfl, -⟩ | ⟨-, hu⟩
    · obtain ⟨v, hv⟩ := h.rep.index.waiting_live a ha
      simp [hv] at hfree
    · exact hknown.waiting a ha u hu
  · intro a hretry
    by_cases ha : a = timer
    · exact Or.inl ha
    · right
      refine hretry.mono (by rw [hheap', hheap]; simp [ha]) ?_
      intro e he hea
      rcases hupcoming' e he with hp | he
      · exact absurd (hea.symm.trans hp) ha
      · rw [← hupcoming]
        exact he

end Timers

structure Single (c : Connector) : Prop where
  known : Known c.timers
  one : ∀ p p', RetryAt c.timers.queue p → RetryAt c.timers.queue p' → p = p'
  live : LiveChannel c → c.state = .kConnecting
  waiting : RetryPending c → c.state = .kDisconnected ∧ ¬ LiveChannel c

section Functions

variable {c c' : Connector}

/-- No attempt is under way. -/
theorem Single.none (hknown : Known c.timers) (hlive : ¬ LiveChannel c)
    (hretry : ¬ RetryPending c) : Single c :=
  ⟨hknown, fun p _ hp _ => absurd ⟨p, hp⟩ hretry, fun h => absurd h hlive,
    fun h => absurd h hretry⟩

/-- Nothing that an attempt consists of comes up. -/
theorem Single.keep (h : Single c) (hknown : Known c'.timers)
    (hretry : ∀ p, RetryAt c'.timers.queue p → RetryAt c.timers.queue p)
    (hlive : LiveChannel c' ↔ LiveChannel c) (hstate : c'.state = c.state) : Single c' := by
  refine ⟨hknown, fun p p' hp hp' => h.one p p' (hretry p hp) (hretry p' hp'), ?_, ?_⟩
  · rw [hlive, hstate]
    exact h.live
  · rintro ⟨p, hp⟩
    rw [hlive, hstate]
    exact h.waiting ⟨p, hretry p hp⟩

theorem Single.disconnected (hsound : Sound c) (hended : Ended c) : c.state = .kDisconnected := by
  cases hstate : c.state with
  | kDisconnected => rfl
  | kConnected => exact absurd hstate hended.1
  | kConnecting =>
    cases hch : c.channel with
    | none => exact absurd hstate (hsound.empty hch).2
    | some ch =>
      by_cases hreg : c.poller.Registered ch
      · exact absurd ⟨ch, hch, hreg⟩ hended.2.1
      · exact absurd hstate (hsound.gone ch hch hreg).2

theorem retry_single (htracked : TimerRuns.Tracked c.timers) (hknown : Known c.timers)
    (hlive : ¬ LiveChannel c) (hretry : ¬ RetryPending c) {sockfd : ℕ} {timer : Address}
    {now : Timestamp} (hfree : TimerFree c timer) (hexec : c.retry sockfd timer now = .ok c') :
    Single c' := by
  rcases retry_cases hexec with ⟨-, rfl⟩ | ⟨-, timers, hadd, rfl⟩
  · exact Single.none hknown hlive hretry
  · obtain ⟨hknown', honly⟩ := retryTimers_quiet htracked hknown hfree hadd
    have heq : ∀ p, RetryAt timers.queue p → p = timer := by
      intro p hp
      rcases honly p hp with hp | hp
      · exact hp
      · exact absurd ⟨p, hp⟩ hretry
    refine ⟨hknown', ?_, fun h => absurd h hlive, fun _ => ⟨rfl, hlive⟩⟩
    intro p p' hp hp'
    rw [heq p hp, heq p' hp']

/-- An attempt that begins when no other is under way. -/
theorem startInLoop_single (hsound : Sound c) (hknown : Known c.timers)
    (hlive : ¬ LiveChannel c) (hretry : ¬ RetryPending c) {a : Attempt} (hfits : Fits c a)
    (hexec : c.startInLoop a = .ok c') : Single c' := by
  obtain ⟨-, ⟨-, rfl⟩ | ⟨-, -, hconn⟩ | ⟨-, -, hagain⟩ | ⟨-, -, rfl⟩⟩ := startInLoop_cases hexec
  · exact Single.none hknown hlive hretry
  · obtain ⟨-, p, -, rfl⟩ := connecting_ok.mp hconn
    exact ⟨hknown, fun p _ hp _ => absurd ⟨p, hp⟩ hretry, fun _ => rfl,
      fun h => absurd h hretry⟩
  · exact retry_single hsound.timers hknown hlive hretry hfits.2.2 hagain
  · exact Single.none hknown hlive hretry

/-- A Channel that was removed is not live any more. -/
theorem removeAndResetChannel_dead (hsound : Sound c) {t : Connector} {sockfd : ℕ}
    (hexec : c.removeAndResetChannel = .ok (t, sockfd)) : t.timers = c.timers ∧
      ¬ LiveChannel t := by
  obtain ⟨ch, p, q, hch, hp, hq, rfl⟩ := removeAndResetChannel_cases hexec
  have hremoved := removeChannel_removed (change_changed hsound.table hp).table hq
  refine ⟨rfl, ?_⟩
  rintro ⟨d, hd, hreg⟩
  obtain rfl : ch = d := Option.some.inj (hch.symm.trans hd)
  exact ((hremoved.registered ch).mp hreg).1 rfl

theorem handle_single (hsound : Sound c) (h : Single c) {v : Verdict}
    (hfree : TimerFree c v.timer) {cb : Callback} (hexec : c.handle v cb = .ok c') :
    Single c' := by
  -- while an attempt is connecting there is no timer
  have hquiet : c.state = .kConnecting → ¬ RetryPending c := by
    intro hstate hretry
    have hdown := (h.waiting hretry).1
    simp [hstate] at hdown
  have hended : c.state = .kConnecting → ∀ t sockfd,
      c.removeAndResetChannel = .ok (t, sockfd) → TimerRuns.Tracked t.timers ∧ Known t.timers ∧
        ¬ LiveChannel t ∧ ¬ RetryPending t ∧ TimerFree t v.timer := by
    intro hstate t sockfd hremove
    obtain ⟨htimers, hdead⟩ := removeAndResetChannel_dead hsound hremove
    unfold RetryPending TimerFree
    rw [htimers]
    exact ⟨hsound.timers, h.known, hdead, hquiet hstate, hfree⟩
  cases cb with
  | close | read =>
    rw [handle, Except.ok.injEq] at hexec
    subst hexec
    exact h
  | error =>
    obtain ⟨hstate, t, sockfd, hremove, hretry⟩ := handleError_cases hexec
    obtain ⟨htracked, hknown, hdead, hnone, hfree⟩ := hended hstate t sockfd hremove
    exact retry_single htracked hknown hdead hnone hfree hretry
  | write =>
    rcases handleWrite_cases hexec with ⟨-, rfl⟩ | ⟨hstate, t, sockfd, hremove, hend⟩
    · exact h
    · obtain ⟨htracked, hknown, hdead, hnone, hfree⟩ := hended hstate t sockfd hremove
      rcases hend with hretry | rfl | rfl
      · exact retry_single htracked hknown hdead hnone hfree hretry
      · exact Single.none hknown hdead hnone
      · exact Single.none hknown hdead hnone

theorem cancelInLoop_single (hsound : Sound c) (h : Single c) {timerId : TimerId}
    {timers : TimerRuns.State TimerCallback}
    (hexec : TimerRuns.exec c.timers (.cancelInLoop timerId) = .ok timers) :
    Single { c with timers := timers } := by
  obtain ⟨hknown, hquiet⟩ := cancelInLoop_quiet hsound.timers h.known hexec
  exact h.keep hknown hquiet Iff.rfl rfl

/-- A change of no part of an attempt. -/
theorem Single.same (h : Single c) (htimers : c'.timers = c.timers)
    (hlive : LiveChannel c' ↔ LiveChannel c) (hstate : c'.state = c.state) : Single c' := by
  refine h.keep ?_ ?_ hlive hstate
  · rw [htimers]
    exact h.known
  · rw [htimers]
    exact fun p hp => hp

theorem start_single (hsound : Sound c) (h : Single c) {thread : Thread} {a : Attempt}
    (hended : thread = .loop → Ended c) (hfits : Fits c a)
    (hexec : c.start thread a = .ok c') : Single c' := by
  simp only [Connector.start] at hexec
  split at hexec
  · rename_i hloop
    obtain ⟨-, hlive, hretry⟩ := hended hloop
    exact startInLoop_single (hsound.setConnect true) h.known hlive hretry hfits hexec
  · rw [Except.ok.injEq] at hexec
    subst hexec
    exact h.same rfl Iff.rfl rfl

theorem stop_single (hsound : Sound c) (h : Single c) {thread : Thread}
    (hexec : c.stop thread = .ok c') : Single c' := by
  simp only [Connector.stop, Connector.cancel] at hexec
  split at hexec
  · simp only [bind_eq_ok, pure_eq_ok, Except.ok.injEq] at hexec
    obtain ⟨timers, htimers, rfl⟩ := hexec
    have hquiet := cancelInLoop_single hsound h htimers
    exact ⟨hquiet.known, hquiet.one, hquiet.live, hquiet.waiting⟩
  · rw [Except.ok.injEq] at hexec
    subst hexec
    exact h.same rfl Iff.rfl rfl

/-- The retry timer that runs was the only one. -/
theorem runTimer_single (hsound : Sound c) (h : Single c) {a : Attempt}
    {timers : TimerRuns.State TimerCallback} (hallow : TimerRuns.Allowed c.timers .runTimer)
    (hfits : Fits c a) (htimers : TimerRuns.exec c.timers .runTimer = .ok timers)
    (hcb : nextCallback c.timers.queue = some .startInLoop)
    (hexec : { c with timers := timers }.startInLoop a = .ok c') : Single c' := by
  have htracked := timers_tracked hsound.timers hallow htimers
  obtain ⟨p, hknown, hquiet, hnext⟩ := runTimer_quiet hsound.timers h.known hallow htimers
  have hretry : ¬ RetryPending { c with timers := timers } := by
    rintro ⟨a, ha⟩
    obtain ⟨ha, hne⟩ := hquiet a ha
    exact hne (h.one a p ha (hnext hcb))
  exact startInLoop_single (hsound.setTimers htracked) hknown (h.waiting ⟨p, hnext hcb⟩).2 hretry
    (hfits.runTimer hsound.timers hallow htimers) hexec

theorem call_single (hsound : Sound c) (h : Single c) {f : Functor} {rest : List Functor}
    (hf : c.loop.functors = f :: rest) {a : Attempt}
    (hended : f = .startInLoop → Ended c) (hfits : Fits c a)
    (hexec : { c with loop := c.loop.popFunctor }.call a f = .ok c') : Single c' := by
  cases f with
  | startInLoop =>
    obtain ⟨-, hlive, hretry⟩ := hended rfl
    have hpop : Sound { c with loop := c.loop.popFunctor } := by
      refine hsound.setLoop ?_
      rw [EventLoop.queued_popFunctor hf, pendingResets_cons_other (by simp)]
    exact startInLoop_single hpop h.known hlive hretry hfits hexec
  | cancelInLoop timerId =>
    simp only [call, bind_eq_ok, pure_eq_ok, Except.ok.injEq] at hexec
    obtain ⟨timers, htimers, rfl⟩ := hexec
    have hquiet := cancelInLoop_single hsound h htimers
    exact ⟨hquiet.known, hquiet.one, hquiet.live, hquiet.waiting⟩
  | resetChannel queuedFor =>
    rw [call, Except.ok.injEq] at hexec
    subst hexec
    -- a registered Channel has no `resetChannel` queued
    have hgone : ¬ LiveChannel c := by
      rintro ⟨ch, hch, hreg⟩
      have hnone := hsound.live ch hch hreg
      rw [EventLoop.queued_popFunctor hf] at hnone
      simp [pendingResets] at hnone
    refine h.same rfl ?_ rfl
    constructor
    · rintro ⟨ch, hch, -⟩
      simp [resetChannel] at hch
    · intro hlive
      exact absurd hlive hgone
  | other =>
    rw [call, Except.ok.injEq] at hexec
    subst hexec
    exact h.same rfl Iff.rfl rfl

end Functions

theorem initial_single {s : State} (h : Fresh s) : Single s.conn := by
  obtain ⟨poller, timers, -, hreach, hother, rfl⟩ := h
  have hcb : ∀ p t, timers.queue.heap p = some t → t.callback ≠ .startInLoop := by
    intro p t ht
    simp [hother p t ht]
  refine Single.none ⟨?_, ?_⟩ ?_ ?_
  · intro p t ht hstart
    exact absurd hstart (hcb p t ht)
  · intro p _ t ht
    exact hother p t ht
  · rintro ⟨ch, hch, -⟩
    simp [Connector.construct] at hch
  · rintro ⟨p, e, -, -, t, ht, hstart⟩
    exact hcb p t ht hstart

theorem step_single {s s' : State} (hinv : Inv s) (h : Single s.conn) {i : Input}
    (hallow : Allowed s i) (hcond : StartsEnded s i) (hexec : exec s i = .ok s') :
    Single s'.conn := by
  cases step_of_exec hallow hexec with
  | start hstart => exact start_single hinv.sound h hcond hallow.2 hstart
  | restart hrestart =>
    have hreset : Sound { s.conn with
        state := .kDisconnected, retryDelayMs := kInitRetryDelayMs, connect_ := true } :=
      hinv.sound.idle (by simp)
    exact startInLoop_single hreset h.known hcond.1 hcond.2 hallow.2 hrestart
  | stop hstop => exact stop_single hinv.sound h hstop
  | connectionClosed | queueOther | pollTimeout | swapFunctors | endIteration =>
    exact h.same rfl Iff.rfl rfl
  | poll hc =>
    refine h.same rfl ?_ rfl
    unfold LiveChannel
    simp only [registered_setRevents]
  | handleEvent hactive => exact h
  | callback hcurrent hhandle => exact handle_single hinv.sound h hallow.2 hhandle
  | timers htimers =>
    obtain ⟨hknown, hquiet⟩ := timers_quiet hinv.sound.timers h.known hallow.1 hallow.2.2 htimers
    exact h.keep hknown hquiet Iff.rfl rfl
  | runTimer htimers hcb hstart =>
    obtain ⟨hrun, -, hfits⟩ := hallow
    exact runTimer_single hinv.sound h hrun hfits htimers hcb hstart
  | runOther htimers hcb =>
    obtain ⟨p, hknown, hquiet, -⟩ := runTimer_quiet hinv.sound.timers h.known hallow.1 htimers
    exact h.keep hknown (fun a ha => (hquiet a ha).1) Iff.rfl rfl
  | functor hf hcall =>
    refine call_single hinv.sound h hf ?_ hallow.2.2 hcall
    intro hstart
    exact hcond (by simp [hf, hstart])
  | otherChange hp =>
    refine h.same rfl ?_ rfl
    exact exists_congr fun c => and_congr_right fun hc => hinv.sound.otherChange hallow hp c hc
  | otherRemove hp =>
    refine h.same rfl ?_ rfl
    exact exists_congr fun c => and_congr_right fun hc => hinv.sound.otherRemove hallow hp c hc

theorem reach_single {s : State} (h : Reach callerSystem StartsEnded s) :
    Inv s ∧ Single s.conn := by
  refine h.invariant (I := fun s => Inv s ∧ Single s.conn) ?_ ?_
  · intro s hs
    exact ⟨initial_inv hs, initial_single hs⟩
  · rintro s i s' ⟨hinv, hsingle⟩ hallow hcond hexec
    exact ⟨step_inv hinv hallow.1 hexec, step_single hinv hsingle hallow.1 hcond hexec⟩

/-- In every run in which starts come after the end of the previous attempt, a
Channel and a timer never exist together, and the assertion of `startInLoop`
holds in every step. -/
theorem one_attempt_at_a_time {s : State} (h : Reach callerSystem StartsEnded s) :
    OneAttempt s ∧ ∀ i, Allowed s i → StartsEnded s i → exec s i ≠ .error .startState := by
  obtain ⟨hinv, hsingle⟩ := reach_single h
  refine ⟨fun hboth => (hsingle.waiting hboth.2).2 hboth.1, ?_⟩
  intro i hallow hcond hexec
  rcases exec_error hinv hallow hexec with ⟨-, hstarts, hstate⟩ | ⟨hkind, -⟩ | hkind
  · refine hstate ?_
    cases i with
    | start thread a => exact Single.disconnected hinv.sound (hcond hstarts)
    | functor a => exact Single.disconnected hinv.sound (hcond hstarts)
    | runTimer a =>
      obtain ⟨timers, hok, -⟩ := TimerRuns.step_tracked hinv.sound.timers .runTimer hallow.1
      obtain ⟨p, -, -, hnext⟩ :=
        runTimer_quiet hinv.sound.timers hsingle.known hallow.1 hok
      exact (hsingle.waiting ⟨p, hnext hstarts⟩).1
    | restart | stop | connectionClosed | queueOther | poll | handleEvent | callback | timers
    | swapFunctors | endIteration | otherChange | otherRemove =>
      exact absurd hstarts (by simp [Starts])
  · simp at hkind
  · simp [Fault.ofUpdate, Fault.ofRemove] at hkind

instance (c : Connector) : Decidable (RetryPending c) :=
  decidable_of_iff (∃ e ∈ upcoming c.timers.queue,
      (c.timers.queue.heap e.timer).any fun t => t.callback = .startInLoop) <| by
    simp [RetryPending, RetryAt, Option.any_eq_true]

instance (c : Connector) : Decidable (LiveChannel c) :=
  decidable_of_iff (c.channel.any fun ch => c.poller.Registered ch) <| by
    simp [LiveChannel, Option.any_eq_true]

instance (c : Connector) : Decidable (Ended c) :=
  inferInstanceAs (Decidable (c.state ≠ .kConnected ∧ ¬ LiveChannel c ∧ ¬ RetryPending c))

instance (s : State) : (i : Input) → Decidable (StartContract s i)
  | .start _ _ => inferInstanceAs (Decidable (s.startable = true))
  | .restart _ | .stop _ | .connectionClosed | .queueOther | .poll _ | .handleEvent
  | .callback _ | .timers _ | .runTimer _ | .swapFunctors | .functor _ | .endIteration
  | .otherChange _ _ | .otherRemove _ => isTrue trivial

instance (s : State) (i : Input) : Decidable (callerSystem.allowed s i) :=
  inferInstanceAs (Decidable (system.allowed s i ∧ StartContract s i))

instance (s : State) : (i : Input) → Decidable (StartsEnded s i)
  | .start thread _ => inferInstanceAs (Decidable (thread = .loop → Ended s.conn))
  | .restart _ => inferInstanceAs (Decidable (¬ LiveChannel s.conn ∧ ¬ RetryPending s.conn))
  | .functor _ => inferInstanceAs
      (Decidable (s.conn.loop.functors.head? = some .startInLoop → Ended s.conn))
  | .stop _ | .connectionClosed | .queueOther | .poll _ | .handleEvent | .callback _
  | .timers _ | .runTimer _ | .swapFunctors | .endIteration | .otherChange _ _
  | .otherRemove _ => isTrue trivial

/-- The first attempt fails, the retry connects, and after the connection was
closed a restart is refused. -/
def reconnect : List Input :=
  [.start .loop ⟨7, some .EINPROGRESS, 0, 16, 1000⟩, .swapFunctors, .endIteration,
    .poll (some pollErr), .handleEvent, .callback ⟨111, false, 16, 2000⟩, .swapFunctors,
    .functor ⟨8, none, 1, 32, 3000⟩, .endIteration, .poll none, .timers (.handleRead 600000),
    .runTimer ⟨8, none, 1, 32, 600000⟩, .timers .endCallbacks, .timers .resetTimer,
    .timers (.rearm 600001), .swapFunctors, .endIteration, .poll (some pollOut), .handleEvent,
    .callback ⟨0, false, 32, 600002⟩, .swapFunctors, .functor ⟨9, none, 2, 32, 600003⟩,
    .endIteration, .poll none, .connectionClosed,
    .restart ⟨9, some .ECONNREFUSED, 2, 32, 600004⟩]

theorem reconnect_one_attempt : ∃ s, Reach callerSystem StartsEnded s ∧ s.conn.handed = [8] ∧
    RetryPending s.conn ∧ OneAttempt s := by
  obtain ⟨s, hs, htest⟩ := exists_of_replay (M := callerSystem) StartsEnded created_fresh
    reconnect (fun s => decide (s.conn.handed = [8] ∧ RetryPending s.conn)) (by decide)
  obtain ⟨hhanded, hretry⟩ := of_decide_eq_true htest
  exact ⟨s, hs, hhanded, hretry, (one_attempt_at_a_time hs).1⟩

def stopWhileConnecting : List Input :=
  [.start .loop ⟨7, some .EINPROGRESS, 0, 16, 1000⟩, .stop .loop]

theorem stopWhileConnecting_fails : ¬ ∀ s, Reachable callerSystem s →
    OneAttempt s ∧ ∀ i, callerSystem.allowed s i → exec s i ≠ .error .startState := by
  intro hall
  obtain ⟨s, hs, htest⟩ := exists_of_replay (M := callerSystem) Free created_fresh
    stopWhileConnecting
    (fun s => decide (callerSystem.allowed s (.start .loop ⟨8, none, 1, 16, 2000⟩)) &&
      match exec s (.start .loop ⟨8, none, 1, 16, 2000⟩) with
      | .error e => decide (e = .startState)
      | .ok _ => false) (by decide)
  simp only [Bool.and_eq_true, decide_eq_true_eq] at htest
  obtain ⟨hallow, hfault⟩ := htest
  split at hfault
  · rename_i e hexec
    rw [of_decide_eq_true hfault] at hexec
    exact (hall s hs).2 _ hallow hexec
  · simp at hfault

end TinyMuduo.ConnectorRuns
