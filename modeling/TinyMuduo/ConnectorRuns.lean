import TinyMuduo.Connector
import TinyMuduo.Lib.Runs
import TinyMuduo.PollerTable

/-!
Runs of a Connector. Any thread calls `start` and `stop`; the loop thread polls,
handles the active Channels one after the other, runs timers inside
`TimerQueue::handleRead`, and calls the queued functors in their order. Code of
others runs in between and may call `start`, `stop` and `restart` as well. In
every run the Connector's Channel is either registered, or removed with one
`resetChannel` queued for it.
-/
namespace TinyMuduo.ConnectorRuns

open Connector Poller Channel TimerQueue Checked Runs

structure State where
  conn : Connector
  /-- the Connector's Channel, when it is among the active ones and not handled yet -/
  active : Option ChannelId
  current : List Callback
  /-- `start` was not called yet, or `stop` was called since, or the connection
  was closed since -/
  startable : Bool
  /-- how many of the connections handed over were closed -/
  closes : ℕ

inductive Input
  | start (thread : Thread) (a : Attempt)
  | restart (a : Attempt)
  | stop (thread : Thread)
  | connectionClosed
  | queueOther
  | poll (revents : Option EventMask)
  | handleEvent
  | callback (v : Verdict)
  | timers (i : TimerRuns.Input TimerCallback)
  | runTimer (a : Attempt)
  | swapFunctors
  | functor (a : Attempt)
  | endIteration
  | otherChange (d : ChannelId) (interest : Interest)
  | otherRemove (d : ChannelId)

def OnLoop (s : State) : Prop :=
  s.conn.loop.phase ≠ .polling ∧ s.current = [] ∧ s.conn.timers.queue.frame.UserCode

def MayCall (s : State) : Thread → Prop
  | .loop => OnLoop s
  | .other _ => True

/-- The allocator and the kernel return what is not in use. -/
def TimerFree (c : Connector) (timer : Address) : Prop :=
  (c.timers.queue.heap timer).isNone = true ∧ 0 < timer ∧ timer < uintptrMax

def Fits (c : Connector) (a : Attempt) : Prop :=
  ¬ c.poller.Registered a.channel ∧ c.poller.channelMap.find a.sockfd = none ∧
    TimerFree c a.timer

/-- The steps of the timer queue that belong to others. All TimerIds are made
without a sequence number. -/
def Foreign : TimerRuns.Input TimerCallback → Prop
  | .newTimer _ cb _ _ => cb = .other
  | .cancelInLoop timerId => timerId.sequence = 0
  | .runTimer => False
  | .addTimerInLoop _ _ | .handleRead _ | .endCallbacks | .resetTimer | .rearm _ => True

/-- Any thread creates timers; `handleRead` runs when its Channel is handled. -/
def TimerTurn (s : State) : TimerRuns.Input TimerCallback → Prop
  | .newTimer _ _ _ _ => True
  | .addTimerInLoop _ _ | .cancelInLoop _ => s.conn.loop.phase ≠ .polling ∧ s.current = []
  | .handleRead _ | .runTimer | .endCallbacks | .resetTimer | .rearm _ =>
      s.conn.loop.phase = .handling ∧ s.current = []

def Allowed (s : State) : Input → Prop
  | .start thread a => MayCall s thread ∧ Fits s.conn a
  | .restart a => OnLoop s ∧ Fits s.conn a
  | .stop thread => MayCall s thread
  | .connectionClosed => s.closes < s.conn.handed.length
  | .queueOther => True
  | .poll none => s.conn.loop.phase = .polling
  | .poll (some _) => s.conn.loop.phase = .polling ∧
      ∃ c ∈ s.conn.channel, s.conn.poller.Registered c ∧
        (s.conn.poller.channels c).events ≠ kNoneEvent
  | .handleEvent => s.conn.loop.phase = .handling ∧ s.current = [] ∧ s.active ≠ none ∧
      TimerRuns.atIdle s.conn.timers.queue.frame
  | .callback v => s.current ≠ [] ∧ TimerFree s.conn v.timer
  | .timers i => TimerRuns.Allowed s.conn.timers i ∧ TimerTurn s i ∧ Foreign i
  | .runTimer a => TimerRuns.Allowed s.conn.timers .runTimer ∧ TimerTurn s .runTimer ∧
      Fits s.conn a
  | .swapFunctors => s.conn.loop.phase = .handling ∧ s.current = [] ∧ s.active = none ∧
      TimerRuns.atIdle s.conn.timers.queue.frame
  | .functor a => s.conn.loop.phase = .calling ∧ s.conn.loop.functors ≠ [] ∧ Fits s.conn a
  | .endIteration => s.conn.loop.phase = .calling ∧ s.conn.loop.functors = []
  | .otherChange d _ | .otherRemove d => s.conn.channel ≠ some d

def nextCallback (q : TimerQueue TimerCallback) : Option TimerCallback :=
  match q.frame with
  | .firing _ _ (e :: _) => (q.heap e.timer).map Timer.callback
  | _ => none

def exec (s : State) : Input → Except Fault State
  | .start thread a => do
      let conn ← s.conn.start thread a
      return { s with conn := conn, startable := false }
  | .restart a => do
      let conn ← s.conn.restart a
      return { s with conn := conn }
  | .stop thread => do
      let conn ← s.conn.stop thread
      return { s with conn := conn, startable := true }
  | .connectionClosed => .ok { s with startable := true, closes := s.closes + 1 }
  | .queueOther => .ok { s with conn := s.conn.queueInLoop .other }
  | .poll none => .ok { s with conn := { s.conn with loop := s.conn.loop.handleActive } }
  | .poll (some revents) =>
      match s.conn.channel with
      | none => .ok s
      | some c =>
          .ok { s with conn := { s.conn with loop := s.conn.loop.handleActive
                                             poller := s.conn.poller.setRevents c revents }
                       active := some c }
  | .handleEvent =>
      match s.active with
      | none => .ok s
      | some c => .ok { s with active := none
                               current := handleEvent bound (s.conn.poller.channels c).revents }
  | .callback v =>
      match s.current with
      | [] => .ok s
      | cb :: rest => do
          let conn ← s.conn.handle v cb
          return { s with conn := conn, current := rest }
  | .timers i => do
      let timers ← TimerRuns.exec s.conn.timers i
      return { s with conn := { s.conn with timers := timers } }
  | .runTimer a => do
      let cb := nextCallback s.conn.timers.queue
      let timers ← TimerRuns.exec s.conn.timers .runTimer
      let conn := { s.conn with timers := timers }
      if cb = some .startInLoop then
        let conn ← conn.startInLoop a
        return { s with conn := conn }
      else return { s with conn := conn }
  | .swapFunctors => .ok { s with conn := { s.conn with loop := s.conn.loop.swapFunctors } }
  | .functor a =>
      match s.conn.loop.functors with
      | [] => .ok s
      | cb :: _ => do
          let conn ← { s.conn with loop := s.conn.loop.popFunctor }.call a cb
          return { s with conn := conn }
  | .endIteration => .ok { s with conn := { s.conn with loop := s.conn.loop.endIteration } }
  | .otherChange d interest => do
      let poller ← s.conn.poller.change d interest
      return { s with conn := { s.conn with poller := poller } }
  | .otherRemove d => do
      let poller ← s.conn.poller.removeChannel d
      return { s with conn := { s.conn with poller := poller } }

/-- A Connector that was just constructed, in a loop with any Channels and any
timers of others. -/
def Fresh (s : State) : Prop :=
  ∃ poller timers, Table poller ∧ Reachable (TimerRuns.system TimerCallback) timers ∧
    (∀ p t, timers.queue.heap p = some t → t.callback = .other) ∧
    s = ⟨Connector.construct poller timers, none, [], true, 0⟩

def system : System State Input Fault where
  start := Fresh
  allowed := Allowed
  exec := exec

instance (s : State) : Decidable (OnLoop s) :=
  inferInstanceAs (Decidable (s.conn.loop.phase ≠ .polling ∧ s.current = [] ∧
    s.conn.timers.queue.frame.UserCode))

instance (s : State) : (thread : Thread) → Decidable (MayCall s thread)
  | .loop => inferInstanceAs (Decidable (OnLoop s))
  | .other _ => isTrue trivial

instance (c : Connector) (timer : Address) : Decidable (TimerFree c timer) :=
  inferInstanceAs (Decidable ((c.timers.queue.heap timer).isNone = true ∧ 0 < timer ∧
    timer < uintptrMax))

instance (c : Connector) (a : Attempt) : Decidable (Fits c a) :=
  inferInstanceAs (Decidable (¬ c.poller.Registered a.channel ∧
    c.poller.channelMap.find a.sockfd = none ∧ TimerFree c a.timer))

instance : (i : TimerRuns.Input TimerCallback) → Decidable (Foreign i)
  | .newTimer _ cb _ _ => inferInstanceAs (Decidable (cb = .other))
  | .cancelInLoop timerId => inferInstanceAs (Decidable (timerId.sequence = 0))
  | .runTimer => isFalse id
  | .addTimerInLoop _ _ | .handleRead _ | .endCallbacks | .resetTimer | .rearm _ =>
      isTrue trivial

instance (s : State) : (i : TimerRuns.Input TimerCallback) → Decidable (TimerTurn s i)
  | .newTimer _ _ _ _ => isTrue trivial
  | .addTimerInLoop _ _ | .cancelInLoop _ =>
      inferInstanceAs (Decidable (s.conn.loop.phase ≠ .polling ∧ s.current = []))
  | .handleRead _ | .runTimer | .endCallbacks | .resetTimer | .rearm _ =>
      inferInstanceAs (Decidable (s.conn.loop.phase = .handling ∧ s.current = []))

instance (s : State) : (i : Input) → Decidable (system.allowed s i)
  | .start thread a => inferInstanceAs (Decidable (MayCall s thread ∧ Fits s.conn a))
  | .restart a => inferInstanceAs (Decidable (OnLoop s ∧ Fits s.conn a))
  | .stop thread => inferInstanceAs (Decidable (MayCall s thread))
  | .connectionClosed => inferInstanceAs (Decidable (s.closes < s.conn.handed.length))
  | .queueOther => isTrue trivial
  | .poll none => inferInstanceAs (Decidable (s.conn.loop.phase = .polling))
  | .poll (some _) => inferInstanceAs (Decidable (s.conn.loop.phase = .polling ∧
      ∃ c ∈ s.conn.channel, s.conn.poller.Registered c ∧
        (s.conn.poller.channels c).events ≠ kNoneEvent))
  | .handleEvent => inferInstanceAs (Decidable (s.conn.loop.phase = .handling ∧
      s.current = [] ∧ s.active ≠ none ∧ TimerRuns.atIdle s.conn.timers.queue.frame = true))
  | .callback v => inferInstanceAs (Decidable (s.current ≠ [] ∧ TimerFree s.conn v.timer))
  | .timers i => inferInstanceAs
      (Decidable (TimerRuns.Allowed s.conn.timers i ∧ TimerTurn s i ∧ Foreign i))
  | .runTimer a => inferInstanceAs (Decidable (TimerRuns.Allowed s.conn.timers .runTimer ∧
      TimerTurn s .runTimer ∧ Fits s.conn a))
  | .swapFunctors => inferInstanceAs (Decidable (s.conn.loop.phase = .handling ∧
      s.current = [] ∧ s.active = none ∧ TimerRuns.atIdle s.conn.timers.queue.frame = true))
  | .functor a => inferInstanceAs (Decidable (s.conn.loop.phase = .calling ∧
      s.conn.loop.functors ≠ [] ∧ Fits s.conn a))
  | .endIteration => inferInstanceAs (Decidable (s.conn.loop.phase = .calling ∧
      s.conn.loop.functors = []))
  | .otherChange d _ | .otherRemove d => inferInstanceAs (Decidable (s.conn.channel ≠ some d))

def pendingResets (queue : List Functor) : List ChannelId :=
  queue.filterMap fun f => match f with
    | .resetChannel c => some c
    | _ => none

theorem pendingResets_append (a b : List Functor) :
    pendingResets (a ++ b) = pendingResets a ++ pendingResets b := by
  simp [pendingResets]

theorem pendingResets_cons_other {f : Functor} (hf : ∀ c, f ≠ .resetChannel c)
    (rest : List Functor) : pendingResets (f :: rest) = pendingResets rest := by
  cases f with
  | resetChannel c => exact absurd rfl (hf c)
  | startInLoop | cancelInLoop | other => rfl

theorem pendingResets_queueInLoop {f : Functor} (hf : ∀ c, f ≠ .resetChannel c)
    (loop : EventLoop Functor) :
    pendingResets (loop.queueInLoop f).queued = pendingResets loop.queued := by
  rw [EventLoop.queued_queueInLoop, pendingResets_append, pendingResets_cons_other hf]
  exact List.append_nil _

/-- A Channel that is not registered any more is the one for which the only
queued `resetChannel` was queued, and an attempt is under way only with a
registered Channel. -/
structure Sound (c : Connector) : Prop where
  timers : TimerRuns.Tracked c.timers
  table : Table c.poller
  empty : c.channel = none → pendingResets c.loop.queued = [] ∧ c.state ≠ .kConnecting
  live : ∀ ch, c.channel = some ch → c.poller.Registered ch → pendingResets c.loop.queued = []
  gone : ∀ ch, c.channel = some ch → ¬ c.poller.Registered ch →
    pendingResets c.loop.queued = [ch] ∧ c.state ≠ .kConnecting
  resets : ∀ r ∈ c.resets, r.destroyed = some r.queuedFor ∧ r.registered = false

def Steady (c c' : Connector) : Prop :=
  c'.loop.phase = c.loop.phase ∧ c'.loop.functors = c.loop.functors

namespace Sound

variable {c c' : Connector}

/-- What no part of the invariant reads. -/
theorem idle (h : Sound c) {connect_ : Bool} {state : States} (hstate : state ≠ .kConnecting)
    {delay : ℕ} {closed handed : List ℕ} {timerId : TimerId} :
    Sound { c with connect_ := connect_, state := state, retryDelayMs := delay
                   closed := closed, handed := handed, timerId := timerId } :=
  ⟨h.timers, h.table, fun hnone => ⟨(h.empty hnone).1, hstate⟩, h.live,
    fun ch hch hgone => ⟨(h.gone ch hch hgone).1, hstate⟩, h.resets⟩

theorem setConnect (h : Sound c) (connect_ : Bool) : Sound { c with connect_ := connect_ } :=
  ⟨h.timers, h.table, h.empty, h.live, h.gone, h.resets⟩

theorem setTimers (h : Sound c) {timers : TimerRuns.State TimerCallback}
    (htimers : TimerRuns.Tracked timers) : Sound { c with timers := timers } :=
  ⟨htimers, h.table, h.empty, h.live, h.gone, h.resets⟩

theorem setLoop (h : Sound c) {loop : EventLoop Functor}
    (hqueued : pendingResets loop.queued = pendingResets c.loop.queued) :
    Sound { c with loop := loop } := by
  refine ⟨h.timers, h.table, ?_, ?_, ?_, h.resets⟩
  · intro hnone
    exact ⟨hqueued.trans (h.empty hnone).1, (h.empty hnone).2⟩
  · intro ch hch hreg
    exact hqueued.trans (h.live ch hch hreg)
  · intro ch hch hreg
    exact ⟨hqueued.trans (h.gone ch hch hreg).1, (h.gone ch hch hreg).2⟩

/-- The poller changes and the Connector's Channel stays where it is. -/
theorem setPoller (h : Sound c) {p : Poller} (htable : Table p)
    (hreg : ∀ ch, c.channel = some ch → (p.Registered ch ↔ c.poller.Registered ch)) :
    Sound { c with poller := p } := by
  refine ⟨h.timers, htable, h.empty, ?_, ?_, h.resets⟩
  · intro ch hch hlive
    exact h.live ch hch ((hreg ch hch).mp hlive)
  · intro ch hch hgone
    exact h.gone ch hch (fun hlive => hgone ((hreg ch hch).mpr hlive))

/-- A change of another Channel's interest keeps the registration. -/
theorem otherChange (h : Sound c) {d : ChannelId} (hother : c.channel ≠ some d)
    {interest : Interest} {p : Poller} (hp : c.poller.change d interest = .ok p) (ch : ChannelId)
    (hch : c.channel = some ch) : p.Registered ch ↔ c.poller.Registered ch := by
  apply (change_changed h.table hp).registered_other
  rintro rfl
  exact hother hch

theorem otherRemove (h : Sound c) {d : ChannelId} (hother : c.channel ≠ some d) {p : Poller}
    (hp : c.poller.removeChannel d = .ok p) (ch : ChannelId) (hch : c.channel = some ch) :
    p.Registered ch ↔ c.poller.Registered ch := by
  apply (removeChannel_removed h.table hp).registered_other
  rintro rfl
  exact hother hch

end Sound

theorem Steady.refl (c : Connector) : Steady c c := ⟨rfl, rfl⟩

section Functions

variable {c c' : Connector}

theorem timers_tracked {timers timers' : TimerRuns.State TimerCallback}
    (h : TimerRuns.Tracked timers) {i : TimerRuns.Input TimerCallback}
    (hallow : TimerRuns.Allowed timers i) (hexec : TimerRuns.exec timers i = .ok timers') :
    TimerRuns.Tracked timers' := by
  obtain ⟨t, ht, htracked⟩ := TimerRuns.step_tracked h i hallow
  obtain rfl : t = timers' := Except.ok.inj (ht.symm.trans hexec)
  exact htracked

theorem runTimer_heap {timers timers' : TimerRuns.State TimerCallback}
    (h : TimerRuns.Tracked timers) (hallow : TimerRuns.Allowed timers .runTimer)
    (hexec : TimerRuns.exec timers .runTimer = .ok timers') :
    timers'.queue.heap = timers.queue.heap := by
  obtain ⟨now, ran, e, todo, hframe⟩ := TimerRuns.frame_of_atRun hallow
  obtain ⟨t, -, hok⟩ := runTimer_ok h.rep hframe
  rw [TimerRuns.exec_runTimer hok, Except.ok.injEq] at hexec
  subst hexec
  rfl

/-- The timer that runs is deleted after its callback only. -/
theorem Fits.runTimer {timers : TimerRuns.State TimerCallback} {a : Attempt} (hfits : Fits c a)
    (h : TimerRuns.Tracked c.timers) (hallow : TimerRuns.Allowed c.timers .runTimer)
    (hexec : TimerRuns.exec c.timers .runTimer = .ok timers) :
    Fits { c with timers := timers } a := by
  refine ⟨hfits.1, hfits.2.1, ?_⟩
  unfold TimerFree
  rw [runTimer_heap h hallow hexec]
  exact hfits.2.2

/-- The two halves of `addTimer`, on the loop thread. -/
theorem retryTimers_tracked {timers created : TimerRuns.State TimerCallback} {timer : Address}
    {when : Timestamp} {cb : TimerCallback} {interval : Interval} (h : TimerRuns.Tracked timers)
    (hfree : (timers.queue.heap timer).isNone = true ∧ 0 < timer ∧ timer < uintptrMax)
    (hcreated : TimerRuns.exec timers (.newTimer timer cb when interval) = .ok created)
    (now : Timestamp) : ∃ timers', TimerRuns.exec created (.addTimerInLoop timer now) =
      .ok timers' ∧ TimerRuns.Tracked timers' := by
  have htracked := timers_tracked h (i := .newTimer timer cb when interval) hfree hcreated
  refine TimerRuns.addTimerInLoop_tracked htracked ?_ now
  rw [← Except.ok.inj hcreated]
  exact List.mem_cons_self ..

theorem retry_sound {sockfd : ℕ} {timer : Address} {now : Timestamp}
    (h : Sound (abandoned c sockfd)) (hfree : TimerFree c timer)
    (hexec : c.retry sockfd timer now = .ok c') : Sound c' ∧ Steady c c' := by
  rcases retry_cases hexec with ⟨-, rfl⟩ | ⟨-, timers, ⟨when, created, hcreated, hadded⟩, rfl⟩
  · exact ⟨h, rfl, rfl⟩
  · obtain ⟨t, ht, htracked⟩ := retryTimers_tracked h.timers hfree hcreated now
    obtain rfl : t = timers := Except.ok.inj (ht.symm.trans hadded)
    exact ⟨(h.setTimers htracked).idle (by simp [abandoned]), rfl, rfl⟩

theorem connecting_sound (h : Sound c) {a : Attempt} (hfits : Fits c a)
    (hexec : c.connecting a.sockfd a.channel = .ok c') : Sound c' ∧ Steady c c' := by
  obtain ⟨hnone, p, hp, rfl⟩ := connecting_ok.mp hexec
  have hch := change_changed (h.table.newChannel hfits.1 hfits.2.1) hp
  have hreg : p.Registered a.channel := (hch.registered _).mpr (Or.inl rfl)
  refine ⟨⟨h.timers, hch.table, by simp, ?_, ?_, h.resets⟩, rfl, rfl⟩
  · intro ch _ _
    exact (h.empty hnone).1
  · intro ch hch hgone
    obtain rfl : a.channel = ch := by simpa using hch
    exact absurd hreg hgone

theorem startInLoop_sound (h : Sound c) {a : Attempt} (hfits : Fits c a)
    (hexec : c.startInLoop a = .ok c') : Sound c' ∧ Steady c c' := by
  obtain ⟨hstate, ⟨-, rfl⟩ | ⟨-, -, hconn⟩ | ⟨-, -, hretry⟩ | ⟨-, -, rfl⟩⟩ :=
    startInLoop_cases hexec
  · exact ⟨h, Steady.refl _⟩
  · exact connecting_sound h hfits hconn
  · exact retry_sound (h.idle (by simp)) hfits.2.2 hretry
  · exact ⟨h.idle (by simp [hstate]), rfl, rfl⟩

theorem cancelInLoop_sound (h : Sound c) {timerId : TimerId}
    {timers : TimerRuns.State TimerCallback}
    (hexec : TimerRuns.exec c.timers (.cancelInLoop timerId) = .ok timers) :
    Sound { c with timers := timers } := by
  refine h.setTimers ?_
  simp only [TimerRuns.exec, bind_eq_ok, pure_eq_ok, Except.ok.injEq] at hexec
  obtain ⟨q, hq, rfl⟩ := hexec
  obtain ⟨r, hr, hrep⟩ := cancelInLoop_rep h.timers.rep timerId
  obtain rfl : r = q := Except.ok.inj (hr.symm.trans hq)
  obtain ⟨hkeeps, hcreated⟩ := TimerRuns.cancelInLoop_keeps h.timers.rep hq
  exact h.timers.keep hrep rfl rfl hcreated hkeeps

theorem start_sound (h : Sound c) {thread : Thread} {a : Attempt} (hfits : Fits c a)
    (hexec : c.start thread a = .ok c') : Sound c' ∧ Steady c c' := by
  have hwanted := h.setConnect true
  unfold Connector.start at hexec
  dsimp only at hexec
  split at hexec
  · exact startInLoop_sound (c := { c with connect_ := true }) hwanted hfits hexec
  · rw [Except.ok.injEq] at hexec
    subst hexec
    exact ⟨hwanted.setLoop (pendingResets_queueInLoop (by simp) _), rfl, rfl⟩

theorem restart_sound (h : Sound c) {a : Attempt} (hfits : Fits c a)
    (hexec : c.restart a = .ok c') : Sound c' ∧ Steady c c' := by
  have hreset : Sound { c with
      state := .kDisconnected, retryDelayMs := kInitRetryDelayMs, connect_ := true } :=
    h.idle (by simp)
  exact startInLoop_sound (c := { c with
    state := .kDisconnected, retryDelayMs := kInitRetryDelayMs, connect_ := true })
    hreset hfits hexec

theorem stop_sound (h : Sound c) {thread : Thread} (hexec : c.stop thread = .ok c') :
    Sound c' ∧ Steady c c' := by
  have hunwanted : Sound { c with connect_ := false } :=
    ⟨h.timers, h.table, h.empty, h.live, h.gone, h.resets⟩
  unfold Connector.stop Connector.cancel at hexec
  split at hexec
  · simp only [bind_eq_ok, pure_eq_ok, Except.ok.injEq] at hexec
    obtain ⟨timers, htimers, rfl⟩ := hexec
    exact ⟨cancelInLoop_sound hunwanted htimers, rfl, rfl⟩
  · rw [Except.ok.injEq] at hexec
    subst hexec
    exact ⟨hunwanted.setLoop (pendingResets_queueInLoop (by simp) _), rfl, rfl⟩

/-- `removeAndResetChannel` of an attempt under way. The state is still to be
changed by its caller. -/
theorem removeAndResetChannel_sound (h : Sound c) (hstate : c.state = .kConnecting)
    {sockfd : ℕ} (hexec : c.removeAndResetChannel = .ok (c', sockfd)) (state : States)
    (hnext : state ≠ .kConnecting) : Sound { c' with state := state } ∧ Steady c c' := by
  obtain ⟨ch, p, q, hch, hp, hq, rfl⟩ := removeAndResetChannel_cases hexec
  have hreg : c.poller.Registered ch := by
    by_contra hgone
    exact (h.gone ch hch hgone).2 hstate
  have hchanged := change_changed h.table hp
  have hremoved := removeChannel_removed hchanged.table hq
  have hout : ¬ q.Registered ch := by simp [hremoved.registered ch]
  have hqueued : pendingResets (c.loop.queueInLoop (.resetChannel ch)).queued = [ch] := by
    rw [EventLoop.queued_queueInLoop, pendingResets_append, h.live ch hch hreg]
    rfl
  refine ⟨⟨h.timers, hremoved.table, ?_, ?_, ?_, h.resets⟩, rfl, rfl⟩
  · intro hnone
    simp [Connector.queueInLoop, hch] at hnone
  · intro d hd hlive
    obtain rfl : ch = d := Option.some.inj (hch.symm.trans hd)
    exact absurd hlive hout
  · intro d hd _
    obtain rfl : ch = d := Option.some.inj (hch.symm.trans hd)
    exact ⟨hqueued, hnext⟩

theorem removeAndRetry_sound (h : Sound c) (hstate : c.state = .kConnecting) {sockfd : ℕ}
    {t : Connector} (hremove : c.removeAndResetChannel = .ok (t, sockfd)) {v : Verdict}
    (hfree : TimerFree c v.timer) (hretry : t.retry sockfd v.timer v.now = .ok c') :
    Sound c' ∧ Steady c c' := by
  obtain ⟨hsound, hsteady⟩ := removeAndResetChannel_sound h hstate hremove
    .kDisconnected (by simp)
  have htimers : t.timers = c.timers := by
    obtain ⟨ch, p, q, -, -, -, rfl⟩ := removeAndResetChannel_cases hremove
    rfl
  have hfree' : TimerFree t v.timer := by
    unfold TimerFree
    rw [htimers]
    exact hfree
  obtain ⟨hresult, hsteady'⟩ := retry_sound (hsound.idle (by simp)) hfree' hretry
  exact ⟨hresult, hsteady'.1.trans hsteady.1, hsteady'.2.trans hsteady.2⟩

theorem handle_sound (h : Sound c) {v : Verdict} (hfree : TimerFree c v.timer) {cb : Callback}
    (hexec : c.handle v cb = .ok c') : Sound c' ∧ Steady c c' := by
  cases cb with
  | close | read =>
    rw [handle, Except.ok.injEq] at hexec
    subst hexec
    exact ⟨h, Steady.refl _⟩
  | error =>
    obtain ⟨hstate, t, sockfd, hremove, hretry⟩ := handleError_cases hexec
    exact removeAndRetry_sound h hstate hremove hfree hretry
  | write =>
    rcases handleWrite_cases hexec with ⟨-, rfl⟩ | ⟨hstate, t, sockfd, hremove, hend⟩
    · exact ⟨h, Steady.refl _⟩
    · obtain ⟨hsound, hsteady⟩ := removeAndResetChannel_sound h hstate hremove
        .kConnected (by simp)
      rcases hend with hretry | rfl | rfl
      · exact removeAndRetry_sound h hstate hremove hfree hretry
      · exact ⟨hsound.idle (by simp), hsteady⟩
      · exact ⟨hsound.idle (by simp), hsteady⟩

/-- A `resetChannel` destroys the Channel for which it was queued, and that one
is not registered. -/
theorem resetChannel_sound (h : Sound c) {ch : ChannelId} {rest : List Functor}
    (hqueued : c.loop.queued = .resetChannel ch :: rest) {loop : EventLoop Functor}
    (hrest : loop.queued = rest) : Sound ({ c with loop := loop }.resetChannel ch) := by
  have hpending : pendingResets c.loop.queued = ch :: pendingResets rest := by
    rw [hqueued]
    rfl
  cases hchannel : c.channel with
  | none =>
    have hnone := (h.empty hchannel).1
    rw [hpending] at hnone
    simp at hnone
  | some d =>
    have hgone : ¬ c.poller.Registered d := by
      intro hlive
      have hnone := h.live d hchannel hlive
      rw [hpending] at hnone
      simp at hnone
    obtain ⟨hone, hstate⟩ := h.gone d hchannel hgone
    rw [hpending, List.cons.injEq] at hone
    obtain ⟨rfl, hnone⟩ := hone
    refine ⟨h.timers, h.table, ?_, by simp [resetChannel], by simp [resetChannel], ?_⟩
    · intro _
      change pendingResets loop.queued = [] ∧ c.state ≠ .kConnecting
      rw [hrest]
      exact ⟨hnone, hstate⟩
    · intro r hr
      rcases List.mem_cons.mp hr with rfl | hr
      · simp [hgone]
      · exact h.resets r hr

/-- Every functor of the batch. -/
theorem call_sound (h : Sound c) {f : Functor} {rest : List Functor}
    (hf : c.loop.functors = f :: rest) {a : Attempt} (hfits : Fits c a)
    (hexec : { c with loop := c.loop.popFunctor }.call a f = .ok c') :
    Sound c' ∧ c'.loop.phase = c.loop.phase := by
  have hqueued := EventLoop.queued_popFunctor hf
  have hpop : (∀ ch, f ≠ .resetChannel ch) → Sound { c with loop := c.loop.popFunctor } := by
    intro hother
    refine h.setLoop ?_
    rw [hqueued, pendingResets_cons_other hother]
  cases f with
  | startInLoop =>
    obtain ⟨hsound, hsteady⟩ := startInLoop_sound (hpop (by simp)) hfits hexec
    exact ⟨hsound, hsteady.1⟩
  | cancelInLoop timerId =>
    simp only [call, bind_eq_ok, pure_eq_ok, Except.ok.injEq] at hexec
    obtain ⟨timers, htimers, rfl⟩ := hexec
    exact ⟨cancelInLoop_sound (hpop (by simp)) htimers, rfl⟩
  | resetChannel ch =>
    rw [call, Except.ok.injEq] at hexec
    subst hexec
    exact ⟨resetChannel_sound h hqueued rfl, rfl⟩
  | other =>
    rw [call, Except.ok.injEq] at hexec
    subst hexec
    exact ⟨hpop (by simp), rfl⟩

end Functions

structure Inv (s : State) : Prop where
  sound : Sound s.conn
  batch : s.conn.loop.phase ≠ .calling → s.conn.loop.functors = []

theorem Inv.steady {s s' : State} (h : Inv s) (hsound : Sound s'.conn)
    (hsteady : Steady s.conn s'.conn) : Inv s' := by
  refine ⟨hsound, ?_⟩
  rw [hsteady.1, hsteady.2]
  exact h.batch

inductive Step (s : State) : Input → State → Prop
  | start {thread a conn} (hstart : s.conn.start thread a = .ok conn) :
      Step s (.start thread a) { s with conn := conn, startable := false }
  | restart {a conn} (hrestart : s.conn.restart a = .ok conn) :
      Step s (.restart a) { s with conn := conn }
  | stop {thread conn} (hstop : s.conn.stop thread = .ok conn) :
      Step s (.stop thread) { s with conn := conn, startable := true }
  | connectionClosed :
      Step s .connectionClosed { s with startable := true, closes := s.closes + 1 }
  | queueOther : Step s .queueOther { s with conn := s.conn.queueInLoop .other }
  | pollTimeout :
      Step s (.poll none) { s with conn := { s.conn with loop := s.conn.loop.handleActive } }
  | poll {revents c} (hc : s.conn.channel = some c) : Step s (.poll (some revents))
      { s with
        conn := { s.conn with
          loop := s.conn.loop.handleActive
          poller := s.conn.poller.setRevents c revents }
        active := some c }
  | handleEvent {c} (hactive : s.active = some c) : Step s .handleEvent
      { s with active := none, current := handleEvent bound (s.conn.poller.channels c).revents }
  | callback {v cb rest conn} (hcurrent : s.current = cb :: rest)
      (hhandle : s.conn.handle v cb = .ok conn) :
      Step s (.callback v) { s with conn := conn, current := rest }
  | timers {i timers} (htimers : TimerRuns.exec s.conn.timers i = .ok timers) :
      Step s (.timers i) { s with conn := { s.conn with timers := timers } }
  | runTimer {a timers conn} (htimers : TimerRuns.exec s.conn.timers .runTimer = .ok timers)
      (hcb : nextCallback s.conn.timers.queue = some .startInLoop)
      (hstart : { s.conn with timers := timers }.startInLoop a = .ok conn) :
      Step s (.runTimer a) { s with conn := conn }
  | runOther {a timers} (htimers : TimerRuns.exec s.conn.timers .runTimer = .ok timers)
      (hcb : nextCallback s.conn.timers.queue ≠ some .startInLoop) :
      Step s (.runTimer a) { s with conn := { s.conn with timers := timers } }
  | swapFunctors :
      Step s .swapFunctors { s with conn := { s.conn with loop := s.conn.loop.swapFunctors } }
  | functor {a f rest conn} (hf : s.conn.loop.functors = f :: rest)
      (hcall : { s.conn with loop := s.conn.loop.popFunctor }.call a f = .ok conn) :
      Step s (.functor a) { s with conn := conn }
  | endIteration :
      Step s .endIteration { s with conn := { s.conn with loop := s.conn.loop.endIteration } }
  | otherChange {d interest p} (hp : s.conn.poller.change d interest = .ok p) :
      Step s (.otherChange d interest) { s with conn := { s.conn with poller := p } }
  | otherRemove {d p} (hp : s.conn.poller.removeChannel d = .ok p) :
      Step s (.otherRemove d) { s with conn := { s.conn with poller := p } }

theorem step_of_exec {s s' : State} {i : Input} (hallow : Allowed s i)
    (hexec : exec s i = .ok s') : Step s i s' := by
  cases i with
  | start thread a =>
    obtain ⟨conn, hstart, rfl⟩ := bind_pure_eq_ok.mp hexec
    exact .start hstart
  | restart a =>
    obtain ⟨conn, hrestart, rfl⟩ := bind_pure_eq_ok.mp hexec
    exact .restart hrestart
  | stop thread =>
    obtain ⟨conn, hstop, rfl⟩ := bind_pure_eq_ok.mp hexec
    exact .stop hstop
  | connectionClosed =>
    obtain rfl := Except.ok.inj hexec
    exact .connectionClosed
  | queueOther =>
    obtain rfl := Except.ok.inj hexec
    exact .queueOther
  | poll revents =>
    cases revents with
    | none =>
      obtain rfl := Except.ok.inj hexec
      exact .pollTimeout
    | some revents =>
      obtain ⟨-, c, hc, -⟩ := hallow
      simp only [exec] at hexec
      split at hexec
      · rename_i hnone
        rw [hnone] at hc
        cases hc
      · rename_i c' hc'
        obtain rfl := Except.ok.inj hexec
        exact .poll hc'
  | handleEvent =>
    obtain ⟨c, hactive⟩ := Option.ne_none_iff_exists'.mp hallow.2.2.1
    simp only [exec, hactive, Except.ok.injEq] at hexec
    subst hexec
    exact .handleEvent hactive
  | callback v =>
    obtain ⟨cb, rest, hcurrent⟩ := List.exists_cons_of_ne_nil hallow.1
    simp only [exec, hcurrent, bind_pure_eq_ok] at hexec
    obtain ⟨conn, hhandle, rfl⟩ := hexec
    exact .callback hcurrent hhandle
  | timers i =>
    obtain ⟨timers, htimers, rfl⟩ := bind_pure_eq_ok.mp hexec
    exact .timers htimers
  | runTimer a =>
    simp only [exec, bind_eq_ok] at hexec
    obtain ⟨timers, htimers, hexec⟩ := hexec
    split at hexec
    · rename_i hcb
      obtain ⟨conn, hstart, rfl⟩ := bind_pure_eq_ok.mp hexec
      exact .runTimer htimers hcb hstart
    · rename_i hcb
      obtain rfl := Except.ok.inj hexec
      exact .runOther htimers hcb
  | swapFunctors =>
    obtain rfl := Except.ok.inj hexec
    exact .swapFunctors
  | functor a =>
    obtain ⟨f, rest, hf⟩ := List.exists_cons_of_ne_nil hallow.2.1
    simp only [exec, hf, bind_pure_eq_ok] at hexec
    obtain ⟨conn, hcall, rfl⟩ := hexec
    exact .functor hf hcall
  | endIteration =>
    obtain rfl := Except.ok.inj hexec
    exact .endIteration
  | otherChange d interest =>
    obtain ⟨p, hp, rfl⟩ := bind_pure_eq_ok.mp hexec
    exact .otherChange hp
  | otherRemove d =>
    obtain ⟨p, hp, rfl⟩ := bind_pure_eq_ok.mp hexec
    exact .otherRemove hp

theorem initial_inv {s : State} (h : Fresh s) : Inv s := by
  obtain ⟨poller, timers, htable, hreach, -, rfl⟩ := h
  refine ⟨⟨TimerRuns.reach_tracked hreach, htable, ?_, ?_, ?_, ?_⟩, fun _ => rfl⟩
  all_goals simp [Connector.construct, pendingResets, EventLoop.queued]

theorem step_inv {s s' : State} (h : Inv s) {i : Input} (hallow : Allowed s i)
    (hexec : exec s i = .ok s') : Inv s' := by
  cases step_of_exec hallow hexec with
  | start hstart =>
    obtain ⟨hsound, hsteady⟩ := start_sound h.sound hallow.2 hstart
    exact h.steady hsound hsteady
  | restart hrestart =>
    obtain ⟨hsound, hsteady⟩ := restart_sound h.sound hallow.2 hrestart
    exact h.steady hsound hsteady
  | stop hstop =>
    obtain ⟨hsound, hsteady⟩ := stop_sound h.sound hstop
    exact h.steady hsound hsteady
  | connectionClosed => exact ⟨h.sound, h.batch⟩
  | queueOther =>
    exact ⟨h.sound.setLoop (pendingResets_queueInLoop (by simp) _), h.batch⟩
  | pollTimeout =>
    exact ⟨h.sound.setLoop rfl, fun _ => h.batch (by simp [show _ = _ from hallow])⟩
  | @poll revents c hc =>
    have hactive : Sound { s.conn with loop := s.conn.loop.handleActive } :=
      h.sound.setLoop rfl
    exact ⟨hactive.setPoller (h.sound.table.setRevents c revents)
      (fun _ _ => registered_setRevents), fun _ => h.batch (by simp [hallow.1])⟩
  | handleEvent hactive => exact ⟨h.sound, h.batch⟩
  | callback hcurrent hhandle =>
    obtain ⟨hsound, hsteady⟩ := handle_sound h.sound hallow.2 hhandle
    exact h.steady hsound hsteady
  | timers htimers =>
    exact ⟨h.sound.setTimers (timers_tracked h.sound.timers hallow.1 htimers), h.batch⟩
  | runTimer htimers hcb hstart =>
    obtain ⟨hallow, -, hfits⟩ := hallow
    have hsound := h.sound.setTimers (timers_tracked h.sound.timers hallow htimers)
    have hfits' := hfits.runTimer h.sound.timers hallow htimers
    obtain ⟨hnext, hsteady⟩ := startInLoop_sound hsound hfits' hstart
    exact h.steady hnext hsteady
  | runOther htimers hcb =>
    exact ⟨h.sound.setTimers (timers_tracked h.sound.timers hallow.1 htimers), h.batch⟩
  | swapFunctors =>
    refine ⟨h.sound.setLoop ?_, fun hne => absurd rfl hne⟩
    rw [EventLoop.queued_swapFunctors (h.batch (by simp [hallow.1]))]
  | functor hf hcall =>
    obtain ⟨hcalling, -, hfits⟩ := hallow
    obtain ⟨hsound, hphase⟩ := call_sound h.sound hf hfits hcall
    exact ⟨hsound, fun hne => absurd (hphase.trans hcalling) hne⟩
  | endIteration => exact ⟨h.sound.setLoop rfl, fun _ => hallow.2⟩
  | otherChange hp =>
    have hch := change_changed h.sound.table hp
    exact ⟨h.sound.setPoller hch.table (h.sound.otherChange hallow hp), h.batch⟩
  | otherRemove hp =>
    have hrm := removeChannel_removed h.sound.table hp
    exact ⟨h.sound.setPoller hrm.table (h.sound.otherRemove hallow hp), h.batch⟩

theorem reach_inv {cond : State → Input → Prop} {s : State} (h : Reach system cond s) :
    Inv s := by
  refine h.invariant ?_ ?_
  · intro s hs
    exact initial_inv hs
  · intro s i s' hs hallow _ hexec
    exact step_inv hs hallow hexec

def Starts (s : State) : Input → Prop
  | .start thread _ => thread = .loop
  | .runTimer _ => nextCallback s.conn.timers.queue = some .startInLoop
  | .functor _ => s.conn.loop.functors.head? = some .startInLoop
  | _ => False

def Connects (s : State) : Input → Prop
  | .start thread a => thread = .loop ∧ s.conn.state = .kDisconnected ∧
      course a.savedErrno = .connecting
  | .restart a => course a.savedErrno = .connecting
  | .runTimer a => nextCallback s.conn.timers.queue = some .startInLoop ∧
      s.conn.state = .kDisconnected ∧ s.conn.connect_ = true ∧
      course a.savedErrno = .connecting
  | .functor a => s.conn.loop.functors.head? = some .startInLoop ∧
      s.conn.state = .kDisconnected ∧ s.conn.connect_ = true ∧
      course a.savedErrno = .connecting
  | _ => False

section Errors

variable {c : Connector} {a : Attempt} {v : Verdict} {e : Fault}

theorem retry_no_error (h : TimerRuns.Tracked c.timers) {sockfd : ℕ} {timer : Address}
    {now : Timestamp} (hfree : TimerFree c timer) : c.retry sockfd timer now ≠ .error e := by
  intro herror
  obtain ⟨when, created, hcreated, hadded⟩ := retry_error herror
  obtain ⟨timers, hok, -⟩ := retryTimers_tracked h hfree hcreated now
  rw [hok] at hadded
  simp at hadded

/-- The two assertions that `startInLoop` can fail in, beside those of the
Poller. -/
theorem startInLoop_fault (h : TimerRuns.Tracked c.timers) (hfree : TimerFree c a.timer)
    (herror : c.startInLoop a = .error e) :
    (e = .startState ∧ c.state ≠ .kDisconnected) ∨
    (e = .channelInUse ∧ c.state = .kDisconnected ∧ c.connect_ = true ∧
      course a.savedErrno = .connecting ∧ c.channel ≠ none) ∨ e.ofUpdate = true := by
  rcases startInLoop_error herror with ⟨hstate, rfl⟩ | ⟨hstate, hwanted, hconn | hretry⟩
  · exact Or.inl ⟨rfl, hstate⟩
  · obtain ⟨hcourse, hconn⟩ := hconn
    rcases connecting_error.mp hconn with ⟨hsome, rfl⟩ | ⟨-, hchange⟩
    · exact Or.inr (Or.inl ⟨rfl, hstate, hwanted, hcourse, hsome⟩)
    · exact Or.inr (Or.inr (updateChannel_error hchange))
  · exact absurd hretry.2 (retry_no_error h hfree)

theorem startInLoop_occupied (hstate : c.state = .kDisconnected) (hwanted : c.connect_ = true)
    (hcourse : course a.savedErrno = .connecting) (hsome : c.channel ≠ none) :
    c.startInLoop a = .error .channelInUse := by
  unfold startInLoop
  rw [require_pos _ hstate, ok_bind, if_pos hwanted]
  unfold connect
  rw [hcourse]
  exact connecting_error.mpr (Or.inl ⟨hsome, rfl⟩)

/-- The Channel of an attempt under way can be removed. -/
theorem removeAndResetChannel_no_error (h : Sound c) (hstate : c.state = .kConnecting) :
    c.removeAndResetChannel ≠ .error e := by
  intro herror
  rcases removeAndResetChannel_error herror with ⟨hnone, -⟩ | ⟨ch, hch, hfail⟩
  · exact (h.empty hnone).2 hstate
  · have hreg : c.poller.Registered ch := by
      by_contra hgone
      exact (h.gone ch hch hgone).2 hstate
    obtain ⟨p, hp⟩ := change_registered h.table hreg .disableAll
    rcases hfail with hfail | ⟨p', hp', hfail⟩
    · rw [hp] at hfail
      simp at hfail
    · obtain ⟨q, hq⟩ := removeChannel_disabled h.table hreg hp'
      rw [hq] at hfail
      simp at hfail

/-- The callbacks of the Channel can fail only in their own assertions. -/
theorem handle_fault (h : Sound c) (hfree : TimerFree c v.timer) {cb : Callback}
    (herror : c.handle v cb = .error e) : e = .writeState ∨ e = .errorState := by
  have hretry : ∀ t sockfd, c.removeAndResetChannel = .ok (t, sockfd) →
      t.retry sockfd v.timer v.now ≠ .error e := by
    intro t sockfd hremove
    obtain ⟨ch, p, q, -, -, -, rfl⟩ := removeAndResetChannel_cases hremove
    refine retry_no_error ?_ ?_
    · exact h.timers
    · exact hfree
  cases cb with
  | close | read => simp [handle] at herror
  | error =>
    rcases handleError_error herror with hfault | ⟨hstate, hremove | ⟨t, sockfd, hremove, hfail⟩⟩
    · exact Or.inr hfault
    · exact absurd hremove (removeAndResetChannel_no_error h hstate)
    · exact absurd hfail (hretry t sockfd hremove)
  | write =>
    rcases handleWrite_error herror with hfault | ⟨hstate, hremove | ⟨t, sockfd, hremove, hfail⟩⟩
    · exact Or.inl hfault
    · exact absurd hremove (removeAndResetChannel_no_error h hstate)
    · exact absurd hfail (hretry t sockfd hremove)

theorem cancelInLoop_no_error (h : TimerRuns.Tracked c.timers) {timerId : TimerId} :
    TimerRuns.exec c.timers (.cancelInLoop timerId) ≠ .error e := by
  intro herror
  obtain ⟨q, hq, -⟩ := cancelInLoop_rep h.rep timerId
  rw [TimerRuns.exec_cancelInLoop hq] at herror
  simp at herror

end Errors

/-- The faults of a step: the assertion of `startInLoop`, the one of
`connecting`, those of the two callbacks, and those of the Poller. -/
theorem exec_error {s : State} (h : Inv s) {i : Input} (hallow : Allowed s i) {e : Fault}
    (hexec : exec s i = .error e) :
    (e = .startState ∧ Starts s i ∧ s.conn.state ≠ .kDisconnected) ∨
    (e = .channelInUse ∧ Connects s i ∧ s.conn.channel ≠ none) ∨
    e = .writeState ∨ e = .errorState ∨ e.ofUpdate = true ∨ e.ofRemove = true := by
  have htimers := h.sound.timers
  cases i with
  | start thread a =>
    simp only [exec, Connector.start, bind_pure_eq_error] at hexec
    split at hexec
    · rename_i hloop
      rcases startInLoop_fault (c := { s.conn with connect_ := true }) htimers hallow.2.2.2 hexec
        with ⟨rfl, hstate⟩ | ⟨rfl, hstate, -, hcourse, hsome⟩ | hkind
      · exact Or.inl ⟨rfl, hloop, hstate⟩
      · exact Or.inr (Or.inl ⟨rfl, ⟨hloop, hstate, hcourse⟩, hsome⟩)
      · simp [hkind]
    · simp at hexec
  | restart a =>
    simp only [exec, Connector.restart, bind_pure_eq_error] at hexec
    rcases startInLoop_fault (c := { s.conn with
      state := .kDisconnected, retryDelayMs := kInitRetryDelayMs, connect_ := true }) htimers
      hallow.2.2.2 hexec with ⟨-, hstate⟩ | ⟨rfl, -, -, hcourse, hsome⟩ | hkind
    · exact absurd rfl hstate
    · exact Or.inr (Or.inl ⟨rfl, hcourse, hsome⟩)
    · simp [hkind]
  | stop thread =>
    simp only [exec, Connector.stop, Connector.cancel, bind_eq_error, pure_eq_ok, reduceCtorEq,
      and_false, exists_false, or_false] at hexec
    split at hexec
    · simp only [bind_eq_error, reduceCtorEq, and_false, exists_false, or_false] at hexec
      exact absurd hexec (cancelInLoop_no_error (c := s.conn) htimers)
    · simp at hexec
  | connectionClosed | queueOther | swapFunctors | endIteration => simp [exec] at hexec
  | poll revents =>
    cases revents with
    | none => simp [exec] at hexec
    | some revents =>
      rw [exec] at hexec
      split at hexec <;> simp at hexec
  | handleEvent =>
    rw [exec] at hexec
    split at hexec <;> simp at hexec
  | callback v =>
    obtain ⟨cb, rest, hcurrent⟩ := List.exists_cons_of_ne_nil hallow.1
    simp only [exec, hcurrent, bind_pure_eq_error] at hexec
    rcases handle_fault h.sound hallow.2 hexec with hfault | hfault <;> simp [hfault]
  | timers i =>
    obtain ⟨timers, hok, -⟩ := TimerRuns.step_tracked htimers i hallow.1
    simp [exec, hok] at hexec
  | runTimer a =>
    obtain ⟨hrun, -, hfits⟩ := hallow
    obtain ⟨timers, hok, htracked⟩ := TimerRuns.step_tracked htimers .runTimer hrun
    have hfree := (hfits.runTimer htimers hrun hok).2.2
    simp only [exec, hok, ok_bind] at hexec
    split at hexec
    · rename_i hcb
      rw [bind_pure_eq_error] at hexec
      rcases startInLoop_fault (c := { s.conn with timers := timers }) htracked hfree hexec
        with ⟨rfl, hstate⟩ | ⟨rfl, hstate, hwanted, hcourse, hsome⟩ | hkind
      · exact Or.inl ⟨rfl, hcb, hstate⟩
      · exact Or.inr (Or.inl ⟨rfl, ⟨hcb, hstate, hwanted, hcourse⟩, hsome⟩)
      · simp [hkind]
    · simp at hexec
  | functor a =>
    obtain ⟨-, hfunctors, hfits⟩ := hallow
    obtain ⟨f, rest, hf⟩ := List.exists_cons_of_ne_nil hfunctors
    simp only [exec, hf, bind_pure_eq_error] at hexec
    cases f with
    | startInLoop =>
      have hhead : s.conn.loop.functors.head? = some .startInLoop := by simp [hf]
      rcases startInLoop_fault (c := { s.conn with loop := s.conn.loop.popFunctor }) htimers
        hfits.2.2 hexec with ⟨rfl, hstate⟩ | ⟨rfl, hstate, hwanted, hcourse, hsome⟩ | hkind
      · exact Or.inl ⟨rfl, hhead, hstate⟩
      · exact Or.inr (Or.inl ⟨rfl, ⟨hhead, hstate, hwanted, hcourse⟩, hsome⟩)
      · simp [hkind]
    | cancelInLoop timerId =>
      simp only [call, bind_pure_eq_error] at hexec
      exact absurd hexec (cancelInLoop_no_error (c := s.conn) htimers)
    | resetChannel queuedFor | other => simp [call] at hexec
  | otherChange d interest =>
    simp only [exec, bind_pure_eq_error] at hexec
    simp [updateChannel_error hexec]
  | otherRemove d =>
    simp only [exec, bind_pure_eq_error] at hexec
    simp [removeChannel_error hexec]

def created : State :=
  ⟨Connector.construct (Poller.initial fun _ => 0) TimerRuns.initial, none, [], true, 0⟩

theorem created_fresh : Fresh created := by
  refine ⟨Poller.initial fun _ => 0, TimerRuns.initial, initial_table _, .start rfl, ?_, rfl⟩
  intro p t ht
  simp [TimerRuns.initial, TimerQueue.initial] at ht

end TinyMuduo.ConnectorRuns
