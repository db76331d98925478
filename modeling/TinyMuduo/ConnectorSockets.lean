import TinyMuduo.ConnectorRuns
import TinyMuduo.Lib.Ledger

/-!
The sockets of a Connector. `effects` lists what each step does with sockets in
the order of the source: socket(2), the registration and the removal of the
Channel, close(2), and the call of `newConnectionCallback`. The ledger keeps one
record for every socket ever created, although descriptors are reused. In every
run each socket is held by the registered Channel, or was handed over once, or
was closed once. `Move` ties the effects to the executed code, descriptor by
descriptor.
-/
namespace TinyMuduo.ConnectorRuns

open Connector Poller Channel TimerQueue Checked Runs Ledger

def connectEffects (a : Attempt) : List (Effect ℕ) :=
  match course a.savedErrno with
  | .connecting => [.create a.sockfd, .attach a.sockfd]
  | .retry | .close => [.create a.sockfd, .release a.sockfd]

def startInLoopEffects (c : Connector) (a : Attempt) : List (Effect ℕ) :=
  if c.connect_ then connectEffects a else []

def removeEffects (c : Connector) (last : ℕ → Effect ℕ) : List (Effect ℕ) :=
  match c.channel with
  | none => []
  | some ch => [.detach (c.poller.channels ch).fd, last (c.poller.channels ch).fd]

def handleWriteEffects (c : Connector) (v : Verdict) : List (Effect ℕ) :=
  if c.state = .kConnecting then
    if v.soError ≠ 0 then removeEffects c .release
    else if v.isSelfConnect then removeEffects c .release
    else if c.connect_ then removeEffects c .transfer
    else removeEffects c .release
  else []

def handleEffects (c : Connector) (v : Verdict) : Callback → List (Effect ℕ)
  | .write => handleWriteEffects c v
  | .error => removeEffects c .release
  | .close | .read => []

/-- What a step does with sockets, in order. -/
def effects (s : State) : Input → List (Effect ℕ)
  | .start .loop a | .restart a => connectEffects a
  | .callback v => match s.current with
      | [] => []
      | cb :: _ => handleEffects s.conn v cb
  | .runTimer a =>
      if nextCallback s.conn.timers.queue = some .startInLoop then startInLoopEffects s.conn a
      else []
  | .functor a => match s.conn.loop.functors with
      | .startInLoop :: _ => startInLoopEffects s.conn a
      | _ => []
  | .start (.other _) _ | .stop _ | .connectionClosed | .queueOther | .poll _ | .handleEvent
  | .timers _ | .swapFunctors | .endIteration | .otherChange _ _ | .otherRemove _ => []

/-- The descriptor of the Connector's Channel while it is registered. -/
def held (c : Connector) : Option ℕ :=
  match c.channel with
  | none => none
  | some ch => if c.poller.Registered ch then some (c.poller.channels ch).fd else none

/-- What a step does to the Connector's Channel and to its records, with the
effects that go with it. -/
inductive Move (c c' : Connector) : List (Effect ℕ) → Prop
  | nothing : held c' = held c → c'.closed = c.closed → c'.handed = c.handed → Move c c' []
  | discard (fd : ℕ) : held c ≠ some fd → held c' = held c → c'.closed = fd :: c.closed →
      c'.handed = c.handed → Move c c' [.create fd, .release fd]
  | attach (fd : ℕ) : held c = none → held c' = some fd → c'.closed = c.closed →
      c'.handed = c.handed → Move c c' [.create fd, .attach fd]
  | close (fd : ℕ) : held c = some fd → held c' = none → c'.closed = fd :: c.closed →
      c'.handed = c.handed → Move c c' [.detach fd, .release fd]
  | hand (fd : ℕ) : held c = some fd → held c' = none → c'.closed = c.closed →
      c'.handed = fd :: c.handed → Move c c' [.detach fd, .transfer fd]

section Moves

variable {c c' : Connector} {a : Attempt} {v : Verdict}

theorem held_none (h : c.channel = none) : held c = none := by
  unfold held
  rw [h]

/-- The kernel does not return a descriptor that is in use. -/
theorem held_ne (hfind : c.poller.channelMap.find a.sockfd = none) : held c ≠ some a.sockfd := by
  unfold held
  cases c.channel with
  | none => simp
  | some ch =>
    dsimp only
    split
    · rename_i hreg
      intro heq
      have hfd : (c.poller.channels ch).fd = a.sockfd := Option.some.inj heq
      unfold Poller.Registered at hreg
      rw [hfd, hfind] at hreg
      cases hreg
    · simp

theorem retry_move {sockfd : ℕ} {timer : Address} {now : Timestamp}
    (hexec : c.retry sockfd timer now = .ok c') :
    held c' = held c ∧ c'.closed = sockfd :: c.closed ∧ c'.handed = c.handed := by
  rcases retry_cases hexec with ⟨-, rfl⟩ | ⟨-, timers, -, rfl⟩
  · exact ⟨rfl, rfl, rfl⟩
  · exact ⟨rfl, rfl, rfl⟩

theorem connecting_move (h : Sound c) (hfits : Fits c a)
    (hexec : c.connecting a.sockfd a.channel = .ok c') :
    Move c c' [.create a.sockfd, .attach a.sockfd] := by
  obtain ⟨hnone, p, hp, rfl⟩ := connecting_ok.mp hexec
  have hch := change_changed (h.table.newChannel hfits.1 hfits.2.1) hp
  have hreg : p.Registered a.channel := (hch.registered _).mpr (Or.inl rfl)
  have hfd : (p.channels a.channel).fd = a.sockfd := by
    rw [hch.fds]
    simp [newChannel]
  refine .attach a.sockfd (held_none hnone) ?_ rfl rfl
  simp only [held]
  rw [if_pos hreg, hfd]

theorem startInLoop_move (h : Sound c) (hfits : Fits c a) (hexec : c.startInLoop a = .ok c') :
    Move c c' (startInLoopEffects c a) := by
  have hfree := held_ne hfits.2.1
  unfold startInLoopEffects connectEffects
  obtain ⟨-, ⟨hwanted, rfl⟩ | ⟨hwanted, hcourse, hconn⟩ | ⟨hwanted, hcourse, hretry⟩ |
    ⟨hwanted, hcourse, rfl⟩⟩ := startInLoop_cases hexec
  · simp only [hwanted, Bool.false_eq_true, if_false]
    exact .nothing rfl rfl rfl
  · simp only [hwanted, if_true, hcourse]
    exact connecting_move h hfits hconn
  · simp only [hwanted, if_true, hcourse]
    obtain ⟨hheld, hclosed, hhanded⟩ := retry_move hretry
    exact .discard a.sockfd hfree hheld hclosed hhanded
  · simp only [hwanted, if_true, hcourse]
    exact .discard a.sockfd hfree rfl rfl rfl

/-- The Channel of an attempt under way is taken out, and its descriptor is what
`removeAndResetChannel` returns. -/
theorem removeAndResetChannel_move (h : Sound c) (hstate : c.state = .kConnecting) {sockfd : ℕ}
    (hexec : c.removeAndResetChannel = .ok (c', sockfd)) :
    held c = some sockfd ∧ held c' = none ∧ c'.closed = c.closed ∧ c'.handed = c.handed ∧
      c'.connect_ = c.connect_ ∧
      ∀ last, removeEffects c last = [.detach sockfd, last sockfd] := by
  simp only [removeAndResetChannel, bind_eq_ok, demand_eq_ok, pure_eq_ok, Except.ok.injEq,
    Prod.mk.injEq] at hexec
  obtain ⟨ch, hch, p, hp, q, hq, rfl, rfl⟩ := hexec
  have hreg : c.poller.Registered ch := by
    by_contra hgone
    exact (h.gone ch hch hgone).2 hstate
  have hchanged := change_changed h.table hp
  have hremoved := removeChannel_removed hchanged.table hq
  have hout : ¬ q.Registered ch := by simp [hremoved.registered ch]
  have hfd : (q.channels ch).fd = (c.poller.channels ch).fd := by
    rw [hremoved.fds, hchanged.fds]
  refine ⟨?_, ?_, rfl, rfl, rfl, ?_⟩
  · unfold held
    rw [hch]
    dsimp only
    rw [if_pos hreg, hfd]
  · unfold held
    simp only [Connector.queueInLoop, hch]
    rw [if_neg hout]
  · intro last
    unfold removeEffects
    rw [hch, hfd]

/-- `removeAndResetChannel` followed by `retry` closes the socket. -/
theorem removeAndRetry_move (h : Sound c) (hstate : c.state = .kConnecting) {t : Connector}
    {sockfd : ℕ} (hremove : c.removeAndResetChannel = .ok (t, sockfd))
    (hretry : t.retry sockfd v.timer v.now = .ok c') : Move c c' (removeEffects c .release) := by
  obtain ⟨hheld, hnone, hclosed, hhanded, -, heffects⟩ :=
    removeAndResetChannel_move h hstate hremove
  obtain ⟨hheld', hclosed', hhanded'⟩ := retry_move hretry
  rw [heffects]
  refine .close sockfd hheld (hheld'.trans hnone) ?_ (hhanded'.trans hhanded)
  rw [hclosed', hclosed]

theorem handleWrite_move (h : Sound c) (hexec : c.handleWrite v = .ok c') :
    Move c c' (handleWriteEffects c v) := by
  unfold handleWrite at hexec
  unfold handleWriteEffects
  by_cases hstate : c.state = .kConnecting
  · rw [if_pos hstate] at hexec ⊢
    obtain ⟨⟨t, sockfd⟩, hremove, hexec⟩ := bind_eq_ok.mp hexec
    obtain ⟨hheld, hnone, hclosed, hhanded, hconnect, heffects⟩ :=
      removeAndResetChannel_move h hstate hremove
    dsimp only at hexec
    by_cases herror : v.soError ≠ 0
    · rw [if_pos herror] at hexec ⊢
      exact removeAndRetry_move h hstate hremove hexec
    · rw [if_neg herror] at hexec ⊢
      by_cases hself : v.isSelfConnect = true
      · rw [if_pos hself] at hexec ⊢
        exact removeAndRetry_move h hstate hremove hexec
      · rw [if_neg hself, hconnect] at hexec
        rw [if_neg hself, heffects, heffects]
        by_cases hwanted : c.connect_ = true
        · rw [if_pos hwanted, pure_eq_ok, Except.ok.injEq] at hexec
          rw [if_pos hwanted]
          subst hexec
          exact .hand sockfd hheld hnone hclosed (congrArg _ hhanded)
        · rw [if_neg hwanted, pure_eq_ok, Except.ok.injEq] at hexec
          rw [if_neg hwanted]
          subst hexec
          exact .close sockfd hheld hnone (congrArg _ hclosed) hhanded
  · rw [if_neg hstate] at hexec ⊢
    simp only [bind_eq_ok, require_eq_ok, pure_eq_ok, Except.ok.injEq] at hexec
    obtain ⟨-, -, rfl⟩ := hexec
    exact .nothing rfl rfl rfl

theorem handle_move (h : Sound c) {cb : Callback} (hexec : c.handle v cb = .ok c') :
    Move c c' (handleEffects c v cb) := by
  cases cb with
  | close | read =>
    cases hexec
    exact .nothing rfl rfl rfl
  | error =>
    obtain ⟨hstate, t, sockfd, hremove, hretry⟩ := handleError_cases hexec
    exact removeAndRetry_move h hstate hremove hretry
  | write => exact handleWrite_move h hexec

/-- The Channel stays and keeps its place in the Poller. -/
theorem held_same (hchannel : c'.channel = c.channel)
    (hreg : ∀ ch, c.channel = some ch → (c'.poller.Registered ch ↔ c.poller.Registered ch))
    (hfd : ∀ ch, c.channel = some ch →
      (c'.poller.channels ch).fd = (c.poller.channels ch).fd) : held c' = held c := by
  unfold held
  rw [hchannel]
  cases hch : c.channel with
  | none => rfl
  | some ch =>
    dsimp only
    rw [hfd ch hch]
    exact if_congr (hreg ch hch) rfl rfl

/-- A move reads the Channel and the two records of its source. -/
theorem Move.source {c₀ : Connector} {es : List (Effect ℕ)} (h : Move c₀ c' es)
    (hheld : held c₀ = held c) (hclosed : c₀.closed = c.closed) (hhanded : c₀.handed = c.handed) :
    Move c c' es := by
  cases h with
  | nothing h1 h2 h3 => exact .nothing (h1.trans hheld) (h2.trans hclosed) (h3.trans hhanded)
  | discard fd h1 h2 h3 h4 =>
    rw [hheld] at h1 h2
    rw [hclosed] at h3
    exact .discard fd h1 h2 h3 (h4.trans hhanded)
  | attach fd h1 h2 h3 h4 =>
    exact .attach fd (hheld.symm.trans h1) h2 (h3.trans hclosed) (h4.trans hhanded)
  | close fd h1 h2 h3 h4 =>
    rw [hclosed] at h3
    exact .close fd (hheld.symm.trans h1) h2 h3 (h4.trans hhanded)
  | hand fd h1 h2 h3 h4 =>
    rw [hhanded] at h4
    exact .hand fd (hheld.symm.trans h1) h2 (h3.trans hclosed) h4

theorem resetChannel_move (h : Sound c) {ch : ChannelId} {rest : List Functor}
    (hqueued : c.loop.queued = .resetChannel ch :: rest) {loop : EventLoop Functor} :
    Move c ({ c with loop := loop }.resetChannel ch) [] := by
  have hnone : held ({ c with loop := loop }.resetChannel ch) = none := held_none rfl
  refine .nothing (hnone.trans ?_) rfl rfl
  have hpending : pendingResets c.loop.queued ≠ [] := by
    rw [hqueued]
    simp [pendingResets]
  unfold held
  cases hchannel : c.channel with
  | none => rfl
  | some d =>
    dsimp only
    rw [if_neg]
    intro hlive
    exact hpending (h.live d hchannel hlive)

theorem call_move (h : Sound c) {f : Functor} {rest : List Functor}
    (hf : c.loop.functors = f :: rest) (hfits : Fits c a)
    (hexec : { c with loop := c.loop.popFunctor }.call a f = .ok c') :
    Move c c' (match f with | .startInLoop => startInLoopEffects c a | _ => []) := by
  have hqueued := EventLoop.queued_popFunctor hf
  cases f with
  | startInLoop =>
    have hpop : Sound { c with loop := c.loop.popFunctor } := by
      refine h.setLoop ?_
      rw [hqueued, pendingResets_cons_other (by simp)]
    exact (startInLoop_move hpop hfits hexec).source rfl rfl rfl
  | cancelInLoop timerId =>
    simp only [call, bind_eq_ok, pure_eq_ok, Except.ok.injEq] at hexec
    obtain ⟨timers, -, rfl⟩ := hexec
    exact .nothing rfl rfl rfl
  | resetChannel ch =>
    rw [call, Except.ok.injEq] at hexec
    subst hexec
    exact resetChannel_move h hqueued
  | other =>
    rw [call, Except.ok.injEq] at hexec
    subst hexec
    exact .nothing rfl rfl rfl

theorem stop_move {thread : Thread} (hexec : c.stop thread = .ok c') : Move c c' [] := by
  unfold Connector.stop Connector.cancel at hexec
  split at hexec
  · simp only [bind_eq_ok, pure_eq_ok, Except.ok.injEq] at hexec
    obtain ⟨timers, -, rfl⟩ := hexec
    exact .nothing rfl rfl rfl
  · rw [Except.ok.injEq] at hexec
    subst hexec
    exact .nothing rfl rfl rfl

end Moves

/-- Every step is one of the moves. -/
theorem step_move {s s' : State} (h : Inv s) {i : Input} (hallow : Allowed s i)
    (hexec : exec s i = .ok s') : Move s.conn s'.conn (effects s i) := by
  have hsound := h.sound
  cases step_of_exec hallow hexec with
  | @start thread a conn hstart =>
    cases thread with
    | loop => exact (startInLoop_move (hsound.setConnect true) hallow.2 hstart).source rfl rfl rfl
    | other id =>
      cases hstart
      exact .nothing rfl rfl rfl
  | restart hrestart =>
    have hreset : Sound { s.conn with
        state := .kDisconnected, retryDelayMs := kInitRetryDelayMs, connect_ := true } :=
      hsound.idle (by simp)
    exact (startInLoop_move hreset hallow.2 hrestart).source rfl rfl rfl
  | stop hstop => exact stop_move hstop
  | connectionClosed | queueOther | pollTimeout | swapFunctors | endIteration | handleEvent
  | timers => exact .nothing rfl rfl rfl
  | @poll revents c hc =>
    refine .nothing (held_same rfl ?_ ?_) rfl rfl
    · exact fun ch _ => registered_setRevents
    · exact fun ch _ => setRevents_fd c ch revents
  | callback hcurrent hhandle =>
    simp only [effects, hcurrent]
    exact handle_move hsound hhandle
  | runTimer htimers hcb hstart =>
    obtain ⟨hrun, -, hfits⟩ := hallow
    have htracked := hsound.setTimers (timers_tracked hsound.timers hrun htimers)
    have hfits' := hfits.runTimer hsound.timers hrun htimers
    rw [effects, if_pos hcb]
    exact (startInLoop_move htracked hfits' hstart).source rfl rfl rfl
  | runOther htimers hcb =>
    rw [effects, if_neg hcb]
    exact .nothing rfl rfl rfl
  | @functor a f rest conn hf hcall =>
    have hmove := call_move hsound hf hallow.2.2 hcall
    simp only [effects, hf]
    cases f with
    | startInLoop | cancelInLoop | resetChannel | other => exact hmove
  | otherChange hp =>
    have hch := change_changed hsound.table hp
    exact .nothing (held_same rfl (hsound.otherChange hallow hp) fun c _ => hch.fds c) rfl rfl
  | otherRemove hp =>
    have hrm := removeChannel_removed hsound.table hp
    exact .nothing (held_same rfl (hsound.otherRemove hallow hp) fun c _ => hrm.fds c) rfl rfl

structure Ledgered where
  run : State
  sockets : List (Record ℕ)

def ledgeredSystem : System Ledgered Input Fault where
  start s := Fresh s.run ∧ s.sockets = []
  allowed s i := Allowed s.run i
  exec s i := do
    let run ← exec s.run i
    return ⟨run, Ledger.run s.sockets (effects s.run i)⟩

instance (s : Ledgered) (i : Input) : Decidable (ledgeredSystem.allowed s i) :=
  inferInstanceAs (Decidable (system.allowed s.run i))

/-- Every socket belongs to the registered Channel, or was handed over once, or
was closed once, and not while its Channel was registered. The descriptors that
the run has closed and handed over are those of the sockets that ended so, and
every step does to them what its effects say. -/
structure SocketLaw (s : Ledgered) : Prop where
  oneOf : ∀ k ∈ s.sockets, (k.Owned ∧ held s.run.conn = some k.name) ∨ k.Settled
  owned : ∀ fd, held s.run.conn = some fd → ∃ k ∈ s.sockets, k.Owned ∧ k.name = fd
  atMostOne : s.sockets.countP (·.attached) ≤ 1
  closed : s.run.conn.closed.Perm (released s.sockets)
  handed : s.run.conn.handed.Perm (transferred s.sockets)
  moves : ∀ i run', Allowed s.run i → exec s.run i = .ok run' →
    Move s.run.conn run'.conn (effects s.run i)

structure Accounted (s : Ledgered) : Prop where
  inv : Inv s.run
  balanced : Balanced s.sockets (held s.run.conn)
  closed : s.run.conn.closed.Perm (released s.sockets)
  handed : s.run.conn.handed.Perm (transferred s.sockets)

theorem Move.accounted {s : Ledgered} (h : Accounted s) {run' : State} (hinv : Inv run')
    {es : List (Effect ℕ)} (hmove : Move s.run.conn run'.conn es) :
    Accounted ⟨run', Ledger.run s.sockets es⟩ := by
  obtain ⟨-, hbalanced, hcloses, hhands⟩ := h
  cases hmove with
  | nothing hheld hclosed hhanded =>
    refine ⟨hinv, ?_, ?_, ?_⟩
    · rw [hheld]
      exact hbalanced
    · rw [hclosed]
      exact hcloses
    · rw [hhanded]
      exact hhands
  | discard fd hother hheld hclosed hhanded =>
    refine ⟨hinv, ?_, ?_, ?_⟩
    · rw [hheld]
      exact hbalanced.discard hother
    · rw [hclosed, run_discard]
      exact hcloses.cons fd
    · rw [hhanded, run_discard]
      exact hhands
  | attach fd hnone hheld hclosed hhanded =>
    rw [hnone] at hbalanced
    refine ⟨hinv, ?_, ?_, ?_⟩
    · rw [hheld]
      exact hbalanced.attach fd
    · rw [hclosed, run_attach]
      exact hcloses
    · rw [hhanded, run_attach]
      exact hhands
  | close fd hheld hnone hclosed hhanded =>
    rw [hheld] at hbalanced
    obtain ⟨hsettled, hreleased, htransferred⟩ := hbalanced.release
    refine ⟨hinv, ?_, ?_, ?_⟩
    · rw [hnone]
      exact hsettled
    · rw [hclosed]
      exact (hcloses.cons fd).trans hreleased.symm
    · rw [hhanded, htransferred]
      exact hhands
  | hand fd hheld hnone hclosed hhanded =>
    rw [hheld] at hbalanced
    obtain ⟨hsettled, hreleased, htransferred⟩ := hbalanced.transfer
    refine ⟨hinv, ?_, ?_, ?_⟩
    · rw [hnone]
      exact hsettled
    · rw [hclosed, hreleased]
      exact hcloses
    · rw [hhanded]
      exact (hhands.cons fd).trans htransferred.symm

theorem ledgered_accounted {s : Ledgered} (h : Reachable ledgeredSystem s) : Accounted s := by
  refine h.invariant ?_ ?_
  · rintro ⟨run, sockets⟩ ⟨hfresh, hsockets⟩
    obtain rfl : sockets = [] := hsockets
    have hinv := initial_inv hfresh
    obtain ⟨poller, timers, -, -, -, rfl⟩ := hfresh
    refine ⟨hinv, ?_, List.Perm.nil, List.Perm.nil⟩
    intro k hk
    simp at hk
  · intro s i s' hs hallow _ hexec
    simp only [ledgeredSystem, bind_pure_eq_ok] at hexec
    obtain ⟨run, hrun, rfl⟩ := hexec
    exact (step_move hs.inv hallow hrun).accounted hs (step_inv hs.inv hallow hrun)

/-- In every run, between two callbacks, every socket that `connect` created is
in exactly one place. -/
theorem connector_socket_ownership {s : Ledgered} (h : Reachable ledgeredSystem s) :
    SocketLaw s := by
  have hs := ledgered_accounted h
  refine ⟨?_, ?_, hs.balanced.countP_attached_le, hs.closed, hs.handed, ?_⟩
  · intro k hk
    exact hs.balanced.owned_or_settled hk
  · intro fd hfd
    have hbalanced := hs.balanced
    rw [hfd] at hbalanced
    exact hbalanced.exists_owned
  · intro i run' hallow hexec
    exact step_move hs.inv hallow hexec

/-- The first connect(2) is refused, the second attempt fails with an error event
that is also writable, the third reuses the descriptor and is handed over. -/
def thirdTry : List Input :=
  [.start .loop ⟨7, some .ECONNREFUSED, 0, 16, 1000⟩, .swapFunctors, .endIteration, .poll none,
    .timers (.handleRead 600000), .runTimer ⟨7, some .EINPROGRESS, 0, 32, 600000⟩,
    .timers .endCallbacks, .timers .resetTimer, .timers (.rearm 600000), .swapFunctors,
    .endIteration, .poll (some (pollErr ||| pollOut)), .handleEvent,
    .callback ⟨111, false, 48, 700000⟩, .callback ⟨0, false, 64, 700000⟩, .swapFunctors,
    .functor ⟨8, none, 1, 64, 700000⟩, .endIteration, .poll none, .timers (.handleRead 2600000),
    .runTimer ⟨7, none, 1, 64, 2600000⟩, .timers .endCallbacks, .timers .resetTimer,
    .timers (.rearm 2600000), .swapFunctors, .endIteration, .poll (some pollOut), .handleEvent,
    .callback ⟨0, false, 80, 2700000⟩]

theorem thirdTry_accounted : ∃ s, Reachable ledgeredSystem s ∧
    s.sockets = [⟨7, false, 1, 0, false⟩, ⟨7, false, 0, 1, false⟩, ⟨7, false, 0, 1, false⟩] ∧
    SocketLaw s := by
  obtain ⟨s, hs, htest⟩ := exists_of_replay (M := ledgeredSystem) (s := ⟨created, []⟩) Free
    ⟨created_fresh, rfl⟩ thirdTry
    (fun s => decide (s.sockets =
      [⟨7, false, 1, 0, false⟩, ⟨7, false, 0, 1, false⟩, ⟨7, false, 0, 1, false⟩]))
    (by decide)
  exact ⟨s, hs, of_decide_eq_true htest, connector_socket_ownership hs⟩

end TinyMuduo.ConnectorRuns
