import TinyMuduo.OwnershipRuns

/-!
Dead Channels in the Poller. A Channel is destroyed with the object that it is
part of, and not every destructor takes it out of the Poller first: `~TcpServer`
leaves the Channel of an Acceptor that listens, and the last pointer to an
established connection takes a registered Channel with it. These are the only
steps after which the Poller's map has a pointer to a destroyed Channel.
-/
namespace TinyMuduo.Ownership

open Checked Channel TcpConnection Runs Registry

/-- Every pointer in `channelMap` is to a Channel that was not destroyed and
whose descriptor is open. -/
def NoDeadChannel (w : World) : Prop :=
  ∀ fd c, w.poller.channelMap.find fd = some c →
    w.owner c ≠ none ∧ w.isOpen (w.poller.channels c).fd = true

variable {w w' : World}

theorem Inv.noDeadChannel (h : Inv w) : NoDeadChannel w := h.sound.alive

theorem NoDeadChannel.owned (h : NoDeadChannel w) {c : ChannelId} (hc : w.poller.Registered c) :
    w.owner c ≠ none :=
  (h _ c hc).1

/-! What the end of pointers destroys. -/

theorem release_destroyed {k : ℕ} (hexec : w.release k = .ok w') {c : ChannelId}
    (hc : w.owner c = none) : w'.owner c = none := by
  simp only [World.release, bind_eq_ok, demand_eq_ok] at hexec
  obtain ⟨conn, -, hexec⟩ := hexec
  split at hexec
  · obtain rfl := Except.ok.inj hexec
    by_cases hne : c = conn.channel
    · subst hne
      simp [World.close, World.destroyChannel]
    · simpa [World.close, World.destroyChannel, World.setConnection, hne] using hc
  · obtain rfl := Except.ok.inj hexec
    exact hc

theorem releaseAll_singleton (w : World) (k : ℕ) : w.releaseAll [k] = w.release k := by
  rw [World.releaseAll]
  cases w.release k with
  | ok w' => rfl
  | error e => rfl

theorem releaseAll_destroyed {ks : List ℕ} (hexec : w.releaseAll ks = .ok w') {c : ChannelId}
    (hc : w.owner c = none) : w'.owner c = none := by
  induction ks generalizing w with
  | nil =>
    obtain rfl := Except.ok.inj hexec
    exact hc
  | cons k ks ih =>
    simp only [World.releaseAll, bind_eq_ok] at hexec
    obtain ⟨w₁, hrelease, hexec⟩ := hexec
    exact ih hexec (release_destroyed hrelease hc)

/-- One pointer less, or the connection is gone with its Channel. -/
theorem release_connection {j k : ℕ} {conn : Connection} (hexec : w.release j = .ok w')
    (hk : w.connections k = some conn) :
    (j ≠ k ∧ w'.connections k = some conn) ∨
    (j = k ∧ conn.useCount ≤ 1 ∧ w'.owner conn.channel = none) ∨
    (j = k ∧ 1 < conn.useCount ∧
      w'.connections k = some { conn with useCount := conn.useCount - 1 }) := by
  simp only [World.release, bind_eq_ok, demand_eq_ok] at hexec
  obtain ⟨conn', hj, hexec⟩ := hexec
  by_cases hjk : j = k
  · subst hjk
    obtain rfl : conn = conn' := Option.some.inj (hk.symm.trans hj)
    split at hexec
    · rename_i hcount
      obtain rfl := Except.ok.inj hexec
      exact Or.inr (Or.inl ⟨rfl, hcount, by simp [World.close, World.destroyChannel]⟩)
    · obtain rfl := Except.ok.inj hexec
      exact Or.inr (Or.inr ⟨rfl, by omega, by simp [World.setConnection]⟩)
  · refine Or.inl ⟨hjk, ?_⟩
    split at hexec
    · obtain rfl := Except.ok.inj hexec
      simpa [World.close, World.destroyChannel, World.setConnection, Ne.symm hjk] using hk
    · obtain rfl := Except.ok.inj hexec
      simpa [World.setConnection, Ne.symm hjk] using hk

/-- A connection to which a list has all the pointers goes with the list. -/
theorem releaseAll_last {ks : List ℕ} {k : ℕ} {conn : Connection}
    (hexec : w.releaseAll ks = .ok w') (hmem : k ∈ ks) (hk : w.connections k = some conn)
    (hcount : conn.useCount ≤ ks.count k) : w'.owner conn.channel = none := by
  induction ks generalizing w conn with
  | nil => simp at hmem
  | cons j ks ih =>
    simp only [World.releaseAll, bind_eq_ok] at hexec
    obtain ⟨w₁, hrelease, hexec⟩ := hexec
    rcases release_connection hrelease hk with ⟨hne, hk₁⟩ | ⟨-, -, hgone⟩ | ⟨rfl, hmany, hk₁⟩
    · rw [List.count_cons_of_ne hne] at hcount
      have hmem : k ∈ ks := (List.mem_cons.mp hmem).resolve_left (Ne.symm hne)
      exact ih hexec hmem hk₁ hcount
    · exact releaseAll_destroyed hexec hgone
    · rw [List.count_cons_self] at hcount
      have hmem : j ∈ ks := List.count_pos_iff.mp (by omega)
      have hfewer : conn.useCount - 1 ≤ ks.count j := by omega
      have hgone := ih hexec hmem hk₁ hfewer
      exact hgone

/-- Pointers that go without a dead Channel were not the last ones of an
established connection. -/
theorem spared_of_destroyed {ks : List ℕ} (h : Inv w) (hpoller : w'.poller = w.poller)
    (hlaw : NoDeadChannel w')
    (hlast : ∀ k ∈ ks, ∀ conn, w.connections k = some conn → conn.useCount ≤ ks.count k →
      w'.owner conn.channel = none) : Spared w ks := by
  intro k hmem conn hk hcount
  cases hest : conn.established with
  | false => rfl
  | true =>
    have hreg : w'.poller.Registered conn.channel := by
      rw [hpoller]
      exact (h.registered_connection hk).mpr hest
    exact absurd (hlast k hmem conn hk hcount) (hlaw.owned hreg)

/-! The steps that destroy objects. -/

theorem destroyServer_keeps (h : Inv w) {s : ℕ} (hexec : w.destroyServer s = .ok w')
    (hlaw : NoDeadChannel w') : KeepsChannels w (.destroyServer s) := by
  intro sv hs
  simp only [Option.mem_def] at hs
  simp only [World.destroyServer, hs, bind_eq_ok, demand_eq_ok, Option.some.injEq, pure_eq_ok,
    Except.ok.injEq] at hexec
  obtain ⟨_, rfl, w₁, hrelease, hw'⟩ := hexec
  have hpoller : w'.poller = w.poller := by
    rw [← hw']
    exact (releaseAll_frame hrelease).1
  have howner : w'.owner = Function.update w₁.owner sv.acceptChannel none := by
    rw [← hw']
    rfl
  refine ⟨?_, spared_of_destroyed h hpoller hlaw ?_⟩
  · cases hlistening : sv.listening with
    | false => rfl
    | true =>
      have hreg : w'.poller.Registered sv.acceptChannel := by
        rw [hpoller]
        exact (h.registered_acceptor hs).mpr hlistening
      exact absurd (by simp [howner]) (hlaw.owned hreg)
  · intro k hmem conn hk hcount
    have hgone : w₁.owner conn.channel = none := releaseAll_last hrelease hmem hk hcount
    rw [howner]
    by_cases hne : conn.channel = sv.acceptChannel
    · simp [hne]
    · rw [Function.update_of_ne hne]
      exact hgone

theorem releaseConnector_frame {n : ℕ} (hexec : w.releaseConnector n = .ok w') :
    w'.poller = w.poller ∧ w'.owner = w.owner := by
  simp only [World.releaseConnector, bind_eq_ok, demand_eq_ok] at hexec
  obtain ⟨x, -, hexec⟩ := hexec
  split at hexec
  · simp only [bind_eq_ok, require_eq_ok, pure_eq_ok, Except.ok.injEq] at hexec
    obtain ⟨-, -, rfl⟩ := hexec
    exact ⟨rfl, rfl⟩
  · obtain rfl := Except.ok.inj hexec
    exact ⟨rfl, rfl⟩

theorem destroyClient_keeps (h : Inv w) {c : ℕ} (hexec : w.destroyClient c = .ok w')
    (hlaw : NoDeadChannel w') : KeepsChannels w (.destroyClient c) := by
  intro cl hc
  simp only [Option.mem_def] at hc
  simp only [World.destroyClient, hc, bind_eq_ok, demand_eq_ok, Option.some.injEq] at hexec
  obtain ⟨_, rfl, hexec⟩ := hexec
  cases hconn : cl.connection with
  | none =>
    intro k hmem
    simp at hmem
  | some k =>
    simp only [hconn, bind_eq_ok, demand_eq_ok] at hexec
    obtain ⟨conn, hk, w₁, hrelease, hexec⟩ := hexec
    obtain ⟨hpoller, howner⟩ := releaseConnector_frame hexec
    refine spared_of_destroyed h (hpoller.trans (release_frame hrelease).1) hlaw ?_
    intro k' hmem conn' hk' hcount
    obtain rfl : k' = k := by simpa using hmem
    obtain rfl : conn = conn' := Option.some.inj (hk.symm.trans hk')
    rw [howner]
    rw [← releaseAll_singleton] at hrelease
    have hgone := releaseAll_last hrelease hmem (Function.update_self k' _ _) hcount
    exact hgone

/-- A step that leaves no dead Channel meets the condition. -/
theorem keeps_of_noDeadChannel (h : Inv w) {i : Input} (hexec : exec w i = .ok w')
    (hlaw : NoDeadChannel w') : KeepsChannels w i := by
  cases i with
  | destroyServer s => exact destroyServer_keeps h hexec hlaw
  | destroyClient c => exact destroyClient_keeps h hexec hlaw
  | drop k =>
    simp only [exec] at hexec
    rw [← releaseAll_singleton] at hexec
    have hpoller : w'.poller = w.poller := (releaseAll_frame hexec).1
    exact spared_of_destroyed h hpoller hlaw fun k' hmem conn hk hcount =>
      releaseAll_last hexec hmem hk hcount
  | endIteration =>
    have hpoller : w'.poller = w.poller := (releaseAll_frame hexec).1
    exact spared_of_destroyed h hpoller hlaw fun k hmem conn hk hcount =>
      releaseAll_last hexec hmem hk hcount
  | _ => trivial

/-- The Poller has no dead Channel in any state of a run exactly when no step
destroys a server that listens or drops the last pointer to an established
connection. -/
theorem no_dead_channel_iff {past : List (World × Input)} (h : Run system past w) :
    ((∀ p ∈ past, NoDeadChannel p.1) ∧ NoDeadChannel w) ↔
      ∀ p ∈ past, KeepsChannels p.1 p.2 := by
  refine h.law_iff (fun _ hstart => (fresh_inv hstart).noDeadChannel) ?_
  intro w i w' hreach hlaw hallow hexec
  have hinv := reach_inv hreach
  constructor
  · exact keeps_of_noDeadChannel hinv hexec
  · intro hkeeps
    exact (step_inv hinv hallow hkeeps hexec).noDeadChannel

instance (w : World) : (i : Input) → Decidable (system.allowed w i)
  | .newServer fd => inferInstanceAs (Decidable (w.isOpen fd = false))
  | .destroyServer _ | .destroyClient _ => inferInstanceAs (Decidable (w.loop.phase ≠ .handling))
  | .connectClient _ a => inferInstanceAs (Decidable (w.isOpen a.sockfd = false))
  | .drop k => inferInstanceAs (Decidable (k ∈ w.users))
  | .poll events => inferInstanceAs (Decidable (w.loop.phase = .polling ∧
      ∀ p ∈ events, w.poller.Registered p.1 ∧ (w.poller.channels p.1).events ≠ kNoneEvent))
  | .callback e => inferInstanceAs (Decidable (w.active ≠ [] ∧
      (∀ fd ∈ e.accepted, w.isOpen fd = false) ∧ w.isOpen e.attempt.sockfd = false))
  | .timer j a => inferInstanceAs (Decidable (w.loop.phase = .handling ∧ j < w.timers.length ∧
      w.isOpen a.sockfd = false))
  | .swapFunctors => inferInstanceAs (Decidable (w.loop.phase = .handling ∧ w.active = []))
  | .functor => inferInstanceAs (Decidable (w.loop.phase = .calling ∧ w.loop.functors ≠ []))
  | .endIteration => inferInstanceAs (Decidable (w.loop.phase = .calling ∧ w.loop.functors = []))
  | .otherChange d _ | .otherRemove d => inferInstanceAs (Decidable (w.owner d = some .other))
  | .startServer _ | .newClient | .disconnectClient _ | .stopClient _ | .enableRetry _ | .hold _
  | .send _ _ _ | .shutdown _ | .addTimer | .queueOther => isTrue trivial

instance (w : World) : (i : Input) → Decidable (KeepsChannels w i)
  | .destroyServer s => inferInstanceAs (Decidable (∀ sv ∈ w.servers s,
      sv.listening = false ∧ Spared w sv.connectionMap))
  | .destroyClient c => inferInstanceAs (Decidable (∀ cl ∈ w.clients c,
      Spared w cl.connection.toList))
  | .drop k => inferInstanceAs (Decidable (Spared w [k]))
  | .endIteration => inferInstanceAs (Decidable (Spared w (references w.called)))
  | .newServer _ | .startServer _ | .newClient | .connectClient _ _ | .disconnectClient _
  | .stopClient _ | .enableRetry _ | .hold _ | .send _ _ _ | .shutdown _ | .addTimer | .queueOther
  | .poll _ | .callback _ | .timer _ _ | .swapFunctors | .functor | .otherChange _ _
  | .otherRemove _ => isTrue trivial

def idleLoop : World := initial (Poller.initial (· + 3)) (fun fd => fd < 5) 2

theorem idleLoop_fresh : system.start idleLoop := by
  refine ⟨Poller.initial (· + 3), fun fd => fd < 5, 2, Poller.initial_table _, ?_, ?_, ?_, rfl⟩
  · intro c hc
    simp [Poller.initial, Poller.Registered] at hc
  · intro c hc
    have hopen : c + 3 < 5 := Nat.add_lt_add_right hc 3
    exact decide_eq_true hopen
  · intro c hc d hd heq
    exact Nat.add_right_cancel (show c + 3 = d + 3 from heq)

def reply (accepted : Option ℕ) (read : ReadResult) : Env :=
  ⟨accepted, read, false, false, 0, false, ⟨9, none⟩⟩

/-- A client connects to a server on the same loop and both see the end of the
connection; the client is destroyed with its Connector after it, and a second
server that never listened as well. -/
def orderlyRun : List Input :=
  [.otherChange 0 .enableReading, .otherChange 1 .enableReading, .newServer 5, .startServer 2,
    .newClient, .connectClient 3 ⟨6, some .EINPROGRESS⟩, .poll [(4, pollOut), (2, pollIn)],
    .callback (reply none .error), .callback (reply (some 7) .error), .hold 6, .swapFunctors,
    .functor, .endIteration, .poll [(5, pollIn), (6, pollIn)], .callback (reply none .eof),
    .callback (reply none .eof), .swapFunctors, .functor, .functor, .endIteration, .drop 6,
    .destroyClient 3, .newServer 6, .destroyServer 7, .poll [(1, pollIn)],
    .callback (reply none .error), .timer 0 ⟨9, none⟩]

theorem orderlyRun_alive : ∃ past w, Run system past w ∧ past.map Prod.snd = orderlyRun ∧
    w.connections 5 = none ∧ w.connections 6 = none ∧ w.connectors 3 = none ∧
    NoDeadChannel w := by
  obtain ⟨past, w, hrun, hinputs, hcond, htest⟩ := exists_run_of_replay (M := system)
    KeepsChannels idleLoop_fresh orderlyRun (fun w => decide (w.connections 5 = none ∧
      w.connections 6 = none ∧ w.connectors 3 = none)) (by decide)
  obtain ⟨hfirst, hsecond, hconnector⟩ := of_decide_eq_true htest
  exact ⟨past, w, hrun, hinputs, hfirst, hsecond, hconnector,
    ((no_dead_channel_iff hrun).mpr hcond).2⟩

def destroyedServer : List Input :=
  [.otherChange 0 .enableReading, .otherChange 1 .enableReading, .newServer 5, .startServer 2,
    .destroyServer 2]

theorem destroyedServer_leaves_channel : ¬ ∀ w, Reachable system w → NoDeadChannel w := by
  intro hall
  obtain ⟨w, hw, htest⟩ := exists_of_replay (M := system) Free idleLoop_fresh destroyedServer
    (fun w => decide (w.poller.channelMap.find 5 = some 2 ∧ w.owner 2 = none)) (by decide)
  obtain ⟨hfind, hgone⟩ := of_decide_eq_true htest
  exact (hall w hw 5 2 hfind).1 hgone

end TinyMuduo.Ownership
