import TinyMuduo.LoopProgram

/-!
The walk over the active Channels. The loop holds pointers to Channels while
arbitrary callbacks run. A Connector removes a Channel in the middle of the
walk, but only from the callbacks of this Channel, because the Channel that is
registered or being handled is the one that `channel_` points to; it stays there
until `resetChannel` runs among the functors. The Channel of a connection is
removed by `connectDestroyed`, which only runs as a functor. So every active
Channel is still registered when its turn comes.
-/
namespace TinyMuduo.LoopProgram

open Checked Channel TcpConnection Runs
open Ownership (CloseCallback Server Client Attempt Env)

/-- A removal during the walk is that of the Channel which is being handled, and
a connection's Channel is removed by a functor. -/
structure Removal.Lawful (r : Removal) : Prop where
  own : r.phase = .handling → r.current = some r.channel
  awake : r.phase ≠ .polling
  deferred : ∀ k, r.owner = some (.connection k) → r.phase = .calling

structure Walk (w : Program) : Prop where
  idle : w.loop.phase ≠ .handling → w.activeChannels = [] ∧ w.current = none
  registered : ∀ c ∈ w.activeChannels, w.poller.Registered c
  nodup : w.activeChannels.Nodup
  apart : ∀ c, w.current = some c → c ∉ w.activeChannels
  removals : ∀ r ∈ w.removals, r.Lawful

structure Objects (w : Program) : Prop where
  table : Poller.Table w.poller
  bound : ∀ c, w.poller.Registered c → c < w.next
  owned : ∀ c, w.owner c ≠ none → c < w.next
  running : ∀ c, w.current = some c → c < w.next
  servers : ∀ s sv, w.servers s = some sv → w.owner sv.acceptChannel = some (.acceptor s)
  connections : ∀ k conn, w.connections k = some conn →
    w.owner conn.channel = some (.connection k)
  established : ∀ k conn, w.connections k = some conn →
    conn.state = .kConnected ∨ conn.state = .kDisconnecting → w.poller.Registered conn.channel
  numbered : ∀ n x, w.connectors n = some x → n < w.next
  channels : ∀ n x c, w.connectors n = some x → x.channel = some c →
    w.owner c = some (.connector n)
  live : ∀ n x, w.connectors n = some x → x.state = .kConnecting →
    ∃ c, x.channel = some c ∧ w.poller.Registered c
  /-- a Channel of a Connector that is registered or handled is its `channel_` -/
  held : ∀ c n, w.owner c = some (.connector n) →
    w.poller.Registered c ∨ w.current = some c → ∃ x, w.connectors n = some x ∧ x.channel = some c
  resets : ∀ n, Functor.resetChannel n ∈ w.loop.queued →
    w.loop.queued.count (.resetChannel n) = 1 ∧
      ∃ x c, w.connectors n = some x ∧ x.channel = some c ∧ ¬ w.poller.Registered c

structure Inv (w : Program) : Prop where
  walk : Walk w
  objects : Objects w

/-- The entries of a table after one was written. -/
theorem update_cases {α : Type} {f : ℕ → Option α} {i j : ℕ} {a b : α}
    (h : Function.update f i (some a) j = some b) :
    (j = i ∧ b = a) ∨ (j ≠ i ∧ f j = some b) := by
  by_cases hj : j = i
  · subst hj
    rw [Function.update_self] at h
    exact Or.inl ⟨rfl, (Option.some.inj h).symm⟩
  · rw [Function.update_of_ne hj] at h
    exact Or.inr ⟨hj, h⟩

variable {w w' : Program}

/-- The walk does not see what happens to objects, nor new registrations. -/
theorem Walk.frame (h : Walk w) (hphase : w'.loop.phase = w.loop.phase)
    (hactive : w'.activeChannels = w.activeChannels) (hcurrent : w'.current = w.current)
    (hremovals : w'.removals = w.removals)
    (hreg : ∀ c, w.poller.Registered c → w'.poller.Registered c) : Walk w' := by
  refine ⟨?_, ?_, ?_, ?_, ?_⟩
  · rw [hphase, hactive, hcurrent]
    exact h.idle
  · rw [hactive]
    intro c hc
    exact hreg c (h.registered c hc)
  · rw [hactive]
    exact h.nodup
  · rw [hactive, hcurrent]
    exact h.apart
  · rw [hremovals]
    exact h.removals

namespace Inv

theorem setClient (h : Inv w) (c : ℕ) (cl : Client) : Inv (w.setClient c cl) :=
  ⟨h.walk.frame rfl rfl rfl rfl fun _ hc => hc, { h.objects with }⟩

theorem setTimers (h : Inv w) (timers : List TimerCallback) : Inv { w with timers := timers } :=
  ⟨h.walk.frame rfl rfl rfl rfl fun _ hc => hc, { h.objects with }⟩

/-- A functor that is not a `resetChannel`. -/
theorem queueInLoop (h : Inv w) {f : Functor} (hf : ∀ n, f ≠ .resetChannel n) :
    Inv (w.queueInLoop f) := by
  refine ⟨h.walk.frame rfl rfl rfl rfl fun _ hc => hc, { h.objects with resets := ?_ }⟩
  intro n hn
  have hqueued : (w.queueInLoop f).loop.queued = w.loop.queued ++ [f] :=
    EventLoop.queued_queueInLoop _ _
  have hne := hf n
  rw [hqueued] at hn ⊢
  have hmem : Functor.resetChannel n ∈ w.loop.queued := by
    rcases List.mem_append.mp hn with hn | hn
    · exact hn
    · exact absurd (List.mem_singleton.mp hn).symm hne
  obtain ⟨hcount, hx⟩ := h.objects.resets n hmem
  refine ⟨?_, hx⟩
  rw [List.count_append, hcount, List.count_singleton, if_neg (by simpa using hne)]

theorem setServer (h : Inv w) {s : ℕ} {sv : Server}
    (howner : w.owner sv.acceptChannel = some (.acceptor s)) : Inv (w.setServer s sv) := by
  refine ⟨h.walk.frame rfl rfl rfl rfl fun _ hc => hc, { h.objects with servers := ?_ }⟩
  intro s' sv' hs'
  rcases update_cases hs' with ⟨rfl, rfl⟩ | ⟨-, hs'⟩
  · exact howner
  · exact h.objects.servers s' sv' hs'

theorem setConnection (h : Inv w) {k : ℕ} {conn : Connection}
    (howner : w.owner conn.channel = some (.connection k))
    (hreg : conn.state = .kConnected ∨ conn.state = .kDisconnecting →
      w.poller.Registered conn.channel) : Inv (w.setConnection k conn) := by
  refine ⟨h.walk.frame rfl rfl rfl rfl fun _ hc => hc,
    { h.objects with connections := ?_, established := ?_ }⟩
  · intro k' conn' hk'
    rcases update_cases hk' with ⟨rfl, rfl⟩ | ⟨-, hk'⟩
    · exact howner
    · exact h.objects.connections k' conn' hk'
  · intro k' conn' hk'
    rcases update_cases hk' with ⟨rfl, rfl⟩ | ⟨-, hk'⟩
    · exact hreg
    · exact h.objects.established k' conn' hk'

/-- A Connector that keeps its Channel. -/
theorem setConnector (h : Inv w) {n : ℕ} {x x' : Connector} (hx : w.connectors n = some x)
    (hchannel : x'.channel = x.channel)
    (hlive : x'.state = .kConnecting → ∃ c, x.channel = some c ∧ w.poller.Registered c) :
    Inv (w.setConnector n x') := by
  have hold : ∀ m y c, w.connectors m = some y → y.channel = some c →
      ∃ y', (w.setConnector n x').connectors m = some y' ∧ y'.channel = some c := by
    intro m y c hm hc
    by_cases hmn : m = n
    · subst hmn
      obtain rfl := Option.some.inj (hx.symm.trans hm)
      exact ⟨x', Function.update_self .., hchannel.trans hc⟩
    · exact ⟨y, (Function.update_of_ne hmn ..).trans hm, hc⟩
  refine ⟨h.walk.frame rfl rfl rfl rfl fun _ hc => hc,
    { h.objects with numbered := ?_, channels := ?_, live := ?_, held := ?_, resets := ?_ }⟩
  · intro m y hm
    rcases update_cases hm with ⟨rfl, rfl⟩ | ⟨-, hm⟩
    · exact h.objects.numbered m x hx
    · exact h.objects.numbered m y hm
  · intro m y c hm hc
    rcases update_cases hm with ⟨rfl, rfl⟩ | ⟨-, hm⟩
    · exact h.objects.channels m x c hx (hchannel.symm.trans hc)
    · exact h.objects.channels m y c hm hc
  · intro m y hm hstate
    rcases update_cases hm with ⟨rfl, rfl⟩ | ⟨-, hm⟩
    · rw [hchannel]
      exact hlive hstate
    · exact h.objects.live m y hm hstate
  · intro c m howner hc
    obtain ⟨y, hm, hy⟩ := h.objects.held c m howner hc
    exact hold m y c hm hy
  · intro m hm
    obtain ⟨hcount, y, c, hy, hc, hgone⟩ := h.objects.resets m hm
    obtain ⟨y', hy', hc'⟩ := hold m y c hy hc
    exact ⟨hcount, y', c, hy', hc', hgone⟩

/-- A Connector without a Channel gets one that is not registered yet. -/
theorem setChannel (h : Inv w) {n : ℕ} {x : Connector} {c : ChannelId}
    (hx : w.connectors n = some x) (hnone : x.channel = none) (hstate : x.state ≠ .kConnecting)
    (howner : w.owner c = some (.connector n)) :
    Inv (w.setConnector n { x with channel := some c }) := by
  refine ⟨h.walk.frame rfl rfl rfl rfl fun _ hc => hc,
    { h.objects with numbered := ?_, channels := ?_, live := ?_, held := ?_, resets := ?_ }⟩
  · intro m y hm
    rcases update_cases hm with ⟨rfl, rfl⟩ | ⟨-, hm⟩
    · exact h.objects.numbered m x hx
    · exact h.objects.numbered m y hm
  · intro m y d hm hd
    rcases update_cases hm with ⟨rfl, rfl⟩ | ⟨-, hm⟩
    · obtain rfl := Option.some.inj hd
      exact howner
    · exact h.objects.channels m y d hm hd
  · intro m y hm hlive
    rcases update_cases hm with ⟨rfl, rfl⟩ | ⟨-, hm⟩
    · exact absurd hlive hstate
    · exact h.objects.live m y hm hlive
  · intro d m hd hreg
    obtain ⟨y, hm, hy⟩ := h.objects.held d m hd hreg
    have hmn : m ≠ n := by
      rintro rfl
      rw [Option.some.inj (hx.symm.trans hm), hy] at hnone
      cases hnone
    exact ⟨y, (Function.update_of_ne hmn ..).trans hm, hy⟩
  · intro m hm
    obtain ⟨hcount, y, d, hy, hd, hgone⟩ := h.objects.resets m hm
    have hmn : m ≠ n := by
      rintro rfl
      rw [Option.some.inj (hx.symm.trans hy), hd] at hnone
      cases hnone
    exact ⟨hcount, y, d, (Function.update_of_ne hmn ..).trans hy, hd, hgone⟩

/-- A new Channel is not registered and is nobody's `channel_`. -/
theorem newChannel (h : Inv w) (o : Ownership.Owner) {fd : ℕ}
    (hfd : w.poller.channelMap.find fd = none) : Inv (w.newChannel o fd) := by
  have hfresh : ¬ w.poller.Registered w.next := fun hreg =>
    absurd (h.objects.bound w.next hreg) (Nat.lt_irrefl _)
  have hreg : ∀ c, (w.newChannel o fd).poller.Registered c ↔ w.poller.Registered c :=
    fun c => Poller.registered_newChannel hfresh hfd
  have howner : ∀ c, c ≠ w.next → (w.newChannel o fd).owner c = w.owner c :=
    fun c hc => Function.update_of_ne hc ..
  have hold : ∀ c o', w.owner c = some o' → (w.newChannel o fd).owner c = some o' := by
    intro c o' hc
    rw [howner c (Nat.ne_of_lt (h.objects.owned c (by simp [hc]))), hc]
  refine ⟨h.walk.frame rfl rfl rfl rfl fun c hc => (hreg c).mpr hc, ?_⟩
  refine
    { table := h.objects.table.newChannel hfresh hfd
      bound := fun c hc => Nat.lt_succ_of_lt (h.objects.bound c ((hreg c).mp hc))
      owned := ?_
      running := fun c hc => Nat.lt_succ_of_lt (h.objects.running c hc)
      servers := fun s sv hs => hold _ _ (h.objects.servers s sv hs)
      connections := fun k conn hk => hold _ _ (h.objects.connections k conn hk)
      established := fun k conn hk hstate => (hreg _).mpr (h.objects.established k conn hk hstate)
      numbered := fun n x hx => Nat.lt_succ_of_lt (h.objects.numbered n x hx)
      channels := fun n x c hx hc => hold _ _ (h.objects.channels n x c hx hc)
      live := ?_
      held := ?_
      resets := ?_ }
  · intro c hc
    by_cases hnew : c = w.next
    · rw [hnew]
      exact Nat.lt_succ_self _
    · refine Nat.lt_succ_of_lt (h.objects.owned c ?_)
      rwa [howner c hnew] at hc
  · intro n x hx hstate
    obtain ⟨c, hc, hlive⟩ := h.objects.live n x hx hstate
    exact ⟨c, hc, (hreg c).mpr hlive⟩
  · intro c n hc hheld
    have hlt : c < w.next := by
      rcases hheld with hheld | hheld
      · exact h.objects.bound c ((hreg c).mp hheld)
      · exact h.objects.running c hheld
    rw [howner c (Nat.ne_of_lt hlt)] at hc
    exact h.objects.held c n hc (hheld.imp_left (hreg c).mp)
  · intro n hn
    obtain ⟨hcount, x, c, hx, hc, hgone⟩ := h.objects.resets n hn
    exact ⟨hcount, x, c, hx, hc, fun hc' => hgone ((hreg c).mp hc')⟩

/-- A change of interest may register a Channel. If it is a Connector's, it is
its `channel_` and is not about to be reset. -/
theorem change (h : Inv w) {c : ChannelId} {o : Ownership.Owner} {interest : Interest}
    (howner : w.owner c = some o)
    (hheld : ∀ n, o = .connector n → Functor.resetChannel n ∉ w.loop.queued ∧
      ∃ x, w.connectors n = some x ∧ x.channel = some c)
    (hexec : w.change c interest = .ok w') : Inv w' := by
  obtain ⟨p, hp, rfl⟩ := bind_pure_eq_ok.mp hexec
  have hch := Poller.change_changed h.objects.table hp
  have hgrow : ∀ d, w.poller.Registered d → p.Registered d :=
    fun d hd => (hch.registered d).mpr (Or.inr hd)
  refine ⟨h.walk.frame rfl rfl rfl rfl hgrow, ?_⟩
  refine { h.objects with
    table := hch.table
    bound := ?_
    established := fun k conn hk hstate => hgrow _ (h.objects.established k conn hk hstate)
    live := ?_
    held := ?_
    resets := ?_ }
  · intro d hd
    rcases (hch.registered d).mp hd with rfl | hd
    · exact h.objects.owned d (by simp [howner])
    · exact h.objects.bound d hd
  · intro n x hx hstate
    obtain ⟨d, hd, hlive⟩ := h.objects.live n x hx hstate
    exact ⟨d, hd, hgrow d hlive⟩
  · intro d n hd hreg
    rcases hreg with hreg | hreg
    · rcases (hch.registered d).mp hreg with rfl | hreg
      · exact (hheld n (Option.some.inj (howner.symm.trans hd))).2
      · exact h.objects.held d n hd (Or.inl hreg)
    · exact h.objects.held d n hd (Or.inr hreg)
  · intro n hn
    obtain ⟨hcount, x, d, hx, hd, hgone⟩ := h.objects.resets n hn
    refine ⟨hcount, x, d, hx, hd, ?_⟩
    intro hreg
    rcases (hch.registered d).mp hreg with rfl | hreg
    · have hn' := h.objects.channels n x d hx hd
      exact (hheld n (Option.some.inj (howner.symm.trans hn'))).1 hn
    · exact hgone hreg

/-- The Channel of a server or of a connection. -/
theorem change_plain (h : Inv w) {c : ChannelId} {o : Ownership.Owner} {interest : Interest}
    (howner : w.owner c = some o) (hplain : ∀ n, o ≠ .connector n)
    (hexec : w.change c interest = .ok w') : Inv w' :=
  h.change howner (fun n hn => absurd hn (hplain n)) hexec

/-- A change of a registered Channel takes no descriptor. -/
theorem change_find (h : Inv w) {c : ChannelId} {interest : Interest}
    (hreg : w.poller.Registered c) (hexec : w.change c interest = .ok w') {fd : ℕ}
    (hfd : w.poller.channelMap.find fd = none) : w'.poller.channelMap.find fd = none := by
  obtain ⟨p, hp, rfl⟩ := bind_pure_eq_ok.mp hexec
  have hch := Poller.change_changed h.objects.table hp
  cases hfind : p.channelMap.find fd with
  | none => rfl
  | some d =>
    have hkey := hch.table.keyed fd d hfind
    have hd : p.Registered d := by
      unfold Poller.Registered
      rw [← hkey]
      exact hfind
    have hold : w.poller.Registered d := by
      rcases (hch.registered d).mp hd with rfl | hd
      · exact hreg
      · exact hd
    unfold Poller.Registered at hold
    rw [← hch.fds d, ← hkey, hfd] at hold
    cases hold

/-- A Channel that no one relies on is removed. -/
theorem remove (h : Inv w) {c : ChannelId}
    (hconnections : ∀ k conn, w.connections k = some conn →
      conn.state = .kConnected ∨ conn.state = .kDisconnecting → conn.channel ≠ c)
    (hconnectors : ∀ n x, w.connectors n = some x → x.state = .kConnecting → x.channel ≠ some c)
    (hactive : c ∉ w.activeChannels)
    (hlawful : Removal.Lawful ⟨c, w.owner c, w.loop.phase, w.current⟩)
    (hexec : w.removeChannel c = .ok w') : Inv w' := by
  obtain ⟨p, hp, rfl⟩ := bind_pure_eq_ok.mp hexec
  have hrm := Poller.removeChannel_removed h.objects.table hp
  have hshrink : ∀ d, p.Registered d → w.poller.Registered d :=
    fun d hd => ((hrm.registered d).mp hd).2
  constructor
  · refine ⟨h.walk.idle, ?_, h.walk.nodup, h.walk.apart, ?_⟩
    · intro d hd
      refine (hrm.registered d).mpr ⟨?_, h.walk.registered d hd⟩
      rintro rfl
      exact hactive hd
    · intro r hr
      rcases List.mem_cons.mp hr with rfl | hr
      · exact hlawful
      · exact h.walk.removals r hr
  · refine { h.objects with
      table := hrm.table
      bound := fun d hd => h.objects.bound d (hshrink d hd)
      established := ?_
      live := ?_
      held := fun d n hd hreg => h.objects.held d n hd (hreg.imp_left (hshrink d))
      resets := ?_ }
    · intro k conn hk hstate
      exact (hrm.registered _).mpr
        ⟨hconnections k conn hk hstate, h.objects.established k conn hk hstate⟩
    · intro n x hx hstate
      obtain ⟨d, hd, hlive⟩ := h.objects.live n x hx hstate
      refine ⟨d, hd, (hrm.registered d).mpr ⟨?_, hlive⟩⟩
      rintro rfl
      exact hconnectors n x hx hstate hd
    · intro n hn
      obtain ⟨hcount, x, d, hx, hd, hgone⟩ := h.objects.resets n hn
      exact ⟨hcount, x, d, hx, hd, fun hreg => hgone (hshrink d hreg)⟩

/-- The `resetChannel` of a Channel that was removed. -/
theorem queueReset (h : Inv w) {n : ℕ} {x : Connector} {c : ChannelId}
    (hx : w.connectors n = some x) (hc : x.channel = some c) (hgone : ¬ w.poller.Registered c)
    (hnone : Functor.resetChannel n ∉ w.loop.queued) :
    Inv (w.queueInLoop (.resetChannel n)) := by
  refine ⟨h.walk.frame rfl rfl rfl rfl fun _ hc => hc, { h.objects with resets := ?_ }⟩
  intro m hm
  have hqueued : (w.queueInLoop (.resetChannel n)).loop.queued =
      w.loop.queued ++ [.resetChannel n] := EventLoop.queued_queueInLoop _ _
  rw [hqueued] at hm ⊢
  by_cases hmn : m = n
  · subst hmn
    refine ⟨?_, x, c, hx, hc, hgone⟩
    rw [List.count_append, List.count_eq_zero.mpr hnone, List.count_singleton_self]
  · have hmem : Functor.resetChannel m ∈ w.loop.queued := by
      rcases List.mem_append.mp hm with hm | hm
      · exact hm
      · exact absurd (List.mem_singleton.mp hm) (by simpa using hmn)
    obtain ⟨hcount, hy⟩ := h.objects.resets m hmem
    refine ⟨?_, hy⟩
    rw [List.count_append, hcount, List.count_singleton, if_neg (by simpa using Ne.symm hmn)]

/-- `channel_` is registered only while no reset is queued. -/
theorem no_reset (h : Inv w) {n : ℕ} {x : Connector} {c : ChannelId}
    (hx : w.connectors n = some x) (hc : x.channel = some c) (hreg : w.poller.Registered c) :
    Functor.resetChannel n ∉ w.loop.queued := by
  intro hn
  obtain ⟨-, y, d, hy, hd, hgone⟩ := h.objects.resets n hn
  obtain rfl := Option.some.inj (hx.symm.trans hy)
  obtain rfl := Option.some.inj (hc.symm.trans hd)
  exact hgone hreg

/-- The descriptor of a removed Channel is free. -/
theorem remove_find (h : Inv w) {c : ChannelId} (hexec : w.removeChannel c = .ok w') :
    ¬ w'.poller.Registered c ∧ w'.poller.channelMap.find (w'.poller.channels c).fd = none := by
  obtain ⟨p, hp, rfl⟩ := bind_pure_eq_ok.mp hexec
  have hrm := Poller.removeChannel_removed h.objects.table hp
  obtain ⟨-, -, -, hc, -⟩ := Poller.removeChannel_cases hp
  refine ⟨fun hreg => ((hrm.registered c).mp hreg).1 rfl, ?_⟩
  cases hfind : p.channelMap.find (p.channels c).fd with
  | none => rfl
  | some d =>
    have hkey := hrm.table.keyed _ d hfind
    have hd : p.Registered d := by
      unfold Poller.Registered
      rw [← hkey]
      exact hfind
    obtain ⟨hne, hold⟩ := (hrm.registered d).mp hd
    rw [hrm.fds, hrm.fds] at hkey
    exact absurd (hold.inj hc (by exact_mod_cast hkey.symm)) hne

/-- While `channel_` is being handled, `removeAndResetChannel` removes this very
Channel. The state that the callers set makes up for it. -/
theorem removeAndResetChannel (h : Inv w) {n : ℕ} {x : Connector} {c : ChannelId} {fd : ℕ}
    (howner : w.owner c = some (.connector n)) (hcurrent : w.current = some c)
    (hx : w.connectors n = some x) (hstate : x.state = .kConnecting) {t : Program}
    (hexec : w.removeAndResetChannel n = .ok (t, fd)) (state : Connector.States)
    (hended : state ≠ .kConnecting) :
    t.connectors n = some x ∧ t.poller.channelMap.find fd = none ∧
      Inv (t.setConnector n { x with state := state }) := by
  simp only [Program.removeAndResetChannel, bind_eq_ok, demand_eq_ok, pure_eq_ok,
    Except.ok.injEq, Prod.mk.injEq] at hexec
  obtain ⟨y, hy, d, hd, w₁, hchange, w₂, hremove, rfl, rfl⟩ := hexec
  obtain rfl := Option.some.inj (hx.symm.trans hy)
  obtain ⟨y, hy, hc⟩ := h.objects.held c n howner (Or.inr hcurrent)
  obtain rfl := Option.some.inj (hx.symm.trans hy)
  obtain rfl := Option.some.inj (hc.symm.trans hd)
  obtain ⟨e, he, hreg⟩ := h.objects.live n x hx hstate
  obtain rfl := Option.some.inj (hc.symm.trans he)
  have hreset := h.no_reset hx hc hreg
  have h₁ : Inv w₁ := by
    refine h.change howner ?_ hchange
    intro m hm
    cases hm
    exact ⟨hreset, x, hx, hc⟩
  obtain ⟨hgone, hfind⟩ := h₁.remove_find hremove
  obtain ⟨p, -, rfl⟩ := bind_pure_eq_ok.mp hchange
  -- set the state first: then no Connector that is connecting has the Channel
  have h₂ : Inv ({ w with poller := p }.setConnector n { x with state := state }) :=
    h₁.setConnector hx rfl fun hs => absurd hs hended
  obtain ⟨q, hq, rfl⟩ := bind_pure_eq_ok.mp hremove
  have hphase : w.loop.phase = .handling := by
    by_contra hphase
    rw [(h.walk.idle hphase).2] at hcurrent
    cases hcurrent
  have h₃ : Inv { w with
      connectors := Function.update w.connectors n (some { x with state := state })
      poller := q
      removals := ⟨c, w.owner c, w.loop.phase, w.current⟩ :: w.removals } := by
    refine h₂.remove (c := c) ?_ ?_ ?_ ?_ (bind_pure_eq_ok.mpr ⟨q, hq, rfl⟩)
    · intro k conn hk _ heq
      have hk' := h.objects.connections k conn hk
      rw [heq, howner] at hk'
      cases hk'
    · intro m y hm hlive heq
      rcases update_cases hm with ⟨rfl, rfl⟩ | ⟨hmn, hm⟩
      · exact hended hlive
      · have hm' := h.objects.channels m y c hm heq
        rw [howner] at hm'
        cases hm'
        exact hmn rfl
    · exact h.walk.apart c hcurrent
    · refine ⟨fun _ => hcurrent, ?_, ?_⟩
      · simp [Program.setConnector, hphase]
      · intro k hk
        have hk' : w.owner c = some (.connection k) := hk
        rw [howner] at hk'
        cases hk'
  exact ⟨hx, hfind, h₃.queueReset (Function.update_self ..) hc hgone hreset⟩

end Inv

/-! The functions of connections. -/

section Connections

variable {k : ℕ}

theorem connectEstablished_inv (h : Inv w) (hexec : w.connectEstablished k = .ok w') :
    Inv w' := by
  simp only [Program.connectEstablished, bind_eq_ok, demand_eq_ok, require_eq_ok] at hexec
  obtain ⟨conn, hk, -, -, hchange⟩ := hexec
  obtain ⟨p, hp, rfl⟩ := bind_pure_eq_ok.mp hchange
  have howner := h.objects.connections k conn hk
  have h₁ : Inv { w with poller := p } :=
    h.change_plain howner (by simp) (bind_pure_eq_ok.mpr ⟨p, hp, rfl⟩)
  have hreg : p.Registered conn.channel :=
    ((Poller.change_changed h.objects.table hp).registered _).mpr (Or.inl rfl)
  have h₂ : Inv ({ w with poller := p }.setConnection k { conn with state := .kConnected }) :=
    h₁.setConnection howner fun _ => hreg
  exact h₂

theorem sendInLoop_inv (h : Inv w) {left notify : Bool}
    (hexec : w.sendInLoop k left notify = .ok w') : Inv w' := by
  simp only [Program.sendInLoop, bind_eq_ok, demand_eq_ok] at hexec
  obtain ⟨conn, hk, hexec⟩ := hexec
  split at hexec
  · split at hexec
    · cases hexec
      exact h
    · exact h.change_plain (h.objects.connections k conn hk) (by simp) hexec
  · rw [pure_eq_ok, Except.ok.injEq] at hexec
    subst hexec
    split
    · exact h.queueInLoop (by simp)
    · exact h

theorem send_inv (h : Inv w) {thread : Thread} {left notify : Bool}
    (hexec : w.send thread k left notify = .ok w') : Inv w' := by
  simp only [Program.send, bind_eq_ok, demand_eq_ok] at hexec
  obtain ⟨conn, hk, hexec⟩ := hexec
  split at hexec
  · split at hexec
    · exact sendInLoop_inv h hexec
    · cases hexec
      exact h.queueInLoop (by simp)
  · cases hexec
    exact h

theorem shutdown_inv (h : Inv w) {thread : Thread} (hexec : w.shutdown thread k = .ok w') :
    Inv w' := by
  simp only [Program.shutdown, bind_eq_ok, demand_eq_ok] at hexec
  obtain ⟨conn, hk, hexec⟩ := hexec
  split at hexec
  · rename_i hstate
    have h₁ : Inv (w.setConnection k { conn with state := .kDisconnecting }) :=
      h.setConnection (h.objects.connections k conn hk)
        fun _ => h.objects.established k conn hk (Or.inl hstate)
    rw [pure_eq_ok, Except.ok.injEq] at hexec
    subst hexec
    split
    · exact h₁
    · exact h₁.queueInLoop (by simp)
  · cases hexec
    exact h

theorem handleWrite_inv (h : Inv w) {drained notify : Bool}
    (hexec : w.handleWrite k drained notify = .ok w') : Inv w' := by
  simp only [Program.handleWrite, bind_eq_ok, demand_eq_ok] at hexec
  obtain ⟨conn, hk, hexec⟩ := hexec
  split at hexec
  · simp only [bind_pure_eq_ok] at hexec
    obtain ⟨w₁, hchange, rfl⟩ := hexec
    have h₁ := h.change_plain (h.objects.connections k conn hk) (by simp) hchange
    split
    · exact h₁.queueInLoop (by simp)
    · exact h₁
  · cases hexec
    exact h

/-- `connectDestroyed` runs among the functors, after the walk. -/
theorem connectDestroyed_inv (h : Inv w) (hphase : w.loop.phase = .calling)
    (hexec : w.connectDestroyed k = .ok w') : Inv w' := by
  simp only [Program.connectDestroyed, bind_eq_ok, demand_eq_ok, require_eq_ok] at hexec
  obtain ⟨conn, hk, -, -, w₁, hchange, hremove⟩ := hexec
  have howner := h.objects.connections k conn hk
  have h₀ : Inv (w.setConnection k { conn with state := .kDisconnected }) :=
    h.setConnection howner (by simp)
  have h₁ := h₀.change_plain howner (by simp) hchange
  obtain ⟨p, -, rfl⟩ := bind_pure_eq_ok.mp hchange
  have hidle := h.walk.idle (by simp [hphase])
  refine h₁.remove ?_ ?_ ?_ ?_ hremove
  · intro j conn' hj hstate heq
    rcases update_cases hj with ⟨rfl, rfl⟩ | ⟨hjk, hj⟩
    · simp at hstate
    · have hj' := h.objects.connections j conn' hj
      rw [heq, howner] at hj'
      cases hj'
      exact hjk rfl
  · intro n x hx _ heq
    have hn := h.objects.channels n x conn.channel hx heq
    rw [howner] at hn
    cases hn
  · have hnil : w.activeChannels = [] := hidle.1
    simp [Program.setConnection, hnil]
  · refine ⟨?_, ?_, ?_⟩
    · intro hwalk
      have hwalk' : w.loop.phase = .handling := hwalk
      rw [hphase] at hwalk'
      cases hwalk'
    · intro hpoll
      have hpoll' : w.loop.phase = .polling := hpoll
      rw [hphase] at hpoll'
      cases hpoll'
    · intro _ _
      exact hphase

end Connections

/-! The functions of Connectors. -/

section Connectors

variable {n : ℕ} {x : Connector} {a : Attempt} {e : Env}

theorem retry_inv (hx : w.connectors n = some x)
    (h : Inv (w.setConnector n { x with state := .kDisconnected }))
    (hexec : w.retry n = .ok w') : Inv w' := by
  simp only [Program.retry, bind_pure_eq_ok, demand_eq_ok] at hexec
  obtain ⟨y, hy, rfl⟩ := hexec
  obtain rfl := Option.some.inj (hx.symm.trans hy)
  split
  · exact h.setTimers _
  · exact h

/-- The Channel becomes `channel_` and is registered before it counts as
connecting. -/
theorem connecting_inv (h : Inv w) (hx : w.connectors n = some x) (hstate : x.state ≠ .kConnecting)
    {sockfd : ℕ} (hfd : w.poller.channelMap.find sockfd = none)
    (hexec : w.connecting n sockfd = .ok w') : Inv w' := by
  simp only [Program.connecting, bind_eq_ok, demand_eq_ok, require_eq_ok] at hexec
  obtain ⟨y, hy, -, hnone, hchange⟩ := hexec
  obtain rfl := Option.some.inj (hx.symm.trans hy)
  obtain ⟨p, hp, rfl⟩ := bind_pure_eq_ok.mp hchange
  have h₁ := h.newChannel (.connector n) hfd
  have howner : (w.newChannel (.connector n) sockfd).owner w.next = some (.connector n) :=
    Function.update_self ..
  have h₂ := h₁.setChannel hx hnone hstate howner
  have hset : ((w.newChannel (.connector n) sockfd).setConnector n
      { x with channel := some w.next }).connectors n = some { x with channel := some w.next } :=
    Function.update_self ..
  have hreset : Functor.resetChannel n ∉ w.loop.queued := by
    intro hn
    obtain ⟨-, y, d, hy, hd, -⟩ := h.objects.resets n hn
    rw [← Option.some.inj (hx.symm.trans hy), hnone] at hd
    cases hd
  have h₃ : Inv { (w.newChannel (.connector n) sockfd).setConnector n
      { x with channel := some w.next } with poller := p } := by
    refine h₂.change howner ?_ (bind_pure_eq_ok.mpr ⟨p, hp, rfl⟩)
    intro m hm
    cases hm
    exact ⟨hreset, _, hset, rfl⟩
  have hreg : p.Registered w.next :=
    ((Poller.change_changed h₁.objects.table hp).registered _).mpr (Or.inl rfl)
  have hlast : ∀ x', x'.channel = some w.next → Inv ({ (w.newChannel (.connector n)
      sockfd).setConnector n { x with channel := some w.next } with poller := p }.setConnector
        n x') :=
    fun x' hx' => h₃.setConnector hset hx' fun _ => ⟨w.next, rfl, hreg⟩
  simpa [Program.setConnector] using
    hlast { x with state := .kConnecting, channel := some w.next } rfl

theorem startInLoop_inv (h : Inv w) (hfd : w.poller.channelMap.find a.sockfd = none)
    (hexec : w.startInLoop n a = .ok w') : Inv w' := by
  simp only [Program.startInLoop, bind_eq_ok, demand_eq_ok, require_eq_ok] at hexec
  obtain ⟨x, hx, -, hstate, hexec⟩ := hexec
  split at hexec
  · unfold Program.connect at hexec
    split at hexec
    · exact connecting_inv h hx (by simp [hstate]) hfd hexec
    · refine retry_inv hx ?_ hexec
      exact h.setConnector hx rfl (by simp)
    · cases hexec
      exact h
  · cases hexec
    exact h

theorem start_inv (h : Inv w) {thread : Thread} (hfd : w.poller.channelMap.find a.sockfd = none)
    (hexec : w.start thread n a = .ok w') : Inv w' := by
  simp only [Program.start, bind_eq_ok, demand_eq_ok] at hexec
  obtain ⟨x, hx, hexec⟩ := hexec
  have h₁ : Inv (w.setConnector n { x with connect_ := true }) :=
    h.setConnector hx rfl (h.objects.live n x hx)
  split at hexec
  · exact startInLoop_inv h₁ hfd hexec
  · cases hexec
    exact h₁.queueInLoop (by simp)

theorem restart_inv (h : Inv w) (hfd : w.poller.channelMap.find a.sockfd = none)
    (hexec : w.restart n a = .ok w') : Inv w' := by
  simp only [Program.restart, bind_eq_ok, demand_eq_ok] at hexec
  obtain ⟨x, hx, hexec⟩ := hexec
  have h₁ : Inv (w.setConnector n { x with state := .kDisconnected, connect_ := true }) :=
    h.setConnector hx rfl (by simp)
  exact startInLoop_inv h₁ hfd hexec

theorem stop_inv (h : Inv w) {thread : Thread} (hexec : w.stop thread n = .ok w') : Inv w' := by
  simp only [Program.stop, bind_pure_eq_ok, demand_eq_ok] at hexec
  obtain ⟨x, hx, rfl⟩ := hexec
  have h₁ : Inv (w.setConnector n { x with connect_ := false }) :=
    h.setConnector hx rfl (h.objects.live n x hx)
  split
  · exact h₁
  · exact h₁.queueInLoop (by simp)

theorem newConnector_inv (h : Inv w) (client : Option ℕ) : Inv (w.newConnector client) := by
  have hfresh : w.connectors w.next = none := by
    cases hx : w.connectors w.next with
    | none => rfl
    | some x => exact absurd (h.objects.numbered w.next x hx) (Nat.lt_irrefl _)
  have hold : ∀ m y, w.connectors m = some y → (w.newConnector client).connectors m = some y := by
    intro m y hm
    refine (Function.update_of_ne ?_ ..).trans hm
    rintro rfl
    rw [hfresh] at hm
    cases hm
  refine ⟨h.walk.frame rfl rfl rfl rfl fun _ hc => hc, { h.objects with
    bound := fun c hc => Nat.lt_succ_of_lt (h.objects.bound c hc)
    owned := fun c hc => Nat.lt_succ_of_lt (h.objects.owned c hc)
    running := fun c hc => Nat.lt_succ_of_lt (h.objects.running c hc)
    numbered := ?_
    channels := ?_
    live := ?_
    held := ?_
    resets := ?_ }⟩
  · intro m y hm
    rcases update_cases hm with ⟨rfl, -⟩ | ⟨-, hm⟩
    · exact Nat.lt_succ_self _
    · exact Nat.lt_succ_of_lt (h.objects.numbered m y hm)
  · intro m y c hm hc
    rcases update_cases hm with ⟨-, rfl⟩ | ⟨-, hm⟩
    · cases hc
    · exact h.objects.channels m y c hm hc
  · intro m y hm hstate
    rcases update_cases hm with ⟨-, rfl⟩ | ⟨-, hm⟩
    · cases hstate
    · exact h.objects.live m y hm hstate
  · intro c m howner hc
    obtain ⟨y, hm, hy⟩ := h.objects.held c m howner hc
    exact ⟨y, hold m y hm, hy⟩
  · intro m hm
    obtain ⟨hcount, y, c, hy, hc⟩ := h.objects.resets m hm
    exact ⟨hcount, y, c, hold m y hy, hc⟩

theorem connectorHandleError_inv (h : Inv w) {c : ChannelId}
    (howner : w.owner c = some (.connector n)) (hcurrent : w.current = some c)
    (hexec : w.connectorHandleError n = .ok w') : Inv w' := by
  simp only [Program.connectorHandleError, bind_eq_ok, demand_eq_ok, require_eq_ok] at hexec
  obtain ⟨x, hx, -, hstate, ⟨t, fd⟩, hremove, hretry⟩ := hexec
  obtain ⟨ht, -, hinv⟩ := h.removeAndResetChannel howner hcurrent hx hstate hremove
    .kDisconnected (by simp)
  exact retry_inv ht hinv hretry

end Connectors

/-! The functions of servers and clients. -/

section Owners

variable {s c k fd : ℕ} {a : Attempt} {e : Env} {thread : Thread}

theorem newTcpConnection_inv (h : Inv w) (hfd : w.poller.channelMap.find fd = none)
    (cb : CloseCallback) : Inv (w.newTcpConnection fd cb) :=
  (h.newChannel (.connection w.next) hfd).setConnection (Function.update_self ..) (by simp)

theorem newTcpServer_inv (h : Inv w) (hfd : w.poller.channelMap.find fd = none) :
    Inv (w.newTcpServer fd) :=
  (h.newChannel (.acceptor w.next) hfd).setServer (Function.update_self ..)

theorem listen_inv (h : Inv w) (hexec : w.listen s = .ok w') : Inv w' := by
  simp only [Program.listen, bind_eq_ok, demand_eq_ok] at hexec
  obtain ⟨sv, hs, hchange⟩ := hexec
  have howner := h.objects.servers s sv hs
  have h₁ : Inv (w.setServer s { sv with listening := true }) := h.setServer howner
  exact h₁.change_plain howner (by simp) hchange

theorem startServer_inv (h : Inv w) (hexec : w.startServer thread s = .ok w') : Inv w' := by
  simp only [Program.startServer, bind_eq_ok, demand_eq_ok] at hexec
  obtain ⟨sv, hs, hexec⟩ := hexec
  split at hexec
  · cases hexec
    exact h
  · split at hexec
    · exact listen_inv h hexec
    · cases hexec
      exact h.queueInLoop (by simp)

theorem newServerConnection_inv (h : Inv w) (hfd : w.poller.channelMap.find fd = none)
    (hexec : w.newServerConnection s fd = .ok w') : Inv w' := by
  simp only [Program.newServerConnection, bind_eq_ok, demand_eq_ok] at hexec
  obtain ⟨sv, hs, hexec⟩ := hexec
  have h₁ := newTcpConnection_inv h hfd (.server s)
  have howner := h₁.objects.servers s sv hs
  refine connectEstablished_inv ?_ hexec
  exact h₁.setServer howner

theorem newTcpClient_inv (h : Inv w) : Inv w.newTcpClient :=
  (newConnector_inv h _).setClient _ _

theorem connectClient_inv (h : Inv w) (hfd : w.poller.channelMap.find a.sockfd = none)
    (hexec : w.connectClient thread c a = .ok w') : Inv w' := by
  simp only [Program.connectClient, bind_eq_ok, demand_eq_ok] at hexec
  obtain ⟨cl, -, hstart⟩ := hexec
  exact start_inv (h.setClient _ _) hfd hstart

theorem disconnectClient_inv (h : Inv w) (hexec : w.disconnectClient thread c = .ok w') :
    Inv w' := by
  simp only [Program.disconnectClient, bind_eq_ok, demand_eq_ok] at hexec
  obtain ⟨cl, -, hexec⟩ := hexec
  split at hexec
  · cases hexec
    exact h.setClient _ _
  · exact shutdown_inv (h.setClient _ _) hexec

theorem stopClient_inv (h : Inv w) (hexec : w.stopClient thread c = .ok w') : Inv w' := by
  simp only [Program.stopClient, bind_eq_ok, demand_eq_ok] at hexec
  obtain ⟨cl, -, hstop⟩ := hexec
  exact stop_inv (h.setClient _ _) hstop

theorem enableRetry_inv (h : Inv w) (hexec : w.enableRetry c = .ok w') : Inv w' := by
  simp only [Program.enableRetry, bind_pure_eq_ok, demand_eq_ok] at hexec
  obtain ⟨cl, -, rfl⟩ := hexec
  exact h.setClient _ _

theorem newClientConnection_inv (h : Inv w) (hfd : w.poller.channelMap.find fd = none)
    (hexec : w.newClientConnection c fd = .ok w') : Inv w' := by
  simp only [Program.newClientConnection, bind_eq_ok, demand_eq_ok] at hexec
  obtain ⟨cl, -, hexec⟩ := hexec
  refine connectEstablished_inv ?_ hexec
  exact (newTcpConnection_inv h hfd _).setClient _ _

theorem closeCallback_inv (h : Inv w) (hfd : w.poller.channelMap.find a.sockfd = none)
    {cb : CloseCallback} (hexec : w.closeCallback k a cb = .ok w') : Inv w' := by
  cases cb with
  | server s =>
    simp only [Program.closeCallback, bind_eq_ok, demand_eq_ok, require_eq_ok, pure_eq_ok,
      Except.ok.injEq] at hexec
    obtain ⟨sv, hs, -, -, rfl⟩ := hexec
    refine Inv.queueInLoop ?_ (by simp)
    exact h.setServer (h.objects.servers s sv hs)
  | client c =>
    simp only [Program.closeCallback, bind_eq_ok, demand_eq_ok, require_eq_ok] at hexec
    obtain ⟨cl, -, -, -, hexec⟩ := hexec
    split at hexec
    · exact restart_inv ((h.setClient _ _).queueInLoop (by simp)) hfd hexec
    · cases hexec
      exact (h.setClient _ _).queueInLoop (by simp)
  | detached =>
    cases hexec
    exact h.queueInLoop (by simp)

/-- The Channel stays registered, without interest. -/
theorem handleClose_inv (h : Inv w) (hfd : w.poller.channelMap.find a.sockfd = none)
    (hexec : w.handleClose k a = .ok w') : Inv w' := by
  simp only [Program.handleClose, bind_eq_ok, demand_eq_ok, require_eq_ok] at hexec
  obtain ⟨conn, hk, -, hstate, w₁, hchange, hexec⟩ := hexec
  have h₁ := h.change_plain (h.objects.connections k conn hk) (by simp) hchange
  have hreg := h.objects.established k conn hk hstate
  exact closeCallback_inv h₁ (h.change_find hreg hchange hfd) hexec

theorem handleConnection_inv (h : Inv w)
    (hfd : w.poller.channelMap.find e.attempt.sockfd = none) {cb : Callback}
    (hexec : w.handleConnection k e cb = .ok w') : Inv w' := by
  cases cb with
  | close => exact handleClose_inv h hfd hexec
  | error =>
    cases hexec
    exact h
  | read =>
    simp only [Program.handleConnection] at hexec
    split at hexec
    · exact handleClose_inv h hfd hexec
    · cases hexec
      exact h
  | write => exact handleWrite_inv h hexec

theorem connectorHandleWrite_inv (h : Inv w) {n : ℕ} {ch : ChannelId}
    (howner : w.owner ch = some (.connector n)) (hcurrent : w.current = some ch)
    (hexec : w.connectorHandleWrite n e = .ok w') : Inv w' := by
  simp only [Program.connectorHandleWrite, bind_eq_ok, demand_eq_ok] at hexec
  obtain ⟨x, hx, hexec⟩ := hexec
  split at hexec
  · rename_i hstate
    obtain ⟨⟨t, fd⟩, hremove, hexec⟩ := bind_eq_ok.mp hexec
    dsimp only at hexec
    split at hexec
    · obtain ⟨ht, -, hinv⟩ := h.removeAndResetChannel howner hcurrent hx hstate hremove
        .kDisconnected (by simp)
      exact retry_inv ht hinv hexec
    · obtain ⟨-, hfd, hinv⟩ := h.removeAndResetChannel howner hcurrent hx hstate hremove
        .kConnected (by simp)
      split at hexec
      · unfold Program.handOver at hexec
        split at hexec
        · cases hexec
          exact hinv
        · exact newClientConnection_inv hinv hfd hexec
      · cases hexec
        exact hinv
  · simp only [bind_eq_ok, require_eq_ok, pure_eq_ok, Except.ok.injEq] at hexec
    obtain ⟨-, -, rfl⟩ := hexec
    exact h

/-- A callback of the Channel that is being handled. -/
theorem handle_inv (h : Inv w) {ch : ChannelId} (hcurrent : w.current = some ch)
    (haccepted : ∀ fd ∈ e.accepted, w.poller.channelMap.find fd = none)
    (hfd : w.poller.channelMap.find e.attempt.sockfd = none) {cb : Callback}
    (hexec : w.handle ch e cb = .ok w') : Inv w' := by
  unfold Program.handle at hexec
  split at hexec
  · cases hexec
  · split at hexec
    · cases haccept : e.accepted with
      | none =>
        rw [haccept] at hexec
        cases hexec
        exact h
      | some fd =>
        rw [haccept] at hexec
        exact newServerConnection_inv h (haccepted fd haccept) hexec
    · cases hexec
      exact h
  · exact handleConnection_inv h hfd hexec
  · rename_i n howner
    cases cb with
    | write => exact connectorHandleWrite_inv h howner hcurrent hexec
    | error => exact connectorHandleError_inv h howner hcurrent hexec
    | close | read =>
      cases hexec
      exact h
  · cases hexec
    exact h

end Owners

/-! The functors and the steps of the loop. -/

section Steps

variable {a : Attempt}

/-- A functor other than `resetChannel` leaves the vector. -/
theorem popFunctor_inv (h : Inv w) {f : Functor} {rest : List Functor}
    (hf : w.loop.functors = f :: rest) (hne : ∀ n, f ≠ .resetChannel n) :
    Inv { w with loop := w.loop.popFunctor } := by
  refine ⟨h.walk.frame rfl rfl rfl rfl fun _ hc => hc, { h.objects with resets := ?_ }⟩
  intro n hn
  have hqueued := EventLoop.queued_popFunctor hf
  obtain ⟨hcount, hx⟩ := h.objects.resets n (by rw [hqueued]; exact List.mem_cons_of_mem _ hn)
  refine ⟨?_, hx⟩
  rwa [hqueued, List.count_cons_of_ne (hne n)] at hcount

/-- `resetChannel` finds the Channel for which it was queued, which is not
registered. -/
theorem resetChannel_inv (h : Inv w) (hphase : w.loop.phase = .calling) {n : ℕ}
    {rest : List Functor} (hf : w.loop.functors = .resetChannel n :: rest)
    (hexec : { w with loop := w.loop.popFunctor }.resetChannel n = .ok w') : Inv w' := by
  simp only [Program.resetChannel, bind_pure_eq_ok, demand_eq_ok] at hexec
  obtain ⟨x, hx, rfl⟩ := hexec
  have hx : w.connectors n = some x := hx
  have hqueued := EventLoop.queued_popFunctor hf
  obtain ⟨hcount, y, c, hy, hc, hgone⟩ :=
    h.objects.resets n (by rw [hqueued]; exact List.mem_cons_self)
  obtain rfl := Option.some.inj (hx.symm.trans hy)
  have hidle := h.walk.idle (by simp [hphase])
  have hlast : Functor.resetChannel n ∉ w.loop.popFunctor.queued := by
    rw [hqueued, List.count_cons_self] at hcount
    exact List.count_eq_zero.mp (by omega)
  refine ⟨h.walk.frame rfl rfl rfl rfl fun _ hc => hc, { h.objects with
    numbered := ?_
    channels := ?_
    live := ?_
    held := ?_
    resets := ?_ }⟩
  · intro m z hm
    rcases update_cases hm with ⟨rfl, -⟩ | ⟨-, hm⟩
    · exact h.objects.numbered m x hx
    · exact h.objects.numbered m z hm
  · intro m z d hm hd
    rcases update_cases hm with ⟨-, rfl⟩ | ⟨-, hm⟩
    · cases hd
    · exact h.objects.channels m z d hm hd
  · intro m z hm hstate
    rcases update_cases hm with ⟨rfl, rfl⟩ | ⟨-, hm⟩
    · obtain ⟨d, hd, hlive⟩ := h.objects.live m x hx hstate
      obtain rfl := Option.some.inj (hc.symm.trans hd)
      exact absurd hlive hgone
    · exact h.objects.live m z hm hstate
  · intro d m howner hheld
    obtain ⟨z, hm, hz⟩ := h.objects.held d m howner hheld
    refine ⟨z, (Function.update_of_ne ?_ ..).trans hm, hz⟩
    rintro rfl
    obtain rfl := Option.some.inj (hx.symm.trans hm)
    obtain rfl := Option.some.inj (hc.symm.trans hz)
    rcases hheld with hreg | hcurrent
    · exact hgone hreg
    · have hnone : w.current = none := hidle.2
      have hcurrent : w.current = some c := hcurrent
      rw [hnone] at hcurrent
      cases hcurrent
  · intro m hm
    have hm : Functor.resetChannel m ∈ w.loop.popFunctor.queued := hm
    have hmn : m ≠ n := by
      rintro rfl
      exact hlast hm
    obtain ⟨hcount', z, d, hz, hd⟩ :=
      h.objects.resets m (by rw [hqueued]; exact List.mem_cons_of_mem _ hm)
    refine ⟨?_, z, d, (Function.update_of_ne hmn ..).trans hz, hd⟩
    rwa [hqueued, List.count_cons_of_ne (by simpa using Ne.symm hmn)] at hcount'

theorem call_inv (h : Inv w) (hphase : w.loop.phase = .calling) {f : Functor}
    {rest : List Functor} (hf : w.loop.functors = f :: rest)
    (hfd : w.poller.channelMap.find a.sockfd = none) {left notify : Bool}
    (hexec : { w with loop := w.loop.popFunctor }.call a left notify f = .ok w') : Inv w' := by
  cases f with
  | listen s => exact listen_inv (popFunctor_inv h hf (by simp)) hexec
  | sendInLoop k => exact sendInLoop_inv (popFunctor_inv h hf (by simp)) hexec
  | connectDestroyed k =>
    exact connectDestroyed_inv (popFunctor_inv h hf (by simp)) hphase hexec
  | startInLoop n => exact startInLoop_inv (popFunctor_inv h hf (by simp)) hfd hexec
  | resetChannel n => exact resetChannel_inv h hphase hf hexec
  | other =>
    cases hexec
    exact popFunctor_inv h hf (by simp)

theorem fire_inv (h : Inv w) (hfd : w.poller.channelMap.find a.sockfd = none)
    {cb : TimerCallback} (hexec : w.fire a cb = .ok w') : Inv w' := by
  cases cb with
  | startInLoop n => exact startInLoop_inv h hfd hexec
  | other =>
    cases hexec
    exact h

/-- What poll(2) reports changes no registration. -/
theorem reported_same (p : Poller) (events : List (ChannelId × EventMask))
    (htable : Poller.Table p) : Poller.Table (Program.reported p events) ∧
      ∀ c, (Program.reported p events).Registered c ↔ p.Registered c := by
  induction events generalizing p with
  | nil => exact ⟨htable, fun c => Iff.rfl⟩
  | cons event rest ih =>
    obtain ⟨htable', hreg⟩ := ih (p.setRevents event.1 event.2) (htable.setRevents _ _)
    exact ⟨htable', fun c => (hreg c).trans Poller.registered_setRevents⟩

/-- The report begins the walk with registered Channels. -/
theorem poll_inv (h : Inv w) {events : List (ChannelId × EventMask)}
    (hphase : w.loop.phase = .polling) (hnodup : (events.map Prod.fst).Nodup)
    (hreg : ∀ p ∈ events, w.poller.Registered p.1) :
    Inv { w with loop := w.loop.handleActive
                 poller := Program.reported w.poller events
                 activeChannels := events.map Prod.fst } := by
  obtain ⟨htable, hsame⟩ := reported_same w.poller events h.objects.table
  have hidle := h.walk.idle (by simp [hphase])
  constructor
  · refine ⟨?_, ?_, hnodup, ?_, h.walk.removals⟩
    · intro hne
      exact absurd rfl hne
    · intro c hc
      obtain ⟨event, hevent, rfl⟩ := List.mem_map.mp hc
      exact (hsame _).mpr (hreg event hevent)
    · intro c hc
      have hc : w.current = some c := hc
      rw [hidle.2] at hc
      cases hc
  · refine { h.objects with
      table := htable
      bound := fun c hc => h.objects.bound c ((hsame c).mp hc)
      established := fun k conn hk hstate =>
        (hsame _).mpr (h.objects.established k conn hk hstate)
      live := ?_
      held := fun c n howner hc => h.objects.held c n howner (hc.imp_left (hsame c).mp)
      resets := ?_ }
    · intro n x hx hstate
      obtain ⟨c, hc, hlive⟩ := h.objects.live n x hx hstate
      exact ⟨c, hc, (hsame c).mpr hlive⟩
    · intro n hn
      obtain ⟨hcount, x, c, hx, hc, hgone⟩ := h.objects.resets n hn
      exact ⟨hcount, x, c, hx, hc, fun hreg => hgone ((hsame c).mp hreg)⟩

/-- The next active Channel is registered when its `handleEvent` starts. -/
theorem handleEvent_inv (h : Inv w) (hphase : w.loop.phase = .handling) {c : ChannelId}
    {rest : List ChannelId} (hactive : w.activeChannels = c :: rest) (callbacks : List Callback) :
    Inv { w with activeChannels := rest, current := some c, callbacks := callbacks } := by
  have hc : w.poller.Registered c := h.walk.registered c (by simp [hactive])
  have hnodup := h.walk.nodup
  rw [hactive, List.nodup_cons] at hnodup
  constructor
  · refine ⟨fun hne => absurd hphase hne, ?_, hnodup.2, ?_, h.walk.removals⟩
    · intro d hd
      exact h.walk.registered d (by rw [hactive]; exact List.mem_cons_of_mem _ hd)
    · intro d hd
      obtain rfl := Option.some.inj hd
      exact hnodup.1
  · refine { h.objects with running := ?_, held := ?_ }
    · intro d hd
      obtain rfl := Option.some.inj hd
      exact h.objects.bound c hc
    · intro d n howner hd
      refine h.objects.held d n howner (Or.inl ?_)
      rcases hd with hd | hd
      · exact hd
      · obtain rfl := Option.some.inj hd
        exact hc

end Steps

theorem step_inv (h : Inv w) {i : Input} (hallow : Allowed w i) (hexec : exec w i = .ok w') :
    Inv w' := by
  cases i with
  | newServer fd =>
    cases hexec
    exact newTcpServer_inv h hallow
  | startServer thread s => exact startServer_inv h hexec
  | newConnector =>
    cases hexec
    exact newConnector_inv h none
  | start thread n a => exact start_inv h hallow hexec
  | restart n a => exact restart_inv h hallow hexec
  | stop thread n => exact stop_inv h hexec
  | newClient =>
    cases hexec
    exact newTcpClient_inv h
  | connectClient thread c a => exact connectClient_inv h hallow hexec
  | disconnectClient thread c => exact disconnectClient_inv h hexec
  | stopClient thread c => exact stopClient_inv h hexec
  | enableRetry c => exact enableRetry_inv h hexec
  | send thread k left notify => exact send_inv h hexec
  | shutdown thread k => exact shutdown_inv h hexec
  | addTimer | cancel j =>
    cases hexec
    exact h.setTimers _
  | queueInLoop =>
    cases hexec
    exact h.queueInLoop (by simp)
  | poll events =>
    cases hexec
    obtain ⟨hphase, hnodup, hreg⟩ := hallow
    exact poll_inv h hphase hnodup fun p hp => (hreg p hp).1
  | handleEvent =>
    obtain ⟨hphase, -, hactive⟩ := hallow
    obtain ⟨c, rest, hactive⟩ := List.exists_cons_of_ne_nil hactive
    simp only [exec, hactive, Except.ok.injEq] at hexec
    subst hexec
    exact handleEvent_inv h hphase hactive _
  | callback e =>
    obtain ⟨-, haccepted, hfd⟩ := hallow
    have hpop : ∀ callbacks, Inv { w with callbacks := callbacks } := fun callbacks =>
      ⟨h.walk.frame rfl rfl rfl rfl fun _ hc => hc, { h.objects with }⟩
    simp only [exec] at hexec
    split at hexec
    · rename_i c cb rest hcurrent _
      exact handle_inv (hpop rest) hcurrent haccepted hfd hexec
    · cases hexec
      exact h
  | timer j a =>
    obtain ⟨-, -, hfd⟩ := hallow
    simp only [exec] at hexec
    split at hexec
    · cases hexec
      exact h
    · have h₁ := h.setTimers (w.timers.eraseIdx j)
      exact fire_inv h₁ hfd hexec
  | endEvent =>
    cases hexec
    refine ⟨⟨?_, h.walk.registered, h.walk.nodup, ?_, h.walk.removals⟩, { h.objects with
      running := ?_, held := ?_ }⟩
    · intro hphase
      exact ⟨(h.walk.idle hphase).1, rfl⟩
    · intro c hc
      cases hc
    · intro c hc
      cases hc
    · intro c n howner hc
      refine h.objects.held c n howner (Or.inl (hc.resolve_right ?_))
      intro hc
      cases hc
  | swapFunctors =>
    cases hexec
    obtain ⟨-, hcurrent, hactive⟩ := hallow
    refine ⟨⟨fun _ => ⟨hactive, hcurrent⟩, h.walk.registered, h.walk.nodup, h.walk.apart,
      h.walk.removals⟩, { h.objects with resets := ?_ }⟩
    intro n hn
    have hqueued : w.loop.swapFunctors.queued = w.loop.pendingFunctors := List.append_nil _
    have hn : Functor.resetChannel n ∈ w.loop.swapFunctors.queued := hn
    rw [hqueued] at hn
    obtain ⟨hcount, hx⟩ := h.objects.resets n (List.mem_append_right _ hn)
    have hpos := List.count_pos_iff.mpr hn
    refine ⟨?_, hx⟩
    rw [EventLoop.queued, List.count_append] at hcount
    rw [hqueued]
    omega
  | functor a left notify =>
    obtain ⟨hphase, hfunctors, hfd⟩ := hallow
    obtain ⟨f, rest, hf⟩ := List.exists_cons_of_ne_nil hfunctors
    simp only [exec, hf] at hexec
    exact call_inv h hphase hf hfd hexec
  | endIteration =>
    cases hexec
    obtain ⟨hphase, -⟩ := hallow
    refine ⟨⟨?_, h.walk.registered, h.walk.nodup, h.walk.apart, h.walk.removals⟩,
      { h.objects with }⟩
    intro _
    exact h.walk.idle (by simp [hphase])

theorem fresh_inv (h : Fresh w) : Inv w := by
  obtain ⟨poller, timerfdChannel, next, htable, hbound, rfl⟩ := h
  constructor
  · refine ⟨fun _ => ⟨rfl, rfl⟩, ?_, List.nodup_nil, ?_, ?_⟩
    · intro c hc
      cases hc
    · intro c hc
      cases hc
    · intro r hr
      cases hr
  · refine
      { table := htable
        bound := hbound
        owned := ?_
        running := by simp [initial]
        servers := by simp [initial]
        connections := by simp [initial]
        established := by simp [initial]
        numbered := by simp [initial]
        channels := by simp [initial]
        live := by simp [initial]
        held := ?_
        resets := by simp [initial, EventLoop.queued, EventLoop.initial] }
    · intro c hc
      have hc : (if c < next then some Ownership.Owner.other else none) ≠ none := hc
      by_contra hlt
      exact hc (if_neg hlt)
    · intro c n hc
      simp only [initial] at hc
      split at hc
      · cases hc
      · cases hc

/-- In every run: every active Channel whose turn has not come is registered, so
that it is when its `handleEvent` starts; a Channel that is removed while the
active ones are walked is the one that is being handled; and the Channel of a
connection is removed by a pending functor. -/
theorem active_channels_registered {w : Program} (h : Reachable system w) :
    (∀ c ∈ w.activeChannels, w.poller.Registered c) ∧
      (∀ r ∈ w.removals, r.phase = .handling → r.current = some r.channel) ∧
      (∀ r ∈ w.removals, ∀ k, r.owner = some (.connection k) → r.phase = .calling) ∧
      ∀ r ∈ w.removals, r.phase ≠ .polling := by
  have hinv : Inv w := by
    refine h.invariant ?_ ?_
    · intro s hs
      exact fresh_inv hs
    · intro s i s' hs hallow _ hexec
      exact step_inv hs hallow hexec
  have hwalk := hinv.walk
  refine ⟨hwalk.registered, ?_, ?_, ?_⟩
  · intro r hr
    exact (hwalk.removals r hr).own
  · intro r hr
    exact (hwalk.removals r hr).deferred
  · intro r hr
    exact (hwalk.removals r hr).awake

def idleProgram : Program := initial (Poller.initial (· + 3)) 1 2

theorem idleProgram_fresh : Fresh idleProgram := by
  refine ⟨Poller.initial (· + 3), 1, 2, Poller.initial_table _, ?_, rfl⟩
  intro c hc
  simp [Poller.initial, Poller.Registered] at hc

def meets (accepted : Option ℕ) (read : ReadResult) : Env :=
  ⟨accepted, read, false, false, 0, false, ⟨20, none⟩⟩

/-- A server accepts a connection while a client is connecting. In the next
iteration the attempt fails first, the connection is closed after it, and the
server's Channel is still to come. -/
def busyIteration : List Input :=
  [.newServer 7, .startServer .loop 2, .newClient,
    .connectClient .loop 3 ⟨8, some .EINPROGRESS⟩, .poll [(2, pollIn)], .handleEvent,
    .callback (meets (some 9) .error), .endEvent, .swapFunctors, .endIteration,
    .poll [(4, pollErr ||| pollOut), (5, pollIn), (2, pollIn)], .handleEvent,
    .callback (meets none .error), .callback (meets none .error), .endEvent, .handleEvent,
    .callback (meets none .eof), .endEvent]

theorem busyIteration_registered : ∃ w, Reachable system w ∧ w.activeChannels = [2] ∧
    w.removals = [⟨4, some (.connector 3), .handling, some 4⟩] ∧ w.poller.Registered 2 := by
  obtain ⟨w, hw, htest⟩ := exists_of_replay (M := system) Free idleProgram_fresh busyIteration
    (fun w => decide (w.activeChannels = [2] ∧
      w.removals = [⟨4, some (.connector 3), .handling, some 4⟩])) (by decide +kernel)
  obtain ⟨hactive, hremovals⟩ := of_decide_eq_true htest
  exact ⟨w, hw, hactive, hremovals, (active_channels_registered hw).1 2 (by simp [hactive])⟩

end TinyMuduo.LoopProgram
