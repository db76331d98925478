import TinyMuduo.OwnershipInvariant

/-!
What a run keeps about the owners of Channels: the functions of servers and
clients, the callbacks of Channels, and the steps of the loop. A step may break
the invariant only by destroying a Channel that is registered. `KeepsChannels`
is the condition that it does not: a server that listens is not destroyed, and
no step drops the last pointer to an established connection.
-/
namespace TinyMuduo.Ownership

open Checked Channel TcpConnection Runs Registry

variable {w w' : World}

/-! Servers. -/

section Servers

variable {s fd : ℕ} {sv : Server}

theorem slot_acceptor (h : w.servers s = some sv) :
    w.registry.channelOf (.acceptor s) = some sv.acceptChannel := by
  simp [World.registry, World.channelOf, h]

theorem registers_acceptor (h : w.servers s = some sv) :
    w.registry.registers (.acceptor s) = sv.listening := by
  simp [World.registry, World.registers, h]

/-- The Channel of an Acceptor is registered from `listen` on. -/
theorem Inv.registered_acceptor (h : Inv w) (hs : w.servers s = some sv) :
    w.poller.Registered sv.acceptChannel ↔ sv.listening = true := by
  rw [← registers_acceptor hs]
  exact (h.sound.slot _ _ (slot_acceptor hs)).2

theorem newTcpServer_inv (h : Inv w) (hfd : w.isOpen fd = false) : Inv (w.newTcpServer fd) := by
  refine h.frame ?_ rfl rfl rfl (Nat.le_succ _)
  have hnew := h.sound.create (h.sound.unheld_of_closed hfd) (.acceptor w.next)
  unfold World.newTcpServer
  rw [World.registry_setServer]
  exact hnew

theorem startServer_inv (h : Inv w) (hexec : w.startServer s = .ok w') : Inv w' := by
  simp only [World.startServer, bind_eq_ok, demand_eq_ok] at hexec
  obtain ⟨sv, hs, hexec⟩ := hexec
  split at hexec
  · obtain rfl := Except.ok.inj hexec
    exact h
  · simp only [World.change, bind_eq_ok, pure_eq_ok, Except.ok.injEq] at hexec
    obtain ⟨poller, hchange, rfl⟩ := hexec
    have hsound := h.sound.register hchange (slot_acceptor hs) rfl
    have hregistry := World.registry_keepServer hs
      (show { sv with listening := true }.acceptChannel = sv.acceptChannel from rfl)
    refine h.frame ?_ rfl rfl rfl le_rfl
    show Sound Owner.lends { (w.setServer s _).registry with poller := poller }
    rw [hregistry]
    exact hsound

theorem newServerConnection_inv (h : Inv w) (hfd : w.isOpen fd = false)
    (hexec : w.newServerConnection s fd = .ok w') : Inv w' := by
  simp only [World.newServerConnection, bind_eq_ok, demand_eq_ok] at hexec
  obtain ⟨sv, hs, hexec⟩ := hexec
  have hnew : Inv (w.newTcpConnection fd (.server s)) :=
    newTcpConnection_inv h (h.sound.unheld_of_closed hfd)
  have hset : Inv ((w.newTcpConnection fd (.server s)).setServer s
      (some { sv with connectionMap := sv.connectionMap ++ [w.next] })) :=
    hnew.sameServer hs rfl rfl
  exact connectEstablished_inv hset hexec

theorem acceptorHandleRead_inv (h : Inv w) {accepted : Option ℕ}
    (hfd : ∀ fd ∈ accepted, w.isOpen fd = false)
    (hexec : w.acceptorHandleRead s accepted = .ok w') : Inv w' := by
  cases accepted with
  | none =>
    obtain rfl := Except.ok.inj hexec
    exact h
  | some fd => exact newServerConnection_inv h (hfd fd rfl) hexec

theorem destroyServer_inv (h : Inv w) (hs : w.servers s = some sv)
    (hlistening : sv.listening = false) (hspared : Spared w sv.connectionMap)
    (hexec : w.destroyServer s = .ok w') : Inv w' := by
  simp only [World.destroyServer, hs, bind_eq_ok, demand_eq_ok, Option.some.injEq, pure_eq_ok,
    Except.ok.injEq] at hexec
  obtain ⟨_, rfl, w₁, hrelease, rfl⟩ := hexec
  have hgone : Inv (w.setServer s none) := by
    refine h.frame ?_ rfl rfl rfl le_rfl
    rw [World.registry_setServer]
    exact h.sound.forget (.acceptor s)
  have hspared' : Spared (w.setServer s none) sv.connectionMap := hspared
  have h₁ := releaseAll_inv hgone hspared' hrelease
  obtain ⟨hpoller, hservers⟩ := releaseAll_frame hrelease
  have hunreg : ¬ w₁.poller.Registered sv.acceptChannel := by
    rw [hpoller]
    show ¬ w.poller.Registered sv.acceptChannel
    rw [h.registered_acceptor hs, hlistening]
    exact Bool.false_ne_true
  have howner : w₁.owner sv.acceptChannel = some (.acceptor s) :=
    releaseAll_owner hgone hspared' hrelease (h.sound.slot _ _ (slot_acceptor hs)).1 (by simp)
  have hholds : w₁.registry.Holds Owner.lends sv.acceptChannel :=
    ⟨.acceptor s, howner, by simp [Owner.lends]⟩
  refine h₁.frame ?_ rfl rfl rfl le_rfl
  refine (h₁.sound.destroy hunreg ?_).close (h₁.sound.destroy_unheld hholds)
  intro o ho
  have hself := (h₁.sound.slot o _ ho).1.symm.trans howner
  obtain rfl := Option.some.inj hself
  simp [World.registry, World.channelOf, hservers, World.setServer] at ho

end Servers

/-! Clients. -/

section Clients

variable {c fd : ℕ} {cl : Client} {a : Attempt}

/-- A client whose Connector and connection do not change. -/
theorem Inv.sameClient (h : Inv w) {cl' : Client} (hc : w.clients c = some cl)
    (hconnector : cl'.connector = cl.connector) (hconnection : cl'.connection = cl.connection) :
    Inv (w.setClient c (some cl')) := by
  refine ⟨h.sound, h.linked.setClient hc hconnector ?_, h.resets, h.batch⟩
  intro x hx
  rw [hconnection]
  exact (h.linked.link c cl x hc hx).2

theorem newTcpClient_inv (h : Inv w) : Inv w.newTcpClient := by
  refine ⟨?_, h.linked.create rfl rfl rfl, h.resets.create _, h.batch⟩
  show Sound Owner.lends { ((w.setClient w.next _).setConnector w.next _).registry with
    next := w.next + 1 }
  rw [World.registry_setConnector]
  exact (h.sound.forget (.connector w.next)).advance

theorem connectClient_inv (h : Inv w) (hfd : w.isOpen a.sockfd = false)
    (hexec : w.connectClient c a = .ok w') : Inv w' := by
  simp only [World.connectClient, bind_eq_ok, demand_eq_ok] at hexec
  obtain ⟨cl, hc, hexec⟩ := hexec
  have hset : Inv (w.setClient c (some { cl with connect := true })) := h.sameClient hc rfl rfl
  exact start_inv hset hfd hexec

theorem disconnectClient_inv (h : Inv w) (hexec : w.disconnectClient c = .ok w') : Inv w' := by
  simp only [World.disconnectClient, bind_eq_ok, demand_eq_ok] at hexec
  obtain ⟨cl, hc, hexec⟩ := hexec
  have hset : Inv (w.setClient c (some { cl with connect := false })) := h.sameClient hc rfl rfl
  cases hconn : cl.connection with
  | none =>
    simp only [hconn, pure_eq_ok, Except.ok.injEq] at hexec
    obtain rfl := hexec
    simpa [hconn] using hset
  | some k =>
    simp only [hconn] at hexec
    rw [hconn] at hset
    exact shutdown_inv hset hexec

theorem stopClient_inv (h : Inv w) (hexec : w.stopClient c = .ok w') : Inv w' := by
  simp only [World.stopClient, bind_eq_ok, demand_eq_ok] at hexec
  obtain ⟨cl, hc, hexec⟩ := hexec
  have hset : Inv (w.setClient c (some { cl with connect := false })) := h.sameClient hc rfl rfl
  exact stop_inv hset hexec

theorem enableRetry_inv (h : Inv w) (hexec : w.enableRetry c = .ok w') : Inv w' := by
  simp only [World.enableRetry, bind_eq_ok, demand_eq_ok, pure_eq_ok, Except.ok.injEq] at hexec
  obtain ⟨cl, hc, rfl⟩ := hexec
  exact h.sameClient hc rfl rfl

/-- A Connector that has just connected finds its client without a connection,
so that the assignment releases nothing. -/
theorem newClientConnection_inv (h : Inv w) (hfd : w.registry.Unheld Owner.lends fd)
    (hfree : ∀ cl, w.clients c = some cl → cl.connection = none)
    (hconnected : ∀ cl x, w.clients c = some cl → w.connectors cl.connector = some x →
      x.state = .kConnected)
    (hexec : w.newClientConnection c fd = .ok w') : Inv w' := by
  simp only [World.newClientConnection, bind_eq_ok, demand_eq_ok] at hexec
  obtain ⟨cl, hc, assigned, hrelease, hexec⟩ := hexec
  rw [hfree cl hc] at hrelease
  obtain rfl := Except.ok.inj hrelease
  have hnew : Inv (w.newTcpConnection fd (.client c)) := newTcpConnection_inv h hfd
  refine connectEstablished_inv ?_ hexec
  refine ⟨hnew.sound, hnew.linked.setClient hc rfl ?_, hnew.resets, hnew.batch⟩
  intro x hx _
  exact hconnected cl x hc hx

theorem destroyClient_inv (h : Inv w) (hc : w.clients c = some cl)
    (hspared : Spared w cl.connection.toList) (hexec : w.destroyClient c = .ok w') : Inv w' := by
  simp only [World.destroyClient, hc, bind_eq_ok, demand_eq_ok, Option.some.injEq] at hexec
  obtain ⟨_, rfl, hexec⟩ := hexec
  have hgone : Inv (w.setClient c none) :=
    ⟨h.sound, h.linked.removeClient c, h.resets, h.batch⟩
  cases hconn : cl.connection with
  | some k =>
    simp only [hconn, bind_eq_ok, demand_eq_ok] at hexec
    obtain ⟨conn, hk, w₁, hrelease, hexec⟩ := hexec
    rw [hconn] at hspared
    have hdetached : Inv ((w.setClient c none).setConnection k
        (some { conn with closeCallback := .detached })) :=
      hgone.sameConnection hk rfl rfl
    refine releaseConnector_inv (release_inv hdetached hrelease ?_) hexec
    intro conn' hk' hcount
    simp only [World.setConnection, Function.update_self, Option.some.injEq] at hk'
    subst hk'
    have hidle : conn.established = false := hspared.head hk hcount
    exact hidle
  | none =>
    simp only [hconn, bind_eq_ok, pure_eq_ok, Except.ok.injEq] at hexec
    obtain ⟨w₁, hstop, rfl⟩ := hexec
    have h₁ := stop_inv hgone hstop
    exact ⟨h₁.sound, h₁.linked, h₁.resets, h₁.batch⟩

end Clients

/-! The callbacks of Channels. -/

section Callbacks

variable {k n : ℕ} {a : Attempt} {e : Env}

theorem closeCallback_inv (h : Inv w) {cb : CloseCallback} (hfd : w.isOpen a.sockfd = false)
    (hexec : w.closeCallback k cb a = .ok w') : Inv w' := by
  cases cb with
  | server s =>
    simp only [World.closeCallback, bind_eq_ok, demand_eq_ok, require_eq_ok, pure_eq_ok,
      Except.ok.injEq] at hexec
    obtain ⟨sv, hs, -, -, rfl⟩ := hexec
    have hset : Inv (w.setServer s
        (some { sv with connectionMap := sv.connectionMap.erase k })) :=
      h.sameServer hs rfl rfl
    exact hset.queueInLoop rfl
  | client c =>
    simp only [World.closeCallback, bind_eq_ok, demand_eq_ok, require_eq_ok] at hexec
    obtain ⟨cl, hc, -, hconn, hexec⟩ := hexec
    have hset : Inv (w.setClient c (some { cl with connection := none })) :=
      ⟨h.sound, h.linked.setClient hc rfl (by simp), h.resets, h.batch⟩
    have hqueued : Inv ((w.setClient c (some { cl with connection := none })).queueInLoop
      (.connectDestroyed k)) := hset.queueInLoop rfl
    split at hexec
    · cases hx : w.connectors cl.connector with
      | none => simp [World.restart, World.queueInLoop, World.setClient, hx, demand, bind,
          Except.bind] at hexec
      | some x =>
        obtain ⟨hclient, hstate⟩ := h.linked.link c cl x hc hx
        refine restart_inv hqueued hx (hstate (by simp [hconn])) ?_ hfd hexec
        intro cl' hcl'
        rw [hclient] at hcl'
        simp only [World.queueInLoop, World.setClient, Function.update_self,
          Option.some.injEq] at hcl'
        rw [← hcl']
    · obtain rfl := Except.ok.inj hexec
      exact hqueued
  | detached =>
    simp only [World.closeCallback, bind_eq_ok, pure_eq_ok, Except.ok.injEq] at hexec
    obtain ⟨w₁, hretain, rfl⟩ := hexec
    exact (retain_inv h hretain).queueInLoop rfl

theorem handleClose_inv (h : Inv w) (hfd : w.isOpen a.sockfd = false)
    (hexec : w.handleClose k a = .ok w') : Inv w' := by
  simp only [World.handleClose, bind_eq_ok, demand_eq_ok, require_eq_ok] at hexec
  obtain ⟨conn, hk, -, hstate, w₁, hchange, hexec⟩ := hexec
  have hreg := (h.registered_connection hk).mpr (Connection.established_iff.mpr hstate)
  have h₁ := h.change hchange hreg
  simp only [World.change, bind_eq_ok, pure_eq_ok, Except.ok.injEq] at hchange
  obtain ⟨poller, -, rfl⟩ := hchange
  exact closeCallback_inv h₁ hfd hexec

theorem handleConnection_inv (h : Inv w) {cb : Callback} (hfd : w.isOpen e.attempt.sockfd = false)
    (hexec : w.handleConnection k e cb = .ok w') : Inv w' := by
  cases cb with
  | close => exact handleClose_inv h hfd hexec
  | error =>
    obtain rfl := Except.ok.inj hexec
    exact h
  | read =>
    simp only [World.handleConnection] at hexec
    split at hexec
    · exact handleClose_inv h hfd hexec
    · obtain rfl := Except.ok.inj hexec
      exact h
  | write => exact handleWrite_inv h hexec

theorem connectorHandleWrite_inv (h : Inv w) (hexec : w.connectorHandleWrite n e = .ok w') :
    Inv w' := by
  simp only [World.connectorHandleWrite, bind_eq_ok, demand_eq_ok] at hexec
  obtain ⟨x, hx, hexec⟩ := hexec
  split at hexec
  · rename_i hstate
    simp only [bind_eq_ok] at hexec
    obtain ⟨⟨w₁, sockfd⟩, hremove, hexec⟩ := hexec
    obtain ⟨hx₁, hunheld, hsettle⟩ := removeAndResetChannel_inv h hx hstate hremove
    split at hexec
    · exact retry_inv hx₁ (hsettle .kDisconnected (by decide)) hunheld hexec
    · have hdone := hsettle .kConnected (by decide)
      split at hexec
      · refine newClientConnection_inv hdone hunheld ?_ ?_ hexec
        · intro cl hcl
          have hidle := (hsettle .kDisconnected (by decide)).linked
          exact hidle.unconnected (n := n) (x := { x with state := .kDisconnected })
            (by simp [World.setConnector]) (by simp) hcl
        · intro cl y hcl hy
          have hn := hdone.linked.back n { x with state := .kConnected } cl
            (by simp [World.setConnector]) hcl
          rw [hn] at hy
          simp only [World.setConnector, Function.update_self, Option.some.injEq] at hy
          rw [← hy]
      · obtain rfl := Except.ok.inj hexec
        exact hdone.close hunheld
  · simp only [bind_eq_ok, require_eq_ok, pure_eq_ok, Except.ok.injEq] at hexec
    obtain ⟨-, -, rfl⟩ := hexec
    exact h

theorem connectorHandleError_inv (h : Inv w) (hexec : w.connectorHandleError n = .ok w') :
    Inv w' := by
  simp only [World.connectorHandleError, bind_eq_ok, demand_eq_ok, require_eq_ok] at hexec
  obtain ⟨x, hx, -, hstate, ⟨w₁, sockfd⟩, hremove, hexec⟩ := hexec
  obtain ⟨hx₁, hunheld, hsettle⟩ := removeAndResetChannel_inv h hx hstate hremove
  exact retry_inv hx₁ (hsettle .kDisconnected (by decide)) hunheld hexec

theorem handleConnector_inv (h : Inv w) {cb : Callback}
    (hexec : w.handleConnector n e cb = .ok w') : Inv w' := by
  cases cb with
  | write => exact connectorHandleWrite_inv h hexec
  | error => exact connectorHandleError_inv h hexec
  | close =>
    obtain rfl := Except.ok.inj hexec
    exact h
  | read =>
    obtain rfl := Except.ok.inj hexec
    exact h

theorem handle_inv (h : Inv w) {c : ChannelId} {cb : Callback}
    (haccepted : ∀ fd ∈ e.accepted, w.isOpen fd = false)
    (hfd : w.isOpen e.attempt.sockfd = false) (hexec : w.handle c e cb = .ok w') : Inv w' := by
  unfold World.handle at hexec
  split at hexec
  · cases hexec
  · split at hexec
    · exact acceptorHandleRead_inv h haccepted hexec
    · obtain rfl := Except.ok.inj hexec
      exact h
  · exact handleConnection_inv h hfd hexec
  · exact handleConnector_inv h hexec
  · obtain rfl := Except.ok.inj hexec
    exact h

end Callbacks

/-! The steps of the loop. -/

/-- The step destroys no Channel that is registered. -/
def KeepsChannels (w : World) : Input → Prop
  | .destroyServer s => ∀ sv ∈ w.servers s, sv.listening = false ∧ Spared w sv.connectionMap
  | .destroyClient c => ∀ cl ∈ w.clients c, Spared w cl.connection.toList
  | .drop k => Spared w [k]
  | .endIteration => Spared w (references w.called)
  | _ => True

/-- A functor leaves the batch; a `resetChannel` was the only one. -/
theorem popFunctor_inv (h : Inv w) {f : Functor} {rest : List Functor}
    (hf : w.loop.functors = f :: rest) (hphase : w.loop.phase = .calling) :
    Inv { w with loop := w.loop.popFunctor, called := w.called ++ [f] } := by
  refine ⟨h.sound, h.linked, h.resets.le ?_, ?_⟩
  · intro n
    unfold World.resets
    rw [EventLoop.queued_popFunctor hf]
    exact List.count_le_count_cons
  · intro hne
    exact absurd hphase hne

theorem resetChannel_due (h : Inv w) {n : ℕ} {rest : List Functor}
    (hf : w.loop.functors = .resetChannel n :: rest) (x : Connector)
    (hx : w.connectors n = some x) :
    w.loop.popFunctor.queued.count (.resetChannel n) = 0 ∧ x.state ≠ .kConnecting := by
  have howed := h.resets.owed n x hx
  unfold World.resets at howed
  rw [EventLoop.queued_popFunctor hf, List.count_cons_self] at howed
  unfold Connector.owes at howed
  split at howed
  · rename_i hdue
    exact ⟨by omega, hdue.2⟩
  · omega

theorem call_inv (h : Inv w) {f : Functor} {rest : List Functor}
    (hf : w.loop.functors = f :: rest) (hphase : w.loop.phase = .calling)
    (hexec : { w with loop := w.loop.popFunctor, called := w.called ++ [f] }.call f = .ok w') :
    Inv w' := by
  have hpop := popFunctor_inv h hf hphase
  cases f with
  | connectDestroyed k => exact connectDestroyed_inv hpop hexec
  | resetChannel n => exact resetChannel_inv hpop (resetChannel_due h hf) hexec
  | writeComplete k =>
    obtain rfl := Except.ok.inj hexec
    exact hpop
  | other =>
    obtain rfl := Except.ok.inj hexec
    exact hpop

theorem fire_inv (h : Inv w) {a : Attempt} {cb : TimerCallback} (hfd : w.isOpen a.sockfd = false)
    (hexec : w.fire a cb = .ok w') : Inv w' := by
  cases cb with
  | startInLoop n => exact startInLoop_inv h hfd hexec
  | removeConnector n => exact releaseConnector_inv h hexec
  | other =>
    obtain rfl := Except.ok.inj hexec
    exact h

/-- The loop's own Channels have no other owner. -/
theorem other_free (h : Inv w) {d : ChannelId} (hd : w.owner d = some .other) (o : Owner) :
    w.registry.channelOf o ≠ some d := by
  intro ho
  have hself := (h.sound.slot o d ho).1.symm.trans hd
  obtain rfl := Option.some.inj hself
  cases ho

theorem otherChange_inv (h : Inv w) {d : ChannelId} {interest : Interest}
    (hd : w.owner d = some .other) (hexec : w.change d interest = .ok w') : Inv w' := by
  simp only [World.change, bind_eq_ok, pure_eq_ok, Except.ok.injEq] at hexec
  obtain ⟨poller, hchange, rfl⟩ := hexec
  have hholds : w.registry.Holds Owner.lends d := ⟨.other, hd, by simp [Owner.lends]⟩
  refine h.frame ?_ rfl rfl rfl le_rfl
  exact h.sound.change_held hchange hholds (fun o ho => absurd ho (other_free h hd o))
    (fun _ _ => rfl)

theorem otherRemove_inv (h : Inv w) {d : ChannelId} (hd : w.owner d = some .other)
    (hexec : w.removeChannel d = .ok w') : Inv w' := by
  simp only [World.removeChannel, bind_eq_ok, pure_eq_ok, Except.ok.injEq] at hexec
  obtain ⟨poller, hremove, rfl⟩ := hexec
  refine h.frame ?_ rfl rfl rfl le_rfl
  exact h.sound.removeChannel hremove (fun o ho => absurd ho (other_free h hd o))
    (fun _ _ => rfl)

theorem step_inv (h : Inv w) {i : Input} (hallow : Allowed w i) (hkeeps : KeepsChannels w i)
    (hexec : exec w i = .ok w') : Inv w' := by
  cases i with
  | newServer fd =>
    obtain rfl := Except.ok.inj hexec
    exact newTcpServer_inv h hallow
  | startServer s => exact startServer_inv h hexec
  | destroyServer s =>
    cases hs : w.servers s with
    | none => simp [exec, World.destroyServer, hs, demand, bind, Except.bind] at hexec
    | some sv =>
      obtain ⟨hlistening, hspared⟩ := hkeeps sv hs
      exact destroyServer_inv h hs hlistening hspared hexec
  | newClient =>
    obtain rfl := Except.ok.inj hexec
    exact newTcpClient_inv h
  | connectClient c a => exact connectClient_inv h hallow hexec
  | disconnectClient c => exact disconnectClient_inv h hexec
  | stopClient c => exact stopClient_inv h hexec
  | enableRetry c => exact enableRetry_inv h hexec
  | destroyClient c =>
    cases hc : w.clients c with
    | none => simp [exec, World.destroyClient, hc, demand, bind, Except.bind] at hexec
    | some cl => exact destroyClient_inv h hc (hkeeps cl hc) hexec
  | hold k =>
    simp only [exec, bind_pure_eq_ok] at hexec
    obtain ⟨w₁, hretain, rfl⟩ := hexec
    have h₁ := retain_inv h hretain
    exact ⟨h₁.sound, h₁.linked, h₁.resets, h₁.batch⟩
  | drop k =>
    have h₁ : Inv { w with users := w.users.erase k } := ⟨h.sound, h.linked, h.resets, h.batch⟩
    exact release_inv h₁ hexec fun conn hk hcount => Spared.head hkeeps hk hcount
  | send k left notify => exact send_inv h hexec
  | shutdown k => exact shutdown_inv h hexec
  | addTimer =>
    obtain rfl := Except.ok.inj hexec
    exact ⟨h.sound, h.linked, h.resets, h.batch⟩
  | queueOther =>
    obtain rfl := Except.ok.inj hexec
    exact h.queueInLoop rfl
  | poll events =>
    obtain rfl := Except.ok.inj hexec
    refine ⟨h.sound, h.linked, h.resets, fun _ => h.batch ?_⟩
    rw [hallow.1]
    decide
  | callback e =>
    obtain ⟨-, haccepted, hfd⟩ := hallow
    simp only [exec] at hexec
    split at hexec
    · obtain rfl := Except.ok.inj hexec
      exact h
    · rename_i c cb rest _
      have h₁ : Inv { w with active := rest } := ⟨h.sound, h.linked, h.resets, h.batch⟩
      exact handle_inv h₁ haccepted hfd hexec
  | timer j a =>
    obtain ⟨-, -, hfd⟩ := hallow
    simp only [exec] at hexec
    split at hexec
    · obtain rfl := Except.ok.inj hexec
      exact h
    · have h₁ : Inv { w with timers := w.timers.eraseIdx j } :=
        ⟨h.sound, h.linked, h.resets, h.batch⟩
      exact fire_inv h₁ hfd hexec
  | swapFunctors =>
    obtain rfl := Except.ok.inj hexec
    have hfunctors : w.loop.functors = [] := by
      refine h.batch ?_
      rw [hallow.1]
      decide
    refine ⟨h.sound, h.linked, h.resets.le ?_, fun hne => absurd rfl hne⟩
    intro n
    unfold World.resets
    rw [EventLoop.queued_swapFunctors hfunctors]
  | functor =>
    obtain ⟨hphase, -⟩ := hallow
    simp only [exec] at hexec
    split at hexec
    · obtain rfl := Except.ok.inj hexec
      exact h
    · rename_i f rest hf
      exact call_inv h hf hphase hexec
  | endIteration =>
    have h₁ : Inv { w with loop := w.loop.endIteration, called := [] } :=
      ⟨h.sound, h.linked, h.resets, fun _ => hallow.2⟩
    exact releaseAll_inv h₁ hkeeps hexec
  | otherChange d interest => exact otherChange_inv h hallow hexec
  | otherRemove d => exact otherRemove_inv h hallow hexec

theorem fresh_inv (h : Fresh w) : Inv w := by
  obtain ⟨poller, isOpen, next, htable, hbounded, hopen, hinj, rfl⟩ := h
  have hholds : ∀ c, (initial poller isOpen next).registry.Holds Owner.lends c → c < next := by
    rintro c ⟨o, ho, -⟩
    by_contra hlt
    simp [initial, World.registry, hlt] at ho
  refine ⟨⟨htable, ?_, ?_, ?_, ?_, ?_, ?_, ?_⟩, ⟨?_, ?_, ?_, ?_⟩, ⟨?_, ?_, ?_⟩, fun _ => rfl⟩
  · intro c hc
    have hlt := hbounded c hc
    simp [initial, World.registry, hlt]
  · intro c hc
    by_contra hlt
    have hlt : ¬ c < next := hlt
    simp [initial, World.registry, hlt] at hc
  · intro o c ho
    cases o <;> simp [initial, World.registry, World.channelOf] at ho
  · intro o ho
    cases o <;> simp [initial, World.registry, World.registers] at ho
  · intro o c ho
    cases o <;> simp [initial, World.registry, World.channelOf] at ho
  · intro c hc
    exact hopen c (hholds c hc)
  · intro c d hc hd heq
    exact hinj c (hholds c hc) d (hholds d hd) heq
  · intro c cl x hc
    simp [initial] at hc
  · intro n x cl hx
    simp [initial] at hx
  · intro c cl hc
    simp [initial] at hc
  · intro n x hx
    simp [initial] at hx
  · intro n x hx
    simp [initial] at hx
  · intro n x hx
    simp [initial] at hx
  · intro n _
    simp [World.resets, initial, EventLoop.initial, EventLoop.queued]

theorem reach_inv (h : Reach system KeepsChannels w) : Inv w :=
  h.invariant (fun _ hstart => fresh_inv hstart)
    fun _ _ _ hinv hallow hkeeps hexec => step_inv hinv hallow hkeeps hexec

end TinyMuduo.Ownership
