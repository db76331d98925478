import TinyMuduo.Ownership
import TinyMuduo.Registry

/-!
What the functions of connections and Connectors keep about the owners of
Channels. The objects of a loop form a registry in which Connectors lend. Beside
it there are two facts that the functions rely on: a client with a connection
has a Connector that is connected, and a queued `resetChannel` finds the Channel
that it was queued for.
-/
namespace TinyMuduo.Ownership

open Checked Channel TcpConnection Runs Registry

def Connection.established (conn : Connection) : Bool :=
  conn.state = .kConnected ∨ conn.state = .kDisconnecting

def Connector.owes (x : Connector) : ℕ :=
  if x.channel ≠ none ∧ x.state ≠ .kConnecting then 1 else 0

def Owner.lends : Owner → Bool
  | .connector _ => true
  | .acceptor _ | .connection _ | .other => false

namespace World

def channelOf (w : World) : Owner → Option ChannelId
  | .acceptor s => (w.servers s).map (·.acceptChannel)
  | .connection k => (w.connections k).map (·.channel)
  | .connector n => (w.connectors n).bind (·.channel)
  | .other => none

def registers (w : World) : Owner → Bool
  | .acceptor s => (w.servers s).any (·.listening)
  | .connection k => (w.connections k).any (·.established)
  | .connector n => (w.connectors n).any fun x => x.state = .kConnecting
  | .other => false

def registry (w : World) : Registry Owner :=
  ⟨w.poller, w.owner, w.isOpen, w.channelOf, w.registers, w.next⟩

def resets (w : World) (n : ℕ) : ℕ := w.loop.queued.count (.resetChannel n)

variable (w : World)

theorem registry_setServer (s : ℕ) (sv : Option Server) :
    (w.setServer s sv).registry = { w.registry with
      channelOf := Function.update w.channelOf (.acceptor s) (sv.map (·.acceptChannel))
      registers := Function.update w.registers (.acceptor s) (sv.any (·.listening)) } := by
  simp only [registry, Registry.mk.injEq]
  refine ⟨rfl, rfl, rfl, ?_, ?_, rfl⟩
  · funext o
    cases o with
    | acceptor s' => by_cases hs : s' = s <;> simp [channelOf, setServer, hs]
    | connection k => simp [channelOf, setServer]
    | connector n => simp [channelOf, setServer]
    | other => simp [channelOf]
  · funext o
    cases o with
    | acceptor s' => by_cases hs : s' = s <;> simp [registers, setServer, hs]
    | connection k => simp [registers, setServer]
    | connector n => simp [registers, setServer]
    | other => simp [registers]

theorem registry_setConnection (k : ℕ) (conn : Option Connection) :
    (w.setConnection k conn).registry = { w.registry with
      channelOf := Function.update w.channelOf (.connection k) (conn.map (·.channel))
      registers := Function.update w.registers (.connection k) (conn.any (·.established)) } := by
  simp only [registry, Registry.mk.injEq]
  refine ⟨rfl, rfl, rfl, ?_, ?_, rfl⟩
  · funext o
    cases o with
    | acceptor s => simp [channelOf, setConnection]
    | connection k' => by_cases hk : k' = k <;> simp [channelOf, setConnection, hk]
    | connector n => simp [channelOf, setConnection]
    | other => simp [channelOf]
  · funext o
    cases o with
    | acceptor s => simp [registers, setConnection]
    | connection k' => by_cases hk : k' = k <;> simp [registers, setConnection, hk]
    | connector n => simp [registers, setConnection]
    | other => simp [registers]

theorem registry_setConnector (n : ℕ) (x : Option Connector) :
    (w.setConnector n x).registry = { w.registry with
      channelOf := Function.update w.channelOf (.connector n) (x.bind (·.channel))
      registers := Function.update w.registers (.connector n)
        (x.any fun x => x.state = .kConnecting) } := by
  simp only [registry, Registry.mk.injEq]
  refine ⟨rfl, rfl, rfl, ?_, ?_, rfl⟩
  · funext o
    cases o with
    | acceptor s => simp [channelOf, setConnector]
    | connection k => simp [channelOf, setConnector]
    | connector n' => by_cases hn : n' = n <;> simp [channelOf, setConnector, hn]
    | other => simp [channelOf]
  · funext o
    cases o with
    | acceptor s => simp [registers, setConnector]
    | connection k => simp [registers, setConnector]
    | connector n' => by_cases hn : n' = n <;> simp [registers, setConnector, hn]
    | other => simp [registers]

variable {w}

/-- An object that keeps its Channel changes what it registers. -/
theorem registry_keepServer {s : ℕ} {sv sv' : Server} (h : w.servers s = some sv)
    (hchannel : sv'.acceptChannel = sv.acceptChannel) :
    (w.setServer s (some sv')).registry = { w.registry with
      registers := Function.update w.registers (.acceptor s) sv'.listening } := by
  have hslot : w.channelOf (.acceptor s) = some sv.acceptChannel := by simp [channelOf, h]
  rw [registry_setServer]
  simp only [Option.map_some, Option.any_some, hchannel, ← hslot, Function.update_eq_self]
  rfl

theorem registry_keepConnection {k : ℕ} {conn conn' : Connection}
    (h : w.connections k = some conn) (hchannel : conn'.channel = conn.channel) :
    (w.setConnection k (some conn')).registry = { w.registry with
      registers := Function.update w.registers (.connection k) conn'.established } := by
  have hslot : w.channelOf (.connection k) = some conn.channel := by simp [channelOf, h]
  rw [registry_setConnection]
  simp only [Option.map_some, Option.any_some, hchannel, ← hslot, Function.update_eq_self]
  rfl

theorem registry_keepConnector {n : ℕ} {x x' : Connector} (h : w.connectors n = some x)
    (hchannel : x'.channel = x.channel) :
    (w.setConnector n (some x')).registry = { w.registry with
      registers := Function.update w.registers (.connector n)
        (decide (x'.state = .kConnecting)) } := by
  have hslot : w.channelOf (.connector n) = x.channel := by simp [channelOf, h]
  rw [registry_setConnector]
  simp only [Option.bind_some, Option.any_some, hchannel, ← hslot, Function.update_eq_self]
  rfl

/-- An object whose Channel and registration do not change. -/
theorem registry_sameServer {s : ℕ} {sv sv' : Server} (h : w.servers s = some sv)
    (hchannel : sv'.acceptChannel = sv.acceptChannel) (hlistening : sv'.listening = sv.listening) :
    (w.setServer s (some sv')).registry = w.registry := by
  have hreg : w.registers (.acceptor s) = sv.listening := by simp [registers, h]
  rw [registry_keepServer h hchannel, hlistening, ← hreg, Function.update_eq_self]
  rfl

theorem registry_sameConnection {k : ℕ} {conn conn' : Connection}
    (h : w.connections k = some conn) (hchannel : conn'.channel = conn.channel)
    (hestablished : conn'.established = conn.established) :
    (w.setConnection k (some conn')).registry = w.registry := by
  have hreg : w.registers (.connection k) = conn.established := by simp [registers, h]
  rw [registry_keepConnection h hchannel, hestablished, ← hreg, Function.update_eq_self]
  rfl

theorem registry_sameConnector {n : ℕ} {x x' : Connector} (h : w.connectors n = some x)
    (hchannel : x'.channel = x.channel)
    (hstate : x'.state = .kConnecting ↔ x.state = .kConnecting) :
    (w.setConnector n (some x')).registry = w.registry := by
  have hreg : w.registers (.connector n) = decide (x'.state = .kConnecting) := by
    simp [registers, h, hstate]
  rw [registry_keepConnector h hchannel, ← hreg, Function.update_eq_self]
  rfl

end World

/-- Clients and Connectors know each other, and a client with a connection has a
Connector that is connected. -/
structure Linked (clients : ℕ → Option Client) (connectors : ℕ → Option Connector) (next : ℕ) :
    Prop where
  link : ∀ c cl x, clients c = some cl → connectors cl.connector = some x →
    x.client = c ∧ (cl.connection ≠ none → x.state = .kConnected)
  back : ∀ n x cl, connectors n = some x → clients x.client = some cl → cl.connector = n
  clientBound : ∀ c cl, clients c = some cl → cl.connector < next
  connectorBound : ∀ n x, connectors n = some x → x.client < next

structure Resets (connectors : ℕ → Option Connector) (resets : ℕ → ℕ) (next : ℕ) : Prop where
  owed : ∀ n x, connectors n = some x → resets n ≤ x.owes
  bounded : ∀ n x, connectors n = some x → n < next
  fresh : ∀ n, next ≤ n → resets n = 0

structure Inv (w : World) : Prop where
  sound : w.registry.Sound Owner.lends
  linked : Linked w.clients w.connectors w.next
  resets : Resets w.connectors w.resets w.next
  batch : w.loop.phase ≠ .calling → w.loop.functors = []

namespace Linked

variable {clients : ℕ → Option Client} {connectors : ℕ → Option Connector} {next : ℕ}

theorem setClient (h : Linked clients connectors next) {c : ℕ} {cl cl' : Client}
    (hc : clients c = some cl) (hconnector : cl'.connector = cl.connector)
    (hstate : ∀ x, connectors cl.connector = some x → cl'.connection ≠ none →
      x.state = .kConnected) :
    Linked (Function.update clients c (some cl')) connectors next := by
  refine ⟨?_, ?_, ?_, h.connectorBound⟩
  · intro c' d x hd hx
    rcases of_update_some hd with ⟨rfl, rfl⟩ | ⟨-, hd⟩
    · rw [hconnector] at hx
      exact ⟨(h.link c' cl x hc hx).1, hstate x hx⟩
    · exact h.link c' d x hd hx
  · intro n x d hx hd
    rcases of_update_some hd with ⟨rfl, rfl⟩ | ⟨-, hd⟩
    · rw [hconnector]
      exact h.back n x cl hx hc
    · exact h.back n x d hx hd
  · intro c' d hd
    rcases of_update_some hd with ⟨rfl, rfl⟩ | ⟨-, hd⟩
    · rw [hconnector]
      exact h.clientBound c' cl hc
    · exact h.clientBound c' d hd

theorem removeClient (h : Linked clients connectors next) (c : ℕ) :
    Linked (Function.update clients c none) connectors next := by
  refine ⟨?_, ?_, ?_, h.connectorBound⟩
  · intro c' cl x hcl hx
    exact h.link c' cl x (of_update_none hcl).2 hx
  · intro n x cl hx hcl
    exact h.back n x cl hx (of_update_none hcl).2
  · intro c' cl hcl
    exact h.clientBound c' cl (of_update_none hcl).2

theorem setConnector (h : Linked clients connectors next) {n : ℕ} {x x' : Connector}
    (hx : connectors n = some x) (hclient : x'.client = x.client)
    (hstate : ∀ cl, clients x.client = some cl → cl.connection ≠ none →
      x'.state = .kConnected) :
    Linked clients (Function.update connectors n (some x')) next := by
  refine ⟨?_, ?_, h.clientBound, ?_⟩
  · intro c cl y hcl hy
    rcases of_update_some hy with ⟨rfl, rfl⟩ | ⟨-, hy⟩
    · have hc : x.client = c := (h.link c cl x hcl hx).1
      subst hc
      exact ⟨hclient, hstate cl hcl⟩
    · exact h.link c cl y hcl hy
  · intro m y cl hy hcl
    rcases of_update_some hy with ⟨rfl, rfl⟩ | ⟨-, hy⟩
    · exact h.back m x cl hx (hclient ▸ hcl)
    · exact h.back m y cl hy hcl
  · intro m y hy
    rcases of_update_some hy with ⟨rfl, rfl⟩ | ⟨-, hy⟩
    · rw [hclient]
      exact h.connectorBound m x hx
    · exact h.connectorBound m y hy

/-- A Connector that is not connected may change its state. -/
theorem unconnected (h : Linked clients connectors next) {n : ℕ} {x : Connector}
    (hx : connectors n = some x) (hstate : x.state ≠ .kConnected) {cl : Client}
    (hcl : clients x.client = some cl) : cl.connection = none := by
  have hn := h.back n x cl hx hcl
  by_contra hconn
  exact hstate ((h.link x.client cl x hcl (hn ▸ hx)).2 hconn)

theorem removeConnector (h : Linked clients connectors next) (n : ℕ) :
    Linked clients (Function.update connectors n none) next := by
  refine ⟨?_, ?_, h.clientBound, ?_⟩
  · intro c cl x hcl hx
    exact h.link c cl x hcl (of_update_none hx).2
  · intro m x cl hx hcl
    exact h.back m x cl (of_update_none hx).2 hcl
  · intro m x hx
    exact h.connectorBound m x (of_update_none hx).2

theorem mono (h : Linked clients connectors next) {next' : ℕ} (hle : next ≤ next') :
    Linked clients connectors next' :=
  ⟨h.link, h.back, fun c cl hcl => (h.clientBound c cl hcl).trans_le hle,
    fun n x hx => (h.connectorBound n x hx).trans_le hle⟩

/-- A new client with its Connector. -/
theorem create (h : Linked clients connectors next) {cl : Client} {x : Connector}
    (hcl : cl.connector = next) (hconn : cl.connection = none) (hx : x.client = next) :
    Linked (Function.update clients next (some cl)) (Function.update connectors next (some x))
      (next + 1) := by
  refine ⟨?_, ?_, ?_, ?_⟩
  · intro c d y hd hy
    rcases of_update_some hd with ⟨rfl, rfl⟩ | ⟨-, hd⟩
    · rw [hcl, Function.update_self, Option.some.injEq] at hy
      subst hy
      exact ⟨hx, fun hne => absurd hconn hne⟩
    · have hne : d.connector ≠ next := (h.clientBound c d hd).ne
      rw [Function.update_of_ne hne] at hy
      exact h.link c d y hd hy
  · intro n y d hy hd
    rcases of_update_some hy with ⟨rfl, rfl⟩ | ⟨-, hy⟩
    · rw [hx, Function.update_self, Option.some.injEq] at hd
      rw [← hd]
      exact hcl
    · have hne : y.client ≠ next := (h.connectorBound n y hy).ne
      rw [Function.update_of_ne hne] at hd
      exact h.back n y d hy hd
  · intro c d hd
    rcases of_update_some hd with ⟨rfl, rfl⟩ | ⟨-, hd⟩
    · omega
    · exact (h.clientBound c d hd).trans (Nat.lt_succ_self _)
  · intro n y hy
    rcases of_update_some hy with ⟨rfl, rfl⟩ | ⟨-, hy⟩
    · omega
    · exact (h.connectorBound n y hy).trans (Nat.lt_succ_self _)

end Linked

namespace Resets

variable {connectors : ℕ → Option Connector} {resets : ℕ → ℕ} {next : ℕ}

/-- A Connector changes together with what is queued for it. -/
theorem setConnector (h : Resets connectors resets next) {n : ℕ} {x x' : Connector}
    {resets' : ℕ → ℕ} (hx : connectors n = some x) (howed : resets' n ≤ x'.owes)
    (hother : ∀ m, m ≠ n → resets' m = resets m) :
    Resets (Function.update connectors n (some x')) resets' next := by
  have hn := h.bounded n x hx
  refine ⟨?_, ?_, ?_⟩
  · intro m y hy
    rcases of_update_some hy with ⟨rfl, rfl⟩ | ⟨hm, hy⟩
    · exact howed
    · rw [hother m hm]
      exact h.owed m y hy
  · intro m y hy
    rcases of_update_some hy with ⟨rfl, -⟩ | ⟨-, hy⟩
    · exact hn
    · exact h.bounded m y hy
  · intro m hm
    rw [hother m (by omega)]
    exact h.fresh m hm

theorem sameConnector (h : Resets connectors resets next) {n : ℕ} {x x' : Connector}
    (hx : connectors n = some x) (howes : x'.owes = x.owes) :
    Resets (Function.update connectors n (some x')) resets next :=
  h.setConnector hx (howes ▸ h.owed n x hx) fun _ _ => rfl

theorem removeConnector (h : Resets connectors resets next) (n : ℕ) :
    Resets (Function.update connectors n none) resets next :=
  ⟨fun m x hx => h.owed m x (of_update_none hx).2,
    fun m x hx => h.bounded m x (of_update_none hx).2, h.fresh⟩

/-- Calls leave the queue. -/
theorem le (h : Resets connectors resets next) {resets' : ℕ → ℕ}
    (hle : ∀ n, resets' n ≤ resets n) : Resets connectors resets' next :=
  ⟨fun n x hx => (hle n).trans (h.owed n x hx), h.bounded,
    fun n hn => Nat.le_zero.mp (h.fresh n hn ▸ hle n)⟩

theorem mono (h : Resets connectors resets next) {next' : ℕ} (hle : next ≤ next') :
    Resets connectors resets next' :=
  ⟨h.owed, fun n x hx => (h.bounded n x hx).trans_le hle, fun n hn => h.fresh n (hle.trans hn)⟩

theorem create (h : Resets connectors resets next) (x : Connector) :
    Resets (Function.update connectors next (some x)) resets (next + 1) := by
  refine ⟨?_, ?_, ?_⟩
  · intro n y hy
    rcases of_update_some hy with ⟨rfl, -⟩ | ⟨-, hy⟩
    · rw [h.fresh n le_rfl]
      exact Nat.zero_le _
    · exact h.owed n y hy
  · intro n y hy
    rcases of_update_some hy with ⟨rfl, -⟩ | ⟨-, hy⟩
    · omega
    · exact (h.bounded n y hy).trans (Nat.lt_succ_self _)
  · intro n hn
    exact h.fresh n (by omega)

end Resets

variable {w w' : World}

def Functor.plain : Functor → Bool
  | .resetChannel _ => false
  | .connectDestroyed _ | .writeComplete _ | .other => true

theorem resets_queueInLoop {cb : Functor} (h : cb.plain = true) :
    (w.queueInLoop cb).resets = w.resets := by
  funext n
  cases cb with
  | resetChannel m => simp [Functor.plain] at h
  | connectDestroyed k => simp [World.resets, World.queueInLoop]
  | writeComplete k => simp [World.resets, World.queueInLoop]
  | other => simp [World.resets, World.queueInLoop]

theorem resets_queueReset (n m : ℕ) :
    (w.queueInLoop (.resetChannel n)).resets m = w.resets m + if m = n then 1 else 0 := by
  by_cases hm : m = n
  · subst hm
    simp [World.resets, World.queueInLoop]
  · have hne : Functor.resetChannel n ≠ .resetChannel m := by
      intro heq
      exact hm (Functor.resetChannel.inj heq).symm
    simp [World.resets, World.queueInLoop, hm, hne]

namespace Inv

theorem queueInLoop (h : Inv w) {cb : Functor} (hcb : cb.plain = true) :
    Inv (w.queueInLoop cb) := by
  refine ⟨h.sound, h.linked, ?_, h.batch⟩
  rw [resets_queueInLoop hcb]
  exact h.resets

/-- A step that leaves clients, Connectors and the loop alone. -/
theorem frame (h : Inv w) (hsound : w'.registry.Sound Owner.lends)
    (hclients : w'.clients = w.clients) (hconnectors : w'.connectors = w.connectors)
    (hloop : w'.loop = w.loop) (hnext : w.next ≤ w'.next) : Inv w' := by
  have hresets : w'.resets = w.resets := by
    unfold World.resets
    rw [hloop]
  refine ⟨hsound, ?_, ?_, ?_⟩
  · rw [hclients, hconnectors]
    exact h.linked.mono hnext
  · rw [hconnectors, hresets]
    exact h.resets.mono hnext
  · rw [hloop]
    exact h.batch

theorem sameConnection (h : Inv w) {k : ℕ} {conn conn' : Connection}
    (hk : w.connections k = some conn) (hchannel : conn'.channel = conn.channel)
    (hestablished : conn'.established = conn.established) :
    Inv (w.setConnection k (some conn')) := by
  refine h.frame ?_ rfl rfl rfl le_rfl
  rw [World.registry_sameConnection hk hchannel hestablished]
  exact h.sound

theorem sameServer (h : Inv w) {s : ℕ} {sv sv' : Server} (hs : w.servers s = some sv)
    (hchannel : sv'.acceptChannel = sv.acceptChannel) (hlistening : sv'.listening = sv.listening) :
    Inv (w.setServer s (some sv')) := by
  refine h.frame ?_ rfl rfl rfl le_rfl
  rw [World.registry_sameServer hs hchannel hlistening]
  exact h.sound

/-- A Connector whose Channel stays and that neither starts nor stops connecting. -/
theorem sameConnector (h : Inv w) {n : ℕ} {x x' : Connector} (hx : w.connectors n = some x)
    (hclient : x'.client = x.client) (hchannel : x'.channel = x.channel)
    (hstate : x'.state = .kConnecting ↔ x.state = .kConnecting)
    (hconnected : ∀ cl, w.clients x.client = some cl → cl.connection ≠ none →
      x'.state = .kConnected) :
    Inv (w.setConnector n (some x')) := by
  refine ⟨?_, h.linked.setConnector hx hclient hconnected, h.resets.sameConnector hx ?_, h.batch⟩
  · rw [World.registry_sameConnector hx hchannel hstate]
    exact h.sound
  · simp [Connector.owes, hchannel, hstate]

/-- A Connector whose state stays. -/
theorem sameState (h : Inv w) {n : ℕ} {x x' : Connector} (hx : w.connectors n = some x)
    (hclient : x'.client = x.client) (hchannel : x'.channel = x.channel)
    (hstate : x'.state = x.state) : Inv (w.setConnector n (some x')) := by
  refine h.sameConnector hx hclient hchannel (by rw [hstate]) ?_
  intro cl hcl hconn
  rw [hstate]
  exact (h.linked.link x.client cl x hcl (h.linked.back n x cl hx hcl ▸ hx)).2 hconn

theorem close (h : Inv w) {fd : ℕ} (hfd : w.registry.Unheld Owner.lends fd) :
    Inv (w.close fd) :=
  h.frame (h.sound.close hfd) rfl rfl rfl le_rfl

/-- A change of interest of a registered Channel. -/
theorem change (h : Inv w) {c : ChannelId} {interest : Interest}
    (hexec : w.change c interest = .ok w') (hc : w.poller.Registered c) : Inv w' := by
  simp only [World.change, bind_eq_ok, pure_eq_ok, Except.ok.injEq] at hexec
  obtain ⟨poller, hchange, rfl⟩ := hexec
  exact h.frame (h.sound.change_registered hchange hc) rfl rfl rfl le_rfl

end Inv

/-! Connections. -/

theorem Connection.established_iff {conn : Connection} :
    conn.established = true ↔ conn.state = .kConnected ∨ conn.state = .kDisconnecting := by
  simp [Connection.established]

section Connections

variable {k : ℕ} {conn : Connection}

theorem slot_connection (h : w.connections k = some conn) :
    w.registry.channelOf (.connection k) = some conn.channel := by
  simp [World.registry, World.channelOf, h]

theorem registers_connection (h : w.connections k = some conn) :
    w.registry.registers (.connection k) = conn.established := by
  simp [World.registry, World.registers, h]

theorem Inv.registered_connection (h : Inv w) (hk : w.connections k = some conn) :
    w.poller.Registered conn.channel ↔ conn.established = true := by
  rw [← registers_connection hk]
  exact (h.sound.slot _ _ (slot_connection hk)).2

theorem retain_inv (h : Inv w) (hexec : w.retain k = .ok w') : Inv w' := by
  simp only [World.retain, bind_eq_ok, demand_eq_ok, pure_eq_ok, Except.ok.injEq] at hexec
  obtain ⟨conn, hk, rfl⟩ := hexec
  exact h.sameConnection hk rfl rfl

theorem newTcpConnection_inv (h : Inv w) {fd : ℕ} {cb : CloseCallback}
    (hfd : w.registry.Unheld Owner.lends fd) : Inv (w.newTcpConnection fd cb) := by
  refine h.frame ?_ rfl rfl rfl (Nat.le_succ _)
  have hnew := h.sound.create hfd (.connection w.next)
  unfold World.newTcpConnection
  rw [World.registry_setConnection]
  exact hnew

theorem connectEstablished_inv (h : Inv w) (hexec : w.connectEstablished k = .ok w') :
    Inv w' := by
  simp only [World.connectEstablished, World.change, bind_eq_ok, demand_eq_ok, require_eq_ok,
    pure_eq_ok, Except.ok.injEq] at hexec
  obtain ⟨conn, hk, -, hstate, poller, hchange, rfl⟩ := hexec
  have hsound := h.sound.register hchange (slot_connection hk) rfl
  have hregistry := World.registry_keepConnection hk
    (show { conn with state := .kConnected }.channel = conn.channel from rfl)
  refine h.frame ?_ rfl rfl rfl le_rfl
  show Sound Owner.lends { (w.setConnection k _).registry with poller := poller }
  rw [hregistry]
  exact hsound

/-- The last pointer to a connection that is not established goes. -/
theorem release_inv (h : Inv w) (hexec : w.release k = .ok w')
    (hlast : ∀ conn, w.connections k = some conn → conn.useCount ≤ 1 →
      conn.established = false) : Inv w' := by
  simp only [World.release, bind_eq_ok, demand_eq_ok] at hexec
  obtain ⟨conn, hk, hexec⟩ := hexec
  split at hexec
  · rename_i hcount
    obtain rfl := Except.ok.inj hexec
    have hunreg : ¬ w.poller.Registered conn.channel := by
      rw [h.registered_connection hk, hlast conn hk hcount]
      exact Bool.false_ne_true
    obtain ⟨howner, -⟩ := h.sound.slot _ _ (slot_connection hk)
    have hforget : ((w.setConnection k none).registry).Sound Owner.lends := by
      rw [World.registry_setConnection]
      exact h.sound.forget (.connection k)
    have hholds : ((w.setConnection k none).registry).Holds Owner.lends conn.channel :=
      ⟨.connection k, howner, by simp [Owner.lends]⟩
    refine h.frame ?_ rfl rfl rfl le_rfl
    refine (hforget.destroy hunreg ?_).close (hforget.destroy_unheld hholds)
    intro o ho
    have hself := (hforget.slot o _ ho).1.symm.trans howner
    obtain rfl := Option.some.inj hself
    simp [World.registry_setConnection] at ho
  · obtain rfl := Except.ok.inj hexec
    exact h.sameConnection hk rfl rfl

theorem connectDestroyed_inv (h : Inv w) (hexec : w.connectDestroyed k = .ok w') : Inv w' := by
  simp only [World.connectDestroyed, World.change, World.removeChannel, bind_eq_ok, demand_eq_ok,
    require_eq_ok, pure_eq_ok, Except.ok.injEq] at hexec
  obtain ⟨conn, hk, -, hstate, _, ⟨first, hchange, rfl⟩, second, hremove, rfl⟩ := hexec
  have hreg := (h.registered_connection hk).mpr (Connection.established_iff.mpr hstate)
  have hsound := (h.sound.change_registered hchange hreg).unregister
    (o := .connection k) hremove (slot_connection hk)
  have hregistry := World.registry_keepConnection hk
    (show { conn with state := .kDisconnected }.channel = conn.channel from rfl)
  refine h.frame ?_ rfl rfl rfl le_rfl
  show Sound Owner.lends { (w.setConnection k _).registry with poller := second }
  rw [hregistry]
  exact hsound

theorem shutdown_inv (h : Inv w) (hexec : w.shutdown k = .ok w') : Inv w' := by
  simp only [World.shutdown, bind_eq_ok, demand_eq_ok] at hexec
  obtain ⟨conn, hk, hexec⟩ := hexec
  split at hexec
  · rename_i hstate
    obtain rfl := Except.ok.inj hexec
    exact h.sameConnection hk rfl (by simp [Connection.established, hstate])
  · obtain rfl := Except.ok.inj hexec
    exact h

theorem notifyComplete_inv (h : Inv w) {notify : Bool}
    (hexec : w.notifyComplete k notify = .ok w') : Inv w' := by
  unfold World.notifyComplete at hexec
  split at hexec
  · simp only [bind_eq_ok, pure_eq_ok, Except.ok.injEq] at hexec
    obtain ⟨w₁, hretain, rfl⟩ := hexec
    exact (retain_inv h hretain).queueInLoop rfl
  · obtain rfl := Except.ok.inj hexec
    exact h

theorem send_inv (h : Inv w) {left notify : Bool} (hexec : w.send k left notify = .ok w') :
    Inv w' := by
  simp only [World.send, bind_eq_ok, demand_eq_ok] at hexec
  obtain ⟨conn, hk, hexec⟩ := hexec
  split at hexec
  · rename_i hstate
    have hreg := (h.registered_connection hk).mpr
      (Connection.established_iff.mpr (Or.inl hstate))
    split at hexec
    · split at hexec
      · obtain rfl := Except.ok.inj hexec
        exact h
      · exact h.change hexec hreg
    · exact notifyComplete_inv h hexec
  · obtain rfl := Except.ok.inj hexec
    exact h

/-- Only an established connection has write interest. -/
theorem Inv.established_of_isWriting (h : Inv w) (hk : w.connections k = some conn)
    (hwriting : (w.poller.channels conn.channel).isWriting = true) : conn.established = true := by
  cases hest : conn.established with
  | true => rfl
  | false =>
    rw [← registers_connection hk] at hest
    have hquiet := h.sound.quiet _ _ (slot_connection hk) hest
    have hnone : (w.poller.channels conn.channel).events = kNoneEvent := hquiet
    rw [isWriting_iff, hnone] at hwriting
    simp [kNoneEvent] at hwriting

theorem handleWrite_inv (h : Inv w) {drained notify : Bool}
    (hexec : w.handleWrite k drained notify = .ok w') : Inv w' := by
  simp only [World.handleWrite, bind_eq_ok, demand_eq_ok] at hexec
  obtain ⟨conn, hk, hexec⟩ := hexec
  split at hexec
  · rename_i hdue
    obtain ⟨hwriting, -⟩ := Bool.and_eq_true_iff.mp hdue
    simp only [bind_eq_ok] at hexec
    obtain ⟨w₁, hchange, hexec⟩ := hexec
    have hreg := (h.registered_connection hk).mpr (h.established_of_isWriting hk hwriting)
    exact notifyComplete_inv (h.change hchange hreg) hexec
  · obtain rfl := Except.ok.inj hexec
    exact h

theorem release_frame (hexec : w.release k = .ok w') :
    w'.poller = w.poller ∧ w'.servers = w.servers := by
  simp only [World.release, bind_eq_ok, demand_eq_ok] at hexec
  obtain ⟨conn, -, hexec⟩ := hexec
  split at hexec
  · obtain rfl := Except.ok.inj hexec
    exact ⟨rfl, rfl⟩
  · obtain rfl := Except.ok.inj hexec
    exact ⟨rfl, rfl⟩

theorem releaseAll_frame {ks : List ℕ} (hexec : w.releaseAll ks = .ok w') :
    w'.poller = w.poller ∧ w'.servers = w.servers := by
  induction ks generalizing w with
  | nil =>
    obtain rfl := Except.ok.inj hexec
    exact ⟨rfl, rfl⟩
  | cons k ks ih =>
    simp only [World.releaseAll, bind_eq_ok] at hexec
    obtain ⟨w₁, hrelease, hexec⟩ := hexec
    obtain ⟨hpoller, hservers⟩ := ih hexec
    obtain ⟨hpoller₁, hservers₁⟩ := release_frame hrelease
    exact ⟨hpoller.trans hpoller₁, hservers.trans hservers₁⟩

/-- The pointers in the list are not the last ones of an established connection. -/
def Spared (w : World) (ks : List ℕ) : Prop :=
  ∀ k ∈ ks, ∀ conn ∈ w.connections k, conn.useCount ≤ ks.count k → conn.established = false

instance (w : World) (ks : List ℕ) : Decidable (Spared w ks) :=
  inferInstanceAs (Decidable (∀ k ∈ ks, ∀ conn ∈ w.connections k,
    conn.useCount ≤ ks.count k → conn.established = false))

theorem Spared.head {ks : List ℕ} (hspared : Spared w (k :: ks)) (hk : w.connections k = some conn)
    (hcount : conn.useCount ≤ 1) : conn.established = false := by
  refine hspared k (by simp) conn hk (hcount.trans ?_)
  simp

/-- What one pointer's end leaves of the others. -/
theorem Spared.tail {ks : List ℕ} (hspared : Spared w (k :: ks)) (hexec : w.release k = .ok w') :
    Spared w' ks := by
  simp only [World.release, bind_eq_ok, demand_eq_ok] at hexec
  obtain ⟨conn, hk, hexec⟩ := hexec
  intro j hj conn' hconn' hcount
  simp only [Option.mem_def] at hconn'
  by_cases hjk : j = k
  · subst hjk
    split at hexec
    · obtain rfl := Except.ok.inj hexec
      simp [World.close, World.destroyChannel, World.setConnection] at hconn'
    · obtain rfl := Except.ok.inj hexec
      simp only [World.setConnection, Function.update_self, Option.some.injEq] at hconn'
      subst hconn'
      have hcount : conn.useCount - 1 ≤ ks.count j := hcount
      refine hspared j (by simp) conn hk ?_
      rw [List.count_cons_self]
      omega
  · have hold : w.connections j = some conn' := by
      split at hexec
      · obtain rfl := Except.ok.inj hexec
        simpa [World.close, World.destroyChannel, World.setConnection, hjk] using hconn'
      · obtain rfl := Except.ok.inj hexec
        simpa [World.setConnection, hjk] using hconn'
    refine hspared j (by simp [hj]) conn' hold ?_
    rw [List.count_cons_of_ne (Ne.symm hjk)]
    exact hcount

theorem releaseAll_inv {ks : List ℕ} (h : Inv w) (hspared : Spared w ks)
    (hexec : w.releaseAll ks = .ok w') : Inv w' := by
  induction ks generalizing w with
  | nil =>
    obtain rfl := Except.ok.inj hexec
    exact h
  | cons k ks ih =>
    simp only [World.releaseAll, bind_eq_ok] at hexec
    obtain ⟨w₁, hrelease, hexec⟩ := hexec
    have h₁ := release_inv h hrelease fun conn hk hcount => hspared.head hk hcount
    exact ih h₁ (hspared.tail hrelease) hexec

/-- Only the Channels of connections go with the pointers to connections. -/
theorem release_owner (h : Inv w) (hexec : w.release k = .ok w') {c : ChannelId} {o : Owner}
    (howner : w.owner c = some o) (ho : o ≠ .connection k) : w'.owner c = some o := by
  simp only [World.release, bind_eq_ok, demand_eq_ok] at hexec
  obtain ⟨conn, hk, hexec⟩ := hexec
  split at hexec
  · obtain rfl := Except.ok.inj hexec
    have hne : c ≠ conn.channel := by
      rintro rfl
      have hself := (h.sound.slot _ _ (slot_connection hk)).1.symm.trans howner
      exact ho (Option.some.inj hself).symm
    simpa [World.close, World.destroyChannel, World.setConnection, hne] using howner
  · obtain rfl := Except.ok.inj hexec
    exact howner

theorem releaseAll_owner {ks : List ℕ} (h : Inv w) (hspared : Spared w ks)
    (hexec : w.releaseAll ks = .ok w') {c : ChannelId} {o : Owner} (howner : w.owner c = some o)
    (ho : ∀ k, o ≠ .connection k) : w'.owner c = some o := by
  induction ks generalizing w with
  | nil =>
    obtain rfl := Except.ok.inj hexec
    exact howner
  | cons k ks ih =>
    simp only [World.releaseAll, bind_eq_ok] at hexec
    obtain ⟨w₁, hrelease, hexec⟩ := hexec
    have h₁ := release_inv h hrelease fun conn hk hcount => hspared.head hk hcount
    exact ih h₁ (hspared.tail hrelease) hexec (release_owner h hrelease howner (ho k))

end Connections

/-! Connectors. -/

section Connectors

variable {n sockfd : ℕ} {x : Connector}

theorem slot_connector (h : w.connectors n = some x) :
    w.registry.channelOf (.connector n) = x.channel := by
  simp [World.registry, World.channelOf, h]

theorem registers_connector (h : w.connectors n = some x) :
    w.registry.registers (.connector n) = decide (x.state = .kConnecting) := by
  simp [World.registry, World.registers, h]

/-- The Channel of a Connector is registered while it is connecting. -/
theorem Inv.registered_connector (h : Inv w) (hx : w.connectors n = some x) {c : ChannelId}
    (hc : x.channel = some c) : w.poller.Registered c ↔ x.state = .kConnecting := by
  have hiff := (h.sound.slot (.connector n) c ((slot_connector hx).trans hc)).2
  rw [registers_connector hx, decide_eq_true_iff] at hiff
  exact hiff

theorem retry_inv (hx : w.connectors n = some x)
    (h : Inv (w.setConnector n (some { x with state := .kDisconnected })))
    (hfd : w.registry.Unheld Owner.lends sockfd) (hexec : w.retry n sockfd = .ok w') :
    Inv w' := by
  simp only [World.retry, hx, bind_eq_ok, demand_eq_ok, Option.some.injEq, pure_eq_ok,
    Except.ok.injEq] at hexec
  obtain ⟨_, rfl, rfl⟩ := hexec
  have hclosed : Inv ((w.setConnector n (some { x with state := .kDisconnected })).close sockfd) :=
    h.close hfd
  split
  · exact ⟨hclosed.sound, hclosed.linked, hclosed.resets, hclosed.batch⟩
  · exact hclosed

theorem connecting_inv (h : Inv w) (hx : w.connectors n = some x)
    (hstate : x.state = .kDisconnected) (hfd : w.registry.Unheld Owner.lends sockfd)
    (hexec : w.connecting n sockfd = .ok w') : Inv w' := by
  simp only [World.connecting, World.change, hx, bind_eq_ok, demand_eq_ok, require_eq_ok,
    Option.some.injEq, pure_eq_ok, Except.ok.injEq] at hexec
  obtain ⟨_, rfl, -, hchannel, poller, hchange, rfl⟩ := hexec
  have hresets : w.resets n = 0 := by
    have howed := h.resets.owed n _ hx
    simp only [Connector.owes, hchannel, ne_eq, not_true_eq_false, false_and, if_false] at howed
    omega
  refine ⟨?_, ?_, ?_, h.batch⟩
  · show Sound Owner.lends { ((w.newChannel (.connector n) sockfd).setConnector n _).registry with
      poller := poller }
    rw [World.registry_setConnector]
    exact h.sound.createRegistered hfd hchange (.connector n)
  · refine (h.linked.mono (Nat.le_succ w.next)).setConnector hx rfl ?_
    intro cl hcl hconn
    exact absurd (h.linked.unconnected hx (by rw [hstate]; decide) hcl) hconn
  · refine (h.resets.mono (Nat.le_succ w.next)).setConnector hx ?_ fun _ _ => rfl
    show w.resets n ≤ _
    rw [hresets]
    exact Nat.zero_le _

theorem connect_inv (h : Inv w) {a : Attempt} (hx : w.connectors n = some x)
    (hstate : x.state = .kDisconnected) (hfd : w.isOpen a.sockfd = false)
    (hexec : w.connect n a = .ok w') : Inv w' := by
  have hunheld : w.registry.Unheld Owner.lends a.sockfd := h.sound.unheld_of_closed hfd
  unfold World.connect at hexec
  split at hexec
  · exact connecting_inv h hx hstate hunheld hexec
  · exact retry_inv hx (h.sameState hx rfl rfl hstate.symm) hunheld hexec
  · obtain rfl := Except.ok.inj hexec
    exact h.close hunheld

theorem startInLoop_inv (h : Inv w) {a : Attempt} (hfd : w.isOpen a.sockfd = false)
    (hexec : w.startInLoop n a = .ok w') : Inv w' := by
  simp only [World.startInLoop, bind_eq_ok, demand_eq_ok, require_eq_ok] at hexec
  obtain ⟨x, hx, -, hstate, hexec⟩ := hexec
  split at hexec
  · exact connect_inv h hx hstate hfd hexec
  · obtain rfl := Except.ok.inj hexec
    exact h

theorem start_inv (h : Inv w) {a : Attempt} (hfd : w.isOpen a.sockfd = false)
    (hexec : w.start n a = .ok w') : Inv w' := by
  simp only [World.start, bind_eq_ok, demand_eq_ok] at hexec
  obtain ⟨x, hx, hexec⟩ := hexec
  have hset : Inv (w.setConnector n (some { x with connect_ := true })) :=
    h.sameState hx rfl rfl rfl
  exact startInLoop_inv hset hfd hexec

/-- `restart` is called when the client has just lost its connection. -/
theorem restart_inv (h : Inv w) {a : Attempt} (hx : w.connectors n = some x)
    (hstate : x.state = .kConnected)
    (hclient : ∀ cl, w.clients x.client = some cl → cl.connection = none)
    (hfd : w.isOpen a.sockfd = false) (hexec : w.restart n a = .ok w') : Inv w' := by
  simp only [World.restart, hx, bind_eq_ok, demand_eq_ok, Option.some.injEq] at hexec
  obtain ⟨_, rfl, hexec⟩ := hexec
  have hset : Inv (w.setConnector n
      (some { x with state := .kDisconnected, connect_ := true })) := by
    refine h.sameConnector hx rfl rfl (by simp [hstate]) ?_
    intro cl hcl hconn
    exact absurd (hclient cl hcl) hconn
  exact startInLoop_inv hset hfd hexec

theorem stop_inv (h : Inv w) (hexec : w.stop n = .ok w') : Inv w' := by
  simp only [World.stop, bind_eq_ok, demand_eq_ok, pure_eq_ok, Except.ok.injEq] at hexec
  obtain ⟨x, hx, rfl⟩ := hexec
  exact h.sameState hx rfl rfl rfl

/-- After `removeAndResetChannel` the Connector may leave `kConnecting`, and the
socket is nobody's. -/
theorem removeAndResetChannel_inv (h : Inv w) (hx : w.connectors n = some x)
    (hstate : x.state = .kConnecting)
    (hexec : w.removeAndResetChannel n = .ok (w', sockfd)) :
    w'.connectors n = some x ∧ w'.registry.Unheld Owner.lends sockfd ∧
      ∀ state, state ≠ .kConnecting →
        Inv (w'.setConnector n (some { x with state := state })) := by
  simp only [World.removeAndResetChannel, World.change, World.removeChannel, hx, bind_eq_ok,
    demand_eq_ok, Option.some.injEq, pure_eq_ok, Except.ok.injEq, Prod.mk.injEq] at hexec
  obtain ⟨_, rfl, c, hc, _, ⟨first, hchange, rfl⟩, _, ⟨second, hremove, rfl⟩, rfl, rfl⟩ := hexec
  have hslot : w.registry.channelOf (.connector n) = some c := (slot_connector hx).trans hc
  have hreg := (h.registered_connector hx hc).mpr hstate
  have hchanged := h.sound.change_registered hchange hreg
  have howner : w.registry.owner c = some (.connector n) := (h.sound.slot _ c hslot).1
  have hfd : (second.channels c).fd = (first.channels c).fd :=
    (Poller.removeChannel_removed hchanged.table hremove).fds c
  refine ⟨hx, ?_, ?_⟩
  · rw [hfd]
    exact hchanged.removeChannel_unheld hremove howner rfl
  · intro state hne
    have howed := h.resets.owed n x hx
    simp only [Connector.owes, hstate, ne_eq, not_true_eq_false, and_false, if_false] at howed
    refine ⟨?_, ?_, ?_, h.batch⟩
    · have hregistry := World.registry_keepConnector hx
        (show { x with state := state }.channel = x.channel from rfl)
      rw [decide_eq_false hne] at hregistry
      show Sound Owner.lends { (w.setConnector n _).registry with poller := second }
      rw [hregistry]
      exact hchanged.unregister (o := .connector n) hremove hslot
    · refine h.linked.setConnector hx rfl ?_
      intro cl hcl hconn
      exact absurd (h.linked.unconnected hx (by rw [hstate]; decide) hcl) hconn
    · refine h.resets.setConnector hx ?_ ?_
      · show (World.queueInLoop _ (.resetChannel n)).resets n ≤ _
        rw [resets_queueReset]
        simp only [Connector.owes, hc, hne, if_true, ne_eq, reduceCtorEq, not_false_eq_true,
          and_self]
        exact Nat.succ_le_succ howed
      · intro m hm
        show (World.queueInLoop _ (.resetChannel n)).resets m = _
        rw [resets_queueReset, if_neg hm]
        rfl

/-- The last `resetChannel` of a Connector. -/
theorem resetChannel_inv (h : Inv w)
    (hdue : ∀ x, w.connectors n = some x → w.resets n = 0 ∧ x.state ≠ .kConnecting)
    (hexec : w.resetChannel n = .ok w') : Inv w' := by
  simp only [World.resetChannel, bind_eq_ok, demand_eq_ok] at hexec
  obtain ⟨x, hx, hexec⟩ := hexec
  obtain ⟨hresets, hne⟩ := hdue x hx
  cases hc : x.channel with
  | none =>
    simp only [hc, pure_eq_ok, Except.ok.injEq] at hexec
    exact hexec ▸ h
  | some c =>
    simp only [hc, pure_eq_ok, Except.ok.injEq] at hexec
    obtain rfl := hexec
    have hslot : w.registry.channelOf (.connector n) = some c := (slot_connector hx).trans hc
    have hunreg : ¬ w.poller.Registered c := by
      rw [h.registered_connector hx hc]
      exact hne
    have hforget : ((w.setConnector n (some { x with channel := none })).registry).Sound
        Owner.lends := by
      rw [World.registry_setConnector]
      simp only [Option.bind_some, Option.any_some, decide_eq_false hne]
      exact h.sound.forget (.connector n)
    refine ⟨?_, ?_, ?_, h.batch⟩
    · refine hforget.destroy hunreg ?_
      intro o ho
      have hself := (hforget.slot o c ho).1.symm.trans (h.sound.slot _ c hslot).1
      obtain rfl := Option.some.inj hself
      simp [World.registry_setConnector] at ho
    · refine h.linked.setConnector hx rfl ?_
      intro cl hcl hconn
      exact (h.linked.link x.client cl x hcl (h.linked.back n x cl hx hcl ▸ hx)).2 hconn
    · refine h.resets.setConnector hx ?_ fun _ _ => rfl
      show w.resets n ≤ _
      rw [hresets]
      exact Nat.zero_le _

theorem releaseConnector_inv (h : Inv w) (hexec : w.releaseConnector n = .ok w') : Inv w' := by
  simp only [World.releaseConnector, bind_eq_ok, demand_eq_ok] at hexec
  obtain ⟨x, hx, hexec⟩ := hexec
  split at hexec
  · simp only [bind_eq_ok, require_eq_ok, pure_eq_ok, Except.ok.injEq] at hexec
    obtain ⟨-, -, rfl⟩ := hexec
    refine ⟨?_, h.linked.removeConnector n, h.resets.removeConnector n, h.batch⟩
    rw [World.registry_setConnector]
    exact h.sound.forget (.connector n)
  · obtain rfl := Except.ok.inj hexec
    exact h.sameState hx rfl rfl rfl

end Connectors

end TinyMuduo.Ownership
