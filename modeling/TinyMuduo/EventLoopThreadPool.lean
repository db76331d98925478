import TinyMuduo.TcpServer

/-!
The thread pool of a TcpServer and the loops on which the server creates its
connections. A pool that was started gives out its loops in turn; the server
sets the number of threads of its pool and takes loops from it, but no function
of the server starts it, so that `getNextLoop` always answers with the base
loop.
-/
namespace TinyMuduo

open Checked Runs

open TcpServer (LoopId baseLoop) in
structure EventLoopThreadPool where
  isStarted : Bool
  numThreads : ℤ
  next : ℕ
  loops : List LoopId
  deriving DecidableEq, Repr

namespace EventLoopThreadPool

open TcpServer (LoopId baseLoop)

def construct : EventLoopThreadPool := ⟨false, 0, 0, []⟩

variable (pool : EventLoopThreadPool)

def setThreadNum (numThreads : ℤ) : EventLoopThreadPool := { pool with numThreads := numThreads }

/-- The loops of the pool are new ones: number `i` of the pool is loop `i + 1`,
after the base loop. -/
def start : Except Fault EventLoopThreadPool := do
  require (pool.isStarted = false) .poolStarted
  return { pool with isStarted := true
                     loops := pool.loops ++ (List.range pool.numThreads.toNat).map (· + 1) }

def getNextLoop : Except Fault (LoopId × EventLoopThreadPool) :=
  if pool.loops = [] then .ok (baseLoop, pool)
  else do
    let loop ← demand pool.loops[pool.next]? .outOfBounds
    let next := pool.next + 1
    return (loop, { pool with next := if pool.loops.length ≤ next then 0 else next })

def nextLoops : ℕ → Except Fault (List LoopId × EventLoopThreadPool)
  | 0 => .ok ([], pool)
  | k + 1 => do
      let (loops, pool') ← nextLoops k
      let (loop, pool'') ← pool'.getNextLoop
      return (loops ++ [loop], pool'')

/-- One call, when the pool is at loop number `k % n`. -/
theorem getNextLoop_of_next {k : ℕ} (hpos : pool.loops ≠ [])
    (hnext : pool.next = k % pool.loops.length) :
    ∃ loop, pool.loops[k % pool.loops.length]? = some loop ∧
      pool.getNextLoop = .ok (loop, { pool with next := (k + 1) % pool.loops.length }) := by
  have hlen : 0 < pool.loops.length := List.length_pos_iff.mpr hpos
  have hlt : k % pool.loops.length < pool.loops.length := Nat.mod_lt k hlen
  refine ⟨pool.loops[k % pool.loops.length], List.getElem?_eq_getElem hlt, ?_⟩
  have hmod : (if pool.loops.length ≤ pool.next + 1 then 0 else pool.next + 1) =
      (k + 1) % pool.loops.length := by
    rw [hnext, ← Nat.mod_add_mod]
    split
    · rename_i hwrap
      have hlast : k % pool.loops.length + 1 = pool.loops.length := by omega
      rw [hlast, Nat.mod_self]
    · rename_i hroom
      exact (Nat.mod_eq_of_lt (by omega)).symm
  unfold getNextLoop
  rw [if_neg hpos, hnext, List.getElem?_eq_getElem hlt]
  rw [← hmod, hnext]
  rfl

/-- The calls go around the loops of the pool. -/
theorem nextLoops_spread (hpos : pool.loops ≠ []) (hnext : pool.next = 0) (k : ℕ) :
    ∃ loops, pool.nextLoops k =
        .ok (loops, { pool with next := k % pool.loops.length }) ∧
      loops.length = k ∧ ∀ i < k, loops[i]? = pool.loops[i % pool.loops.length]? := by
  induction k with
  | zero =>
    refine ⟨[], ?_, rfl, by omega⟩
    rw [nextLoops, Nat.zero_mod, ← hnext]
  | succ k ih =>
    obtain ⟨loops, hcalls, hlen, hloops⟩ := ih
    obtain ⟨loop, hloop, hcall⟩ := getNextLoop_of_next
      { pool with next := k % pool.loops.length } (k := k) hpos rfl
    refine ⟨loops ++ [loop], ?_, by simp [hlen], ?_⟩
    · simp only [nextLoops, hcalls, ok_bind, hcall]
      rfl
    · intro i hi
      rcases Nat.lt_or_eq_of_le (Nat.le_of_lt_succ hi) with hlt | rfl
      · rw [List.getElem?_append_left (by omega)]
        exact hloops i hlt
      · rw [List.getElem?_append_right (by omega), hlen, Nat.sub_self]
        exact hloop.symm

/-- By itself the pool is right: once it is started with `n` threads, call
number `i` returns its loop number `i % n`. -/
theorem start_spreads {n : ℕ} (hn : 1 ≤ n) (k : ℕ) :
    ∃ pool, (construct.setThreadNum n).start = .ok pool ∧ ∃ loops pool',
      pool.nextLoops k = .ok (loops, pool') ∧ loops.length = k ∧
      ∀ i < k, loops[i]? = some (i % n + 1) := by
  refine ⟨⟨true, n, 0, (List.range n).map (· + 1)⟩, rfl, ?_⟩
  have hpos : (List.range n).map (· + 1) ≠ [] := by
    intro hnil
    simp at hnil
    omega
  obtain ⟨loops, hcalls, hlen, hloops⟩ := nextLoops_spread
    ⟨true, n, 0, (List.range n).map (· + 1)⟩ hpos rfl k
  refine ⟨loops, _, hcalls, hlen, fun i hi => ?_⟩
  rw [hloops i hi]
  have hlt : i % n < n := Nat.mod_lt i (by omega)
  simp [hlt]

end EventLoopThreadPool

namespace PoolRuns

open TcpServer (LoopId baseLoop)

/-- A TcpServer with its pool; `state` has the connections and the loops. -/
structure Server where
  threadPool : EventLoopThreadPool
  started : Bool
  listening : Bool
  /-- queued `Acceptor::listen` functors -/
  listens : ℕ
  state : TcpServer.State

def construct (name : String) : Server :=
  ⟨.construct, false, false, 0, TcpServer.initial name⟩

namespace Server

variable (s : Server)

def setThreadNum (numThreads : ℤ) : Except Fault Server := do
  require (0 ≤ numThreads) .threadNumNegative
  return { s with threadPool := s.threadPool.setThreadNum numThreads }

/-- `start` may be called from any thread, and `runInLoop` queues `listen` on
every thread but the loop's. -/
def start (thread : Thread) : Server :=
  let begun := { s with started := true }
  if s.listening then begun
  else if thread = .loop then { begun with listening := true }
  else { begun with listens := s.listens + 1 }

def listen : Server := { s with listening := true, listens := s.listens - 1 }

/-- `newConnection`: the pool chooses the I/O loop. -/
def newConnection : Except Fault Server := do
  let (ioLoop, threadPool) ← s.threadPool.getNextLoop
  return { s with threadPool := threadPool, state := s.state.newConnection ioLoop }

end Server

inductive Input
  | setThreadNum (numThreads : ℤ)
  | start (thread : Thread)
  | listen
  | accept
  | step (i : TcpServer.Input)

def isAccept : TcpServer.Input → Bool
  | .accept _ => true
  | .handleEvent _ _ | .close _ | .run _ | .poll _ | .swapFunctors _ | .functor _
  | .endIteration _ | .queueOther _ | .shutdown _ => false

def Allowed (s : Server) : Input → Prop
  | .setThreadNum _ | .start _ => True
  | .listen => 0 < s.listens
  | .accept => s.listening = true ∧ TcpServer.Allowed s.state (.accept baseLoop)
  | .step i => isAccept i = false ∧ TcpServer.Allowed s.state i

instance (s : Server) : (i : Input) → Decidable (Allowed s i)
  | .setThreadNum _ | .start _ => isTrue trivial
  | .listen => inferInstanceAs (Decidable (0 < s.listens))
  | .accept => inferInstanceAs (Decidable (_ ∧ _))
  | .step _ => inferInstanceAs (Decidable (_ ∧ _))

def exec (s : Server) : Input → Except Fault Server
  | .setThreadNum n => s.setThreadNum n
  | .start thread => .ok (s.start thread)
  | .listen => .ok s.listen
  | .accept => s.newConnection
  | .step i => do
      let state ← TcpServer.exec s.state i
      return { s with state := state }

def system : System Server Input Fault where
  start := fun s => ∃ name, s = construct name
  allowed := Allowed
  exec := exec

instance (s : Server) (i : Input) : Decidable (system.allowed s i) :=
  inferInstanceAs (Decidable (Allowed s i))

def load (s : Server) (ℓ : LoopId) : ℕ :=
  (List.range s.state.accepted).countP fun i => (s.state.connections i).ioLoop = ℓ

structure Spread (s : Server) (n : ℕ) : Prop where
  turn : ∀ i < s.state.accepted,
    s.threadPool.loops[i % n]? = some (s.state.connections i).ioLoop
  balanced : ∀ a ∈ s.threadPool.loops, ∀ b ∈ s.threadPool.loops, load s a ≤ load s b + 1
  offBase : ∀ i < s.state.accepted, (s.state.connections i).ioLoop ≠ baseLoop

/-- Nobody has started the pool, and every connection is on the base loop. -/
structure Unstarted (s : Server) : Prop where
  loops : s.threadPool.loops = []
  placed : ∀ i < s.state.accepted, (s.state.connections i).ioLoop = baseLoop

section Runs

variable {s s' : Server}

theorem start_frame (s : Server) (thread : Thread) :
    (s.start thread).threadPool = s.threadPool ∧ (s.start thread).state = s.state := by
  unfold Server.start
  split
  · exact ⟨rfl, rfl⟩
  · split
    · exact ⟨rfl, rfl⟩
    · exact ⟨rfl, rfl⟩

theorem newConnection_unstarted (h : Unstarted s) (hexec : s.newConnection = .ok s') :
    Unstarted s' := by
  have hnext : s.threadPool.getNextLoop = .ok (baseLoop, s.threadPool) := by
    rw [EventLoopThreadPool.getNextLoop, if_pos h.loops]
  rw [Server.newConnection, hnext, ok_bind] at hexec
  obtain rfl := Except.ok.inj hexec
  refine ⟨h.loops, fun i hi => ?_⟩
  show (Function.update s.state.connections s.state.accepted _ i).ioLoop = baseLoop
  by_cases hlast : i = s.state.accepted
  · rw [hlast, Function.update_self]
  · rw [Function.update_of_ne hlast]
    have hlt : i < s.state.accepted + 1 := hi
    exact h.placed i (by omega)

theorem step_unstarted {i : Input} (h : Unstarted s) (hallow : Allowed s i)
    (hexec : exec s i = .ok s') : Unstarted s' := by
  cases i with
  | setThreadNum n =>
    simp only [exec, Server.setThreadNum, bind_eq_ok, require_eq_ok, pure_eq_ok,
      Except.ok.injEq] at hexec
    obtain ⟨-, -, rfl⟩ := hexec
    exact ⟨h.loops, h.placed⟩
  | start thread =>
    obtain rfl := Except.ok.inj hexec
    obtain ⟨hpool, hstate⟩ := start_frame s thread
    exact ⟨hpool ▸ h.loops, hstate ▸ h.placed⟩
  | listen =>
    obtain rfl := Except.ok.inj hexec
    exact ⟨h.loops, h.placed⟩
  | accept => exact newConnection_unstarted h hexec
  | step i =>
    simp only [exec, bind_pure_eq_ok] at hexec
    obtain ⟨state, hstep, rfl⟩ := hexec
    have hi : ∀ ioLoop, i ≠ .accept ioLoop := by
      rintro ioLoop rfl
      exact absurd hallow.1 (by simp [isAccept])
    obtain ⟨haccepted, hio⟩ := TcpServer.exec_samePlaces hi hstep
    refine ⟨h.loops, fun j hj => ?_⟩
    show (state.connections j).ioLoop = baseLoop
    rw [hio j]
    exact h.placed j (haccepted ▸ hj)

theorem reach_unstarted (h : Reachable system s) : Unstarted s := by
  refine h.invariant (I := Unstarted) ?_
    fun s i s' hinv hallow _ hexec => step_unstarted hinv hallow hexec
  rintro s ⟨name, rfl⟩
  refine ⟨rfl, fun i hi => ?_⟩
  have hnone : i < 0 := hi
  omega

/-- Whatever number of threads a server was given and whoever started it, its
connections are spread over the pool only as long as there are none. -/
theorem spread_iff_no_connection (h : Reachable system s) (n : ℕ) :
    Spread s n ↔ s.state.accepted = 0 := by
  have hpool := reach_unstarted h
  constructor
  · intro hspread
    by_contra hsome
    have hfirst : 0 < s.state.accepted := Nat.pos_of_ne_zero hsome
    exact hspread.offBase 0 hfirst (hpool.placed 0 hfirst)
  · intro hnone
    refine ⟨fun i hi => by omega, fun a ha => ?_, fun i hi => by omega⟩
    simp [hpool.loops] at ha

/-- The server of test11: four threads, started from the loop's thread; then one
client connects. -/
def fourThreads : List Input :=
  [.setThreadNum 4, .start .loop, .step (.poll 0), .accept]

theorem fourThreads_on_base : ∃ s, Reachable system s ∧ s.threadPool.numThreads = 4 ∧
    s.started = true ∧ s.state.accepted = 1 ∧ (s.state.connections 0).ioLoop = baseLoop ∧
    ¬ Spread s 4 := by
  obtain ⟨s, hs, htest⟩ := exists_of_replay (M := system) Free ⟨"0.0.0.0:9981", rfl⟩ fourThreads
    (fun s => decide (s.threadPool.numThreads = 4 ∧ s.started = true ∧ s.state.accepted = 1 ∧
      (s.state.connections 0).ioLoop = baseLoop)) (by decide +kernel)
  obtain ⟨hthreads, hstarted, haccepted, hbase⟩ := of_decide_eq_true htest
  refine ⟨s, hs, hthreads, hstarted, haccepted, hbase, ?_⟩
  intro hspread
  exact hspread.offBase 0 (by omega) hbase

theorem fourThreads_waiting : ∃ s, Reachable system s ∧ s.threadPool.numThreads = 4 ∧
    s.started = true ∧ s.listening = true ∧ Spread s 4 := by
  obtain ⟨s, hs, htest⟩ := exists_of_replay (M := system) Free ⟨"0.0.0.0:9981", rfl⟩
    (fourThreads.take 3) (fun s => decide (s.threadPool.numThreads = 4 ∧
      s.started = true ∧ s.listening = true ∧ s.state.accepted = 0)) (by decide +kernel)
  obtain ⟨hthreads, hstarted, hlistening, hnone⟩ := of_decide_eq_true htest
  exact ⟨s, hs, hthreads, hstarted, hlistening, (spread_iff_no_connection hs 4).mpr hnone⟩

end Runs

end PoolRuns

end TinyMuduo
