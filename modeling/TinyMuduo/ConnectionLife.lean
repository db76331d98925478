import Mathlib
import TinyMuduo.ConnectionStages

/-!
The life of a server's connections across loops. The invariant says that the
threads hold exactly the tokens of the stages, that the history of a connection
is the part of a fixed path that its stage has reached, and that
`connectionMap` has the connections between `newConnection` and their erase.
It follows that the path is never left, that no assertion fails, and that a
connection has an owner until `connectDestroyed` has returned.
-/
namespace TinyMuduo.TcpServer

open Checked Runs Custody
open TcpConnection (StateE)

/-! The threads by themselves. -/

def Frame.phase : Frame → Option Phase
  | .handleEvent _ => some .handling
  | .connectDestroyed _ | .destroyed _ => some .calling
  | _ => none

/-- A loop is in no function while it polls, its functors are called in one
phase, and its functions belong to the phase. -/
structure LoopThread.Orderly (thread : LoopThread) : Prop where
  polling : thread.loop.phase = .polling → thread.stack = []
  batch : thread.loop.phase ≠ .calling → thread.loop.functors = []
  frames : ∀ f ∈ thread.stack, ∀ phase ∈ f.phase, thread.loop.phase = phase

def Orderly (s : State) : Prop := ∀ ℓ, (s.threads ℓ).Orderly

section Orderly

variable {s : State} {ℓ : LoopId}

theorem Orderly.setThread {thread : LoopThread} (h : Orderly s) (hthread : thread.Orderly) :
    Orderly (s.setThread ℓ thread) := by
  intro ℓ'
  by_cases hℓ : ℓ' = ℓ
  · subst hℓ
    simpa [State.setThread] using hthread
  · simpa [State.setThread, hℓ] using h ℓ'

/-- A stack changes; its new functions are in the phase of the loop. -/
theorem Orderly.setStack {stack : List Frame} (h : Orderly s)
    (hphase : (s.threads ℓ).loop.phase ≠ .polling)
    (hframes : ∀ f ∈ stack, ∀ phase ∈ f.phase, (s.threads ℓ).loop.phase = phase) :
    Orderly (s.setStack ℓ stack) :=
  h.setThread ⟨fun hpolling => absurd hpolling hphase, (h ℓ).batch, hframes⟩

theorem Orderly.queueInLoop (h : Orderly s) (ℓ : LoopId) (cb : Functor) :
    Orderly (s.queueInLoop ℓ cb) :=
  h.setThread ⟨(h ℓ).polling, (h ℓ).batch, (h ℓ).frames⟩

theorem Orderly.push {f : Frame} (h : Orderly s) (hphase : (s.threads ℓ).loop.phase ≠ .polling)
    (hf : ∀ phase ∈ f.phase, (s.threads ℓ).loop.phase = phase) :
    Orderly (s.setStack ℓ (f :: (s.threads ℓ).stack)) := by
  refine h.setStack hphase ?_
  intro g hg
  rcases List.mem_cons.mp hg with rfl | hg
  · exact hf
  · exact (h ℓ).frames g hg

theorem Orderly.call {cb : Functor} (h : Orderly s) (hphase : (s.threads ℓ).loop.phase ≠ .polling)
    (hcb : ∀ k, cb = .connectDestroyed k → (s.threads ℓ).loop.phase = .calling) :
    Orderly (s.call ℓ cb) := by
  cases cb with
  | connectEstablished k => exact h.push hphase (by simp [Frame.phase])
  | removeConnectionInLoop k => exact h.push hphase (by simp [Frame.phase])
  | connectDestroyed k => exact h.push hphase (by simpa [Frame.phase] using hcb k rfl)
  | other => exact h

theorem Orderly.runInLoop {caller : LoopId} {cb : Functor} (h : Orderly s)
    (hphase : (s.threads caller).loop.phase ≠ .polling) (hcb : ∀ k, cb ≠ .connectDestroyed k) :
    Orderly (s.runInLoop caller ℓ cb) := by
  unfold State.runInLoop
  split
  · rename_i hsame
    subst hsame
    exact h.call hphase (fun k hk => absurd hk (hcb k))
  · exact h.queueInLoop ℓ cb

/-- A thread that is in a function is not polling. -/
theorem Orderly.busy {f : Frame} {rest : List Frame} (h : Orderly s)
    (hstack : (s.threads ℓ).stack = f :: rest) : (s.threads ℓ).loop.phase ≠ .polling := by
  intro hpolling
  have hnil := (h ℓ).polling hpolling
  rw [hstack] at hnil
  cases hnil

theorem Orderly.pop {f : Frame} {rest : List Frame} (h : Orderly s)
    (hstack : (s.threads ℓ).stack = f :: rest) : Orderly (s.setStack ℓ rest) := by
  refine h.setStack (h.busy hstack) fun g hg => (h ℓ).frames g ?_
  rw [hstack]
  exact List.mem_cons_of_mem f hg

/-- The function on top of a stack goes to a statement of the same phase. -/
theorem Orderly.replace {f g : Frame} {rest : List Frame} (h : Orderly s)
    (hstack : (s.threads ℓ).stack = f :: rest) (hg : g.phase = none ∨ g.phase = f.phase) :
    Orderly (s.setStack ℓ (g :: rest)) := by
  refine h.setStack (h.busy hstack) ?_
  have hold := (h ℓ).frames
  rw [hstack] at hold
  intro x hx phase hphase
  rcases List.mem_cons.mp hx with rfl | hx
  · rcases hg with hg | hg
    · simp [hg] at hphase
    · exact hold f List.mem_cons_self phase (hg ▸ hphase)
  · exact hold x (List.mem_cons_of_mem f hx) phase hphase

@[simp]
theorem setStack_phase (s : State) (ℓ ℓ' : LoopId) (stack : List Frame) :
    ((s.setStack ℓ stack).threads ℓ').loop = (s.threads ℓ').loop := by
  by_cases hℓ : ℓ' = ℓ
  · subst hℓ
    simp [State.setStack, State.setThread]
  · simp [State.setStack, State.setThread, hℓ]

theorem run_orderly {f : Frame} {rest : List Frame} {s' : State} (h : Orderly s)
    (hstack : (s.threads ℓ).stack = f :: rest) (hexec : s.run ℓ rest f = .ok s') :
    Orderly s' := by
  have hbusy := h.busy hstack
  cases f with
  | newConnection k =>
    obtain rfl := Except.ok.inj hexec
    exact (h.replace hstack (.inl rfl)).runInLoop (by simpa using hbusy) (by simp)
  | handleEvent k =>
    obtain rfl := Except.ok.inj hexec
    exact h.pop hstack
  | connectEstablished k =>
    simp only [State.run, bind_eq_ok, require_eq_ok, pure_eq_ok, Except.ok.injEq] at hexec
    obtain ⟨-, -, -, -, rfl⟩ := hexec
    exact h.replace hstack (.inl rfl)
  | removeConnectionInLoop k =>
    simp only [State.run, bind_eq_ok, require_eq_ok, pure_eq_ok, Except.ok.injEq] at hexec
    obtain ⟨-, -, -, -, rfl⟩ := hexec
    exact h.replace hstack (.inl rfl)
  | queueDestroyed k =>
    obtain rfl := Except.ok.inj hexec
    exact (h.replace hstack (.inl rfl)).queueInLoop _ _
  | connectDestroyed k =>
    simp only [State.run, bind_eq_ok, require_eq_ok, pure_eq_ok, Except.ok.injEq] at hexec
    obtain ⟨-, -, -, -, rfl⟩ := hexec
    exact h.replace hstack (.inr rfl)
  | destroyed k =>
    obtain rfl := Except.ok.inj hexec
    exact h.pop hstack
  | returning =>
    obtain rfl := Except.ok.inj hexec
    exact h.pop hstack

theorem handled?_eq_some {k : ℕ} :
    s.handled? ℓ = some k ↔ ∃ rest, (s.threads ℓ).stack = .handleEvent k :: rest := by
  unfold State.handled?
  split
  · rename_i j rest hstack
    simp [hstack]
  · rename_i hother
    simp only [reduceCtorEq, false_iff, not_exists]
    exact fun rest => hother k rest

theorem step_orderly {i : Input} {s' : State} (h : Orderly s) (hallow : Allowed s i)
    (hexec : exec s i = .ok s') : Orderly s' := by
  cases i with
  | accept ioLoop =>
    obtain rfl := Except.ok.inj hexec
    exact h.push (f := .newConnection s.accepted) (by simp [hallow.1]) (by simp [Frame.phase])
  | handleEvent ℓ k =>
    obtain rfl := Except.ok.inj hexec
    exact h.push (by simp [hallow.1]) (by simpa [Frame.phase] using hallow.1)
  | close ℓ =>
    simp only [exec] at hexec
    split at hexec
    · rename_i k hk
      obtain ⟨rest, hstack⟩ := handled?_eq_some.mp hk
      simp only [State.handleClose, bind_eq_ok, require_eq_ok, pure_eq_ok, Except.ok.injEq]
        at hexec
      obtain ⟨-, -, -, -, rfl⟩ := hexec
      have hrecord : Orderly (s.record k .closeCallback ℓ) := h
      exact hrecord.runInLoop (h.busy hstack) (by simp)
    · obtain rfl := Except.ok.inj hexec
      exact h
  | run ℓ =>
    simp only [exec] at hexec
    split at hexec
    · obtain rfl := Except.ok.inj hexec
      exact h
    · rename_i f rest hstack
      exact run_orderly h hstack hexec
  | poll ℓ =>
    obtain rfl := Except.ok.inj hexec
    have hstack := (h ℓ).polling hallow
    refine h.setThread ⟨fun _ => hstack, fun _ => (h ℓ).batch ?_, by simp [hstack]⟩
    rw [hallow]
    decide
  | swapFunctors ℓ =>
    obtain rfl := Except.ok.inj hexec
    exact h.setThread ⟨fun _ => hallow.2, fun hne => absurd rfl hne, by simp [hallow.2]⟩
  | functor ℓ =>
    obtain ⟨hphase, hstack, -⟩ := hallow
    simp only [exec] at hexec
    split at hexec
    · obtain rfl := Except.ok.inj hexec
      exact h
    · rename_i cb fs hf
      obtain rfl := Except.ok.inj hexec
      have hpop : Orderly (s.setLoop ℓ (s.threads ℓ).loop.popFunctor) :=
        h.setThread ⟨(h ℓ).polling, fun hne => absurd hphase hne, (h ℓ).frames⟩
      have hcalling : ((s.setLoop ℓ (s.threads ℓ).loop.popFunctor).threads ℓ).loop.phase =
          .calling := by
        simpa [State.setLoop, State.setThread, EventLoop.popFunctor] using hphase
      exact hpop.call (by simp [hcalling]) fun _ _ => hcalling
  | endIteration ℓ =>
    obtain rfl := Except.ok.inj hexec
    obtain ⟨-, hstack, hfunctors⟩ := hallow
    exact h.setThread ⟨fun _ => hstack, fun _ => hfunctors, by simp [hstack]⟩
  | queueOther ℓ =>
    obtain rfl := Except.ok.inj hexec
    exact h.queueInLoop ℓ .other
  | shutdown k =>
    obtain rfl := Except.ok.inj hexec
    unfold State.shutdown
    split
    · exact h
    · exact h

end Orderly

/-! The stages of the connections. -/

/-- The moments of a connection's life in their order, each with its loop. -/
def path (ioLoop : LoopId) : List (Event × LoopId) :=
  [(.newConnection, baseLoop), (.connectEstablished, ioLoop), (.closeCallback, ioLoop),
    (.removeConnectionInLoop, baseLoop), (.erased, baseLoop), (.connectDestroyed, ioLoop),
    (.returned, ioLoop)]

def trace (s : State) (k : ℕ) : List (Event × LoopId) :=
  (s.history.filter fun r => r.conn = k).map fun r => (r.event, r.loop)

/-- The name that `newConnection` gives to connection number `k`. -/
def connName (server : String) (k : ℕ) : String := server ++ ("#" ++ toString ((k : ℤ) + 1))

theorem connName_injective (server : String) : Function.Injective (connName server) := by
  intro j k h
  unfold connName at h
  rw [String.append_right_inj, String.append_right_inj] at h
  have hid : (j : ℤ) + 1 = (k : ℤ) + 1 := Int.repr_injective h
  omega

structure Fits (server : String) (k : ℕ) (st : Stage) (conn : Connection) : Prop where
  name : st ≠ .unborn → conn.name = connName server k
  connecting : st.opened = false → conn.state = .kConnecting
  up : st.up = true → conn.state = .kConnected ∨ conn.state = .kDisconnecting
  registered : conn.registered = true → st.opened = true

def site (s : State) (stage : ℕ → Stage) (k : ℕ) : Option (LoopId × Stage) :=
  ((stage k).place (s.connections k).ioLoop).map fun ℓ => (ℓ, stage k)

structure Inv (s : State) (stage : ℕ → Stage) : Prop where
  kept : Kept (site s stage) (held s)
  born : ∀ k, stage k = .unborn ↔ s.accepted ≤ k
  traced : ∀ k, trace s k = (path (s.connections k).ioLoop).take (stage k).logged
  fits : ∀ k, Fits s.name k (stage k) (s.connections k)
  mapped : ∀ n k, s.connectionMap n = some k ↔
    (stage k).inMap = true ∧ (s.connections k).name = n
  handled : ∀ ℓ k, .handleEvent k ∈ (s.threads ℓ).stack →
    (s.connections k).ioLoop = ℓ ∧ (stage k).opened = true
  nextId : s.nextConnId = ((s.accepted : ℤ) + 1).bmod (2 ^ 32)

section Stages

variable {s s' : State} {stage : ℕ → Stage} {ℓ : LoopId} {k : ℕ} {st st' : Stage}

@[simp]
theorem trace_record (s : State) (k : ℕ) (event : Event) (ℓ : LoopId) (j : ℕ) :
    trace (s.record k event ℓ) j =
      if j = k then trace s j ++ [(event, ℓ)] else trace s j := by
  unfold trace State.record
  by_cases hj : j = k
  · subst hj
    simp
  · simp [hj, Ne.symm hj]

theorem trace_same (h : s'.history = s.history) (j : ℕ) :
    trace s' j = if j = k then trace s j ++ [] else trace s j := by
  simp [trace, h]

/-- A token tells the stage of its connection and the loop it is on. -/
theorem Inv.stage_of_held (h : Inv s stage) (hheld : 0 < held s ℓ k st) :
    stage k = st ∧ st.place (s.connections k).ioLoop = some ℓ := by
  have hsite := h.kept.site hheld
  unfold site at hsite
  simp only [Option.map_eq_some_iff, Prod.mk.injEq] at hsite
  obtain ⟨ℓ', hplace, rfl, rfl⟩ := hsite
  exact ⟨rfl, hplace⟩

/-- The token of a connection that moves to another stage. -/
theorem site_update (hothers : ∀ j, j ≠ k → s'.connections j = s.connections j) :
    site s' (Function.update stage k st) = Function.update (site s stage) k
      ((st.place (s'.connections k).ioLoop).map fun ℓ => (ℓ, st)) := by
  funext j
  by_cases hj : j = k
  · subst hj
    simp [site]
  · simp [site, hj, hothers j hj]

/-- What the steps of connection `k` leave as it is once it is accepted. -/
structure Continues (s s' : State) (k : ℕ) : Prop where
  name : s'.name = s.name
  nextConnId : s'.nextConnId = s.nextConnId
  accepted : s'.accepted = s.accepted
  others : ∀ j, j ≠ k → s'.connections j = s.connections j
  ioLoop : (s'.connections k).ioLoop = (s.connections k).ioLoop
  connName : (s'.connections k).name = (s.connections k).name
  events : ∀ ℓ j, .handleEvent j ∈ (s'.threads ℓ).stack → .handleEvent j ∈ (s.threads ℓ).stack

theorem Continues.trans {s'' : State} (h : Continues s s' k) (h' : Continues s' s'' k) :
    Continues s s'' k where
  name := h'.name.trans h.name
  nextConnId := h'.nextConnId.trans h.nextConnId
  accepted := h'.accepted.trans h.accepted
  others j hj := (h'.others j hj).trans (h.others j hj)
  ioLoop := h'.ioLoop.trans h.ioLoop
  connName := h'.connName.trans h.connName
  events ℓ j hj := h.events ℓ j (h'.events ℓ j hj)

theorem continues_setThread {thread : LoopThread} (k : ℕ)
    (hevents : ∀ j, .handleEvent j ∈ thread.stack → .handleEvent j ∈ (s.threads ℓ).stack) :
    Continues s (s.setThread ℓ thread) k := by
  refine ⟨rfl, rfl, rfl, fun _ _ => rfl, rfl, rfl, ?_⟩
  intro ℓ' j hj
  by_cases hℓ : ℓ' = ℓ
  · subst hℓ
    exact hevents j (by simpa [State.setThread] using hj)
  · simpa [State.setThread, hℓ] using hj

theorem continues_record (s : State) (j : ℕ) (event : Event) (ℓ : LoopId) (k : ℕ) :
    Continues s (s.record j event ℓ) k :=
  ⟨rfl, rfl, rfl, fun _ _ => rfl, rfl, rfl, fun _ _ hj => hj⟩

theorem continues_queueInLoop (s : State) (ℓ : LoopId) (cb : Functor) (k : ℕ) :
    Continues s (s.queueInLoop ℓ cb) k :=
  continues_setThread k fun _ hj => hj

theorem continues_setConnection {conn : Connection}
    (hio : conn.ioLoop = (s.connections k).ioLoop) (hname : conn.name = (s.connections k).name) :
    Continues s (s.setConnection k conn) k := by
  refine ⟨rfl, rfl, rfl, ?_, ?_, ?_, fun _ _ hj => hj⟩
  · intro j hj
    simp [State.setConnection, hj]
  · simpa [State.setConnection] using hio
  · simpa [State.setConnection] using hname

theorem continues_pop {f : Frame} {rest : List Frame} (hstack : (s.threads ℓ).stack = f :: rest)
    (k : ℕ) : Continues s (s.setStack ℓ rest) k := by
  refine continues_setThread k fun j hj => ?_
  rw [hstack]
  exact List.mem_cons_of_mem f hj

theorem continues_replace {f g : Frame} {rest : List Frame}
    (hstack : (s.threads ℓ).stack = f :: rest) (hg : ∀ j, g ≠ .handleEvent j) (k : ℕ) :
    Continues s (s.setStack ℓ (g :: rest)) k := by
  refine continues_setThread k fun j hj => ?_
  rw [hstack]
  rcases List.mem_cons.mp hj with hj | hj
  · exact absurd hj.symm (hg j)
  · exact List.mem_cons_of_mem f hj

theorem continues_push {g : Frame} (hg : ∀ j, g ≠ .handleEvent j) (s : State) (ℓ : LoopId)
    (k : ℕ) : Continues s (s.setStack ℓ (g :: (s.threads ℓ).stack)) k := by
  refine continues_setThread k fun j hj => ?_
  rcases List.mem_cons.mp hj with hj | hj
  · exact absurd hj.symm (hg j)
  · exact hj

theorem continues_call (s : State) (ℓ : LoopId) (cb : Functor) (k : ℕ) :
    Continues s (s.call ℓ cb) k := by
  cases cb with
  | connectEstablished j =>
    have hpush := continues_push (g := .connectEstablished j) (by simp) s ℓ k
    exact hpush.trans (continues_record _ _ _ _ k)
  | removeConnectionInLoop j =>
    have hpush := continues_push (g := .removeConnectionInLoop j) (by simp) s ℓ k
    exact hpush.trans (continues_record _ _ _ _ k)
  | connectDestroyed j =>
    have hpush := continues_push (g := .connectDestroyed j) (by simp) s ℓ k
    exact hpush.trans (continues_record _ _ _ _ k)
  | other => exact ⟨rfl, rfl, rfl, fun _ _ => rfl, rfl, rfl, fun _ _ hj => hj⟩

/-- The map of a step that neither inserts nor erases. -/
theorem Inv.sameMap (h : Inv s stage) (hstep : Continues s s' k)
    (hmap : s'.connectionMap = s.connectionMap) (hin : st'.inMap = (stage k).inMap) (n : String)
    (j : ℕ) : s'.connectionMap n = some j ↔
      (Function.update stage k st' j).inMap = true ∧ (s'.connections j).name = n := by
  rw [hmap, h.mapped n j]
  by_cases hj : j = k
  · subst hj
    rw [Function.update_self, hin, hstep.connName]
  · rw [Function.update_of_ne hj, hstep.others j hj]

def Takes (s : State) (stage : ℕ → Stage) (k : ℕ) (s' : State) : Prop :=
  ∀ p j t, held s' p j t + mark k (site s stage k) p j t = held s p j t

def Moves (s : State) (stage : ℕ → Stage) (k : ℕ) (s' : State) (place : Option LoopId)
    (st' : Stage) : Prop :=
  ∀ p j t, held s' p j t + mark k (site s stage k) p j t =
    held s p j t + mark k (place.map fun ℓ => (ℓ, st')) p j t

theorem Takes.moves (h : Takes s stage k s') (st' : Stage) : Moves s stage k s' none st' := by
  intro p j t
  rw [Option.map_none, mark_none]
  exact h p j t

theorem Takes.call {cb : Functor} (h : Takes s stage k s') (ℓ : LoopId)
    (hcb : cb.called = some (k, st')) : Moves s stage k (s'.call ℓ cb) (some ℓ) st' := by
  intro p j t
  have hcall := held_call s' ℓ cb p j t
  have htaken := h p j t
  rw [hcb, weight_some] at hcall
  rw [Option.map_some]
  omega

theorem Takes.queueInLoop {cb : Functor} (h : Takes s stage k s') (ℓ : LoopId)
    (hcb : cb.token = some (k, st')) : Moves s stage k (s'.queueInLoop ℓ cb) (some ℓ) st' := by
  intro p j t
  have hqueue := held_queueInLoop s' ℓ cb p j t
  have htaken := h p j t
  rw [hcb, weight_some] at hqueue
  rw [Option.map_some]
  omega

/-- A connection that was accepted moves to a later stage: its token moves,
and its history grows by the next part of the path. -/
theorem Inv.advance {events : List (Event × LoopId)} (h : Inv s stage) (st' : Stage)
    (place : Option LoopId) (hst : stage k = st) (hborn : st' = .unborn ↔ st = .unborn)
    (hopened : st.opened = true → st'.opened = true) (hstep : Continues s s' k)
    (hfits : Fits s.name k st' (s'.connections k))
    (hplace : st'.place (s.connections k).ioLoop = place)
    (hheld : Moves s stage k s' place st')
    (htrace : ∀ j, trace s' j = if j = k then trace s j ++ events else trace s j)
    (hpath : (path (s.connections k).ioLoop).take st'.logged =
      (path (s.connections k).ioLoop).take st.logged ++ events)
    (hmapped : ∀ n j, s'.connectionMap n = some j ↔
      (Function.update stage k st' j).inMap = true ∧ (s'.connections j).name = n) :
    Inv s' (Function.update stage k st') where
  kept := by
    rw [site_update hstep.others, hstep.ioLoop, hplace]
    exact h.kept.move _ hheld
  born j := by
    rw [hstep.accepted, ← h.born j]
    by_cases hj : j = k
    · subst hj
      rw [Function.update_self, hst, hborn]
    · simp [hj]
  traced j := by
    rw [htrace j]
    by_cases hj : j = k
    · subst hj
      rw [if_pos rfl, Function.update_self, hstep.ioLoop, h.traced, hst, hpath]
    · rw [if_neg hj, Function.update_of_ne hj, hstep.others j hj, h.traced]
  fits j := by
    rw [hstep.name]
    by_cases hj : j = k
    · subst hj
      simpa using hfits
    · simpa [hj, hstep.others j hj] using h.fits j
  mapped := hmapped
  handled ℓ j hj := by
    obtain ⟨hio, hstage⟩ := h.handled ℓ j (hstep.events ℓ j hj)
    by_cases hjk : j = k
    · subst hjk
      rw [Function.update_self, hstep.ioLoop]
      exact ⟨hio, hopened (hst ▸ hstage)⟩
    · rw [Function.update_of_ne hjk, hstep.others j hjk]
      exact ⟨hio, hstage⟩
  nextId := by
    rw [hstep.nextConnId, hstep.accepted]
    exact h.nextId

/-- A step that moves no connection to another stage. -/
theorem Inv.still (h : Inv s stage) (hstep : Continues s s' k)
    (hfits : Fits s.name k (stage k) (s'.connections k)) (hheld : held s' = held s)
    (hhistory : s'.history = s.history) (hmap : s'.connectionMap = s.connectionMap) :
    Inv s' stage := by
  have hsame : Function.update stage k (stage k) = stage := Function.update_eq_self k stage
  have hnext : Inv s' (Function.update stage k (stage k)) := by
    refine h.advance (stage k) _ rfl Iff.rfl id hstep hfits rfl ?_ (trace_same hhistory)
      (List.append_nil _).symm
      (h.sameMap hstep hmap rfl)
    intro p j t
    rw [hheld]
    rfl
  rwa [hsame] at hnext

/-- The function on top of a stack tells the stage of its connection, and its
next statement takes the token away or moves it. -/
theorem Inv.top {f : Frame} {rest : List Frame} (h : Inv s stage)
    (hstack : (s.threads ℓ).stack = f :: rest) (htoken : f.token = some (k, st)) :
    stage k = st ∧ st.place (s.connections k).ioLoop = some ℓ ∧
      Takes s stage k (s.setStack ℓ rest) ∧
      Takes s stage k (s.setStack ℓ (.returning :: rest)) ∧
      ∀ g st', g.token = some (k, st') →
        Moves s stage k (s.setStack ℓ (g :: rest)) (some ℓ) st' := by
  have hmem : (k, st) ∈ (s.threads ℓ).tokens := by
    refine List.mem_append_left _ (List.mem_filterMap.mpr ⟨f, ?_, htoken⟩)
    rw [hstack]
    exact List.mem_cons_self
  have hpos : 0 < held s ℓ k st := List.count_pos_iff.mpr hmem
  obtain ⟨hst, hplace⟩ := h.stage_of_held hpos
  have hweight : ∀ p j t, weight ℓ f.token p j t = mark k (site s stage k) p j t := by
    intro p j t
    rw [htoken, weight_some, h.kept.site hpos]
  have hreplace := fun g p j t => hweight p j t ▸ held_replace g hstack p j t
  refine ⟨hst, hplace, fun p j t => ?_, fun p j t => ?_, fun g st' hg p j t => ?_⟩
  · rw [← hweight]
    exact held_pop hstack p j t
  · simpa [Frame.token] using hreplace .returning p j t
  · rw [hreplace g p j t, hg, weight_some, Option.map_some]

/-- The same for the functor that a loop calls next. -/
theorem Inv.front {cb : Functor} {fs : List Functor} (h : Inv s stage)
    (hf : (s.threads ℓ).loop.functors = cb :: fs) (htoken : cb.token = some (k, st)) :
    stage k = st ∧ st.place (s.connections k).ioLoop = some ℓ ∧
      Takes s stage k (s.setLoop ℓ (s.threads ℓ).loop.popFunctor) := by
  have hmem : (k, st) ∈ (s.threads ℓ).tokens := by
    refine List.mem_append_right _ (List.mem_filterMap.mpr ⟨cb, ?_, htoken⟩)
    rw [EventLoop.queued_popFunctor hf]
    exact List.mem_cons_self
  have hpos : 0 < held s ℓ k st := List.count_pos_iff.mpr hmem
  obtain ⟨hst, hplace⟩ := h.stage_of_held hpos
  have hsite := h.kept.site hpos
  refine ⟨hst, hplace, fun p j t => ?_⟩
  have hpop := held_popFunctor hf p j t
  rwa [htoken, weight_some, ← hsite] at hpop

/-- Two stages between which neither the members of the connection nor the map
change. -/
def Stage.Passes (st st' : Stage) : Prop :=
  st ≠ .unborn ∧ st' ≠ .unborn ∧ st'.opened = st.opened ∧ st'.up = st.up ∧ st'.inMap = st.inMap

instance (st st' : Stage) : Decidable (st.Passes st') :=
  inferInstanceAs (Decidable (_ ∧ _))

/-- A connection is passed on: from a stack to a queue, from a queue to a
stack, or from one statement to the next. -/
theorem Inv.pass (h : Inv s stage) (st' : Stage) (place : Option LoopId)
    (events : List (Event × LoopId)) (hst : stage k = st) (hpasses : st.Passes st')
    (hstep : Continues s s' k) (hconn : s'.connections k = s.connections k)
    (hmap : s'.connectionMap = s.connectionMap)
    (hplace : st'.place (s.connections k).ioLoop = place)
    (hheld : Moves s stage k s' place st')
    (htrace : ∀ j, trace s' j = if j = k then trace s j ++ events else trace s j)
    (hpath : (path (s.connections k).ioLoop).take st'.logged =
      (path (s.connections k).ioLoop).take st.logged ++ events) :
    Inv s' (Function.update stage k st') := by
  obtain ⟨hborn, hborn', hopened, hup, hin⟩ := hpasses
  have hfits := h.fits k
  rw [hst] at hfits
  refine h.advance st' place hst (by simp [hborn, hborn']) (fun hst => hopened.trans hst) hstep ?_
    hplace hheld htrace hpath (h.sameMap hstep hmap (hst ▸ hin))
  rw [hconn]
  exact ⟨fun _ => hfits.name hborn, fun hst => hfits.connecting (hopened ▸ hst),
    fun hst => hfits.up (hup ▸ hst), fun hreg => hopened.trans (hfits.registered hreg)⟩

end Stages

/-! The steps. -/

section Steps

variable {s s' : State} {stage : ℕ → Stage} {ℓ : LoopId} {k : ℕ} {rest : List Frame}

/-- `newConnection` hands the connection to its I/O loop. -/
theorem newConnection_run_inv (h : Inv s stage)
    (hstack : (s.threads ℓ).stack = .newConnection k :: rest) :
    ∃ stage', Inv ((s.setStack ℓ (.returning :: rest)).runInLoop ℓ (s.connections k).ioLoop
      (.connectEstablished k)) stage' := by
  obtain ⟨hst, -, -, htakes, -⟩ := h.top hstack rfl
  have hcontinues := continues_replace (g := .returning) hstack (by simp) k
  unfold State.runInLoop
  split
  · rename_i hio
    refine ⟨_, h.pass .establishing (some (s.connections k).ioLoop) [(.connectEstablished, ℓ)] hst
      (by decide) (hcontinues.trans (continues_call _ _ _ k)) rfl rfl rfl
      (htakes.call _ rfl) ?_ ?_⟩
    · rw [hio]
      exact trace_record s k .connectEstablished _
    · rw [hio]
      rfl
  · refine ⟨_, h.pass .establishQueued (some (s.connections k).ioLoop) [] hst (by decide)
      (hcontinues.trans (continues_queueInLoop _ _ _ k)) rfl rfl rfl
      (htakes.queueInLoop _ rfl) ?_ rfl⟩
    exact trace_same rfl

/-- A loop calls the functor at the head of its batch. -/
theorem functor_inv {cb : Functor} {fs : List Functor} (h : Inv s stage)
    (hf : (s.threads ℓ).loop.functors = cb :: fs) :
    ∃ stage', Inv ((s.setLoop ℓ (s.threads ℓ).loop.popFunctor).call ℓ cb) stage' := by
  have hcontinues : ∀ k, Continues s (s.setLoop ℓ (s.threads ℓ).loop.popFunctor) k :=
    fun k => continues_setThread k fun _ hj => hj
  cases cb with
  | connectEstablished k =>
    obtain ⟨hst, hplace, htakes⟩ := h.front hf rfl
    have hio := Option.some.inj hplace
    exact ⟨_, h.pass .establishing (some ℓ) [(.connectEstablished, ℓ)] hst (by decide)
      ((hcontinues k).trans (continues_call _ _ _ k)) rfl rfl hplace (htakes.call ℓ rfl)
      (trace_record s k .connectEstablished ℓ) (by rw [hio]; rfl)⟩
  | removeConnectionInLoop k =>
    obtain ⟨hst, hplace, htakes⟩ := h.front hf rfl
    have hbase := Option.some.inj hplace
    exact ⟨_, h.pass .removing (some ℓ) [(.removeConnectionInLoop, ℓ)] hst (by decide)
      ((hcontinues k).trans (continues_call _ _ _ k)) rfl rfl hplace (htakes.call ℓ rfl)
      (trace_record s k .removeConnectionInLoop ℓ) (by rw [← hbase]; rfl)⟩
  | connectDestroyed k =>
    obtain ⟨hst, hplace, htakes⟩ := h.front hf rfl
    have hio := Option.some.inj hplace
    exact ⟨_, h.pass .destroying (some ℓ) [(.connectDestroyed, ℓ)] hst (by decide)
      ((hcontinues k).trans (continues_call _ _ _ k)) rfl rfl hplace (htakes.call ℓ rfl)
      (trace_record s k .connectDestroyed ℓ) (by rw [hio]; rfl)⟩
  | other =>
    refine ⟨stage, h.still (hcontinues 0) (h.fits 0) ?_ rfl rfl⟩
    funext p j t
    simpa [Functor.token, State.call] using held_popFunctor hf p j t

def Connection.established (conn : Connection) : Connection :=
  { conn with state := .kConnected, registered := true }

def Connection.destroyed (conn : Connection) : Connection :=
  { conn with state := .kDisconnected, registered := false }

/-- The function on top of a stack changes the members of its connection and
goes to its next statement. -/
theorem Inv.members {st : Stage} {g : Frame} {conn : Connection} (h : Inv s stage) (st' : Stage)
    (place : Option LoopId) (hst : stage k = st) (hborn : st' = .unborn ↔ st = .unborn)
    (hopened : st.opened = true → st'.opened = true) (hin : st'.inMap = st.inMap)
    (hstep : Continues s (s.setStack ℓ (g :: rest)) k)
    (hio : conn.ioLoop = (s.connections k).ioLoop) (hname : conn.name = (s.connections k).name)
    (hfits : Fits s.name k st' conn) (hplace : st'.place (s.connections k).ioLoop = place)
    (hheld : Moves s stage k (s.setStack ℓ (g :: rest)) place st')
    (hlogged : st'.logged = st.logged) :
    Inv ((s.setStack ℓ (g :: rest)).setConnection k conn) (Function.update stage k st') := by
  have hset : Continues s ((s.setStack ℓ (g :: rest)).setConnection k conn) k :=
    hstep.trans (continues_setConnection hio hname)
  refine h.advance st' place hst hborn hopened hset ?_ hplace hheld (trace_same rfl) ?_
    (h.sameMap hset rfl (by rw [hst, hin]))
  · have hconn : ((s.setStack ℓ (g :: rest)).setConnection k conn).connections k = conn :=
      Function.update_self ..
    rw [hconn]
    exact hfits
  · rw [hlogged, List.append_nil]

theorem connectEstablished_run_inv (h : Inv s stage)
    (hstack : (s.threads ℓ).stack = .connectEstablished k :: rest) :
    ∃ s', s.run ℓ rest (.connectEstablished k) = .ok s' ∧ ∃ stage', Inv s' stage' := by
  obtain ⟨hst, hplace, -, htakes, -⟩ := h.top hstack rfl
  have hio := Option.some.inj hplace
  have hfits := hst ▸ h.fits k
  have hrun : s.run ℓ rest (.connectEstablished k) =
      .ok ((s.setStack ℓ (.returning :: rest)).setConnection k
        (s.connections k).established) := by
    rw [State.run, require_pos _ hio.symm, ok_bind, require_pos _ (hfits.connecting rfl), ok_bind]
    rfl
  have hstep := continues_replace (g := .returning) hstack (by simp) k
  have hfits' : Fits s.name k .established (s.connections k).established := by
    refine ⟨fun _ => hfits.name (by decide), ?_, fun _ => .inl rfl, fun _ => rfl⟩
    intro hnew
    cases hnew
  exact ⟨_, hrun, _, h.members .established none hst (by decide) (by decide) rfl hstep rfl rfl
    hfits' rfl (htakes.moves .established) rfl⟩

theorem connectDestroyed_run_inv (h : Inv s stage)
    (hstack : (s.threads ℓ).stack = .connectDestroyed k :: rest) :
    ∃ s', s.run ℓ rest (.connectDestroyed k) = .ok s' ∧ ∃ stage', Inv s' stage' := by
  obtain ⟨hst, hplace, -, -, hmoves⟩ := h.top hstack rfl
  have hio := Option.some.inj hplace
  have hfits := hst ▸ h.fits k
  have hrun : s.run ℓ rest (.connectDestroyed k) =
      .ok ((s.setStack ℓ (.destroyed k :: rest)).setConnection k
        (s.connections k).destroyed) := by
    rw [State.run, require_pos _ hio.symm, ok_bind, require_pos _ (hfits.up rfl), ok_bind]
    rfl
  have hstep := continues_replace (g := .destroyed k) hstack (by simp) k
  have hfits' : Fits s.name k .destroyed (s.connections k).destroyed := by
    refine ⟨fun _ => hfits.name (by decide), ?_, ?_, fun _ => rfl⟩
    · intro hnew
      cases hnew
    · intro hup
      cases hup
  exact ⟨_, hrun, _, h.members .destroyed (some ℓ) hst (by decide) (by decide) rfl hstep rfl rfl
    hfits' hplace (hmoves (.destroyed k) .destroyed rfl) rfl⟩

/-- The map after the entry of a connection is erased. -/
theorem Inv.erase_mapped (h : Inv s stage)
    (hfound : s.connectionMap (s.connections k).name = some k) (n : String) (j : ℕ) :
    Function.update s.connectionMap (s.connections k).name none n = some j ↔
      (Function.update stage k .erased j).inMap = true ∧ (s.connections j).name = n := by
  by_cases hj : j = k
  · subst hj
    simp only [Function.update_self]
    constructor
    · intro hn
      by_cases hname : n = (s.connections j).name
      · simp [hname] at hn
      · rw [Function.update_of_ne hname, h.mapped] at hn
        exact absurd hn.2.symm hname
    · rintro ⟨hin, -⟩
      cases hin
  · rw [Function.update_of_ne hj, ← h.mapped n j]
    by_cases hname : n = (s.connections k).name
    · subst hname
      rw [Function.update_self, hfound]
      simp [Ne.symm hj]
    · rw [Function.update_of_ne hname]

/-- `assert(n == 1)`: the name of a connection that is being removed is in the
map, and it is this connection's own entry. -/
theorem removeConnectionInLoop_run_inv (h : Inv s stage)
    (hstack : (s.threads ℓ).stack = .removeConnectionInLoop k :: rest) :
    ∃ s', s.run ℓ rest (.removeConnectionInLoop k) = .ok s' ∧ ∃ stage', Inv s' stage' := by
  obtain ⟨hst, hplace, -, -, hmoves⟩ := h.top hstack rfl
  have hbase := Option.some.inj hplace
  have hfound : s.connectionMap (s.connections k).name = some k :=
    (h.mapped _ k).mpr ⟨by rw [hst]; rfl, rfl⟩
  have hrun : s.run ℓ rest (.removeConnectionInLoop k) =
      .ok { (s.setStack ℓ (.queueDestroyed k :: rest)).record k .erased ℓ with
        connectionMap := Function.update s.connectionMap (s.connections k).name none } := by
    rw [State.run, require_pos _ hbase.symm, ok_bind]
    simp [hfound, require]
  have hfits := hst ▸ h.fits k
  have hstep : Continues s { (s.setStack ℓ (.queueDestroyed k :: rest)).record k .erased ℓ with
      connectionMap := Function.update s.connectionMap (s.connections k).name none } k := by
    have hreplace := continues_replace (g := .queueDestroyed k) hstack (by simp) k
    exact ⟨rfl, rfl, rfl, fun _ _ => rfl, rfl, rfl, hreplace.events⟩
  have hfits' : Fits s.name k .erased (s.connections k) := by
    refine ⟨fun _ => hfits.name (by decide), ?_, fun _ => hfits.up rfl, fun _ => rfl⟩
    intro hnew
    cases hnew
  refine ⟨_, hrun, _, h.advance .erased (some ℓ) hst (by decide) (by decide) hstep hfits' hplace
    (hmoves (.queueDestroyed k) .erased rfl) (trace_record s k .erased ℓ)
    (by rw [← hbase]; rfl) (h.erase_mapped hfound)⟩

theorem run_inv {f : Frame} (h : Inv s stage) (hstack : (s.threads ℓ).stack = f :: rest) :
    ∃ s', s.run ℓ rest f = .ok s' ∧ ∃ stage', Inv s' stage' := by
  cases f with
  | newConnection k => exact ⟨_, rfl, newConnection_run_inv h hstack⟩
  | connectEstablished k => exact connectEstablished_run_inv h hstack
  | removeConnectionInLoop k => exact removeConnectionInLoop_run_inv h hstack
  | connectDestroyed k => exact connectDestroyed_run_inv h hstack
  | queueDestroyed k =>
    obtain ⟨hst, -, -, htakes, -⟩ := h.top hstack rfl
    exact ⟨_, rfl, _, h.pass .destroyQueued (some (s.connections k).ioLoop) [] hst (by decide)
      ((continues_replace (g := .returning) hstack (by simp) k).trans
        (continues_queueInLoop _ _ _ k)) rfl rfl rfl (htakes.queueInLoop _ rfl)
      (trace_same rfl) rfl⟩
  | destroyed k =>
    obtain ⟨hst, hplace, htakes, -⟩ := h.top hstack rfl
    have hio := Option.some.inj hplace
    exact ⟨_, rfl, _, h.pass .returned none [(.returned, ℓ)] hst (by decide)
      ((continues_pop hstack k).trans (continues_record _ _ _ _ k)) rfl rfl rfl
      (htakes.moves .returned) (trace_record s k .returned ℓ) (by rw [hio]; rfl)⟩
  | handleEvent k =>
    refine ⟨_, rfl, stage, h.still (continues_pop hstack k) (h.fits k) ?_ rfl rfl⟩
    funext p j t
    simpa [Frame.token] using held_pop hstack p j t
  | returning =>
    refine ⟨_, rfl, stage, h.still (continues_pop hstack 0) (h.fits 0) ?_ rfl rfl⟩
    funext p j t
    simpa [Frame.token] using held_pop hstack p j t

def Entered (s : State) (k : ℕ) (event : Event) : Prop :=
  ∃ r ∈ s.history, r.conn = k ∧ r.event = event

instance (s : State) (k : ℕ) (event : Event) : Decidable (Entered s k event) :=
  inferInstanceAs (Decidable (∃ r ∈ s.history, _))

theorem entered_iff {event : Event} : Entered s k event ↔ event ∈ (trace s k).map Prod.fst := by
  simp [Entered, trace, and_assoc]

/-- A connection past `connectEstablished` that did not close is established. -/
theorem Inv.established (h : Inv s stage) (hopened : (stage k).opened = true)
    (hopen : ¬ Entered s k .closeCallback) : stage k = .established := by
  rw [entered_iff, h.traced] at hopen
  cases hst : stage k <;> simp [hst, Stage.opened, Stage.logged, path] at hopened hopen ⊢

theorem handleClose_inv (h : Inv s stage)
    (hstack : (s.threads ℓ).stack = .handleEvent k :: rest)
    (hopen : ¬ Entered s k .closeCallback) :
    ∃ s', s.handleClose ℓ k = .ok s' ∧ ∃ stage', Inv s' stage' := by
  obtain ⟨hio, hopened⟩ := h.handled ℓ k (by simp [hstack])
  have hst := h.established hopened hopen
  have hfits := hst ▸ h.fits k
  have hrun : s.handleClose ℓ k = .ok ((s.record k .closeCallback ℓ).runInLoop ℓ baseLoop
      (.removeConnectionInLoop k)) := by
    rw [State.handleClose, require_pos _ hio.symm, ok_bind, require_pos _ (hfits.up rfl), ok_bind]
    rfl
  refine ⟨_, hrun, ?_⟩
  have hcontinues := continues_record s k .closeCallback ℓ k
  have htakes : Takes s stage k (s.record k .closeCallback ℓ) := by
    intro p j t
    rw [site, hst]
    exact congrArg _ (mark_none k p j t)
  unfold State.runInLoop
  split
  · rename_i hbase
    refine ⟨_, h.pass .removing (some baseLoop)
      [(.closeCallback, ℓ), (.removeConnectionInLoop, baseLoop)] hst (by decide)
      (hcontinues.trans (continues_call _ _ _ k)) rfl rfl rfl (htakes.call _ rfl) ?_ ?_⟩
    · intro j
      have hclose := trace_record s k .closeCallback ℓ j
      have hremove := trace_record (s.record k .closeCallback ℓ) k .removeConnectionInLoop
        baseLoop j
      refine hremove.trans ?_
      rw [hclose]
      split
      · rw [List.append_assoc]
        rfl
      · rfl
    · rw [hio]
      rfl
  · exact ⟨_, h.pass .removeQueued (some baseLoop) [(.closeCallback, ℓ)] hst (by decide)
      (hcontinues.trans (continues_queueInLoop _ _ _ k)) rfl rfl rfl (htakes.queueInLoop _ rfl)
      (trace_record s k .closeCallback ℓ) (by rw [hio]; rfl)⟩

/-- The name of the next connection, while `nextConnId` has not overflowed. -/
theorem Inv.nextName (h : Inv s stage) (hbound : s.accepted + 1 < 2 ^ 31) :
    s.name ++ ("#" ++ toString s.nextConnId) = connName s.name s.accepted := by
  have hid : s.nextConnId = (s.accepted : ℤ) + 1 := by
    rw [h.nextId]
    exact Int.bmod_eq_of_le (by omega) (by omega)
  rw [connName, hid]

theorem newConnection_self (ioLoop : LoopId) : (s.newConnection ioLoop).connections s.accepted =
    ⟨s.name ++ ("#" ++ toString s.nextConnId), ioLoop, .kConnecting, false⟩ :=
  Function.update_self ..

theorem newConnection_others {ioLoop : LoopId} {j : ℕ} (hj : j ≠ s.accepted) :
    (s.newConnection ioLoop).connections j = s.connections j :=
  Function.update_of_ne hj ..

/-- The map after the next connection is inserted under its name. -/
theorem Inv.insert_mapped (h : Inv s stage) (ioLoop : LoopId)
    (hname : s.name ++ ("#" ++ toString s.nextConnId) = connName s.name s.accepted) (n : String)
    (j : ℕ) : (s.newConnection ioLoop).connectionMap n = some j ↔
      (Function.update stage s.accepted .accepted j).inMap = true ∧
        ((s.newConnection ioLoop).connections j).name = n := by
  show Function.update s.connectionMap (s.name ++ ("#" ++ toString s.nextConnId))
    (some s.accepted) n = some j ↔ _
  rw [hname]
  by_cases hj : j = s.accepted
  · subst hj
    rw [Function.update_self, newConnection_self, hname]
    by_cases hn : n = connName s.name s.accepted
    · simp [hn, Stage.inMap]
    · rw [Function.update_of_ne hn, h.mapped, (h.born s.accepted).mpr le_rfl]
      simp [Stage.inMap, Ne.symm hn]
  · rw [Function.update_of_ne hj, newConnection_others hj, ← h.mapped n j]
    by_cases hn : n = connName s.name s.accepted
    · subst hn
      rw [Function.update_self, h.mapped]
      refine ⟨fun heq => absurd (Option.some.inj heq).symm hj, ?_⟩
      rintro ⟨hin, heq⟩
      have hborn : stage j ≠ .unborn := by
        intro hst
        simp [hst, Stage.inMap] at hin
      rw [(h.fits j).name hborn] at heq
      exact absurd (connName_injective s.name heq) hj
    · rw [Function.update_of_ne hn]

theorem accept_inv (h : Inv s stage) (hbound : s.accepted + 1 < 2 ^ 31) (ioLoop : LoopId) :
    Inv (s.newConnection ioLoop) (Function.update stage s.accepted .accepted) where
  kept := by
    rw [site_update fun j hj => newConnection_others hj]
    refine h.kept.move _ fun p j t => ?_
    have hnone : mark s.accepted (site s stage s.accepted) p j t = 0 := by
      rw [site, (h.born s.accepted).mpr le_rfl]
      exact mark_none s.accepted p j t
    have hpush := held_push s baseLoop (.newConnection s.accepted) p j t
    rw [Frame.token, weight_some] at hpush
    rw [hnone]
    exact hpush
  born j := by
    have hborn := h.born j
    by_cases hj : j = s.accepted
    · subst hj
      simp [State.newConnection]
    · rw [Function.update_of_ne hj, hborn]
      show s.accepted ≤ j ↔ s.accepted + 1 ≤ j
      omega
  traced j := by
    have hrecord := trace_record s s.accepted .newConnection baseLoop j
    refine Eq.trans hrecord ?_
    by_cases hj : j = s.accepted
    · subst hj
      rw [if_pos rfl, Function.update_self, h.traced, (h.born s.accepted).mpr le_rfl]
      rfl
    · rw [if_neg hj, Function.update_of_ne hj, newConnection_others hj, h.traced]
  fits j := by
    by_cases hj : j = s.accepted
    · subst hj
      rw [Function.update_self, newConnection_self, h.nextName hbound]
      exact ⟨fun _ => rfl, fun _ => rfl, nofun, nofun⟩
    · rw [Function.update_of_ne hj, newConnection_others hj]
      exact h.fits j
  mapped := h.insert_mapped ioLoop (h.nextName hbound)
  handled ℓ j hj := by
    have hpush := continues_push (g := .newConnection s.accepted) (by simp) s baseLoop s.accepted
    obtain ⟨hio, hopened⟩ := h.handled ℓ j (hpush.events ℓ j hj)
    have hne : j ≠ s.accepted := by
      rintro rfl
      rw [(h.born s.accepted).mpr le_rfl] at hopened
      cases hopened
    rw [newConnection_others hne, Function.update_of_ne hne]
    exact ⟨hio, hopened⟩
  nextId := by
    show (s.nextConnId + 1).bmod (2 ^ 32) = (((s.accepted + 1 : ℕ) : ℤ) + 1).bmod (2 ^ 32)
    rw [h.nextId, Int.bmod_add_bmod, Nat.cast_add, Nat.cast_one]

/-- The Poller reported the Channel of a connection. -/
theorem handleEvent_inv (h : Inv s stage) (hio : (s.connections k).ioLoop = ℓ)
    (hregistered : (s.connections k).registered = true) :
    Inv (s.setStack ℓ (.handleEvent k :: (s.threads ℓ).stack)) stage := by
  have hheld : held (s.setStack ℓ (.handleEvent k :: (s.threads ℓ).stack)) = held s := by
    funext p j t
    simpa [Frame.token] using held_push s ℓ (.handleEvent k) p j t
  refine ⟨hheld ▸ h.kept, h.born, h.traced, h.fits, h.mapped, ?_, h.nextId⟩
  intro ℓ' j hj
  by_cases hℓ : ℓ' = ℓ
  · subst hℓ
    have hmem : Frame.handleEvent j ∈ Frame.handleEvent k :: (s.threads ℓ').stack := by
      simpa [State.setStack, State.setThread] using hj
    rcases List.mem_cons.mp hmem with heq | hmem
    · obtain rfl := Frame.handleEvent.inj heq
      exact ⟨hio, (h.fits j).registered hregistered⟩
    · exact h.handled ℓ' j hmem
  · exact h.handled ℓ' j (by simpa [State.setStack, State.setThread, hℓ] using hj)

/-- A loop goes to another phase and keeps its queue. -/
theorem setLoop_inv {loop : EventLoop Functor} (h : Inv s stage)
    (hqueued : loop.queued = (s.threads ℓ).loop.queued) : Inv (s.setLoop ℓ loop) stage := by
  refine h.still (k := 0) (continues_setThread 0 fun _ hj => hj) (h.fits 0) ?_ rfl rfl
  funext p j t
  exact held_sameQueue hqueued p j t

theorem shutdown_inv (h : Inv s stage) (k : ℕ) : Inv (s.shutdown k) stage := by
  unfold State.shutdown
  split
  · rename_i hconnected
    have hfits := h.fits k
    refine h.still (k := k) (continues_setConnection rfl rfl) ?_ rfl rfl rfl
    refine ⟨?_, ?_, ?_, ?_⟩
    · simpa [State.setConnection] using hfits.name
    · intro hst
      rw [hfits.connecting hst] at hconnected
      cases hconnected
    · intro _
      exact .inr (by simp [State.setConnection])
    · simpa [State.setConnection] using hfits.registered
  · exact h

/-- Fewer than 2^31 connections are accepted, and the `closeCallback` of each
fires at most once. -/
def Premises (s : State) : Input → Prop
  | .accept _ => s.accepted + 1 < 2 ^ 31
  | .close ℓ => ∀ k ∈ s.handled? ℓ, ¬ Entered s k .closeCallback
  | _ => True

instance (s : State) : (i : Input) → Decidable (Premises s i)
  | .accept _ => inferInstanceAs (Decidable (s.accepted + 1 < 2 ^ 31))
  | .close ℓ => inferInstanceAs (Decidable (∀ k ∈ s.handled? ℓ, ¬ Entered s k .closeCallback))
  | .handleEvent _ _ | .run _ | .poll _ | .swapFunctors _ | .functor _ | .endIteration _
  | .queueOther _ | .shutdown _ => isTrue trivial

/-- Every step of the environment succeeds and keeps the invariant. -/
theorem step_inv {i : Input} (h : Inv s stage) (horderly : Orderly s) (hallow : Allowed s i)
    (hpremises : Premises s i) : ∃ s', exec s i = .ok s' ∧ ∃ stage', Inv s' stage' := by
  cases i with
  | accept ioLoop => exact ⟨_, rfl, _, accept_inv h hpremises ioLoop⟩
  | handleEvent ℓ k =>
    obtain ⟨-, -, -, hio, hregistered⟩ := hallow
    exact ⟨_, rfl, stage, handleEvent_inv h hio hregistered⟩
  | close ℓ =>
    obtain ⟨k, hk⟩ := Option.isSome_iff_exists.mp hallow
    obtain ⟨rest, hstack⟩ := handled?_eq_some.mp hk
    simp only [exec, hk]
    exact handleClose_inv h hstack (hpremises k hk)
  | run ℓ =>
    obtain ⟨f, rest, hstack⟩ := List.exists_cons_of_ne_nil hallow
    simp only [exec, hstack]
    exact run_inv h hstack
  | poll ℓ => exact ⟨_, rfl, stage, setLoop_inv h rfl⟩
  | swapFunctors ℓ =>
    refine ⟨_, rfl, stage, setLoop_inv h (EventLoop.queued_swapFunctors ?_)⟩
    refine (horderly ℓ).batch ?_
    rw [hallow.1]
    decide
  | functor ℓ =>
    obtain ⟨f, fs, hf⟩ := List.exists_cons_of_ne_nil hallow.2.2
    simp only [exec, hf]
    exact ⟨_, rfl, functor_inv h hf⟩
  | endIteration ℓ => exact ⟨_, rfl, stage, setLoop_inv h rfl⟩
  | queueOther ℓ =>
    refine ⟨_, rfl, stage, h.still (continues_queueInLoop s ℓ .other 0) (h.fits 0) ?_ rfl rfl⟩
    funext p j t
    simpa [Functor.token] using held_queueInLoop s ℓ .other p j t
  | shutdown k => exact ⟨_, rfl, stage, shutdown_inv h k⟩

theorem initial_inv (name : String) : Inv (initial name) fun _ => .unborn where
  kept p j t := by simp [held, initial, LoopThread.tokens, EventLoop.initial, EventLoop.queued,
    site, Stage.place]
  born k := by simp [initial]
  traced k := rfl
  fits k := ⟨fun h => absurd rfl h, fun _ => rfl, nofun, nofun⟩
  mapped n k := by simp [initial, Stage.inMap]
  handled ℓ k hk := by simp [initial] at hk
  nextId := (Int.bmod_eq_of_le (by simp [initial]) (by simp [initial])).symm

theorem reach_inv (h : Reach system Premises s) : Orderly s ∧ ∃ stage, Inv s stage := by
  refine h.invariant (I := fun s => Orderly s ∧ ∃ stage, Inv s stage) ?_ ?_
  · rintro s ⟨name, rfl⟩
    refine ⟨fun ℓ => ⟨fun _ => rfl, fun _ => rfl, ?_⟩, _, initial_inv name⟩
    intro f hf
    cases hf
  · rintro s i s' ⟨horderly, stage, hinv⟩ hallow hpremises hexec
    obtain ⟨t, ht, hnext⟩ := step_inv hinv horderly hallow hpremises
    obtain rfl := Except.ok.inj (ht.symm.trans hexec)
    exact ⟨step_orderly horderly hallow hexec, hnext⟩

end Steps

/-! The life cycle. -/

def Functor.conn : Functor → Option ℕ
  | .connectEstablished k | .removeConnectionInLoop k | .connectDestroyed k => some k
  | .other => none

def Frame.bound : Frame → Option ℕ
  | .connectEstablished k | .removeConnectionInLoop k | .queueDestroyed k | .connectDestroyed k
  | .destroyed k => some k
  | .newConnection _ | .handleEvent _ | .returning => none

/-- An entry of `connectionMap`, a queued functor or a running functor has a
pointer to the connection. -/
def Owned (s : State) (k : ℕ) : Prop :=
  (∃ n, s.connectionMap n = some k) ∨
    ∃ ℓ, (∃ cb ∈ (s.threads ℓ).loop.queued, cb.conn = some k) ∨
      ∃ f ∈ (s.threads ℓ).stack, f.bound = some k

/-- What holds of a server and its connections at any time. -/
structure LifeCycle (s : State) : Prop where
  order : ∀ k, trace s k <+: path (s.connections k).ioLoop
  names : ∀ j k, Entered s j .newConnection → Entered s k .newConnection →
    (s.connections j).name = (s.connections k).name → j = k
  mapped : ∀ n k, s.connectionMap n = some k ↔
    Entered s k .newConnection ∧ ¬ Entered s k .erased ∧ (s.connections k).name = n
  checks : ∀ i e, Allowed s i → Premises s i → exec s i ≠ .error e
  owned : ∀ k, Entered s k .newConnection → ¬ Entered s k .returned → Owned s k
  /-- `connectDestroyed` is not called from inside `handleEvent` -/
  apart : ∀ k ℓ ℓ', .connectDestroyed k ∈ (s.threads ℓ).stack ∨ .destroyed k ∈ (s.threads ℓ).stack →
    .handleEvent k ∉ (s.threads ℓ').stack

section LifeCycle

variable {s : State} {stage : ℕ → Stage} {k : ℕ}

/-- The moments of a connection are those before its stage. -/
theorem Inv.entered_iff (h : Inv s stage) {event : Event} :
    Entered s k event ↔ event ∈ ((path (s.connections k).ioLoop).take (stage k).logged).map
      Prod.fst := by
  rw [TcpServer.entered_iff, h.traced]

theorem Inv.entered_newConnection (h : Inv s stage) :
    Entered s k .newConnection ↔ stage k ≠ .unborn := by
  rw [h.entered_iff]
  cases stage k <;> simp [Stage.logged, path]

theorem Inv.mapped_iff (h : Inv s stage) :
    (stage k).inMap = true ↔ Entered s k .newConnection ∧ ¬ Entered s k .erased := by
  rw [h.entered_iff, h.entered_iff]
  cases stage k <;> simp [Stage.logged, Stage.inMap, path]

theorem Frame.bound_of_token {f : Frame} {st : Stage} (h : f.token = some (k, st))
    (hst : st ≠ .accepted) : f.bound = some k := by
  cases f <;> simp [Frame.token, Frame.bound] at h ⊢
  · exact hst h.2.symm
  all_goals exact h.1

theorem Functor.conn_of_token {cb : Functor} {st : Stage} (h : cb.token = some (k, st)) :
    cb.conn = some k := by
  cases cb <;> simp [Functor.token, Functor.conn] at h ⊢
  all_goals exact h.1

/-- Once it is erased from the map, a connection has the owner that will take
it through `connectDestroyed`. -/
theorem Inv.owned (h : Inv s stage) (hborn : stage k ≠ .unborn) (hlive : stage k ≠ .returned) :
    Owned s k := by
  cases hin : (stage k).inMap with
  | true => exact .inl ⟨_, (h.mapped _ k).mpr ⟨hin, rfl⟩⟩
  | false =>
    obtain ⟨ℓ, hplace⟩ : ∃ ℓ, (stage k).place (s.connections k).ioLoop = some ℓ := by
      cases hst : stage k <;> simp [hst, Stage.inMap, Stage.place] at hborn hlive hin ⊢
    have hpos := h.kept.pos (k := k) (p := ℓ) (t := stage k) (by rw [site, hplace]; rfl)
    have hmem : (k, stage k) ∈ (s.threads ℓ).tokens := List.count_pos_iff.mp hpos
    rcases List.mem_append.mp hmem with hmem | hmem
    · obtain ⟨f, hf, htoken⟩ := List.mem_filterMap.mp hmem
      refine .inr ⟨ℓ, .inr ⟨f, hf, Frame.bound_of_token htoken ?_⟩⟩
      intro hst
      rw [hst] at hin
      cases hin
    · obtain ⟨cb, hcb, htoken⟩ := List.mem_filterMap.mp hmem
      exact .inr ⟨ℓ, .inl ⟨cb, hcb, Functor.conn_of_token htoken⟩⟩

/-- A function that only the functor phase has is on the loop of its
connection, whose events are handled in another phase. -/
theorem Inv.apart {f : Frame} {st : Stage} {ℓ ℓ' : LoopId} (h : Inv s stage)
    (horderly : Orderly s) (hf : f ∈ (s.threads ℓ).stack) (hphase : f.phase = some .calling)
    (htoken : f.token = some (k, st)) (hplace : st.place (s.connections k).ioLoop =
      some (s.connections k).ioLoop) : .handleEvent k ∉ (s.threads ℓ').stack := by
  intro hevent
  have hmem : (k, st) ∈ (s.threads ℓ).tokens :=
    List.mem_append_left _ (List.mem_filterMap.mpr ⟨f, hf, htoken⟩)
  have hheld := (h.stage_of_held (List.count_pos_iff.mpr hmem)).2
  have hio : (s.connections k).ioLoop = ℓ := Option.some.inj (hplace.symm.trans hheld)
  obtain ⟨hio', -⟩ := h.handled ℓ' k hevent
  have hcalling := (horderly ℓ).frames f hf .calling hphase
  have hhandling := (horderly ℓ').frames _ hevent .handling rfl
  rw [← hio', hio, hcalling] at hhandling
  cases hhandling

theorem connection_life_cycle (h : Reach system Premises s) : LifeCycle s := by
  obtain ⟨horderly, stage, hinv⟩ := reach_inv h
  refine ⟨?_, ?_, ?_, ?_, ?_, ?_⟩
  · intro k
    rw [hinv.traced]
    exact List.take_prefix _ _
  · intro j k hj hk hname
    rw [hinv.entered_newConnection] at hj hk
    rw [(hinv.fits j).name hj, (hinv.fits k).name hk] at hname
    exact connName_injective s.name hname
  · intro n k
    rw [hinv.mapped, hinv.mapped_iff, and_assoc]
  · intro i e hallow hpremises herror
    obtain ⟨s', hok, -⟩ := step_inv hinv horderly hallow hpremises
    rw [hok] at herror
    cases herror
  · intro k hk hlive
    rw [hinv.entered_newConnection] at hk
    refine hinv.owned hk fun hst => hlive ?_
    rw [hinv.entered_iff, hst]
    simp [Stage.logged, path]
  · rintro k ℓ ℓ' (hf | hf)
    · exact hinv.apart horderly hf rfl rfl rfl
    · exact hinv.apart horderly hf rfl rfl rfl

/-- Connection 0 lives on loop 1 and connection 1 on the base loop. Both close
while the other one is on its way, and both are destroyed. -/
def crossingCloses : List Input :=
  [.poll 0, .accept 1, .run 0, .run 0, .accept 0, .run 0, .run 0, .run 0, .run 0, .poll 1,
    .swapFunctors 1, .functor 1, .run 1, .run 1, .endIteration 1, .poll 1, .handleEvent 1 0,
    .close 1, .run 1, .handleEvent 0 1, .shutdown 1, .close 0, .run 0, .run 0, .run 0, .run 0,
    .swapFunctors 0, .functor 0, .run 0, .run 0, .run 0, .functor 0, .swapFunctors 1, .functor 1,
    .run 1, .run 1, .run 0]

theorem crossingCloses_lives : ∃ s, Reach system Premises s ∧ LifeCycle s ∧
    trace s 0 = path 1 ∧ Entered s 1 .connectDestroyed ∧ Owned s 1 := by
  obtain ⟨s, hs, htest⟩ := exists_of_replay (M := system) Premises ⟨"0.0.0.0:9981", rfl⟩
    crossingCloses (fun s => decide (trace s 0 = path 1 ∧ Entered s 1 .connectDestroyed ∧
      Entered s 1 .newConnection ∧ ¬ Entered s 1 .returned)) (by decide +kernel)
  obtain ⟨htrace, hdestroy, hnew, hlive⟩ := of_decide_eq_true htest
  have hlife := connection_life_cycle hs
  exact ⟨s, hs, hlife, htrace, hdestroy, hlife.owned 1 hnew hlive⟩

end LifeCycle

end TinyMuduo.TcpServer
