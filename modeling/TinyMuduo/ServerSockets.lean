import TinyMuduo.ConnectionLife

/-!
The descriptors of a server. `Acceptor::handleRead` accepts one connection, and
its descriptor belongs to the Socket of a TcpConnection, which closes it when
the last pointer to the connection is dropped, by the server, by a functor or by
a user. The kernel gives a closed descriptor out again. So a Channel must have
left the Poller of its loop before its descriptor is closed, or another Channel
would find its place in the Poller taken.
-/
namespace TinyMuduo.TcpServer

open Checked Runs Custody
open TcpConnection (StateE)

section Ends

variable {s s' : State} {stage : ℕ → Stage} {ℓ : LoopId} {j k : ℕ}

def On (s : State) (f : Frame) : Prop := ∃ ℓ, f ∈ (s.threads ℓ).stack

def Ended (s : State) (k : ℕ) : Prop := On s (.destroyed k) ∨ Entered s k .returned

def Connection.Up (conn : Connection) : Prop :=
  conn.state = .kConnected ∨ conn.state = .kDisconnecting

/-- A Channel is in its Poller, and its events are handled, only while the
connection is up. -/
structure Ends (s : State) : Prop where
  registered : ∀ k, (s.connections k).registered = true → (s.connections k).Up
  handled : ∀ k, On s (.handleEvent k) → (s.connections k).Up
  ended : ∀ k, Ended s k → (s.connections k).state = .kDisconnected

/-- Nothing has ended, and no event is handled, that was not before. -/
structure Spares (s s' : State) : Prop where
  ended : ∀ k, Ended s' k → Ended s k
  handled : ∀ k, On s' (.handleEvent k) → On s (.handleEvent k)

theorem Spares.trans {s'' : State} (h : Spares s s') (h' : Spares s' s'') : Spares s s'' :=
  ⟨fun k hk => h.ended k (h'.ended k hk), fun k hk => h.handled k (h'.handled k hk)⟩

theorem spares_of_same (hstacks : ∀ ℓ, (s'.threads ℓ).stack = (s.threads ℓ).stack)
    (hhistory : s'.history = s.history) : Spares s s' := by
  have hon : ∀ f, On s' f → On s f := by
    rintro f ⟨ℓ, hmem⟩
    rw [hstacks] at hmem
    exact ⟨ℓ, hmem⟩
  refine ⟨?_, fun k => hon _⟩
  rintro k (hmem | ⟨r, hr, heq⟩)
  · exact Or.inl (hon _ hmem)
  · rw [hhistory] at hr
    exact Or.inr ⟨r, hr, heq⟩

theorem spares_setLoop (s : State) (ℓ : LoopId) (loop : EventLoop Functor) :
    Spares s (s.setLoop ℓ loop) := by
  refine spares_of_same ?_ rfl
  intro ℓ'
  by_cases hℓ : ℓ' = ℓ
  · subst hℓ
    simp [State.setLoop, State.setThread]
  · simp [State.setLoop, State.setThread, hℓ]

theorem ended_record {event : Event} (h : Ended (s.record j event ℓ) k) :
    (event = .returned ∧ k = j) ∨ Ended s k := by
  rcases h with hmem | ⟨r, hr, hconn, hevent⟩
  · exact Or.inr (Or.inl hmem)
  · rcases List.mem_append.mp hr with hr | hr
    · exact Or.inr (Or.inr ⟨r, hr, hconn, hevent⟩)
    · rw [List.mem_singleton.mp hr] at hconn hevent
      exact Or.inl ⟨hevent, hconn.symm⟩

theorem spares_record {event : Event} (hevent : event ≠ .returned) (s : State) (j : ℕ)
    (ℓ : LoopId) : Spares s (s.record j event ℓ) := by
  refine ⟨?_, fun k hk => hk⟩
  intro k hk
  rcases ended_record hk with ⟨hreturned, -⟩ | hold
  · exact absurd hreturned hevent
  · exact hold

theorem on_setStack {stack : List Frame} {f : Frame} (h : On (s.setStack ℓ stack) f) :
    f ∈ stack ∨ On s f := by
  obtain ⟨ℓ', hmem⟩ := h
  by_cases hℓ : ℓ' = ℓ
  · subst hℓ
    simp only [State.setStack, State.setThread, Function.update_self] at hmem
    exact Or.inl hmem
  · simp only [State.setStack, State.setThread, Function.update_of_ne hℓ] at hmem
    exact Or.inr ⟨ℓ', hmem⟩

/-- A function is entered. -/
theorem on_push {f g : Frame} (h : On (s.setStack ℓ (g :: (s.threads ℓ).stack)) f) :
    f = g ∨ On s f := by
  rcases on_setStack h with hmem | hold
  · rcases List.mem_cons.mp hmem with heq | hmem
    · exact Or.inl heq
    · exact Or.inr ⟨ℓ, hmem⟩
  · exact Or.inr hold

/-- The function on top of a stack goes on. -/
theorem on_next {f g top : Frame} {rest : List Frame} (hstack : (s.threads ℓ).stack = top :: rest)
    (h : On (s.setStack ℓ (g :: rest)) f) : f = g ∨ On s f := by
  rcases on_setStack h with hmem | hold
  · rcases List.mem_cons.mp hmem with heq | hmem
    · exact Or.inl heq
    · refine Or.inr ⟨ℓ, ?_⟩
      rw [hstack]
      exact List.mem_cons_of_mem top hmem
  · exact Or.inr hold

/-- A step of the stacks that enters neither `handleEvent` nor the end of
`connectDestroyed`. -/
theorem spares_of_on {g : Frame} (hhistory : s'.history = s.history)
    (hon : ∀ f, On s' f → f = g ∨ On s f) (hdestroyed : ∀ k, g ≠ .destroyed k)
    (hevent : ∀ k, g ≠ .handleEvent k) : Spares s s' := by
  refine ⟨?_, ?_⟩
  · rintro k (hmem | ⟨r, hr, heq⟩)
    · rcases hon _ hmem with heq | hold
      · exact absurd heq.symm (hdestroyed k)
      · exact Or.inl hold
    · rw [hhistory] at hr
      exact Or.inr ⟨r, hr, heq⟩
  · intro k hmem
    rcases hon _ hmem with heq | hold
    · exact absurd heq.symm (hevent k)
    · exact hold

theorem spares_push {g : Frame} (hdestroyed : ∀ k, g ≠ .destroyed k)
    (hevent : ∀ k, g ≠ .handleEvent k) (s : State) (ℓ : LoopId) :
    Spares s (s.setStack ℓ (g :: (s.threads ℓ).stack)) :=
  spares_of_on rfl (fun _ => on_push) hdestroyed hevent

theorem spares_next {g top : Frame} {rest : List Frame}
    (hstack : (s.threads ℓ).stack = top :: rest) (hdestroyed : ∀ k, g ≠ .destroyed k)
    (hevent : ∀ k, g ≠ .handleEvent k) : Spares s (s.setStack ℓ (g :: rest)) :=
  spares_of_on rfl (fun _ => on_next hstack) hdestroyed hevent

/-- The function on top of a stack returns. -/
theorem spares_pop {top : Frame} {rest : List Frame}
    (hstack : (s.threads ℓ).stack = top :: rest) : Spares s (s.setStack ℓ rest) := by
  refine spares_of_on (g := .returning) rfl ?_ (by simp) (by simp)
  intro f hf
  rcases on_setStack hf with hmem | hold
  · refine Or.inr ⟨ℓ, ?_⟩
    rw [hstack]
    exact List.mem_cons_of_mem top hmem
  · exact Or.inr hold

theorem spares_call (s : State) (ℓ : LoopId) (cb : Functor) : Spares s (s.call ℓ cb) := by
  cases cb with
  | connectEstablished k =>
    exact (spares_push (by simp) (by simp) s ℓ).trans (spares_record (by simp) _ k ℓ)
  | removeConnectionInLoop k =>
    exact (spares_push (by simp) (by simp) s ℓ).trans (spares_record (by simp) _ k ℓ)
  | connectDestroyed k =>
    exact (spares_push (by simp) (by simp) s ℓ).trans (spares_record (by simp) _ k ℓ)
  | other => exact ⟨fun k hk => hk, fun k hk => hk⟩

theorem spares_runInLoop (s : State) (caller ℓ : LoopId) (cb : Functor) :
    Spares s (s.runInLoop caller ℓ cb) := by
  unfold State.runInLoop
  split
  · exact spares_call s ℓ cb
  · exact spares_setLoop s ℓ _

theorem connections_call (s : State) (ℓ : LoopId) (cb : Functor) :
    (s.call ℓ cb).connections = s.connections := by
  cases cb <;> rfl

theorem connections_runInLoop (s : State) (caller ℓ : LoopId) (cb : Functor) :
    (s.runInLoop caller ℓ cb).connections = s.connections := by
  unfold State.runInLoop
  split
  · exact connections_call s ℓ cb
  · rfl

/-- A step that leaves the connections as they are. -/
theorem Ends.spared (h : Ends s) (hspares : Spares s s')
    (hconnections : s'.connections = s.connections) : Ends s' := by
  refine ⟨?_, ?_, ?_⟩
  · rw [hconnections]
    exact h.registered
  · intro k hk
    rw [hconnections]
    exact h.handled k (hspares.handled k hk)
  · intro k hk
    rw [hconnections]
    exact h.ended k (hspares.ended k hk)

/-- A step that changes one connection. -/
theorem Ends.changed (h : Ends s) {conn : Connection}
    (hconnections : s'.connections = Function.update s.connections k conn)
    (hregistered : conn.registered = true → conn.Up)
    (hhandled : On s' (.handleEvent k) → conn.Up)
    (hended : Ended s' k → conn.state = .kDisconnected)
    (hevents : ∀ j, On s' (.handleEvent j) → On s (.handleEvent j))
    (hothers : ∀ j, j ≠ k → Ended s' j → Ended s j) : Ends s' := by
  refine ⟨?_, ?_, ?_⟩
  · intro j hj
    rw [hconnections] at hj ⊢
    by_cases hjk : j = k
    · subst hjk
      rw [Function.update_self] at hj ⊢
      exact hregistered hj
    · rw [Function.update_of_ne hjk] at hj ⊢
      exact h.registered j hj
  · intro j hj
    rw [hconnections]
    by_cases hjk : j = k
    · subst hjk
      rw [Function.update_self]
      exact hhandled hj
    · rw [Function.update_of_ne hjk]
      exact h.handled j (hevents j hj)
  · intro j hj
    rw [hconnections]
    by_cases hjk : j = k
    · subst hjk
      rw [Function.update_self]
      exact hended hj
    · rw [Function.update_of_ne hjk]
      exact h.ended j (hothers j hjk hj)

/-- A connection that has not ended is up afterwards. -/
theorem Ends.goesUp (h : Ends s) {conn : Connection}
    (hconnections : s'.connections = Function.update s.connections k conn) (hup : conn.Up)
    (hlive : (s.connections k).state ≠ .kDisconnected) (hspares : Spares s s') : Ends s' := by
  refine h.changed hconnections (fun _ => hup) (fun _ => hup) ?_ hspares.handled
    fun j _ => hspares.ended j
  intro hended
  exact absurd (h.ended k (hspares.ended k hended)) hlive

theorem run_ends {f : Frame} {rest : List Frame} (hinv : Inv s stage) (horderly : Orderly s)
    (h : Ends s) (hstack : (s.threads ℓ).stack = f :: rest) (hexec : s.run ℓ rest f = .ok s') :
    Ends s' := by
  cases f with
  | newConnection k =>
    obtain rfl := Except.ok.inj hexec
    exact h.spared ((spares_next hstack (by simp) (by simp)).trans (spares_runInLoop _ ℓ _ _))
      (connections_runInLoop _ _ _ _)
  | handleEvent k | returning =>
    obtain rfl := Except.ok.inj hexec
    exact h.spared (spares_pop hstack) rfl
  | connectEstablished k =>
    simp only [State.run, bind_eq_ok, require_eq_ok, pure_eq_ok, Except.ok.injEq] at hexec
    obtain ⟨-, -, -, hstate, rfl⟩ := hexec
    refine h.goesUp (k := k) rfl (Or.inl rfl) (by simp [hstate]) ?_
    have hnext : Spares s (s.setStack ℓ (.returning :: rest)) :=
      spares_next hstack (by simp) (by simp)
    exact hnext.trans (spares_of_same (fun _ => rfl) rfl)
  | removeConnectionInLoop k =>
    simp only [State.run, bind_eq_ok, require_eq_ok, pure_eq_ok, Except.ok.injEq] at hexec
    obtain ⟨-, -, -, -, rfl⟩ := hexec
    have hnext : Spares s (s.setStack ℓ (.queueDestroyed k :: rest)) :=
      spares_next hstack (by simp) (by simp)
    have herased : Spares s ((s.setStack ℓ (.queueDestroyed k :: rest)).record k .erased ℓ) :=
      hnext.trans (spares_record (by simp) _ k ℓ)
    exact h.spared (herased.trans (spares_of_same (fun _ => rfl) rfl)) rfl
  | queueDestroyed k =>
    obtain rfl := Except.ok.inj hexec
    exact h.spared ((spares_next hstack (by simp) (by simp)).trans (spares_setLoop _ _ _)) rfl
  | connectDestroyed k =>
    simp only [State.run, bind_eq_ok, require_eq_ok, pure_eq_ok, Except.ok.injEq] at hexec
    obtain ⟨-, -, -, -, rfl⟩ := hexec
    have hon : ∀ f, On (s.setStack ℓ (.destroyed k :: rest)) f → f = .destroyed k ∨ On s f :=
      fun f => on_next hstack
    have hevents : ∀ j, On (s.setStack ℓ (.destroyed k :: rest)) (.handleEvent j) →
        On s (.handleEvent j) := by
      intro j hj
      rcases hon _ hj with heq | hold
      · cases heq
      · exact hold
    refine h.changed (k := k) rfl (by simp) ?_ (fun _ => rfl) hevents ?_
    · -- The loop calls functors, so it does not handle the connection's events.
      intro hhandled
      obtain ⟨ℓ', hmem⟩ := hevents k hhandled
      have htop : .connectDestroyed k ∈ (s.threads ℓ).stack := by
        rw [hstack]
        exact List.mem_cons_self
      exact absurd hmem (hinv.apart horderly htop rfl rfl rfl)
    · rintro j hj (hmem | hreturned)
      · rcases hon _ hmem with heq | hold
        · exact absurd (Frame.destroyed.inj heq) hj
        · exact Or.inl hold
      · exact Or.inr hreturned
  | destroyed k =>
    obtain rfl := Except.ok.inj hexec
    refine ⟨h.registered, fun j hj => h.handled j ((spares_pop hstack).handled j hj), ?_⟩
    intro j hended
    rcases ended_record hended with ⟨-, rfl⟩ | hold
    · refine h.ended j (Or.inl ⟨ℓ, ?_⟩)
      rw [hstack]
      exact List.mem_cons_self
    · exact h.ended j ((spares_pop hstack).ended j hold)

/-- Nothing has happened to a connection that does not exist yet. -/
theorem Inv.not_ended (hinv : Inv s stage) (hk : stage k = .unborn) : ¬ Ended s k := by
  rintro (⟨ℓ, hmem⟩ | hreturned)
  · have htoken : (k, .destroyed) ∈ (s.threads ℓ).tokens :=
      List.mem_append_left _ (List.mem_filterMap.mpr ⟨_, hmem, rfl⟩)
    have hstage := (hinv.stage_of_held (List.count_pos_iff.mpr htoken)).1
    rw [hk] at hstage
    cases hstage
  · rw [hinv.entered_iff, hk] at hreturned
    simp [Stage.logged] at hreturned

theorem Inv.not_handled (hinv : Inv s stage) (hk : stage k = .unborn) :
    ¬ On s (.handleEvent k) := by
  rintro ⟨ℓ, hmem⟩
  have hopened := (hinv.handled ℓ k hmem).2
  rw [hk] at hopened
  cases hopened

theorem step_ends {i : Input} (hinv : Inv s stage) (horderly : Orderly s) (h : Ends s)
    (hallow : Allowed s i) (hexec : exec s i = .ok s') : Ends s' := by
  cases i with
  | accept ioLoop =>
    obtain rfl := Except.ok.inj hexec
    have hborn := (hinv.born s.accepted).mpr (Nat.le_refl _)
    have hspares : Spares s (s.newConnection ioLoop) := by
      have hpush := spares_push (g := .newConnection s.accepted) (by simp) (by simp) s baseLoop
      exact hpush.trans ((spares_record (by simp) _ s.accepted baseLoop).trans
        (spares_of_same (fun _ => rfl) rfl))
    refine h.changed (k := s.accepted) rfl (by simp) ?_ ?_ hspares.handled
      fun j _ => hspares.ended j
    · intro hhandled
      exact absurd (hspares.handled _ hhandled) (hinv.not_handled hborn)
    · intro hended
      exact absurd (hspares.ended _ hended) (hinv.not_ended hborn)
  | handleEvent ℓ k =>
    obtain ⟨-, -, -, -, hregistered⟩ := hallow
    obtain rfl := Except.ok.inj hexec
    refine ⟨h.registered, ?_, ?_⟩
    · intro j hj
      rcases on_push hj with heq | hold
      · cases heq
        exact h.registered k hregistered
      · exact h.handled j hold
    · rintro j (hmem | hreturned)
      · rcases on_push hmem with heq | hold
        · cases heq
        · exact h.ended j (Or.inl hold)
      · exact h.ended j (Or.inr hreturned)
  | close ℓ =>
    simp only [exec] at hexec
    split at hexec
    · rename_i k _
      simp only [State.handleClose, bind_eq_ok, require_eq_ok, pure_eq_ok, Except.ok.injEq]
        at hexec
      obtain ⟨-, -, -, -, rfl⟩ := hexec
      exact h.spared ((spares_record (by simp) s k ℓ).trans (spares_runInLoop _ ℓ _ _))
        (connections_runInLoop _ _ _ _)
    · obtain rfl := Except.ok.inj hexec
      exact h
  | run ℓ =>
    simp only [exec] at hexec
    split at hexec
    · obtain rfl := Except.ok.inj hexec
      exact h
    · rename_i f rest hstack
      exact run_ends hinv horderly h hstack hexec
  | functor ℓ =>
    simp only [exec] at hexec
    split at hexec
    · obtain rfl := Except.ok.inj hexec
      exact h
    · obtain rfl := Except.ok.inj hexec
      exact h.spared ((spares_setLoop s ℓ _).trans (spares_call _ ℓ _)) (connections_call _ ℓ _)
  | poll ℓ | swapFunctors ℓ | endIteration ℓ | queueOther ℓ =>
    obtain rfl := Except.ok.inj hexec
    exact h.spared (spares_setLoop s ℓ _) rfl
  | shutdown k =>
    obtain rfl := Except.ok.inj hexec
    unfold State.shutdown
    split
    · rename_i hstate
      exact h.goesUp (k := k) rfl (Or.inr rfl) (by simp [hstate])
        (spares_of_same (fun _ => rfl) rfl)
    · exact h

theorem history_runInLoop (s : State) (caller ℓ : LoopId) (cb : Functor) :
    s.history <+: (s.runInLoop caller ℓ cb).history := by
  unfold State.runInLoop
  split
  · cases cb with
    | other => exact List.prefix_rfl
    | connectEstablished k | removeConnectionInLoop k | connectDestroyed k =>
      exact List.prefix_append _ _
  · exact List.prefix_rfl

theorem history_run {f : Frame} {rest : List Frame} (hexec : s.run ℓ rest f = .ok s') :
    s.history <+: s'.history := by
  cases f with
  | newConnection k =>
    obtain rfl := Except.ok.inj hexec
    exact history_runInLoop (s.setStack ℓ (.returning :: rest)) ℓ _ _
  | connectEstablished k | removeConnectionInLoop k | connectDestroyed k =>
    simp only [State.run, bind_eq_ok, require_eq_ok, pure_eq_ok, Except.ok.injEq] at hexec
    obtain ⟨-, -, -, -, rfl⟩ := hexec
    first
    | exact List.prefix_rfl
    | exact List.prefix_append _ _
  | queueDestroyed k | handleEvent k | returning =>
    obtain rfl := Except.ok.inj hexec
    exact List.prefix_rfl
  | destroyed k =>
    obtain rfl := Except.ok.inj hexec
    exact List.prefix_append _ _

/-- The history is never taken back. -/
theorem exec_history {i : Input} (hexec : exec s i = .ok s') : s.history <+: s'.history := by
  cases i with
  | accept ioLoop =>
    obtain rfl := Except.ok.inj hexec
    exact List.prefix_append _ _
  | close ℓ =>
    simp only [exec] at hexec
    split at hexec
    · rename_i k _
      simp only [State.handleClose, bind_eq_ok, require_eq_ok, pure_eq_ok, Except.ok.injEq]
        at hexec
      obtain ⟨-, -, -, -, rfl⟩ := hexec
      have hrecord : s.history <+: (s.record k .closeCallback ℓ).history := List.prefix_append _ _
      exact hrecord.trans (history_runInLoop _ ℓ _ _)
    · obtain rfl := Except.ok.inj hexec
      exact List.prefix_rfl
  | run ℓ =>
    simp only [exec] at hexec
    split at hexec
    · obtain rfl := Except.ok.inj hexec
      exact List.prefix_rfl
    · exact history_run hexec
  | functor ℓ =>
    simp only [exec] at hexec
    split at hexec
    · obtain rfl := Except.ok.inj hexec
      exact List.prefix_rfl
    · rename_i f _ _
      obtain rfl := Except.ok.inj hexec
      have hcall := history_runInLoop (s.setLoop ℓ (s.threads ℓ).loop.popFunctor) ℓ ℓ f
      rwa [State.runInLoop, if_pos rfl] at hcall
  | shutdown k =>
    obtain rfl := Except.ok.inj hexec
    unfold State.shutdown
    split <;> exact List.prefix_rfl
  | handleEvent ℓ k | poll ℓ | swapFunctors ℓ | endIteration ℓ | queueOther ℓ =>
    obtain rfl := Except.ok.inj hexec
    exact List.prefix_rfl

theorem Entered.mono {event : Event} (h : Entered s k event) (hhistory : s.history <+: s'.history) :
    Entered s' k event := by
  obtain ⟨r, hr, heq⟩ := h
  exact ⟨r, hhistory.subset hr, heq⟩

theorem Inv.entered_returned (hinv : Inv s stage) :
    Entered s k .returned ↔ stage k = .returned := by
  rw [hinv.entered_iff]
  cases stage k <;> simp [Stage.logged, path]

/-- A token is in a place. -/
theorem Inv.not_returned {st : Stage} (hinv : Inv s stage)
    (htoken : (k, st) ∈ (s.threads ℓ).tokens) : stage k ≠ .returned := by
  obtain ⟨hstage, hplace⟩ := hinv.stage_of_held (List.count_pos_iff.mpr htoken)
  rintro hreturned
  rw [← hstage, hreturned] at hplace
  cases hplace

/-- When `connectDestroyed` has returned, nothing that the server has points to
the connection. -/
theorem Inv.owned_iff (hinv : Inv s stage) (hk : k < s.accepted) :
    Owned s k ↔ ¬ Entered s k .returned := by
  rw [hinv.entered_returned]
  constructor
  · rintro (⟨n, hmap⟩ | ⟨ℓ, ⟨cb, hcb, hconn⟩ | ⟨f, hf, hbound⟩⟩)
    · intro hreturned
      have hin := ((hinv.mapped n k).mp hmap).1
      rw [hreturned] at hin
      cases hin
    · obtain ⟨st, htoken⟩ : ∃ st, cb.token = some (k, st) := by
        cases cb <;> simp [Functor.conn, Functor.token] at hconn ⊢ <;> exact hconn
      exact hinv.not_returned (List.mem_append_right _ (List.mem_filterMap.mpr ⟨cb, hcb, htoken⟩))
    · obtain ⟨st, htoken⟩ : ∃ st, f.token = some (k, st) := by
        cases f <;> simp [Frame.bound, Frame.token] at hbound ⊢ <;> exact hbound
      exact hinv.not_returned (List.mem_append_left _ (List.mem_filterMap.mpr ⟨f, hf, htoken⟩))
  · refine hinv.owned ?_
    intro hborn
    have hle := (hinv.born k).mp hborn
    omega

theorem initial_ends (name : String) : Ends (initial name) := by
  refine ⟨?_, ?_, ?_⟩
  · intro k hk
    cases hk
  · rintro k ⟨ℓ, hmem⟩
    cases hmem
  · rintro k (⟨ℓ, hmem⟩ | ⟨r, hr, -⟩)
    · cases hmem
    · cases hr

end Ends

end TinyMuduo.TcpServer

namespace TinyMuduo.ServerSockets

open Checked Runs
open TcpServer (LoopId)

inductive Errno
  | EAGAIN
  | ECONNABORTED
  | EINTR
  | EPROTO
  | EPERM
  | EMFILE
  | EBADF
  | EFAULT
  | EINVAL
  | ENFILE
  | ENOBUFS
  | ENOMEM
  | ENOTSOCK
  | EOPNOTSUPP
  | unknown (errno : ℤ)
  deriving DecidableEq, Repr

inductive Failure
  | server (fault : Fault)
  /-- LOG_FATAL aborts -/
  | fatal (savedErrno : Errno)

def accept : Except Errno ℕ → Except Failure (Option ℕ)
  | .ok connfd => .ok (some connfd)
  | .error savedErrno =>
      match savedErrno with
      | .EAGAIN | .ECONNABORTED | .EINTR | .EPROTO | .EPERM | .EMFILE => .ok none
      | .EBADF | .EFAULT | .EINVAL | .ENFILE | .ENOBUFS | .ENOMEM | .ENOTSOCK | .EOPNOTSUPP
      | .unknown _ => .error (.fatal savedErrno)

structure State where
  server : TcpServer.State
  /-- a `newConnectionCallback` is set, as `TcpServer::TcpServer` does -/
  newConnectionCallback : Bool
  fds : ℕ → ℕ
  /-- the pointers that users keep, one entry for each -/
  kept : List ℕ
  destroyed : List ℕ
  /-- what accept(2) has returned and what close(2) was called with -/
  opened : List ℕ
  closed : List ℕ

inductive Input
  | handleRead (connfd : Except Errno ℕ) (ioLoop : LoopId)
  | server (i : TcpServer.Input)
  | keep (k : ℕ)
  | release (k : ℕ)
  | destroy (k : ℕ)

def Live (s : State) (k : ℕ) : Prop := k < s.server.accepted ∧ k ∉ s.destroyed

instance (s : State) (k : ℕ) : Decidable (Live s k) :=
  inferInstanceAs (Decidable (k < s.server.accepted ∧ k ∉ s.destroyed))

def handleRead (s : State) (connfd : Except Errno ℕ) (ioLoop : LoopId) :
    Except Failure State := do
  match ← accept connfd with
  | none => return s
  | some fd =>
      let s := { s with opened := s.opened ++ [fd] }
      if s.newConnectionCallback then
        return { s with server := s.server.newConnection ioLoop
                        fds := Function.update s.fds s.server.accepted fd }
      else
        return { s with closed := s.closed ++ [fd] }

/-- Users copy and drop pointers; the last one that is dropped destroys the
connection, and with it its Socket. -/
def exec (s : State) : Input → Except Failure State
  | .handleRead connfd ioLoop => handleRead s connfd ioLoop
  | .server i => do
      let server ← (TcpServer.exec s.server i).mapError .server
      return { s with server := server }
  | .keep k => .ok { s with kept := k :: s.kept }
  | .release k => .ok { s with kept := s.kept.erase k }
  | .destroy k => .ok { s with destroyed := s.destroyed ++ [k], closed := s.closed ++ [s.fds k] }

/-- The kernel gives out descriptors that are not open. -/
def Unused (s : State) (fd : ℕ) : Prop := ∀ k < s.server.accepted, k ∉ s.destroyed → s.fds k ≠ fd

instance (s : State) (fd : ℕ) : Decidable (Unused s fd) :=
  inferInstanceAs (Decidable (∀ k < s.server.accepted, k ∉ s.destroyed → s.fds k ≠ fd))

def accepts : TcpServer.Input → Bool
  | .accept _ => true
  | _ => false

def Allowed (s : State) : Input → Prop
  | .handleRead connfd ioLoop =>
      TcpServer.Allowed s.server (.accept ioLoop) ∧ ∀ fd ∈ connfd.toOption, Unused s fd
  | .server i => accepts i = false ∧ TcpServer.Allowed s.server i
  | .keep k => Live s k
  | .release k => k ∈ s.kept
  | .destroy k => Live s k ∧ ¬ TcpServer.Owned s.server k ∧ k ∉ s.kept

def Premises (s : State) : Input → Prop
  | .handleRead _ ioLoop => TcpServer.Premises s.server (.accept ioLoop)
  | .server i => TcpServer.Premises s.server i
  | .keep _ | .release _ | .destroy _ => True

def system : System State Input Failure where
  start := fun s => ∃ name callback,
    s = ⟨TcpServer.initial name, callback, fun _ => 0, [], [], [], []⟩
  allowed := Allowed
  exec := exec

def liveFds (s : State) : List ℕ :=
  ((List.range s.server.accepted).filter (· ∉ s.destroyed)).map s.fds

section Law

variable {s s' : State} {k : ℕ}

structure Inv (s : State) : Prop where
  orderly : TcpServer.Orderly s.server
  stages : ∃ stage, TcpServer.Inv s.server stage
  ends : TcpServer.Ends s.server
  gone : ∀ k ∈ s.destroyed, k < s.server.accepted ∧ TcpServer.Entered s.server k .returned
  distinct : ∀ j k, Live s j → Live s k → s.fds j = s.fds k → j = k
  once : s.destroyed.Nodup
  ledger : s.opened.Perm (s.closed ++ liveFds s)

theorem initial_inv (h : system.start s) : Inv s := by
  obtain ⟨name, callback, rfl⟩ := h
  refine ⟨?_, ⟨_, TcpServer.initial_inv name⟩, TcpServer.initial_ends name, nofun, ?_,
    List.nodup_nil, List.Perm.refl _⟩
  · intro ℓ
    refine ⟨fun _ => rfl, fun _ => rfl, ?_⟩
    intro f hf
    cases hf
  · intro j k hj
    exact absurd hj.1 (Nat.not_lt_zero j)

/-- A step of the server that accepts nothing. -/
theorem Inv.server (h : Inv s) {i : TcpServer.Input} {server : TcpServer.State}
    (hother : accepts i = false) (hallow : TcpServer.Allowed s.server i)
    (hpremises : TcpServer.Premises s.server i) (hexec : TcpServer.exec s.server i = .ok server) :
    Inv { s with server := server } := by
  obtain ⟨stage, hstage⟩ := h.stages
  obtain ⟨server', hok, hnext⟩ := TcpServer.step_inv hstage h.orderly hallow hpremises
  obtain rfl := Except.ok.inj (hok.symm.trans hexec)
  have hsame : server'.accepted = s.server.accepted := by
    refine (TcpServer.exec_samePlaces ?_ hexec).1
    rintro ioLoop rfl
    cases hother
  have hlive : ∀ j, Live { s with server := server' } j ↔ Live s j := by
    intro j
    unfold Live
    dsimp only
    rw [hsame]
  refine ⟨TcpServer.step_orderly h.orderly hallow hexec, hnext,
    TcpServer.step_ends hstage h.orderly h.ends hallow hexec, ?_, ?_, h.once, ?_⟩
  · intro k hk
    obtain ⟨hborn, hreturned⟩ := h.gone k hk
    exact ⟨hsame ▸ hborn, hreturned.mono (TcpServer.exec_history hexec)⟩
  · intro j k hj hk
    exact h.distinct j k ((hlive j).mp hj) ((hlive k).mp hk)
  · have hfds : liveFds { s with server := server' } = liveFds s := by
      unfold liveFds
      dsimp only
      rw [hsame]
    rw [hfds]
    exact h.ledger

/-- A new connection on an unused descriptor. -/
theorem Inv.newConnection (h : Inv s) {fd : ℕ} {ioLoop : LoopId}
    (hallow : TcpServer.Allowed s.server (.accept ioLoop))
    (hpremises : TcpServer.Premises s.server (.accept ioLoop)) (hunused : Unused s fd) :
    Inv { s with opened := s.opened ++ [fd]
                 server := s.server.newConnection ioLoop
                 fds := Function.update s.fds s.server.accepted fd } := by
  obtain ⟨stage, hstage⟩ := h.stages
  have hexec : TcpServer.exec s.server (.accept ioLoop) = .ok (s.server.newConnection ioLoop) :=
    rfl
  obtain ⟨server', hok, hnext⟩ := TcpServer.step_inv hstage h.orderly hallow hpremises
  obtain rfl := Except.ok.inj (hok.symm.trans hexec)
  have hnew : s.server.accepted ∉ s.destroyed := by
    intro hmem
    exact Nat.lt_irrefl _ (h.gone _ hmem).1
  have hcases : ∀ j, j < s.server.accepted + 1 → j ∉ s.destroyed →
      j = s.server.accepted ∧ Function.update s.fds s.server.accepted fd j = fd ∨
        Live s j ∧ Function.update s.fds s.server.accepted fd j = s.fds j := by
    intro j hj hmem
    rcases Nat.lt_succ_iff_lt_or_eq.mp hj with hlt | rfl
    · exact Or.inr ⟨⟨hlt, hmem⟩, Function.update_of_ne (Nat.ne_of_lt hlt) _ _⟩
    · exact Or.inl ⟨rfl, Function.update_self _ _ _⟩
  refine ⟨TcpServer.step_orderly h.orderly hallow hexec, hnext,
    TcpServer.step_ends hstage h.orderly h.ends hallow hexec, ?_, ?_, h.once, ?_⟩
  · intro k hk
    obtain ⟨hborn, hreturned⟩ := h.gone k hk
    exact ⟨Nat.lt_succ_of_lt hborn, hreturned.mono (TcpServer.exec_history hexec)⟩
  · rintro j k ⟨hj, hjmem⟩ ⟨hk, hkmem⟩ heq
    dsimp only at heq
    rcases hcases j hj hjmem with ⟨rfl, hfd⟩ | ⟨hjlive, hfd⟩
    · rcases hcases k hk hkmem with ⟨rfl, -⟩ | ⟨hklive, hfd'⟩
      · rfl
      · rw [hfd, hfd'] at heq
        exact absurd heq.symm (hunused k hklive.1 hklive.2)
    · rcases hcases k hk hkmem with ⟨rfl, hfd'⟩ | ⟨hklive, hfd'⟩
      · rw [hfd, hfd'] at heq
        exact absurd heq (hunused j hjlive.1 hjlive.2)
      · rw [hfd, hfd'] at heq
        exact h.distinct j k hjlive hklive heq
  · have hfds : liveFds { s with opened := s.opened ++ [fd]
                                 server := s.server.newConnection ioLoop
                                 fds := Function.update s.fds s.server.accepted fd } =
        liveFds s ++ [fd] := by
      unfold liveFds
      change ((List.range (s.server.accepted + 1)).filter _).map _ = _
      rw [List.range_succ, List.filter_append, List.map_append]
      congr 1
      · refine List.map_congr_left ?_
        intro j hj
        have hlt := List.mem_range.mp (List.mem_of_mem_filter hj)
        exact Function.update_of_ne (Nat.ne_of_lt hlt) _ _
      · rw [List.filter_cons_of_pos (by simpa using hnew)]
        simp
    rw [hfds, ← List.append_assoc]
    exact h.ledger.append_right _

/-- The destructor of a connection that exists closes its descriptor. -/
theorem liveFds_destroy (hk : Live s k) :
    (liveFds s).Perm (s.fds k :: liveFds { s with destroyed := s.destroyed ++ [k] }) := by
  unfold liveFds
  dsimp only
  have hnodup : ((List.range s.server.accepted).filter (· ∉ s.destroyed)).Nodup :=
    List.nodup_range.filter _
  have hmem : k ∈ (List.range s.server.accepted).filter (· ∉ s.destroyed) := by
    simpa [Live] using hk
  have herase : (List.range s.server.accepted).filter (· ∉ s.destroyed ++ [k]) =
      ((List.range s.server.accepted).filter (· ∉ s.destroyed)).erase k := by
    rw [hnodup.erase_eq_filter, List.filter_filter]
    refine List.filter_congr ?_
    intro j _
    by_cases hj : j = k <;> simp [hj]
  rw [herase, ← List.map_cons]
  exact (List.perm_cons_erase hmem).map _

theorem Inv.destroy (h : Inv s) (hk : Live s k) (hdropped : ¬ TcpServer.Owned s.server k) :
    Inv { s with destroyed := s.destroyed ++ [k], closed := s.closed ++ [s.fds k] } := by
  obtain ⟨stage, hstage⟩ := h.stages
  rw [hstage.owned_iff hk.1, not_not] at hdropped
  have hlive : ∀ j, Live { s with destroyed := s.destroyed ++ [k]
                                  closed := s.closed ++ [s.fds k] } j → Live s j := by
    rintro j ⟨hj, hmem⟩
    exact ⟨hj, fun hold => hmem (List.mem_append_left _ hold)⟩
  refine ⟨h.orderly, h.stages, h.ends, ?_, ?_, ?_, ?_⟩
  · intro j hj
    rcases List.mem_append.mp hj with hj | hj
    · exact h.gone j hj
    · obtain rfl := List.mem_singleton.mp hj
      exact ⟨hk.1, hdropped⟩
  · intro i j hi hj
    exact h.distinct i j (hlive i hi) (hlive j hj)
  · refine List.nodup_append.mpr ⟨h.once, List.nodup_singleton _, ?_⟩
    rintro i hi _ hj rfl
    rw [List.mem_singleton.mp hj] at hi
    exact hk.2 hi
  · refine h.ledger.trans ?_
    rw [List.append_assoc]
    exact (liveFds_destroy hk).append_left _

theorem step_inv {i : Input} (h : Inv s) (hallow : Allowed s i) (hpremises : Premises s i)
    (hexec : exec s i = .ok s') : Inv s' := by
  cases i with
  | handleRead connfd ioLoop =>
    obtain ⟨hserver, hunused⟩ := hallow
    simp only [exec, handleRead, bind_eq_ok] at hexec
    obtain ⟨r, haccept, hexec⟩ := hexec
    cases r with
    | none =>
      obtain rfl := Except.ok.inj hexec
      exact h
    | some fd =>
      have hfd : connfd = .ok fd := by
        cases connfd with
        | ok n => exact congrArg _ (Option.some.inj (Except.ok.inj haccept))
        | error e => cases e <;> simp [accept] at haccept
      subst hfd
      dsimp only at hexec
      split at hexec
      · obtain rfl := Except.ok.inj hexec
        exact h.newConnection hserver hpremises (hunused fd rfl)
      · obtain rfl := Except.ok.inj hexec
        refine ⟨h.orderly, h.stages, h.ends, h.gone, h.distinct, h.once, ?_⟩
        have hswap : (s.closed ++ [fd] ++ liveFds s).Perm (s.closed ++ liveFds s ++ [fd]) := by
          rw [List.append_assoc, List.append_assoc]
          exact List.perm_append_comm.append_left _
        exact (h.ledger.append_right _).trans hswap.symm
  | server i =>
    simp only [exec, bind_eq_ok, pure_eq_ok, Except.ok.injEq] at hexec
    obtain ⟨server, hserver, rfl⟩ := hexec
    exact h.server hallow.1 hallow.2 hpremises (mapError_eq_ok.mp hserver)
  | keep k | release k =>
    obtain rfl := Except.ok.inj hexec
    exact ⟨h.orderly, h.stages, h.ends, h.gone, h.distinct, h.once, h.ledger⟩
  | destroy k =>
    obtain rfl := Except.ok.inj hexec
    exact h.destroy hallow.1 hallow.2.1

theorem reach_inv (h : Reach system Premises s) : Inv s := by
  refine h.invariant ?_ ?_
  · intro s hs
    exact initial_inv hs
  · intro s i s' hs hallow hpremises hexec
    exact step_inv hs hallow hpremises hexec

/-- Only an unexpected error of accept(2) ends the process. -/
theorem exec_error {i : Input} (h : Inv s) (hallow : Allowed s i) (hpremises : Premises s i)
    {failure : Failure} (hexec : exec s i = .error failure) :
    ∃ errno ioLoop, i = .handleRead (.error errno) ioLoop ∧ failure = .fatal errno := by
  cases i with
  | handleRead connfd ioLoop =>
    simp only [exec, handleRead] at hexec
    cases connfd with
    | ok fd =>
      simp only [accept, ok_bind] at hexec
      split at hexec <;> cases hexec
    | error errno =>
      refine ⟨errno, ioLoop, rfl, ?_⟩
      cases errno <;> first | cases hexec; rfl | cases hexec
  | server i =>
    obtain ⟨stage, hstage⟩ := h.stages
    obtain ⟨server', hok, -⟩ := TcpServer.step_inv hstage h.orderly hallow.2 hpremises
    simp [exec, hok, Except.mapError] at hexec
  | keep k | release k | destroy k => cases hexec

/-- A connection that is up exists. -/
theorem Inv.live (h : Inv s) (hup : (s.server.connections k).Up) : Live s k := by
  obtain ⟨stage, hstage⟩ := h.stages
  refine ⟨?_, ?_⟩
  · by_contra hborn
    have hunborn := (hstage.born k).mpr (Nat.le_of_not_lt hborn)
    have hconnecting := (hstage.fits k).connecting (by rw [hunborn]; rfl)
    rcases hup with hup | hup <;> simp [hconnecting] at hup
  · intro hmem
    have hdown := h.ends.ended k (Or.inr (h.gone k hmem).2)
    rcases hup with hup | hup <;> simp [hdown] at hup

/-- In every run, connections that exist have different descriptors, and the
descriptors that were accepted are those that were closed and those of the
connections that exist. A connection is destroyed once, after `connectDestroyed`
has returned and never while its Channel is in a Poller or in `handleEvent`; so
the descriptor of a registered Channel is open, and no other one has it. -/
theorem server_sockets (h : Reach system Premises s) :
    s.opened.Perm (s.closed ++ liveFds s) ∧ (liveFds s).Nodup ∧ s.destroyed.Nodup ∧
      (∀ k ∈ s.destroyed, TcpServer.Entered s.server k .returned) ∧
      (∀ k, (s.server.connections k).registered = true → Live s k) ∧
      (∀ ℓ k, .handleEvent k ∈ (s.server.threads ℓ).stack → Live s k) ∧
      (∀ j k, (s.server.connections j).registered = true →
        (s.server.connections k).registered = true → s.fds j = s.fds k → j = k) ∧
      ∀ i failure, Allowed s i → Premises s i → exec s i = .error failure →
        ∃ errno ioLoop, i = .handleRead (.error errno) ioLoop ∧ failure = .fatal errno := by
  have hinv := reach_inv h
  have hlive : ∀ k, (s.server.connections k).registered = true → Live s k := by
    intro k hk
    exact hinv.live (hinv.ends.registered k hk)
  refine ⟨hinv.ledger, ?_, hinv.once, fun k hk => (hinv.gone k hk).2, hlive, ?_, ?_,
    fun i failure hallow hpremises => exec_error hinv hallow hpremises⟩
  · refine List.Nodup.map_on ?_ (List.nodup_range.filter _)
    intro j hj k hk heq
    have hmem : ∀ x ∈ (List.range s.server.accepted).filter (· ∉ s.destroyed), Live s x := by
      intro x hx
      simpa [Live] using hx
    exact hinv.distinct j k (hmem j hj) (hmem k hk) heq
  · intro ℓ k hk
    exact hinv.live (hinv.ends.handled k ⟨ℓ, hk⟩)
  · intro j k hj hk
    exact hinv.distinct j k (hlive j hj) (hlive k hk)

end Law

/-- Whether a connection is still owned is not looked up here. -/
noncomputable instance (s : State) : (i : Input) → Decidable (system.allowed s i)
  | .handleRead connfd ioLoop => inferInstanceAs (Decidable
      (TcpServer.Allowed s.server (.accept ioLoop) ∧ ∀ fd ∈ connfd.toOption, Unused s fd))
  | .server i => inferInstanceAs (Decidable (accepts i = false ∧ TcpServer.Allowed s.server i))
  | .keep k => inferInstanceAs (Decidable (Live s k))
  | .release k => inferInstanceAs (Decidable (k ∈ s.kept))
  | .destroy _ => Classical.propDecidable _

instance (s : State) : (i : Input) → Decidable (Premises s i)
  | .handleRead _ ioLoop =>
      inferInstanceAs (Decidable (TcpServer.Premises s.server (.accept ioLoop)))
  | .server i => inferInstanceAs (Decidable (TcpServer.Premises s.server i))
  | .keep _ | .release _ | .destroy _ => isTrue trivial

def closing : List Input :=
  [.server (.poll 0), .handleRead (.error .EMFILE) 0, .handleRead (.ok 9) 0, .server (.run 0),
    .server (.run 0), .server (.run 0), .server (.run 0), .server (.swapFunctors 0),
    .server (.endIteration 0), .server (.poll 0), .server (.handleEvent 0 0), .server (.close 0),
    .server (.run 0), .server (.run 0), .server (.run 0), .server (.run 0),
    .server (.swapFunctors 0), .server (.functor 0), .server (.run 0), .server (.run 0),
    .server (.endIteration 0), .server (.poll 0)]

/-- The descriptor is closed, and the next connection has it again. -/
theorem closing_reuses : ∃ s, Reach system Premises s ∧ s.fds 0 = 9 ∧ s.fds 1 = 9 ∧
    s.destroyed = [0] ∧ s.opened.Perm (s.closed ++ liveFds s) ∧ (liveFds s).Nodup := by
  obtain ⟨s, hs, htest⟩ := exists_of_replay (M := system) Premises
    ⟨"0.0.0.0:9981", true, rfl⟩ closing
    (fun s => decide (s.server.accepted = 1 ∧ s.newConnectionCallback = true ∧ s.fds 0 = 9 ∧
      s.kept = [] ∧ s.destroyed = [] ∧ TcpServer.Entered s.server 0 .returned ∧
      (s.server.threads TcpServer.baseLoop).loop.phase = .handling ∧
      (s.server.threads TcpServer.baseLoop).stack = [])) (by decide +kernel)
  obtain ⟨haccepted, hcallback, hfd, hkept, hdestroyed, hreturned, hphase, hstack⟩ :=
    of_decide_eq_true htest
  obtain ⟨stage, hstage⟩ := (reach_inv hs).stages
  have hdropped : ¬ TcpServer.Owned s.server 0 := by
    rw [hstage.owned_iff (by omega), not_not]
    exact hreturned
  have hs' : Reach system Premises
      { s with destroyed := s.destroyed ++ [0], closed := s.closed ++ [s.fds 0] } :=
    .step (i := .destroy 0) hs
      ⟨⟨by omega, by simp [hdestroyed]⟩, hdropped, by simp [hkept]⟩ trivial rfl
  have hunused : Unused { s with destroyed := s.destroyed ++ [0]
                                 closed := s.closed ++ [s.fds 0] } 9 := by
    intro k hk hmem
    have hzero : k = 0 := by dsimp only at hk; omega
    simp [hzero] at hmem
  have hallow : Allowed { s with destroyed := s.destroyed ++ [0]
                                 closed := s.closed ++ [s.fds 0] } (.handleRead (.ok 9) 0) :=
    ⟨⟨hphase, hstack⟩, by simpa [Except.toOption] using hunused⟩
  have hpremises : s.server.accepted + 1 < 2 ^ 31 := by omega
  have hreuse := Reach.step (M := system) (i := Input.handleRead (.ok 9) 0) hs' hallow hpremises
    (by simp only [system, exec, handleRead, accept, ok_bind, hcallback, if_true]; rfl)
  obtain ⟨hledger, hnodup, -⟩ := server_sockets hreuse
  refine ⟨_, hreuse, ?_, ?_, ?_, hledger, hnodup⟩
  · simp [haccepted, hfd]
  · simp [haccepted]
  · simp [hdestroyed]

end TinyMuduo.ServerSockets
