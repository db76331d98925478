import TinyMuduo.TimerCancel

/-!
One call of `handleRead`. The call begins by taking the expired timers out of
the queue; then callbacks run, which add and cancel timers, and other threads
create some; then `reset` hands the repeating timers back. What happened since
the beginning is kept as a list of inputs, and `Progress` compares the state
inside the call with the one before it: which part of the batch has run, which
part was handed back, which cancels were noted, and that every other timer is
where it was.
-/
namespace TinyMuduo.TimerRuns

open TimerQueue Runs Checked SortedSet

variable {φ : Type}

def Input.within : Input φ → Bool
  | .handleRead _ | .rearm _ => false
  | _ => true

/-- A call of `handleRead` that began in `s` at `now`, and what happened in it. -/
inductive Firing (s : State φ) (now : Timestamp) : List (Input φ) → State φ → Prop
  | begin {s₁ : State φ} : Allowed s (.handleRead now) → exec s (.handleRead now) = .ok s₁ →
      Firing s now [] s₁
  | step {inner : List (Input φ)} {s₁ s₂ : State φ} {i : Input φ} : Firing s now inner s₁ →
      i.within = true → Allowed s₁ i → exec s₁ i = .ok s₂ → Firing s now (inner ++ [i]) s₂

abbrev Placed (φ : Type) := Address × Timer φ

structure Queued (q : TimerQueue φ) (x : Placed φ) : Prop where
  live : q.heap x.1 = some x.2
  listed : entry x.2.expirationTimestamp x.1 ∈ q.timerList
  active : activeTimer x.1 x.2.sequence ∈ q.activeTimerSet

def cancelOf (x : Placed φ) : Input φ := .cancelInLoop ⟨x.1, x.2.sequence⟩

structure Taken (s : State φ) (now : Timestamp) (batch : List (Placed φ)) : Prop where
  expired : ∀ x, x ∈ batch ↔ Queued s.queue x ∧ x.2.expirationTimestamp ≤ now
  once : batch.Nodup
  ordered : batch.Pairwise fun x y => x.2.expirationTimestamp ≤ y.2.expirationTimestamp

structure Resolved (now : Timestamp) (inner : List (Input φ)) (s : State φ) (x : Placed φ) :
    Prop where
  requeued : x.2.isRepeat = true → cancelOf x ∉ inner →
    Queued s.queue (x.1, { x.2 with expirationTimestamp := addTime now x.2.interval })
  deleted : x.2.isRepeat = false ∨ cancelOf x ∈ inner → x.2.sequence ∈ s.queue.freed

structure Fired (s : State φ) (now : Timestamp) (inner : List (Input φ)) (s' : State φ)
    (batch : List (Placed φ)) : Prop where
  taken : Taken s now batch
  ran : s'.runs = (batch.map fun x => (x.2.sequence, s.reads + 1)).reverse ++ s.runs
  later : ∀ k ∈ s'.added, k ∉ s.added → k ∉ batch.map (·.2.sequence)
  resolved : ∀ x ∈ batch, Resolved now inner s' x
  kept : ∀ x, Queued s.queue x → now < x.2.expirationTimestamp → cancelOf x ∉ inner →
    Queued s'.queue x

section Steps

variable {s s' : State φ} {x : Placed φ}

theorem Queued.of_listed (h : Tracked s) (hlive : s.queue.heap x.1 = some x.2)
    (hlist : entry x.2.expirationTimestamp x.1 ∈ s.queue.timerList) : Queued s.queue x := by
  obtain ⟨t, ht, -, hact⟩ := h.rep.index.listed _ _ hlist
  obtain rfl : x.2 = t := Option.some.inj (hlive.symm.trans ht)
  exact ⟨hlive, hlist, hact⟩

/-- A queued timer is not the one that `reset` comes to. -/
theorem reset_apart (h : Tracked s) {now w : Timestamp} {e : Entry} {todo : List Entry}
    (hframe : s.queue.frame = .resetting now (e :: todo)) {p : Address}
    (hlist : entry w p ∈ s.queue.timerList) : p ≠ e.timer := by
  intro heq
  refine h.rep.index.batch_out e ?_ w (heq ▸ hlist)
  simp [hframe, Frame.batch]

/-- A queued timer stays as it is until it is cancelled or expires. -/
theorem Queued.step (hq : Queued s.queue x) (h : Tracked s) {i : Input φ}
    (hallow : Allowed s i) (hread : ∀ now, i ≠ .handleRead now) (hcancel : i ≠ cancelOf x)
    (hexec : exec s i = .ok s') : Queued s'.queue x := by
  obtain ⟨hlive, hlist, hact⟩ := hq
  cases exec_moves h.rep hallow hexec with
  | newTimer p cb when interval hfree =>
    have hne : x.1 ≠ p := by
      rintro rfl
      rw [hlive] at hfree
      cases hfree
    exact ⟨by simpa [newTimer, hne] using hlive, hlist, hact⟩
  | addTimerInLoop p clock t hp ht =>
    exact ⟨hlive, mem_insert.mpr (Or.inr hlist), mem_insert.mpr (Or.inr hact)⟩
  | cancelPresent timerId t hin ht hseq hlist' =>
    have hne : x.1 ≠ timerId.timer := by
      intro heq
      rw [heq, ht, Option.some.injEq] at hlive
      apply hcancel
      rw [cancelOf, heq, ← hlive, hseq]
    refine ⟨?_, mem_erase.mpr ⟨?_, hlist⟩, mem_erase.mpr ⟨?_, hact⟩⟩
    · exact (Function.update_of_ne hne _ _).trans hlive
    · exact fun heq => hne (entry_inj.mp heq).2
    · exact fun heq => hne (activeTimer_inj.mp heq).1
  | cancelAbsent timerId canceling hout => exact ⟨hlive, hlist, hact⟩
  | handleRead now active fd hidle => exact absurd rfl (hread now)
  | runTimer now ran e todo t hframe ht => exact ⟨hlive, hlist, hact⟩
  | endCallbacks now ran hframe => exact ⟨hlive, hlist, hact⟩
  | restart now e todo t hframe ht hrepeat =>
    have hne := reset_apart h hframe hlist
    exact ⟨(Function.update_of_ne hne _ _).trans hlive, mem_insert.mpr (Or.inr hlist),
      mem_insert.mpr (Or.inr hact)⟩
  | delete now e todo t hframe ht hlast =>
    have hne := reset_apart h hframe hlist
    exact ⟨(Function.update_of_ne hne _ _).trans hlive, hlist, hact⟩
  | rearm clock now fd hframe => exact ⟨hlive, hlist, hact⟩

/-- A timer of the batch stays as it is until `reset` comes to it. -/
theorem live_step (hlive : s.queue.heap x.1 = some x.2) (h : Tracked s)
    (hbatch : entry x.2.expirationTimestamp x.1 ∈ s.queue.frame.batch) {i : Input φ}
    (hallow : Allowed s i) (hwithin : i.within = true) (hreset : i ≠ .resetTimer)
    (hexec : exec s i = .ok s') : s'.queue.heap x.1 = some x.2 := by
  cases exec_moves h.rep hallow hexec with
  | newTimer p cb when interval hfree =>
    have hne : x.1 ≠ p := by
      rintro rfl
      rw [hlive] at hfree
      cases hfree
    simpa [newTimer, hne] using hlive
  | addTimerInLoop p clock t hp ht => exact hlive
  | cancelPresent timerId t hin ht hseq hlist =>
    have hne : x.1 ≠ timerId.timer := by
      intro heq
      refine h.rep.index.batch_out _ hbatch t.expirationTimestamp ?_
      rw [entry_timer, heq]
      exact hlist
    exact (Function.update_of_ne hne _ _).trans hlive
  | cancelAbsent timerId canceling hout => exact hlive
  | handleRead now active fd hidle => cases hwithin
  | runTimer now ran e todo t hframe ht => exact hlive
  | endCallbacks now ran hframe => exact hlive
  | restart now e todo t hframe ht hrepeat => exact absurd rfl hreset
  | delete now e todo t hframe ht hlast => exact absurd rfl hreset
  | rearm clock now fd hframe => cases hwithin

end Steps

def Placed.entry (x : Placed φ) : Entry := TimerQueue.entry x.2.expirationTimestamp x.1

/-- The callbacks run up to a point of the batch, or `reset` went up to one. -/
inductive Stage (s : State φ) (now : Timestamp) (batch : List (Placed φ))
    (inner : List (Input φ)) (s₁ : State φ) : Prop
  | firing (ran todo : List (Placed φ)) : batch = ran ++ todo →
      s₁.queue.frame = .firing now (ran.map Placed.entry) (todo.map Placed.entry) →
      s₁.runs = (ran.map fun x => (x.2.sequence, s.reads + 1)).reverse ++ s.runs →
      (∀ x ∈ batch, s₁.queue.heap x.1 = some x.2) → Stage s now batch inner s₁
  | resetting (done todo : List (Placed φ)) : batch = done ++ todo →
      s₁.queue.frame = .resetting now (todo.map Placed.entry) →
      s₁.runs = (batch.map fun x => (x.2.sequence, s.reads + 1)).reverse ++ s.runs →
      (∀ x ∈ todo, s₁.queue.heap x.1 = some x.2) → (∀ x ∈ done, Resolved now inner s₁ x) →
      Stage s now batch inner s₁

/-- The state inside a call, compared with the one in which it began. -/
structure Progress (s : State φ) (now : Timestamp) (batch : List (Placed φ))
    (inner : List (Input φ)) (s₁ : State φ) : Prop where
  reads : s₁.reads = s.reads + 1
  kept : ∀ x, Queued s.queue x → now < x.2.expirationTimestamp → cancelOf x ∉ inner →
    Queued s₁.queue x
  canceling : ∀ x ∈ batch,
    (activeTimer x.1 x.2.sequence ∈ s₁.queue.cancelingTimerSet ↔ cancelOf x ∈ inner)
  stage : Stage s now batch inner s₁

theorem mem_append_cancelOf {inner : List (Input φ)} {i : Input φ} {x : Placed φ}
    (hi : i ≠ cancelOf x) : cancelOf x ∈ inner ++ [i] ↔ cancelOf x ∈ inner := by
  simp [hi.symm]

section Progress

variable {s s₁ s₂ : State φ} {now : Timestamp} {batch : List (Placed φ)}
  {inner : List (Input φ)} {i : Input φ}

theorem Resolved.step {x : Placed φ} (hx : Resolved now inner s₁ x) (h : Tracked s₁)
    (hallow : Allowed s₁ i) (hwithin : i.within = true)
    (hcancel : ∀ timerId, i ≠ .cancelInLoop timerId) (hexec : exec s₁ i = .ok s₂) :
    Resolved now (inner ++ [i]) s₂ x := by
  have hother : i ≠ cancelOf x := hcancel _
  refine ⟨?_, ?_⟩
  · intro hrepeat hnot
    rw [mem_append_cancelOf hother] at hnot
    refine (hx.requeued hrepeat hnot).step h hallow ?_ (hcancel _) hexec
    rintro now' rfl
    cases hwithin
  · intro hcase
    rw [mem_append_cancelOf hother] at hcase
    exact (step_advance h hallow hexec).freed _ (hx.deleted hcase)

/-- Every timer that does not expire stays queued. -/
theorem Progress.kept_step (hp : Progress s now batch inner s₁) (h : Tracked s₁)
    (hallow : Allowed s₁ i) (hwithin : i.within = true) (hexec : exec s₁ i = .ok s₂)
    {x : Placed φ} (hx : Queued s.queue x) (hlater : now < x.2.expirationTimestamp)
    (hnot : cancelOf x ∉ inner ++ [i]) : Queued s₂.queue x := by
  rw [List.mem_append, not_or] at hnot
  refine (hp.kept x hx hlater hnot.1).step h hallow ?_ ?_ hexec
  · rintro now' rfl
    cases hwithin
  · rintro rfl
    exact hnot.2 (List.mem_singleton_self _)

/-- A step that leaves the frame, the history and the noted cancels alone. -/
theorem Progress.frame_step (hp : Progress s now batch inner s₁) (h : Tracked s₁)
    (hallow : Allowed s₁ i) (hwithin : i.within = true) (hreset : i ≠ .resetTimer)
    (hexec : exec s₁ i = .ok s₂) (hreads : s₂.reads = s₁.reads) (hruns : s₂.runs = s₁.runs)
    (hframe : s₂.queue.frame = s₁.queue.frame)
    (hcancel : (∀ timerId, i ≠ .cancelInLoop timerId) ∨ s₁.queue.frame.isFiring = true)
    (hcanceling : ∀ x ∈ batch, (activeTimer x.1 x.2.sequence ∈ s₂.queue.cancelingTimerSet ↔
      cancelOf x ∈ inner ++ [i])) : Progress s now batch (inner ++ [i]) s₂ := by
  refine ⟨hreads.trans hp.reads, ?_, hcanceling, ?_⟩
  · intro x hx hlater hnot
    exact hp.kept_step h hallow hwithin hexec hx hlater hnot
  · cases hp.stage with
    | firing ran todo hbatch hstage hran hlive =>
      refine .firing ran todo hbatch (hframe.trans hstage) (hruns.trans hran) ?_
      intro x hx
      refine live_step (hlive x hx) h ?_ hallow hwithin hreset hexec
      rw [hstage]
      change x.entry ∈ ran.map Placed.entry ++ todo.map Placed.entry
      rw [← List.map_append, ← hbatch]
      exact List.mem_map_of_mem hx
    | resetting done todo hbatch hstage hran hlive hdone =>
      have hother : ∀ timerId, i ≠ .cancelInLoop timerId := by
        refine hcancel.resolve_right ?_
        rw [hstage]
        simp [Frame.isFiring]
      refine .resetting done todo hbatch (hframe.trans hstage) (hruns.trans hran) ?_ ?_
      · intro x hx
        refine live_step (hlive x hx) h ?_ hallow hwithin hreset hexec
        rw [hstage]
        exact List.mem_map_of_mem hx
      · intro x hx
        exact (hdone x hx).step h hallow hwithin hother hexec

/-- While callbacks run, the cancel of a pair that is not in the active set is
noted. -/
theorem cancelInLoop_notes {q : TimerQueue φ} {waiting : List Address} (h : Rep q waiting)
    {timerId : TimerId} (hout : activeTimer timerId.timer timerId.sequence ∉ q.activeTimerSet)
    (hcalling : q.callingExpiredTimers = true) : q.cancelInLoop timerId = .ok
      { q with cancelingTimerSet := (q.cancelingTimerSet.insert
        (activeTimer timerId.timer timerId.sequence)).1 } := by
  unfold cancelInLoop
  rw [require_pos _ h.index.sizes, ok_bind]
  dsimp only
  rw [if_neg hout, if_pos hcalling]
  rfl

/-- User code inside a call runs in the callback loop. -/
theorem Stage.isFiring (hstage : Stage s now batch inner s₁)
    (huser : s₁.queue.frame.UserCode) : s₁.queue.frame.isFiring = true := by
  cases hstage with
  | firing ran todo _ hframe _ _ =>
    rw [hframe]
    rfl
  | resetting done todo _ hframe _ _ _ =>
    rw [hframe] at huser
    exact huser.elim

/-- A timer of the batch is in neither set while its callbacks run. -/
theorem Stage.out (hstage : Stage s now batch inner s₁) (h : Tracked s₁)
    (hfiring : s₁.queue.frame.isFiring = true) {x : Placed φ} (hx : x ∈ batch) (k : ℤ) :
    activeTimer x.1 k ∉ s₁.queue.activeTimerSet := by
  cases hstage with
  | firing ran todo hbatch hframe _ _ =>
    have hentry : x.entry ∈ s₁.queue.frame.batch := by
      rw [hframe]
      change x.entry ∈ ran.map Placed.entry ++ todo.map Placed.entry
      rw [← List.map_append, ← hbatch]
      exact List.mem_map_of_mem hx
    exact h.rep.index.not_active (h.rep.index.batch_out _ hentry) k
  | resetting done todo _ hframe _ _ _ =>
    rw [hframe] at hfiring
    cases hfiring

theorem Progress.cancel_step (hp : Progress s now batch inner s₁) (h : Tracked s₁)
    {timerId : TimerId} (hallow : Allowed s₁ (.cancelInLoop timerId))
    (hexec : exec s₁ (.cancelInLoop timerId) = .ok s₂) :
    Progress s now batch (inner ++ [.cancelInLoop timerId]) s₂ := by
  have hfiring := hp.stage.isFiring hallow
  have hrest := fun hreads hruns hframe => hp.frame_step h hallow rfl (by simp) hexec hreads
    hruns hframe (Or.inr hfiring)
  by_cases hin : activeTimer timerId.timer timerId.sequence ∈ s₁.queue.activeTimerSet
  · obtain ⟨t, ht, -, -, hok⟩ := cancelInLoop_present h.rep hin
    rw [exec_cancelInLoop hok, Except.ok.injEq] at hexec
    subst hexec
    refine hrest rfl rfl rfl ?_
    intro x hx
    have hother : Input.cancelInLoop timerId ≠ cancelOf x := by
      intro heq
      have hid : timerId = ⟨x.1, x.2.sequence⟩ := Input.cancelInLoop.inj heq
      rw [hid] at hin
      exact hp.stage.out h hfiring hx _ hin
    rw [mem_append_cancelOf hother]
    exact hp.canceling x hx
  · have hok := cancelInLoop_notes h.rep hin (h.rep.calling.trans hfiring)
    rw [exec_cancelInLoop hok, Except.ok.injEq] at hexec
    subst hexec
    refine hrest rfl rfl rfl ?_
    intro x hx
    rw [mem_insert, activeTimer_inj, List.mem_append, List.mem_singleton, or_comm,
      hp.canceling x hx, cancelOf, Input.cancelInLoop.injEq, TimerId.mk.injEq]

theorem Progress.runTimer_step (hp : Progress s now batch inner s₁) (h : Tracked s₁)
    (hallow : Allowed s₁ .runTimer) (hexec : exec s₁ .runTimer = .ok s₂) :
    Progress s now batch (inner ++ [.runTimer]) s₂ := by
  have hkept := fun x => hp.kept_step h hallow rfl hexec (x := x)
  obtain ⟨now', ran', e, todo', hfiring⟩ := frame_of_atRun hallow
  obtain ⟨t, ht, hok⟩ := runTimer_ok h.rep hfiring
  rw [exec_runTimer hok, Except.ok.injEq] at hexec
  subst hexec
  refine ⟨hp.reads, hkept, ?_, ?_⟩
  · intro x hx
    rw [mem_append_cancelOf (by simp [cancelOf])]
    exact hp.canceling x hx
  · cases hp.stage with
    | firing ran todo hbatch hframe hran hlive =>
      rw [hfiring, Frame.firing.injEq] at hframe
      obtain ⟨rfl, rfl, htodo⟩ := hframe
      cases todo with
      | nil => cases htodo
      | cons x rest =>
        rw [List.map_cons, List.cons.injEq] at htodo
        obtain ⟨rfl, rfl⟩ := htodo
        have hx : s₁.queue.heap x.1 = some x.2 := hlive x (by simp [hbatch])
        obtain rfl : x.2 = t := Option.some.inj (hx.symm.trans ht)
        refine .firing (ran ++ [x]) rest (by simp [hbatch]) (by simp) ?_ hlive
        change (x.2.sequence, s₁.reads) :: s₁.runs = _
        rw [hran, hp.reads]
        simp
    | resetting done todo _ hframe _ _ _ =>
      rw [hfiring] at hframe
      cases hframe

theorem Progress.endCallbacks_step (hp : Progress s now batch inner s₁) (h : Tracked s₁)
    (hallow : Allowed s₁ .endCallbacks) (hexec : exec s₁ .endCallbacks = .ok s₂) :
    Progress s now batch (inner ++ [.endCallbacks]) s₂ := by
  have hkept := fun x => hp.kept_step h hallow rfl hexec (x := x)
  obtain ⟨now', ran', hfiring⟩ := frame_of_atEnd hallow
  cases hexec
  rw [endCallbacks_eq hfiring] at hkept ⊢
  refine ⟨hp.reads, hkept, ?_, ?_⟩
  · intro x hx
    rw [mem_append_cancelOf (by simp [cancelOf])]
    exact hp.canceling x hx
  · cases hp.stage with
    | firing ran todo hbatch hframe hran hlive =>
      rw [hfiring, Frame.firing.injEq] at hframe
      obtain ⟨rfl, rfl, htodo⟩ := hframe
      obtain rfl : todo = [] := List.map_eq_nil_iff.mp htodo.symm
      rw [List.append_nil] at hbatch
      subst hbatch
      exact .resetting [] batch rfl rfl hran hlive (by simp)
    | resetting done todo _ hframe _ _ _ =>
      rw [hfiring] at hframe
      cases hframe

/-- `reset` hands the next timer back or deletes it. -/
theorem resetTimer_resolved (h : Tracked s₁) {x : Placed φ} {todo : List Entry}
    (hframe : s₁.queue.frame = .resetting now (x.entry :: todo))
    (hlive : s₁.queue.heap x.1 = some x.2)
    (hcanceling : activeTimer x.1 x.2.sequence ∈ s₁.queue.cancelingTimerSet ↔
      cancelOf x ∈ inner) (hexec : exec s₁ .resetTimer = .ok s₂) :
    Resolved now (inner ++ [.resetTimer]) s₂ x := by
  have hother : Input.resetTimer ≠ cancelOf x := by simp [cancelOf]
  obtain ⟨t, ht, hok⟩ := resetTimer_ok h.rep hframe
  obtain rfl : x.2 = t := Option.some.inj (hlive.symm.trans ht)
  have haddress : x.entry.timer = x.1 := rfl
  rw [haddress] at hok
  rw [exec_resetTimer hok, Except.ok.injEq] at hexec
  subst hexec
  refine ⟨?_, ?_⟩
  · intro hrepeat hnot
    rw [mem_append_cancelOf hother, ← hcanceling] at hnot
    have hrestart : x.2.restart now =
        { x.2 with expirationTimestamp := addTime now x.2.interval } := if_pos hrepeat
    dsimp only
    rw [if_pos ⟨hrepeat, hnot⟩, hrestart]
    exact ⟨Function.update_self .., mem_insert.mpr (Or.inl rfl), mem_insert.mpr (Or.inl rfl)⟩
  · intro hcase
    rw [mem_append_cancelOf hother, ← hcanceling] at hcase
    have hneg : ¬ (x.2.isRepeat = true ∧
        activeTimer x.1 x.2.sequence ∉ s₁.queue.cancelingTimerSet) := by
      rintro ⟨hrepeat, hnot⟩
      rcases hcase with hone | hin
      · rw [hrepeat] at hone
        cases hone
      · exact hnot hin
    dsimp only
    rw [if_neg hneg]
    exact List.mem_append_right _ (List.mem_singleton_self _)

theorem Progress.resetTimer_step (hp : Progress s now batch inner s₁) (h : Tracked s₁)
    (hallow : Allowed s₁ .resetTimer) (hexec : exec s₁ .resetTimer = .ok s₂) :
    Progress s now batch (inner ++ [.resetTimer]) s₂ := by
  have hkept := fun x => hp.kept_step h hallow rfl hexec (x := x)
  have hother : ∀ x : Placed φ, Input.resetTimer ≠ cancelOf x := by simp [cancelOf]
  obtain ⟨now', e, todo', hresetting⟩ := frame_of_atReset hallow
  cases hp.stage with
  | firing ran todo _ hframe _ _ =>
    rw [hresetting] at hframe
    cases hframe
  | resetting done todo hbatch hframe hran hlive hdone =>
    rw [hresetting, Frame.resetting.injEq] at hframe
    obtain ⟨rfl, htodo⟩ := hframe
    cases todo with
    | nil => cases htodo
    | cons x rest =>
      rw [List.map_cons, List.cons.injEq] at htodo
      obtain ⟨rfl, rfl⟩ := htodo
      have hdone' : ∀ y ∈ done, Resolved now' (inner ++ [.resetTimer]) s₂ y :=
        fun y hy => (hdone y hy).step h hallow rfl (by simp) hexec
      have hx := resetTimer_resolved h hresetting (hlive x List.mem_cons_self)
        (hp.canceling x (by simp [hbatch])) hexec
      obtain ⟨t, -, hok⟩ := resetTimer_ok h.rep hresetting
      have hindex := h.rep.index
      rw [hresetting] at hindex
      have hrest : ∀ y ∈ rest, y.1 ≠ x.1 := fun y hy =>
        hindex.head_apart (d := y.entry) (List.mem_map_of_mem hy)
      rw [exec_resetTimer hok, Except.ok.injEq] at hexec
      subst hexec
      refine ⟨hp.reads, hkept, ?_, .resetting (done ++ [x]) rest (by simp [hbatch]) ?_ hran ?_ ?_⟩
      · intro y hy
        rw [mem_append_cancelOf (hother y), ← hp.canceling y hy]
        dsimp only
        split <;> rfl
      · dsimp only
        split <;> rfl
      · intro y hy
        have hlive' := hlive y (List.mem_cons_of_mem _ hy)
        dsimp only
        split <;> exact (Function.update_of_ne (hrest y hy) _ _).trans hlive'
      · intro y hy
        rcases List.mem_append.mp hy with hy | hy
        · exact hdone' y hy
        · obtain rfl := List.mem_singleton.mp hy
          exact hx

theorem Progress.step (hp : Progress s now batch inner s₁) (h : Tracked s₁)
    (hallow : Allowed s₁ i) (hwithin : i.within = true) (hexec : exec s₁ i = .ok s₂) :
    Progress s now batch (inner ++ [i]) s₂ := by
  cases i with
  | newTimer p cb when interval =>
    have hrest := hp.frame_step h hallow rfl (by simp) hexec
    cases hexec
    refine hrest rfl rfl rfl (Or.inl (by simp)) ?_
    intro x hx
    rw [mem_append_cancelOf (by simp [cancelOf])]
    exact hp.canceling x hx
  | addTimerInLoop p clock =>
    have hrest := hp.frame_step h hallow rfl (by simp) hexec
    obtain ⟨t, ht, hok⟩ := addTimerInLoop_ok h.rep hallow.1 clock
    rw [exec_addTimerInLoop ht hok, Except.ok.injEq] at hexec
    subst hexec
    refine hrest rfl rfl rfl (Or.inl (by simp)) ?_
    intro x hx
    rw [mem_append_cancelOf (by simp [cancelOf])]
    exact hp.canceling x hx
  | cancelInLoop timerId => exact hp.cancel_step h hallow hexec
  | handleRead now => cases hwithin
  | runTimer => exact hp.runTimer_step h hallow hexec
  | endCallbacks => exact hp.endCallbacks_step h hallow hexec
  | resetTimer => exact hp.resetTimer_step h hallow hexec
  | rearm clock => cases hwithin

end Progress

/-- Entries of live timers name Timer objects. -/
theorem exists_placed {heap : Heap φ} {es : List Entry}
    (h : ∀ e ∈ es, ∃ t, heap e.timer = some t ∧ t.expirationTimestamp = e.time) :
    ∃ batch : List (Placed φ), batch.map Placed.entry = es ∧ ∀ x ∈ batch, heap x.1 = some x.2 := by
  induction es with
  | nil => exact ⟨[], rfl, by simp⟩
  | cons e rest ih =>
    obtain ⟨batch, hmap, hlive⟩ := ih fun d hd => h d (List.mem_cons_of_mem _ hd)
    obtain ⟨t, ht, htime⟩ := h e List.mem_cons_self
    refine ⟨(e.timer, t) :: batch, ?_, ?_⟩
    · rw [List.map_cons, hmap, Placed.entry, htime]
      rfl
    · intro x hx
      rcases List.mem_cons.mp hx with rfl | hx
      · exact ht
      · exact hlive x hx

theorem taken {s : State φ} (h : Tracked s) {now : Timestamp} {batch : List (Placed φ)}
    (hbatch : batch.map Placed.entry = s.queue.timerList.below (entry now uintptrMax))
    (hlive : ∀ x ∈ batch, s.queue.heap x.1 = some x.2) : Taken s now batch := by
  have hbelow : ∀ x : Placed φ, x.entry ∈ batch.map Placed.entry ↔
      x.entry ∈ s.queue.timerList ∧ x.entry < entry now uintptrMax := by
    intro x
    rw [hbatch, mem_below]
  have haddress : ∀ x : Placed φ, s.queue.heap x.1 = some x.2 →
      (x.entry < entry now uintptrMax ↔ x.2.expirationTimestamp ≤ now) :=
    fun x hx => below_sentry (h.rep.memory.address _ _ hx).2
  refine ⟨?_, ?_, ?_⟩
  · intro x
    constructor
    · intro hx
      obtain ⟨hlist, hlt⟩ := (hbelow x).mp (List.mem_map_of_mem hx)
      exact ⟨.of_listed h (hlive x hx) hlist, (haddress x (hlive x hx)).mp hlt⟩
    · rintro ⟨hq, hle⟩
      have hmem := (hbelow x).mpr ⟨hq.listed, (haddress x hq.live).mpr hle⟩
      obtain ⟨y, hy, hentry⟩ := List.mem_map.mp hmem
      have haddr : y.1 = x.1 := (entry_inj.mp hentry).2
      have htimer : y.2 = x.2 := by
        have hyl := hlive y hy
        rw [haddr, hq.live] at hyl
        exact (Option.some.inj hyl).symm
      rwa [← Prod.ext haddr htimer]
  · refine List.Nodup.of_map Placed.entry ?_
    rw [hbatch]
    exact below_nodup _ _
  · have hsorted : (batch.map Placed.entry).Pairwise (· < ·) := by
      rw [hbatch]
      exact s.queue.timerList.sorted.sublist (List.takeWhile_sublist _)
    rw [List.pairwise_map] at hsorted
    refine hsorted.imp ?_
    intro x y hlt
    rcases Prod.Lex.toLex_lt_toLex.mp hlt with hlt | ⟨heq, -⟩
    · exact le_of_lt hlt
    · exact le_of_eq heq

/-- A call begins with the whole batch to be run. -/
theorem begin_progress {s s₁ : State φ} (h : Tracked s) {now : Timestamp}
    (hallow : Allowed s (.handleRead now)) (hexec : exec s (.handleRead now) = .ok s₁) :
    ∃ batch, Taken s now batch ∧ Progress s now batch [] s₁ := by
  have hidle := frame_of_atIdle hallow
  obtain ⟨active, fd, hok, hindex⟩ := handleRead_ok h.rep hidle now
  obtain ⟨batch, hbatch, hlive⟩ := exists_placed hindex.batch_live
  rw [exec_handleRead hok, Except.ok.injEq] at hexec
  subst hexec
  refine ⟨batch, taken h hbatch hlive, rfl, ?_, by simp, ?_⟩
  · intro x hq hlater _
    have hlist : x.entry ∈ s.queue.timerList.fromLowerBound (entry now uintptrMax) := by
      refine mem_fromLowerBound.mpr ⟨hq.listed, ?_⟩
      rw [Placed.entry, below_sentry (h.rep.memory.address _ _ hq.live).2]
      exact not_le.mpr hlater
    obtain ⟨t, ht, -, hact⟩ := hindex.listed _ _ hlist
    obtain rfl : x.2 = t := Option.some.inj (hq.live.symm.trans ht)
    exact ⟨hq.live, hlist, hact⟩
  · exact .firing [] batch rfl (by simp [hbatch]) rfl hlive

/-- What is known inside a call. -/
theorem Firing.progress {s s₁ : State φ} {now : Timestamp} {inner : List (Input φ)}
    (hfiring : Firing s now inner s₁) (h : Tracked s) :
    Tracked s₁ ∧ ∃ batch, Taken s now batch ∧ Progress s now batch inner s₁ := by
  induction hfiring with
  | begin hallow hexec =>
    obtain ⟨r, hr, htracked⟩ := step_tracked h _ hallow
    obtain rfl := Except.ok.inj (hr.symm.trans hexec)
    exact ⟨htracked, begin_progress h hallow hexec⟩
  | step _ hwithin hallow hexec ih =>
    obtain ⟨htracked, batch, htaken, hprogress⟩ := ih
    obtain ⟨r, hr, htracked'⟩ := step_tracked htracked _ hallow
    obtain rfl := Except.ok.inj (hr.symm.trans hexec)
    exact ⟨htracked', batch, htaken, hprogress.step htracked hallow hwithin hexec⟩

def Enlisted (s : State φ) : Prop :=
  ∀ p t, s.queue.heap p = some t → p ∈ s.waiting ∨ t.sequence ∈ s.added

theorem Enlisted.keep {s s' : State φ} (h : Enlisted s) (hwaiting : s'.waiting = s.waiting)
    (hadded : s'.added = s.added)
    (hheap : ∀ p t', s'.queue.heap p = some t' →
      ∃ t, s.queue.heap p = some t ∧ t.sequence = t'.sequence) : Enlisted s' := by
  intro p t' ht'
  obtain ⟨t, ht, hseq⟩ := hheap p t' ht'
  rw [hwaiting, hadded, ← hseq]
  exact h p t ht

theorem step_enlisted {s s' : State φ} (h : Enlisted s) (htracked : Tracked s) {i : Input φ}
    (hallow : Allowed s i) (hexec : exec s i = .ok s') : Enlisted s' := by
  have erased : ∀ {p : Address} {a : Address} {t' : Timer φ},
      Function.update s.queue.heap p none a = some t' →
      ∃ t, s.queue.heap a = some t ∧ t.sequence = t'.sequence := by
    intro p a t' ht'
    by_cases ha : a = p
    · subst ha
      rw [Function.update_self] at ht'
      cases ht'
    · rw [Function.update_of_ne ha] at ht'
      exact ⟨t', ht', rfl⟩
  cases exec_moves htracked.rep hallow hexec with
  | newTimer p cb when interval hfree =>
    intro a t ht
    by_cases ha : a = p
    · exact Or.inl (by simp [ha])
    · simp only [newTimer, Function.update_of_ne ha] at ht
      rcases h a t ht with hwait | hadd
      · exact Or.inl (List.mem_cons_of_mem _ hwait)
      · exact Or.inr hadd
  | addTimerInLoop p clock t hp ht =>
    intro a u hu
    by_cases ha : a = p
    · subst ha
      obtain rfl : t = u := Option.some.inj (ht.symm.trans hu)
      exact Or.inr List.mem_cons_self
    · rcases h a u hu with hwait | hadd
      · exact Or.inl ((List.mem_erase_of_ne ha).mpr hwait)
      · exact Or.inr (List.mem_cons_of_mem _ hadd)
  | cancelPresent timerId t hin ht hseq hlist => exact h.keep rfl rfl fun a t' ht' => erased ht'
  | cancelAbsent timerId canceling hout => exact h.keep rfl rfl fun a t' ht' => ⟨t', ht', rfl⟩
  | handleRead now active fd hidle => exact h.keep rfl rfl fun a t' ht' => ⟨t', ht', rfl⟩
  | runTimer now ran e todo t hframe ht => exact h.keep rfl rfl fun a t' ht' => ⟨t', ht', rfl⟩
  | endCallbacks now ran hframe => exact h.keep rfl rfl fun a t' ht' => ⟨t', ht', rfl⟩
  | restart now e todo t hframe ht hrepeat =>
    refine h.keep rfl rfl ?_
    intro a t' ht'
    by_cases ha : a = e.timer
    · subst ha
      simp only [Function.update_self, Option.some.injEq] at ht'
      exact ⟨t, ht, by rw [← ht', restart_sequence]⟩
    · simp only [Function.update_of_ne ha] at ht'
      exact ⟨t', ht', rfl⟩
  | delete now e todo t hframe ht hlast => exact h.keep rfl rfl fun a t' ht' => erased ht'
  | rearm clock now fd hframe => exact h.keep rfl rfl fun a t' ht' => ⟨t', ht', rfl⟩

theorem reach_enlisted {s : State φ} (h : Reachable (system φ) s) : Enlisted s := by
  have hboth : Tracked s ∧ Enlisted s := by
    refine h.invariant (I := fun s => Tracked s ∧ Enlisted s) ?_ ?_
    · rintro _ rfl
      refine ⟨initial_tracked, ?_⟩
      intro p t ht
      cases ht
    · rintro s i s' ⟨htracked, henlisted⟩ hallow _ hexec
      obtain ⟨r, hr, htracked'⟩ := step_tracked htracked i hallow
      obtain rfl : r = s' := Except.ok.inj (hr.symm.trans hexec)
      exact ⟨htracked', step_enlisted henlisted htracked hallow hexec⟩
  exact hboth.2

/-- The timers that a call takes were added before it. -/
theorem Taken.added {s : State φ} {now : Timestamp} {batch : List (Placed φ)}
    (htaken : Taken s now batch) (htracked : Tracked s) (henlisted : Enlisted s) {k : ℤ}
    (hk : k ∈ batch.map (·.2.sequence)) : k ∈ s.added := by
  obtain ⟨x, hx, rfl⟩ := List.mem_map.mp hk
  obtain ⟨hq, -⟩ := (htaken.expired x).mp hx
  refine (henlisted x.1 x.2 hq.live).resolve_left ?_
  intro hwait
  exact (htracked.rep.index.waiting_out x.1 hwait).1 _ hq.listed

/-- The last step of a call. -/
theorem Progress.fired {s s₁ s' : State φ} {now : Timestamp} {batch : List (Placed φ)}
    {inner : List (Input φ)} (hp : Progress s now batch inner s₁) (htaken : Taken s now batch)
    (hlater : ∀ k ∈ batch.map (·.2.sequence), k ∈ s.added) (h : Tracked s₁) {clock : Timestamp}
    (hallow : Allowed s₁ (.rearm clock)) (hexec : exec s₁ (.rearm clock) = .ok s') :
    Fired s now inner s' batch := by
  have hqueued : ∀ x, Queued s₁.queue x → Queued s'.queue x := fun x hx =>
    hx.step h hallow (by simp) (by simp [cancelOf]) hexec
  obtain ⟨now', hresetting⟩ := frame_of_atRearm hallow
  obtain ⟨fd, hok, -⟩ := rearm_ok h.rep hresetting clock
  rw [exec_rearm hok, Except.ok.injEq] at hexec
  subst hexec
  cases hp.stage with
  | firing ran todo _ hframe _ _ =>
    rw [hresetting] at hframe
    cases hframe
  | resetting done todo hbatch hframe hran hlive hdone =>
    rw [hresetting, Frame.resetting.injEq] at hframe
    obtain ⟨rfl, htodo⟩ := hframe
    obtain rfl : todo = [] := List.map_eq_nil_iff.mp htodo.symm
    rw [List.append_nil] at hbatch
    subst hbatch
    refine ⟨htaken, hran, ?_, ?_, ?_⟩
    · intro k _ hnew hk
      exact hnew (hlater k hk)
    · intro x hx
      have hresolved := hdone x hx
      exact ⟨fun hrepeat hnot => hqueued _ (hresolved.requeued hrepeat hnot), hresolved.deleted⟩
    · intro x hx hlt hnot
      exact hqueued x (hp.kept x hx hlt hnot)

def Input.internal : Input φ → Bool
  | .runTimer | .endCallbacks | .resetTimer => true
  | _ => false

def stepsLeft : Frame → ℕ
  | .idle => 0
  | .firing _ ran todo => 2 * todo.length + ran.length + 1
  | .resetting _ todo => todo.length

theorem next_internal {s : State φ} (h : Tracked s) {n : ℕ}
    (hleft : stepsLeft s.queue.frame = n + 1) :
    ∃ i s', i.internal = true ∧ i.within = true ∧ Allowed s i ∧ exec s i = .ok s' ∧
      stepsLeft s'.queue.frame = n := by
  cases hframe : s.queue.frame with
  | idle =>
    rw [hframe] at hleft
    cases hleft
  | firing now ran todo =>
    rw [hframe, stepsLeft] at hleft
    cases todo with
    | nil =>
      refine ⟨.endCallbacks, _, rfl, rfl, ?_, rfl, ?_⟩
      · simp [Allowed, hframe, atEnd]
      · rw [endCallbacks_eq hframe]
        simpa [stepsLeft] using hleft
    | cons e rest =>
      obtain ⟨t, -, hok⟩ := runTimer_ok h.rep hframe
      refine ⟨.runTimer, _, rfl, rfl, ?_, exec_runTimer hok, ?_⟩
      · simp [Allowed, hframe, atRun]
      · simp only [stepsLeft, List.length_append, List.length_cons, List.length_nil] at hleft ⊢
        omega
  | resetting now todo =>
    rw [hframe, stepsLeft] at hleft
    cases todo with
    | nil => cases hleft
    | cons e rest =>
      obtain ⟨t, -, hok⟩ := resetTimer_ok h.rep hframe
      refine ⟨.resetTimer, _, rfl, rfl, ?_, exec_resetTimer hok, ?_⟩
      · simp [Allowed, hframe, atReset]
      · dsimp only
        split <;> exact Nat.succ.inj hleft

/-- Once the callbacks have returned, the call comes to its last step. -/
theorem Firing.completes {s s₁ : State φ} {now : Timestamp} {inner : List (Input φ)}
    (hfiring : Firing s now inner s₁) (h : Tracked s) :
    ∃ rest s₂, Firing s now (inner ++ rest) s₂ ∧ (∀ i ∈ rest, i.internal = true) ∧
      atRearm s₂.queue.frame = true := by
  induction hleft : stepsLeft s₁.queue.frame generalizing inner s₁ with
  | zero =>
    obtain ⟨-, batch, -, hprogress⟩ := hfiring.progress h
    cases hprogress.stage with
    | firing ran todo _ hframe _ _ =>
      rw [hframe] at hleft
      cases hleft
    | resetting done todo _ hframe _ _ _ =>
      rw [hframe] at hleft
      refine ⟨[], s₁, by simpa using hfiring, by simp, ?_⟩
      rw [hframe, List.length_eq_zero_iff.mp hleft]
      rfl
  | succ n ih =>
    obtain ⟨i, s₂, hinternal, hwithin, hallow, hexec, hn⟩ :=
      next_internal (hfiring.progress h).1 hleft
    obtain ⟨rest, s₃, hrest, hall, hend⟩ := ih (hfiring.step hwithin hallow hexec) hn
    refine ⟨i :: rest, s₃, by simpa using hrest, ?_, hend⟩
    intro j hj
    rcases List.mem_cons.mp hj with rfl | hj
    · exact hinternal
    · exact hall j hj

/-- In every run, a call of `handleRead` that begins in any state and whose
callbacks add and cancel any timers runs exactly the expired ones, and hands the
repeating ones back unless they were cancelled in between; the call comes to an
end when the callbacks stop. -/
theorem expired_timers_fired {s : State φ} (h : Reachable (system φ) s) {now : Timestamp}
    {inner : List (Input φ)} {s₁ : State φ} (hfiring : Firing s now inner s₁) :
    (∀ clock s', Allowed s₁ (.rearm clock) → exec s₁ (.rearm clock) = .ok s' →
      ∃ batch, Fired s now inner s' batch) ∧
    ∃ rest s₂, Firing s now (inner ++ rest) s₂ ∧ (∀ i ∈ rest, i.internal = true) ∧
      ∀ clock, Allowed s₂ (.rearm clock) ∧ ∃ s', exec s₂ (.rearm clock) = .ok s' := by
  have htracked := reach_tracked h
  constructor
  · intro clock s' hallow hexec
    obtain ⟨htracked₁, batch, htaken, hprogress⟩ := hfiring.progress htracked
    refine ⟨batch, hprogress.fired htaken ?_ htracked₁ hallow hexec⟩
    intro k hk
    exact htaken.added htracked (reach_enlisted h) hk
  · obtain ⟨rest, s₂, hrest, hall, hend⟩ := hfiring.completes htracked
    refine ⟨rest, s₂, hrest, hall, ?_⟩
    intro clock
    obtain ⟨s', hexec, -⟩ := step_tracked (hrest.progress htracked).1 (.rearm clock) hend
    exact ⟨hend, s', hexec⟩

theorem Firing.replay {s s₁ s₂ : State φ} {now : Timestamp} {inner : List (Input φ)}
    (hfiring : Firing s now inner s₁) (more : List (Input φ)) (hwithin : more.all Input.within)
    (h : (system φ).replay Free s₁ more = some s₂) : Firing s now (inner ++ more) s₂ := by
  induction more generalizing inner s₁ with
  | nil =>
    obtain rfl : s₁ = s₂ := by simpa [System.replay] using h
    simpa using hfiring
  | cons i rest ih =>
    rw [List.all_cons, Bool.and_eq_true] at hwithin
    unfold System.replay at h
    split at h
    · rename_i hstep
      split at h
      · rename_i next hexec
        simpa using ih (hfiring.step hwithin.1 hstep.1 hexec) hwithin.2 h
      · simp at h
    · simp at h

theorem firing_of_replay {s s₁ : State φ} {now : Timestamp} (inner : List (Input φ))
    (hwithin : inner.all Input.within)
    (h : (system φ).replay Free s (.handleRead now :: inner) = some s₁) :
    Firing s now inner s₁ := by
  unfold System.replay at h
  split at h
  · rename_i hstep
    split at h
    · rename_i next hexec
      exact (Firing.begin hstep.1 hexec).replay inner hwithin h
    · simp at h
  · simp at h

/-- Three timers: the first two repeat, and expire at twenty. -/
def threeTimers : List (Input Unit) :=
  [.newTimer 16 () 10 ⟨true, 7⟩, .addTimerInLoop 16 1, .newTimer 32 () 20 ⟨true, 7⟩,
    .addTimerInLoop 32 1, .newTimer 48 () 30 ⟨false, 0⟩, .addTimerInLoop 48 1]

/-- The first callback cancels the second timer and adds one in the past. -/
def twoFire : List (Input Unit) :=
  [.runTimer, .cancelInLoop ⟨32, 2⟩, .newTimer 64 () 5 ⟨false, 0⟩, .addTimerInLoop 64 21,
    .runTimer, .endCallbacks, .resetTimer, .resetTimer]

theorem twoFire_fired : ∃ s s₁ s' batch, Reachable (system Unit) s ∧ Firing s 20 twoFire s₁ ∧
    exec s₁ (.rearm 22) = .ok s' ∧ s₁.runs = [(2, 1), (1, 1)] ∧ Fired s 20 twoFire s' batch := by
  have hrun : (((system Unit).replay Free initial threeTimers).bind fun s =>
      ((system Unit).replay Free s (.handleRead 20 :: twoFire)).map fun s₁ =>
        decide (atRearm s₁.queue.frame = true ∧ s₁.runs = [(2, 1), (1, 1)])) = some true := by
    decide
  simp only [Option.bind_eq_some_iff, Option.map_eq_some_iff] at hrun
  obtain ⟨s, hs, s₁, hs₁, htest⟩ := hrun
  obtain ⟨hend, hruns⟩ := of_decide_eq_true htest
  obtain ⟨past, hpast, -, hfree⟩ := replay_run threeTimers (Run.start rfl) (by simp) hs
  have hreach : Reachable (system Unit) s := hpast.reach hfree
  have hfiring := firing_of_replay twoFire rfl hs₁
  obtain ⟨s', hexec, -⟩ := step_tracked (hfiring.progress (reach_tracked hreach)).1 (.rearm 22) hend
  obtain ⟨batch, hfired⟩ := (expired_timers_fired hreach hfiring).1 22 s' hend hexec
  exact ⟨s, s₁, s', batch, hreach, hfiring, hexec, hruns, hfired⟩

end TinyMuduo.TimerRuns
