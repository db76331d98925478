import TinyMuduo.AsyncLogging

/-!
No line is lost or torn between `append` and the log file. The contents of all
buffers, in the order in which they are filled, are the appended lines cut at line
ends; the logging thread moves them from memory to the file and, when a batch has
more than 25 buffers, drops all but the last two of it. Buffers are handed around
so that the logging thread always has one to give.
-/
namespace TinyMuduo.AsyncLogging

open Checked Runs LogFile

variable {SIZE : ℕ} {cfg : Config} {s s' : State SIZE} {env : Env}

inductive Moves (cfg : Config) (s : State SIZE) (env : Env) : State SIZE → Prop
  | stay (hpc : s.pc = .idle ∨ s.pc = .exited) : Moves cfg s env s
  | begin (output : LogFile) (hpc : s.pc = .begin)
      (houtput : LogFile.construct cfg env.rollTime env.calls.opens = .ok output) :
      Moves cfg s env
        { s with pc := .test, output := some output, newBuffer1 := some (newBuffer SIZE)
                 newBuffer2 := some (newBuffer SIZE) }
  | lock (hpc : s.pc = .test) : Moves cfg s env { s with pc := .lock }
  | stop (hpc : s.pc = .test) : Moves cfg s env { s with pc := .lastFlush }
  | wait (hpc : s.pc = .lock) : Moves cfg s env { s with pc := .waiting }
  | swap (current : FixedBuffer SIZE) (hpc : s.pc = .lock ∨ s.pc = .waiting)
      (hcurrent : s.currentBuffer_ = some current) :
      Moves cfg s env
        { s with
          pc := .swapped
          buffersToWrite := s.buffers_ ++ [current]
          buffers_ := s.buffersToWrite
          currentBuffer_ := s.newBuffer1
          newBuffer1 := none
          nextBuffer_ := if s.nextBuffer_.isNone then s.newBuffer2 else s.nextBuffer_
          newBuffer2 := if s.nextBuffer_.isNone then none else s.newBuffer2 }
  | drop (output output' : LogFile) (hpc : s.pc = .swapped) (hmany : 25 < s.buffersToWrite.length)
      (houtput : s.output = some output)
      (happend : LogFile.append cfg output ⟨dropMsg, env.rollTime⟩ env.calls = .ok output') :
      Moves cfg s env
        { s with
          pc := .write 0
          output := some output'
          buffersToWrite := s.buffersToWrite.drop (s.buffersToWrite.length - 2)
          events := s.events ++ [.dropped ⟨dropMsg, env.rollTime⟩
            ((s.buffersToWrite.take (s.buffersToWrite.length - 2)).map FixedBuffer.asString)] }
  | keep (hpc : s.pc = .swapped) : Moves cfg s env { s with pc := .write 0 }
  | write (i : ℕ) (b : FixedBuffer SIZE) (output output' : LogFile) (hpc : s.pc = .write i)
      (hb : s.buffersToWrite[i]? = some b) (houtput : s.output = some output)
      (happend : LogFile.append cfg output ⟨b.asString, env.rollTime⟩ env.calls = .ok output') :
      Moves cfg s env
        { s with pc := .write (i + 1), output := some output'
                 events := s.events ++ [.wrote ⟨b.asString, env.rollTime⟩] }
  | written (i : ℕ) (hpc : s.pc = .write i) (hi : s.buffersToWrite[i]? = none) :
      Moves cfg s env { s with pc := .refill }
  | refill (b₁ b₂ : FixedBuffer SIZE) (rest rest' : List (FixedBuffer SIZE))
      (output output' : LogFile) (hpc : s.pc = .refill)
      (hfirst : refillFrom s.newBuffer1 (s.buffersToWrite.take 2) .refill1 = .ok (b₁, rest))
      (hsecond : refillFrom s.newBuffer2 rest .refill2 = .ok (b₂, rest'))
      (houtput : s.output = some output) (hflush : LogFile.flush output = .ok output') :
      Moves cfg s env
        { s with pc := .test, output := some output', newBuffer1 := some b₁
                 newBuffer2 := some b₂, buffersToWrite := [] }
  | lastFlush (output output' : LogFile) (hpc : s.pc = .lastFlush)
      (houtput : s.output = some output) (hflush : LogFile.flush output = .ok output') :
      Moves cfg s env { s with pc := .exited, output := some output' }

theorem swap_cases (h : swap s = .ok s') : ∃ current, s.currentBuffer_ = some current ∧ s' =
    { s with
      pc := .swapped
      buffersToWrite := s.buffers_ ++ [current]
      buffers_ := s.buffersToWrite
      currentBuffer_ := s.newBuffer1
      newBuffer1 := none
      nextBuffer_ := if s.nextBuffer_.isNone then s.newBuffer2 else s.nextBuffer_
      newBuffer2 := if s.nextBuffer_.isNone then none else s.newBuffer2 } := by
  simp only [swap, bind_eq_ok, demand_eq_ok, pure_eq_ok, Except.ok.injEq] at h
  obtain ⟨current, hcurrent, rfl⟩ := h
  exact ⟨current, hcurrent, rfl⟩

theorem writeOut_eq_ok {text : List UInt8} {output' : LogFile} :
    writeOut cfg s text env = .ok output' ↔ ∃ output, s.output = some output ∧
      LogFile.append cfg output ⟨text, env.rollTime⟩ env.calls = .ok output' := by
  simp only [writeOut, bind_eq_ok, demand_eq_ok, mapError_eq_ok]

theorem flushOut_eq_ok {output' : LogFile} :
    flushOut s = .ok output' ↔
      ∃ output, s.output = some output ∧ LogFile.flush output = .ok output' := by
  simp only [flushOut, bind_eq_ok, demand_eq_ok, mapError_eq_ok]

theorem loggerStep_moves (h : loggerStep cfg s env = .ok s') : Moves cfg s env s' := by
  unfold loggerStep at h
  split at h
  case h_1 hpc =>
    cases h
    exact .stay (Or.inl hpc)
  case h_2 hpc =>
    cases h
    exact .stay (Or.inr hpc)
  case h_3 hpc =>
    simp only [bind_eq_ok, require_eq_ok, mapError_eq_ok, pure_eq_ok, Except.ok.injEq] at h
    obtain ⟨-, -, output, houtput, rfl⟩ := h
    exact .begin output hpc houtput
  case h_4 hpc =>
    split at h
    · simp only [bind_eq_ok, require_eq_ok, pure_eq_ok, Except.ok.injEq] at h
      obtain ⟨-, -, -, -, -, -, rfl⟩ := h
      exact .lock hpc
    · cases h
      exact .stop hpc
  case h_5 hpc =>
    split at h
    · obtain ⟨current, hcurrent, rfl⟩ := swap_cases h
      exact .swap current (Or.inl hpc) hcurrent
    · cases h
      exact .wait hpc
  case h_6 hpc =>
    obtain ⟨current, hcurrent, rfl⟩ := swap_cases h
    exact .swap current (Or.inr hpc) hcurrent
  case h_7 hpc =>
    simp only [bind_eq_ok, require_eq_ok] at h
    obtain ⟨-, -, h⟩ := h
    split at h
    · rename_i hmany
      simp only [bind_eq_ok, writeOut_eq_ok, pure_eq_ok, Except.ok.injEq] at h
      obtain ⟨output', ⟨output, houtput, happend⟩, rfl⟩ := h
      exact .drop output output' hpc hmany houtput happend
    · cases h
      exact .keep hpc
  case h_8 i hpc =>
    split at h
    · rename_i b hb
      simp only [bind_eq_ok, writeOut_eq_ok, pure_eq_ok, Except.ok.injEq] at h
      obtain ⟨output', ⟨output, houtput, happend⟩, rfl⟩ := h
      exact .write i b output output' hpc hb houtput happend
    · rename_i hi
      cases h
      exact .written i hpc hi
  case h_9 hpc =>
    simp only [bind_eq_ok, flushOut_eq_ok, pure_eq_ok, Except.ok.injEq] at h
    obtain ⟨⟨b₁, rest⟩, hfirst, ⟨b₂, rest'⟩, hsecond, output', ⟨output, houtput, hflush⟩, rfl⟩ := h
    exact .refill b₁ b₂ rest rest' output output' hpc hfirst hsecond houtput hflush
  case h_10 hpc =>
    simp only [bind_eq_ok, flushOut_eq_ok, pure_eq_ok, Except.ok.injEq] at h
    obtain ⟨output', ⟨output, houtput, hflush⟩, rfl⟩ := h
    exact .lastFlush output output' hpc houtput hflush

/-- A line is stored whole or not at all. -/
theorem appendLine_ok (b : FixedBuffer SIZE) (logline : List UInt8) :
    ∃ b', appendLine b logline = .ok b' ∧ b'.asString =
      if (logline.length : ℤ) < b.avail then b.asString ++ logline else b.asString := by
  unfold appendLine FixedBuffer.append
  split
  · rename_i hroom
    have hfits : b.cur + logline.length ≤ SIZE := by
      unfold FixedBuffer.avail at hroom
      omega
    obtain ⟨b', hstore, hwrote⟩ := LogStream.store_ok (b := b) hfits
    have htext : LogStream.Wrote b b' b.cur (logline ++ []) := by rwa [List.append_nil]
    refine ⟨b'.add logline.length, ?_, htext.asString⟩
    rw [FixedBuffer.memcpy, require_pos _ (Int.natCast_nonneg _), ok_bind, Int.toNat_natCast,
      List.take_length, hstore]
    rfl
  · exact ⟨b, rfl, rfl⟩

theorem asString_empty {b : FixedBuffer SIZE} (h : b.cur = 0) : b.asString = [] := by
  rw [FixedBuffer.asString, h, List.take_zero]

/-- What `append` does if there is a current buffer: the line goes behind the
others, or into an empty buffer if there is no room. -/
theorem append_moves (logline : List UInt8) {current : FixedBuffer SIZE}
    (hcurrent : s.currentBuffer_ = some current)
    (hnext : ∀ b, s.nextBuffer_ = some b → b.cur = 0) :
    (∃ b, (logline.length : ℤ) < current.avail ∧ b.asString = current.asString ++ logline ∧
        append s logline = .ok
          { s with currentBuffer_ := some b, appended := s.appended ++ [logline] }) ∨
      ∃ b, (b.asString = if logline.length < SIZE then logline else []) ∧
        append s logline = .ok
          { s with
            buffers_ := s.buffers_ ++ [current]
            currentBuffer_ := some b
            nextBuffer_ := none
            appended := s.appended ++ [logline] } := by
  by_cases hroom : (logline.length : ℤ) < current.avail
  · obtain ⟨b, hb, htext⟩ := appendLine_ok current logline
    rw [if_pos hroom] at htext
    refine Or.inl ⟨b, hroom, htext, ?_⟩
    simp [append, hcurrent, demand, hroom, hb]
  · have hempty : (s.nextBuffer_.getD (newBuffer SIZE)).cur = 0 := by
      cases hcases : s.nextBuffer_ with
      | none => rfl
      | some b => exact hnext b hcases
    obtain ⟨b, hb, htext⟩ := appendLine_ok (s.nextBuffer_.getD (newBuffer SIZE)) logline
    refine Or.inr ⟨b, ?_, ?_⟩
    · rw [htext, FixedBuffer.avail, hempty, asString_empty hempty]
      simp
    · simp [append, hcurrent, demand, hroom, hb]

/-- The logging thread has its two buffers and nothing to write. -/
def Pc.ready : Pc → Bool
  | .test | .lock | .waiting => true
  | _ => false

def Pc.taken : Pc → Bool
  | .swapped | .write _ | .refill => true
  | _ => false

structure Shape (s : State SIZE) : Prop where
  current : ∃ b, s.currentBuffer_ = some b
  next : ∀ b, s.nextBuffer_ = some b → b.cur = 0
  spare : s.nextBuffer_ = none → s.buffers_ ≠ []
  running : s.pc = .begin → s.running_ = true
  fresh : s.pc = .idle ∨ s.pc = .begin → s.buffersToWrite = [] ∧ s.events = []
  started : s.pc ≠ .idle → s.pc ≠ .begin → ∃ output, s.output = some output
  ready : s.pc.ready = true → (∃ b, s.newBuffer1 = some b ∧ b.cur = 0) ∧
    (∃ b, s.newBuffer2 = some b ∧ b.cur = 0) ∧ s.buffersToWrite = []
  taken : s.pc.taken = true → s.newBuffer1 = none ∧ s.buffersToWrite ≠ [] ∧
    (s.newBuffer2 = none → 2 ≤ s.buffersToWrite.length) ∧
    ∀ b, s.newBuffer2 = some b → b.cur = 0

theorem initial_shape : Shape (initial SIZE) := by
  refine ⟨⟨_, rfl⟩, ?_, ?_, ?_, fun _ => ⟨rfl, rfl⟩, fun hpc => absurd rfl hpc, ?_, ?_⟩
  · intro b hb
    cases hb
    rfl
  · intro hnone
    cases hnone
  all_goals
    intro hpc
    cases hpc

theorem append_shape (h : Shape s) {logline : List UInt8} (happend : append s logline = .ok s') :
    Shape s' := by
  obtain ⟨current, hcurrent⟩ := h.current
  rcases append_moves logline hcurrent h.next with ⟨b, -, -, hok⟩ | ⟨b, -, hok⟩
  · rw [hok] at happend
    cases happend
    exact ⟨⟨b, rfl⟩, h.next, h.spare, h.running, h.fresh, h.started, h.ready, h.taken⟩
  · rw [hok] at happend
    cases happend
    exact ⟨⟨b, rfl⟩, by simp, by simp, h.running, h.fresh, h.started, h.ready, h.taken⟩

/-- A buffer that comes back is empty. -/
theorem refillFrom_empty {newBuffer : Option (FixedBuffer SIZE)}
    {buffers rest : List (FixedBuffer SIZE)} {a : Assertion} {b : FixedBuffer SIZE}
    (hnew : ∀ b, newBuffer = some b → b.cur = 0)
    (h : refillFrom newBuffer buffers a = .ok (b, rest)) : b.cur = 0 := by
  unfold refillFrom at h
  split at h
  · cases h
    exact hnew _ rfl
  · simp only [bind_eq_ok, demand_eq_ok, pure_eq_ok, Except.ok.injEq, Prod.mk.injEq] at h
    obtain ⟨last, -, rfl, -⟩ := h
    rfl

/-- A step of the logging thread that leaves the buffers under the mutex alone. -/
theorem Shape.move (h : Shape s) (hcurrent : s'.currentBuffer_ = s.currentBuffer_)
    (hnext : s'.nextBuffer_ = s.nextBuffer_) (hbuffers : s'.buffers_ = s.buffers_)
    (hpc : s'.pc ≠ .idle ∧ s'.pc ≠ .begin) (houtput : ∃ output, s'.output = some output)
    (hready : s'.pc.ready = true → (∃ b, s'.newBuffer1 = some b ∧ b.cur = 0) ∧
      (∃ b, s'.newBuffer2 = some b ∧ b.cur = 0) ∧ s'.buffersToWrite = [])
    (htaken : s'.pc.taken = true → s'.newBuffer1 = none ∧ s'.buffersToWrite ≠ [] ∧
      (s'.newBuffer2 = none → 2 ≤ s'.buffersToWrite.length) ∧
      ∀ b, s'.newBuffer2 = some b → b.cur = 0) : Shape s' := by
  refine ⟨?_, ?_, ?_, ?_, ?_, fun _ _ => houtput, hready, htaken⟩
  · rw [hcurrent]
    exact h.current
  · rw [hnext]
    exact h.next
  · rw [hnext, hbuffers]
    exact h.spare
  · intro hbegin
    exact absurd hbegin hpc.2
  · rintro (hidle | hbegin)
    · exact absurd hidle hpc.1
    · exact absurd hbegin hpc.2

/-- The exchange leaves an empty current buffer and a spare one. -/
theorem swap_shape (h : Shape s) {current : FixedBuffer SIZE} (hpc : s.pc = .lock ∨ s.pc = .waiting)
    (houtput : ∃ output, s.output = some output) :
    Shape { s with
      pc := .swapped
      buffersToWrite := s.buffers_ ++ [current]
      buffers_ := s.buffersToWrite
      currentBuffer_ := s.newBuffer1
      newBuffer1 := none
      nextBuffer_ := if s.nextBuffer_.isNone then s.newBuffer2 else s.nextBuffer_
      newBuffer2 := if s.nextBuffer_.isNone then none else s.newBuffer2 } := by
  have hready : s.pc.ready = true := by rcases hpc with hpc | hpc <;> rw [hpc] <;> rfl
  obtain ⟨⟨b₁, hb₁, -⟩, ⟨b₂, hb₂, hempty⟩, -⟩ := h.ready hready
  refine ⟨⟨b₁, hb₁⟩, ?_, ?_, by simp, by simp, fun _ _ => houtput, by simp [Pc.ready], ?_⟩
  · intro b hb
    cases hnext : s.nextBuffer_ with
    | none =>
      simp only [hnext, Option.isNone_none, if_true, hb₂] at hb
      cases hb
      exact hempty
    | some b' =>
      simp only [hnext, Option.isNone_some, Bool.false_eq_true, if_false] at hb
      cases hb
      exact h.next b hnext
  · intro hnone
    cases hnext : s.nextBuffer_ <;> simp [hnext, hb₂] at hnone
  · intro _
    refine ⟨rfl, by simp, ?_, ?_⟩
    · -- the second buffer was given away only because one had been filled
      intro hgiven
      cases hnext : s.nextBuffer_ with
      | none =>
        have hfilled := List.length_pos_of_ne_nil (h.spare hnext)
        simp only [List.length_append, List.length_singleton]
        omega
      | some b' => simp [hnext, hb₂] at hgiven
    · intro b hb
      cases hnext : s.nextBuffer_ with
      | none => simp [hnext] at hb
      | some b' =>
        simp only [hnext, Option.isNone_some, Bool.false_eq_true, if_false, hb₂] at hb
        cases hb
        exact hempty

theorem Moves.shape (h : Shape s) (hmoves : Moves cfg s env s') : Shape s' := by
  cases hmoves with
  | stay hpc => exact h
  | begin output hpc houtput =>
    refine h.move rfl rfl rfl (by simp) ⟨output, rfl⟩ ?_ (by simp [Pc.taken])
    intro _
    exact ⟨⟨_, rfl, rfl⟩, ⟨_, rfl, rfl⟩, (h.fresh (Or.inr hpc)).1⟩
  | lock hpc =>
    exact h.move rfl rfl rfl (by simp) (h.started (by simp [hpc]) (by simp [hpc]))
      (fun _ => h.ready (by rw [hpc]; rfl)) (by simp [Pc.taken])
  | stop hpc =>
    exact h.move rfl rfl rfl (by simp) (h.started (by simp [hpc]) (by simp [hpc]))
      (by simp [Pc.ready]) (by simp [Pc.taken])
  | wait hpc =>
    exact h.move rfl rfl rfl (by simp) (h.started (by simp [hpc]) (by simp [hpc]))
      (fun _ => h.ready (by rw [hpc]; rfl)) (by simp [Pc.taken])
  | swap current hpc hcurrent =>
    refine swap_shape h hpc (h.started ?_ ?_)
    all_goals
      rcases hpc with hpc | hpc <;> simp [hpc]
  | drop output output' hpc hmany houtput happend =>
    obtain ⟨hnone, -, -, hempty⟩ := h.taken (by rw [hpc]; rfl)
    refine h.move rfl rfl rfl (by simp) ⟨output', rfl⟩ (by simp [Pc.ready]) fun _ => ?_
    have hlength : (s.buffersToWrite.drop (s.buffersToWrite.length - 2)).length = 2 := by
      rw [List.length_drop]
      omega
    exact ⟨hnone, List.ne_nil_of_length_pos (by rw [hlength]; decide), fun _ => hlength.ge,
      hempty⟩
  | keep hpc =>
    exact h.move rfl rfl rfl (by simp) (h.started (by simp [hpc]) (by simp [hpc]))
      (by simp [Pc.ready]) fun _ => h.taken (by rw [hpc]; rfl)
  | write i b output output' hpc hb houtput happend =>
    exact h.move rfl rfl rfl (by simp) ⟨output', rfl⟩ (by simp [Pc.ready])
      fun _ => h.taken (by rw [hpc]; rfl)
  | written i hpc hi =>
    exact h.move rfl rfl rfl (by simp) (h.started (by simp [hpc]) (by simp [hpc]))
      (by simp [Pc.ready]) fun _ => h.taken (by rw [hpc]; rfl)
  | refill b₁ b₂ rest rest' output output' hpc hfirst hsecond houtput hflush =>
    obtain ⟨hnone, -, -, hempty⟩ := h.taken (by rw [hpc]; rfl)
    refine h.move rfl rfl rfl (by simp) ⟨output', rfl⟩ (fun _ => ?_) (by simp [Pc.taken])
    exact ⟨⟨b₁, rfl, refillFrom_empty (by simp [hnone]) hfirst⟩,
      ⟨b₂, rfl, refillFrom_empty hempty hsecond⟩, rfl⟩
  | lastFlush output output' hpc houtput hflush =>
    exact h.move rfl rfl rfl (by simp) ⟨output', rfl⟩ (by simp [Pc.ready]) (by simp [Pc.taken])

theorem step_shape (h : Shape s) {i : Input} (hallow : Allowed s i)
    (hexec : exec cfg s i = .ok s') : Shape s' := by
  cases i with
  | append logline => exact append_shape h hexec
  | start =>
    have hpc : s.pc = .idle := hallow
    cases hexec
    exact ⟨h.current, h.next, h.spare, fun _ => rfl, fun _ => h.fresh (Or.inl hpc), by simp,
      by simp [Pc.ready], by simp [Pc.taken]⟩
  | stop =>
    cases hexec
    refine ⟨h.current, h.next, h.spare, fun hbegin => ?_, h.fresh, h.started, h.ready, h.taken⟩
    exact absurd hbegin hallow.2
  | logger env => exact (loggerStep_moves hexec).shape h

theorem reach_shape {cond : State SIZE → Input → Prop}
    (h : Reach (system SIZE cfg) cond s) : Shape s := by
  refine h.invariant ?_ ?_
  · rintro _ rfl
    exact initial_shape
  · intro s i s' hs hallow _ hexec
    exact step_shape hs hallow hexec

section Failures

theorem refillFrom_succeeds (newBuffer : Option (FixedBuffer SIZE))
    (buffers : List (FixedBuffer SIZE)) (a : Assertion) (h : newBuffer = none → buffers ≠ []) :
    ∃ b rest, refillFrom newBuffer buffers a = .ok (b, rest) ∧
      buffers.length ≤ rest.length + if newBuffer = none then 1 else 0 := by
  cases newBuffer with
  | some b => exact ⟨b, buffers, rfl, Nat.le_add_right _ _⟩
  | none =>
    obtain ⟨last, hlast⟩ := Option.ne_none_iff_exists'.mp
      (fun hnone => h rfl (List.getLast?_eq_none_iff.mp hnone))
    refine ⟨reset last, buffers.dropLast, by simp [refillFrom, hlast, demand], ?_⟩
    rw [List.length_dropLast, if_pos rfl]
    omega

def OfFile (x : Except Failure (State SIZE)) : Prop :=
  ∀ e, x = .error e → ∃ fault, e = .file fault

theorem writeOut_ofFile {text : List UInt8} (houtput : ∃ output, s.output = some output)
    {f : LogFile → Except Failure (State SIZE)} (hf : ∀ output, OfFile (f output)) :
    OfFile (writeOut cfg s text env >>= f) := by
  obtain ⟨output, houtput⟩ := houtput
  intro e he
  rcases bind_eq_error.mp he with he | ⟨output', -, he⟩
  · simp only [writeOut, houtput, demand, ok_bind, mapError_eq_error] at he
    obtain ⟨fault, -, rfl⟩ := he
    exact ⟨fault, rfl⟩
  · exact hf output' e he

theorem flushOut_ofFile (houtput : ∃ output, s.output = some output)
    {f : LogFile → Except Failure (State SIZE)} (hf : ∀ output, OfFile (f output)) :
    OfFile (flushOut s >>= f) := by
  obtain ⟨output, houtput⟩ := houtput
  intro e he
  rcases bind_eq_error.mp he with he | ⟨output', -, he⟩
  · simp only [flushOut, houtput, demand, ok_bind, mapError_eq_error] at he
    obtain ⟨fault, -, rfl⟩ := he
    exact ⟨fault, rfl⟩
  · exact hf output' e he

theorem ofFile_ok (s : State SIZE) : OfFile (.ok s : Except Failure (State SIZE)) := by
  intro e he
  cases he

/-- The assertions of `threadFunc` hold, and no null buffer is used. -/
theorem loggerStep_ofFile (h : Shape s) : OfFile (loggerStep cfg s env) := by
  unfold loggerStep
  split
  case h_1 => exact ofFile_ok s
  case h_2 => exact ofFile_ok s
  case h_3 hpc =>
    rw [require_pos _ (h.running hpc), ok_bind]
    intro e he
    rcases bind_eq_error.mp he with he | ⟨output, -, he⟩
    · obtain ⟨fault, -, rfl⟩ := mapError_eq_error.mp he
      exact ⟨fault, rfl⟩
    · cases he
  case h_4 hpc =>
    obtain ⟨⟨b₁, hb₁, hempty₁⟩, ⟨b₂, hb₂, hempty₂⟩, hnil⟩ := h.ready (by rw [hpc]; rfl)
    split
    · rw [require_pos _ ⟨b₁, hb₁, hempty₁⟩, ok_bind, require_pos _ ⟨b₂, hb₂, hempty₂⟩, ok_bind,
        require_pos _ (by rw [hnil]; rfl), ok_bind]
      exact ofFile_ok _
    · exact ofFile_ok _
  case h_5 hpc =>
    obtain ⟨current, hcurrent⟩ := h.current
    split
    · simp only [swap, hcurrent, demand, ok_bind]
      exact ofFile_ok _
    · exact ofFile_ok _
  case h_6 hpc =>
    obtain ⟨current, hcurrent⟩ := h.current
    simp only [swap, hcurrent, demand, ok_bind]
    exact ofFile_ok _
  case h_7 hpc =>
    obtain ⟨-, hne, -⟩ := h.taken (by rw [hpc]; rfl)
    have houtput := h.started (by simp [hpc]) (by simp [hpc])
    rw [require_pos _ (by simpa using hne), ok_bind]
    split
    · exact writeOut_ofFile houtput fun output => ofFile_ok _
    · exact ofFile_ok _
  case h_8 i hpc =>
    have houtput := h.started (by simp [hpc]) (by simp [hpc])
    split
    · exact writeOut_ofFile houtput fun output => ofFile_ok _
    · exact ofFile_ok _
  case h_9 hpc =>
    obtain ⟨hnone, hne, htwo, -⟩ := h.taken (by rw [hpc]; rfl)
    have houtput := h.started (by simp [hpc]) (by simp [hpc])
    have hpos := List.length_pos_of_ne_nil hne
    obtain ⟨b₁, rest, hfirst, hrest⟩ := refillFrom_succeeds s.newBuffer1
      (s.buffersToWrite.take 2) .refill1
      fun _ => List.ne_nil_of_length_pos (by rw [List.length_take]; omega)
    obtain ⟨b₂, rest', hsecond, -⟩ := refillFrom_succeeds s.newBuffer2 rest .refill2
      fun hgiven => by
        have hlength := htwo hgiven
        rw [List.length_take, hnone, if_pos rfl] at hrest
        exact List.ne_nil_of_length_pos (by omega)
    simp only [hfirst, ok_bind, hsecond]
    exact flushOut_ofFile houtput fun output => ofFile_ok _
  case h_10 hpc =>
    have houtput := h.started (by simp [hpc]) (by simp [hpc])
    exact flushOut_ofFile houtput fun output => ofFile_ok _

theorem exec_ofFile (h : Shape s) (i : Input) : OfFile (exec cfg s i) := by
  cases i with
  | append logline =>
    obtain ⟨current, hcurrent⟩ := h.current
    rcases append_moves logline hcurrent h.next with ⟨b, -, -, hok⟩ | ⟨b, -, hok⟩
    · rw [exec, hok]
      exact ofFile_ok _
    · rw [exec, hok]
      exact ofFile_ok _
  | start => exact ofFile_ok _
  | stop => exact ofFile_ok _
  | logger env => exact loggerStep_ofFile h

end Failures

/-- Texts that are made of whole lines. -/
def Groups (texts lines : List (List UInt8)) : Prop :=
  ∃ groups : List (List (List UInt8)), groups.map List.flatten = texts ∧ groups.flatten = lines

theorem Groups.fresh {texts lines : List (List UInt8)} (h : Groups texts lines) :
    Groups (texts ++ [[]]) lines := by
  obtain ⟨groups, rfl, rfl⟩ := h
  exact ⟨groups ++ [[]], by simp, by simp⟩

theorem Groups.extend {texts lines : List (List UInt8)} {text : List UInt8}
    (h : Groups (texts ++ [text]) lines) (line : List UInt8) :
    Groups (texts ++ [text ++ line]) (lines ++ [line]) := by
  obtain ⟨groups, htexts, rfl⟩ := h
  obtain ⟨init, last, rfl, rfl, hlast⟩ := List.map_eq_append_iff.mp htexts
  obtain ⟨group, rfl, rfl⟩ := List.map_eq_singleton_iff.mp hlast
  exact ⟨init ++ [group ++ [line]], by simp, by simp⟩

def Event.taken : Event → List (List UInt8)
  | .wrote line => [line.text]
  | .dropped _ buffers => buffers

def Event.line : Event → LogLine
  | .wrote line | .dropped line _ => line

def pending (s : State SIZE) : List (FixedBuffer SIZE) :=
  match s.pc with
  | .swapped => s.buffersToWrite
  | .write i => s.buffersToWrite.drop i
  | _ => []

/-- The filled buffers in memory, in the order in which they are filled. -/
def held (s : State SIZE) : List (FixedBuffer SIZE) :=
  pending s ++ (s.buffers_ ++ s.currentBuffer_.toList)

/-- The lines that are not longer than a buffer. -/
def kept (SIZE : ℕ) (appended : List (List UInt8)) : List (List UInt8) :=
  appended.filter fun line => decide (line.length < SIZE)

/-- The texts taken and the texts in memory are the lines, in their order. -/
def Stream (s : State SIZE) : Prop :=
  Groups (s.events.flatMap Event.taken ++ (held s).map FixedBuffer.asString)
    (kept SIZE s.appended)

theorem append_stream (hshape : Shape s) (h : Stream s) {logline : List UInt8}
    (happend : append s logline = .ok s') : Stream s' := by
  obtain ⟨current, hcurrent⟩ := hshape.current
  unfold Stream at h ⊢
  rcases append_moves logline hcurrent hshape.next with ⟨b, hroom, htext, hok⟩ | ⟨b, htext, hok⟩
  · rw [hok] at happend
    cases happend
    have hfits : logline.length < SIZE := by
      unfold FixedBuffer.avail at hroom
      omega
    simp only [held, pending, hcurrent, Option.toList_some, List.map_append, List.map_cons,
      List.map_nil, ← List.append_assoc, htext, kept, List.filter_append] at h ⊢
    simpa [hfits] using h.extend logline
  · rw [hok] at happend
    cases happend
    simp only [held, pending, hcurrent, Option.toList_some, List.map_append, List.map_cons,
      List.map_nil, ← List.append_assoc, htext, kept, List.filter_append] at h ⊢
    by_cases hfits : logline.length < SIZE
    · simpa [hfits] using h.fresh.extend logline
    · simpa [hfits] using h.fresh

theorem Moves.stream (hshape : Shape s) (h : Stream s) (hmoves : Moves cfg s env s') :
    Stream s' := by
  unfold Stream at h ⊢
  cases hmoves with
  | stay hpc => exact h
  | begin output hpc houtput => simpa [held, pending, hpc] using h
  | lock hpc => simpa [held, pending, hpc] using h
  | stop hpc => simpa [held, pending, hpc] using h
  | wait hpc => simpa [held, pending, hpc] using h
  | swap current hpc hcurrent =>
    have hready : s.pc.ready = true := by rcases hpc with hpc | hpc <;> rw [hpc] <;> rfl
    obtain ⟨⟨b₁, hb₁, hempty⟩, -, hnil⟩ := hshape.ready hready
    have hpending : pending s = [] := by rcases hpc with hpc | hpc <;> simp [pending, hpc]
    simp only [held, hpending, hcurrent, hnil, hb₁] at h ⊢
    simpa [pending, asString_empty hempty] using h.fresh
  | drop output output' hpc hmany houtput happend =>
    have hsplit := List.take_append_drop (s.buffersToWrite.length - 2)
      (s.buffersToWrite.map FixedBuffer.asString)
    simp only [held, pending, hpc, List.map_append] at h
    rw [← hsplit] at h
    simpa [held, pending, Event.taken, -List.take_append_drop] using h
  | keep hpc => simpa [held, pending, hpc] using h
  | write i b output output' hpc hb houtput happend =>
    have hsplit : s.buffersToWrite.drop i = b :: s.buffersToWrite.drop (i + 1) := by
      obtain ⟨hi, rfl⟩ := List.getElem?_eq_some_iff.mp hb
      exact List.drop_eq_getElem_cons hi
    simpa [held, pending, hpc, hsplit, Event.taken] using h
  | written i hpc hi =>
    have hdone : s.buffersToWrite.drop i = [] :=
      List.drop_eq_nil_of_le (List.getElem?_eq_none_iff.mp hi)
    simpa [held, pending, hpc, hdone] using h
  | refill b₁ b₂ rest rest' output output' hpc hfirst hsecond houtput hflush =>
    simpa [held, pending, hpc] using h
  | lastFlush output output' hpc houtput hflush => simpa [held, pending, hpc] using h

theorem step_stream (hshape : Shape s) (h : Stream s) {i : Input} (hallow : Allowed s i)
    (hexec : exec cfg s i = .ok s') : Stream s' := by
  cases i with
  | append logline => exact append_stream hshape h hexec
  | start =>
    have hpc : s.pc = .idle := hallow
    cases hexec
    simpa [Stream, held, pending, hpc] using h
  | stop =>
    cases hexec
    exact h
  | logger env => exact (loggerStep_moves hexec).stream hshape h

theorem initial_stream : Stream (initial SIZE) := by
  refine ⟨[[]], ?_, rfl⟩
  rw [held, initial]
  simp [pending, newBuffer, FixedBuffer.asString]

theorem reach_stream {cond : State SIZE → Input → Prop} (h : Reach (system SIZE cfg) cond s) :
    Stream s := by
  have hboth : Shape s ∧ Stream s := by
    refine h.invariant (I := fun s => Shape s ∧ Stream s) ?_ ?_
    · rintro _ rfl
      exact ⟨initial_shape, initial_stream⟩
    · rintro s i s' ⟨hshape, hstream⟩ hallow _ hexec
      exact ⟨step_shape hshape hallow hexec, step_stream hshape hstream hallow hexec⟩
  exact hboth.2

/-- No call of fwrite(3) fails. -/
def Healthy (_ : State SIZE) : Input → Prop
  | .logger env => ∀ x ∈ env.calls.writes, 0 < x
  | .append _ | .start | .stop => True

instance (s : State SIZE) : (i : Input) → Decidable (Healthy s i)
  | .logger env => inferInstanceAs (Decidable (∀ x ∈ env.calls.writes, 0 < x))
  | .append _ | .start | .stop => isTrue trivial

/-- The logging thread drops buffers only from a batch of more than 25. -/
def Dropped (s : State SIZE) : Prop :=
  ∀ line buffers, .dropped line buffers ∈ s.events → line.text = dropMsg ∧ 23 < buffers.length

theorem Moves.dropped (h : Dropped s) (hmoves : Moves cfg s env s') : Dropped s' := by
  cases hmoves with
  | drop output output' hpc hmany houtput happend =>
    intro line buffers hmem
    rcases List.mem_append.mp hmem with hmem | hmem
    · exact h line buffers hmem
    · cases List.mem_singleton.mp hmem
      refine ⟨rfl, ?_⟩
      rw [List.length_map, List.length_take]
      omega
  | write i b output output' hpc hb houtput happend =>
    intro line buffers hmem
    rcases List.mem_append.mp hmem with hmem | hmem
    · exact h line buffers hmem
    · cases List.mem_singleton.mp hmem
  | stay | begin | lock | stop | wait | swap | keep | written | refill | lastFlush => exact h

/-- The files hold what the logging thread has passed on. -/
def Filed (s : State SIZE) : Prop :=
  ∀ output, s.output = some output → Holds output (s.events.map Event.line)

theorem Moves.filed (hshape : Shape s) (h : Filed s) (hwrites : ∀ x ∈ env.calls.writes, 0 < x)
    (hmoves : Moves cfg s env s') : Filed s' := by
  cases hmoves with
  | begin output hpc houtput =>
    rintro _ ⟨⟩
    have hnone := (hshape.fresh (Or.inr hpc)).2
    dsimp only
    rw [hnone]
    exact construct_holds houtput
  | drop output output' hpc hmany houtput happend =>
    rintro _ ⟨⟩
    simpa [Event.line] using append_holds (h output houtput) hwrites happend
  | write i b output output' hpc hb houtput happend =>
    rintro _ ⟨⟩
    simpa [Event.line] using append_holds (h output houtput) hwrites happend
  | refill b₁ b₂ rest rest' output output' hpc hfirst hsecond houtput hflush =>
    rintro _ ⟨⟩
    exact flush_holds (h output houtput) hflush
  | lastFlush output output' hpc houtput hflush =>
    rintro _ ⟨⟩
    exact flush_holds (h output houtput) hflush
  | stay | lock | stop | wait | swap | keep | written => exact h

/-- A call of `append` passes nothing on to the files. -/
theorem append_output (hshape : Shape s) {logline : List UInt8}
    (happend : append s logline = .ok s') : s'.events = s.events ∧ s'.output = s.output := by
  obtain ⟨current, hcurrent⟩ := hshape.current
  rcases append_moves logline hcurrent hshape.next with ⟨b, -, -, hok⟩ | ⟨b, -, hok⟩
  all_goals
    rw [hok] at happend
    cases happend
    exact ⟨rfl, rfl⟩

theorem reach_dropped {cond : State SIZE → Input → Prop} (h : Reach (system SIZE cfg) cond s) :
    Dropped s := by
  have hboth : Shape s ∧ Dropped s := by
    refine h.invariant (I := fun s => Shape s ∧ Dropped s) ?_ ?_
    · rintro _ rfl
      exact ⟨initial_shape, by simp [Dropped, initial]⟩
    · rintro s i s' ⟨hshape, hdropped⟩ hallow _ hexec
      refine ⟨step_shape hshape hallow hexec, ?_⟩
      cases i with
      | append logline =>
        unfold Dropped
        rw [(append_output hshape hexec).1]
        exact hdropped
      | start | stop =>
        cases hexec
        exact hdropped
      | logger env => exact (loggerStep_moves hexec).dropped hdropped
  exact hboth.2

theorem reach_filed (h : Reach (system SIZE cfg) Healthy s) : Filed s := by
  have hboth : Shape s ∧ Filed s := by
    refine h.invariant (I := fun s => Shape s ∧ Filed s) ?_ ?_
    · rintro _ rfl
      exact ⟨initial_shape, by simp [Filed, initial]⟩
    · rintro s i s' ⟨hshape, hfiled⟩ hallow hhealthy hexec
      refine ⟨step_shape hshape hallow hexec, ?_⟩
      cases i with
      | append logline =>
        obtain ⟨hevents, houtput⟩ := append_output hshape hexec
        unfold Filed
        rw [hevents, houtput]
        exact hfiled
      | start | stop =>
        cases hexec
        exact hfiled
      | logger env => exact (loggerStep_moves hexec).filed hshape hfiled hhealthy
  exact hboth.2

theorem Groups.flatten_eq {texts lines : List (List UInt8)} (h : Groups texts lines) :
    texts.flatten = lines.flatten := by
  obtain ⟨groups, rfl, rfl⟩ := h
  exact List.flatten_flatten.symm

/-- If no buffer was dropped, what the file was given is what was taken. -/
theorem taken_eq_of_not_dropped {events : List Event}
    (h : ∀ line buffers, .dropped line buffers ∉ events) :
    events.flatMap Event.taken = events.map fun e => e.line.text := by
  induction events with
  | nil => rfl
  | cons e rest ih =>
    have hrest := ih fun line buffers hmem => h line buffers (List.mem_cons_of_mem _ hmem)
    cases e with
    | wrote line => simp [Event.taken, Event.line, hrest]
    | dropped line buffers => exact absurd List.mem_cons_self (h line buffers)

/-- In every run of the logging thread and of any number of threads that append,
whenever it is stopped: no assertion fails and no buffer is overrun or missing;
buffers are dropped only from a batch of more than 25; and the texts of all buffers
taken, dropped or still in memory are the lines, in the order of the calls of
`append` and none torn, but for lines as long as a buffer. If no call of fwrite(3)
fails, the files hold, in order, the texts of the buffers and of the messages in
place of dropped ones; and if none was dropped, the lines not in the files are those
in memory. -/
theorem asyncLogging_law (h : Reachable (system SIZE cfg) s) :
    (∀ i e, exec cfg s i = .error e → ∃ fault, e = .file fault) ∧
      (∀ line buffers, .dropped line buffers ∈ s.events →
        line.text = dropMsg ∧ 23 < buffers.length) ∧
      Groups (s.events.flatMap Event.taken ++ (held s).map FixedBuffer.asString)
        (kept SIZE s.appended) ∧
      (Reach (system SIZE cfg) Healthy s → ∀ output, s.output = some output →
        fileText output = (s.events.map fun e => e.line.text).flatten ∧
        ((∀ line buffers, .dropped line buffers ∉ s.events) →
          fileText output ++ ((held s).map FixedBuffer.asString).flatten =
            (kept SIZE s.appended).flatten)) := by
  have hstream := reach_stream h
  refine ⟨fun i => exec_ofFile (reach_shape h) i, reach_dropped h, hstream, ?_⟩
  intro hhealthy output houtput
  have htext : fileText output = (s.events.map fun e => e.line.text).flatten := by
    rw [fileText_of_holds (reach_filed hhealthy output houtput), List.map_map]
    rfl
  refine ⟨htext, ?_⟩
  intro hnone
  rw [htext, ← taken_eq_of_not_dropped hnone, ← List.flatten_append]
  exact hstream.flatten_eq

/-- Buffers of eight bytes. Two lines fill the current buffer and go on in the next
one; the logging thread waits, and is stopped when it has written both. -/
def twoBuffers : List Input :=
  let env : Env := ⟨1700000000, ⟨[2], 1700000000, true⟩⟩
  [.append (ascii "one\n"), .start, .logger env, .append (ascii "two.\n"), .logger env,
    .logger env, .append (ascii "3\n"), .logger env, .append (ascii "4\n"), .stop, .logger env,
    .logger env, .logger env, .logger env, .logger env, .logger env, .logger env]

theorem twoBuffers_law :
    ∃ s output, Reach (system 8 smallFiles) Healthy s ∧ s.pc = .exited ∧
      s.output = some output ∧ fileText output = ascii "one\ntwo.\n3\n" ∧
      fileText output ++ ((held s).map FixedBuffer.asString).flatten =
        (kept 8 s.appended).flatten := by
  obtain ⟨s, hs, htest⟩ := exists_of_replay (M := system 8 smallFiles) (s := initial 8) Healthy rfl
    twoBuffers (fun s => decide (s.pc = .exited ∧
      s.output.map fileText = some (ascii "one\ntwo.\n3\n") ∧
      (s.events.map fun e => e.taken.length) = [1, 1])) (by decide)
  obtain ⟨hpc, htext, hevents⟩ := of_decide_eq_true htest
  obtain ⟨output, houtput, htext⟩ := Option.map_eq_some_iff.mp htext
  obtain ⟨-, hdropped, -, hlaw⟩ := asyncLogging_law hs.free
  refine ⟨s, output, hs, hpc, houtput, htext, (hlaw hs output houtput).2 ?_⟩
  intro line buffers hmem
  have hlong := (hdropped line buffers hmem).2
  have hone : buffers.length ∈ s.events.map fun e => e.taken.length :=
    List.mem_map.mpr ⟨_, hmem, rfl⟩
  rw [hevents] at hone
  simp at hone
  omega

end TinyMuduo.AsyncLogging
