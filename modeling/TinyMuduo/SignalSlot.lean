import TinyMuduo.Lib.Checked
import TinyMuduo.Lib.CopyOnWrite
import TinyMuduo.Lib.Runs

/-!
Signals and slots. A signal has weak pointers to its slots, in a list behind a
shared pointer that is copied before it is changed; a call goes through the list
it has found, without the mutex, and calls the slots that are still there. A slot
lives as long as its handles, or as a call that has locked it; its destructor has
the list cleaned. Slots are numbered in the order of their `connect`. The overload
of `connect` with a tie passes the constructor an lvalue where it wants an rvalue,
so that it compiles only while nobody uses it; it is in the model all the same.
-/
namespace TinyMuduo.SignalSlot

open Checked Runs CopyOnWrite

inductive Failure
  /-- `assert(slots_.unique())` -/
  | notUnique
  deriving DecidableEq, Repr

/-- A slot, with the number of handles and the object it is tied to. -/
structure SlotImpl where
  handles : ℕ
  tie_ : Option ℕ
  deriving DecidableEq

inductive Pc
  | next
  | locked (slot : ℕ)
  | calling (slot : ℕ) (guard : Option ℕ)
  | done
  deriving DecidableEq

namespace Pc

def slot : Pc → Option ℕ
  | .locked slot | .calling slot _ => some slot
  | .next | .done => none

def guard : Pc → Option ℕ
  | .calling _ guard => guard
  | .next | .locked _ | .done => none

def isCalling : Pc → Bool
  | .calling _ _ => true
  | .next | .locked _ | .done => false

end Pc

/-- A `call`, with its history: how many slots had been connected when it began,
the list it has found, the slots it has called. -/
structure Call where
  pc : Pc
  it : ℕ
  born : ℕ
  seen : List ℕ
  ran : List ℕ
  deriving DecidableEq

structure State where
  /-- the readers are the calls -/
  slots_ : Cell (List ℕ) ℕ
  impls : List SlotImpl
  /-- objects to tie slots to: whether they have an owner -/
  ties : List Bool
  calls : List Call
  /-- slots whose destructor has not called `clean` yet -/
  cleaning : List ℕ
  /-- the signal has not been destroyed -/
  impl_ : Bool

def initial : State := ⟨.create [], [], [], [], [], true⟩

def alive (s : State) (slot : ℕ) : Bool :=
  s.impls[slot]?.any (fun i => 0 < i.handles) || s.calls.any fun c => c.pc.slot == some slot

def tieAlive (s : State) (object : ℕ) : Bool :=
  s.ties[object]?.any id || s.calls.any fun c => c.pc.guard == some object

def tieOf (s : State) (slot : ℕ) : Option ℕ := s.impls[slot]?.bind SlotImpl.tie_

/-- `copyOnWrite`, and a change of the list under the same lock. -/
def change (s : State) (f : List ℕ → List ℕ) : Except Failure State := do
  let slots_ := s.slots_.copyOnWrite
  require (slots_.unique = true) .notUnique
  return { s with slots_ := slots_.modify f }

/-- A shared pointer to a slot has gone; if it was the last one, so has the slot. -/
def dispose (s : State) (slot : ℕ) : State :=
  if alive s slot then s else { s with cleaning := s.cleaning ++ [slot] }

def setHandles (s : State) (slot : ℕ) (f : ℕ → ℕ) : State :=
  { s with impls := s.impls.modify slot fun i => { i with handles := f i.handles } }

def setCall (s : State) (k : ℕ) (call : Call) : State := { s with calls := s.calls.set k call }

def callStep (s : State) (k : ℕ) (call : Call) : State :=
  match call.pc with
  | .next =>
      match (s.slots_.view k).bind fun slots => slots[call.it]? with
      | none => { setCall s k { call with pc := .done } with slots_ := s.slots_.release k }
      | some slot =>
          if alive s slot then setCall s k { call with pc := .locked slot }
          else setCall s k { call with it := call.it + 1 }
  | .locked slot =>
      match tieOf s slot with
      | none => setCall s k { call with pc := .calling slot none, ran := call.ran ++ [slot] }
      | some object =>
          if tieAlive s object then
            setCall s k { call with pc := .calling slot (some object), ran := call.ran ++ [slot] }
          else dispose (setCall s k { call with pc := .next, it := call.it + 1 }) slot
  | .calling slot _ => dispose (setCall s k { call with pc := .next, it := call.it + 1 }) slot
  | .done => s

inductive Input
  | connect (tie : Option ℕ)
  | copySlot (slot : ℕ)
  | dropSlot (slot : ℕ)
  | clean (slot : ℕ)
  | newTie
  | dropTie (object : ℕ)
  | call
  | step (k : ℕ)
  | destroy

def Allowed (s : State) : Input → Prop
  | .connect tie => s.impl_ = true ∧ ∀ object ∈ tie, tieAlive s object = true
  | .copySlot slot | .dropSlot slot => s.impls[slot]?.any (fun i => 0 < i.handles) = true
  | .clean slot => slot ∈ s.cleaning
  | .newTie | .step _ => True
  | .dropTie object => s.ties[object]? = some true
  | .call => s.impl_ = true
  | .destroy => s.impl_ = true ∧ ∀ c ∈ s.calls, c.pc = .done

instance (s : State) : (i : Input) → Decidable (Allowed s i)
  | .connect tie =>
      inferInstanceAs (Decidable (s.impl_ = true ∧ ∀ object ∈ tie, tieAlive s object = true))
  | .copySlot slot | .dropSlot slot =>
      inferInstanceAs (Decidable (s.impls[slot]?.any (fun i => 0 < i.handles) = true))
  | .clean slot => inferInstanceAs (Decidable (slot ∈ s.cleaning))
  | .newTie | .step _ => isTrue trivial
  | .dropTie object => inferInstanceAs (Decidable (s.ties[object]? = some true))
  | .call => inferInstanceAs (Decidable (s.impl_ = true))
  | .destroy => inferInstanceAs (Decidable (s.impl_ = true ∧ ∀ c ∈ s.calls, c.pc = .done))

def exec (s : State) : Input → Except Failure State
  | .connect tie => change { s with impls := s.impls ++ [⟨1, tie⟩] } (· ++ [s.impls.length])
  | .copySlot slot => .ok (setHandles s slot (· + 1))
  | .dropSlot slot => .ok (dispose (setHandles s slot (· - 1)) slot)
  | .clean slot =>
      if s.impl_ then
        change { s with cleaning := s.cleaning.erase slot } (List.filter (alive s))
      else .ok { s with cleaning := s.cleaning.erase slot }
  | .newTie => .ok { s with ties := s.ties ++ [true] }
  | .dropTie object => .ok { s with ties := s.ties.set object false }
  | .call =>
      .ok { s with
        slots_ := s.slots_.snapshot s.calls.length
        calls := s.calls ++ [⟨.next, 0, s.impls.length, s.slots_.value, []⟩] }
  | .step k =>
      match s.calls[k]? with
      | some call => .ok (callStep s k call)
      | none => .ok s
  | .destroy => .ok { s with impl_ := false }

def system : System State Input Failure where
  start := fun s => s = initial
  allowed := Allowed
  exec := exec

instance (s : State) (i : Input) : Decidable (system.allowed s i) :=
  inferInstanceAs (Decidable (Allowed s i))

section Lifetime

variable {s s' : State} {k slot : ℕ} {call call' : Call}

theorem alive_iff : alive s slot = true ↔
    (∃ i, s.impls[slot]? = some i ∧ 0 < i.handles) ∨
      ∃ c ∈ s.calls, c.pc.slot = some slot := by
  rw [alive, Bool.or_eq_true, List.any_eq_true]
  simp only [beq_iff_eq]
  refine or_congr ?_ Iff.rfl
  cases s.impls[slot]? <;> simp

/-- Only slots that are there can be locked. -/
theorem alive_of_alive_setCall (hnew : call'.pc.slot = some slot → alive s slot = true)
    (h : alive (setCall s k call') slot = true) : alive s slot = true := by
  rcases alive_iff.mp h with himpl | ⟨c, hc, hslot⟩
  · exact alive_iff.mpr (Or.inl himpl)
  · rcases List.mem_or_eq_of_mem_set hc with hc | rfl
    · exact alive_iff.mpr (Or.inr ⟨c, hc, hslot⟩)
    · exact hnew hslot

/-- A call that keeps its slot keeps it alive. -/
theorem alive_setCall (hk : s.calls[k]? = some call)
    (hold : call.pc.slot = some slot → call'.pc.slot = some slot)
    (h : alive s slot = true) : alive (setCall s k call') slot = true := by
  rcases alive_iff.mp h with himpl | ⟨c, hc, hslot⟩
  · exact alive_iff.mpr (Or.inl himpl)
  · obtain ⟨j, hj⟩ := List.mem_iff_getElem?.mp hc
    obtain ⟨hlt, -⟩ := List.getElem?_eq_some_iff.mp hk
    by_cases hjk : k = j
    · subst hjk
      rw [hk] at hj
      cases hj
      refine alive_iff.mpr (Or.inr ⟨call', ?_, hold hslot⟩)
      exact List.mem_of_getElem? (i := k) (by simp [setCall, hlt])
    · refine alive_iff.mpr (Or.inr ⟨c, ?_, hslot⟩)
      refine List.mem_of_getElem? (i := j) ?_
      rw [setCall, List.getElem?_set_ne hjk, hj]

theorem dispose_cases (s : State) (slot : ℕ) :
    alive s slot = true ∧ dispose s slot = s ∨
      dispose s slot = { s with cleaning := s.cleaning ++ [slot] } := by
  unfold dispose
  split
  · rename_i h
    exact Or.inl ⟨h, rfl⟩
  · exact Or.inr rfl

@[simp]
theorem dispose_fields (s : State) (slot : ℕ) :
    (dispose s slot).slots_ = s.slots_ ∧ (dispose s slot).impls = s.impls ∧
      (dispose s slot).impl_ = s.impl_ ∧ (dispose s slot).calls = s.calls ∧
      ∀ other ∈ s.cleaning, other ∈ (dispose s slot).cleaning := by
  rcases dispose_cases s slot with ⟨-, heq⟩ | heq
  · rw [heq]
    exact ⟨rfl, rfl, rfl, rfl, fun _ => id⟩
  · rw [heq]
    exact ⟨rfl, rfl, rfl, rfl, fun _ => List.mem_append_left _⟩

/-- What no step changes, and what becomes of the slots: one that has gone does not
come back, and one that goes is to be cleaned away. -/
structure Effect (s s' : State) : Prop where
  grows : s.impls.length ≤ s'.impls.length
  ties : ∀ slot < s.impls.length, tieOf s' slot = tieOf s slot
  gone : ∀ slot < s.impls.length, alive s' slot = true → alive s slot = true
  goes : ∀ slot, alive s slot = true → alive s' slot = true ∨ slot ∈ s'.cleaning

/-- The slot of a call has been released. -/
theorem effect_release (hk : s.calls[k]? = some call) (hslot : call.pc.slot = some slot)
    (hnone : call'.pc.slot = none) : Effect s (dispose (setCall s k call') slot) := by
  have hgone : ∀ other, alive (setCall s k call') other = true → alive s other = true := by
    intro other
    refine alive_of_alive_setCall ?_
    rw [hnone]
    exact nofun
  have hother : ∀ other, other ≠ slot → alive s other = true →
      alive (setCall s k call') other = true := by
    intro other hne
    refine alive_setCall hk ?_
    rw [hslot]
    intro heq
    exact absurd (Option.some.inj heq).symm hne
  rcases dispose_cases (setCall s k call') slot with ⟨halive, heq⟩ | heq
  · rw [heq]
    refine ⟨Nat.le_refl _, fun _ _ => rfl, fun other _ => hgone other, fun other h => ?_⟩
    by_cases hne : other = slot
    · exact Or.inl (hne ▸ halive)
    · exact Or.inl (hother other hne h)
  · rw [heq]
    refine ⟨Nat.le_refl _, fun _ _ => rfl, fun other _ => hgone other, fun other h => ?_⟩
    by_cases hne : other = slot
    · exact Or.inr (List.mem_append_right _ (List.mem_singleton.mpr hne))
    · exact Or.inl (hother other hne h)

/-- A call goes on with the slot it has, if any. -/
theorem effect_setCall (hk : s.calls[k]? = some call)
    (hnew : ∀ slot, call'.pc.slot = some slot → alive s slot = true)
    (hold : ∀ slot, call.pc.slot = some slot → call'.pc.slot = some slot) :
    Effect s (setCall s k call') :=
  ⟨Nat.le_refl _, fun _ _ => rfl, fun slot _ => alive_of_alive_setCall (hnew slot),
    fun slot h => Or.inl (alive_setCall hk (hold slot) h)⟩

/-- No slot comes or goes. -/
theorem effect_same (himpls : s'.impls = s.impls)
    (halive : ∀ slot, alive s' slot = alive s slot) : Effect s s' := by
  refine ⟨Nat.le_of_eq (by rw [himpls]), ?_, ?_, ?_⟩
  · intro slot _
    rw [tieOf, tieOf, himpls]
  · intro slot _ hlive
    rwa [halive] at hlive
  · intro slot hlive
    rw [halive]
    exact Or.inl hlive

theorem alive_congr (himpls : s'.impls = s.impls) (hcalls : s'.calls = s.calls) (slot : ℕ) :
    alive s' slot = alive s slot := by
  rw [alive, alive, himpls, hcalls]

end Lifetime

structure CallOk (s : State) (k : ℕ) (call : Call) : Prop where
  view : call.pc ≠ .done → s.slots_.view k = some call.seen
  sorted : call.seen.Pairwise (· < ·)
  old : ∀ slot ∈ call.seen, slot < call.born
  born : call.born ≤ s.impls.length
  complete : ∀ slot < call.born, alive s slot = true → slot ∈ call.seen
  here : ∀ slot, call.pc.slot = some slot → call.seen[call.it]? = some slot
  ran : call.ran.Sublist (call.seen.take (call.it + if call.pc.isCalling then 1 else 0))
  passed : ∀ slot ∈ call.seen.take call.it, alive s slot = true → tieOf s slot = none →
    slot ∈ call.ran
  guard : ∀ slot guard, call.pc = .calling slot guard → guard = tieOf s slot
  called : ∀ slot guard, call.pc = .calling slot guard → slot ∈ call.ran
  ended : call.pc = .done → call.seen.length ≤ call.it

structure Inv (s : State) : Prop where
  sorted : s.slots_.value.Pairwise (· < ·)
  bound : ∀ slot ∈ s.slots_.value, slot < s.impls.length
  alive : ∀ slot, alive s slot = true → slot ∈ s.slots_.value
  gone : s.impl_ = true → ∀ slot ∈ s.slots_.value, SignalSlot.alive s slot = true ∨
    slot ∈ s.cleaning
  calls : ∀ k call, s.calls[k]? = some call → CallOk s k call

section Invariant

variable {s s' : State} {k slot : ℕ} {call call' : Call}

/-- A step that a call has no part in. -/
theorem CallOk.frame (h : CallOk s k call) (heffect : Effect s s')
    (hview : s'.slots_.view k = s.slots_.view k) : CallOk s' k call := by
  have hlt : ∀ slot ∈ call.seen, slot < s.impls.length := fun slot hslot =>
    Nat.lt_of_lt_of_le (h.old slot hslot) h.born
  refine ⟨?_, h.sorted, h.old, Nat.le_trans h.born heffect.grows, ?_, h.here, h.ran, ?_, ?_,
    h.called, h.ended⟩
  · intro hpc
    rw [hview]
    exact h.view hpc
  · intro slot hslot halive
    exact h.complete slot hslot (heffect.gone slot (Nat.lt_of_lt_of_le hslot h.born) halive)
  · intro slot hslot halive htie
    have hslot' := hlt slot (List.mem_of_mem_take hslot)
    refine h.passed slot hslot (heffect.gone slot hslot' halive) ?_
    rw [← heffect.ties slot hslot', htie]
  · intro slot guard hpc
    have hhere : call.seen[call.it]? = some slot := h.here slot (by rw [hpc]; rfl)
    rw [heffect.ties slot (hlt slot (List.mem_of_getElem? hhere))]
    exact h.guard slot guard hpc

/-- A slot that a call has. -/
theorem CallOk.lt (h : CallOk s k call) (hslot : call.pc.slot = some slot) :
    slot < s.impls.length :=
  Nat.lt_of_lt_of_le (h.old slot (List.mem_of_getElem? (h.here slot hslot))) h.born

theorem lt_of_alive (hcalls : ∀ k call, s.calls[k]? = some call → CallOk s k call)
    (h : alive s slot = true) : slot < s.impls.length := by
  rcases alive_iff.mp h with ⟨i, hi, -⟩ | ⟨c, hc, hslot⟩
  · exact (List.getElem?_eq_some_iff.mp hi).1
  · obtain ⟨k, hk⟩ := List.mem_iff_getElem?.mp hc
    exact (hcalls k c hk).lt hslot

/-- A step of others, which leaves the list or writes it, and ends no slot but as it
should. -/
theorem Inv.frame (h : Inv s) (heffect : Effect s s') (hcalls : s'.calls = s.calls)
    (hview : ∀ k, s'.slots_.view k = s.slots_.view k)
    (hsorted : s'.slots_.value.Pairwise (· < ·))
    (hbound : ∀ slot ∈ s'.slots_.value, slot < s'.impls.length)
    (halive : ∀ slot, SignalSlot.alive s' slot = true → slot ∈ s'.slots_.value)
    (hgone : s'.impl_ = true → ∀ slot ∈ s'.slots_.value,
      SignalSlot.alive s' slot = true ∨ slot ∈ s'.cleaning) : Inv s' := by
  refine ⟨hsorted, hbound, halive, hgone, ?_⟩
  rw [hcalls]
  intro k call hk
  exact (h.calls k call hk).frame heffect (hview k)

/-- A step that keeps the list. -/
theorem Inv.keep (h : Inv s) (heffect : Effect s s') (hcalls : s'.calls = s.calls)
    (hslots : s'.slots_ = s.slots_) (hlength : s'.impls.length = s.impls.length)
    (himpl : s'.impl_ = true → s.impl_ = true)
    (hcleaning : ∀ slot ∈ s.cleaning, slot ∈ s'.cleaning) : Inv s' := by
  have hvalue : s'.slots_.value = s.slots_.value := by rw [hslots]
  refine h.frame heffect hcalls (fun k => by rw [hslots]) ?_ ?_ ?_ ?_
  · rw [hvalue]
    exact h.sorted
  · rw [hvalue, hlength]
    exact h.bound
  · intro slot halive
    rw [hvalue]
    have hframe : ∀ k call, s'.calls[k]? = some call → CallOk s' k call := by
      rw [hcalls]
      intro k call hk
      exact (h.calls k call hk).frame heffect (by rw [hslots])
    have hlt := lt_of_alive hframe halive
    rw [hlength] at hlt
    exact h.alive slot (heffect.gone slot hlt halive)
  · rw [hvalue]
    intro hpl slot hslot
    rcases h.gone (himpl hpl) slot hslot with halive | hclean
    · exact heffect.goes slot halive
    · exact Or.inr (hcleaning slot hclean)

/-- A call goes on; the slots stay or go as they should. -/
theorem Inv.goOn (h : Inv s) (heffect : Effect s s')
    (hcalls : s'.calls = s.calls.set k call') (hvalue : s'.slots_.value = s.slots_.value)
    (hview : ∀ j, j ≠ k → s'.slots_.view j = s.slots_.view j)
    (himpls : s'.impls = s.impls) (himpl : s'.impl_ = s.impl_)
    (hcleaning : ∀ slot ∈ s.cleaning, slot ∈ s'.cleaning) (hcall : CallOk s' k call') :
    Inv s' := by
  have hall : ∀ j c, s'.calls[j]? = some c → CallOk s' j c := by
    intro j c hj
    rw [hcalls, List.getElem?_set] at hj
    split at hj
    · rename_i hkj
      subst hkj
      split at hj
      · cases hj
        exact hcall
      · cases hj
    · rename_i hkj
      exact (h.calls j c hj).frame heffect (hview j (Ne.symm hkj))
  refine ⟨?_, ?_, ?_, ?_, hall⟩
  · rw [hvalue]
    exact h.sorted
  · rw [hvalue, himpls]
    exact h.bound
  · intro slot halive
    rw [hvalue]
    have hlt := lt_of_alive hall halive
    rw [himpls] at hlt
    exact h.alive slot (heffect.gone slot hlt halive)
  · rw [hvalue, himpl]
    intro hpl slot hslot
    rcases h.gone hpl slot hslot with halive | hclean
    · exact heffect.goes slot halive
    · exact Or.inr (hcleaning slot hclean)

/-- The iterator moves on from a slot that it has called, or that it need not call. -/
theorem CallOk.advance (h : CallOk s k call) (heffect : Effect s s')
    (hview : s'.slots_.view k = s.slots_.view k) (hslot : call.seen[call.it]? = some slot)
    (hmust : alive s' slot = true → tieOf s' slot = none → slot ∈ call.ran) :
    CallOk s' k { call with pc := .next, it := call.it + 1 } := by
  have hframe := h.frame heffect hview
  have htake : call.seen.take (call.it + 1) = call.seen.take call.it ++ [slot] := by
    rw [List.take_add_one, hslot]
    rfl
  have hndone : call.pc ≠ .done := by
    intro hdone
    have hle := h.ended hdone
    have hlt := (List.getElem?_eq_some_iff.mp hslot).1
    omega
  refine ⟨fun _ => hframe.view hndone, h.sorted, h.old, hframe.born, hframe.complete, nofun, ?_, ?_,
    nofun, nofun, nofun⟩
  · refine h.ran.trans (List.take_sublist_take_left ?_)
    split <;> simp [Pc.isCalling]
  · intro other hother halive htie
    change other ∈ call.seen.take (call.it + 1) at hother
    rw [htake] at hother
    rcases List.mem_append.mp hother with hother | hother
    · exact hframe.passed other hother halive htie
    · obtain rfl := List.mem_singleton.mp hother
      exact hmust halive htie

/-- A call is through with a slot. -/
theorem Inv.passOn (h : Inv s) (hk : s.calls[k]? = some call) (hslot : call.pc.slot = some slot)
    (hmust : tieOf s slot = none → slot ∈ call.ran) :
    Inv (dispose (setCall s k { call with pc := .next, it := call.it + 1 }) slot) := by
  have hok := h.calls k call hk
  have heffect := effect_release hk hslot
    (show Pc.slot { call with pc := .next, it := call.it + 1 }.pc = none from rfl)
  obtain ⟨hslots, himpls, himpl, hcalls, hcleaning⟩ :=
    dispose_fields (setCall s k { call with pc := .next, it := call.it + 1 }) slot
  have hadvance := hok.advance heffect (by rw [hslots]; rfl) (hok.here slot hslot) (by
    intro _ htie
    rw [heffect.ties slot (hok.lt hslot)] at htie
    exact hmust htie)
  exact h.goOn heffect hcalls (by rw [hslots]; rfl) (fun _ _ => by rw [hslots]; rfl) himpls himpl
    hcleaning hadvance

/-- A call runs a callback. -/
theorem Inv.callback (h : Inv s) (hk : s.calls[k]? = some call) (hpc : call.pc = .locked slot) :
    Inv (setCall s k { call with pc := .calling slot (tieOf s slot)
                                 ran := call.ran ++ [slot] }) := by
  have hok := h.calls k call hk
  have hslot : call.pc.slot = some slot := by rw [hpc]; rfl
  have hhere := hok.here slot hslot
  have heffect : Effect s (setCall s k { call with pc := .calling slot (tieOf s slot)
                                                   ran := call.ran ++ [slot] }) := by
    refine effect_setCall hk ?_ ?_
    · rintro _ ⟨⟩
      exact alive_iff.mpr (Or.inr ⟨call, List.mem_of_getElem? hk, hslot⟩)
    · intro other hother
      rw [hslot] at hother
      exact hother
  have hframe := hok.frame heffect rfl
  refine h.goOn heffect rfl rfl (fun _ _ => rfl) rfl rfl (fun _ => id) ?_
  refine ⟨?_, hok.sorted, hok.old, hok.born, hframe.complete, ?_, ?_, ?_, ?_, ?_, nofun⟩
  · intro _
    exact hok.view (by simp [hpc])
  · rintro _ ⟨⟩
    exact hhere
  · have hran := hok.ran
    simp only [hpc, Pc.isCalling, Bool.false_eq_true, if_false, Nat.add_zero] at hran
    simp only [Pc.isCalling, if_true]
    rw [List.take_add_one, hhere]
    exact hran.append (List.Sublist.refl _)
  · intro other hother halive htie
    exact List.mem_append_left _ (hframe.passed other hother halive htie)
  · rintro _ _ ⟨⟩
    rfl
  · rintro _ _ ⟨⟩
    exact List.mem_append_right _ (List.mem_singleton_self slot)

/-- A call looks at the next slot of its list. -/
theorem Inv.look (h : Inv s) (hk : s.calls[k]? = some call) (hpc : call.pc = .next) :
    Inv (callStep s k call) := by
  have hok := h.calls k call hk
  have hview := hok.view (by simp [hpc])
  have hnone : call.pc.slot = none := by rw [hpc]; rfl
  unfold callStep
  rw [hpc]
  dsimp only
  rw [hview, Option.bind_some]
  split
  · rename_i hend
    have heffect : Effect s (setCall s k { call with pc := .done }) :=
      effect_setCall hk nofun (by simp [hnone])
    have heffect : Effect s { setCall s k { call with pc := .done } with
        slots_ := s.slots_.release k } :=
      ⟨heffect.grows, heffect.ties, heffect.gone, heffect.goes⟩
    refine h.goOn heffect rfl rfl ?_ rfl rfl (fun _ => id) ?_
    · intro j hj
      exact Cell.view_release_of_ne (Ne.symm hj) _
    · refine ⟨fun hndone => absurd rfl hndone, hok.sorted, hok.old, hok.born, ?_, nofun, ?_, ?_,
        nofun, nofun, ?_⟩
      · intro slot hslot halive
        exact hok.complete slot hslot (heffect.gone slot (Nat.lt_of_lt_of_le hslot hok.born) halive)
      · have hran := hok.ran
        rwa [hpc] at hran
      · intro slot hslot halive htie
        have hlt : slot < s.impls.length :=
          Nat.lt_of_lt_of_le (hok.old slot (List.mem_of_mem_take hslot)) hok.born
        exact hok.passed slot hslot (heffect.gone slot hlt halive) htie
      · intro _
        exact List.getElem?_eq_none_iff.mp hend
  · rename_i slot hslot
    split
    · rename_i halive
      have heffect : Effect s (setCall s k { call with pc := .locked slot }) := by
        refine effect_setCall hk ?_ (by simp [hnone])
        rintro _ ⟨⟩
        exact halive
      have hframe := hok.frame heffect rfl
      refine h.goOn heffect rfl rfl (fun _ _ => rfl) rfl rfl (fun _ => id) ?_
      refine ⟨fun _ => hview, hok.sorted, hok.old, hok.born, hframe.complete, ?_, ?_,
        hframe.passed, nofun, nofun, nofun⟩
      · rintro _ ⟨⟩
        exact hslot
      · have hran := hok.ran
        rwa [hpc] at hran
    · rename_i hgone
      have heffect : Effect s (setCall s k { call with pc := .next, it := call.it + 1 }) :=
        effect_setCall hk nofun (by simp [hnone])
      refine h.goOn heffect rfl rfl (fun _ _ => rfl) rfl rfl (fun _ => id) ?_
      refine hok.advance heffect rfl hslot ?_
      intro halive
      have hlt : slot < s.impls.length :=
        Nat.lt_of_lt_of_le (hok.old slot (List.mem_of_getElem? hslot)) hok.born
      exact absurd (heffect.gone slot hlt halive) hgone

theorem callStep_inv (h : Inv s) (hk : s.calls[k]? = some call) : Inv (callStep s k call) := by
  cases hpc : call.pc with
  | next => exact h.look hk hpc
  | locked slot =>
    unfold callStep
    rw [hpc]
    dsimp only
    have hslot : call.pc.slot = some slot := by rw [hpc]; rfl
    split
    · rename_i htie
      exact htie ▸ h.callback hk hpc
    · rename_i object htie
      split
      · exact htie ▸ h.callback hk hpc
      · refine h.passOn hk hslot ?_
        rw [htie]
        exact nofun
  | calling slot guard =>
    unfold callStep
    rw [hpc]
    refine h.passOn hk (by rw [hpc]; rfl) fun _ => ?_
    exact (h.calls k call hk).called slot guard hpc
  | done =>
    unfold callStep
    rw [hpc]
    exact h

/-- `assert(slots_.unique())` holds, and the calls do not see the change. -/
theorem change_eq (s : State) (f : List ℕ → List ℕ) :
    change s f = .ok { s with slots_ := s.slots_.copyOnWrite.modify f } := by
  unfold change
  dsimp only
  rw [require_pos _ s.slots_.unique_copyOnWrite]
  rfl

theorem view_change (c : Cell (List ℕ) ℕ) (f : List ℕ → List ℕ) (k : ℕ) :
    (c.copyOnWrite.modify f).view k = c.view k := by
  rw [Cell.view_modify c.unique_copyOnWrite, Cell.view_copyOnWrite]

theorem connect_inv (h : Inv s) {tie : Option ℕ}
    (hs' : s' = { s with impls := s.impls ++ [⟨1, tie⟩]
                         slots_ := s.slots_.copyOnWrite.modify (· ++ [s.impls.length]) }) :
    Inv s' := by
  have hcalls : s'.calls = s.calls := by rw [hs']
  have himpls : s'.impls = s.impls ++ [⟨1, tie⟩] := by rw [hs']
  have hview : ∀ k, s'.slots_.view k = s.slots_.view k := fun k => by rw [hs', view_change]
  have hvalue : s'.slots_.value = s.slots_.value ++ [s.impls.length] := by simp [hs']
  have hlength : s'.impls.length = s.impls.length + 1 := by simp [himpls]
  have hold : ∀ slot < s.impls.length, s'.impls[slot]? = s.impls[slot]? := by
    intro slot hslot
    rw [himpls]
    exact List.getElem?_append_left hslot
  have halive : ∀ slot < s.impls.length, alive s' slot = alive s slot := by
    intro slot hslot
    rw [SignalSlot.alive, SignalSlot.alive, hold slot hslot, hcalls]
  have heffect : Effect s s' := by
    refine ⟨by omega, ?_, ?_, ?_⟩
    · intro slot hslot
      rw [tieOf, tieOf, hold slot hslot]
    · intro slot hslot hlive
      rwa [halive slot hslot] at hlive
    · intro slot hlive
      rw [halive slot (lt_of_alive h.calls hlive)]
      exact Or.inl hlive
  refine h.frame heffect hcalls hview ?_ ?_ ?_ ?_
  · rw [hvalue, List.pairwise_append]
    refine ⟨h.sorted, List.pairwise_singleton _ _, ?_⟩
    intro slot hslot last hlast
    obtain rfl := List.mem_singleton.mp hlast
    exact h.bound slot hslot
  · rw [hvalue, hlength]
    intro slot hslot
    rcases List.mem_append.mp hslot with hslot | hslot
    · exact Nat.lt_add_right _ (h.bound slot hslot)
    · obtain rfl := List.mem_singleton.mp hslot
      exact Nat.lt_add_one _
  · rw [hvalue]
    intro slot hlive
    have hlt : slot < s'.impls.length := by
      refine lt_of_alive ?_ hlive
      rw [hcalls]
      intro k call hk
      exact (h.calls k call hk).frame heffect (hview k)
    rw [hlength] at hlt
    rcases Nat.lt_succ_iff_lt_or_eq.mp hlt with hlt | rfl
    · rw [halive slot hlt] at hlive
      exact List.mem_append_left _ (h.alive slot hlive)
    · exact List.mem_append_right _ (List.mem_singleton_self _)
  · rw [hvalue]
    intro himpl slot hslot
    rcases List.mem_append.mp hslot with hslot | hslot
    · rcases h.gone (by rwa [hs'] at himpl) slot hslot with hlive | hclean
      · exact heffect.goes slot hlive
      · exact Or.inr (by rwa [hs'])
    · obtain rfl := List.mem_singleton.mp hslot
      exact Or.inl (alive_iff.mpr (Or.inl ⟨⟨1, tie⟩, by simp [himpls], Nat.one_pos⟩))

/-- Handles of a slot that has one are made or destroyed. -/
theorem alive_setHandles (f : ℕ → ℕ) (hhandle : s.impls[slot]?.any (fun i => 0 < i.handles) = true)
    (other : ℕ) :
    tieOf (setHandles s slot f) other = tieOf s other ∧
      (alive (setHandles s slot f) other = true → alive s other = true) ∧
      ((other = slot → ∀ n, 0 < f n) → alive s other = true →
        alive (setHandles s slot f) other = true) := by
  obtain ⟨impl, himpl, hpos⟩ : ∃ impl, s.impls[slot]? = some impl ∧ 0 < impl.handles := by
    cases hslot : s.impls[slot]? <;> simp_all
  have hcalls : (setHandles s slot f).calls = s.calls := rfl
  by_cases hslot : other = slot
  · subst hslot
    have hnew : (setHandles s other f).impls[other]? =
        some { impl with handles := f impl.handles } := by
      simp [setHandles, himpl]
    refine ⟨?_, ?_, ?_⟩
    · rw [tieOf, tieOf, hnew, himpl]
      rfl
    · intro _
      exact alive_iff.mpr (Or.inl ⟨impl, himpl, hpos⟩)
    · intro hf _
      exact alive_iff.mpr (Or.inl ⟨_, hnew, hf rfl _⟩)
  · have hsame : (setHandles s slot f).impls[other]? = s.impls[other]? := by
      simp [setHandles, Ne.symm hslot]
    rw [tieOf, tieOf, SignalSlot.alive, SignalSlot.alive, hsame, hcalls]
    exact ⟨rfl, id, fun _ => id⟩

theorem copySlot_inv (h : Inv s)
    (hhandle : s.impls[slot]?.any (fun i => 0 < i.handles) = true) :
    Inv (setHandles s slot (· + 1)) := by
  have hslots := alive_setHandles (· + 1) hhandle
  have heffect : Effect s (setHandles s slot (· + 1)) := by
    refine ⟨by simp [setHandles], fun other _ => (hslots other).1,
      fun other _ => (hslots other).2.1,
      fun other hlive => Or.inl ((hslots other).2.2 (fun _ n => Nat.succ_pos n) hlive)⟩
  exact h.keep heffect rfl rfl (by simp [setHandles]) id fun _ => id

theorem dropSlot_inv (h : Inv s)
    (hhandle : s.impls[slot]?.any (fun i => 0 < i.handles) = true) :
    Inv (dispose (setHandles s slot (· - 1)) slot) := by
  have hslots := alive_setHandles (· - 1) hhandle
  obtain ⟨hs, himpls, himpl, hcalls, hcleaning⟩ := dispose_fields (setHandles s slot (· - 1)) slot
  have hsame := alive_congr himpls hcalls
  have heffect : Effect s (dispose (setHandles s slot (· - 1)) slot) := by
    refine ⟨by simp [setHandles], ?_, ?_, ?_⟩
    · intro other _
      rw [← (hslots other).1, tieOf, tieOf, himpls]
    · intro other _ hlive
      rw [hsame] at hlive
      exact (hslots other).2.1 hlive
    · intro other hlive
      rw [hsame]
      by_cases hne : other = slot
      · subst hne
        rcases dispose_cases (setHandles s other (· - 1)) other with ⟨halive, -⟩ | heq
        · exact Or.inl halive
        · rw [heq]
          exact Or.inr (List.mem_append_right _ (List.mem_singleton_self _))
      · exact Or.inl ((hslots other).2.2 (fun heq => absurd heq hne) hlive)
  exact h.keep heffect hcalls hs (by simp [setHandles]) (fun hpl => himpl ▸ hpl) hcleaning

/-- The destructor of a slot has the list cleaned. -/
theorem clean_inv (h : Inv s) {cleaning : List ℕ}
    (hs' : s' = { s with cleaning := cleaning
                         slots_ := s.slots_.copyOnWrite.modify (List.filter (alive s)) }) :
    Inv s' := by
  have hcalls : s'.calls = s.calls := by rw [hs']
  have himpls : s'.impls = s.impls := by rw [hs']
  have hvalue : s'.slots_.value = s.slots_.value.filter (alive s) := by simp [hs']
  have halive := alive_congr himpls hcalls
  have heffect := effect_same himpls halive
  refine h.frame heffect hcalls (fun k => by rw [hs', view_change]) ?_ ?_ ?_ ?_
  · rw [hvalue]
    exact h.sorted.filter _
  · rw [hvalue, himpls]
    intro slot hslot
    exact h.bound slot (List.mem_of_mem_filter hslot)
  · rw [hvalue]
    intro slot hlive
    rw [halive] at hlive
    exact List.mem_filter.mpr ⟨h.alive slot hlive, hlive⟩
  · rw [hvalue]
    intro _ slot hslot
    rw [halive]
    exact Or.inl (List.mem_filter.mp hslot).2

/-- A call takes the list as it is. -/
theorem call_inv (h : Inv s)
    (hs' : s' = { s with
      slots_ := s.slots_.snapshot s.calls.length
      calls := s.calls ++ [⟨.next, 0, s.impls.length, s.slots_.value, []⟩] }) : Inv s' := by
  have hcalls : s'.calls = s.calls ++ [⟨.next, 0, s.impls.length, s.slots_.value, []⟩] := by
    rw [hs']
  have himpls : s'.impls = s.impls := by rw [hs']
  have hvalue : s'.slots_.value = s.slots_.value := by rw [hs', Cell.value_snapshot]
  have hcleaning : s'.cleaning = s.cleaning := by rw [hs']
  have halive : ∀ slot, alive s' slot = alive s slot := by
    intro slot
    rw [SignalSlot.alive, SignalSlot.alive, himpls, hcalls, List.any_append]
    simp [Pc.slot]
  have heffect := effect_same himpls halive
  refine ⟨hvalue ▸ h.sorted, ?_, ?_, ?_, ?_⟩
  · rw [hvalue, himpls]
    exact h.bound
  · rw [hvalue]
    intro slot hlive
    rw [halive] at hlive
    exact h.alive slot hlive
  · rw [hvalue, hcleaning]
    intro himpl slot hslot
    rw [halive]
    exact h.gone (by rwa [hs'] at himpl) slot hslot
  · intro k call hk
    rw [hcalls] at hk
    rcases Nat.lt_or_ge k s.calls.length with hlt | hge
    · rw [List.getElem?_append_left hlt] at hk
      refine (h.calls k call hk).frame heffect ?_
      rw [hs', Cell.view_snapshot_of_ne (Nat.ne_of_gt hlt)]
    · rw [List.getElem?_append_right hge, List.getElem?_singleton] at hk
      split at hk
      · rename_i hzero
        cases hk
        obtain rfl : k = s.calls.length := by omega
        refine ⟨?_, h.sorted, h.bound, Nat.le_of_eq (by rw [himpls]), ?_, nofun, List.nil_sublist _,
          by simp, nofun, nofun, nofun⟩
        · intro _
          rw [hs', Cell.view_snapshot_self]
        · intro slot _ hlive
          rw [halive] at hlive
          exact h.alive slot hlive
      · cases hk

theorem step_inv {i : Input} (h : Inv s) (hallow : Allowed s i) (hexec : exec s i = .ok s') :
    Inv s' := by
  cases i with
  | connect tie =>
    rw [exec, change_eq] at hexec
    cases hexec
    exact connect_inv h rfl
  | copySlot slot =>
    cases hexec
    exact copySlot_inv h hallow
  | dropSlot slot =>
    cases hexec
    exact dropSlot_inv h hallow
  | clean slot =>
    simp only [exec] at hexec
    split at hexec
    · rw [change_eq] at hexec
      cases hexec
      exact clean_inv h rfl
    · rename_i himpl
      cases hexec
      -- the signal has gone, and nobody cleans the list
      exact h.frame (effect_same rfl fun _ => rfl) rfl (fun _ => rfl) h.sorted h.bound h.alive
        fun hpl => absurd hpl himpl
  | newTie =>
    cases hexec
    exact h.keep (effect_same rfl fun _ => rfl) rfl rfl rfl id fun _ => id
  | dropTie object =>
    cases hexec
    exact h.keep (effect_same rfl fun _ => rfl) rfl rfl rfl id fun _ => id
  | call =>
    cases hexec
    exact call_inv h rfl
  | step k =>
    simp only [exec] at hexec
    split at hexec
    · rename_i call hk
      cases hexec
      exact callStep_inv h hk
    · cases hexec
      exact h
  | destroy =>
    cases hexec
    exact h.keep (effect_same rfl fun _ => rfl) rfl rfl rfl nofun fun _ => id

theorem reach_inv (h : Reachable system s) : Inv s := by
  refine h.invariant ?_ ?_
  · rintro _ rfl
    exact ⟨List.Pairwise.nil, nofun, fun slot hlive => by simp [SignalSlot.alive, initial] at hlive,
      nofun, nofun⟩
  · intro s i s' hinv hallow _ hexec
    exact step_inv hinv hallow hexec

theorem exec_succeeds (s : State) (i : Input) : ∃ s', exec s i = .ok s' := by
  cases i with
  | connect tie => exact ⟨_, change_eq _ _⟩
  | clean slot =>
    simp only [exec]
    split
    · exact ⟨_, change_eq _ _⟩
    · exact ⟨_, rfl⟩
  | step k =>
    simp only [exec]
    split <;> exact ⟨_, rfl⟩
  | copySlot slot | dropSlot slot | newTie | dropTie object | call | destroy => exact ⟨_, rfl⟩

end Invariant

/-- In every run of a signal, with any number of threads that connect and drop
slots and call: no assertion fails; the list has the slots in the order in which
they were connected, each once, all that are alive are in it, and the others wait
for a destructor; a call calls slots in that order, each at most once, and none
that was connected after it began; a slot is alive during its callback, and so is
the object it is tied to; and a call that has ended has called every slot that was
connected when it began and is alive, tied ones apart. -/
theorem signal_law {s : State} (h : Reachable system s) :
    (∀ i, ∃ s', exec s i = .ok s') ∧
      s.slots_.value.Pairwise (· < ·) ∧
      (∀ slot, alive s slot = true → slot ∈ s.slots_.value) ∧
      (s.impl_ = true → ∀ slot ∈ s.slots_.value, alive s slot = true ∨ slot ∈ s.cleaning) ∧
      ∀ call ∈ s.calls, call.ran.Pairwise (· < ·) ∧ (∀ slot ∈ call.ran, slot < call.born) ∧
        (∀ slot guard, call.pc = .calling slot guard → alive s slot = true ∧
          ∀ object, tieOf s slot = some object → tieAlive s object = true) ∧
        (call.pc = .done → ∀ slot < call.born, alive s slot = true → tieOf s slot = none →
          slot ∈ call.ran) := by
  have hinv := reach_inv h
  refine ⟨exec_succeeds s, hinv.sorted, hinv.alive, hinv.gone, ?_⟩
  intro call hcall
  obtain ⟨k, hk⟩ := List.mem_iff_getElem?.mp hcall
  have hok := hinv.calls k call hk
  have hsub : call.ran.Sublist call.seen := hok.ran.trans (List.take_sublist _ _)
  refine ⟨hok.sorted.sublist hsub, fun slot hslot => hok.old slot (hsub.subset hslot), ?_, ?_⟩
  · intro slot guard hpc
    refine ⟨alive_iff.mpr (Or.inr ⟨call, hcall, by rw [hpc]; rfl⟩), ?_⟩
    intro object htie
    rw [tieAlive, Bool.or_eq_true, List.any_eq_true]
    refine Or.inr ⟨call, hcall, ?_⟩
    rw [hpc, hok.guard slot guard hpc, htie]
    exact beq_self_eq_true _
  · intro hdone slot hslot hlive htie
    refine hok.passed slot ?_ hlive htie
    rw [List.take_of_length_le (hok.ended hdone)]
    exact hok.complete slot hslot hlive

/-- The first slot loses its handle while its callback runs; a third slot is
connected meanwhile, and the second one is tied to an object that has gone. -/
def busySignal : List Input :=
  [.newTie, .connect none, .connect (some 0), .connect none, .call, .step 0, .step 0, .dropSlot 0,
    .dropTie 0, .connect none, .step 0, .step 0, .step 0, .step 0, .clean 0, .step 0, .step 0,
    .step 0]

theorem busySignal_law :
    ∃ (s : State) (call : Call), Reachable system s ∧ s.calls = [call] ∧ call.pc = .done ∧
      call.ran = [0, 2] ∧ s.slots_.value = [1, 2, 3] ∧
      ∀ slot < 3, alive s slot = true → tieOf s slot = none → slot ∈ call.ran := by
  obtain ⟨s, hs, htest⟩ := exists_of_replay (M := system) (s := initial) Free rfl busySignal
    (fun s => decide (s.calls = [⟨.done, 3, 3, [0, 1, 2], [0, 2]⟩] ∧ s.slots_.value = [1, 2, 3]))
    (by decide)
  obtain ⟨hcalls, hvalue⟩ := of_decide_eq_true htest
  obtain ⟨-, -, -, -, hlaw⟩ := signal_law hs
  have hcall := hlaw ⟨.done, 3, 3, [0, 1, 2], [0, 2]⟩ (by rw [hcalls]; exact List.mem_cons_self)
  exact ⟨s, _, hs, hcalls, rfl, rfl, hvalue, hcall.2.2.2 rfl⟩

end TinyMuduo.SignalSlot
