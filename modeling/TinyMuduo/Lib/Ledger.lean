import Mathlib.Data.List.Basic

/-!
A ledger of resources whose names are reused. Creating a resource opens a new
record; every other effect concerns the newest record of its name, as a system
call concerns whatever the descriptor denotes at that moment. A resource may be
attached to an owner, and it ends by being released or transferred. `Balanced`
says that every resource has ended once and in one way, except for the one that
is attached.
-/
namespace TinyMuduo.Ledger

inductive Effect (α : Type*)
  | create (name : α)
  | attach (name : α)
  | detach (name : α)
  | release (name : α)
  | transfer (name : α)
  deriving DecidableEq

structure Record (α : Type*) where
  name : α
  attached : Bool
  transferred : ℕ
  released : ℕ
  /-- it was released or transferred while it was attached -/
  misused : Bool
  deriving DecidableEq

variable {α : Type*}

namespace Record

/-- The resource is attached to its owner and has not ended. -/
def Owned (k : Record α) : Prop :=
  k.attached = true ∧ k.transferred = 0 ∧ k.released = 0 ∧ k.misused = false

/-- The resource has ended, once and in one way. -/
def Settled (k : Record α) : Prop :=
  k.attached = false ∧ k.misused = false ∧
    (k.transferred = 1 ∧ k.released = 0 ∨ k.transferred = 0 ∧ k.released = 1)

end Record

/-- Every resource is settled, except the one that the owner holds. -/
def Balanced (ledger : List (Record α)) : Option α → Prop
  | none => ∀ k ∈ ledger, k.Settled
  | some name => ∃ newer k older, ledger = newer ++ k :: older ∧ k.name = name ∧ k.Owned ∧
      (∀ j ∈ newer, j.Settled ∧ j.name ≠ name) ∧ ∀ j ∈ older, j.Settled

def released (ledger : List (Record α)) : List α :=
  ledger.flatMap fun k => List.replicate k.released k.name

def transferred (ledger : List (Record α)) : List α :=
  ledger.flatMap fun k => List.replicate k.transferred k.name

variable {ledger newer older : List (Record α)} {k : Record α} {name : α} {owner : Option α}

namespace Balanced

/-- One record of the ledger is replaced by a settled one. -/
theorem replace (hnewer : ∀ j ∈ newer, j.Settled) (holder : ∀ j ∈ older, j.Settled)
    (hk : k.Settled) : Balanced (newer ++ k :: older) none := by
  intro j hj
  rcases List.mem_append.mp hj with hj | hj
  · exact hnewer j hj
  · rcases List.mem_cons.mp hj with rfl | hj
    · exact hk
    · exact holder j hj

/-- Every resource is the held one or settled. -/
theorem owned_or_settled (h : Balanced ledger owner) (hk : k ∈ ledger) :
    (k.Owned ∧ owner = some k.name) ∨ k.Settled := by
  cases owner with
  | none => exact Or.inr (h k hk)
  | some name =>
    obtain ⟨newer, held, older, rfl, rfl, howned, hnewer, holder⟩ := h
    rcases List.mem_append.mp hk with hk | hk
    · exact Or.inr (hnewer k hk).1
    · rcases List.mem_cons.mp hk with rfl | hk
      · exact Or.inl ⟨howned, rfl⟩
      · exact Or.inr (holder k hk)

/-- What the owner holds is in the ledger. -/
theorem exists_owned (h : Balanced ledger (some name)) :
    ∃ k ∈ ledger, k.Owned ∧ k.name = name := by
  obtain ⟨newer, k, older, rfl, hname, howned, -⟩ := h
  exact ⟨k, by simp, howned, hname⟩

theorem countP_settled (h : ∀ j ∈ ledger, j.Settled) : ledger.countP (·.attached) = 0 := by
  rw [List.countP_eq_zero]
  intro j hj
  simp [(h j hj).1]

/-- At most one resource is attached. -/
theorem countP_attached_le (h : Balanced ledger owner) : ledger.countP (·.attached) ≤ 1 := by
  cases owner with
  | none => simp [countP_settled h]
  | some name =>
    obtain ⟨newer, held, older, rfl, -, howned, hnewer, holder⟩ := h
    rw [List.countP_append, List.countP_cons, countP_settled fun j hj => (hnewer j hj).1,
      countP_settled holder]
    simp [howned.1]

end Balanced

section Effects

variable [DecidableEq α]

/-- Change the newest record of a name; the newest ones are in front. -/
def newest (f : Record α → Record α) (name : α) : List (Record α) → List (Record α)
  | [] => []
  | k :: rest => if k.name = name then f k :: rest else k :: newest f name rest

def apply (ledger : List (Record α)) : Effect α → List (Record α)
  | .create name => ⟨name, false, 0, 0, false⟩ :: ledger
  | .attach name => newest (fun k => { k with attached := true }) name ledger
  | .detach name => newest (fun k => { k with attached := false }) name ledger
  | .release name => newest
      (fun k => { k with released := k.released + 1, misused := k.misused || k.attached })
      name ledger
  | .transfer name => newest
      (fun k => { k with transferred := k.transferred + 1, misused := k.misused || k.attached })
      name ledger

def run (ledger : List (Record α)) (effects : List (Effect α)) : List (Record α) :=
  effects.foldl apply ledger

theorem newest_append (f : Record α → Record α) (hnewer : ∀ j ∈ newer, j.name ≠ name)
    (hname : k.name = name) :
    newest f name (newer ++ k :: older) = newer ++ f k :: older := by
  induction newer with
  | nil => simp [newest, hname]
  | cons j rest ih =>
    have hj : j.name ≠ name := hnewer j List.mem_cons_self
    rw [List.cons_append, newest, if_neg hj, ih fun i hi => hnewer i (List.mem_cons_of_mem _ hi)]
    rfl

theorem run_discard (name : α) :
    run ledger [.create name, .release name] = ⟨name, false, 0, 1, false⟩ :: ledger := by
  simp [run, apply, newest]

theorem run_attach (name : α) :
    run ledger [.create name, .attach name] = ⟨name, true, 0, 0, false⟩ :: ledger := by
  simp [run, apply, newest]

/-- What happens to the held record when it is detached and then ends. -/
theorem run_detach (hnewer : ∀ j ∈ newer, j.name ≠ k.name) (e : Effect α)
    {f : Record α → Record α} (he : ∀ ledger, apply ledger e = newest f k.name ledger) :
    run (newer ++ k :: older) [.detach k.name, e] =
      newer ++ f { k with attached := false } :: older := by
  have hdetach : apply (newer ++ k :: older) (.detach k.name) =
      newer ++ { k with attached := false } :: older := newest_append _ hnewer rfl
  rw [run, List.foldl_cons, List.foldl_cons, List.foldl_nil, hdetach, he]
  exact newest_append _ hnewer rfl

namespace Balanced

/-- A resource that is released at once. -/
theorem discard (h : Balanced ledger owner) (hname : owner ≠ some name) :
    Balanced (run ledger [.create name, .release name]) owner := by
  have hsettled : (⟨name, false, 0, 1, false⟩ : Record α).Settled :=
    ⟨rfl, rfl, Or.inr ⟨rfl, rfl⟩⟩
  rw [run_discard]
  cases owner with
  | none =>
    intro j hj
    rcases List.mem_cons.mp hj with rfl | hj
    · exact hsettled
    · exact h j hj
  | some held =>
    obtain ⟨newer, k, older, rfl, hk, howned, hnewer, holder⟩ := h
    refine ⟨_ :: newer, k, older, rfl, hk, howned, ?_, holder⟩
    intro j hj
    rcases List.mem_cons.mp hj with rfl | hj
    · exact ⟨hsettled, fun heq => hname (by rw [← heq])⟩
    · exact hnewer j hj

theorem attach (h : Balanced ledger none) (name : α) :
    Balanced (run ledger [.create name, .attach name]) (some name) := by
  rw [run_attach]
  exact ⟨[], _, ledger, rfl, rfl, ⟨rfl, rfl, rfl, rfl⟩, by simp, h⟩

theorem release (h : Balanced ledger (some name)) :
    Balanced (run ledger [.detach name, .release name]) none ∧
      (released (run ledger [.detach name, .release name])).Perm (name :: released ledger) ∧
      transferred (run ledger [.detach name, .release name]) = transferred ledger := by
  obtain ⟨newer, k, older, rfl, rfl, ⟨-, htransferred, hreleased, hmisused⟩, hnewer, holder⟩ := h
  rw [run_detach (fun j hj => (hnewer j hj).2) _ fun _ => rfl]
  refine ⟨replace (fun j hj => (hnewer j hj).1) holder ⟨rfl, ?_, Or.inr ⟨?_, ?_⟩⟩, ?_, ?_⟩
  · simp [hmisused]
  · exact htransferred
  · simp [hreleased]
  · simp only [released, List.flatMap_append, List.flatMap_cons, hreleased, Nat.zero_add,
      List.replicate_one, List.replicate_zero, List.nil_append, List.singleton_append]
    exact List.perm_middle
  · simp [transferred]

theorem transfer (h : Balanced ledger (some name)) :
    Balanced (run ledger [.detach name, .transfer name]) none ∧
      released (run ledger [.detach name, .transfer name]) = released ledger ∧
      (transferred (run ledger [.detach name, .transfer name])).Perm
        (name :: transferred ledger) := by
  obtain ⟨newer, k, older, rfl, rfl, ⟨-, htransferred, hreleased, hmisused⟩, hnewer, holder⟩ := h
  rw [run_detach (fun j hj => (hnewer j hj).2) _ fun _ => rfl]
  refine ⟨replace (fun j hj => (hnewer j hj).1) holder ⟨rfl, ?_, Or.inl ⟨?_, ?_⟩⟩, ?_, ?_⟩
  · simp [hmisused]
  · simp [htransferred]
  · exact hreleased
  · simp [released]
  · simp only [transferred, List.flatMap_append, List.flatMap_cons, htransferred, Nat.zero_add,
      List.replicate_one, List.replicate_zero, List.nil_append, List.singleton_append]
    exact List.perm_middle

end Balanced

end Effects

end TinyMuduo.Ledger
