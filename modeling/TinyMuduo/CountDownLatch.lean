import TinyMuduo.Fault
import TinyMuduo.Lib.Monitor

/-!
The CountDownLatch. Only the call that takes the count to zero notifies, and it
notifies all; since a thread goes to sleep only while the count is positive,
nobody sleeps on an open latch, also when the count goes on below zero.
-/
namespace TinyMuduo.CountDownLatch

open Monitor Runs

inductive Op
  | wait
  | countDown
  | getCount
  deriving DecidableEq

inductive Cond
  | condition
  deriving DecidableEq

/-- The operations on `count_`, an int; a result is what `getCount` returns. -/
def program : Program ℤ Op Cond (Option ℤ) Fault where
  loop
    | .wait => some (.condition, fun count_ => decide (0 < count_))
    | .countDown | .getCount => none
  body
    | .wait, count_ => .ok (count_, none, .silent)
    | .countDown, count_ =>
        if count_ = -2147483648 then .error .intOverflow
        else .ok (count_ - 1, none, if count_ - 1 = 0 then .notifyAll .condition else .silent)
    | .getCount, count_ => .ok (count_, some count_, .silent)

/-- An open latch lets any number of threads pass. -/
noncomputable def room (_ : Cond) (count_ : ℤ) : ℕ∞ := if 0 < count_ then 0 else ⊤

theorem countDown_cases {count_ count' : ℤ} {r : Option ℤ} {signal : Signal Cond}
    (h : program.body .countDown count_ = .ok (count', r, signal)) :
    count' = count_ - 1 ∧
      signal = if count_ - 1 = 0 then .notifyAll .condition else .silent := by
  simp only [program] at h
  split at h
  · cases h
  · cases h
    exact ⟨rfl, rfl⟩

theorem counts : Counts program room where
  closed := by
    intro op c test count_ hloop
    cases op with
    | wait =>
      cases hloop
      by_cases hcount : 0 < count_ <;> simp [room, hcount]
    | countDown => cases hloop
    | getCount => cases hloop
  grows := by
    intro op count_ count' r signal c _ hbody
    cases op with
    | wait =>
      cases hbody
      exact le_self_add
    | getCount =>
      cases hbody
      exact le_self_add
    | countDown =>
      obtain ⟨rfl, rfl⟩ := countDown_cases hbody
      by_cases hcount : 0 < count_
      · by_cases hzero : count_ - 1 = 0
        · simp [hzero, Signal.wakes]
        · have hstill : 0 < count_ - 1 := by omega
          rw [room, if_pos hstill]
          exact zero_le
      · simp [room, hcount]
  uses := by
    intro op c test count_ count' r signal hloop hpass _ hfinite
    cases op with
    | wait =>
      cases hloop
      by_cases hcount : 0 < count_
      · simp [Program.blocked, program, hcount] at hpass
      · simp [room, hcount] at hfinite
    | countDown => cases hloop
    | getCount => cases hloop

def countDowns (done : List (ℕ × Op × Option ℤ)) : ℕ := done.countP fun e => e.2.1 = .countDown

theorem countDowns_snoc (past : List (ℕ × Op × Option ℤ)) (thread : ℕ) (op : Op) (r : Option ℤ) :
    countDowns (past ++ [(thread, op, r)]) =
      countDowns past + if op = .countDown then 1 else 0 := by
  simp [countDowns, List.countP_append, List.countP_cons]

/-- Every `wait` that has returned had enough calls of `countDown` before it. -/
def Opened (count : ℤ) (done : List (ℕ × Op × Option ℤ)) : Prop :=
  ∀ before thread r after, done = before ++ (thread, .wait, r) :: after →
    count ≤ countDowns before

theorem Opened.snoc {count : ℤ} {past : List (ℕ × Op × Option ℤ)} {e : ℕ × Op × Option ℤ}
    (h : Opened count past) (hlast : e.2.1 = .wait → count ≤ countDowns past) :
    Opened count (past ++ [e]) := by
  intro before thread r after hsplit
  rcases List.eq_nil_or_concat after with rfl | ⟨init, last, rfl⟩
  · obtain ⟨rfl, he⟩ := List.append_inj' hsplit rfl
    cases he
    exact hlast rfl
  · rw [List.concat_eq_append, ← List.cons_append, ← List.append_assoc] at hsplit
    obtain ⟨rfl, -⟩ := List.append_inj' hsplit rfl
    exact h before thread r init rfl

theorem reach_history {count : ℤ} {s : State ℤ Op (Option ℤ)}
    (h : Reachable (system program count) s) :
    s.shared = count - countDowns s.done ∧ Opened count s.done := by
  refine history_invariant (I := fun count_ past => count_ = count - countDowns past ∧
    Opened count past) ⟨by simp [countDowns], by simp [Opened]⟩ ?_ h
  rintro count_ past thread op count' r signal ⟨hcount, hopened⟩ hpass hbody
  rw [countDowns_snoc]
  cases op with
  | wait =>
    cases hbody
    have hopen : ¬ 0 < count_ := by
      intro hpos
      simp [Program.blocked, program, hpos] at hpass
    exact ⟨by simpa using hcount, hopened.snoc fun _ => by omega⟩
  | getCount =>
    cases hbody
    exact ⟨by simpa using hcount, hopened.snoc fun hwait => by cases hwait⟩
  | countDown =>
    obtain ⟨rfl, -⟩ := countDown_cases hbody
    refine ⟨?_, hopened.snoc fun hwait => by cases hwait⟩
    rw [if_pos rfl]
    omega

/-- In every run of any number of threads, a `wait` returns only after as many
calls of `countDown` as the latch was made for; and once so many have returned,
no thread sleeps in `wait`, and every thread that takes the mutex passes. -/
theorem countDownLatch_law {count : ℤ} {s : State ℤ Op (Option ℤ)}
    (h : Reachable (system program count) s) :
    Opened count s.done ∧
      (count ≤ countDowns s.done → s.asleep = [] ∧ ∀ op, program.blocked op s.shared = none) := by
  obtain ⟨hcount, hopened⟩ := reach_history h
  refine ⟨hopened, fun hopen => ?_⟩
  have hzero : ¬ 0 < s.shared := by omega
  constructor
  · rw [List.eq_nil_iff_forall_not_mem]
    intro p hp
    have hon : program.on .condition p = true := by
      have hloop := waiting_loop h p (List.mem_append_left _ hp)
      obtain ⟨thread, op⟩ := p
      cases op with
      | wait => rfl
      | countDown => cases hloop
      | getCount => cases hloop
    have hcovered := reach_covered counts h .condition (List.countP_pos_iff.mpr ⟨p, hp, hon⟩)
    simp [room, hzero] at hcovered
  · intro op
    cases op with
    | wait => simp [Program.blocked, program, hzero]
    | countDown => rfl
    | getCount => rfl

/-- Two threads wait for two calls; a third one counts below zero. -/
def pastZeroRun : List (Input Op) :=
  [.call 1 .wait, .enter 0 0, .call 2 .wait, .enter 0 0, .call 3 .countDown, .enter 0 0,
    .spurious 0, .resume 0 0, .call 3 .countDown, .enter 0 0, .resume 0 0, .call 3 .countDown,
    .enter 0 0, .resume 0 0]

theorem pastZeroRun_opened :
    ∃ s, Reachable (system program 2) s ∧ s.shared = -1 ∧ Opened 2 s.done ∧ s.asleep = [] := by
  obtain ⟨s, hs, htest⟩ := exists_of_replay (M := system program 2) (s := .initial 2) Free rfl
    pastZeroRun (fun s => decide (s.shared = -1 ∧ countDowns s.done = 3)) (by decide)
  obtain ⟨hcount, hdowns⟩ := of_decide_eq_true htest
  have hlaw := countDownLatch_law hs
  exact ⟨s, hs, hcount, hlaw.1, (hlaw.2 (by rw [hdowns]; decide)).1⟩

end TinyMuduo.CountDownLatch
