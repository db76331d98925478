import TinyMuduo.Lib.Monitor

/-!
The two blocking queues. Their operations hold the mutex from the test of the
loop to the notification, so each is a monitor; any number of threads put and
take. The items taken are the items put, in their order, and a thread does not
sleep through what would let it go on.
-/
namespace TinyMuduo

open Monitor Runs

namespace BlockingQueue

inductive Failure
  | full
  | empty
  deriving DecidableEq, Repr

/-- What the threads call; `ι` are the functions that only look. -/
inductive Op (α ι : Type)
  | put (x : α)
  | take
  | look (query : ι)
  deriving DecidableEq

inductive Result (α : Type)
  | nothing
  | item (x : α)
  | number (n : ℕ)
  deriving DecidableEq

inductive Query
  | size
  deriving DecidableEq

inductive Cond
  | notEmpty
  deriving DecidableEq

variable {α ι : Type}

def program (α : Type) : Program (List α) (Op α Query) Cond (Result α) Failure where
  loop
    | .take => some (.notEmpty, List.isEmpty)
    | .put _ | .look _ => none
  body
    | .put x, queue_ => .ok (queue_ ++ [x], .nothing, .notify .notEmpty)
    | .take, queue_ =>
        match queue_ with
        | [] => .error .empty
        | front :: rest => .ok (rest, .item front, .silent)
    | .look .size, queue_ => .ok (queue_, .number queue_.length, .silent)

def Op.item : Op α ι → Option α
  | .put x => some x
  | .take | .look _ => none

def Op.isTake : Op α ι → Bool
  | .take => true
  | .put _ | .look _ => false

def Result.item? : Result α → Option α
  | .item x => some x
  | .nothing | .number _ => none

def putItems (done : List (ℕ × Op α ι × Result α)) : List α :=
  done.filterMap fun e => e.2.1.item

def takenItems (done : List (ℕ × Op α ι × Result α)) : List α :=
  done.filterMap fun e => e.2.2.item?

@[simp]
theorem putItems_snoc (past : List (ℕ × Op α ι × Result α)) (thread : ℕ) (op : Op α ι)
    (r : Result α) : putItems (past ++ [(thread, op, r)]) = putItems past ++ op.item.toList := by
  cases hop : op.item <;> simp [putItems, hop]

@[simp]
theorem takenItems_snoc (past : List (ℕ × Op α ι × Result α)) (thread : ℕ) (op : Op α ι)
    (r : Result α) :
    takenItems (past ++ [(thread, op, r)]) = takenItems past ++ r.item?.toList := by
  cases hr : r.item? <;> simp [takenItems, hr]

/-- The items in the queue, which are the room for `take`. -/
theorem counts : Counts (program α) fun _ queue_ => (queue_.length : ℕ∞) where
  closed := by
    intro op c test queue_ hloop
    cases op with
    | put x => cases hloop
    | look q => cases hloop
    | take =>
      cases hloop
      simp
  grows := by
    intro op queue_ queue' r signal c _ hbody
    cases op with
    | put x =>
      cases hbody
      simp [Signal.wakes]
    | look q =>
      cases hbody
      simp
    | take =>
      cases queue_ with
      | nil => cases hbody
      | cons front rest =>
        cases hbody
        simp [Signal.wakes]
  uses := by
    intro op c test queue_ queue' r signal hloop _ hbody _
    cases op with
    | put x => cases hloop
    | look q => cases hloop
    | take =>
      cases queue_ with
      | nil => cases hbody
      | cons front rest =>
        cases hbody
        simp [Signal.wakes]

theorem reach_fifo {s : State (List α) (Op α Query) (Result α)}
    (h : Reachable (system (program α) []) s) :
    takenItems s.done ++ s.shared = putItems s.done := by
  refine history_invariant (I := fun queue_ past => takenItems past ++ queue_ = putItems past)
    rfl ?_ h
  intro queue_ past thread op queue' r signal hpast _ hbody
  cases op with
  | put x =>
    cases hbody
    simp [Op.item, Result.item?, ← hpast]
  | look q =>
    cases hbody
    simp [Op.item, Result.item?, ← hpast]
  | take =>
    cases queue_ with
    | nil => cases hbody
    | cons front rest =>
      cases hbody
      simp [Op.item, Result.item?, ← hpast]

/-- A call of `take` has an item, the others have none. -/
theorem reach_takes {s : State (List α) (Op α Query) (Result α)}
    (h : Reachable (system (program α) []) s) :
    (takenItems s.done).length = s.done.countP fun e => e.2.1.isTake := by
  refine history_invariant (I := fun _ past => (takenItems past).length =
    past.countP fun e => e.2.1.isTake) rfl ?_ h
  intro queue_ past thread op queue' r signal hpast _ hbody
  cases op with
  | put x =>
    cases hbody
    simp [Op.isTake, Result.item?, hpast]
  | look q =>
    cases hbody
    simp [Op.isTake, Result.item?, hpast]
  | take =>
    cases queue_ with
    | nil => cases hbody
    | cons front rest =>
      cases hbody
      simp [Op.isTake, Result.item?, hpast]

/-- `take` passes its assertion. -/
theorem body_succeeds {op : Op α Query} {queue_ : List α}
    (h : (program α).blocked op queue_ = none) :
    ∃ out, (program α).body op queue_ = .ok out := by
  cases op with
  | put x => exact ⟨_, rfl⟩
  | look q => exact ⟨_, rfl⟩
  | take =>
    cases queue_ with
    | nil => cases h
    | cons front rest => exact ⟨_, rfl⟩

/-- Only `take` waits for items. -/
theorem on_notEmpty (p : ℕ × Op α Query) : (program α).on .notEmpty p = p.2.isTake := by
  obtain ⟨thread, op⟩ := p
  cases op <;> rfl

theorem reach_room {s : State (List α) (Op α Query) (Result α)}
    (h : Reachable (system (program α) []) s) {p : ℕ × Op α Query} (hp : p ∈ s.asleep)
    (hon : (program α).on .notEmpty p = true) :
    s.shared.length ≤ awakened (program α) .notEmpty s := by
  exact_mod_cast reach_covered counts h .notEmpty (List.countP_pos_iff.mpr ⟨p, hp, hon⟩)

/-- In every run of any number of threads, the items taken are the first of the
items put, in their order, and the others are in the queue; no assertion fails;
and while a thread sleeps in `take`, at least as many threads have been woken
as there are items. -/
theorem blockingQueue_law {s : State (List α) (Op α Query) (Result α)}
    (h : Reachable (system (program α) []) s) :
    takenItems s.done ++ s.shared = putItems s.done ∧
      (∀ i, ∃ s', exec (program α) s i = .ok s') ∧
      ∀ p ∈ s.asleep, s.shared.length ≤ awakened (program α) .notEmpty s := by
  refine ⟨reach_fifo h, exec_succeeds fun op => body_succeeds, ?_⟩
  intro p hp
  have hon : (program α).on .notEmpty p = true := by
    have hloop := waiting_loop h p (List.mem_append_left _ hp)
    obtain ⟨thread, op⟩ := p
    cases op with
    | put x => cases hloop
    | look q => cases hloop
    | take => rfl
  exact reach_room h hp hon

/-- Two threads sleep in `take`; a notification wakes the first of them, and a
third thread takes the item before it runs. -/
def overtakenRun : List (Input (Op ℕ Query)) :=
  [.call 1 .take, .enter 0 0, .call 2 .take, .enter 0 0, .call 3 (.put 7), .enter 0 1,
    .call 4 .take, .enter 0 0, .resume 0 0, .call 3 (.put 8), .enter 0 0, .call 3 (.put 9),
    .enter 0 0, .resume 0 0]

theorem overtakenRun_law :
    ∃ s, Reachable (system (program ℕ) []) s ∧ takenItems s.done = [7, 8] ∧
      takenItems s.done ++ s.shared = putItems s.done := by
  obtain ⟨s, hs, htest⟩ := exists_of_replay (M := system (program ℕ) []) (s := .initial []) Free
    rfl overtakenRun (fun s => decide (takenItems s.done = [7, 8])) (by decide)
  exact ⟨s, hs, of_decide_eq_true htest, (blockingQueue_law hs).1⟩

end BlockingQueue

/-- `boost::circular_buffer`, oldest item first. -/
structure CircularBuffer (α : Type) where
  capacity : ℕ
  items : List α
  bounded : items.length ≤ capacity

namespace CircularBuffer

variable {α : Type}

def construct (capacity : ℕ) : CircularBuffer α := ⟨capacity, [], Nat.zero_le _⟩

def empty (b : CircularBuffer α) : Bool := b.items.isEmpty

def full (b : CircularBuffer α) : Bool := b.items.length = b.capacity

/-- A full buffer loses its oldest item. -/
def pushBack (b : CircularBuffer α) (x : α) : CircularBuffer α where
  capacity := b.capacity
  items := if b.full then (b.items ++ [x]).tail else b.items ++ [x]
  bounded := by
    have hbounded := b.bounded
    unfold full
    split
    · simpa using hbounded
    · rename_i hfull
      rw [decide_eq_true_eq] at hfull
      rw [List.length_append, List.length_singleton]
      omega

def popFront (b : CircularBuffer α) : CircularBuffer α where
  capacity := b.capacity
  items := b.items.tail
  bounded := by
    rw [List.length_tail]
    exact (Nat.sub_le _ _).trans b.bounded

theorem full_iff (b : CircularBuffer α) : b.full = true ↔ b.items.length = b.capacity :=
  decide_eq_true_iff

end CircularBuffer

namespace BoundedBlockingQueue

open BlockingQueue (Op Result Failure putItems takenItems Op.item Op.isTake Result.item?)

inductive Query
  | empty
  | full
  | size
  | capacity
  deriving DecidableEq

inductive Cond
  | notEmpty
  | notFull
  deriving DecidableEq

variable {α : Type}

def answer (queue_ : CircularBuffer α) : Query → ℕ
  | .empty => queue_.empty.toNat
  | .full => queue_.full.toNat
  | .size => queue_.items.length
  | .capacity => queue_.capacity

def program (α : Type) : Program (CircularBuffer α) (Op α Query) Cond (Result α) Failure where
  loop
    | .put _ => some (.notFull, CircularBuffer.full)
    | .take => some (.notEmpty, CircularBuffer.empty)
    | .look _ => none
  body
    | .put x, queue_ =>
        if queue_.full then .error .full
        else .ok (queue_.pushBack x, .nothing, .notify .notEmpty)
    | .take, queue_ =>
        match queue_.items with
        | [] => .error .empty
        | front :: _ => .ok (queue_.popFront, .item front, .notify .notFull)
    | .look query, queue_ => .ok (queue_, .number (answer queue_ query), .silent)

def room (c : Cond) (queue_ : CircularBuffer α) : ℕ :=
  match c with
  | .notEmpty => queue_.items.length
  | .notFull => queue_.capacity - queue_.items.length

/-- A finished operation: `put` found a place, `take` found an item. -/
theorem body_cases {op : Op α Query} {queue_ queue' : CircularBuffer α} {r : Result α}
    {signal : Signal Cond} (h : (program α).body op queue_ = .ok (queue', r, signal)) :
    (∃ x, op = .put x ∧ queue_.items.length < queue_.capacity ∧ r = .nothing ∧
        signal = .notify .notEmpty ∧ queue'.capacity = queue_.capacity ∧
        queue'.items = queue_.items ++ [x]) ∨
      (∃ x, op = .take ∧ r = .item x ∧ signal = .notify .notFull ∧
        queue'.capacity = queue_.capacity ∧ queue_.items = x :: queue'.items) ∨
      ∃ query, op = .look query ∧ r = .number (answer queue_ query) ∧ signal = .silent ∧
        queue' = queue_ := by
  cases op with
  | put x =>
    simp only [program] at h
    split at h
    · cases h
    · rename_i hfull
      cases h
      have hlt : queue_.items.length < queue_.capacity :=
        Nat.lt_of_le_of_ne queue_.bounded fun heq => hfull (queue_.full_iff.mpr heq)
      exact Or.inl ⟨x, rfl, hlt, rfl, rfl, rfl, by simp [CircularBuffer.pushBack, hfull]⟩
  | take =>
    simp only [program] at h
    split at h
    · cases h
    · rename_i front rest hitems
      cases h
      exact Or.inr (Or.inl ⟨front, rfl, rfl, rfl, rfl, by simp [CircularBuffer.popFront, hitems]⟩)
  | look query =>
    cases h
    exact Or.inr (Or.inr ⟨query, rfl, rfl, rfl, rfl⟩)

/-- `put` turns a free place into an item. -/
theorem room_of_put {queue_ queue' : CircularBuffer α} {x : α}
    (hlt : queue_.items.length < queue_.capacity) (hcapacity : queue'.capacity = queue_.capacity)
    (hitems : queue'.items = queue_.items ++ [x]) :
    room .notEmpty queue' = room .notEmpty queue_ + 1 ∧
      room .notFull queue' + 1 = room .notFull queue_ := by
  constructor
  · simp [room, hitems]
  · simp only [room, hitems, hcapacity, List.length_append, List.length_singleton]
    omega

/-- `take` turns an item into a free place. -/
theorem room_of_take {queue_ queue' : CircularBuffer α} {x : α}
    (hcapacity : queue'.capacity = queue_.capacity) (hitems : queue_.items = x :: queue'.items) :
    room .notEmpty queue' + 1 = room .notEmpty queue_ ∧
      room .notFull queue' = room .notFull queue_ + 1 := by
  have hbounded := queue_.bounded
  rw [hitems, List.length_cons] at hbounded
  constructor
  · simp [room, hitems]
  · simp only [room, hitems, hcapacity, List.length_cons]
    omega

theorem counts : Counts (program α) fun c queue_ => (room c queue_ : ℕ∞) where
  closed := by
    intro op c test queue_ hloop
    cases op with
    | put x =>
      cases hloop
      have hbounded := queue_.bounded
      rw [queue_.full_iff, Nat.cast_eq_zero, room]
      omega
    | take =>
      cases hloop
      simp [CircularBuffer.empty, room]
    | look q => cases hloop
  grows := by
    intro op queue_ queue' r signal c _ hbody
    rcases body_cases hbody with ⟨x, rfl, hlt, rfl, rfl, hcapacity, hitems⟩ |
      ⟨x, rfl, rfl, rfl, hcapacity, hitems⟩ | ⟨query, rfl, rfl, rfl, rfl⟩
    · obtain ⟨hempty, hfull⟩ := room_of_put hlt hcapacity hitems
      cases c with
      | notEmpty => simp [hempty, Signal.wakes]
      | notFull => simp [← hfull, Signal.wakes]
    · obtain ⟨hempty, hfull⟩ := room_of_take hcapacity hitems
      cases c with
      | notEmpty => simp [← hempty, Signal.wakes]
      | notFull => simp [hfull, Signal.wakes]
    · exact le_self_add
  uses := by
    intro op c test queue_ queue' r signal hloop _ hbody _
    rcases body_cases hbody with ⟨x, rfl, hlt, rfl, rfl, hcapacity, hitems⟩ |
      ⟨x, rfl, rfl, rfl, hcapacity, hitems⟩ | ⟨query, rfl, rfl, rfl, rfl⟩
    · cases hloop
      simp [← (room_of_put hlt hcapacity hitems).2]
    · cases hloop
      simp [← (room_of_take hcapacity hitems).1]
    · cases hloop

theorem reach_fifo {maxSize : ℕ} {s : State (CircularBuffer α) (Op α Query) (Result α)}
    (h : Reachable (system (program α) (.construct maxSize)) s) :
    s.shared.capacity = maxSize ∧ takenItems s.done ++ s.shared.items = putItems s.done := by
  refine history_invariant (I := fun queue_ past => queue_.capacity = maxSize ∧
    takenItems past ++ queue_.items = putItems past) ⟨rfl, rfl⟩ ?_ h
  rintro queue_ past thread op queue' r signal ⟨hsize, hpast⟩ _ hbody
  rcases body_cases hbody with ⟨x, rfl, -, rfl, rfl, hcapacity, hitems⟩ |
    ⟨x, rfl, rfl, rfl, hcapacity, hitems⟩ | ⟨query, rfl, rfl, rfl, rfl⟩
  · exact ⟨hcapacity.trans hsize, by simp [Op.item, Result.item?, ← hpast, hitems]⟩
  · exact ⟨hcapacity.trans hsize, by simp [Op.item, Result.item?, ← hpast, hitems]⟩
  · exact ⟨hsize, by simp [Op.item, Result.item?, ← hpast]⟩

theorem reach_takes {maxSize : ℕ} {s : State (CircularBuffer α) (Op α Query) (Result α)}
    (h : Reachable (system (program α) (.construct maxSize)) s) :
    (takenItems s.done).length = s.done.countP fun e => e.2.1.isTake := by
  refine history_invariant (I := fun _ past => (takenItems past).length =
    past.countP fun e => e.2.1.isTake) rfl ?_ h
  intro queue_ past thread op queue' r signal hpast _ hbody
  rcases body_cases hbody with ⟨x, rfl, -, rfl, rfl, -, -⟩ | ⟨x, rfl, rfl, rfl, -, -⟩ |
    ⟨query, rfl, rfl, rfl, rfl⟩
  · simp [Op.isTake, Result.item?, hpast]
  · simp [Op.isTake, Result.item?, hpast]
  · simp [Op.isTake, Result.item?, hpast]

/-- An operation that has left its loop passes its assertion. -/
theorem body_succeeds {op : Op α Query} {queue_ : CircularBuffer α}
    (h : (program α).blocked op queue_ = none) :
    ∃ out, (program α).body op queue_ = .ok out := by
  cases op with
  | put x =>
    by_cases hfull : queue_.full = true
    · simp [Program.blocked, program, hfull] at h
    · exact ⟨_, if_neg hfull⟩
  | take =>
    cases hitems : queue_.items with
    | nil => simp [Program.blocked, program, CircularBuffer.empty, hitems] at h
    | cons front rest =>
      refine ⟨(queue_.popFront, .item front, .notify .notFull), ?_⟩
      simp only [program, hitems]
  | look q => exact ⟨_, rfl⟩

theorem reach_room {maxSize : ℕ} {s : State (CircularBuffer α) (Op α Query) (Result α)}
    (h : Reachable (system (program α) (.construct maxSize)) s) {c : Cond} {p : ℕ × Op α Query}
    (hp : p ∈ s.asleep) (hon : (program α).on c p = true) :
    room c s.shared ≤ awakened (program α) c s := by
  exact_mod_cast reach_covered counts h c (List.countP_pos_iff.mpr ⟨p, hp, hon⟩)

theorem on_notEmpty (p : ℕ × Op α Query) : (program α).on .notEmpty p = p.2.isTake := by
  obtain ⟨thread, op⟩ := p
  cases op <;> rfl

/-- Producers and consumers do not wait for each other. -/
theorem exists_runnable {maxSize : ℕ} (hmax : 0 < maxSize)
    {s : State (CircularBuffer α) (Op α Query) (Result α)}
    (h : Reachable (system (program α) (.construct maxSize)) s) {producer consumer : ℕ} {x : α}
    (hput : (producer, .put x) ∈ s.asleep) (htake : (consumer, .take) ∈ s.asleep) :
    ∃ p ∈ s.woken, (program α).blocked p.2 s.shared = none := by
  obtain ⟨hsize, -⟩ := reach_fifo h
  by_cases hempty : s.shared.items = []
  · have hfull : s.shared.full = false := by
      simp [CircularBuffer.full, hempty, hsize, Nat.ne_of_lt hmax]
    obtain ⟨p, hp, -, hpass⟩ := exists_awakened counts h hput rfl hfull
    exact ⟨p, hp, hpass⟩
  · have hitem : s.shared.empty = false := by
      simp [CircularBuffer.empty, hempty]
    obtain ⟨p, hp, -, hpass⟩ := exists_awakened counts h htake rfl hitem
    exact ⟨p, hp, hpass⟩

/-- In every run of any number of threads, the items taken are the first of the
items put, in their order, and the others are in the queue, which never holds
more than its capacity and never loses one; no assertion fails; while a thread
sleeps in `take`, at least as many threads have been woken as there are items,
and while one sleeps in `put`, as there are free places; and when both sleep on
a queue that has room for an item, a woken thread can go on. -/
theorem boundedBlockingQueue_law {maxSize : ℕ}
    {s : State (CircularBuffer α) (Op α Query) (Result α)}
    (h : Reachable (system (program α) (.construct maxSize)) s) :
    takenItems s.done ++ s.shared.items = putItems s.done ∧
      s.shared.items.length ≤ maxSize ∧
      (∀ i, ∃ s', exec (program α) s i = .ok s') ∧
      (∀ thread, (thread, .take) ∈ s.asleep →
        s.shared.items.length ≤ awakened (program α) .notEmpty s) ∧
      (∀ thread x, (thread, .put x) ∈ s.asleep →
        maxSize - s.shared.items.length ≤ awakened (program α) .notFull s) ∧
      (0 < maxSize → ∀ producer consumer x, (producer, .put x) ∈ s.asleep →
        (consumer, .take) ∈ s.asleep →
        ∃ p ∈ s.woken, (program α).blocked p.2 s.shared = none) := by
  obtain ⟨hsize, hfifo⟩ := reach_fifo h
  have hbounded := s.shared.bounded
  refine ⟨hfifo, hsize ▸ hbounded, exec_succeeds fun op => body_succeeds, ?_, ?_, ?_⟩
  · intro thread hp
    exact reach_room h (c := .notEmpty) hp rfl
  · intro thread x hp
    exact hsize ▸ reach_room h (c := .notFull) hp rfl
  · intro hmax producer consumer x hput htake
    exact exists_runnable hmax h hput htake

/-- With one place: a second `put` sleeps, the `take` that wakes it up is
followed by another `take` that sleeps, and the `put` of a third thread fills
the place before the woken one runs. -/
def onePlaceRun : List (Input (Op ℕ Query)) :=
  [.call 1 (.put 5), .enter 0 0, .call 2 (.put 6), .enter 0 0, .call 3 .take, .enter 0 0,
    .call 3 .take, .enter 0 0, .call 1 (.put 7), .enter 0 0, .resume 1 0]

theorem onePlaceRun_law :
    ∃ s, Reachable (system (program ℕ) (.construct 1)) s ∧ putItems s.done = [5, 7] ∧
      takenItems s.done ++ s.shared.items = putItems s.done ∧ s.shared.items.length ≤ 1 := by
  obtain ⟨s, hs, htest⟩ := exists_of_replay (M := system (program ℕ) (.construct 1))
    (s := .initial (.construct 1)) Free rfl onePlaceRun
    (fun s => decide (putItems s.done = [5, 7])) (by decide)
  have hlaw := boundedBlockingQueue_law hs
  exact ⟨s, hs, of_decide_eq_true htest, hlaw.1, hlaw.2.1⟩

end BoundedBlockingQueue

end TinyMuduo
