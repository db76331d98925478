import TinyMuduo.TimerQueue

/-!
The index law of the timer queue. Every live Timer is in exactly one place: in
both sets, in the batch of the running `handleRead`, or waiting for its
`addTimerInLoop`. The law speaks about the heap, the two sets and the batch
separately, so each half of an operation (take a timer out, put one in, free
it) keeps it by a lemma of its own and the operations compose those lemmas.
-/
namespace TinyMuduo.TimerQueue

open SortedSet

variable {φ : Type}

abbrev Heap (φ : Type) := Address → Option (Timer φ)

@[simp]
theorem entry_timer (w : Timestamp) (p : Address) : (entry w p).timer = p := rfl

theorem Entry.eta (e : Entry) : entry e.time e.timer = e := rfl

theorem entry_inj {w w' : Timestamp} {p p' : Address} :
    entry w p = entry w' p' ↔ w = w' ∧ p = p' := by
  simp [entry]

theorem activeTimer_inj {p p' : Address} {k k' : ℤ} :
    activeTimer p k = activeTimer p' k' ↔ p = p' ∧ k = k' := by
  simp [activeTimer]

/-- Sequence numbers are positive, unique and never reused; a deleted timer is
deleted once. -/
structure Memory (heap : Heap φ) (freed : List ℤ) (numCreated : ℤ) : Prop where
  address : ∀ p t, heap p = some t → 0 < p ∧ p < uintptrMax
  sequence : ∀ p t, heap p = some t → 1 ≤ t.sequence ∧ t.sequence ≤ numCreated
  distinct : ∀ p p' t t', heap p = some t → heap p' = some t' →
    t.sequence = t'.sequence → p = p'
  created : 0 ≤ numCreated
  freed_le : ∀ k ∈ freed, k ≤ numCreated
  freed_dead : ∀ p t, heap p = some t → t.sequence ∉ freed
  freed_nodup : freed.Nodup

namespace Memory

variable {heap : Heap φ} {freed : List ℤ} {numCreated : ℤ}

theorem alloc (h : Memory heap freed numCreated) {p : Address} (hp : 0 < p ∧ p < uintptrMax)
    (t : Timer φ) (hseq : t.sequence = numCreated + 1) :
    Memory (Function.update heap p (some t)) freed (numCreated + 1) := by
  have hcreated := h.created
  have old : ∀ p' t', p' ≠ p → Function.update heap p (some t) p' = some t' →
      heap p' = some t' := by
    intro p' t' hne ht'
    simpa [hne] using ht'
  have new : ∀ t', Function.update heap p (some t) p = some t' → t' = t := by
    intro t' ht'
    exact (by simpa using ht' : t = t').symm
  constructor
  · intro p' t' ht'
    by_cases hpp : p' = p
    · subst hpp
      exact hp
    · exact h.address p' t' (old p' t' hpp ht')
  · intro p' t' ht'
    by_cases hpp : p' = p
    · subst hpp
      obtain rfl := new t' ht'
      omega
    · have := h.sequence p' t' (old p' t' hpp ht')
      omega
  · intro a b ta tb hta htb heq
    by_cases ha : a = p
    · by_cases hb : b = p
      · exact ha.trans hb.symm
      · subst ha
        obtain rfl := new ta hta
        have := h.sequence b tb (old b tb hb htb)
        omega
    · by_cases hb : b = p
      · subst hb
        obtain rfl := new tb htb
        have := h.sequence a ta (old a ta ha hta)
        omega
      · exact h.distinct a b ta tb (old a ta ha hta) (old b tb hb htb) heq
  · omega
  · intro k hk
    have := h.freed_le k hk
    omega
  · intro p' t' ht' hmem
    by_cases hpp : p' = p
    · subst hpp
      obtain rfl := new t' ht'
      have := h.freed_le _ hmem
      omega
    · exact h.freed_dead p' t' (old p' t' hpp ht') hmem
  · exact h.freed_nodup

/-- Changing a live timer in place keeps the law when its number stays. -/
theorem replace (h : Memory heap freed numCreated) {p : Address} {t t' : Timer φ}
    (ht : heap p = some t) (hseq : t'.sequence = t.sequence) :
    Memory (Function.update heap p (some t')) freed numCreated := by
  have back : ∀ a s, Function.update heap p (some t') a = some s →
      ∃ s', heap a = some s' ∧ s'.sequence = s.sequence := by
    intro a s hs
    by_cases ha : a = p
    · subst ha
      have hs' : t' = s := by simpa using hs
      exact ⟨t, ht, by rw [← hs', hseq]⟩
    · exact ⟨s, by simpa [ha] using hs, rfl⟩
  constructor
  · intro a s hs
    obtain ⟨s', hs', -⟩ := back a s hs
    exact h.address a s' hs'
  · intro a s hs
    obtain ⟨s', hs', heq⟩ := back a s hs
    rw [← heq]
    exact h.sequence a s' hs'
  · intro a b sa sb hsa hsb heq
    obtain ⟨sa', hsa', ha⟩ := back a sa hsa
    obtain ⟨sb', hsb', hb⟩ := back b sb hsb
    exact h.distinct a b sa' sb' hsa' hsb' (by rw [ha, hb, heq])
  · exact h.created
  · exact h.freed_le
  · intro a s hs
    obtain ⟨s', hs', heq⟩ := back a s hs
    rw [← heq]
    exact h.freed_dead a s' hs'
  · exact h.freed_nodup

theorem free (h : Memory heap freed numCreated) {p : Address} {t : Timer φ}
    (ht : heap p = some t) :
    Memory (Function.update heap p none) (freed ++ [t.sequence]) numCreated := by
  have old : ∀ a s, Function.update heap p none a = some s → a ≠ p ∧ heap a = some s := by
    intro a s hs
    by_cases ha : a = p
    · subst ha
      simp at hs
    · exact ⟨ha, by simpa [ha] using hs⟩
  constructor
  · intro a s hs
    exact h.address a s (old a s hs).2
  · intro a s hs
    exact h.sequence a s (old a s hs).2
  · intro a b sa sb hsa hsb heq
    exact h.distinct a b sa sb (old a sa hsa).2 (old b sb hsb).2 heq
  · exact h.created
  · intro k hk
    rcases List.mem_append.mp hk with hk | hk
    · exact h.freed_le k hk
    · rw [List.mem_singleton.mp hk]
      exact (h.sequence p t ht).2
  · intro a s hs hmem
    obtain ⟨hne, hs'⟩ := old a s hs
    rcases List.mem_append.mp hmem with hk | hk
    · exact h.freed_dead a s hs' hk
    · exact hne (h.distinct a p s t hs' ht (List.mem_singleton.mp hk))
  · refine List.nodup_append.mpr ⟨h.freed_nodup, by simp, ?_⟩
    intro a ha b hb hab
    subst hab
    rw [List.mem_singleton.mp hb] at ha
    exact h.freed_dead p t ht ha

end Memory

structure Indexed (heap : Heap φ) (timerList : SortedSet Entry)
    (activeTimerSet : SortedSet ActiveTimer) (batch : List Entry) (waiting : List Address) :
    Prop where
  sizes : timerList.size = activeTimerSet.size
  listed : ∀ w p, entry w p ∈ timerList → ∃ t, heap p = some t ∧
    t.expirationTimestamp = w ∧ activeTimer p t.sequence ∈ activeTimerSet
  active : ∀ p k, activeTimer p k ∈ activeTimerSet → ∃ t, heap p = some t ∧
    t.sequence = k ∧ entry t.expirationTimestamp p ∈ timerList
  batch_live : ∀ e ∈ batch, ∃ t, heap e.timer = some t ∧ t.expirationTimestamp = e.time
  batch_out : ∀ e ∈ batch, ∀ w, entry w e.timer ∉ timerList
  batch_nodup : (batch.map Entry.timer).Nodup
  waiting_live : ∀ p ∈ waiting, ∃ t, heap p = some t
  waiting_out : ∀ p ∈ waiting, (∀ w, entry w p ∉ timerList) ∧ p ∉ batch.map Entry.timer
  waiting_nodup : waiting.Nodup
  covered : ∀ p t, heap p = some t → entry t.expirationTimestamp p ∈ timerList ∨
    p ∈ batch.map Entry.timer ∨ p ∈ waiting

namespace Indexed

variable {heap : Heap φ} {timerList : SortedSet Entry} {activeTimerSet : SortedSet ActiveTimer}
  {batch : List Entry} {waiting : List Address}

theorem ne_of_entry {p a : Address} {w : Timestamp} (hp : ∀ w, entry w p ∉ timerList)
    (ha : entry w a ∈ timerList) : a ≠ p := by
  rintro rfl
  exact hp w ha

/-- The head of a batch is in no other place. -/
theorem head_apart {e d : Entry}
    (h : Indexed heap timerList activeTimerSet (e :: batch) waiting) (hd : d ∈ batch) :
    d.timer ≠ e.timer := by
  have hnodup := h.batch_nodup
  rw [List.map_cons, List.nodup_cons] at hnodup
  intro heq
  exact hnodup.1 (heq ▸ List.mem_map_of_mem hd)

/-- A timer that is not queued is in neither set, under any key. -/
theorem not_active (h : Indexed heap timerList activeTimerSet batch waiting) {p : Address}
    (hp : ∀ w, entry w p ∉ timerList) (k : ℤ) : activeTimer p k ∉ activeTimerSet := by
  intro hmem
  obtain ⟨t, -, -, hlist⟩ := h.active p k hmem
  exact hp _ hlist

theorem alloc (h : Indexed heap timerList activeTimerSet batch waiting) {p : Address}
    (hfree : heap p = none) (t : Timer φ) :
    Indexed (Function.update heap p (some t)) timerList activeTimerSet batch (p :: waiting) := by
  have keep : ∀ a s, heap a = some s → Function.update heap p (some t) a = some s := by
    intro a s hs
    have ha : a ≠ p := by
      rintro rfl
      simp [hfree] at hs
    simpa [ha] using hs
  have hout : ∀ w, entry w p ∉ timerList := by
    intro w hmem
    obtain ⟨s, hs, -⟩ := h.listed w p hmem
    simp [hfree] at hs
  have hbatch : p ∉ batch.map Entry.timer := by
    intro hmem
    obtain ⟨e, he, rfl⟩ := List.mem_map.mp hmem
    obtain ⟨s, hs, -⟩ := h.batch_live e he
    simp [hfree] at hs
  have hwait : p ∉ waiting := by
    intro hmem
    obtain ⟨s, hs⟩ := h.waiting_live p hmem
    simp [hfree] at hs
  constructor
  · exact h.sizes
  · intro w a ha
    obtain ⟨s, hs, hrest⟩ := h.listed w a ha
    exact ⟨s, keep a s hs, hrest⟩
  · intro a k ha
    obtain ⟨s, hs, hrest⟩ := h.active a k ha
    exact ⟨s, keep a s hs, hrest⟩
  · intro e he
    obtain ⟨s, hs, hrest⟩ := h.batch_live e he
    exact ⟨s, keep _ s hs, hrest⟩
  · exact h.batch_out
  · exact h.batch_nodup
  · intro a ha
    rcases List.mem_cons.mp ha with rfl | ha
    · exact ⟨t, by simp⟩
    · obtain ⟨s, hs⟩ := h.waiting_live a ha
      exact ⟨s, keep a s hs⟩
  · intro a ha
    rcases List.mem_cons.mp ha with rfl | ha
    · exact ⟨hout, hbatch⟩
    · exact h.waiting_out a ha
  · exact List.nodup_cons.mpr ⟨hwait, h.waiting_nodup⟩
  · intro a s hs
    by_cases ha : a = p
    · subst ha
      exact Or.inr (Or.inr (List.mem_cons_self ..))
    · rcases h.covered a s (by simpa [ha] using hs) with hl | hb | hw
      · exact Or.inl hl
      · exact Or.inr (Or.inl hb)
      · exact Or.inr (Or.inr (List.mem_cons_of_mem p hw))

/-- A timer whose `addTimerInLoop` begins is treated as taken into the batch;
`enqueue` then puts it into the sets. -/
theorem enroll (h : Indexed heap timerList activeTimerSet batch waiting) {p : Address}
    {t : Timer φ} (ht : heap p = some t) (hp : p ∈ waiting) :
    Indexed heap timerList activeTimerSet (entry t.expirationTimestamp p :: batch)
      (waiting.erase p) := by
  obtain ⟨hout, hbatch⟩ := h.waiting_out p hp
  refine ⟨h.sizes, h.listed, h.active, ?_, ?_, ?_, ?_, ?_, ?_, ?_⟩
  · intro e he
    rcases List.mem_cons.mp he with rfl | he
    · exact ⟨t, ht, rfl⟩
    · exact h.batch_live e he
  · intro e he
    rcases List.mem_cons.mp he with rfl | he
    · exact hout
    · exact h.batch_out e he
  · exact List.nodup_cons.mpr ⟨hbatch, h.batch_nodup⟩
  · intro a ha
    exact h.waiting_live a (List.mem_of_mem_erase ha)
  · intro a ha
    obtain ⟨hne, hmem⟩ := h.waiting_nodup.mem_erase_iff.mp ha
    obtain ⟨hl, hb⟩ := h.waiting_out a hmem
    exact ⟨hl, by simp [hne, hb]⟩
  · exact h.waiting_nodup.erase p
  · intro a s hs
    rcases h.covered a s hs with hl | hb | hw
    · exact Or.inl hl
    · exact Or.inr (Or.inl (List.mem_cons_of_mem _ hb))
    · by_cases ha : a = p
      · subst ha
        exact Or.inr (Or.inl (List.mem_cons_self ..))
      · exact Or.inr (Or.inr (h.waiting_nodup.mem_erase_iff.mpr ⟨ha, hw⟩))

/-- The head of the batch goes back into both sets, possibly with a new
expiration. -/
theorem enqueue {e : Entry} (h : Indexed heap timerList activeTimerSet (e :: batch) waiting)
    (t' : Timer φ) :
    Indexed (Function.update heap e.timer (some t'))
      (timerList.insert (entry t'.expirationTimestamp e.timer)).1
      (activeTimerSet.insert (activeTimer e.timer t'.sequence)).1 batch waiting := by
  have hout : ∀ w, entry w e.timer ∉ timerList := h.batch_out e (List.mem_cons_self ..)
  have keep : ∀ a s, a ≠ e.timer → heap a = some s →
      Function.update heap e.timer (some t') a = some s := by
    intro a s ha hs
    simpa [ha] using hs
  constructor
  · rw [size_insert (hout _), size_insert (h.not_active hout _), h.sizes]
  · intro w a ha
    rcases mem_insert.mp ha with heq | ha
    · obtain ⟨rfl, rfl⟩ := entry_inj.mp heq
      exact ⟨t', by simp, rfl, mem_insert.mpr (Or.inl rfl)⟩
    · obtain ⟨s, hs, hw, hact⟩ := h.listed w a ha
      exact ⟨s, keep a s (ne_of_entry hout ha) hs, hw, mem_insert.mpr (Or.inr hact)⟩
  · intro a k ha
    rcases mem_insert.mp ha with heq | ha
    · obtain ⟨rfl, rfl⟩ := activeTimer_inj.mp heq
      exact ⟨t', by simp, rfl, mem_insert.mpr (Or.inl rfl)⟩
    · obtain ⟨s, hs, hk, hlist⟩ := h.active a k ha
      exact ⟨s, keep a s (ne_of_entry hout hlist) hs, hk, mem_insert.mpr (Or.inr hlist)⟩
  · intro d hd
    obtain ⟨s, hs, hw⟩ := h.batch_live d (List.mem_cons_of_mem e hd)
    exact ⟨s, keep _ s (h.head_apart hd) hs, hw⟩
  · intro d hd w hmem
    rcases mem_insert.mp hmem with heq | hmem
    · exact h.head_apart hd (entry_inj.mp heq).2
    · exact h.batch_out d (List.mem_cons_of_mem e hd) w hmem
  · exact h.batch_nodup.of_cons
  · intro a ha
    by_cases hae : a = e.timer
    · exact ⟨t', by simp [hae]⟩
    · obtain ⟨s, hs⟩ := h.waiting_live a ha
      exact ⟨s, keep a s hae hs⟩
  · intro a ha
    obtain ⟨hl, hb⟩ := h.waiting_out a ha
    rw [List.map_cons, List.mem_cons, not_or] at hb
    refine ⟨?_, hb.2⟩
    intro w hmem
    rcases mem_insert.mp hmem with heq | hmem
    · exact hb.1 (entry_inj.mp heq).2
    · exact hl w hmem
  · exact h.waiting_nodup
  · intro a s hs
    by_cases hae : a = e.timer
    · subst hae
      obtain rfl : t' = s := by simpa using hs
      exact Or.inl (mem_insert.mpr (Or.inl rfl))
    · rcases h.covered a s (by simpa [hae] using hs) with hl | hb | hw
      · exact Or.inl (mem_insert.mpr (Or.inr hl))
      · rw [List.map_cons, List.mem_cons] at hb
        exact Or.inr (Or.inl (hb.resolve_left hae))
      · exact Or.inr (Or.inr hw)

/-- The head of the batch is deleted. -/
theorem drop {e : Entry} (h : Indexed heap timerList activeTimerSet (e :: batch) waiting) :
    Indexed (Function.update heap e.timer none) timerList activeTimerSet batch waiting := by
  have hout : ∀ w, entry w e.timer ∉ timerList := h.batch_out e (List.mem_cons_self ..)
  have keep : ∀ a s, a ≠ e.timer → heap a = some s →
      Function.update heap e.timer none a = some s := by
    intro a s ha hs
    simpa [ha] using hs
  constructor
  · exact h.sizes
  · intro w a ha
    obtain ⟨s, hs, hrest⟩ := h.listed w a ha
    exact ⟨s, keep a s (ne_of_entry hout ha) hs, hrest⟩
  · intro a k ha
    obtain ⟨s, hs, hk, hlist⟩ := h.active a k ha
    exact ⟨s, keep a s (ne_of_entry hout hlist) hs, hk, hlist⟩
  · intro d hd
    obtain ⟨s, hs, hw⟩ := h.batch_live d (List.mem_cons_of_mem e hd)
    exact ⟨s, keep _ s (h.head_apart hd) hs, hw⟩
  · exact fun d hd => h.batch_out d (List.mem_cons_of_mem e hd)
  · exact h.batch_nodup.of_cons
  · intro a ha
    obtain ⟨s, hs⟩ := h.waiting_live a ha
    have hne : a ≠ e.timer := fun hae => (h.waiting_out a ha).2 (by simp [hae])
    exact ⟨s, keep a s hne hs⟩
  · intro a ha
    obtain ⟨hl, hb⟩ := h.waiting_out a ha
    rw [List.map_cons, List.mem_cons, not_or] at hb
    exact ⟨hl, hb.2⟩
  · exact h.waiting_nodup
  · intro a s hs
    have hne : a ≠ e.timer := by
      rintro rfl
      simp at hs
    rcases h.covered a s (by simpa [hne] using hs) with hl | hb | hw
    · exact Or.inl hl
    · rw [List.map_cons, List.mem_cons] at hb
      exact Or.inr (Or.inl (hb.resolve_left hne))
    · exact Or.inr (Or.inr hw)

/-- A queued timer leaves both sets and is held like a batch member. -/
theorem dequeue (h : Indexed heap timerList activeTimerSet batch waiting) {p : Address}
    {t : Timer φ} (ht : heap p = some t) (hp : entry t.expirationTimestamp p ∈ timerList) :
    Indexed heap (timerList.erase (entry t.expirationTimestamp p)).1
      (activeTimerSet.erase (activeTimer p t.sequence)).1
      (entry t.expirationTimestamp p :: batch) waiting := by
  have hact : activeTimer p t.sequence ∈ activeTimerSet := by
    obtain ⟨s, hs, -, hact⟩ := h.listed _ p hp
    obtain rfl : t = s := Option.some.inj (ht.symm.trans hs)
    exact hact
  have only : ∀ w, entry w p ∈ timerList → w = t.expirationTimestamp := by
    intro w hw
    obtain ⟨s, hs, hexp, -⟩ := h.listed w p hw
    obtain rfl : t = s := Option.some.inj (ht.symm.trans hs)
    exact hexp.symm
  constructor
  · have h1 := size_erase hp
    have h2 := size_erase hact
    have h3 := h.sizes
    omega
  · intro w a ha
    obtain ⟨hne, hmem⟩ := mem_erase.mp ha
    obtain ⟨s, hs, hw, hk⟩ := h.listed w a hmem
    refine ⟨s, hs, hw, mem_erase.mpr ⟨?_, hk⟩⟩
    intro heq
    obtain ⟨rfl, -⟩ := activeTimer_inj.mp heq
    exact hne (by rw [only w hmem])
  · intro a k ha
    obtain ⟨hne, hmem⟩ := mem_erase.mp ha
    obtain ⟨s, hs, hk, hlist⟩ := h.active a k hmem
    refine ⟨s, hs, hk, mem_erase.mpr ⟨?_, hlist⟩⟩
    intro heq
    obtain ⟨-, rfl⟩ := entry_inj.mp heq
    obtain rfl : t = s := Option.some.inj (ht.symm.trans hs)
    exact hne (by rw [hk])
  · intro e he
    rcases List.mem_cons.mp he with rfl | he
    · exact ⟨t, ht, rfl⟩
    · exact h.batch_live e he
  · intro e he w hmem
    obtain ⟨hne, hmem⟩ := mem_erase.mp hmem
    rcases List.mem_cons.mp he with rfl | he
    · exact hne (by rw [entry_timer, only w hmem])
    · exact h.batch_out e he w hmem
  · refine List.nodup_cons.mpr ⟨?_, h.batch_nodup⟩
    intro hmem
    obtain ⟨e, he, hep⟩ := List.mem_map.mp hmem
    exact h.batch_out e he _ (by rw [hep]; exact hp)
  · exact h.waiting_live
  · intro a ha
    obtain ⟨hl, hb⟩ := h.waiting_out a ha
    refine ⟨fun w hmem => hl w (mem_erase.mp hmem).2, ?_⟩
    rw [List.map_cons, List.mem_cons, not_or]
    refine ⟨?_, hb⟩
    rintro rfl
    exact hl _ hp
  · exact h.waiting_nodup
  · intro a s hs
    rcases h.covered a s hs with hl | hb | hw
    · by_cases hap : a = p
      · subst hap
        exact Or.inr (Or.inl (List.mem_cons_self ..))
      · refine Or.inl (mem_erase.mpr ⟨?_, hl⟩)
        intro heq
        exact hap (entry_inj.mp heq).2
    · exact Or.inr (Or.inl (List.mem_cons_of_mem _ hb))
    · exact Or.inr (Or.inr hw)

/-- Two entries of the list for one timer are the same entry. -/
theorem entry_unique (h : Indexed heap timerList activeTimerSet batch waiting) {d e : Entry}
    (hd : d ∈ timerList) (he : e ∈ timerList) (heq : d.timer = e.timer) : d = e := by
  obtain ⟨t, ht, htime, -⟩ := h.listed d.time d.timer hd
  obtain ⟨s, hs, hstime, -⟩ := h.listed e.time e.timer he
  rw [heq] at ht
  obtain rfl : t = s := Option.some.inj (ht.symm.trans hs)
  rw [← Entry.eta d, ← Entry.eta e, heq, ← htime, ← hstime]

/-- The entries below a key leave both sets and become the batch. -/
theorem expire (h : Indexed heap timerList activeTimerSet [] waiting) (key : Entry)
    {active' : SortedSet ActiveTimer}
    (hmem : ∀ p k, activeTimer p k ∈ active' ↔
      activeTimer p k ∈ activeTimerSet ∧ p ∉ (timerList.below key).map Entry.timer)
    (hsize : active'.size + (timerList.below key).length = activeTimerSet.size) :
    Indexed heap (timerList.fromLowerBound key) active' (timerList.below key) waiting := by
  have hbelow : ∀ e ∈ timerList.below key, e ∈ timerList := fun e he => (mem_below.mp he).1
  have hrest : ∀ e ∈ timerList.fromLowerBound key, e ∈ timerList :=
    fun e he => (mem_fromLowerBound.mp he).1
  have apart : ∀ e ∈ timerList.below key, ∀ w, entry w e.timer ∉ timerList.fromLowerBound key := by
    intro e he w hw
    have heq : entry w e.timer = e := h.entry_unique (hrest _ hw) (hbelow e he) rfl
    rw [heq] at hw
    exact (mem_fromLowerBound.mp hw).2 (mem_below.mp he).2
  constructor
  · have h1 := size_split timerList key
    have h2 := h.sizes
    omega
  · intro w p hp
    obtain ⟨t, ht, hw, hact⟩ := h.listed w p (hrest _ hp)
    refine ⟨t, ht, hw, (hmem _ _).mpr ⟨hact, ?_⟩⟩
    intro hin
    obtain ⟨e, he, rfl⟩ := List.mem_map.mp hin
    exact apart e he w hp
  · intro p k hp
    obtain ⟨hact, hout⟩ := (hmem p k).mp hp
    obtain ⟨t, ht, hk, hlist⟩ := h.active p k hact
    refine ⟨t, ht, hk, mem_fromLowerBound.mpr ⟨hlist, fun hlt => hout ?_⟩⟩
    exact List.mem_map.mpr ⟨_, mem_below.mpr ⟨hlist, hlt⟩, rfl⟩
  · intro e he
    obtain ⟨t, ht, hw, -⟩ := h.listed e.time e.timer (hbelow e he)
    exact ⟨t, ht, hw⟩
  · exact apart
  · refine (below_nodup timerList key).map_on ?_
    intro d hd e he heq
    exact h.entry_unique (hbelow d hd) (hbelow e he) heq
  · exact h.waiting_live
  · intro p hp
    obtain ⟨hl, -⟩ := h.waiting_out p hp
    refine ⟨fun w hw => hl w (hrest _ hw), ?_⟩
    intro hin
    obtain ⟨e, he, rfl⟩ := List.mem_map.mp hin
    exact hl e.time (hbelow e he)
  · exact h.waiting_nodup
  · intro p t ht
    rcases h.covered p t ht with hl | hb | hw
    · by_cases hlt : entry t.expirationTimestamp p < key
      · exact Or.inr (Or.inl (List.mem_map.mpr ⟨_, mem_below.mpr ⟨hl, hlt⟩, rfl⟩))
      · exact Or.inl (mem_fromLowerBound.mpr ⟨hl, hlt⟩)
    · simp at hb
    · exact Or.inr (Or.inr hw)

end Indexed

end TinyMuduo.TimerQueue
