import TinyMuduo.PollerTable

/-!
Owned Channels. A registry joins a Poller's table with the objects that own the
Channels: which Channel an object has now, whether it has registered it, and
which descriptors are open. Some owners lend: they pass the descriptor of an
unregistered Channel on to somebody else and drop the Channel later, so that
their Channel holds its descriptor only while it is registered. The lemmas say
which steps of an owner keep every registered Channel alive.
-/
namespace TinyMuduo

open Channel

structure Registry (ω : Type) where
  poller : Poller
  owner : ChannelId → Option ω
  isOpen : ℕ → Bool
  channelOf : ω → Option ChannelId
  registers : ω → Bool
  /-- Channels from this number on were never created -/
  next : ChannelId

/-- What a table has after an entry was taken out. -/
theorem of_update_none {ι α : Type} [DecidableEq ι] {f : ι → Option α} {i j : ι} {a : α}
    (h : Function.update f i none j = some a) : j ≠ i ∧ f j = some a := by
  by_cases hj : j = i
  · subst hj
    simp at h
  · rw [Function.update_of_ne hj] at h
    exact ⟨hj, h⟩

/-- What a table has after an entry was written. -/
theorem of_update_some {ι α : Type} [DecidableEq ι] {f : ι → Option α} {i j : ι} {a b : α}
    (h : Function.update f i (some b) j = some a) : (j = i ∧ b = a) ∨ (j ≠ i ∧ f j = some a) := by
  by_cases hj : j = i
  · subst hj
    exact Or.inl ⟨rfl, by simpa using h⟩
  · rw [Function.update_of_ne hj] at h
    exact Or.inr ⟨hj, h⟩

namespace Registry

variable {ω : Type}

/-- Every pointer in the Poller's map is to a Channel that exists and whose
descriptor is open. -/
def Alive (r : Registry ω) : Prop :=
  ∀ fd c, r.poller.channelMap.find fd = some c →
    r.owner c ≠ none ∧ r.isOpen (r.poller.channels c).fd = true

def Holds (lends : ω → Bool) (r : Registry ω) (c : ChannelId) : Prop :=
  ∃ o, r.owner c = some o ∧ (lends o = true → r.poller.Registered c)

def Unheld (lends : ω → Bool) (r : Registry ω) (fd : ℕ) : Prop :=
  ∀ c, r.Holds lends c → (r.poller.channels c).fd ≠ fd

def withChannel [DecidableEq ω] (r : Registry ω) (o : ω) (fd : ℕ) : Registry ω where
  poller := r.poller.newChannel r.next fd
  owner := Function.update r.owner r.next (some o)
  isOpen := Function.update r.isOpen fd true
  channelOf := Function.update r.channelOf o (some r.next)
  registers := Function.update r.registers o false
  next := r.next + 1

structure Sound (lends : ω → Bool) (r : Registry ω) : Prop where
  table : r.poller.Table
  owned : ∀ c, r.poller.Registered c → r.owner c ≠ none
  bounded : ∀ c, r.owner c ≠ none → c < r.next
  slot : ∀ o c, r.channelOf o = some c →
    r.owner c = some o ∧ (r.poller.Registered c ↔ r.registers o = true)
  filled : ∀ o, r.registers o = true → r.channelOf o ≠ none
  quiet : ∀ o c, r.channelOf o = some c → r.registers o = false →
    (r.poller.channels c).events = kNoneEvent
  opened : ∀ c, r.Holds lends c → r.isOpen (r.poller.channels c).fd = true
  apart : ∀ c d, r.Holds lends c → r.Holds lends d →
    (r.poller.channels c).fd = (r.poller.channels d).fd → c = d

variable {lends : ω → Bool} {r : Registry ω} {c d : ChannelId} {o : ω} {fd : ℕ}

namespace Sound

theorem holds_registered (h : r.Sound lends) (hc : r.poller.Registered c) : r.Holds lends c := by
  obtain ⟨o, ho⟩ := Option.ne_none_iff_exists'.mp (h.owned c hc)
  exact ⟨o, ho, fun _ => hc⟩

theorem alive (h : r.Sound lends) : r.Alive := by
  intro fd c hfind
  have hc : r.poller.Registered c := by
    unfold Poller.Registered
    rw [← h.table.keyed fd c hfind]
    exact hfind
  exact ⟨h.owned c hc, h.opened c (h.holds_registered hc)⟩

/-- An object has at most one Channel and a Channel at most one object. -/
theorem slot_inj (h : r.Sound lends) {o' : ω} (ho : r.channelOf o = some c)
    (ho' : r.channelOf o' = some c) : o = o' := by
  have heq := (h.slot o c ho).1.symm.trans (h.slot o' c ho').1
  exact Option.some.inj heq

theorem unheld_of_closed (h : r.Sound lends) (hfd : r.isOpen fd = false) :
    r.Unheld lends fd := by
  intro c hc heq
  have hopen := h.opened c hc
  rw [heq, hfd] at hopen
  exact Bool.false_ne_true hopen

theorem not_mapped (h : r.Sound lends) (hfd : r.Unheld lends fd) :
    r.poller.channelMap.find fd = none := by
  cases hfind : r.poller.channelMap.find fd with
  | none => rfl
  | some c =>
    have hkey : fd = (r.poller.channels c).fd := by
      have hkeyed := h.table.keyed fd c hfind
      omega
    have hc : r.poller.Registered c := by
      unfold Poller.Registered
      rw [← hkey]
      exact hfind
    exact absurd hkey.symm (hfd c (h.holds_registered hc))

/-- What an object says of itself may change as long as it has no Channel. -/
theorem forget [DecidableEq ω] (h : r.Sound lends) (o : ω) :
    Sound lends { r with channelOf := Function.update r.channelOf o none
                         registers := Function.update r.registers o false } := by
  refine ⟨h.table, h.owned, h.bounded, ?_, ?_, ?_, h.opened, h.apart⟩
  · intro o' c hslot
    obtain ⟨ho, hslot⟩ := of_update_none hslot
    simp only [Function.update_of_ne ho]
    exact h.slot o' c hslot
  · intro o' hreg
    by_cases ho : o' = o
    · subst ho
      simp at hreg
    · simp only [Function.update_of_ne ho] at hreg ⊢
      exact h.filled o' hreg
  · intro o' c hslot hreg
    obtain ⟨ho, hslot⟩ := of_update_none hslot
    simp only [Function.update_of_ne ho] at hreg
    exact h.quiet o' c hslot hreg

/-- An unregistered Channel that no object has is destroyed. -/
theorem destroy (h : r.Sound lends) (hreg : ¬ r.poller.Registered c)
    (hfree : ∀ o, r.channelOf o ≠ some c) :
    Sound lends { r with owner := Function.update r.owner c none } := by
  have hholds : ∀ d, Holds lends { r with owner := Function.update r.owner c none } d →
      r.Holds lends d := by
    rintro d ⟨o, hd, hlend⟩
    exact ⟨o, (of_update_none hd).2, hlend⟩
  refine ⟨h.table, ?_, ?_, ?_, h.filled, h.quiet, ?_, ?_⟩
  · intro d hd
    have hdc : d ≠ c := fun heq => hreg (heq ▸ hd)
    simpa [Function.update_of_ne hdc] using h.owned d hd
  · intro d hd
    obtain ⟨o, ho⟩ := Option.ne_none_iff_exists'.mp hd
    refine h.bounded d ?_
    rw [(of_update_none ho).2]
    simp
  · intro o d hslot
    have hdc : d ≠ c := fun heq => hfree o (heq ▸ hslot)
    simpa [Function.update_of_ne hdc] using h.slot o d hslot
  · intro d hd
    exact h.opened d (hholds d hd)
  · intro d e hd he
    exact h.apart d e (hholds d hd) (hholds e he)

/-- The descriptor of a destroyed Channel is held by no other one. -/
theorem destroy_unheld (h : r.Sound lends) (hc : r.Holds lends c) :
    Unheld lends { r with owner := Function.update r.owner c none } (r.poller.channels c).fd := by
  rintro d ⟨o, hd, hlend⟩ hfd
  obtain ⟨hdc, hd⟩ := of_update_none hd
  exact hdc (h.apart d c ⟨o, hd, hlend⟩ hc hfd)

theorem close (h : r.Sound lends) (hfd : r.Unheld lends fd) :
    Sound lends { r with isOpen := Function.update r.isOpen fd false } := by
  refine ⟨h.table, h.owned, h.bounded, h.slot, h.filled, h.quiet, ?_, h.apart⟩
  intro c hc
  have hne : (r.poller.channels c).fd ≠ fd := hfd c hc
  simpa [Function.update_of_ne hne] using h.opened c hc

/-- A number is used up without a Channel. -/
theorem advance (h : r.Sound lends) : Sound lends { r with next := r.next + 1 } :=
  ⟨h.table, h.owned, fun c hc => Nat.lt_succ_of_lt (h.bounded c hc), h.slot, h.filled, h.quiet,
    h.opened, h.apart⟩

theorem owner_next (h : r.Sound lends) : r.owner r.next = none := by
  by_contra hold
  exact absurd (h.bounded r.next hold) (lt_irrefl _)

section Create

variable [DecidableEq ω]

theorem fd_withChannel (r : Registry ω) (o : ω) (fd : ℕ) :
    ((r.withChannel o fd).poller.channels r.next).fd = fd := by
  simp [withChannel, Poller.newChannel]

theorem channels_withChannel (hd : d ≠ r.next) :
    (r.withChannel o fd).poller.channels d = r.poller.channels d :=
  Poller.newChannel_other hd

theorem registered_withChannel (h : r.Sound lends) (hfd : r.Unheld lends fd) :
    (r.withChannel o fd).poller.Registered d ↔ r.poller.Registered d :=
  Poller.registered_newChannel (fun hc => h.owned _ hc h.owner_next) (h.not_mapped hfd)

/-- Only the new Channel may hold what it did not hold before. -/
theorem holds_withChannel (h : r.Sound lends) (hfd : r.Unheld lends fd)
    (hd : (r.withChannel o fd).Holds lends d) : d = r.next ∨ d ≠ r.next ∧ r.Holds lends d := by
  obtain ⟨o', howner, hlend⟩ := hd
  rcases of_update_some howner with ⟨hdn, -⟩ | ⟨hdn, howner⟩
  · exact Or.inl hdn
  · exact Or.inr ⟨hdn, o', howner, fun hl => (h.registered_withChannel hfd).mp (hlend hl)⟩

/-- A new Channel for a descriptor that no other one holds. -/
theorem create (h : r.Sound lends) (hfd : r.Unheld lends fd) (o : ω) :
    Sound lends (r.withChannel o fd) := by
  have hunreg : ¬ r.poller.Registered r.next := fun hc => h.owned _ hc h.owner_next
  have hne : ∀ d, r.owner d ≠ none → d ≠ r.next := by
    rintro d hd rfl
    exact hd h.owner_next
  refine ⟨h.table.newChannel hunreg (h.not_mapped hfd), ?_, ?_, ?_, ?_, ?_, ?_, ?_⟩
  · intro d hd
    have hold := h.owned d ((h.registered_withChannel hfd).mp hd)
    simpa [withChannel, Function.update_of_ne (hne d hold)] using hold
  · intro d hd
    obtain ⟨o', howner⟩ := Option.ne_none_iff_exists'.mp hd
    rcases of_update_some howner with ⟨rfl, -⟩ | ⟨-, howner⟩
    · exact Nat.lt_succ_self _
    · exact Nat.lt_succ_of_lt (h.bounded d (by simp [howner]))
  · intro o' d hslot
    rw [h.registered_withChannel hfd]
    rcases of_update_some hslot with ⟨rfl, rfl⟩ | ⟨ho, hslot⟩
    · simp [withChannel, hunreg]
    · obtain ⟨hd, hiff⟩ := h.slot o' d hslot
      have hdn : d ≠ r.next := hne d (by simp [hd])
      simpa [withChannel, ho, hdn] using And.intro hd hiff
  · intro o' ho'
    by_cases ho : o' = o
    · simp [withChannel, ho]
    · simp only [withChannel, Function.update_of_ne ho] at ho' ⊢
      exact h.filled o' ho'
  · intro o' d hslot ho'
    rcases of_update_some hslot with ⟨rfl, rfl⟩ | ⟨ho, hslot⟩
    · simp [withChannel, Poller.newChannel, construct, kNoneEvent]
    · simp only [withChannel, Function.update_of_ne ho] at ho'
      have hdn : d ≠ r.next := hne d (by simp [(h.slot o' d hslot).1])
      rw [channels_withChannel hdn]
      exact h.quiet o' d hslot ho'
  · intro d hd
    rcases h.holds_withChannel hfd hd with rfl | ⟨hdn, hd⟩
    · rw [fd_withChannel]
      simp [withChannel]
    · rw [channels_withChannel hdn]
      simpa [withChannel, Function.update_of_ne (hfd d hd)] using h.opened d hd
  · intro d e hd he heq
    rcases h.holds_withChannel hfd hd with rfl | ⟨hdn, hd⟩
    · rcases h.holds_withChannel hfd he with rfl | ⟨hen, he⟩
      · rfl
      · rw [fd_withChannel, channels_withChannel hen] at heq
        exact absurd heq.symm (hfd e he)
    · rcases h.holds_withChannel hfd he with rfl | ⟨hen, he⟩
      · rw [fd_withChannel, channels_withChannel hdn] at heq
        exact absurd heq (hfd d hd)
      · rw [channels_withChannel hdn, channels_withChannel hen] at heq
        exact h.apart d e hd he heq

end Create

variable {poller : Poller} {interest : Interest} {registers : ω → Bool}

/-- A change of interest registers the Channel. -/
theorem change (h : r.Sound lends) (hexec : r.poller.change c interest = .ok poller)
    (howner : r.owner c ≠ none) (hopen : r.isOpen (r.poller.channels c).fd = true)
    (hsole : ∀ d, r.Holds lends d → (r.poller.channels d).fd = (r.poller.channels c).fd → d = c)
    (hself : ∀ o, r.channelOf o = some c → registers o = true)
    (hother : ∀ o, r.channelOf o ≠ some c → registers o = r.registers o) :
    Sound lends { r with poller := poller, registers := registers } := by
  have hch := Poller.change_changed h.table hexec
  have hholds : ∀ d, Holds lends { r with poller := poller, registers := registers } d →
      d = c ∨ r.Holds lends d := by
    rintro d ⟨o, hd, hlend⟩
    by_cases hdc : d = c
    · exact Or.inl hdc
    · exact Or.inr ⟨o, hd, fun hl => ((hch.registered d).mp (hlend hl)).resolve_left hdc⟩
  refine ⟨hch.table, ?_, h.bounded, ?_, ?_, ?_, ?_, ?_⟩
  · intro d hd
    rcases (hch.registered d).mp hd with rfl | hd
    · exact howner
    · exact h.owned d hd
  · intro o d hslot
    obtain ⟨hd, hiff⟩ := h.slot o d hslot
    refine ⟨hd, ?_⟩
    rw [hch.registered d]
    by_cases hdc : d = c
    · subst hdc
      simp [hself o hslot]
    · have hne : r.channelOf o ≠ some c := by
        rw [hslot]
        simpa using hdc
      simp [hdc, hiff, hother o hne]
  · intro o ho
    by_cases hslot : r.channelOf o = some c
    · simp [hslot]
    · simp only [hother o hslot] at ho
      exact h.filled o ho
  · intro o d hslot ho
    by_cases hdc : d = c
    · subst hdc
      simp [hself o hslot] at ho
    · have hne : r.channelOf o ≠ some c := by
        rw [hslot]
        simpa using hdc
      simp only [hother o hne] at ho
      simp only [hch.others d hdc]
      exact h.quiet o d hslot ho
  · intro d hd
    simp only [hch.fds]
    rcases hholds d hd with rfl | hd
    · exact hopen
    · exact h.opened d hd
  · intro d e hd he heq
    simp only [hch.fds] at heq
    rcases hholds d hd with rfl | hd
    · rcases hholds e he with rfl | he
      · rfl
      · exact (hsole e he heq.symm).symm
    · rcases hholds e he with rfl | he
      · exact hsole d hd heq
      · exact h.apart d e hd he heq

/-- A Channel that holds its descriptor may be registered. -/
theorem change_held (h : r.Sound lends) (hexec : r.poller.change c interest = .ok poller)
    (hc : r.Holds lends c) (hself : ∀ o, r.channelOf o = some c → registers o = true)
    (hother : ∀ o, r.channelOf o ≠ some c → registers o = r.registers o) :
    Sound lends { r with poller := poller, registers := registers } := by
  refine h.change hexec ?_ (h.opened c hc) (fun d hd heq => h.apart d c hd hc heq) hself hother
  obtain ⟨o, ho, -⟩ := hc
  simp [ho]

/-- An object that does not lend registers its Channel. -/
theorem register [DecidableEq ω] (h : r.Sound lends)
    (hexec : r.poller.change c interest = .ok poller) (hslot : r.channelOf o = some c)
    (hlends : lends o = false) :
    Sound lends { r with poller := poller
                         registers := Function.update r.registers o true } := by
  have hc : r.Holds lends c := ⟨o, (h.slot o c hslot).1, by simp [hlends]⟩
  refine h.change_held hexec hc ?_ ?_
  · intro o' ho'
    rw [h.slot_inj ho' hslot, Function.update_self]
  · intro o' ho'
    have hne : o' ≠ o := by
      rintro rfl
      exact ho' hslot
    exact Function.update_of_ne hne _ _

/-- A new Channel that is registered at once. -/
theorem createRegistered [DecidableEq ω] (h : r.Sound lends) (hfd : r.Unheld lends fd)
    (hexec : (r.poller.newChannel r.next fd).change r.next interest = .ok poller) (o : ω) :
    Sound lends { r.withChannel o fd with
      poller := poller, registers := Function.update r.registers o true } := by
  have hnew := h.create hfd o
  refine hnew.change hexec ?_ ?_ ?_ ?_ ?_
  · simp [withChannel]
  · rw [fd_withChannel]
    simp [withChannel]
  · intro d hd heq
    rcases h.holds_withChannel hfd hd with rfl | ⟨hdn, hd⟩
    · rfl
    · rw [fd_withChannel, channels_withChannel hdn] at heq
      exact absurd heq (hfd d hd)
  · intro o' ho'
    rw [hnew.slot_inj ho' (Function.update_self o _ _), Function.update_self]
  · intro o' ho'
    have ho : o' ≠ o := by
      rintro rfl
      simp [withChannel] at ho'
    simp [withChannel, Function.update_of_ne ho]

/-- A further change of interest of a Channel that is registered. -/
theorem change_registered (h : r.Sound lends) (hexec : r.poller.change c interest = .ok poller)
    (hc : r.poller.Registered c) : Sound lends { r with poller := poller } :=
  h.change_held hexec (h.holds_registered hc) (fun o ho => (h.slot o c ho).2.mp hc)
    (fun _ _ => rfl)

theorem removeChannel (h : r.Sound lends) (hexec : r.poller.removeChannel c = .ok poller)
    (hself : ∀ o, r.channelOf o = some c → registers o = false)
    (hother : ∀ o, r.channelOf o ≠ some c → registers o = r.registers o) :
    Sound lends { r with poller := poller, registers := registers } := by
  have hrm := Poller.removeChannel_removed h.table hexec
  have hholds : ∀ d, Holds lends { r with poller := poller, registers := registers } d →
      r.Holds lends d := by
    rintro d ⟨o, hd, hlend⟩
    exact ⟨o, hd, fun hl => ((hrm.registered d).mp (hlend hl)).2⟩
  refine ⟨hrm.table, ?_, h.bounded, ?_, ?_, ?_, ?_, ?_⟩
  · intro d hd
    exact h.owned d ((hrm.registered d).mp hd).2
  · intro o d hslot
    obtain ⟨hd, hiff⟩ := h.slot o d hslot
    refine ⟨hd, ?_⟩
    rw [hrm.registered d]
    by_cases hdc : d = c
    · subst hdc
      simp [hself o hslot]
    · have hne : r.channelOf o ≠ some c := by
        rw [hslot]
        simpa using hdc
      simp [hdc, hiff, hother o hne]
  · intro o ho
    by_cases hslot : r.channelOf o = some c
    · simp [hslot]
    · simp only [hother o hslot] at ho
      exact h.filled o ho
  · intro o d hslot ho
    simp only [hrm.events]
    by_cases hdc : d = c
    · subst hdc
      obtain ⟨-, -, -, -, hnone, -⟩ := Poller.removeChannel_cases hexec
      exact hnone
    · have hne : r.channelOf o ≠ some c := by
        rw [hslot]
        simpa using hdc
      simp only [hother o hne] at ho
      exact h.quiet o d hslot ho
  · intro d hd
    simp only [hrm.fds]
    exact h.opened d (hholds d hd)
  · intro d e hd he heq
    simp only [hrm.fds] at heq
    exact h.apart d e (hholds d hd) (hholds e he) heq

/-- An object takes its Channel out of the Poller. -/
theorem unregister [DecidableEq ω] (h : r.Sound lends)
    (hexec : r.poller.removeChannel c = .ok poller) (hslot : r.channelOf o = some c) :
    Sound lends { r with poller := poller
                         registers := Function.update r.registers o false } := by
  refine h.removeChannel hexec ?_ ?_
  · intro o' ho'
    rw [h.slot_inj ho' hslot, Function.update_self]
  · intro o' ho'
    have hne : o' ≠ o := by
      rintro rfl
      exact ho' hslot
    exact Function.update_of_ne hne _ _

/-- After its removal the Channel of a lender does not hold its descriptor. -/
theorem removeChannel_unheld (h : r.Sound lends)
    (hexec : r.poller.removeChannel c = .ok poller) (howner : r.owner c = some o)
    (hlends : lends o = true) :
    Unheld lends { r with poller := poller, registers := registers }
      (r.poller.channels c).fd := by
  have hrm := Poller.removeChannel_removed h.table hexec
  obtain ⟨-, -, -, hc, -⟩ := Poller.removeChannel_cases hexec
  rintro d ⟨o', hd, hlend⟩ heq
  simp only [hrm.fds] at heq
  have hold : r.Holds lends d := ⟨o', hd, fun hl => ((hrm.registered d).mp (hlend hl)).2⟩
  obtain rfl := h.apart d c hold (h.holds_registered hc) heq
  obtain rfl : o' = o := Option.some.inj (hd.symm.trans howner)
  exact ((hrm.registered d).mp (hlend hlends)).1 rfl

end Sound

end Registry

end TinyMuduo
