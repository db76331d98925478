import TinyMuduo.EPoller
import TinyMuduo.Lib.Runs

/-!
The index of a Channel mirrors the kernel. Between two calls the index is
determined by the other two representations: whether `channels_` leads to the
Channel, and whether its descriptor is in the epoll set. From this every call
of epoll_ctl(2) is one that succeeds, and every pointer that epoll_wait(2)
returns is in `channels_`.
-/
namespace TinyMuduo.EPoller

open Checked Channel Runs

/-- The index that `channels_` and the epoll set determine. -/
def indexOf (p : EPoller) (c : ChannelId) : ℤ :=
  if p.Registered c then
    if (p.epollSet (p.channels c).fd).isSome then kAdded else kDeleted
  else kNew

structure Mirror (p : EPoller) : Prop where
  keyed : ∀ fd c, p.channelMap.find fd = some c → fd = (p.channels c).fd
  index : ∀ c, (p.channels c).index = p.indexOf c
  ptr : ∀ fd event, p.epollSet fd = some event → p.channelMap.find fd = some event.ptr

section Index

variable {p : EPoller} {c : ChannelId}

theorem Mirror.index_new (h : Mirror p) :
    (p.channels c).index = kNew ↔ ¬ p.Registered c := by
  rw [h.index, indexOf]
  split
  · rename_i hreg
    split <;> simp [hreg, kNew, kAdded, kDeleted]
  · rename_i hreg
    simp [hreg]

theorem Mirror.index_added (h : Mirror p) :
    (p.channels c).index = kAdded ↔
      p.Registered c ∧ (p.epollSet (p.channels c).fd).isSome = true := by
  rw [h.index, indexOf]
  split
  · rename_i hreg
    split
    · rename_i hset
      simp [hreg, hset]
    · rename_i hset
      simp [hset, kAdded, kDeleted]
  · rename_i hreg
    simp [hreg, kNew, kAdded]

theorem Mirror.index_deleted (h : Mirror p) :
    (p.channels c).index = kDeleted ↔
      p.Registered c ∧ p.epollSet (p.channels c).fd = none := by
  rw [h.index, indexOf]
  split
  · rename_i hreg
    split
    · rename_i hset
      simp only [kAdded, kDeleted, hreg, true_and]
      rw [Option.isSome_iff_ne_none] at hset
      simp [hset]
    · rename_i hset
      simp only [Option.isSome_iff_ne_none, ne_eq, not_not] at hset
      simp [hreg, hset]
  · rename_i hreg
    simp [hreg, kNew, kDeleted]

/-- A descriptor without a map entry is not in the epoll set. -/
theorem Mirror.absent (h : Mirror p) {fd : ℕ} (hfd : p.channelMap.find fd = none) :
    p.epollSet fd = none := by
  by_contra hne
  obtain ⟨event, hevent⟩ := Option.ne_none_iff_exists'.mp hne
  rw [h.ptr fd event hevent] at hfd
  cases hfd

theorem Mirror.setEvents (h : Mirror p) (c : ChannelId) (events : EventMask) :
    Mirror (p.setEvents c events) := by
  refine ⟨?_, ?_, h.ptr⟩
  · intro fd d hfind
    rw [setEvents_fd]
    exact h.keyed fd d hfind
  · intro d
    rw [setEvents_index, h.index]
    simp only [indexOf, Registered, setEvents_fd]
    rfl

end Index

/-! What the operations do. -/

def ctl (p : EPoller) (operation : EpollOp) (c : ChannelId) (entry : Option EpollEvent) :
    EPoller :=
  { p with
    epollSet := Function.update p.epollSet (p.channels c).fd entry
    calls := p.calls ++ [⟨operation, (p.channels c).fd, (p.epollSet (p.channels c).fd).isSome⟩] }

section Operations

variable {p p' : EPoller} {c : ChannelId}

theorem update_add (h : p.epollSet (p.channels c).fd = none) :
    p.update .add c = .ok (p.ctl .add c (some ⟨(p.channels c).events, c⟩)) := by
  simp [update, epollCtl, ctl, h]

theorem update_mod (h : (p.epollSet (p.channels c).fd).isSome = true) :
    p.update .mod c = .ok (p.ctl .mod c (some ⟨(p.channels c).events, c⟩)) := by
  obtain ⟨event, hevent⟩ := Option.isSome_iff_exists.mp h
  simp [update, epollCtl, ctl, hevent]

theorem update_del (h : (p.epollSet (p.channels c).fd).isSome = true) :
    p.update .del c = .ok (p.ctl .del c none) := by
  obtain ⟨event, hevent⟩ := Option.isSome_iff_exists.mp h
  simp [update, epollCtl, ctl, hevent]

def leaves (p : EPoller) (c : ChannelId) : Bool :=
  decide ((p.channels c).index = kAdded) && (p.channels c).isNoneEvent

structure Updated (p p' : EPoller) (c : ChannelId) : Prop where
  free : p.channelMap.find (p.channels c).fd = none ∨ p.Registered c
  others : ∀ d, d ≠ c → p'.channels d = p.channels d
  fd : (p'.channels c).fd = (p.channels c).fd
  events : (p'.channels c).events = (p.channels c).events
  index : (p'.channels c).index = if p.leaves c then kDeleted else kAdded
  find : ∀ fd, p'.channelMap.find fd =
    if fd = (p.channels c).fd then some c else p.channelMap.find fd
  epollSet : p'.epollSet = Function.update p.epollSet (p.channels c).fd
    (if p.leaves c then none else some ⟨(p.channels c).events, c⟩)
  calls : ∃ call, p'.calls = p.calls ++ [call] ∧
    (call.present = true ↔ call.operation ≠ .add)
  size : p'.eventListSize = p.eventListSize

theorem Registered.find_eq (h : p.Registered c) (fd : ℤ) :
    p.channelMap.find fd = if fd = (p.channels c).fd then some c else p.channelMap.find fd := by
  split
  · rename_i hfd
    rw [hfd]
    exact h
  · rfl

theorem setIndex_ctl (p : EPoller) (c : ChannelId) (index : ℤ) (operation : EpollOp)
    (entry : Option EpollEvent) :
    (p.setIndex c index).ctl operation c entry = (p.ctl operation c entry).setIndex c index := by
  unfold ctl
  rw [setIndex_fd]
  rfl

theorem setIndex_self {index : ℤ} (h : (p.channels c).index = index) : p.setIndex c index = p := by
  subst h
  unfold setIndex
  rw [Function.update_eq_self]

/-- The common part of the branches: one call of epoll_ctl(2), then the index. -/
theorem updated_ctl {m : ChannelMap} {operation : EpollOp} {entry : Option EpollEvent} {index : ℤ}
    (hfree : p.channelMap.find (p.channels c).fd = none ∨ p.Registered c)
    (hm : ∀ fd, m.find fd = if fd = (p.channels c).fd then some c else p.channelMap.find fd)
    (hpresent : (p.epollSet (p.channels c).fd).isSome = true ↔ operation ≠ .add)
    (hentry : (if p.leaves c then none else some ⟨(p.channels c).events, c⟩) = entry)
    (hindex : (if p.leaves c then kDeleted else kAdded) = index) :
    Updated p (({ p with channelMap := m }.ctl operation c entry).setIndex c index) c where
  free := hfree
  others d hd := setIndex_other hd
  fd := setIndex_fd ..
  events := setIndex_events ..
  index := by
    rw [hindex]
    exact setIndex_index ..
  find := hm
  epollSet := by
    rw [hentry]
    rfl
  calls := ⟨_, rfl, hpresent⟩
  size := rfl

theorem updateChannel_new (h : Mirror p) (hindex : (p.channels c).index = kNew)
    (hfind : p.channelMap.find (p.channels c).fd = none) :
    ∃ p', p.updateChannel c = .ok p' ∧ Updated p p' c := by
  have hset := h.absent hfind
  have hleaves : p.leaves c = false := by simp [leaves, hindex, kNew, kAdded]
  have hrun : p.updateChannel c = .ok
      (({ p with channelMap := p.channelMap.insert (p.channels c).fd c }.ctl
        .add c (some ⟨(p.channels c).events, c⟩)).setIndex c kAdded) := by
    rw [updateChannel, if_pos hindex, require_pos _ hfind, ok_bind,
      update_add (by simpa using hset), setIndex_ctl]
    simp
  refine ⟨_, hrun, updated_ctl (Or.inl hfind) ?_ ?_ ?_ ?_⟩
  · exact fun fd => ChannelMap.find_insert_eq _ _ _ _
  · simp [hset]
  · rw [hleaves]
    rfl
  · rw [hleaves]
    rfl

theorem updateChannel_deleted (h : Mirror p) (hindex : (p.channels c).index = kDeleted) :
    ∃ p', p.updateChannel c = .ok p' ∧ Updated p p' c := by
  obtain ⟨hreg, hset⟩ := h.index_deleted.mp hindex
  have hnew : (p.channels c).index ≠ kNew := by rw [hindex]; decide
  have hleaves : p.leaves c = false := by simp [leaves, hindex, kDeleted, kAdded]
  have hfind : p.channelMap.find (p.channels c).fd = some c := hreg
  have hfound : p.channelMap.find (p.channels c).fd ≠ none := by simp [hfind]
  have hrun : p.updateChannel c = .ok
      ((p.ctl .add c (some ⟨(p.channels c).events, c⟩)).setIndex c kAdded) := by
    rw [updateChannel, if_neg hnew, if_pos hindex, require_pos _ hfound, ok_bind,
      require_pos _ hfind, ok_bind, update_add (by simpa using hset), setIndex_ctl]
    simp
  refine ⟨_, hrun, updated_ctl (Or.inr hreg) hreg.find_eq ?_ ?_ ?_⟩
  · simp [hset]
  · rw [hleaves]
    rfl
  · rw [hleaves]
    rfl

/-- The branch for a Channel that is in the epoll set, up to its last test. -/
theorem updateChannel_added (h : Mirror p) (hindex : (p.channels c).index = kAdded) :
    ∃ p', p.updateChannel c = .ok p' ∧ Updated p p' c := by
  obtain ⟨hreg, hset⟩ := h.index_added.mp hindex
  have hnew : (p.channels c).index ≠ kNew := by rw [hindex]; decide
  have hdeleted : (p.channels c).index ≠ kDeleted := by rw [hindex]; decide
  have hfind : p.channelMap.find (p.channels c).fd = some c := hreg
  have hfound : p.channelMap.find (p.channels c).fd ≠ none := by simp [hfind]
  have hbranch : p.updateChannel c = if (p.channels c).isNoneEvent then
      .ok ((p.ctl .del c none).setIndex c kDeleted)
      else .ok (p.ctl .mod c (some ⟨(p.channels c).events, c⟩)) := by
    rw [updateChannel, if_neg hnew, if_neg hdeleted, require_pos _ hfound, ok_bind,
      require_pos _ hfind, ok_bind, require_pos _ hindex, ok_bind, update_del hset,
      update_mod hset]
    rfl
  cases hnone : (p.channels c).isNoneEvent with
  | true =>
    have hleaves : p.leaves c = true := by simp [leaves, hindex, hnone]
    rw [hnone, if_pos rfl] at hbranch
    refine ⟨_, hbranch, updated_ctl (Or.inr hreg) hreg.find_eq ?_ ?_ ?_⟩
    · simp [hset]
    · rw [hleaves]
      rfl
    · rw [hleaves]
      rfl
  | false =>
    have hleaves : p.leaves c = false := by simp [leaves, hnone]
    -- the index stays: this branch is the common one with an index written over itself
    have hself := setIndex_self (p := p.ctl .mod c (some ⟨(p.channels c).events, c⟩)) (c := c)
      hindex
    rw [hnone, if_neg Bool.false_ne_true, ← hself] at hbranch
    refine ⟨_, hbranch, updated_ctl (Or.inr hreg) hreg.find_eq ?_ ?_ ?_⟩
    · simp [hset]
    · rw [hleaves]
      rfl
    · rw [hleaves]
      rfl

/-- `updateChannel` fails only for a new Channel whose descriptor belongs to
another one. -/
theorem updateChannel_spec (h : Mirror p) (c : ChannelId) :
    (∃ p', p.updateChannel c = .ok p' ∧ Updated p p' c) ∨
      (p.updateChannel c = .error .epollFdMapped ∧ ¬ p.Registered c ∧
        p.channelMap.find (p.channels c).fd ≠ none) := by
  by_cases hreg : p.Registered c
  · left
    cases hset : p.epollSet (p.channels c).fd with
    | none => exact updateChannel_deleted h (h.index_deleted.mpr ⟨hreg, hset⟩)
    | some event => exact updateChannel_added h (h.index_added.mpr ⟨hreg, by simp [hset]⟩)
  · have hindex := h.index_new.mpr hreg
    by_cases hfind : p.channelMap.find (p.channels c).fd = none
    · exact Or.inl (updateChannel_new h hindex hfind)
    · refine Or.inr ⟨?_, hreg, hfind⟩
      rw [updateChannel, if_pos hindex, require, if_neg hfind]
      rfl

/-- Only Channel `c` and its descriptor changed, and no other registered
Channel has that descriptor. -/
structure Touched (p p' : EPoller) (c : ChannelId) : Prop where
  free : p.channelMap.find (p.channels c).fd = none ∨ p.Registered c
  others : ∀ d, d ≠ c → p'.channels d = p.channels d
  fd : (p'.channels c).fd = (p.channels c).fd
  find : ∀ fd : ℤ, fd ≠ (p.channels c).fd → p'.channelMap.find fd = p.channelMap.find fd
  epollSet : ∀ fd : ℕ, fd ≠ (p.channels c).fd → p'.epollSet fd = p.epollSet fd
  own : ∀ d, p'.channelMap.find (p.channels c).fd = some d → d = c

theorem Touched.fds (h : Touched p p' c) (d : ChannelId) :
    (p'.channels d).fd = (p.channels d).fd := by
  by_cases hd : d = c
  · subst hd
    exact h.fd
  · rw [h.others d hd]

/-- A registered Channel does not share its descriptor with `c`. -/
theorem Touched.fd_ne (h : Touched p p' c) {d : ChannelId} (hd : d ≠ c) (hreg : p.Registered d) :
    (p.channels d).fd ≠ (p.channels c).fd := by
  intro heq
  have hfound : p.channelMap.find (p.channels c).fd = some d := heq ▸ hreg
  rcases h.free with hnone | hc
  · rw [hnone] at hfound
    cases hfound
  · exact hd (Option.some.inj (hfound.symm.trans hc))

theorem Touched.registered_other (h : Touched p p' c) {d : ChannelId} (hd : d ≠ c) :
    p'.Registered d ↔ p.Registered d := by
  by_cases hfd : (p.channels d).fd = (p.channels c).fd
  · -- the descriptor is that of `c`, before the step and after it
    refine ⟨fun hreg => ?_, fun hreg => absurd hfd (h.fd_ne hd hreg)⟩
    unfold Registered at hreg
    rw [h.others d hd, hfd] at hreg
    exact absurd (h.own d hreg) hd
  · unfold Registered
    rw [h.others d hd, h.find _ (by exact_mod_cast hfd)]

/-- It is enough to look at the Channel and the descriptor that changed. -/
theorem Touched.mirror (h : Mirror p) (ht : Touched p p' c)
    (hindex : (p'.channels c).index = p'.indexOf c)
    (hptr : ∀ event, p'.epollSet (p.channels c).fd = some event →
      p'.channelMap.find (p.channels c).fd = some event.ptr) : Mirror p' := by
  refine ⟨?_, ?_, ?_⟩
  · intro fd d hfind
    by_cases hfd : fd = (p.channels c).fd
    · subst hfd
      rw [ht.own d hfind, ht.fd]
    · rw [ht.find fd hfd] at hfind
      have hkey := h.keyed fd d hfind
      by_cases hd : d = c
      · subst hd
        exact absurd hkey hfd
      · rw [ht.others d hd, hkey]
  · intro d
    by_cases hd : d = c
    · subst hd
      exact hindex
    · unfold indexOf
      rw [ht.others d hd, h.index d, indexOf]
      by_cases hreg : p.Registered d
      · rw [if_pos hreg, if_pos ((ht.registered_other hd).mpr hreg),
          ht.epollSet _ (ht.fd_ne hd hreg)]
      · rw [if_neg hreg, if_neg (mt (ht.registered_other hd).mp hreg)]
  · intro fd event hevent
    by_cases hfd : fd = (p.channels c).fd
    · subst hfd
      exact hptr event hevent
    · rw [ht.epollSet fd hfd] at hevent
      rw [ht.find fd (by exact_mod_cast hfd)]
      exact h.ptr fd event hevent

theorem Updated.touched (h : Updated p p' c) : Touched p p' c where
  free := h.free
  others := h.others
  fd := h.fd
  find fd hfd := by rw [h.find, if_neg hfd]
  epollSet fd hfd := by rw [h.epollSet, Function.update_of_ne hfd]
  own d hfind := by
    rw [h.find, if_pos rfl] at hfind
    exact (Option.some.inj hfind).symm

theorem Updated.registered (h : Updated p p' c) : p'.Registered c := by
  unfold Registered
  rw [h.find, h.fd, if_pos rfl]

theorem Updated.mirror (h : Mirror p) (hu : Updated p p' c) : Mirror p' := by
  refine hu.touched.mirror h ?_ ?_
  · rw [indexOf, if_pos hu.registered, hu.index, hu.fd, hu.epollSet, Function.update_self]
    cases p.leaves c with
    | true => rfl
    | false => rfl
  · intro event hevent
    rw [hu.epollSet, Function.update_self] at hevent
    split at hevent
    · cases hevent
    · obtain rfl := Option.some.inj hevent
      rw [hu.find, if_pos rfl]

structure Removed (p p' : EPoller) (c : ChannelId) : Prop where
  registered : p.Registered c
  others : ∀ d, d ≠ c → p'.channels d = p.channels d
  fd : (p'.channels c).fd = (p.channels c).fd
  events : (p'.channels c).events = (p.channels c).events
  index : (p'.channels c).index = kNew
  find : ∀ fd, p'.channelMap.find fd =
    if fd = (p.channels c).fd then none else p.channelMap.find fd
  epollSet : p'.epollSet = Function.update p.epollSet (p.channels c).fd none
  calls : p'.calls = p.calls ∨ ∃ call, p'.calls = p.calls ++ [call] ∧
    (call.present = true ↔ call.operation ≠ .add)
  size : p'.eventListSize = p.eventListSize

/-- `removeChannel` after its assertions. -/
theorem removeChannel_checked (hreg : p.Registered c)
    (hnone : (p.channels c).isNoneEvent = true)
    (hindex : (p.channels c).index = kAdded ∨ (p.channels c).index = kDeleted) :
    p.removeChannel c = if (p.channels c).index = kAdded then do
        let deleted ← { p with
          channelMap := p.channelMap.erase (p.channels c).fd }.update .del c
        return deleted.setIndex c kNew
      else .ok ({ p with channelMap := p.channelMap.erase (p.channels c).fd }.setIndex c kNew) := by
  have hfind : p.channelMap.find (p.channels c).fd = some c := hreg
  have hfound : p.channelMap.find (p.channels c).fd ≠ none := by simp [hfind]
  rw [removeChannel, require_pos _ hfound, ok_bind, require_pos _ hfind, ok_bind,
    require_pos _ hnone, ok_bind, require_pos _ hindex, ok_bind]
  simp only [if_neg hfound, require_pos, ok_bind]
  rfl

/-- The common part of its branches: the map entry, the epoll set, then the index. -/
theorem removed_erase {q : EPoller} (hreg : p.Registered c) (hchannels : q.channels = p.channels)
    (hmap : q.channelMap = p.channelMap.erase (p.channels c).fd)
    (hset : q.epollSet = Function.update p.epollSet (p.channels c).fd none)
    (hcalls : q.calls = p.calls ∨ ∃ call, q.calls = p.calls ++ [call] ∧
      (call.present = true ↔ call.operation ≠ .add)) (hsize : q.eventListSize = p.eventListSize) :
    Removed p (q.setIndex c kNew) c where
  registered := hreg
  others d hd := by rw [setIndex_other hd, hchannels]
  fd := by rw [setIndex_fd, hchannels]
  events := by rw [setIndex_events, hchannels]
  index := setIndex_index ..
  find fd := by rw [setIndex_channelMap, hmap, ChannelMap.find_erase_eq]
  epollSet := by rw [setIndex_epollSet, hset]
  calls := hcalls
  size := hsize

/-- `removeChannel` succeeds exactly on a registered Channel without interest. -/
theorem removeChannel_spec (h : Mirror p) (hreg : p.Registered c)
    (hnone : (p.channels c).isNoneEvent = true) :
    ∃ p', p.removeChannel c = .ok p' ∧ Removed p p' c := by
  cases hset : p.epollSet (p.channels c).fd with
  | none =>
    have hindex := h.index_deleted.mpr ⟨hreg, hset⟩
    have hadded : (p.channels c).index ≠ kAdded := by rw [hindex]; decide
    have hrun : p.removeChannel c = .ok
        ({ p with channelMap := p.channelMap.erase (p.channels c).fd }.setIndex c kNew) := by
      rw [removeChannel_checked hreg hnone (Or.inr hindex), if_neg hadded]
    refine ⟨_, hrun, removed_erase hreg rfl rfl ?_ (Or.inl rfl) rfl⟩
    rw [← hset, Function.update_eq_self]
  | some event =>
    have hindex := h.index_added.mpr ⟨hreg, by simp [hset]⟩
    have hrun : p.removeChannel c = .ok
        (({ p with channelMap := p.channelMap.erase (p.channels c).fd }.ctl .del c
          none).setIndex c kNew) := by
      rw [removeChannel_checked hreg hnone (Or.inl hindex), if_pos hindex,
        update_del (by simp [hset])]
      rfl
    refine ⟨_, hrun, removed_erase hreg rfl rfl rfl (Or.inr ⟨_, rfl, ?_⟩) rfl⟩
    simp [hset]

theorem removeChannel_ok (h : Mirror p) (hexec : p.removeChannel c = .ok p') :
    Removed p p' c ∧ (p.channels c).isNoneEvent = true := by
  have hchecks := hexec
  simp only [removeChannel, bind_eq_ok, require_eq_ok] at hchecks
  obtain ⟨-, -, -, hreg, -, hnone, -⟩ := hchecks
  obtain ⟨q, hq, hremoved⟩ := removeChannel_spec h hreg hnone
  obtain rfl := Except.ok.inj (hq.symm.trans hexec)
  exact ⟨hremoved, hnone⟩

/-- Which assertion fails when the Channel is not registered or has interest. -/
theorem removeChannel_error {e : Fault} (h : Mirror p) (hexec : p.removeChannel c = .error e) :
    ¬ (p.Registered c ∧ (p.channels c).isNoneEvent = true) ∧ e ≠ .epollCtl := by
  have hrefused : ¬ (p.Registered c ∧ (p.channels c).isNoneEvent = true) := by
    rintro ⟨hreg, hnone⟩
    obtain ⟨q, hq, -⟩ := removeChannel_spec h hreg hnone
    rw [hq] at hexec
    cases hexec
  refine ⟨hrefused, ?_⟩
  simp only [removeChannel, bind_eq_error, require_eq_error, require_eq_ok] at hexec
  rcases hexec with ⟨-, rfl⟩ | ⟨-, -, ⟨-, rfl⟩ | ⟨-, hreg, ⟨-, rfl⟩ | ⟨-, hnone, -⟩⟩⟩
  · decide
  · decide
  · decide
  · exact absurd ⟨hreg, hnone⟩ hrefused

theorem Removed.touched (h : Removed p p' c) : Touched p p' c where
  free := Or.inr h.registered
  others := h.others
  fd := h.fd
  find fd hfd := by rw [h.find, if_neg hfd]
  epollSet fd hfd := by rw [h.epollSet, Function.update_of_ne hfd]
  own d hfind := by
    rw [h.find, if_pos rfl] at hfind
    cases hfind

theorem Removed.registered_iff (h : Removed p p' c) {d : ChannelId} :
    p'.Registered d ↔ d ≠ c ∧ p.Registered d := by
  by_cases hd : d = c
  · subst hd
    unfold Registered
    rw [h.find, h.fd, if_pos rfl]
    simp
  · rw [h.touched.registered_other hd]
    simp [hd]

theorem Removed.mirror (h : Mirror p) (hr : Removed p p' c) : Mirror p' := by
  refine hr.touched.mirror h ?_ ?_
  · have hgone : ¬ p'.Registered c := fun hreg => (hr.registered_iff.mp hreg).1 rfl
    rw [indexOf, if_neg hgone, hr.index]
  · intro event hevent
    rw [hr.epollSet, Function.update_self] at hevent
    cases hevent

/-! Polling. -/

structure SameSets (p p' : EPoller) : Prop where
  fd : ∀ c, (p'.channels c).fd = (p.channels c).fd
  events : ∀ c, (p'.channels c).events = (p.channels c).events
  index : ∀ c, (p'.channels c).index = (p.channels c).index
  channelMap : p'.channelMap = p.channelMap
  epollSet : p'.epollSet = p.epollSet
  calls : p'.calls = p.calls

theorem SameSets.registered (h : SameSets p p') : p'.Registered c ↔ p.Registered c := by
  unfold Registered
  rw [h.channelMap, h.fd]

theorem SameSets.mirror (h : Mirror p) (hs : SameSets p p') : Mirror p' := by
  refine ⟨?_, ?_, ?_⟩
  · intro fd c hfind
    rw [hs.fd]
    exact h.keyed fd c (hs.channelMap ▸ hfind)
  · intro c
    rw [hs.index, h.index]
    simp only [indexOf, hs.registered, hs.fd, hs.epollSet]
  · intro fd event hevent
    rw [hs.channelMap]
    exact h.ptr fd event (hs.epollSet ▸ hevent)

/-- The loop passes its assertions for pointers that `channels_` has, and
reports them in order. -/
theorem fillActive_spec (events : List EpollEvent) (active : List ChannelId)
    (hevents : ∀ event ∈ events, p.Registered event.ptr) :
    ∃ p', p.fillActive active events = .ok (p', active ++ events.map EpollEvent.ptr) ∧
      SameSets p p' ∧ p'.eventListSize = p.eventListSize := by
  induction events generalizing p active with
  | nil =>
    exact ⟨p, by simp [fillActive], ⟨fun _ => rfl, fun _ => rfl, fun _ => rfl, rfl, rfl, rfl⟩, rfl⟩
  | cons event rest ih =>
    have hfound : p.channelMap.find (p.channels event.ptr).fd = some event.ptr :=
      hevents event List.mem_cons_self
    have hrest : ∀ e ∈ rest, (p.setRevents event.ptr event.events).Registered e.ptr := by
      intro e he
      unfold Registered
      rw [setRevents_fd]
      exact hevents e (List.mem_cons_of_mem event he)
    obtain ⟨p', hfill, hsame, hsize⟩ := ih (active ++ [event.ptr]) hrest
    refine ⟨p', ?_, ?_, hsize⟩
    · simp [fillActive, hfound, demand, require, hfill]
    · refine ⟨fun c => ?_, fun c => ?_, fun c => ?_, hsame.channelMap, hsame.epollSet,
        hsame.calls⟩
      · rw [hsame.fd, setRevents_fd]
      · rw [hsame.events, setRevents_events]
      · rw [hsame.index, setRevents_index]

theorem poll_spec {result : Option (List EpollEvent)}
    (hevents : ∀ events ∈ result, events.length ≤ p.eventListSize ∧
      ∀ event ∈ events, p.Registered event.ptr) :
    ∃ p' active, p.poll result = .ok (p', active) ∧ SameSets p p' := by
  have hself : SameSets p p := ⟨fun _ => rfl, fun _ => rfl, fun _ => rfl, rfl, rfl, rfl⟩
  cases result with
  | none => exact ⟨p, [], rfl, hself⟩
  | some events =>
    cases events with
    | nil => exact ⟨p, [], rfl, hself⟩
    | cons event rest =>
      obtain ⟨hlen, hregistered⟩ := hevents _ rfl
      obtain ⟨p', hfill, hsame, -⟩ := fillActive_spec (event :: rest) [] hregistered
      have hall : p.fillActiveChannels (event :: rest) =
          .ok (p', [] ++ (event :: rest).map EpollEvent.ptr) := by
        rw [fillActiveChannels, require_pos _ hlen, ok_bind, hfill]
      have hpoll : p.poll (some (event :: rest)) = .ok
          (if (event :: rest).length = p.eventListSize
            then { p' with eventListSize := p.eventListSize * 2 } else p',
            [] ++ (event :: rest).map EpollEvent.ptr) := by
        simp only [poll, hall, ok_bind, pure_eq_ok]
      refine ⟨_, _, hpoll, ?_⟩
      split
      · exact ⟨hsame.fd, hsame.events, hsame.index, hsame.channelMap, hsame.epollSet,
          hsame.calls⟩
      · exact hsame

end Operations

end TinyMuduo.EPoller

/-! Runs. -/

namespace TinyMuduo.EPollerRuns

open Checked Channel Runs EPoller

/-- An EPoller with the mask that each Channel had at its last update. -/
structure State where
  epoller : EPoller
  updated : ChannelId → EventMask

/-- A call of the loop's thread. An update comes with the mask that the
Channel has then, a poll with the descriptors and events that the kernel
reports, or with an error. -/
inductive Input
  | updateChannel (c : ChannelId) (events : EventMask)
  | removeChannel (c : ChannelId)
  | poll (ready : Option (List (ℕ × EventMask)))

/-- The kernel reports descriptors of its epoll set, no more than it has room
for. -/
def Allowed (s : State) : Input → Prop
  | .poll (some ready) => ready.length ≤ s.epoller.eventListSize ∧
      ∀ r ∈ ready, (s.epoller.epollSet r.1).isSome = true
  | _ => True

instance (s : State) : (i : Input) → Decidable (Allowed s i)
  | .poll (some ready) => inferInstanceAs (Decidable (ready.length ≤ s.epoller.eventListSize ∧
      ∀ r ∈ ready, (s.epoller.epollSet r.1).isSome = true))
  | .updateChannel _ _ | .removeChannel _ | .poll none => isTrue trivial

def stored (p : EPoller) (ready : List (ℕ × EventMask)) : List EpollEvent :=
  ready.filterMap fun r => (p.epollSet r.1).map fun event => ⟨r.2, event.ptr⟩

def exec (s : State) : Input → Except Fault State
  | .updateChannel c events => do
      let epoller ← (s.epoller.setEvents c events).updateChannel c
      return ⟨epoller, Function.update s.updated c events⟩
  | .removeChannel c => do
      let epoller ← s.epoller.removeChannel c
      return { s with epoller := epoller }
  | .poll ready => do
      let (epoller, _) ← s.epoller.poll (ready.map (stored s.epoller))
      return { s with epoller := epoller }

def system : System State Input Fault where
  start := fun s => ∃ fds, s = ⟨EPoller.initial fds, fun _ => kNoneEvent⟩
  allowed := Allowed
  exec := exec

instance (s : State) (i : Input) : Decidable (system.allowed s i) :=
  inferInstanceAs (Decidable (Allowed s i))

structure Inv (s : State) : Prop where
  mirror : Mirror s.epoller
  masks : ∀ fd event, s.epoller.epollSet fd = some event → event.events = s.updated event.ptr
  calls : ∀ call ∈ s.epoller.calls, call.present = true ↔ call.operation ≠ .add

section Steps

variable {s s' : State} {c : ChannelId} {events : EventMask}

theorem Inv.calls_append (h : Inv s) {last : EpollCall}
    (hlast : last.present = true ↔ last.operation ≠ .add) :
    ∀ call ∈ s.epoller.calls ++ [last], call.present = true ↔ call.operation ≠ .add := by
  intro call hcall
  rcases List.mem_append.mp hcall with hcall | hcall
  · exact h.calls call hcall
  · obtain rfl := List.mem_singleton.mp hcall
    exact hlast

theorem updateChannel_inv (h : Inv s) {p : EPoller}
    (hu : Updated (s.epoller.setEvents c events) p c) :
    Inv ⟨p, Function.update s.updated c events⟩ := by
  refine ⟨hu.mirror (h.mirror.setEvents c events), ?_, ?_⟩
  · intro fd event hevent
    have hset : Function.update s.epoller.epollSet _ _ fd = some event := hu.epollSet ▸ hevent
    by_cases hfd : fd = ((s.epoller.setEvents c events).channels c).fd
    · subst hfd
      rw [Function.update_self, setEvents_events] at hset
      split at hset
      · cases hset
      · obtain rfl := Option.some.inj hset
        exact (Function.update_self c events s.updated).symm
    · rw [Function.update_of_ne hfd] at hset
      have hfind := h.mirror.ptr fd event hset
      have hne : event.ptr ≠ c := by
        rintro hptr
        have hkey := h.mirror.keyed fd event.ptr hfind
        rw [hptr] at hkey
        rw [setEvents_fd] at hfd
        exact hfd (by exact_mod_cast hkey)
      change event.events = Function.update s.updated c events event.ptr
      rw [Function.update_of_ne hne]
      exact h.masks fd event hset
  · intro call hcall
    obtain ⟨last, hcalls, hlast⟩ := hu.calls
    exact h.calls_append hlast call (hcalls ▸ hcall)

theorem removeChannel_inv (h : Inv s) {p : EPoller} (hr : Removed s.epoller p c) :
    Inv { s with epoller := p } := by
  refine ⟨hr.mirror h.mirror, ?_, ?_⟩
  · intro fd event hevent
    have hset : Function.update s.epoller.epollSet _ none fd = some event :=
      hr.epollSet ▸ hevent
    by_cases hfd : fd = (s.epoller.channels c).fd
    · subst hfd
      rw [Function.update_self] at hset
      cases hset
    · rw [Function.update_of_ne hfd] at hset
      exact h.masks fd event hset
  · intro call hcall
    rcases hr.calls with hcalls | ⟨last, hcalls, hlast⟩
    · exact h.calls call (hcalls ▸ hcall)
    · exact h.calls_append hlast call (hcalls ▸ hcall)

/-- What the kernel returns passes the assertions of `fillActiveChannels`. -/
theorem poll_inv (h : Inv s) {ready : Option (List (ℕ × EventMask))}
    (hallow : Allowed s (.poll ready)) : ∃ s', exec s (.poll ready) = .ok s' ∧ Inv s' := by
  have hevents : ∀ events ∈ ready.map (stored s.epoller),
      events.length ≤ s.epoller.eventListSize ∧
        ∀ event ∈ events, s.epoller.Registered event.ptr := by
    intro events hevents
    obtain ⟨reported, rfl, rfl⟩ := Option.map_eq_some_iff.mp hevents
    refine ⟨(List.length_filterMap_le _ _).trans hallow.1, ?_⟩
    intro event hevent
    obtain ⟨r, -, hr⟩ := List.mem_filterMap.mp hevent
    obtain ⟨entry, hentry, rfl⟩ := Option.map_eq_some_iff.mp hr
    have hfind := h.mirror.ptr r.1 entry hentry
    have hkey := h.mirror.keyed r.1 entry.ptr hfind
    unfold EPoller.Registered
    rw [← hkey]
    exact hfind
  obtain ⟨p, active, hpoll, hsame⟩ := poll_spec hevents
  refine ⟨{ s with epoller := p }, by simp only [exec, hpoll, ok_bind, pure_eq_ok], ?_⟩
  refine ⟨hsame.mirror h.mirror, ?_, ?_⟩
  · intro fd event hevent
    exact h.masks fd event (hsame.epollSet ▸ hevent)
  · intro call hcall
    exact h.calls call (hsame.calls ▸ hcall)

theorem step_inv (h : Inv s) {i : Input} (hallow : Allowed s i) (hexec : exec s i = .ok s') :
    Inv s' := by
  cases i with
  | updateChannel c events =>
    simp only [exec, bind_pure_eq_ok] at hexec
    obtain ⟨p, hok, rfl⟩ := hexec
    rcases updateChannel_spec (h.mirror.setEvents c events) c with ⟨q, hq, hu⟩ | ⟨herror, -⟩
    · obtain rfl := Except.ok.inj (hq.symm.trans hok)
      exact updateChannel_inv h hu
    · rw [herror] at hok
      cases hok
  | removeChannel c =>
    simp only [exec, bind_pure_eq_ok] at hexec
    obtain ⟨p, hok, rfl⟩ := hexec
    exact removeChannel_inv h (removeChannel_ok h.mirror hok).1
  | poll ready =>
    obtain ⟨t, ht, hinv⟩ := poll_inv h hallow
    obtain rfl := Except.ok.inj (ht.symm.trans hexec)
    exact hinv

theorem initial_inv (fds : ChannelId → ℕ) : Inv ⟨EPoller.initial fds, fun _ => kNoneEvent⟩ := by
  refine ⟨⟨?_, ?_, ?_⟩, ?_, ?_⟩
  · intro fd c hfind
    simp [EPoller.initial] at hfind
  · intro c
    simp [EPoller.initial, indexOf, Registered, Channel.construct, kNew]
  · intro fd event hevent
    cases hevent
  · intro fd event hevent
    cases hevent
  · intro call hcall
    cases hcall

theorem reach_inv (h : Reachable system s) : Inv s := by
  refine h.invariant (I := Inv) ?_ fun s i s' hinv hallow _ hexec => step_inv hinv hallow hexec
  rintro s ⟨fds, rfl⟩
  exact initial_inv fds

/-- The `LOG_SYSFATAL` of `update` is not reached. -/
theorem Inv.no_fatal (h : Inv s) {i : Input} (hallow : Allowed s i) :
    exec s i ≠ .error .epollCtl := by
  intro herror
  cases i with
  | updateChannel c events =>
    simp only [exec, bind_pure_eq_error] at herror
    rcases updateChannel_spec (h.mirror.setEvents c events) c with ⟨q, hq, -⟩ | ⟨hmapped, -⟩
    · rw [hq] at herror
      cases herror
    · rw [hmapped] at herror
      cases herror
  | removeChannel c =>
    simp only [exec, bind_pure_eq_error] at herror
    exact (removeChannel_error h.mirror herror).2 rfl
  | poll ready =>
    obtain ⟨t, ht, -⟩ := poll_inv h hallow
    rw [ht] at herror
    cases herror

def Alone (p : EPoller) (c : ChannelId) : Prop :=
  ∀ d, d ≠ c → p.Registered d → (p.channels d).fd ≠ (p.channels c).fd

structure Classified (p : EPoller) (c : ChannelId) : Prop where
  added : (p.channels c).index = kAdded ↔ (p.epollSet (p.channels c).fd).isSome = true
  new : (p.channels c).index = kNew ↔ p.channelMap.find (p.channels c).fd = none
  deleted : (p.channels c).index = kDeleted ↔
    p.channelMap.find (p.channels c).fd ≠ none ∧ p.epollSet (p.channels c).fd = none

theorem classified {p : EPoller} (h : Mirror p) (halone : Alone p c) : Classified p c := by
  have hmapped : p.channelMap.find (p.channels c).fd ≠ none ↔ p.Registered c := by
    constructor
    · intro hfound
      obtain ⟨d, hd⟩ := Option.ne_none_iff_exists'.mp hfound
      have hkey := h.keyed _ d hd
      have hreg : p.Registered d := by
        unfold EPoller.Registered
        rw [← hkey]
        exact hd
      by_cases hdc : d = c
      · exact hdc ▸ hreg
      · exact absurd (by exact_mod_cast hkey.symm) (halone d hdc hreg)
    · intro hreg
      rw [show p.channelMap.find (p.channels c).fd = some c from hreg]
      simp
  refine ⟨?_, ?_, ?_⟩
  · rw [h.index_added]
    refine ⟨And.right, fun hset => ⟨hmapped.mp ?_, hset⟩⟩
    intro hnone
    rw [h.absent hnone] at hset
    cases hset
  · rw [h.index_new, ← hmapped, not_not]
  · rw [h.index_deleted, hmapped]

/-- In every state of every run the index of a Channel mirrors the kernel. The
entry of a descriptor has the pointer that `channels_` has and the mask of the
last update, every call of epoll_ctl(2) is one that can succeed, and every poll
passes the assertions of `fillActiveChannels`. -/
theorem index_mirrors_kernel (h : Reachable system s) :
    (∀ c, Alone s.epoller c → Classified s.epoller c) ∧
    (∀ fd event, s.epoller.epollSet fd = some event →
      s.epoller.channelMap.find fd = some event.ptr ∧ event.events = s.updated event.ptr) ∧
    (∀ call ∈ s.epoller.calls, call.present = true ↔ call.operation ≠ .add) ∧
    (∀ i, Allowed s i → exec s i ≠ .error .epollCtl) ∧
    ∀ ready, Allowed s (.poll ready) → ∃ s', exec s (.poll ready) = .ok s' := by
  have hinv := reach_inv h
  refine ⟨fun c => classified hinv.mirror, ?_, hinv.calls, fun i => hinv.no_fatal, ?_⟩
  · intro fd event hevent
    exact ⟨hinv.mirror.ptr fd event hevent, hinv.masks fd event hevent⟩
  · intro ready hallow
    obtain ⟨s', hexec, -⟩ := poll_inv hinv hallow
    exact ⟨s', hexec⟩

/-- Two Channels: one is disabled twice and enabled again, the other one is
removed while it is in the epoll set and registered again. -/
def disableTwice : List Input :=
  [.updateChannel 0 3, .updateChannel 0 0, .updateChannel 0 0, .updateChannel 0 0,
    .updateChannel 0 4, .updateChannel 1 0, .removeChannel 1, .updateChannel 1 3,
    .poll (some [(8, 1), (7, 4)])]

theorem disableTwice_mirrored : ∃ s, Reachable system s ∧
    s.epoller.epollSet 7 = some ⟨4, 0⟩ ∧ (s.epoller.channels 1).index = kAdded ∧
    s.epoller.calls.length = 8 ∧ s.epoller.channelMap.find 7 = some 0 := by
  obtain ⟨s, hs, htest⟩ := exists_of_replay (M := system) Free ⟨fun c => c + 7, rfl⟩
    disableTwice (fun s => decide (s.epoller.epollSet 7 = some ⟨4, 0⟩ ∧
      (s.epoller.channels 1).index = kAdded ∧ s.epoller.calls.length = 8)) (by decide +kernel)
  obtain ⟨hset, hindex, hcalls⟩ := of_decide_eq_true htest
  obtain ⟨-, hentries, -⟩ := index_mirrors_kernel hs
  exact ⟨s, hs, hset, hindex, hcalls, (hentries 7 _ hset).1⟩

end Steps

end TinyMuduo.EPollerRuns
