import TinyMuduo.BrokenDownTime
import TinyMuduo.Fault
import TinyMuduo.Lib.Checked
import TinyMuduo.Lib.LowerBound
import Mathlib.Data.List.Chain
import Mathlib.Algebra.Order.Group.Unbundled.Int

/-!
The TimeZone: a table of transitions, searched by universal time on the way to
the local time and by local time on the way back. At a transition that turns the
clock back an hour occurs twice; the way back then tries the later period and
corrects the result by an hour. gmtime and timegm are parameters.
-/
namespace TinyMuduo

open Checked LowerBound

structure Transition where
  gmttime : ℤ
  localtime : ℤ
  localtimeIdx : ℤ
  deriving DecidableEq, Repr

structure Comp where
  compareGmt : Bool

namespace Comp

def less (comp : Comp) (lhs rhs : Transition) : Bool :=
  if comp.compareGmt then lhs.gmttime < rhs.gmttime else lhs.localtime < rhs.localtime

def equal (comp : Comp) (lhs rhs : Transition) : Bool :=
  if comp.compareGmt then lhs.gmttime = rhs.gmttime else lhs.localtime = rhs.localtime

end Comp

structure Localtime where
  gmtOffset : ℤ
  isDst : Bool
  arrbIdx : ℤ
  deriving DecidableEq, Repr

/-- `TimeZone::Data`; nothing reads the names, and of the abbreviations only the
address is taken. -/
structure TimeZoneData where
  transitions : List Transition
  localtimes : List Localtime

namespace TimeZoneData

def localtimeAt (data : TimeZoneData) (idx : ℤ) : Option Localtime :=
  if 0 ≤ idx then data.localtimes[idx.toNat]? else none

/-- The result is never a null pointer. -/
def findLocaltime (data : TimeZoneData) (sentry : Transition) (comp : Comp) :
    Except Fault Localtime :=
  if data.transitions.head?.all fun front => comp.less sentry front then
    demand data.localtimes.head? .outOfBounds
  else do
    let transI := lowerBound (fun tr => comp.less tr sentry) data.transitions
    match data.transitions[transI]? with
    | some tr =>
        if !comp.equal sentry tr then do
          require (transI ≠ 0) .transitionBegin
          let tr ← demand data.transitions[transI - 1]? .outOfBounds
          demand (data.localtimeAt tr.localtimeIdx) .outOfBounds
        else demand (data.localtimeAt tr.localtimeIdx) .outOfBounds
    | none => do
        let back ← demand data.transitions.getLast? .outOfBounds
        demand (data.localtimeAt back.localtimeIdx) .outOfBounds

end TimeZoneData

structure TimeZone where
  data_ : Option TimeZoneData

namespace TimeZone

variable (gmtime : ℤ → Tm) (timegm : Tm → ℤ)

def toLocalTime (zone : TimeZone) (seconds : ℤ) : Except Fault Tm := do
  let data ← demand zone.data_ .zoneData
  let found ← data.findLocaltime ⟨seconds, 0, 0⟩ ⟨true⟩
  let localSeconds := seconds + found.gmtOffset
  return { gmtime localSeconds with
    tm_isdst := if found.isDst then 1 else 0
    tm_gmtoff := found.gmtOffset
    tm_zone := .abbreviation found.arrbIdx }

def fromLocalTime (zone : TimeZone) (localTm : Tm) : Except Fault ℤ := do
  let data ← demand zone.data_ .zoneData
  let seconds := timegm localTm
  let found ← data.findLocaltime ⟨0, seconds, 0⟩ ⟨false⟩
  if localTm.tm_isdst ≠ 0 then do
    let tryTm ← zone.toLocalTime gmtime (seconds - found.gmtOffset)
    if tryTm.tm_isdst = 0 ∧ tryTm.tm_hour = localTm.tm_hour ∧ tryTm.tm_min = localTm.tm_min then
      return seconds - 3600 - found.gmtOffset
    else return seconds - found.gmtOffset
  else return seconds - found.gmtOffset

end TimeZone

namespace TimeZoneData

variable {data : TimeZoneData}

def inForce (data : TimeZoneData) (before : List Transition) : Option Localtime :=
  match before.getLast? with
  | none => data.localtimes.head?
  | some tr => data.localtimeAt tr.localtimeIdx

/-- The clock is only turned back from daylight saving time, by an hour. -/
def TurnsBack (old new : Option Localtime) : Prop :=
  ∀ o ∈ old, ∀ n ∈ new, n.gmtOffset < o.gmtOffset →
    o.isDst = true ∧ n.isDst = false ∧ o.gmtOffset - n.gmtOffset = 3600

instance (old new : Option Localtime) : Decidable (TurnsBack old new) := by
  unfold TurnsBack
  infer_instance

/-- The periods of the table, the one before the first transition included. -/
def periods (data : TimeZoneData) : List (Option Localtime) :=
  data.localtimes.head? :: data.transitions.map fun tr => data.localtimeAt tr.localtimeIdx

structure Regular (data : TimeZoneData) : Prop where
  nonempty : data.localtimes ≠ []
  offsets : ∀ l ∈ data.localtimes, l.gmtOffset.natAbs ≤ 14 * 3600
  apart : data.transitions.IsChain fun a b => a.gmttime < b.gmttime ∧ a.gmttime + 172800 ≤ b.gmttime
  valid : ∀ tr ∈ data.transitions, 0 ≤ tr.localtimeIdx ∧ tr.localtimeIdx < data.localtimes.length
  shifted : ∀ tr ∈ data.transitions, ∀ l ∈ data.localtimeAt tr.localtimeIdx,
    tr.localtime = tr.gmttime + l.gmtOffset
  turnsBack : data.periods.IsChain TurnsBack

theorem inForce_concat (init : List Transition) (last : Transition) :
    data.inForce (init ++ [last]) = data.localtimeAt last.localtimeIdx := by
  rw [inForce, List.getLast?_concat]

section Search

variable {comp : Comp} {sentry : Transition} {before after : List Transition} {l : Localtime}

def key (comp : Comp) (tr : Transition) : ℤ :=
  if comp.compareGmt then tr.gmttime else tr.localtime

theorem less_eq_true (lhs rhs : Transition) :
    comp.less lhs rhs = true ↔ key comp lhs < key comp rhs := by
  unfold Comp.less key
  split <;> exact decide_eq_true_iff

theorem less_eq_false (lhs rhs : Transition) :
    comp.less lhs rhs = false ↔ key comp rhs ≤ key comp lhs := by
  rw [← Bool.not_eq_true, less_eq_true, Int.not_lt]

theorem equal_eq_true (lhs rhs : Transition) :
    comp.equal lhs rhs = true ↔ key comp lhs = key comp rhs := by
  unfold Comp.equal key
  split <;> exact decide_eq_true_iff

structure Split (data : TimeZoneData) (comp : Comp) (time : ℤ) (before after : List Transition) :
    Prop where
  eq : data.transitions = before ++ after
  before : ∀ tr ∈ before, key comp tr ≤ time
  after : ∀ tr ∈ after, time < key comp tr

/-- Before the first transition. -/
theorem findLocaltime_front (h : data.Split comp (key comp sentry) [] after)
    (hl : data.inForce [] = some l) : data.findLocaltime sentry comp = .ok l := by
  have hfront : data.transitions.head?.all (fun front => comp.less sentry front) = true := by
    rw [h.eq]
    cases after with
    | nil => rfl
    | cons tr rest => exact (less_eq_true _ _).mpr (h.after tr List.mem_cons_self)
  rw [findLocaltime, if_pos hfront]
  change data.localtimes.head? = some l at hl
  rw [hl]
  rfl

variable {init : List Transition} {last : Transition}

theorem Split.not_front (h : data.Split comp (key comp sentry) (init ++ [last]) after) :
    ¬ data.transitions.head?.all (fun front => comp.less sentry front) = true := by
  obtain ⟨front, hhead, hmem⟩ : ∃ front, data.transitions.head? = some front ∧
      front ∈ init ++ [last] := by
    rw [h.eq]
    cases init with
    | nil => exact ⟨last, rfl, List.mem_singleton_self last⟩
    | cons front init => exact ⟨front, rfl, List.mem_cons_self⟩
  rw [hhead, Option.all_some, Bool.not_eq_true, less_eq_false]
  exact h.before front hmem

theorem Split.getElem?_last (h : data.Split comp (key comp sentry) (init ++ [last]) after) :
    data.transitions[init.length]? = some last := by
  rw [h.eq, List.append_assoc, List.getElem?_append_right (Nat.le_refl _), Nat.sub_self]
  rfl

theorem Split.init_lt (h : data.Split comp (key comp sentry) (init ++ [last]) after)
    (hsorted : data.transitions.Pairwise fun a b => key comp a < key comp b) {tr : Transition}
    (htr : tr ∈ init) : key comp tr < key comp last := by
  rw [h.eq, List.append_assoc, List.pairwise_append] at hsorted
  exact hsorted.2.2 tr htr last (by simp)

/-- The search stops at the last transition if it happens at the time itself. -/
theorem Split.lowerBound_at (h : data.Split comp (key comp sentry) (init ++ [last]) after)
    (hsorted : data.transitions.Pairwise fun a b => key comp a < key comp b)
    (hequal : key comp sentry = key comp last) :
    lowerBound (fun tr => comp.less tr sentry) data.transitions = init.length := by
  rw [h.eq, List.append_assoc]
  refine lowerBound_eq ?_ ?_
  · intro tr htr
    rw [less_eq_true, hequal]
    exact h.init_lt hsorted htr
  · intro tr htr
    rw [less_eq_false]
    rcases List.mem_cons.mp htr with rfl | htr
    · exact hequal.le
    · exact (h.after tr htr).le

/-- Otherwise it stops behind it. -/
theorem Split.lowerBound_behind (h : data.Split comp (key comp sentry) (init ++ [last]) after)
    (hsorted : data.transitions.Pairwise fun a b => key comp a < key comp b)
    (hequal : key comp sentry ≠ key comp last) :
    lowerBound (fun tr => comp.less tr sentry) data.transitions = init.length + 1 := by
  have hlast : key comp last ≤ key comp sentry := h.before last (by simp)
  have hlen : init.length + 1 = (init ++ [last]).length := by simp
  rw [h.eq, hlen]
  refine lowerBound_eq ?_ ?_
  · intro tr htr
    rw [less_eq_true]
    rcases List.mem_append.mp htr with htr | htr
    · exact lt_of_lt_of_le (h.init_lt hsorted htr) hlast
    · rw [List.mem_singleton.mp htr]
      omega
  · intro tr htr
    rw [less_eq_false]
    exact (h.after tr htr).le

theorem findLocaltime_last (h : data.Split comp (key comp sentry) (init ++ [last]) after)
    (hsorted : data.transitions.Pairwise fun a b => key comp a < key comp b)
    (hl : data.localtimeAt last.localtimeIdx = some l) :
    data.findLocaltime sentry comp = .ok l := by
  rw [findLocaltime, if_neg h.not_front]
  dsimp only
  by_cases hequal : key comp sentry = key comp last
  · rw [h.lowerBound_at hsorted hequal, h.getElem?_last]
    dsimp only
    rw [(equal_eq_true _ _).mpr hequal, hl]
    rfl
  · rw [h.lowerBound_behind hsorted hequal]
    cases after with
    | nil =>
      have hend : data.transitions[init.length + 1]? = none := by simp [h.eq]
      have hback : data.transitions.getLast? = some last := by simp [h.eq]
      rw [hend]
      dsimp only
      rw [hback, demand, ok_bind, hl]
      rfl
    | cons next rest =>
      have hnext : data.transitions[init.length + 1]? = some next := by simp [h.eq]
      have hunequal : comp.equal sentry next = false := by
        have hlt := h.after next List.mem_cons_self
        rw [← Bool.not_eq_true, equal_eq_true]
        omega
      rw [hnext]
      dsimp only
      rw [hunequal, Bool.not_false, if_pos rfl, require_pos _ (Nat.succ_ne_zero _), ok_bind,
        Nat.add_sub_cancel, h.getElem?_last, demand, ok_bind, hl]
      rfl

/-- The search finds what is in force after the transitions up to the time. -/
theorem findLocaltime_eq (hsorted : data.transitions.Pairwise fun a b => key comp a < key comp b)
    (h : data.Split comp (key comp sentry) before after) (hl : data.inForce before = some l) :
    data.findLocaltime sentry comp = .ok l := by
  rcases List.eq_nil_or_concat before with rfl | ⟨init, last, rfl⟩
  · exact findLocaltime_front h hl
  · rw [List.concat_eq_append] at h hl
    rw [inForce_concat] at hl
    exact findLocaltime_last h hsorted hl

end Search

section Tables

variable {before after : List Transition} {l : Localtime}

theorem localtimeAt_eq_some {idx : ℤ} (h0 : 0 ≤ idx) (h1 : idx < data.localtimes.length) :
    ∃ l, data.localtimeAt idx = some l := by
  rw [localtimeAt, if_pos h0]
  exact ⟨_, List.getElem?_eq_getElem (by omega)⟩

theorem mem_of_localtimeAt {idx : ℤ} (h : data.localtimeAt idx = some l) : l ∈ data.localtimes := by
  unfold localtimeAt at h
  split at h
  · exact List.mem_of_getElem? h
  · cases h

theorem mem_of_inForce (h : data.inForce before = some l) : l ∈ data.localtimes := by
  unfold inForce at h
  split at h
  · exact List.mem_of_mem_head? h
  · exact mem_of_localtimeAt h

def TwoDaysApart (a b : Transition) : Prop := a.gmttime + 172800 ≤ b.gmttime

instance : Trans TwoDaysApart TwoDaysApart TwoDaysApart where
  trans hab hbc := by
    unfold TwoDaysApart at hab hbc ⊢
    omega

namespace Regular

variable (h : data.Regular)
include h

theorem inForce_eq_some (heq : data.transitions = before ++ after) :
    ∃ l, data.inForce before = some l := by
  unfold inForce
  split
  · exact ⟨_, List.head?_eq_some_head h.nonempty⟩
  · rename_i tr hlast
    have hmem : tr ∈ data.transitions := by
      rw [heq]
      exact List.mem_append_left _ (List.mem_of_getLast? hlast)
    obtain ⟨h0, h1⟩ := h.valid tr hmem
    exact localtimeAt_eq_some h0 h1

theorem offset_le (hl : l ∈ data.localtimes) : -50400 ≤ l.gmtOffset ∧ l.gmtOffset ≤ 50400 := by
  have habs := h.offsets l hl
  omega

/-- The local time of a transition is its time by the offset that it begins. -/
theorem exists_offset {tr : Transition} (htr : tr ∈ data.transitions) :
    ∃ l, data.localtimeAt tr.localtimeIdx = some l ∧ tr.localtime = tr.gmttime + l.gmtOffset ∧
      -50400 ≤ l.gmtOffset ∧ l.gmtOffset ≤ 50400 := by
  obtain ⟨h0, h1⟩ := h.valid tr htr
  obtain ⟨l, hl⟩ := localtimeAt_eq_some h0 h1
  exact ⟨l, hl, h.shifted tr htr l hl, h.offset_le (mem_of_localtimeAt hl)⟩

theorem pairwise : data.transitions.Pairwise fun a b => a.gmttime + 172800 ≤ b.gmttime := by
  have hchain : data.transitions.IsChain TwoDaysApart := h.apart.imp fun _ _ hab => hab.2
  exact hchain.pairwise

theorem gmt_sorted : data.transitions.Pairwise fun a b => key ⟨true⟩ a < key ⟨true⟩ b := by
  refine h.pairwise.imp ?_
  intro a b hab
  change a.gmttime < b.gmttime
  omega

/-- Transitions two days apart do not change places in local time. -/
theorem local_sorted : data.transitions.Pairwise fun a b => key ⟨false⟩ a < key ⟨false⟩ b := by
  refine h.pairwise.imp_of_mem ?_
  intro a b ha hb hab
  obtain ⟨la, -, hshift, -, hmax⟩ := h.exists_offset ha
  obtain ⟨lb, -, hshift', hmin, -⟩ := h.exists_offset hb
  change a.localtime < b.localtime
  omega

theorem turnsBack_at {next : Transition} (heq : data.transitions = before ++ next :: after) :
    TurnsBack (data.inForce before) (data.localtimeAt next.localtimeIdx) := by
  have hchain := h.turnsBack
  rw [periods, heq] at hchain
  rcases List.eq_nil_or_concat before with rfl | ⟨init, last, rfl⟩
  · exact (List.isChain_cons_cons.mp hchain).1
  · rw [List.concat_eq_append] at hchain ⊢
    rw [List.append_assoc, List.map_append, ← List.cons_append] at hchain
    have hpair := (List.isChain_append.mp hchain).2.1
    rw [inForce_concat]
    exact (List.isChain_cons_cons.mp hpair).1

/-- The transitions up to a time by universal time have happened by its local
time. -/
theorem before_local {time : ℤ} (hsplit : data.Split ⟨true⟩ time before after)
    (hl : data.inForce before = some l) {tr : Transition} (htr : tr ∈ before) :
    tr.localtime ≤ time + l.gmtOffset := by
  obtain ⟨hmin, -⟩ := h.offset_le (mem_of_inForce hl)
  have hmem : tr ∈ data.transitions := by
    rw [hsplit.eq]
    exact List.mem_append_left _ htr
  obtain ⟨l', hl', hshift, -, hmax⟩ := h.exists_offset hmem
  have htime : tr.gmttime ≤ time := hsplit.before tr htr
  rcases List.eq_nil_or_concat before with rfl | ⟨init, last, rfl⟩
  · cases htr
  · rw [List.concat_eq_append] at htr hsplit hl
    rcases List.mem_append.mp htr with htr | htr
    · have hpairs := h.pairwise
      rw [hsplit.eq, List.append_assoc, List.pairwise_append] at hpairs
      have hapart := hpairs.2.2 tr htr last (by simp)
      have hlast : last.gmttime ≤ time := hsplit.before last (by simp)
      omega
    · rw [inForce_concat, ← List.mem_singleton.mp htr, hl'] at hl
      obtain rfl := Option.some.inj hl
      omega

/-- The transitions after the next one have not happened by the local time. -/
theorem rest_local {time : ℤ} {next : Transition} {rest : List Transition}
    (hsplit : data.Split ⟨true⟩ time before (next :: rest)) (hl : data.inForce before = some l)
    {tr : Transition} (htr : tr ∈ rest) : time + l.gmtOffset < tr.localtime := by
  obtain ⟨-, hmax⟩ := h.offset_le (mem_of_inForce hl)
  have hmem : tr ∈ data.transitions := by
    rw [hsplit.eq]
    exact List.mem_append_right _ (List.mem_cons_of_mem _ htr)
  obtain ⟨l', -, hshift, hmin, -⟩ := h.exists_offset hmem
  have hpairs := h.pairwise
  rw [hsplit.eq, List.pairwise_append, List.pairwise_cons] at hpairs
  have hapart := hpairs.2.1.1 tr htr
  have hnext : time < next.gmttime := hsplit.after next List.mem_cons_self
  omega

/-- By its local time, either the same transitions have happened, or also the
next one, which turned the clock back. -/
theorem local_split {time : ℤ} (hsplit : data.Split ⟨true⟩ time before after)
    (hl : data.inForce before = some l) :
    data.Split ⟨false⟩ (time + l.gmtOffset) before after ∨
      ∃ next rest new, after = next :: rest ∧ data.localtimeAt next.localtimeIdx = some new ∧
        data.Split ⟨false⟩ (time + l.gmtOffset) (before ++ [next]) rest ∧
        data.Split ⟨true⟩ (time + 3600) (before ++ [next]) rest ∧
        l.isDst = true ∧ new.isDst = false ∧ l.gmtOffset - new.gmtOffset = 3600 := by
  have hbefore : ∀ tr ∈ before, key ⟨false⟩ tr ≤ time + l.gmtOffset :=
    fun tr htr => h.before_local hsplit hl htr
  cases after with
  | nil => exact Or.inl ⟨hsplit.eq, hbefore, by simp⟩
  | cons next rest =>
    have hrest : ∀ tr ∈ rest, time + l.gmtOffset < key ⟨false⟩ tr :=
      fun tr htr => h.rest_local hsplit hl htr
    by_cases hpassed : time + l.gmtOffset < next.localtime
    · exact Or.inl ⟨hsplit.eq, hbefore, List.forall_mem_cons.mpr ⟨hpassed, hrest⟩⟩
    · have hmem : next ∈ data.transitions := by
        rw [hsplit.eq]
        simp
      obtain ⟨new, hnew, hshift, hmin, hmax⟩ := h.exists_offset hmem
      have hnext : time < next.gmttime := hsplit.after next List.mem_cons_self
      obtain ⟨hdst, hstd, hhour⟩ := h.turnsBack_at hsplit.eq l hl new hnew (by omega)
      have heq : data.transitions = before ++ [next] ++ rest := by
        rw [hsplit.eq]
        simp
      have hpairs := h.pairwise
      rw [hsplit.eq, List.pairwise_append, List.pairwise_cons] at hpairs
      refine Or.inr ⟨next, rest, new, rfl, hnew, ⟨heq, ?_, hrest⟩, ⟨heq, ?_, ?_⟩, hdst, hstd, hhour⟩
      · intro tr htr
        rcases List.mem_append.mp htr with htr | htr
        · exact hbefore tr htr
        · rw [List.mem_singleton.mp htr]
          change next.localtime ≤ _
          omega
      · intro tr htr
        rcases List.mem_append.mp htr with htr | htr
        · have hle : tr.gmttime ≤ time := hsplit.before tr htr
          change tr.gmttime ≤ _
          omega
        · rw [List.mem_singleton.mp htr]
          change next.gmttime ≤ _
          omega
      · intro tr htr
        have hapart := hpairs.2.1.1 tr htr
        change _ < tr.gmttime
        omega

end Regular

end Tables

end TimeZoneData

namespace TimeZone

open TimeZoneData

variable {gmtime : ℤ → Tm} {timegm : Tm → ℤ} {data : TimeZoneData}

/-- timegm undoes gmtime; it does not read the daylight saving flag, the offset
and the zone. -/
def Inverse (gmtime : ℤ → Tm) (timegm : Tm → ℤ) : Prop :=
  ∀ seconds isdst gmtoff zone,
    timegm { gmtime seconds with tm_isdst := isdst, tm_gmtoff := gmtoff, tm_zone := zone } = seconds

def shown (gmtime : ℤ → Tm) (l : Localtime) (localSeconds : ℤ) : Tm :=
  { gmtime localSeconds with
    tm_isdst := if l.isDst then 1 else 0
    tm_gmtoff := l.gmtOffset
    tm_zone := .abbreviation l.arrbIdx }

theorem toLocalTime_eq (h : data.Regular) {seconds : ℤ} {before after : List Transition}
    {l : Localtime} (hsplit : data.Split ⟨true⟩ seconds before after)
    (hl : data.inForce before = some l) :
    toLocalTime gmtime ⟨some data⟩ seconds = .ok (shown gmtime l (seconds + l.gmtOffset)) := by
  have hfind : data.findLocaltime ⟨seconds, 0, 0⟩ ⟨true⟩ = .ok l :=
    findLocaltime_eq h.gmt_sorted hsplit hl
  rw [toLocalTime, demand, ok_bind, hfind]
  rfl

/-- The trial conversion decides whether the hour is the first of two. -/
theorem fromLocalTime_eq (hinverse : Inverse gmtime timegm) (h : data.Regular) {l found : Localtime}
    {localSeconds : ℤ} {before after : List Transition}
    (hsplit : data.Split ⟨false⟩ localSeconds before after)
    (hfound : data.inForce before = some found)
    {tried : Localtime}
    (htry : toLocalTime gmtime ⟨some data⟩ (localSeconds - found.gmtOffset) =
      .ok (shown gmtime tried localSeconds)) :
    fromLocalTime gmtime timegm ⟨some data⟩ (shown gmtime l localSeconds) =
      .ok (if l.isDst ∧ ¬ tried.isDst then localSeconds - 3600 - found.gmtOffset
        else localSeconds - found.gmtOffset) := by
  have hseconds : timegm (shown gmtime l localSeconds) = localSeconds := hinverse _ _ _ _
  have hfind : data.findLocaltime ⟨0, localSeconds, 0⟩ ⟨false⟩ = .ok found :=
    findLocaltime_eq h.local_sorted hsplit hfound
  rw [fromLocalTime, demand, ok_bind]
  dsimp only
  rw [hseconds, hfind, ok_bind, htry]
  cases hdst : l.isDst with
  | false => simp [shown, hdst]
  | true =>
    cases htried : tried.isDst with
    | false => simp [shown, hdst, htried]
    | true => simp [shown, hdst, htried]

/-- A time is found again from its local time, in every period of the table and
in the hour that occurs twice. -/
theorem fromLocalTime_toLocalTime (hinverse : Inverse gmtime timegm) (h : data.Regular) (t : ℤ) :
    (toLocalTime gmtime ⟨some data⟩ t >>= fromLocalTime gmtime timegm ⟨some data⟩) = .ok t := by
  obtain ⟨before, after, heq, hbefore, hafter⟩ :=
    exists_split (key ⟨true⟩) t h.gmt_sorted
  have hsplit : data.Split ⟨true⟩ t before after := ⟨heq, hbefore, hafter⟩
  obtain ⟨l, hl⟩ := h.inForce_eq_some heq
  have hto : toLocalTime gmtime ⟨some data⟩ t = .ok (shown gmtime l (t + l.gmtOffset)) :=
    toLocalTime_eq h hsplit hl
  rw [hto, ok_bind]
  rcases h.local_split hsplit hl with
    hlocal | ⟨next, rest, new, rfl, hnew, hlocal, hlater, hdst, hstd, hhour⟩
  · -- the trial conversion gives the local time itself
    have htry : toLocalTime gmtime ⟨some data⟩ (t + l.gmtOffset - l.gmtOffset) =
        .ok (shown gmtime l (t + l.gmtOffset)) := by
      rw [Int.add_sub_cancel, hto]
    rw [fromLocalTime_eq hinverse h hlocal hl htry, if_neg (by simp), Int.add_sub_cancel]
  · -- the clock has been turned back, and the trial conversion is not DST
    have hfound : data.inForce (before ++ [next]) = some new := by rw [inForce_concat, hnew]
    have hlater' : t + l.gmtOffset - new.gmtOffset = t + 3600 := by omega
    have htry : toLocalTime gmtime ⟨some data⟩ (t + l.gmtOffset - new.gmtOffset) =
        .ok (shown gmtime new (t + l.gmtOffset)) := by
      rw [hlater', toLocalTime_eq h hlater hfound]
      congr 2
      omega
    rw [fromLocalTime_eq hinverse h hlocal hfound htry, if_pos (by simp [hdst, hstd])]
    congr 1
    omega

def newYork : TimeZoneData where
  transitions :=
    [⟨1143961200, 1143946800, 1⟩, ⟨1162101600, 1162083600, 0⟩, ⟨1173596400, 1173582000, 1⟩,
      ⟨1194156000, 1194138000, 0⟩]
  localtimes := [⟨-18000, false, 4⟩, ⟨-14400, true, 0⟩]

/-- The last second of daylight saving time, whose local time occurs again an
hour later. -/
theorem newYork_repeatedHour :
    newYork.Regular ∧ (toLocalTime TinyMuduo.gmtime ⟨some newYork⟩ 1162101599 >>=
      fromLocalTime TinyMuduo.gmtime TinyMuduo.timegm ⟨some newYork⟩) = .ok 1162101599 := by
  have hregular : newYork.Regular :=
    ⟨by decide, by decide, by decide, by decide, by decide, by decide⟩
  have hinverse : Inverse TinyMuduo.gmtime TinyMuduo.timegm :=
    fun seconds _ _ _ => timegm_gmtime seconds
  exact ⟨hregular, fromLocalTime_toLocalTime hinverse hregular _⟩

end TimeZone

end TinyMuduo
