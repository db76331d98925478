import TinyMuduo.ZoneFile

/-!
When a TimeZone made from a file can be used. Every content gives a zone that
claims to be valid; the conversions stay within its tables exactly when the file
is complete up to the abbreviations, has a type, and the indices of the types
that a time can select are within their tables. The times of a file need not be
sorted, so that which transitions can be selected depends on the search.
-/
namespace TinyMuduo

open Checked LowerBound Reading

/-- The transition that the search ends at for a time, or none before the first
one. -/
def selected (times : List ℤ) (t : ℤ) : Option ℕ :=
  if times.head?.all fun front => t < front then none
  else
    let k := lowerBound (fun time => time < t) times
    some (if times[k]? = some t then k else k - 1)

/-- From the first transition on, the search does not stop at it unless it happens
at the time itself. -/
theorem lowerBound_ne_zero {times : List ℤ} {t time : ℤ}
    (hfront : ¬ (times.head?.all fun front => decide (t < front)) = true)
    (h : times[lowerBound (fun time => time < t) times]? = some time) (hne : t ≠ time) :
    lowerBound (fun time => time < t) times ≠ 0 := by
  obtain ⟨-, hhigh⟩ := @lowerBound_high _ (fun time => decide (time < t)) times
  rw [h, Option.any_some, decide_eq_false_iff_not] at hhigh
  intro hzero
  rw [hzero, ← List.head?_eq_getElem?] at h
  rw [h, Option.all_some, decide_eq_true_iff] at hfront
  omega

theorem selected_lt {times : List ℤ} {t : ℤ} {k : ℕ} (h : selected times t = some k) :
    k < times.length := by
  unfold selected at h
  split at h
  · cases h
  · rename_i hfront
    obtain ⟨hle, -⟩ := @lowerBound_high _ (fun time => time < t) times
    have hpos : 0 < times.length := by
      cases times with
      | nil => exact absurd rfl hfront
      | cons time times => simp
    dsimp only at h
    obtain rfl := Option.some.inj h
    split
    · rename_i hequal
      exact (List.getElem?_eq_some_iff.mp hequal).1
    · omega

/-- Some time is before the first transition. -/
theorem exists_selected_none (times : List ℤ) : ∃ t, selected times t = none := by
  cases times with
  | nil => exact ⟨0, rfl⟩
  | cons front times =>
    refine ⟨front - 1, ?_⟩
    unfold selected
    rw [if_pos]
    simp

/-- Where the times increase, each transition is selected by its own time. -/
theorem selected_of_increasing {low high : List ℤ} {t : ℤ}
    (h : (low ++ t :: high).Pairwise (· < ·)) :
    selected (low ++ t :: high) t = some low.length := by
  obtain ⟨-, hhigh, hbelow⟩ := List.pairwise_append.mp h
  have hlow : ∀ time ∈ low, decide (time < t) = true := by
    intro time htime
    exact decide_eq_true (hbelow time htime t List.mem_cons_self)
  have hhigh' : ∀ time ∈ t :: high, decide (time < t) = false := by
    intro time htime
    rw [decide_eq_false_iff_not, Int.not_lt]
    rcases List.mem_cons.mp htime with rfl | htime
    · exact Int.le_refl _
    · exact ((List.pairwise_cons.mp hhigh).1 time htime).le
  have hfront : ¬ ((low ++ t :: high).head?.all fun front => decide (t < front)) = true := by
    cases low with
    | nil => simp
    | cons front low =>
      have hlt := hbelow front List.mem_cons_self t List.mem_cons_self
      simpa using hlt.le
  unfold selected
  rw [if_neg hfront]
  dsimp only
  rw [lowerBound_eq hlow hhigh', if_pos (by simp)]

namespace TimeZoneData

variable {data : TimeZoneData} {comp : Comp} {sentry : Transition}

theorem less_eq (lhs rhs : Transition) :
    comp.less lhs rhs = decide (key comp lhs < key comp rhs) := by
  rw [Bool.eq_iff_iff, less_eq_true, decide_eq_true_iff]

theorem front_iff : data.transitions.head?.all (fun front => comp.less sentry front) =
    (data.transitions.map (key comp)).head?.all fun front => key comp sentry < front := by
  cases data.transitions with
  | nil => rfl
  | cons tr rest => exact less_eq sentry tr

theorem lowerBound_key : lowerBound (fun tr => comp.less tr sentry) data.transitions =
    lowerBound (fun time => decide (time < key comp sentry)) (data.transitions.map (key comp)) := by
  rw [lowerBound_map]
  congr 1
  funext tr
  exact less_eq tr sentry

/-- On tables of any order the search uses the selected transition. -/
theorem findLocaltime_selected : data.findLocaltime sentry comp =
    match selected (data.transitions.map (key comp)) (key comp sentry) with
    | none => demand data.localtimes.head? .outOfBounds
    | some k =>
        demand (data.transitions[k]?.bind fun tr => data.localtimeAt tr.localtimeIdx)
          .outOfBounds := by
  unfold findLocaltime selected
  rw [front_iff, lowerBound_key]
  obtain ⟨hle, -⟩ := @lowerBound_high _ (fun time => decide (time < key comp sentry))
    (data.transitions.map (key comp))
  have hfirst := @lowerBound_ne_zero (data.transitions.map (key comp)) (key comp sentry)
  generalize lowerBound (fun time => decide (time < key comp sentry))
    (data.transitions.map (key comp)) = k at hle hfirst ⊢
  rw [List.length_map] at hle
  by_cases hfront : (data.transitions.map (key comp)).head?.all
      (fun front => decide (key comp sentry < front)) = true
  · rw [if_pos hfront, if_pos hfront]
  · rw [if_neg hfront, if_neg hfront]
    dsimp only
    rw [List.getElem?_map]
    cases htr : data.transitions[k]? with
    | none =>
      -- behind the last transition
      have hlen : k = data.transitions.length := by
        have hge := List.getElem?_eq_none_iff.mp htr
        omega
      dsimp only
      rw [Option.map_none, if_neg (by simp), hlen, ← List.getLast?_eq_getElem?]
      cases data.transitions.getLast? with
      | none => rfl
      | some back => rfl
    | some tr =>
      dsimp only
      rw [Option.map_some]
      by_cases hequal : key comp sentry = key comp tr
      · rw [(equal_eq_true _ _).mpr hequal, Bool.not_true, if_neg Bool.false_ne_true,
          if_pos (congrArg some hequal.symm), htr]
        rfl
      · have hunequal : comp.equal sentry tr = false := by
          rw [← Bool.not_eq_true, equal_eq_true]
          exact hequal
        have hother : ¬ some (key comp tr) = some (key comp sentry) :=
          fun h => hequal (Option.some.inj h).symm
        rw [hunequal, Bool.not_false, if_pos rfl, if_neg hother]
        have hpos : k ≠ 0 := hfirst hfront (by rw [List.getElem?_map, htr]; rfl) hequal
        rw [require_pos _ hpos, ok_bind]
        cases data.transitions[k - 1]? with
        | none => rfl
        | some tr => rfl

end TimeZoneData

namespace ZoneImage

variable {image : ZoneImage}

def Named (image : ZoneImage) (ty : TypeRecord) : Prop :=
  ty.abbrind.toNat < image.abbreviation.length

instance (image : ZoneImage) (ty : TypeRecord) : Decidable (image.Named ty) :=
  inferInstanceAs (Decidable (ty.abbrind.toNat < image.abbreviation.length))

structure Sound (image : ZoneImage) : Prop where
  indexed : image.Indexed
  first : ∃ ty, image.types.head? = some ty ∧ image.Named ty
  later : ∀ t k, selected (image.times.map Word.value) t = some k → ∀ idx ty,
    image.indices[k]? = some idx → image.types[idx.toNat]? = some ty → image.Named ty

theorem length_eq (image : ZoneImage) : image.times.length = image.indices.length := by
  have htimes := image.times_length
  have hindices := image.indices_length
  omega

/-- Where the times of the file increase, it is the types of all transitions. -/
theorem sound_iff_of_increasing (h : (image.times.map Word.value).Pairwise (· < ·)) :
    image.Sound ↔ image.Indexed ∧ (∃ ty, image.types.head? = some ty ∧ image.Named ty) ∧
      ∀ idx ∈ image.indices, ∀ ty, image.types[idx.toNat]? = some ty → image.Named ty := by
  constructor
  · intro hsound
    refine ⟨hsound.indexed, hsound.first, ?_⟩
    intro idx hmem ty hty
    obtain ⟨k, hidx⟩ := List.mem_iff_getElem?.mp hmem
    have hk : k < (image.times.map Word.value).length := by
      rw [List.length_map, image.length_eq]
      exact (List.getElem?_eq_some_iff.mp hidx).1
    have hsplit : image.times.map Word.value = (image.times.map Word.value).take k ++
        (image.times.map Word.value)[k] :: (image.times.map Word.value).drop (k + 1) := by
      rw [← List.drop_eq_getElem_cons hk, List.take_append_drop]
    have hselected := selected_of_increasing (hsplit ▸ h)
    rw [← hsplit, List.length_take, Nat.min_eq_left hk.le] at hselected
    exact hsound.later _ k hselected idx ty hidx hty
  · rintro ⟨hindexed, hfirst, hnamed⟩
    refine ⟨hindexed, hfirst, ?_⟩
    intro t k _ idx ty hidx hty
    exact hnamed idx (List.mem_of_getElem? hidx) ty hty

theorem transitions_getElem? {k : ℕ} (hk : k < image.times.length) : ∃ time idx,
    image.indices[k]? = some idx ∧ image.data.transitions[k]? =
      some (transition (image.types.map TypeRecord.localtime) time idx) := by
  have hk' : k < image.indices.length := by rw [← image.length_eq]; exact hk
  refine ⟨image.times[k].value, image.indices[k], List.getElem?_eq_getElem hk', ?_⟩
  rw [data, List.getElem?_zipWith, List.getElem?_map, List.getElem?_eq_getElem hk,
    List.getElem?_eq_getElem hk']
  rfl

theorem gmttimes (image : ZoneImage) :
    image.data.transitions.map (TimeZoneData.key ⟨true⟩) = image.times.map Word.value := by
  have hlen : (image.times.map Word.value).length ≤ image.indices.length := by
    rw [List.length_map, image.length_eq]
  rw [data, ← List.map_uncurry_zip_eq_zipWith, List.map_map]
  exact List.map_fst_zip hlen

theorem localtimeAt_data (idx : UInt8) :
    image.data.localtimeAt idx.toNat = image.types[idx.toNat]?.map TypeRecord.localtime := by
  rw [TimeZoneData.localtimeAt, if_pos (Int.natCast_nonneg _), Int.toNat_natCast, data,
    List.getElem?_map]

/-- Before the first transition the first type is used. -/
theorem findLocaltime_first {t : ℤ} (h : selected (image.times.map Word.value) t = none) :
    image.data.findLocaltime ⟨t, 0, 0⟩ ⟨true⟩ =
      demand (image.types.head?.map TypeRecord.localtime) .outOfBounds := by
  rw [TimeZoneData.findLocaltime_selected, gmttimes]
  change (match selected _ t with | none => _ | some k => _) = _
  rw [h]
  dsimp only
  rw [data, List.head?_map]

/-- From then on, the type of the selected transition. -/
theorem findLocaltime_later {t : ℤ} {k : ℕ} {idx : UInt8}
    (h : selected (image.times.map Word.value) t = some k)
    (hidx : image.indices[k]? = some idx) :
    image.data.findLocaltime ⟨t, 0, 0⟩ ⟨true⟩ =
      demand (image.types[idx.toNat]?.map TypeRecord.localtime) .outOfBounds := by
  have hk := selected_lt h
  rw [List.length_map] at hk
  obtain ⟨time, idx', hidx', htr⟩ := transitions_getElem? hk
  obtain rfl : idx' = idx := Option.some.inj (hidx'.symm.trans hidx)
  rw [TimeZoneData.findLocaltime_selected, gmttimes]
  change (match selected _ t with | none => _ | some k => _) = _
  rw [h]
  dsimp only
  rw [htr, Option.bind_some, ← localtimeAt_data]
  rfl

/-- With a type, and types for the transitions, no search fails. -/
theorem findLocaltime_total (h : image.Indexed) (htypes : image.types ≠ []) (sentry : Transition)
    (comp : Comp) : ∃ l, image.data.findLocaltime sentry comp = .ok l := by
  rw [TimeZoneData.findLocaltime_selected]
  cases hselected : selected (image.data.transitions.map (TimeZoneData.key comp))
      (TimeZoneData.key comp sentry) with
  | none =>
    obtain ⟨ty, types, hcons⟩ := List.exists_cons_of_ne_nil htypes
    refine ⟨ty.localtime, ?_⟩
    dsimp only
    rw [demand_eq_ok, data, hcons]
    rfl
  | some k =>
    have hk := selected_lt hselected
    rw [List.length_map, data, List.length_zipWith, List.length_map, ← image.length_eq,
      Nat.min_self] at hk
    obtain ⟨time, idx, hidx, htr⟩ := transitions_getElem? hk
    have hlt := h idx (List.mem_of_getElem? hidx)
    refine ⟨image.types[idx.toNat].localtime, ?_⟩
    dsimp only
    rw [demand_eq_ok, htr, Option.bind_some]
    change image.data.localtimeAt idx.toNat = _
    rw [localtimeAt_data, List.getElem?_eq_getElem hlt]
    rfl

end ZoneImage

namespace FileZone

open TimeZone

variable {gmtime : ℤ → Tm} {timegm : Tm → ℤ} {d : ZoneData}

/-- The address that a conversion takes is the one of the type that was found. -/
theorem toLocalTime_iff {t : ℤ} :
    (∃ tm idx, (FileZone.mk (some d)).timeZone.toLocalTime gmtime t = .ok tm ∧
      tm.tm_zone = .abbreviation idx ∧ 0 ≤ idx ∧ idx < d.abbreviation.length) ↔
    ∃ l, d.findLocaltime ⟨t, 0, 0⟩ ⟨true⟩ = .ok l ∧ 0 ≤ l.arrbIdx ∧
      l.arrbIdx < d.abbreviation.length := by
  change (∃ tm idx, (TimeZone.mk (some d.toTimeZoneData)).toLocalTime gmtime t = .ok tm ∧ _) ↔ _
  rw [TimeZone.toLocalTime, demand, ok_bind]
  cases d.findLocaltime ⟨t, 0, 0⟩ ⟨true⟩ with
  | error f =>
    constructor
    · rintro ⟨tm, idx, h, -⟩
      cases h
    · rintro ⟨l, h, -⟩
      cases h
  | ok l =>
    rw [ok_bind]
    constructor
    · rintro ⟨tm, idx, h, hzone, h0, h1⟩
      cases h
      cases hzone
      exact ⟨l, rfl, h0, h1⟩
    · rintro ⟨l', h, h0, h1⟩
      cases h
      exact ⟨_, l.arrbIdx, rfl, rfl, h0, h1⟩

/-- The way back succeeds when every search does. -/
theorem fromLocalTime_total
    (h : ∀ sentry comp, ∃ l, d.findLocaltime sentry comp = .ok l) (localTm : Tm) :
    ∃ seconds, (FileZone.mk (some d)).timeZone.fromLocalTime gmtime timegm localTm =
      .ok seconds := by
  obtain ⟨found, hfound⟩ := h ⟨0, timegm localTm, 0⟩ ⟨false⟩
  obtain ⟨tried, htried⟩ := h ⟨timegm localTm - found.gmtOffset, 0, 0⟩ ⟨true⟩
  obtain ⟨tryTm, htry⟩ : ∃ tryTm, (TimeZone.mk (some d.toTimeZoneData)).toLocalTime gmtime
      (timegm localTm - found.gmtOffset) = .ok tryTm := by
    rw [TimeZone.toLocalTime, demand, ok_bind, htried]
    exact ⟨_, rfl⟩
  change ∃ seconds, (TimeZone.mk (some d.toTimeZoneData)).fromLocalTime gmtime timegm localTm =
    .ok seconds
  rw [TimeZone.fromLocalTime, demand, ok_bind]
  dsimp only
  rw [hfound, ok_bind, htry]
  split
  · rw [ok_bind]
    split
    · exact ⟨_, rfl⟩
    · exact ⟨_, rfl⟩
  · exact ⟨_, rfl⟩

/-- The zone of a sound file stays within its tables. -/
theorem inBounds_of_sound {image : ZoneImage} (h : image.Sound) :
    (FileZone.mk (some image.data)).InBounds gmtime timegm := by
  obtain ⟨first, hfirst, hnamed⟩ := h.first
  have htypes : image.types ≠ [] := by
    intro hnil
    rw [hnil] at hfirst
    cases hfirst
  have htotal := image.findLocaltime_total h.indexed htypes
  refine ⟨?_, fromLocalTime_total htotal⟩
  intro t
  refine toLocalTime_iff.mpr ?_
  cases hselected : selected (image.times.map Word.value) t with
  | none =>
    refine ⟨first.localtime, ?_, Int.natCast_nonneg _, Int.ofNat_lt.mpr hnamed⟩
    rw [ZoneImage.findLocaltime_first hselected, hfirst]
    rfl
  | some k =>
    have hk := selected_lt hselected
    rw [List.length_map] at hk
    obtain ⟨time, idx, hidx, -⟩ := ZoneImage.transitions_getElem? hk
    have hlt := h.indexed idx (List.mem_of_getElem? hidx)
    have hty := List.getElem?_eq_getElem hlt
    have hnamed' := h.later t k hselected idx _ hidx hty
    refine ⟨image.types[idx.toNat].localtime, ?_, Int.natCast_nonneg _, Int.ofNat_lt.mpr hnamed'⟩
    rw [ZoneImage.findLocaltime_later hselected hidx, hty]
    rfl

/-- A zone that stays within its tables was made from a sound file. -/
theorem sound_of_inBounds {image : ZoneImage} (h : image.Indexed)
    (hzone : (FileZone.mk (some image.data)).InBounds gmtime timegm) : image.Sound := by
  have hfound : ∀ t, ∃ l, image.data.findLocaltime ⟨t, 0, 0⟩ ⟨true⟩ = .ok l ∧ 0 ≤ l.arrbIdx ∧
      l.arrbIdx < image.abbreviation.length := fun t => toLocalTime_iff.mp (hzone.1 t)
  refine ⟨h, ?_, ?_⟩
  · obtain ⟨t, ht⟩ := exists_selected_none (image.times.map Word.value)
    obtain ⟨l, hl, -, hlt⟩ := hfound t
    rw [ZoneImage.findLocaltime_first ht, demand_eq_ok, Option.map_eq_some_iff] at hl
    obtain ⟨ty, hty, rfl⟩ := hl
    exact ⟨ty, hty, Int.ofNat_lt.mp hlt⟩
  · intro t k hselected idx ty hidx hty
    obtain ⟨l, hl, -, hlt⟩ := hfound t
    rw [ZoneImage.findLocaltime_later hselected hidx, demand_eq_ok, hty, Option.map_some,
      Option.some.injEq] at hl
    subst hl
    exact Int.ofNat_lt.mp hlt

/-- Without abbreviations no conversion stays within the tables. -/
theorem not_inBounds_of_empty (h : d.abbreviation = []) :
    ¬ (FileZone.mk (some d)).InBounds gmtime timegm := by
  intro hzone
  obtain ⟨l, -, h0, h1⟩ := toLocalTime_iff.mp (hzone.1 0)
  rw [h, List.length_nil] at h1
  exact absurd h1 (Int.not_lt.mpr h0)

/-- Every zone claims to be valid. It has the tables of a file of the format, or it
has no abbreviations. -/
theorem construct_ok {content : Option (List UInt8)} {zone : FileZone}
    (h : construct content = .ok zone) : ∃ d, zone = ⟨some d⟩ ∧
      (d.abbreviation = [] ∨
        ∃ (image : ZoneImage) (rest : List UInt8), image.Indexed ∧
          content = some (image.bytes ++ rest) ∧ d = image.data) := by
  unfold construct at h
  obtain ⟨⟨success, d⟩, hread, hzone⟩ := bind_eq_ok.mp h
  cases content with
  | none =>
    cases hread
    cases hzone
    exact ⟨_, rfl, Or.inl rfl⟩
  | some bytes =>
    obtain ⟨rfl, hd⟩ := readTimeZoneFile_cases hread
    cases hzone
    refine ⟨d, rfl, ?_⟩
    rcases hd with hempty | ⟨image, rest, hindexed, rfl, rfl⟩
    · exact Or.inl hempty
    · exact Or.inr ⟨image, rest, hindexed, rfl, rfl⟩

/-- A zone that claims to be valid can be used exactly when it was made from a
sound file, whatever follows the abbreviations. -/
theorem safeToUse_iff (gmtime : ℤ → Tm) (timegm : Tm → ℤ) (content : Option (List UInt8)) :
    SafeToUse gmtime timegm content ↔
      ∃ (image : ZoneImage) (rest : List UInt8), content = some (image.bytes ++ rest) ∧
        image.Sound := by
  constructor
  · rintro ⟨zone, hzone, hsafe⟩
    obtain ⟨d, rfl, hd⟩ := construct_ok hzone
    have hbounds : (FileZone.mk (some d)).InBounds gmtime timegm := by
      rcases hsafe with hvalid | hbounds
      · cases hvalid
      · exact hbounds
    rcases hd with hempty | ⟨image, rest, hindexed, rfl, rfl⟩
    · exact absurd hbounds (not_inBounds_of_empty hempty)
    · exact ⟨image, rest, rfl, sound_of_inBounds hindexed hbounds⟩
  · rintro ⟨image, rest, rfl, hsound⟩
    refine ⟨⟨some image.data⟩, ?_, Or.inr (inBounds_of_sound hsound)⟩
    rw [construct, readTimeZoneFile_image hsound.indexed]
    rfl

/-- A file that cannot be opened gives a zone that claims to be valid and has no
type to show a time with. -/
theorem missingFile_unsafe :
    (∃ zone, construct none = .ok zone ∧ zone.valid = true ∧
      zone.timeZone.toLocalTime TinyMuduo.gmtime 0 = .error .outOfBounds) ∧
    ¬ SafeToUse TinyMuduo.gmtime TinyMuduo.timegm none := by
  refine ⟨⟨⟨some ZoneData.empty⟩, rfl, rfl, rfl⟩, ?_⟩
  rintro ⟨zone, hzone, hsafe⟩
  cases hzone
  rcases hsafe with hvalid | hbounds
  · cases hvalid
  · exact not_inBounds_of_empty rfl hbounds

/-- A file with one transition, from Greenwich time to summer time. -/
def london : ZoneImage where
  version := [0]
  reserved := List.replicate 15 0
  isgmtcnt := ⟨[0, 0, 0, 0], rfl⟩
  isstdcnt := ⟨[0, 0, 0, 0], rfl⟩
  leapcnt := ⟨[0, 0, 0, 0], rfl⟩
  timecnt := ⟨[0, 0, 0, 1], rfl⟩
  typecnt := ⟨[0, 0, 0, 2], rfl⟩
  charcnt := ⟨[0, 0, 0, 8], rfl⟩
  times := [⟨[0, 0, 0, 1], rfl⟩]
  indices := [1]
  types := [⟨⟨[0, 0, 0, 0], rfl⟩, 0, 0⟩, ⟨⟨[0, 0, 14, 16], rfl⟩, 1, 4⟩]
  abbreviation := [71, 77, 84, 0, 66, 83, 84, 0]
  version_length := rfl
  reserved_length := rfl
  times_length := by decide
  indices_length := by decide
  types_length := by decide
  abbreviation_length := by decide

theorem london_safe : SafeToUse TinyMuduo.gmtime TinyMuduo.timegm (some (london.bytes ++ [])) := by
  have hsound : london.Sound := by
    rw [ZoneImage.sound_iff_of_increasing (List.pairwise_singleton _ _)]
    refine ⟨by decide, ⟨_, rfl, by decide⟩, ?_⟩
    intro idx hidx ty hty
    obtain rfl := List.mem_singleton.mp hidx
    cases hty
    decide
  exact (safeToUse_iff _ _ _).mpr ⟨london, [], rfl, hsound⟩

end FileZone

end TinyMuduo
