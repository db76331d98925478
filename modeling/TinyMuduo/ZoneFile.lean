import TinyMuduo.TimeZone
import TinyMuduo.Lib.MachineInt
import TinyMuduo.Lib.Reading

/-!
The file that a TimeZone is made from. The tables are filled while the file is
read; an exception leaves what was read so far, and the result is success in any
case. The counts and the indices of the file are not checked: an index outside
its table is a fault, when the tables are filled or when they are used.
-/
namespace TinyMuduo

open Checked LowerBound MachineInt Reading Reader

structure ZoneData extends TimeZoneData where
  abbreviation : List UInt8

def ZoneData.empty : ZoneData where
  transitions := []
  localtimes := []
  abbreviation := []

inductive Stop
  /-- an exception, which is caught, and its text -/
  | logicError (what : String)
  | fault (f : Fault)

abbrev File := Reader Stop UInt8 ZoneData

namespace File

/-- The length of an array must not be negative. -/
def readBytes (n : ℤ) : File (List UInt8) :=
  if n < 0 then stop (.fault .arrayLength) else read n.toNat (.logicError "no enough data")

/-- be32toh(3), and the conversion of its result to `int32_t`. -/
def be32toh (bytes : List UInt8) : ℤ := narrow (bytes.foldl (fun n b => n * 256 + b.toNat) 0)

def readInt32 : File ℤ := do
  let x ← read 4 (.logicError "bad int32_t data")
  return be32toh x

def readUInt8 : File UInt8 := do
  let x ← read 1 (.logicError "bad uint8_t data")
  return x.headD 0

/-- `vector::reserve`; a negative argument becomes a size that is too large. -/
def reserve (n : ℤ) : File Unit :=
  if n < 0 then stop (.logicError "vector::reserve") else pure ()

def readLocaltime : File Unit := do
  let gmtoff ← readInt32
  let isdst ← readUInt8
  let abbrind ← readUInt8
  build fun data =>
    { data with localtimes := data.localtimes ++ [⟨gmtoff, isdst ≠ 0, abbrind.toNat⟩] }

/-- The loop that makes the transitions, which have a time and a type each. -/
def addTransitions : List ℤ → List UInt8 → File Unit
  | time :: times, localIdx :: localtimes => do
    let data ← built
    match data.localtimeAt localIdx.toNat with
    | none => stop (.fault .outOfBounds)
    | some found => do
      let localtime := time + found.gmtOffset
      build fun data =>
        { data with transitions := data.transitions ++ [⟨time, localtime, localIdx.toNat⟩] }
      addTransitions times localtimes
  | _, _ => pure ()

/-- `readTimeZoneFile` up to the abbreviations. The number of leap seconds is left
to read. -/
def readTables : File ℤ := do
  let head ← readBytes 4
  if head ≠ [84, 90, 105, 102] then stop (.logicError "bad head") else do
  let _version ← readBytes 1
  let _ ← readBytes 15
  let _isgmtcnt ← readInt32
  let _isstdcnt ← readInt32
  let leapcnt ← readInt32
  let timecnt ← readInt32
  let typecnt ← readInt32
  let charcnt ← readInt32
  reserve timecnt
  let trans ← collect readInt32 timecnt.toNat
  let localtimes ← collect readUInt8 timecnt.toNat
  let _ ← collect readLocaltime typecnt.toNat
  addTransitions trans localtimes
  let abbreviation ← readBytes charcnt
  build fun data => { data with abbreviation }
  return leapcnt

/-- The leap seconds are read and not used. -/
def readLeap : File Unit := do
  let _leaptime ← readInt32
  let _cumleap ← readInt32
  return ()

def readAll : File Unit := do
  let leapcnt ← readTables
  let _ ← collect readLeap leapcnt.toNat
  return ()

end File

/-- The content is missing when the file cannot be opened. The text of an exception
is printed. -/
def readTimeZoneFile (content : Option (List UInt8)) : Except Fault (Bool × ZoneData) :=
  match content with
  | none => .ok (true, ZoneData.empty)
  | some bytes =>
      match File.readAll (bytes, ZoneData.empty) with
      | (.ok (), (_, data)) => .ok (true, data)
      | (.error (.logicError _), (_, data)) => .ok (true, data)
      | (.error (.fault f), _) => .error f

structure FileZone where
  data_ : Option ZoneData

namespace FileZone

def construct (content : Option (List UInt8)) : Except Fault FileZone := do
  let (success, data) ← readTimeZoneFile content
  return if success then ⟨some data⟩ else ⟨none⟩

def valid (zone : FileZone) : Bool := zone.data_.isSome

def timeZone (zone : FileZone) : TimeZone := ⟨zone.data_.map ZoneData.toTimeZoneData⟩

def abbreviation (zone : FileZone) : List UInt8 := (zone.data_.map ZoneData.abbreviation).getD []

/-- Every conversion stays within the tables, and the address that it takes is
the one of a character. -/
def InBounds (gmtime : ℤ → Tm) (timegm : Tm → ℤ) (zone : FileZone) : Prop :=
  (∀ t, ∃ tm idx, zone.timeZone.toLocalTime gmtime t = .ok tm ∧ tm.tm_zone = .abbreviation idx ∧
    0 ≤ idx ∧ idx < zone.abbreviation.length) ∧
  ∀ localTm, ∃ seconds, zone.timeZone.fromLocalTime gmtime timegm localTm = .ok seconds

/-- The zone made from a content can be used if it claims to be valid. -/
def SafeToUse (gmtime : ℤ → Tm) (timegm : Tm → ℤ) (content : Option (List UInt8)) : Prop :=
  ∃ zone, construct content = .ok zone ∧ (zone.valid = false ∨ zone.InBounds gmtime timegm)

end FileZone

/-! The format of the file, and the files that are read to the end. -/

structure Word where
  bytes : List UInt8
  length_eq : bytes.length = 4

def Word.value (w : Word) : ℤ := File.be32toh w.bytes

structure TypeRecord where
  gmtoff : Word
  isdst : UInt8
  abbrind : UInt8

namespace TypeRecord

def bytes (ty : TypeRecord) : List UInt8 := ty.gmtoff.bytes ++ [ty.isdst, ty.abbrind]

def localtime (ty : TypeRecord) : Localtime := ⟨ty.gmtoff.value, ty.isdst ≠ 0, ty.abbrind.toNat⟩

end TypeRecord

/-- A file up to its abbreviations. A negative number of types counts as none. -/
structure ZoneImage where
  version : List UInt8
  reserved : List UInt8
  isgmtcnt : Word
  isstdcnt : Word
  leapcnt : Word
  timecnt : Word
  typecnt : Word
  charcnt : Word
  times : List Word
  indices : List UInt8
  types : List TypeRecord
  abbreviation : List UInt8
  version_length : version.length = 1
  reserved_length : reserved.length = 15
  times_length : times.length = timecnt.value
  indices_length : indices.length = timecnt.value
  types_length : types.length = typecnt.value.toNat
  abbreviation_length : abbreviation.length = charcnt.value

namespace ZoneImage

def bytes (image : ZoneImage) : List UInt8 :=
  [84, 90, 105, 102] ++ image.version ++ image.reserved ++ image.isgmtcnt.bytes ++
    image.isstdcnt.bytes ++ image.leapcnt.bytes ++ image.timecnt.bytes ++ image.typecnt.bytes ++
    image.charcnt.bytes ++ image.times.flatMap Word.bytes ++ image.indices ++
    image.types.flatMap TypeRecord.bytes ++ image.abbreviation

def Indexed (image : ZoneImage) : Prop := ∀ idx ∈ image.indices, idx.toNat < image.types.length

instance (image : ZoneImage) : Decidable image.Indexed :=
  List.decidableBAll (fun idx : UInt8 => idx.toNat < image.types.length) image.indices

theorem indexed_iff (image : ZoneImage) : image.Indexed ↔
    ∀ p ∈ (image.times.map Word.value).zip image.indices, p.2.toNat < image.types.length := by
  have htimes := image.times_length
  have hindices := image.indices_length
  have hsnd : ((image.times.map Word.value).zip image.indices).map Prod.snd = image.indices := by
    apply List.map_snd_zip
    rw [List.length_map]
    omega
  unfold Indexed
  conv_lhs => rw [← hsnd]
  exact List.forall_mem_map

def transition (localtimes : List Localtime) (time : ℤ) (idx : UInt8) : Transition where
  gmttime := time
  localtime := time + (localtimes[idx.toNat]?.map Localtime.gmtOffset).getD 0
  localtimeIdx := idx.toNat

def data (image : ZoneImage) : ZoneData where
  transitions := List.zipWith (transition (image.types.map TypeRecord.localtime))
    (image.times.map Word.value) image.indices
  localtimes := image.types.map TypeRecord.localtime
  abbreviation := image.abbreviation

end ZoneImage

namespace File

variable {input rest : List UInt8} {d d' : ZoneData}

theorem readBytes_reads (n : ℤ) : Reads (readBytes n)
    (fun bytes : { bytes : List UInt8 // (bytes.length : ℤ) = n } => bytes.1) (fun bytes => bytes.1)
    (fun _ d => d) := by
  intro input d bytes rest d'
  unfold readBytes
  rw [ite_stop_ok, read_reads]
  constructor
  · rintro ⟨hn, ⟨bytes, hlen⟩, rfl, rfl, rfl⟩
    exact ⟨⟨bytes, by omega⟩, rfl, rfl, rfl⟩
  · rintro ⟨⟨bytes, hlen⟩, rfl, rfl, rfl⟩
    exact ⟨by omega, ⟨bytes, by omega⟩, rfl, rfl, rfl⟩

theorem readInt32_reads : Reads readInt32 Word.bytes Word.value (fun _ d => d) := by
  intro input d n rest d'
  rw [readInt32, read_reads.map]
  constructor
  · rintro ⟨⟨bytes, hlen⟩, rfl, rfl, rfl⟩
    exact ⟨⟨bytes, hlen⟩, rfl, rfl, rfl⟩
  · rintro ⟨w, rfl, rfl, rfl⟩
    exact ⟨⟨w.bytes, w.length_eq⟩, rfl, rfl, rfl⟩

theorem readUInt8_reads : Reads readUInt8 (fun b => [b]) (fun b => b) (fun _ d => d) := by
  intro input d b rest d'
  rw [readUInt8, read_reads.map]
  constructor
  · rintro ⟨⟨bytes, hlen⟩, rfl, rfl, rfl⟩
    obtain ⟨b, rfl⟩ := List.length_eq_one_iff.mp hlen
    exact ⟨b, rfl, rfl, rfl⟩
  · rintro ⟨b, rfl, rfl, rfl⟩
    exact ⟨⟨[b], rfl⟩, rfl, rfl, rfl⟩

def pushLocaltime (l : Localtime) (d : ZoneData) : ZoneData :=
  { d with localtimes := d.localtimes ++ [l] }

theorem readLocaltime_reads : Reads readLocaltime TypeRecord.bytes (fun _ => ())
    (fun ty d => pushLocaltime ty.localtime d) := by
  intro input d u rest d'
  unfold readLocaltime
  simp only [readInt32_reads.bind_ok, readUInt8_reads.bind_ok]
  constructor
  · rintro ⟨w, _, rfl, isdst, _, rfl, abbrind, _, rfl, hbuild⟩
    cases hbuild
    exact ⟨⟨w, isdst, abbrind⟩, by simp [TypeRecord.bytes], trivial, rfl⟩
  · rintro ⟨ty, rfl, -, rfl⟩
    refine ⟨ty.gmtoff, [ty.isdst] ++ ([ty.abbrind] ++ rest), ?_, ty.isdst, [ty.abbrind] ++ rest,
      rfl, ty.abbrind, rest, rfl, rfl⟩
    simp [TypeRecord.bytes]

theorem pushLocaltimes (types : List TypeRecord) (d : ZoneData) :
    types.foldl (fun d ty => pushLocaltime ty.localtime d) d =
      { d with localtimes := d.localtimes ++ types.map TypeRecord.localtime } := by
  induction types generalizing d with
  | nil => simp
  | cons ty types ih =>
    rw [List.foldl_cons, ih]
    simp [pushLocaltime]

section Transitions

variable {time : ℤ} {times : List ℤ} {idx : UInt8} {indices : List UInt8}

def pushTransition (time : ℤ) (idx : UInt8) (d : ZoneData) : ZoneData :=
  { d with transitions := d.transitions ++ [ZoneImage.transition d.localtimes time idx] }

def appendTransitions (times : List ℤ) (indices : List UInt8) (d : ZoneData) : ZoneData :=
  { d with
    transitions := d.transitions ++
      List.zipWith (ZoneImage.transition d.localtimes) times indices }

theorem addTransitions_cons :
    addTransitions (time :: times) (idx :: indices) (input, d) =
      if idx.toNat < d.localtimes.length then
        addTransitions times indices (input, pushTransition time idx d)
      else (.error (.fault .outOfBounds), (input, d)) := by
  have hat : d.localtimeAt idx.toNat = d.localtimes[idx.toNat]? := by
    rw [TimeZoneData.localtimeAt, if_pos (Int.natCast_nonneg _), Int.toNat_natCast]
  rw [addTransitions]
  change (match d.localtimeAt idx.toNat with
    | none => _
    | some found => _ : File Unit) (input, d) = _
  rw [hat]
  by_cases hidx : idx.toNat < d.localtimes.length
  · rw [if_pos hidx, List.getElem?_eq_getElem hidx, pushTransition, ZoneImage.transition,
      List.getElem?_eq_getElem hidx]
    rfl
  · rw [if_neg hidx, List.getElem?_eq_none (Nat.not_lt.mp hidx)]
    rfl

theorem addTransitions_ok {u : Unit} :
    addTransitions times indices (input, d) = (.ok u, (rest, d')) ↔
      (∀ p ∈ times.zip indices, p.2.toNat < d.localtimes.length) ∧ rest = input ∧
        d' = appendTransitions times indices d := by
  induction times generalizing indices d with
  | nil =>
    rw [addTransitions, pure_ok, Prod.mk.injEq]
    · simp [appendTransitions]
    · simp
  | cons time times ih =>
    cases indices with
    | nil =>
      rw [addTransitions, pure_ok, Prod.mk.injEq]
      · simp [appendTransitions]
      · simp
    | cons idx indices =>
      rw [addTransitions_cons]
      by_cases hidx : idx.toNat < d.localtimes.length
      · rw [if_pos hidx, ih]
        simp [appendTransitions, pushTransition, hidx]
      · rw [if_neg hidx]
        simp [hidx]

theorem addTransitions_bind_ok {f : Unit → File γ} {c : γ} {s : List UInt8 × ZoneData} :
    (addTransitions times indices >>= f) (input, d) = (.ok c, s) ↔
      (∀ p ∈ times.zip indices, p.2.toNat < d.localtimes.length) ∧
        f () (input, appendTransitions times indices d) = (.ok c, s) := by
  rw [Reader.bind_ok]
  constructor
  · rintro ⟨_, ⟨_, _⟩, hadd, hf⟩
    obtain ⟨hindexed, rfl, rfl⟩ := addTransitions_ok.mp hadd
    exact ⟨hindexed, hf⟩
  · rintro ⟨hindexed, hf⟩
    exact ⟨(), _, addTransitions_ok.mpr ⟨hindexed, rfl, rfl⟩, hf⟩

end Transitions

theorem reserve_bind_ok {n : ℤ} {f : Unit → File γ} {c : γ} {s s' : List UInt8 × ZoneData} :
    (reserve n >>= f) s = (.ok c, s') ↔ 0 ≤ n ∧ f () s = (.ok c, s') := by
  unfold reserve
  by_cases hn : n < 0
  · rw [if_pos hn]
    refine iff_of_false stop_ok ?_
    omega
  · rw [if_neg hn]
    exact ⟨fun h => ⟨Int.not_lt.mp hn, h⟩, fun h => h.2⟩

/-- The tables are read to the end exactly from the files of the format whose
transitions have types. -/
theorem readTables_ok {leapcnt : ℤ} :
    readTables (input, ZoneData.empty) = (.ok leapcnt, (rest, d')) ↔
      ∃ image : ZoneImage, image.Indexed ∧ input = image.bytes ++ rest ∧
        leapcnt = image.leapcnt.value ∧ d' = image.data := by
  unfold readTables
  simp only [(readBytes_reads _).bind_ok, readInt32_reads.bind_ok, ite_stop_ok, not_not,
    reserve_bind_ok, (readInt32_reads.collect _).bind_ok, (readUInt8_reads.collect _).bind_ok,
    (readLocaltime_reads.collect _).bind_ok, addTransitions_bind_ok, build_bind_ok, pure_ok,
    pushLocaltimes, List.foldl_fixed, List.flatMap_singleton', List.map_id']
  constructor
  · rintro ⟨head, _, h₁, hhead, version, _, h₂, reserved, _, h₃, isgmtcnt, _, h₄, isstdcnt, _, h₅,
      leapcnt, _, h₆, timecnt, _, h₇, typecnt, _, h₈, charcnt, _, h₉, htimecnt, times, _, h₁₀,
      indices, _, h₁₁, types, _, h₁₂, hindexed, abbreviation, _, h₁₃, hleapcnt, hs⟩
    have hversion := version.2
    have hreserved := reserved.2
    have htimes := times.2
    have hindices := indices.2
    obtain ⟨hrest, hdata⟩ := Prod.mk.inj hs
    refine ⟨⟨version.1, reserved.1, isgmtcnt, isstdcnt, leapcnt, timecnt, typecnt, charcnt, times.1,
      indices.1, types.1, abbreviation.1, by omega, by omega, by omega, by omega, types.2,
      abbreviation.2⟩, ?_, ?_, hleapcnt, ?_⟩
    · rw [ZoneImage.indexed_iff]
      simpa [ZoneData.empty] using hindexed
    · rw [h₁, h₂, h₃, h₄, h₅, h₆, h₇, h₈, h₉, h₁₀, h₁₁, h₁₂, h₁₃, ← hrest]
      simp [ZoneImage.bytes, hhead]
    · rw [hdata]
      simp [ZoneImage.data, ZoneData.empty, appendTransitions]
  · rintro ⟨image, hindexed, rfl, rfl, rfl⟩
    have htimes := image.times_length
    have hindices := image.indices_length
    have hversion := image.version_length
    have hreserved := image.reserved_length
    rw [ZoneImage.indexed_iff] at hindexed
    refine ⟨⟨[84, 90, 105, 102], rfl⟩, _, ?_, rfl, ⟨image.version, by omega⟩, _, rfl,
      ⟨image.reserved, by omega⟩, _, rfl, image.isgmtcnt, _, rfl, image.isstdcnt, _, rfl,
      image.leapcnt, _, rfl, image.timecnt, _, rfl, image.typecnt, _, rfl, image.charcnt, _, rfl,
      by omega, ⟨image.times, by omega⟩, _, rfl, ⟨image.indices, by omega⟩, _, rfl,
      ⟨image.types, image.types_length⟩, _, rfl, ?_,
      ⟨image.abbreviation, image.abbreviation_length⟩, rest, rfl, rfl, ?_⟩
    · simp [ZoneImage.bytes]
    · simpa [ZoneData.empty] using hindexed
    · simp [ZoneImage.data, ZoneData.empty, appendTransitions]

section Stopped

variable {P : ZoneData → Prop} {E : Stop → ZoneData → Prop}

/-- Where the tables stay as they are, so does a computation that reads an
integer. -/
theorem readInt32_triple (h : ∀ d, P d → E (.logicError "bad int32_t data") d) :
    Triple P readInt32 P E := by
  apply Triple.bind (Triple.read h)
  intro x
  exact Triple.pure

theorem readUInt8_triple (h : ∀ d, P d → E (.logicError "bad uint8_t data") d) :
    Triple P readUInt8 P E := by
  apply Triple.bind (Triple.read h)
  intro x
  exact Triple.pure

theorem readBytes_triple {n : ℤ} (h : ∀ reason d, P d → E reason d) :
    Triple P (readBytes n) P E := by
  unfold readBytes
  split
  · exact Triple.stop (h _)
  · exact Triple.read (h _)

def NoAbbreviation (d : ZoneData) : Prop := d.abbreviation = []

theorem addTransitions_triple (times : List ℤ) (indices : List UInt8) :
    Triple NoAbbreviation (addTransitions times indices) NoAbbreviation
      (fun _ => NoAbbreviation) := by
  induction times generalizing indices with
  | nil =>
    rw [addTransitions]
    · exact Triple.pure
    · simp
  | cons time times ih =>
    cases indices with
    | nil =>
      rw [addTransitions]
      · exact Triple.pure
      · simp
    | cons idx indices =>
      rw [addTransitions]
      apply Triple.bind Triple.built
      intro data
      cases data.localtimeAt idx.toNat with
      | none => exact Triple.stop (fun _ h => h)
      | some found =>
        dsimp only
        apply Triple.bind (Q := NoAbbreviation)
        · exact Triple.build (fun _ h => h)
        · intro _
          exact ih indices

/-- However the reading of the tables is stopped, it has not come to the
abbreviations. -/
theorem readTables_triple :
    Triple NoAbbreviation readTables (fun _ => True) (fun _ => NoAbbreviation) := by
  have hbytes : ∀ n, Triple NoAbbreviation (readBytes n) NoAbbreviation (fun _ => NoAbbreviation) :=
    fun n => readBytes_triple (fun _ _ h => h)
  have hint : Triple NoAbbreviation readInt32 NoAbbreviation (fun _ => NoAbbreviation) :=
    readInt32_triple (fun _ h => h)
  have hbyte : Triple NoAbbreviation readUInt8 NoAbbreviation (fun _ => NoAbbreviation) :=
    readUInt8_triple (fun _ h => h)
  have htype : Triple NoAbbreviation readLocaltime NoAbbreviation (fun _ => NoAbbreviation) := by
    refine hint.bind fun gmtoff => hbyte.bind fun isdst => hbyte.bind fun abbrind => ?_
    exact Triple.build (fun _ h => h)
  have hreserve : ∀ n, Triple NoAbbreviation (reserve n) NoAbbreviation
      (fun _ => NoAbbreviation) := by
    intro n
    unfold reserve
    split
    · exact Triple.stop (fun _ h => h)
    · exact Triple.pure
  refine (hbytes 4).bind fun head => ?_
  split
  · exact Triple.stop (fun _ h => h)
  · refine (hbytes 1).bind fun version => (hbytes 15).bind fun reserved => ?_
    refine hint.bind fun isgmtcnt => hint.bind fun isstdcnt => hint.bind fun leapcnt => ?_
    refine hint.bind fun timecnt => hint.bind fun typecnt => hint.bind fun charcnt => ?_
    refine (hreserve timecnt).bind fun _ => (hint.collect _).bind fun times => ?_
    refine (hbyte.collect _).bind fun indices => (htype.collect _).bind fun _ => ?_
    refine (addTransitions_triple times indices).bind fun _ => ?_
    refine (hbytes _).bind fun abbreviation => ?_
    refine Triple.bind (Q := fun _ => True) (Triple.build fun _ _ => trivial) fun _ => ?_
    exact Triple.pure

/-- The leap seconds change nothing, and only an exception stops them. -/
theorem collectLeap_triple (d : ZoneData) (n : ℕ) :
    Triple (fun d' => d' = d) (collect readLeap n) (fun d' => d' = d)
      (fun e d' => d' = d ∧ ∃ what, e = .logicError what) := by
  have hint : Triple (fun d' => d' = d) readInt32 (fun d' => d' = d)
      (fun e d' => d' = d ∧ ∃ what, e = .logicError what) :=
    readInt32_triple (fun _ h => ⟨h, _, rfl⟩)
  apply Triple.collect
  refine hint.bind fun leaptime => hint.bind fun cumleap => ?_
  exact Triple.pure

end Stopped

end File

/-- The reading succeeds with the tables once they are complete. -/
theorem readTimeZoneFile_tables {bytes rest : List UInt8} {leapcnt : ℤ} {d : ZoneData}
    (h : File.readTables (bytes, ZoneData.empty) = (.ok leapcnt, (rest, d))) :
    readTimeZoneFile (some bytes) = .ok (true, d) := by
  have hleaps := File.collectLeap_triple d leapcnt.toNat rest d rfl
  unfold readTimeZoneFile File.readAll
  dsimp only
  rw [bind_apply, h]
  dsimp only
  rw [bind_apply]
  rcases hcollect : collect File.readLeap leapcnt.toNat (rest, d) with ⟨e | us, rest', d'⟩
  · rw [hcollect] at hleaps
    obtain ⟨rfl, what, rfl⟩ := hleaps
    rfl
  · rw [hcollect] at hleaps
    change d' = d at hleaps
    rw [hleaps]
    rfl

/-- A file of the format is read as the tables it describes, whatever follows. -/
theorem readTimeZoneFile_image {image : ZoneImage} (h : image.Indexed) (rest : List UInt8) :
    readTimeZoneFile (some (image.bytes ++ rest)) = .ok (true, image.data) :=
  readTimeZoneFile_tables (File.readTables_ok.mpr ⟨image, h, rfl, rfl, rfl⟩)

/-- Any other file leaves no abbreviations. -/
theorem readTimeZoneFile_cases {bytes : List UInt8} {success : Bool} {d : ZoneData}
    (h : readTimeZoneFile (some bytes) = .ok (success, d)) : success = true ∧
      (d.abbreviation = [] ∨
        ∃ (image : ZoneImage) (rest : List UInt8), image.Indexed ∧ bytes = image.bytes ++ rest ∧
          d = image.data) := by
  rcases htables : File.readTables (bytes, ZoneData.empty) with ⟨e | leapcnt, rest, d'⟩
  · have hstopped := File.readTables_triple bytes ZoneData.empty rfl
    rw [htables] at hstopped
    unfold readTimeZoneFile File.readAll at h
    dsimp only at h
    rw [bind_apply, htables] at h
    cases e with
    | logicError what =>
      cases h
      exact ⟨rfl, Or.inl hstopped⟩
    | fault f => cases h
  · rw [readTimeZoneFile_tables htables] at h
    cases h
    obtain ⟨image, hindexed, rfl, -, rfl⟩ := File.readTables_ok.mp htables
    exact ⟨rfl, Or.inr ⟨image, rest, hindexed, rfl, rfl⟩⟩

end TinyMuduo
