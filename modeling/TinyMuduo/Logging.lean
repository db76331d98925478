import TinyMuduo.BrokenDownTime
import TinyMuduo.LogStream

/-!
The Logger. A log statement constructs a Logger, which formats the prefix of its
line, streams its operands and destroys the Logger, which hands the line to the
output; a FATAL statement is the last one of the process. The text of the second
is cached in a thread-local buffer. C strings are the bytes in front of the NUL.
-/
namespace TinyMuduo

open Checked Slices Numeral LogStream

namespace Logging

/-- What snprintf(3) writes into `size` bytes: the text, cut, and a NUL. -/
def snprintf (size : ℕ) (text : List UInt8) : List UInt8 := text.take (size - 1) ++ [0]

/-- The conversion `%wd`. -/
def blankPadded (w : ℕ) (v : ℤ) : List UInt8 := (decimal v).leftpad w 32

/-- The conversion `%0wd`: the sign stands in front of the zeros. -/
def zeroPadded (w : ℕ) (v : ℤ) : List UInt8 :=
  if v < 0 then ascii "-" ++ (decimal (-v)).leftpad (w - 1) 48 else (decimal v).leftpad w 48

/-- strlen(3); none if no NUL ends the string. -/
def strlen : List UInt8 → Option ℕ
  | [] => none
  | c :: rest => if c = 0 then some 0 else (strlen rest).map (· + 1)

/-- strrchr(3) and what the constructor of Impl makes of its result. -/
def basename (file : List UInt8) : List UInt8 :=
  (file.reverse.takeWhile fun c => !decide (c = 47)).reverse

/-- `T`: a string with the length that the source names. -/
def T (str : List UInt8) (len : ℕ) : Except Fault Item := do
  let n ← demand (strlen str) .outOfBounds
  require (n = len) .knownLength
  return .string (str.take len)

structure Fmt where
  buf_ : List UInt8
  length_ : ℕ

def Fmt.construct (text : List UInt8) : Except Fault Fmt := do
  require (text.length < 32) .formatLength
  return ⟨snprintf 32 text, text.length⟩

inductive LogLevel
  | trace
  | debug
  | info
  | warn
  | error
  | fatal
  deriving DecidableEq, Repr

def logLevelName : LogLevel → List UInt8
  | .trace => ascii "TRACE "
  | .debug => ascii "DEBUG "
  | .info => ascii "INFO  "
  | .warn => ascii "WARN  "
  | .error => ascii "ERROR "
  | .fatal => ascii "FATAL "

inductive Constructor
  | plain
  | leveled (level : LogLevel)
  | function (level : LogLevel) (func : List UInt8)
  | system (toAbort : Bool) (errno : Int32)

def Constructor.level : Constructor → LogLevel
  | .plain => .info
  | .leveled level => level
  | .function level _ => level
  | .system toAbort _ => if toAbort then .fatal else .error

def Constructor.savedErrno : Constructor → Int32
  | .plain | .leveled _ | .function _ _ => 0
  | .system _ errno => errno

structure Statement where
  constructor : Constructor
  file : List UInt8
  line : Int32
  /-- what `Timestamp::now` returns, in microseconds -/
  time : ℤ
  operands : List Item
  /-- the bytes of the stream's buffer, which are not initialised -/
  data : List UInt8
  sized : data.length = kSmallBuffer

namespace Statement

def level (st : Statement) : LogLevel := st.constructor.level

def seconds (st : Statement) : ℤ := st.time.tdiv 1000000

def microseconds (st : Statement) : ℤ := st.time.tmod 1000000

def errnoItems (strerror : Int32 → List UInt8) (st : Statement) : List Item :=
  let savedErrno := st.constructor.savedErrno
  if savedErrno ≠ 0 then
    [.string (strerror savedErrno), .string (ascii " (errno="), .int savedErrno,
      .string (ascii ") ")]
  else []

def funcItems (st : Statement) : List Item :=
  match st.constructor with
  | .function _ func => [.string func, .char 32]
  | .plain | .leveled _ | .system _ _ => []

def finishItems (st : Statement) : List Item :=
  [.string (ascii " - "), .string (basename st.file), .char 58, .int st.line, .char 10]

end Statement

structure ThreadLocal where
  t_time : List UInt8
  t_lastSecond : ℤ
  sized : t_time.length = 32

namespace ThreadLocal

def initial : ThreadLocal := ⟨List.replicate 32 0, 0, List.length_replicate⟩

def timeText (seconds : ℤ) : List UInt8 :=
  let tm_time := gmtime seconds
  blankPadded 4 (tm_time.tm_year + 1900) ++ (zeroPadded 2 (tm_time.tm_mon + 1) ++
    (zeroPadded 2 tm_time.tm_mday ++ (ascii " " ++ (zeroPadded 2 tm_time.tm_hour ++
      (ascii ":" ++ (zeroPadded 2 tm_time.tm_min ++ (ascii ":" ++
        zeroPadded 2 tm_time.tm_sec)))))))

theorem length_snprintf (size : ℕ) (hsize : 0 < size) (text : List UInt8) :
    (snprintf size text).length ≤ size := by
  rw [snprintf, List.length_append, List.length_take, List.length_singleton]
  omega

def store (t : ThreadLocal) (text : List UInt8) : ThreadLocal where
  t_time := splice t.t_time 0 (snprintf 32 text)
  t_lastSecond := t.t_lastSecond
  sized := by
    have hlen := length_snprintf 32 (by decide) text
    have ht := t.sized
    rw [length_splice (by omega), ht]

def refresh (t : ThreadLocal) (seconds : ℤ) : Except Fault ThreadLocal :=
  if seconds ≠ t.t_lastSecond then do
    let text := timeText seconds
    let t' := { t with t_lastSecond := seconds }.store text
    require (text.length = 17) .timeLength
    return t'
  else .ok t

end ThreadLocal

def formatTime (t : ThreadLocal) (stream : LogStream) (st : Statement) :
    Except Fault (ThreadLocal × LogStream) := do
  let t ← t.refresh st.seconds
  let us ← Fmt.construct (ascii "." ++ zeroPadded 6 st.microseconds ++ ascii "Z ")
  require (us.length_ = 9) .microsecondsLength
  let time ← T t.t_time 17
  let us ← T us.buf_ 9
  let stream ← stream.putAll [time, us]
  return (t, stream)

def implConstruct (strerror : Int32 → List UInt8) (tid : ℤ) (t : ThreadLocal) (st : Statement) :
    Except Fault (ThreadLocal × LogStream) := do
  let (t, stream) ← formatTime t (LogStream.construct st.data st.sized) st
  let tidFmt ← Fmt.construct (blankPadded 5 tid ++ ascii " ")
  require (tidFmt.length_ = 6) .tidLength
  let tidItem ← T tidFmt.buf_ 6
  let level ← T (logLevelName st.level ++ [0]) 6
  let stream ← stream.putAll [tidItem, level]
  let stream ← stream.putAll (st.errnoItems strerror)
  return (t, stream)

/-- A log statement as a whole; the result is the line that the destructor hands
to the output. -/
def log (strerror : Int32 → List UInt8) (tid : ℤ) (t : ThreadLocal) (st : Statement) :
    Except Fault (ThreadLocal × List UInt8) := do
  let (t, stream) ← implConstruct strerror tid t st
  let stream ← stream.putAll st.funcItems
  let stream ← stream.putAll st.operands
  let stream ← stream.putAll st.finishItems
  return (t, stream.buffer_.asString)

structure Outcome where
  lines : List (List UInt8)
  fault : Option Fault
  deriving DecidableEq

def logAll (strerror : Int32 → List UInt8) (tid : ℤ) (t : ThreadLocal) :
    List Statement → Outcome
  | [] => ⟨[], none⟩
  | st :: rest =>
      match log strerror tid t st with
      | .error fault => ⟨[], some fault⟩
      | .ok (t', line) =>
          -- abort
          if st.level = .fatal then ⟨[line], none⟩
          else
            let later := logAll strerror tid t' rest
            ⟨line :: later.lines, later.fault⟩

/-! What the lines are to look like. -/

/-- The prefix of a line, formatted from nothing but the statement. -/
def linePrefix (tid : ℤ) (st : Statement) : List UInt8 :=
  [ThreadLocal.timeText st.seconds, ascii "." ++ zeroPadded 6 st.microseconds ++ ascii "Z ",
    blankPadded 5 tid ++ ascii " ", logLevelName st.level].flatten

/-- The statements up to the first FATAL one. -/
def issued : List Statement → List Statement
  | [] => []
  | st :: rest => if st.level = .fatal then [st] else st :: issued rest

def Statement.items (strerror : Int32 → List UInt8) (st : Statement) : List Item :=
  st.errnoItems strerror ++ (st.funcItems ++ (st.operands ++ st.finishItems))

/-- The sizes of all strings fit into an int. -/
def Statement.Short (strerror : Int32 → List UInt8) (st : Statement) : Prop :=
  ∀ v, Item.string v ∈ st.items strerror → v.length < 2 ^ 31

/-- No assertion about a length failed, every line begins with the prefix of its
own statement, and no line is missing. -/
structure WellFormed (strerror : Int32 → List UInt8) (tid : ℤ) (statements : List Statement)
    (outcome : Outcome) : Prop where
  asserted : ∀ fault, outcome.fault = some fault → fault.ofLogging = false
  prefixes : List.Forall₂ (fun st line => linePrefix tid st <+: line)
    ((issued statements).take outcome.lines.length) outcome.lines
  complete : (∀ st ∈ statements, st.Short strerror) →
    outcome.fault = none ∧ outcome.lines.length = (issued statements).length

section Texts

variable {v : ℤ} {w : ℕ} {text : List UInt8}

theorem digitChar_ne_zero {d : ℕ} (hd : d < 10) : digitChar d ≠ 0 := by
  interval_cases d <;> decide

theorem zero_notMem_decimal (v : ℤ) : (0 : UInt8) ∉ decimal v := by
  intro hmem
  obtain hsign | hdigits := List.mem_append.mp hmem
  · split at hsign
    · exact absurd hsign (by decide)
    · cases hsign
  · obtain ⟨d, hd, hzero⟩ := List.mem_map.mp hdigits
    exact digitChar_ne_zero (digit_lt (by decide) (List.mem_reverse.mp hd)) hzero

theorem zero_notMem_leftpad {c : UInt8} (hc : c ≠ 0) (htext : 0 ∉ text) :
    (0 : UInt8) ∉ text.leftpad w c := by
  intro hmem
  obtain hpad | hmem := List.mem_append.mp hmem
  · exact hc (List.eq_of_mem_replicate hpad).symm
  · exact htext hmem

theorem zero_notMem_zeroPadded (w : ℕ) (v : ℤ) : (0 : UInt8) ∉ zeroPadded w v := by
  unfold zeroPadded
  split
  · rw [List.mem_append, not_or]
    exact ⟨by decide, zero_notMem_leftpad (by decide) (zero_notMem_decimal _)⟩
  · exact zero_notMem_leftpad (by decide) (zero_notMem_decimal _)

theorem zero_notMem_blankPadded (w : ℕ) (v : ℤ) : (0 : UInt8) ∉ blankPadded w v :=
  zero_notMem_leftpad (by decide) (zero_notMem_decimal _)

/-- A number is as wide as its digits, at least as wide as it is padded. -/
theorem length_decimal_le_iff (hw : 0 < w) (h0 : 0 ≤ v) :
    (decimal v).length ≤ w ↔ v < 10 ^ w := by
  obtain ⟨n, rfl⟩ := Int.eq_ofNat_of_zero_le h0
  rw [length_decimal, if_neg (Int.not_lt.mpr h0), Nat.zero_add, Int.natAbs_natCast,
    length_lowFirst_le_iff (by decide) hw]
  exact_mod_cast Iff.rfl

theorem length_blankPadded (w : ℕ) (v : ℤ) :
    (blankPadded w v).length = max w (decimal v).length :=
  List.length_leftpad ..

theorem length_blankPadded_eq_iff (hw : 0 < w) (h0 : 0 ≤ v) :
    (blankPadded w v).length = w ↔ v < 10 ^ w := by
  rw [length_blankPadded, ← length_decimal_le_iff hw h0]
  omega

theorem length_zeroPadded (hw : 0 < w) (h0 : 0 ≤ v) (h1 : v < 10 ^ w) :
    (zeroPadded w v).length = w := by
  have hlen := (length_decimal_le_iff hw h0).mpr h1
  rw [zeroPadded, if_neg (Int.not_lt.mpr h0), List.length_leftpad]
  omega

theorem strlen_append (rest : List UInt8) (htext : 0 ∉ text) :
    strlen (text ++ 0 :: rest) = some text.length := by
  induction text with
  | nil => rfl
  | cons c text ih =>
    obtain ⟨hc, htext⟩ := not_or.mp (fun h => htext (List.mem_cons.mpr h))
    rw [List.cons_append, strlen, if_neg (fun h => hc h.symm), ih htext]
    rfl

/-- The assertion of `T` for a string in front of its NUL. -/
theorem T_ok (rest : List UInt8) (htext : 0 ∉ text) :
    T (text ++ 0 :: rest) text.length = .ok (.string text) := by
  rw [T, strlen_append rest htext, demand, ok_bind, require_pos _ rfl, ok_bind, List.take_left]
  rfl

theorem snprintf_eq {size : ℕ} (h : text.length < size) : snprintf size text = text ++ [0] := by
  rw [snprintf, List.take_of_length_le (by omega)]

theorem fmt_ok (h : text.length < 32) :
    Fmt.construct text = .ok ⟨text ++ [0], text.length⟩ := by
  rw [Fmt.construct, require_pos _ h, ok_bind, snprintf_eq h]
  rfl

end Texts

section Time

variable {seconds : ℤ} {t : ThreadLocal}

/-- From the second after the epoch to the end of the year 9999. -/
def Dated (seconds : ℤ) : Prop := 1 ≤ seconds ∧ seconds ≤ 253402300799

instance : Decidable (Dated seconds) :=
  inferInstanceAs (Decidable (1 ≤ seconds ∧ seconds ≤ 253402300799))

theorem length_timeText (h : Dated seconds) : (ThreadLocal.timeText seconds).length = 17 := by
  obtain ⟨h0, h1⟩ := h
  obtain ⟨⟨hy0, hy1⟩, ⟨hmon0, hmon1⟩, ⟨hd0, hd1⟩, ⟨hh0, hh1⟩, ⟨hm0, hm1⟩, hs0, hs1⟩ :=
    gmtime_ranges (by omega : 0 ≤ seconds) h1
  simp only [ThreadLocal.timeText, List.length_append]
  rw [(length_blankPadded_eq_iff (by decide) hy0).mpr hy1,
    length_zeroPadded (by decide) hmon0 hmon1,
    length_zeroPadded (by decide) hd0 hd1, length_zeroPadded (by decide) hh0 hh1,
    length_zeroPadded (by decide) hm0 hm1, length_zeroPadded (by decide) hs0 hs1]
  rfl

theorem zero_notMem_timeText (seconds : ℤ) : (0 : UInt8) ∉ ThreadLocal.timeText seconds := by
  simp only [ThreadLocal.timeText, List.mem_append, not_or]
  have hblank : (0 : UInt8) ∉ ascii " " := by decide
  have hcolon : (0 : UInt8) ∉ ascii ":" := by decide
  exact ⟨zero_notMem_blankPadded _ _, zero_notMem_zeroPadded _ _, zero_notMem_zeroPadded _ _,
    hblank, zero_notMem_zeroPadded _ _, hcolon, zero_notMem_zeroPadded _ _, hcolon,
    zero_notMem_zeroPadded _ _⟩

def Cached (t : ThreadLocal) : Prop :=
  t.t_lastSecond ≠ 0 →
    Dated t.t_lastSecond ∧ ∃ rest, t.t_time = ThreadLocal.timeText t.t_lastSecond ++ 0 :: rest

theorem cached_initial : Cached ThreadLocal.initial := fun h => absurd rfl h

/-- After the refresh the cache holds the second of the statement, whether it was
written now or before. -/
theorem refresh_ok (ht : Cached t) (hseconds : Dated seconds) :
    ∃ t' rest, t.refresh seconds = .ok t' ∧ Cached t' ∧
      t'.t_time = ThreadLocal.timeText seconds ++ 0 :: rest := by
  have hlen := length_timeText hseconds
  unfold ThreadLocal.refresh
  by_cases hlast : seconds ≠ t.t_lastSecond
  · have htime : (({ t with t_lastSecond := seconds } : ThreadLocal).store
        (ThreadLocal.timeText seconds)).t_time =
        ThreadLocal.timeText seconds ++ 0 :: t.t_time.drop 18 := by
      change splice t.t_time 0 _ = _
      rw [snprintf_eq (by omega), splice, List.length_append, hlen]
      simp
    rw [if_pos hlast]
    dsimp only
    rw [require_pos _ hlen]
    exact ⟨_, _, rfl, fun _ => ⟨hseconds, _, htime⟩, htime⟩
  · rw [if_neg hlast]
    have hsame : seconds = t.t_lastSecond := not_not.mp hlast
    subst hsame
    obtain ⟨hpos, -⟩ := hseconds
    obtain ⟨-, rest, htime⟩ := ht (by omega)
    exact ⟨t, rest, rfl, ht, htime⟩

end Time

section Lines

variable {strerror : Int32 → List UInt8} {tid : ℤ} {t : ThreadLocal} {st : Statement}
  {stream : LogStream}

/-- Strings for which there is room. -/
theorem putAll_strings {texts : List (List UInt8)}
    (hroom : stream.buffer_.cur + texts.flatten.length < kSmallBuffer) :
    ∃ stream', stream.putAll (texts.map .string) = .ok stream' ∧
      Appended stream stream' texts.flatten := by
  induction texts generalizing stream with
  | nil => exact ⟨stream, rfl, by simp, by simp, Nat.le_of_lt hroom⟩
  | cons text texts ih =>
    rw [List.flatten_cons, List.length_append] at hroom
    unfold kSmallBuffer at hroom
    have hfits : (text.length : ℤ) < stream.buffer_.avail := by
      unfold FixedBuffer.avail kSmallBuffer
      omega
    obtain ⟨s₁, happend, happended⟩ := (append_ok (s := stream) (by omega)).1 hfits
    have hroom₁ : s₁.buffer_.cur + texts.flatten.length < kSmallBuffer := by
      unfold kSmallBuffer
      rw [happended.cur]
      omega
    obtain ⟨s₂, hrest, happended₂⟩ := ih hroom₁
    refine ⟨s₂, ?_, ?_, ?_, happended₂.bound⟩
    · rw [List.map_cons, putAll, put, happend, ok_bind, hrest]
    · rw [happended₂.contents, happended.contents, List.append_assoc, List.flatten_cons]
    · rw [happended₂.cur, happended.cur, List.flatten_cons, List.length_append, Nat.add_assoc]

theorem putAll_append (stream : LogStream) (xs ys : List Item) :
    stream.putAll (xs ++ ys) = stream.putAll xs >>= fun s => s.putAll ys := by
  induction xs generalizing stream with
  | nil => rfl
  | cons x xs ih =>
    rw [List.cons_append, putAll, putAll]
    cases hput : stream.put x with
    | error fault => rfl
    | ok s => exact ih s

theorem microseconds_range (h : Dated st.seconds) :
    0 ≤ st.microseconds ∧ st.microseconds < 1000000 := by
  obtain ⟨hpos, -⟩ := h
  unfold Statement.seconds at hpos
  unfold Statement.microseconds
  have hsum := Int.mul_tdiv_add_tmod st.time 1000000
  have hlow : -1000000 < st.time.tmod 1000000 := Int.lt_tmod_of_pos _ (by decide)
  have htime : 0 ≤ st.time := by omega
  exact ⟨Int.tmod_nonneg _ htime, Int.tmod_lt_of_pos _ (by decide)⟩

theorem length_microseconds (h : Dated st.seconds) :
    (ascii "." ++ zeroPadded 6 st.microseconds ++ ascii "Z ").length = 9 := by
  obtain ⟨h0, h1⟩ := microseconds_range h
  rw [List.length_append, List.length_append, length_zeroPadded (by decide) h0 h1]
  rfl

theorem zero_notMem_microseconds (v : ℤ) :
    (0 : UInt8) ∉ ascii "." ++ zeroPadded 6 v ++ ascii "Z " := by
  have hdot : (0 : UInt8) ∉ ascii "." := by decide
  have hz : (0 : UInt8) ∉ ascii "Z " := by decide
  simp only [List.mem_append, not_or]
  exact ⟨⟨hdot, zero_notMem_zeroPadded _ _⟩, hz⟩

/-- `formatTime` passes its assertions and streams the time of the statement. -/
theorem formatTime_ok (ht : Cached t) (hseconds : Dated st.seconds)
    (hroom : stream.buffer_.cur + 26 < kSmallBuffer) :
    ∃ t' stream', formatTime t stream st = .ok (t', stream') ∧ Cached t' ∧
      Appended stream stream' [ThreadLocal.timeText st.seconds,
        ascii "." ++ zeroPadded 6 st.microseconds ++ ascii "Z "].flatten := by
  have htime := length_timeText hseconds
  have hus := length_microseconds hseconds
  obtain ⟨t', rest, hrefresh, ht', hcache⟩ := refresh_ok ht hseconds
  have hT := T_ok rest (zero_notMem_timeText st.seconds)
  have hT' := T_ok [] (zero_notMem_microseconds st.microseconds)
  rw [htime, ← hcache] at hT
  rw [hus] at hT'
  have hlen : [ThreadLocal.timeText st.seconds,
      ascii "." ++ zeroPadded 6 st.microseconds ++ ascii "Z "].flatten.length = 26 := by
    rw [List.flatten_cons, List.flatten_singleton, List.length_append, htime, hus]
  obtain ⟨stream', hput, happended⟩ := putAll_strings (hlen.symm ▸ hroom)
  refine ⟨t', stream', ?_, ht', happended⟩
  rw [formatTime, hrefresh, ok_bind, fmt_ok (by omega), ok_bind]
  dsimp only
  rw [List.map_cons, List.map_singleton] at hput
  rw [require_pos _ hus, ok_bind, hT, ok_bind, hT', ok_bind, hput]
  rfl

theorem length_tid (h0 : 0 ≤ tid) :
    (blankPadded 5 tid ++ ascii " ").length = 6 ↔ tid ≤ 99999 := by
  have hpadded := length_blankPadded_eq_iff (by decide : 0 < 5) h0
  rw [List.length_append]
  change _ + 1 = 6 ↔ _
  omega

theorem zero_notMem_tid (tid : ℤ) : (0 : UInt8) ∉ blankPadded 5 tid ++ ascii " " := by
  have hblank : (0 : UInt8) ∉ ascii " " := by decide
  rw [List.mem_append, not_or]
  exact ⟨zero_notMem_blankPadded _ _, hblank⟩

theorem logLevelName_spec (level : LogLevel) :
    (logLevelName level).length = 6 ∧ (0 : UInt8) ∉ logLevelName level := by
  cases level <;> decide

theorem length_tid_lt (h0 : 0 ≤ tid) (h1 : tid ≤ 4194304) :
    (blankPadded 5 tid ++ ascii " ").length < 32 := by
  have hlen := (length_decimal_le_iff (by decide : 0 < 7) h0).mpr (by omega)
  rw [List.length_append, length_blankPadded]
  change max 5 _ + 1 < 32
  omega

/-- The constructor of Impl up to the error of the system: the prefix is in the
stream. -/
theorem implConstruct_eq (ht : Cached t) (hseconds : Dated st.seconds) (h0 : 0 ≤ tid)
    (h1 : tid ≤ 99999) :
    ∃ (t' : ThreadLocal) (s : LogStream), Cached t' ∧ s.buffer_.cur ≤ kSmallBuffer ∧
      s.buffer_.asString = linePrefix tid st ∧
      implConstruct strerror tid t st =
        s.putAll (st.errnoItems strerror) >>= fun s' => pure (t', s') := by
  have htid := (length_tid h0).mpr h1
  obtain ⟨hlevel, hnul⟩ := logLevelName_spec st.level
  have hnew : (LogStream.construct st.data st.sized).buffer_.cur + 26 < kSmallBuffer :=
    (by decide : 0 + 26 < 4000)
  obtain ⟨t', s₁, hformat, ht', htime⟩ := formatTime_ok ht hseconds hnew
  have hT := T_ok [] (zero_notMem_tid tid)
  have hT' := T_ok [] hnul
  rw [htid] at hT
  rw [hlevel] at hT'
  have hcur : s₁.buffer_.cur = 26 := by
    rw [htime.cur, List.flatten_cons, List.flatten_singleton, List.length_append,
      length_timeText hseconds, length_microseconds hseconds]
    rfl
  have hlen : [blankPadded 5 tid ++ ascii " ", logLevelName st.level].flatten.length = 12 := by
    rw [List.flatten_cons, List.flatten_singleton, List.length_append, htid, hlevel]
  have hroom : s₁.buffer_.cur +
      [blankPadded 5 tid ++ ascii " ", logLevelName st.level].flatten.length < kSmallBuffer := by
    rw [hcur, hlen]
    decide
  obtain ⟨s₂, hput, happended⟩ := putAll_strings hroom
  rw [List.map_cons, List.map_singleton] at hput
  refine ⟨t', s₂, ht', happended.bound, ?_, ?_⟩
  · rw [happended.contents, htime.contents]
    change [] ++ _ ++ _ = _
    rw [List.nil_append, ← List.flatten_append]
    rfl
  · rw [implConstruct, hformat, ok_bind]
    dsimp only
    rw [fmt_ok (by omega), ok_bind]
    dsimp only
    rw [require_pos _ htid, ok_bind, hT, ok_bind, hT', ok_bind, hput, ok_bind]

/-- A statement streams the rest of its line after its prefix. -/
theorem log_eq (ht : Cached t) (hseconds : Dated st.seconds) (h0 : 0 ≤ tid) (h1 : tid ≤ 99999) :
    ∃ (t' : ThreadLocal) (s : LogStream), Cached t' ∧ s.buffer_.cur ≤ kSmallBuffer ∧
      s.buffer_.asString = linePrefix tid st ∧
      log strerror tid t st =
        s.putAll (st.items strerror) >>= fun s' => pure (t', s'.buffer_.asString) := by
  obtain ⟨t', s, ht', hbound, hprefix, himpl⟩ := implConstruct_eq ht hseconds h0 h1
  refine ⟨t', s, ht', hbound, hprefix, ?_⟩
  rw [log, himpl, Statement.items, putAll_append]
  cases s.putAll (st.errnoItems strerror) with
  | error fault => rfl
  | ok s₁ =>
    change (s₁.putAll st.funcItems >>= _) = (s₁.putAll _ >>= _)
    rw [putAll_append]
    cases s₁.putAll st.funcItems with
    | error fault => rfl
    | ok s₂ =>
      change (s₂.putAll st.operands >>= _) = (s₂.putAll _ >>= _)
      rw [putAll_append]
      cases s₂.putAll st.operands with
      | error fault => rfl
      | ok s₃ => rfl

/-- One statement: a line with the prefix of the statement, or a string whose
size is no int. -/
theorem log_outcome (ht : Cached t) (hseconds : Dated st.seconds) (h0 : 0 ≤ tid)
    (h1 : tid ≤ 99999) :
    (∃ t' line, log strerror tid t st = .ok (t', line) ∧ Cached t' ∧
        linePrefix tid st <+: line) ∨
      log strerror tid t st = .error .outOfBounds ∧ ¬ st.Short strerror := by
  obtain ⟨t', s, ht', hbound, hprefix, hlog⟩ := log_eq ht hseconds h0 h1
  obtain ⟨s', hput, hkept⟩ | ⟨hfault, v, hmem, hv⟩ := putAll_outcome hbound
  · refine Or.inl ⟨t', s'.buffer_.asString, ?_, ht', ?_⟩
    · rw [hlog, hput]
      rfl
    · rw [← hprefix]
      exact hkept.front
  · refine Or.inr ⟨?_, ?_⟩
    · rw [hlog, hfault]
      rfl
    · intro hshort
      exact absurd (hshort v hmem) (Nat.not_lt.mpr hv)

/-- A thread id of more than five digits fails the first statement. -/
theorem log_tid_long (ht : Cached t) (hseconds : Dated st.seconds) (h0 : 99999 < tid)
    (h1 : tid ≤ 4194304) : log strerror tid t st = .error .tidLength := by
  have hnew : (LogStream.construct st.data st.sized).buffer_.cur + 26 < kSmallBuffer :=
    (by decide : 0 + 26 < 4000)
  obtain ⟨t', s, hformat, -, -⟩ := formatTime_ok ht hseconds hnew
  have htid : ¬ (blankPadded 5 tid ++ ascii " ").length = 6 := by
    rw [length_tid (by omega)]
    omega
  rw [log, implConstruct, hformat, ok_bind]
  dsimp only
  rw [fmt_ok (length_tid_lt (by omega) h1), ok_bind]
  dsimp only
  rw [require, if_neg htid]
  rfl

theorem logAll_nil : WellFormed strerror tid [] (logAll strerror tid t []) :=
  ⟨by simp [logAll], by simp [logAll, issued], by simp [logAll, issued]⟩

/-- Every run of a thread whose id has at most five digits, from any state in
which the cache is not stale. -/
theorem logAll_wellFormed {statements : List Statement} (ht : Cached t)
    (hclock : ∀ st ∈ statements, Dated st.seconds) (h0 : 0 ≤ tid) (h1 : tid ≤ 99999) :
    WellFormed strerror tid statements (logAll strerror tid t statements) := by
  induction statements generalizing t with
  | nil => exact logAll_nil
  | cons st rest ih =>
    have hrest : ∀ st ∈ rest, Dated st.seconds :=
      fun st hst => hclock st (List.mem_cons_of_mem _ hst)
    unfold logAll
    obtain ⟨t', line, hlog, ht', hline⟩ | ⟨hfault, hlong⟩ :=
      log_outcome ht (hclock st List.mem_cons_self) h0 h1
    · rw [hlog]
      dsimp only
      by_cases hfatal : st.level = .fatal
      · rw [if_pos hfatal]
        refine ⟨by simp, ?_, ?_⟩
        · rw [issued, if_pos hfatal]
          exact List.Forall₂.cons hline List.Forall₂.nil
        · intro _
          rw [issued, if_pos hfatal]
          exact ⟨rfl, rfl⟩
      · obtain ⟨hasserted, hprefixes, hcomplete⟩ := ih ht' hrest
        rw [if_neg hfatal]
        refine ⟨hasserted, ?_, ?_⟩
        · rw [issued, if_neg hfatal]
          exact List.Forall₂.cons hline hprefixes
        · intro hshort
          obtain ⟨hnone, hlen⟩ := hcomplete fun st hst => hshort st (List.mem_cons_of_mem _ hst)
          rw [issued, if_neg hfatal]
          exact ⟨hnone, congrArg (· + 1) hlen⟩
    · rw [hfault]
      refine ⟨?_, List.Forall₂.nil, ?_⟩
      · intro fault hfault'
        obtain rfl := Option.some.inj hfault'
        rfl
      · intro hshort
        exact absurd (hshort st List.mem_cons_self) hlong

/-- In a thread with a longer id nothing but silence is well formed. -/
theorem logAll_tid_long {rest : List Statement} (ht : Cached t) (hseconds : Dated st.seconds)
    (h0 : 99999 < tid) (h1 : tid ≤ 4194304) :
    ¬ WellFormed strerror tid (st :: rest) (logAll strerror tid t (st :: rest)) := by
  intro h
  have hfault : (logAll strerror tid t (st :: rest)).fault = some .tidLength := by
    rw [logAll, log_tid_long ht hseconds h0 h1]
  exact absurd (h.asserted _ hfault) (by decide)

end Lines

/-- The lines of a thread that logs at any times, in any order, are well formed
exactly when its id has at most five digits. -/
theorem log_lines_wellFormed_iff (strerror : Int32 → List UInt8) {tid : ℤ}
    (htid : 1 ≤ tid ∧ tid ≤ 4194304) {statements : List Statement}
    (hclock : ∀ st ∈ statements, Dated st.seconds) :
    WellFormed strerror tid statements
        (logAll strerror tid ThreadLocal.initial statements) ↔
      statements = [] ∨ tid ≤ 99999 := by
  obtain ⟨hpos, hmax⟩ := htid
  by_cases hshort : tid ≤ 99999
  · exact iff_of_true (logAll_wellFormed cached_initial hclock (by omega) hshort) (Or.inr hshort)
  · cases statements with
    | nil => exact iff_of_true logAll_nil (Or.inl rfl)
    | cons st rest =>
      refine iff_of_false ?_ ?_
      · exact logAll_tid_long cached_initial (hclock st List.mem_cons_self) (by omega) hmax
      · rintro (hnil | htid)
        · cases hnil
        · exact hshort htid

def greeting (constructor : Constructor) (time : ℤ) : Statement where
  constructor := constructor
  file := ascii "logging/Logging_test.cc"
  line := 53
  time := time
  operands := [.string (ascii "Hello")]
  data := List.replicate kSmallBuffer 0
  sized := List.length_replicate

def success : Int32 → List UInt8 := fun _ => ascii "Success"

/-- The last second of a leap day, the same second again, the next one, and a
step back. -/
def clockSteps : List Statement :=
  [greeting .plain 1709251199000007, greeting (.leveled .warn) 1709251199999999,
    greeting (.system false 0) 1709251200000000, greeting .plain 1709251199000008]

theorem clockSteps_wellFormed :
    WellFormed success 4711 clockSteps (logAll success 4711 ThreadLocal.initial clockSteps) ∧
      clockSteps.map (linePrefix 4711) =
        [ascii "20240229 23:59:59.000007Z  4711 INFO  ",
          ascii "20240229 23:59:59.999999Z  4711 WARN  ",
          ascii "20240301 00:00:00.000000Z  4711 ERROR ",
          ascii "20240229 23:59:59.000008Z  4711 INFO  "] := by
  refine ⟨?_, by decide +kernel⟩
  exact (log_lines_wellFormed_iff success (by decide) (by decide)).mpr (Or.inr (by decide))

/-- The first thread id of six digits. -/
theorem tid100000_fails :
    Dated (greeting .plain 1709251199000007).seconds ∧
      ¬ WellFormed success 100000 [greeting .plain 1709251199000007]
        (logAll success 100000 ThreadLocal.initial [greeting .plain 1709251199000007]) := by
  have hseconds : Dated (greeting .plain 1709251199000007).seconds := by decide
  exact ⟨hseconds, logAll_tid_long cached_initial hseconds (by decide) (by decide)⟩

end Logging

end TinyMuduo
