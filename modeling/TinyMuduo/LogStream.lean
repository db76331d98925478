import TinyMuduo.Fault
import TinyMuduo.Lib.Checked
import TinyMuduo.Lib.Numeral
import TinyMuduo.Lib.Slices
import Mathlib.Algebra.Group.Nat.Defs

/-!
The LogStream and its fixed buffer. Every store is checked against the size of
the buffer, so that a byte written past its end is a fault; the terminating NUL
of `convert` is one of them. Integers are converted by dividing until nothing is
left: the remainders of a negative number are negative and index a table that
goes both ways from its middle. Pointers and `long` have 64 bits.
-/
namespace TinyMuduo

open Checked Slices Numeral

def ascii (s : String) : List UInt8 := s.toList.map fun c => c.toNat.toUInt8

structure FixedBuffer (SIZE : ℕ) where
  data : List UInt8
  cur : ℕ
  sized : data.length = SIZE

namespace FixedBuffer

variable {SIZE : ℕ}

def store (b : FixedBuffer SIZE) (p : ℕ) (bytes : List UInt8) : Except Fault (FixedBuffer SIZE) :=
  if h : p + bytes.length ≤ SIZE then
    .ok { data := splice b.data p bytes
          cur := b.cur
          sized := (length_splice (h.trans (Nat.le_of_eq b.sized.symm))).trans b.sized }
  else .error .outOfBounds

/-- memcpy(3). A negative length is a huge size_t. -/
def memcpy (b : FixedBuffer SIZE) (p : ℕ) (buf : List UInt8) (len : ℤ) :
    Except Fault (FixedBuffer SIZE) := do
  require (0 ≤ len) .outOfBounds
  b.store p (buf.take len.toNat)

def reverse (b : FixedBuffer SIZE) (first last : ℕ) : Except Fault (FixedBuffer SIZE) :=
  b.store first (slice b.data first last).reverse

def avail (b : FixedBuffer SIZE) : ℤ := SIZE - b.cur

def add (b : FixedBuffer SIZE) (len : ℕ) : FixedBuffer SIZE := { b with cur := b.cur + len }

def append (b : FixedBuffer SIZE) (buf : List UInt8) (len : ℤ) :
    Except Fault (FixedBuffer SIZE) :=
  if len < b.avail then do
    let b' ← b.memcpy b.cur buf len
    return b'.add len.toNat
  else .ok b

def asString (b : FixedBuffer SIZE) : List UInt8 := b.data.take b.cur

end FixedBuffer

namespace LogStream

open FixedBuffer

def kSmallBuffer : ℕ := 4000

def kMaxNumericSize : ℤ := 32

def digits : List UInt8 := ascii "9876543210123456789" ++ [0]

def digitsHex : List UInt8 := ascii "0123456789abcdef" ++ [0]

def charAt (table : List UInt8) (i : ℤ) : Option UInt8 :=
  if 0 ≤ i then table[i.toNat]? else none

variable {SIZE : ℕ}

/-- The loop of `convert` and of `convertHex`. The remainder and the quotient are
those of C. -/
def digitLoop (base : ℕ) (hbase : 1 < base) (digit : ℤ → Option UInt8) (b : FixedBuffer SIZE)
    (p : ℕ) (i : ℤ) : Except Fault (FixedBuffer SIZE × ℕ) := do
  let c ← demand (digit (i.tmod base)) .outOfBounds
  let b ← b.store p [c]
  if i.tdiv base ≠ 0 then digitLoop base hbase digit b (p + 1) (i.tdiv base)
  else return (b, p + 1)
termination_by i.natAbs
decreasing_by
  rename_i hne
  rw [Int.natAbs_tdiv, Int.natAbs_natCast]
  refine Nat.div_lt_self (Nat.pos_of_ne_zero ?_) hbase
  intro hzero
  rw [Int.natAbs_eq_zero.mp hzero, Int.zero_tdiv] at hne
  exact hne rfl

def writeSign (b : FixedBuffer SIZE) (p : ℕ) (value : ℤ) : Except Fault (FixedBuffer SIZE × ℕ) :=
  if value < 0 then do
    let b ← b.store p (ascii "-")
    return (b, p + 1)
  else .ok (b, p)

def finish (b : FixedBuffer SIZE) (buf p : ℕ) : Except Fault (FixedBuffer SIZE × ℕ) := do
  let b ← b.store p [0]
  let b ← b.reverse buf p
  return (b, p - buf)

def convert (b : FixedBuffer SIZE) (buf : ℕ) (value : ℤ) :
    Except Fault (FixedBuffer SIZE × ℕ) := do
  let zero := fun lsd => charAt digits (9 + lsd)
  let (b, p) ← digitLoop 10 (by decide) zero b buf value
  let (b, p) ← writeSign b p value
  finish b buf p

def convertHex (b : FixedBuffer SIZE) (buf : ℕ) (value : ℕ) :
    Except Fault (FixedBuffer SIZE × ℕ) := do
  let (b, p) ← digitLoop 16 (by decide) (charAt digitsHex) b buf value
  finish b buf p

/-- What the overloads of `operator<<` take. A string is a C string, a
`std::string`, a `T` or a `Fmt`; a `double` comes with what `%.12g` makes of it. -/
inductive Item
  | bool (v : Bool)
  | char (v : UInt8)
  | short (v : Int16)
  | unsignedShort (v : UInt16)
  | int (v : Int32)
  | unsignedInt (v : UInt32)
  | long (v : Int64)
  | unsignedLong (v : UInt64)
  | longLong (v : Int64)
  | unsignedLongLong (v : UInt64)
  | pointer (v : UInt64)
  | double (text : List UInt8) (short : text.length < 32)
  | string (v : List UInt8)
  deriving DecidableEq

end LogStream

structure LogStream where
  buffer_ : FixedBuffer LogStream.kSmallBuffer

namespace LogStream

open FixedBuffer

def construct (data : List UInt8) (h : data.length = kSmallBuffer) : LogStream := ⟨⟨data, 0, h⟩⟩

def formatInteger (s : LogStream) (v : ℤ) : Except Fault LogStream :=
  if kMaxNumericSize ≤ s.buffer_.avail then do
    let (b, len) ← convert s.buffer_ s.buffer_.cur v
    return ⟨b.add len⟩
  else .ok s

def formatPointer (s : LogStream) (v : ℕ) : Except Fault LogStream :=
  if kMaxNumericSize ≤ s.buffer_.avail then do
    let buf := s.buffer_.cur
    let b ← s.buffer_.store buf (ascii "0")
    let b ← b.store (buf + 1) (ascii "x")
    let (b, len) ← convertHex b (buf + 2) v
    return ⟨b.add (len + 2)⟩
  else .ok s

/-- `operator<<(double)`: snprintf(3) of the text into `kMaxNumericSize` bytes. -/
def formatDouble (s : LogStream) (text : List UInt8) : Except Fault LogStream :=
  if kMaxNumericSize ≤ s.buffer_.avail then do
    let b ← s.buffer_.store s.buffer_.cur (text.take 31 ++ [0])
    return ⟨b.add text.length⟩
  else .ok s

/-- `append`; the size of a string is passed as an int. -/
def append (s : LogStream) (bytes : List UInt8) : Except Fault LogStream := do
  let b ← s.buffer_.append bytes (BitVec.ofNat 32 bytes.length).toInt
  return ⟨b⟩

/-- `operator<<`. -/
def put (s : LogStream) : Item → Except Fault LogStream
  | .bool v => s.append (if v then ascii "1" else ascii "0")
  | .char v => s.append [v]
  | .short v => s.formatInteger v.toInt
  | .unsignedShort v => s.formatInteger v.toNat
  | .int v => s.formatInteger v.toInt
  | .unsignedInt v => s.formatInteger v.toNat
  | .long v => s.formatInteger v.toInt
  | .unsignedLong v => s.formatInteger v.toNat
  | .longLong v => s.formatInteger v.toInt
  | .unsignedLongLong v => s.formatInteger v.toNat
  | .pointer v => s.formatPointer v.toNat
  | .double text _ => s.formatDouble text
  | .string v => s.append v

def putAll (s : LogStream) : List Item → Except Fault LogStream
  | [] => .ok s
  | item :: rest => do
      let s ← s.put item
      s.putAll rest

/-! What the stream is for. -/

def digitChar (d : ℕ) : UInt8 := if d < 10 then (48 + d).toUInt8 else (87 + d).toUInt8

def decimal (v : ℤ) : List UInt8 :=
  (if v < 0 then ascii "-" else []) ++ (numeral 10 v.natAbs).map digitChar

def hexadecimal (v : ℕ) : List UInt8 := (numeral 16 v).map digitChar

namespace Item

def text : Item → List UInt8
  | .bool v => if v then ascii "1" else ascii "0"
  | .char v => [v]
  | .short v | .int v | .long v | .longLong v => decimal v.toInt
  | .unsignedShort v | .unsignedInt v | .unsignedLong v | .unsignedLongLong v => decimal v.toNat
  | .pointer v => ascii "0x" ++ hexadecimal v.toNat
  | .double text _ => text
  | .string v => v

def numeric : Item → Bool
  | .bool _ | .char _ | .string _ => false
  | .short _ | .unsignedShort _ | .int _ | .unsignedInt _ | .long _ | .unsignedLong _
  | .longLong _ | .unsignedLongLong _ | .pointer _ | .double _ _ => true

def Fits (item : Item) (avail : ℤ) : Prop :=
  if item.numeric then kMaxNumericSize ≤ avail else item.text.length < avail

instance (item : Item) (avail : ℤ) : Decidable (item.Fits avail) :=
  inferInstanceAs (Decidable
    (if item.numeric = true then kMaxNumericSize ≤ avail else (item.text.length : ℤ) < avail))

end Item

/-- The items that fit when they are reached. -/
def fitting (avail : ℤ) : List Item → List Item
  | [] => []
  | item :: rest =>
      if item.Fits avail then item :: fitting (avail - item.text.length) rest
      else fitting avail rest

section Stores

variable {b b₁ b₂ : FixedBuffer SIZE} {p : ℕ} {xs ys : List UInt8}

structure Wrote (b b' : FixedBuffer SIZE) (p : ℕ) (bytes : List UInt8) : Prop where
  room : p + bytes.length ≤ SIZE
  data : b'.data = splice b.data p bytes
  cur : b'.cur = b.cur

theorem store_ok (h : p + xs.length ≤ SIZE) : ∃ b', b.store p xs = .ok b' ∧ Wrote b b' p xs :=
  ⟨_, dif_pos h, h, rfl, rfl⟩

theorem Wrote.append (h₁ : Wrote b b₁ p xs) (h₂ : Wrote b₁ b₂ (p + xs.length) ys) :
    Wrote b b₂ p (xs ++ ys) := by
  have hroom : p + xs.length + ys.length ≤ b.data.length := by
    rw [b.sized]
    exact h₂.room
  refine ⟨?_, ?_, h₂.cur.trans h₁.cur⟩
  · rw [List.length_append, ← Nat.add_assoc]
    exact h₂.room
  · rw [h₂.data, h₁.data, splice_append hroom]

/-- What `add` makes of bytes that were written at `cur_`. -/
theorem Wrote.asString (h : Wrote b b₁ b.cur (xs ++ ys)) :
    (b₁.add xs.length).asString = b.asString ++ xs := by
  have hroom : b.cur + (xs ++ ys).length ≤ b.data.length := by
    rw [b.sized]
    exact h.room
  have hn : xs.length ≤ (xs ++ ys).length := by simp
  change List.take (b₁.cur + xs.length) b₁.data = List.take b.cur b.data ++ xs
  rw [h.cur, h.data, take_splice hroom hn, List.take_left]

/-- The loop writes the digits, the least significant one first. -/
theorem digitLoop_ok {base : ℕ} (hbase : 1 < base) {digit : ℤ → Option UInt8} {signed : Prop}
    (hdigit : ∀ j : ℤ, signed ∨ 0 ≤ j → j.natAbs < base → digit j = some (digitChar j.natAbs))
    {i : ℤ} (hi : signed ∨ 0 ≤ i) (hroom : p + (lowFirst base i.natAbs).length ≤ SIZE) :
    ∃ b', digitLoop base hbase digit b p i = .ok (b', p + (lowFirst base i.natAbs).length) ∧
      Wrote b b' p ((lowFirst base i.natAbs).map digitChar) := by
  induction hn : i.natAbs using Nat.strongRecOn generalizing i b p with
  | ind n ih =>
    subst hn
    have hlsd : (i.tmod base).natAbs = i.natAbs % base := by
      rw [Int.natAbs_tmod, Int.natAbs_natCast]
    have hquot : (i.tdiv base).natAbs = i.natAbs / base := Int.natAbs_tdiv i base
    have hc : digit (i.tmod base) = some (digitChar (i.natAbs % base)) := by
      rw [← hlsd]
      refine hdigit _ (hi.imp_right fun h => Int.tmod_nonneg _ h) ?_
      rw [hlsd]
      exact Nat.mod_lt _ (by omega)
    rw [lowFirst_eq hbase] at hroom ⊢
    rw [List.length_cons] at hroom
    have hfirst : p + [digitChar (i.natAbs % base)].length ≤ SIZE := by
      rw [List.length_singleton]
      omega
    obtain ⟨b₁, hstore, hwrote⟩ := store_ok (b := b) hfirst
    rw [digitLoop, hc]
    simp only [demand, ok_bind, hstore]
    by_cases hzero : i.natAbs / base = 0
    · have hlast : i.tdiv base = 0 := Int.natAbs_eq_zero.mp (hquot.trans hzero)
      rw [if_neg (not_not_intro hlast), if_pos hzero]
      exact ⟨b₁, rfl, hwrote⟩
    · have hmore : i.tdiv base ≠ 0 := by
        intro hlast
        rw [hlast] at hquot
        exact hzero hquot.symm
      rw [if_neg hzero] at hroom ⊢
      rw [if_pos hmore]
      have hpos : 0 < i.natAbs := by
        refine Nat.pos_of_ne_zero ?_
        intro hnone
        rw [hnone, Nat.zero_div] at hzero
        exact hzero rfl
      have hlt : i.natAbs / base < i.natAbs := Nat.div_lt_self hpos hbase
      obtain ⟨b₂, hloop, hrest⟩ := ih _ hlt (b := b₁) (p := p + 1) (i := i.tdiv base)
        (hi.imp_right fun h => Int.tdiv_nonneg h (Int.natCast_nonneg base))
        (by rw [hquot]; omega) hquot
      refine ⟨b₂, ?_, hwrote.append hrest⟩
      rw [hloop, List.length_cons]
      congr 2
      omega

/-- The bytes are reversed in place, in front of the NUL. -/
theorem finish_ok (h : Wrote b b₁ p xs) (hroom : p + xs.length < SIZE) :
    ∃ b', finish b₁ p (p + xs.length) = .ok (b', xs.length) ∧ Wrote b b' p (xs.reverse ++ [0]) := by
  have hnul : p + xs.length + [(0 : UInt8)].length ≤ SIZE := hroom
  obtain ⟨b₂, hstore, hwrote⟩ := store_ok (b := b₁) hnul
  have hboth := h.append hwrote
  have hsize : p + (xs ++ [0]).length ≤ b.data.length := by
    rw [b.sized]
    exact hboth.room
  have hslice : slice b₂.data p (p + xs.length) = xs := by
    rw [slice, hboth.data, take_splice hsize (by simp), List.take_left]
    exact List.drop_left' (List.length_take_of_le (by omega))
  have hrev : p + (slice b₂.data p (p + xs.length)).reverse.length ≤ SIZE := by
    rw [hslice, List.length_reverse]
    omega
  obtain ⟨b₃, hreverse, hwrote'⟩ := store_ok (b := b₂) hrev
  refine ⟨b₃, ?_, ?_⟩
  · rw [finish, hstore, ok_bind, FixedBuffer.reverse, hreverse, ok_bind, Nat.add_sub_cancel_left]
    rfl
  · refine ⟨?_, ?_, hwrote'.cur.trans hboth.cur⟩
    · rw [List.length_append, List.length_reverse]
      exact hnul
    · rw [hwrote'.data, hslice, hboth.data, splice_front List.length_reverse hsize]

theorem writeSign_ok (value : ℤ) (h : Wrote b b₁ p xs) (hroom : p + xs.length < SIZE) :
    ∃ b', writeSign b₁ (p + xs.length) value =
        .ok (b', p + (xs ++ if value < 0 then ascii "-" else []).length) ∧
      Wrote b b' p (xs ++ if value < 0 then ascii "-" else []) := by
  unfold writeSign
  split
  · have hsign : p + xs.length + (ascii "-").length ≤ SIZE := hroom
    obtain ⟨b₂, hstore, hwrote⟩ := store_ok (b := b₁) hsign
    refine ⟨b₂, ?_, h.append hwrote⟩
    rw [hstore, ok_bind, List.length_append, Nat.add_assoc]
    rfl
  · rw [List.append_nil]
    exact ⟨b₁, rfl, h⟩

/-- The table goes both ways from its middle. -/
theorem zero_digit (j : ℤ) (hj : j.natAbs < 10) :
    charAt digits (9 + j) = some (digitChar j.natAbs) := by
  obtain ⟨n, rfl | rfl⟩ := Int.eq_nat_or_neg j
  · rw [Int.natAbs_natCast] at hj ⊢
    interval_cases n <;> rfl
  · rw [Int.natAbs_neg, Int.natAbs_natCast] at hj ⊢
    interval_cases n <;> rfl

theorem hex_digit (j : ℤ) (hnonneg : 0 ≤ j) (hj : j.natAbs < 16) :
    charAt digitsHex j = some (digitChar j.natAbs) := by
  obtain ⟨n, rfl⟩ := Int.eq_ofNat_of_zero_le hnonneg
  rw [Int.natAbs_natCast] at hj ⊢
  interval_cases n <;> rfl

theorem length_decimal (v : ℤ) :
    (decimal v).length = (if v < 0 then 1 else 0) + (lowFirst 10 v.natAbs).length := by
  rw [decimal, List.length_append, List.length_map, length_numeral]
  split <;> rfl

theorem length_hexadecimal (v : ℕ) : (hexadecimal v).length = (lowFirst 16 v).length := by
  rw [hexadecimal, List.length_map, length_numeral]

/-- What the loop and the sign write is the text backwards. -/
theorem reverse_decimal (v : ℤ) :
    ((lowFirst 10 v.natAbs).map digitChar ++ if v < 0 then ascii "-" else []).reverse =
      decimal v := by
  rw [List.reverse_append, decimal, numeral, List.map_reverse]
  split <;> rfl

theorem convert_ok {value : ℤ} (hroom : p + (decimal value).length < SIZE) :
    ∃ b', convert b p value = .ok (b', (decimal value).length) ∧
      Wrote b b' p (decimal value ++ [0]) := by
  have hdigit : ∀ j : ℤ, True ∨ 0 ≤ j → j.natAbs < 10 →
      charAt digits (9 + j) = some (digitChar j.natAbs) := fun j _ => zero_digit j
  have hdigits : p + (lowFirst 10 value.natAbs).length < SIZE := by
    rw [length_decimal] at hroom
    omega
  obtain ⟨b₁, hloop, hwrote⟩ := digitLoop_ok (b := b) (p := p) (i := value) (by decide : 1 < 10)
    hdigit (Or.inl trivial) (Nat.le_of_lt hdigits)
  rw [← List.length_map (f := digitChar)] at hloop hdigits
  obtain ⟨b₂, hsign, hsigned⟩ := writeSign_ok value hwrote hdigits
  have hlen := congrArg List.length (reverse_decimal value)
  rw [List.length_reverse] at hlen
  obtain ⟨b₃, hfinish, hfinished⟩ := finish_ok hsigned (by rw [hlen]; exact hroom)
  rw [reverse_decimal] at hfinished
  refine ⟨b₃, ?_, hfinished⟩
  rw [convert, hloop, ok_bind]
  dsimp only
  rw [hsign, ok_bind]
  dsimp only
  rw [hfinish, hlen]

theorem convertHex_ok {value : ℕ} (hroom : p + (hexadecimal value).length < SIZE) :
    ∃ b', convertHex b p value = .ok (b', (hexadecimal value).length) ∧
      Wrote b b' p (hexadecimal value ++ [0]) := by
  have hdigit : ∀ j : ℤ, False ∨ 0 ≤ j → j.natAbs < 16 →
      charAt digitsHex j = some (digitChar j.natAbs) := by
    intro j hj
    exact hex_digit j (hj.resolve_left not_false)
  rw [length_hexadecimal] at hroom
  obtain ⟨b₁, hloop, hwrote⟩ := digitLoop_ok (b := b) (p := p) (i := (value : ℤ))
    (by decide : 1 < 16) hdigit (Or.inr (Int.natCast_nonneg value)) (Nat.le_of_lt hroom)
  rw [Int.natAbs_natCast] at hloop hwrote
  rw [← List.length_map (f := digitChar)] at hloop hroom
  obtain ⟨b₂, hfinish, hfinished⟩ := finish_ok hwrote hroom
  rw [← List.map_reverse] at hfinished
  refine ⟨b₂, ?_, hfinished⟩
  rw [convertHex, hloop, ok_bind]
  dsimp only
  rw [hfinish, length_hexadecimal, List.length_map]

end Stores

section Items

variable {s : LogStream}

structure Appended (s s' : LogStream) (text : List UInt8) : Prop where
  contents : s'.buffer_.asString = s.buffer_.asString ++ text
  cur : s'.buffer_.cur = s.buffer_.cur + text.length
  bound : s'.buffer_.cur ≤ kSmallBuffer

/-- Bytes written at `cur_`, followed by `add`. -/
theorem Wrote.appended {b : FixedBuffer kSmallBuffer} {xs ys : List UInt8}
    (h : Wrote s.buffer_ b s.buffer_.cur (xs ++ ys)) : Appended s ⟨b.add xs.length⟩ xs := by
  have hcur : (b.add xs.length).cur = s.buffer_.cur + xs.length := by
    rw [FixedBuffer.add, h.cur]
  refine ⟨h.asString, hcur, ?_⟩
  have hroom := h.room
  rw [List.length_append] at hroom
  change (b.add xs.length).cur ≤ kSmallBuffer
  omega

/-- A 64-bit number has at most twenty digits and a sign. -/
theorem length_decimal_le {v : ℤ} (hv : v.natAbs < 2 ^ 64) : (decimal v).length ≤ 21 := by
  have hdigits : (lowFirst 10 v.natAbs).length ≤ 20 :=
    (length_lowFirst_le_iff (by decide) (by decide)).mpr (Nat.lt_of_lt_of_le hv (by decide))
  rw [length_decimal]
  split <;> omega

theorem length_hexadecimal_le {v : ℕ} (hv : v < 2 ^ 64) : (hexadecimal v).length ≤ 16 := by
  rw [length_hexadecimal]
  exact (length_lowFirst_le_iff (by decide) (by decide)).mpr (Nat.lt_of_lt_of_le hv (by decide))

def Item.integer : Item → Option ℤ
  | .short v | .int v | .long v | .longLong v => some v.toInt
  | .unsignedShort v | .unsignedInt v | .unsignedLong v | .unsignedLongLong v => some v.toNat
  | .bool _ | .char _ | .pointer _ | .double _ _ | .string _ => none

theorem Item.natAbs_lt (item : Item) {v : ℤ} (h : item.integer = some v) : v.natAbs < 2 ^ 64 := by
  cases item with
  | short w | int w | long w | longLong w =>
    obtain rfl := Option.some.inj h
    have hlow := w.le_toInt
    have hhigh := w.toInt_lt
    omega
  | unsignedShort w | unsignedInt w | unsignedLong w | unsignedLongLong w =>
    obtain rfl := Option.some.inj h
    have hw := w.toNat_lt
    omega
  | bool | char | pointer | double | string => cases h

/-- Only strings are long. -/
theorem Item.length_text_lt (item : Item) (h : ∀ v, item = .string v → v.length < 2 ^ 31) :
    item.text.length < 2 ^ 31 := by
  have hinteger : ∀ v, item.integer = some v → item.text = decimal v →
      item.text.length < 2 ^ 31 := by
    intro v hv htext
    have hlen := length_decimal_le (item.natAbs_lt hv)
    rw [htext]
    omega
  cases item with
  | bool v => cases v <;> decide
  | char v => exact Nat.one_lt_two_pow (by decide)
  | string v => exact h v rfl
  | short v | int v | long v | longLong v | unsignedShort v | unsignedInt v | unsignedLong v
  | unsignedLongLong v => exact hinteger _ rfl rfl
  | double text short => exact Nat.lt_trans short (by decide)
  | pointer v =>
    have hlen := length_hexadecimal_le v.toNat_lt
    change (ascii "0x" ++ hexadecimal v.toNat).length < 2 ^ 31
    rw [List.length_append]
    change 2 + (hexadecimal v.toNat).length < 2 ^ 31
    omega

theorem formatInteger_ok {v : ℤ} (hv : v.natAbs < 2 ^ 64)
    (hroom : kMaxNumericSize ≤ s.buffer_.avail) :
    ∃ s', s.formatInteger v = .ok s' ∧ Appended s s' (decimal v) := by
  have hlen := length_decimal_le hv
  have hfits : s.buffer_.cur + (decimal v).length < kSmallBuffer := by
    unfold kMaxNumericSize FixedBuffer.avail at hroom
    omega
  obtain ⟨b, hconvert, hwrote⟩ := convert_ok (b := s.buffer_) hfits
  refine ⟨⟨b.add (decimal v).length⟩, ?_, hwrote.appended⟩
  rw [formatInteger, if_pos hroom, hconvert]
  rfl

theorem formatPointer_ok {v : ℕ} (hv : v < 2 ^ 64) (hroom : kMaxNumericSize ≤ s.buffer_.avail) :
    ∃ s', s.formatPointer v = .ok s' ∧ Appended s s' (ascii "0x" ++ hexadecimal v) := by
  have hlen := length_hexadecimal_le hv
  have hfits : s.buffer_.cur + 2 + (hexadecimal v).length < kSmallBuffer := by
    unfold kMaxNumericSize FixedBuffer.avail at hroom
    omega
  have hzero : s.buffer_.cur + (ascii "0").length ≤ kSmallBuffer := by
    change s.buffer_.cur + 1 ≤ kSmallBuffer
    omega
  have hx : s.buffer_.cur + 1 + (ascii "x").length ≤ kSmallBuffer := by
    change s.buffer_.cur + 1 + 1 ≤ kSmallBuffer
    omega
  obtain ⟨b₁, hstore₁, hwrote₁⟩ := store_ok (b := s.buffer_) hzero
  obtain ⟨b₂, hstore₂, hwrote₂⟩ := store_ok (b := b₁) hx
  obtain ⟨b₃, hconvert, hwrote₃⟩ := convertHex_ok (b := b₂) hfits
  have hall := (hwrote₁.append hwrote₂).append hwrote₃
  refine ⟨⟨b₃.add ((hexadecimal v).length + 2)⟩, ?_, ?_⟩
  · rw [formatPointer, if_pos hroom]
    dsimp only
    rw [hstore₁, ok_bind, hstore₂, ok_bind, hconvert]
    rfl
  · have hlength : (hexadecimal v).length + 2 = (ascii "0x" ++ hexadecimal v).length := by
      rw [List.length_append, Nat.add_comm]
      rfl
    have htext : Wrote s.buffer_ b₃ s.buffer_.cur (ascii "0x" ++ hexadecimal v ++ [0]) := by
      rw [List.append_assoc]
      exact hall
    rw [hlength]
    exact htext.appended

theorem formatDouble_ok {text : List UInt8} (hshort : text.length < 32)
    (hroom : kMaxNumericSize ≤ s.buffer_.avail) :
    ∃ s', s.formatDouble text = .ok s' ∧ Appended s s' text := by
  have hfits : s.buffer_.cur + (text ++ [0]).length ≤ kSmallBuffer := by
    unfold kMaxNumericSize FixedBuffer.avail at hroom
    rw [List.length_append, List.length_singleton]
    omega
  obtain ⟨b, hstore, hwrote⟩ := store_ok (b := s.buffer_) hfits
  refine ⟨⟨b.add text.length⟩, ?_, hwrote.appended⟩
  rw [formatDouble, if_pos hroom, List.take_of_length_le (by omega), hstore]
  rfl

/-- As many bytes as are asked for are copied when more are available. -/
theorem buffer_append_ok {bytes : List UInt8} {n : ℕ} (hn : n ≤ bytes.length)
    (hroom : (n : ℤ) < s.buffer_.avail) :
    ∃ b, s.buffer_.append bytes n = .ok b ∧ Appended s ⟨b⟩ (bytes.take n) := by
  have hlen : (bytes.take n).length = n := List.length_take_of_le hn
  have hfits : s.buffer_.cur + (bytes.take n).length ≤ kSmallBuffer := by
    unfold FixedBuffer.avail at hroom
    omega
  obtain ⟨b, hstore, hwrote⟩ := store_ok (b := s.buffer_) hfits
  have htext : Wrote s.buffer_ b s.buffer_.cur (bytes.take n ++ []) := by
    rwa [List.append_nil]
  have happended := htext.appended
  rw [hlen] at happended
  refine ⟨b.add n, ?_, happended⟩
  rw [FixedBuffer.append, if_pos hroom, FixedBuffer.memcpy, require_pos _ (Int.natCast_nonneg _),
    ok_bind, Int.toNat_natCast, hstore]
  rfl

/-- A string whose size is an int is appended when more than its size is
available. -/
theorem append_ok {bytes : List UInt8} (hsize : bytes.length < 2 ^ 31) :
    ((bytes.length : ℤ) < s.buffer_.avail → ∃ s', s.append bytes = .ok s' ∧ Appended s s' bytes) ∧
      (¬ (bytes.length : ℤ) < s.buffer_.avail → s.append bytes = .ok s) := by
  have hlen : (BitVec.ofNat 32 bytes.length).toInt = bytes.length := by
    rw [BitVec.toInt_ofNat', Int.bmod_eq_of_le (by omega) (by omega)]
  unfold append
  rw [hlen]
  constructor
  · intro hroom
    obtain ⟨b, happend, happended⟩ := buffer_append_ok (Nat.le_refl _) hroom
    rw [List.take_length] at happended
    refine ⟨⟨b⟩, ?_, happended⟩
    rw [happend]
    rfl
  · intro hfull
    rw [FixedBuffer.append, if_neg hfull]
    rfl

/-- What `operator<<` does with an item that fits, and with one that does not. -/
theorem put_ok {item : Item} (hsize : item.text.length < 2 ^ 31) :
    (item.Fits s.buffer_.avail → ∃ s', s.put item = .ok s' ∧ Appended s s' item.text) ∧
      (¬ item.Fits s.buffer_.avail → s.put item = .ok s) := by
  have hinteger : ∀ v : ℤ, v.natAbs < 2 ^ 64 →
      (kMaxNumericSize ≤ s.buffer_.avail →
        ∃ s', s.formatInteger v = .ok s' ∧ Appended s s' (decimal v)) ∧
      (¬ kMaxNumericSize ≤ s.buffer_.avail → s.formatInteger v = .ok s) :=
    fun v hv => ⟨formatInteger_ok hv, fun hfull => if_neg hfull⟩
  cases item with
  | bool v => exact append_ok hsize
  | char v => exact append_ok hsize
  | string v => exact append_ok hsize
  | short v => exact hinteger v.toInt (Item.natAbs_lt (.short v) rfl)
  | unsignedShort v => exact hinteger v.toNat (Item.natAbs_lt (.unsignedShort v) rfl)
  | int v => exact hinteger v.toInt (Item.natAbs_lt (.int v) rfl)
  | unsignedInt v => exact hinteger v.toNat (Item.natAbs_lt (.unsignedInt v) rfl)
  | long v => exact hinteger v.toInt (Item.natAbs_lt (.long v) rfl)
  | unsignedLong v => exact hinteger v.toNat (Item.natAbs_lt (.unsignedLong v) rfl)
  | longLong v => exact hinteger v.toInt (Item.natAbs_lt (.longLong v) rfl)
  | unsignedLongLong v => exact hinteger v.toNat (Item.natAbs_lt (.unsignedLongLong v) rfl)
  | pointer v => exact ⟨formatPointer_ok v.toNat_lt, fun hfull => if_neg hfull⟩
  | double text short => exact ⟨formatDouble_ok short, fun hfull => if_neg hfull⟩

/-- The items that fit are appended in their order. -/
theorem putAll_ok {items : List Item} (hbound : s.buffer_.cur ≤ kSmallBuffer)
    (hsize : ∀ item ∈ items, item.text.length < 2 ^ 31) :
    ∃ s', s.putAll items = .ok s' ∧ s'.buffer_.cur ≤ kSmallBuffer ∧
      s'.buffer_.asString = s.buffer_.asString ++
        ((fitting s.buffer_.avail items).map Item.text).flatten := by
  induction items generalizing s with
  | nil => exact ⟨s, rfl, hbound, by simp [fitting]⟩
  | cons item rest ih =>
    have hrest : ∀ item ∈ rest, item.text.length < 2 ^ 31 :=
      fun i hi => hsize i (List.mem_cons_of_mem _ hi)
    obtain ⟨hfits, hfull⟩ := put_ok (s := s) (hsize item List.mem_cons_self)
    unfold fitting
    by_cases hitem : item.Fits s.buffer_.avail
    · obtain ⟨s₁, hput, happended⟩ := hfits hitem
      obtain ⟨s₂, hall, hbound₂, hcontents⟩ := ih happended.bound hrest
      have havail : s₁.buffer_.avail = s.buffer_.avail - item.text.length := by
        rw [FixedBuffer.avail, FixedBuffer.avail, happended.cur]
        omega
      refine ⟨s₂, ?_, hbound₂, ?_⟩
      · rw [putAll, hput, ok_bind, hall]
      · rw [hcontents, happended.contents, havail, if_pos hitem, List.map_cons, List.flatten_cons,
          List.append_assoc]
    · obtain ⟨s₂, hall, hbound₂, hcontents⟩ := ih hbound hrest
      refine ⟨s₂, ?_, hbound₂, ?_⟩
      · rw [putAll, hfull hitem, ok_bind, hall]
      · rw [hcontents, if_neg hitem]

structure Kept (s s' : LogStream) : Prop where
  front : s.buffer_.asString <+: s'.buffer_.asString
  bound : s'.buffer_.cur ≤ kSmallBuffer

theorem Appended.kept {s' : LogStream} {text : List UInt8} (h : Appended s s' text) :
    Kept s s' :=
  ⟨⟨text, h.contents.symm⟩, h.bound⟩

theorem Kept.trans {s₁ s₂ : LogStream} (h₁ : Kept s s₁) (h₂ : Kept s₁ s₂) : Kept s s₂ :=
  ⟨h₁.front.trans h₂.front, h₂.bound⟩

/-- A string of any size is appended, cut or left out, or its size is negative
as an int. -/
theorem append_outcome (hbound : s.buffer_.cur ≤ kSmallBuffer) (bytes : List UInt8) :
    (∃ s', s.append bytes = .ok s' ∧ Kept s s') ∨
      s.append bytes = .error .outOfBounds ∧ 2 ^ 31 ≤ bytes.length := by
  have hlen : (BitVec.ofNat 32 bytes.length).toInt ≤ bytes.length ∧
      ((BitVec.ofNat 32 bytes.length).toInt < 0 → 2 ^ 31 ≤ bytes.length) := by
    rw [BitVec.toInt_ofNat', Int.bmod_def]
    split <;> omega
  unfold append
  generalize (BitVec.ofNat 32 bytes.length).toInt = len at hlen
  by_cases hroom : len < s.buffer_.avail
  · by_cases hneg : len < 0
    · refine Or.inr ⟨?_, hlen.2 hneg⟩
      rw [FixedBuffer.append, if_pos hroom, FixedBuffer.memcpy, require,
        if_neg (Int.not_le.mpr hneg)]
      rfl
    · obtain ⟨n, rfl⟩ := Int.eq_ofNat_of_zero_le (Int.not_lt.mp hneg)
      obtain ⟨b, happend, happended⟩ := buffer_append_ok (Int.ofNat_le.mp hlen.1) hroom
      refine Or.inl ⟨⟨b⟩, ?_, happended.kept⟩
      rw [happend]
      rfl
  · refine Or.inl ⟨s, ?_, ⟨List.prefix_refl _, hbound⟩⟩
    rw [FixedBuffer.append, if_neg hroom]
    rfl

/-- Whatever is put into the stream, only a string whose size is no int can fail. -/
theorem put_outcome (hbound : s.buffer_.cur ≤ kSmallBuffer) (item : Item) :
    (∃ s', s.put item = .ok s' ∧ Kept s s') ∨
      s.put item = .error .outOfBounds ∧ ∃ v, item = .string v ∧ 2 ^ 31 ≤ v.length := by
  by_cases hshort : ∀ v, item = .string v → v.length < 2 ^ 31
  · obtain ⟨hfits, hfull⟩ := put_ok (s := s) (item.length_text_lt hshort)
    by_cases hroom : item.Fits s.buffer_.avail
    · obtain ⟨s', hput, happended⟩ := hfits hroom
      exact Or.inl ⟨s', hput, happended.kept⟩
    · exact Or.inl ⟨s, hfull hroom, List.prefix_refl _, hbound⟩
  · obtain ⟨v, hlong⟩ := not_forall.mp hshort
    obtain ⟨rfl, hv⟩ := Classical.not_imp.mp hlong
    obtain hput | ⟨hfault, -⟩ := append_outcome hbound v
    · exact Or.inl hput
    · exact Or.inr ⟨hfault, v, rfl, Nat.not_lt.mp hv⟩

theorem putAll_outcome {items : List Item} (hbound : s.buffer_.cur ≤ kSmallBuffer) :
    (∃ s', s.putAll items = .ok s' ∧ Kept s s') ∨
      s.putAll items = .error .outOfBounds ∧ ∃ v, .string v ∈ items ∧ 2 ^ 31 ≤ v.length := by
  induction items generalizing s with
  | nil => exact Or.inl ⟨s, rfl, List.prefix_refl _, hbound⟩
  | cons item rest ih =>
    obtain ⟨s₁, hput, hkept⟩ | ⟨hfault, v, rfl, hv⟩ := put_outcome hbound item
    · rw [putAll, hput, ok_bind]
      obtain ⟨s₂, hall, hkept₂⟩ | ⟨hfault, v, hmem, hv⟩ := ih hkept.bound
      · exact Or.inl ⟨s₂, hall, hkept.trans hkept₂⟩
      · exact Or.inr ⟨hfault, v, List.mem_cons_of_mem _ hmem, hv⟩
    · rw [putAll, hfault]
      exact Or.inr ⟨rfl, v, List.mem_cons_self, hv⟩

end Items

/-- Whatever is put into a new stream, no byte is written outside of its buffer,
and the contents are the full texts of the items that fitted when they were
reached. -/
theorem stream_appends_whole_items (data : List UInt8) (hdata : data.length = kSmallBuffer)
    {items : List Item} (hsize : ∀ v, Item.string v ∈ items → v.length < 2 ^ 31) :
    ∃ s, (construct data hdata).putAll items = .ok s ∧ s.buffer_.cur ≤ kSmallBuffer ∧
      s.buffer_.asString = ((fitting kSmallBuffer items).map Item.text).flatten := by
  have hsizes : ∀ item ∈ items, item.text.length < 2 ^ 31 := by
    intro item hitem
    refine item.length_text_lt ?_
    rintro v rfl
    exact hsize v hitem
  obtain ⟨s, hput, hbound, hcontents⟩ :=
    putAll_ok (s := construct data hdata) (Nat.zero_le _) hsizes
  exact ⟨s, hput, hbound, hcontents⟩

def filler : List UInt8 := List.replicate 3970 120

/-- The least `long`, a string that leaves ten bytes, a number that does not fit
any more, and a bool that does. -/
def nearlyFull : List Item :=
  [.long Int64.minValue, .string filler, .int 5, .bool true]

theorem nearlyFull_kept : ∃ s, (construct (List.replicate kSmallBuffer 0)
      List.length_replicate).putAll nearlyFull = .ok s ∧
    s.buffer_.asString =
      ascii "-9223372036854775808" ++ (filler ++ ascii "1") := by
  have hsize : ∀ v, Item.string v ∈ nearlyFull → v.length < 2 ^ 31 := by
    intro v hv
    have hv : v = filler := by simpa [nearlyFull] using hv
    rw [hv, filler, List.length_replicate]
    decide
  have hfitting : fitting kSmallBuffer nearlyFull =
      [.long Int64.minValue, .string filler, .bool true] := by decide +kernel
  have hleast : (Item.long Int64.minValue).text = ascii "-9223372036854775808" := by decide +kernel
  obtain ⟨s, hput, -, hcontents⟩ := stream_appends_whole_items _ List.length_replicate hsize
  refine ⟨s, hput, ?_⟩
  rw [hcontents, hfitting, List.map_cons, List.flatten_cons, hleast]
  simp [Item.text]

end LogStream

end TinyMuduo
