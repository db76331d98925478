import TinyMuduo.DecimalText

/-!
Socket addresses and their texts. A `sockaddr_in` has its numbers in network byte
order, so they are bytes here, the most significant one first. inet_pton(3) reads
an address one character at a time: it takes no leading zeros, no octet above 255
and nothing but four octets, so what it accepts is what inet_ntop(3) writes.
-/
namespace TinyMuduo.InetAddress

open LogStream Logging

structure InAddr where
  b0 : UInt8
  b1 : UInt8
  b2 : UInt8
  b3 : UInt8
  deriving DecidableEq, Repr

structure InPort where
  high : UInt8
  low : UInt8
  deriving DecidableEq, Repr

/-- `struct sockaddr_in`; its family is always AF_INET. -/
structure SockaddrIn where
  sin_port : InPort
  sin_addr : InAddr
  deriving DecidableEq, Repr

def hostToNetwork16 (host16 : UInt16) : InPort :=
  ⟨(host16.toNat / 256).toUInt8, (host16.toNat % 256).toUInt8⟩

def networkToHost16 (net16 : InPort) : UInt16 :=
  (net16.high.toNat * 256 + net16.low.toNat).toUInt16

/-- INADDR_ANY, which `bzero` leaves as well. -/
def kInaddrAny : InAddr := ⟨0, 0, 0, 0⟩

def dotted (addr : InAddr) : List UInt8 :=
  decimal addr.b0.toNat ++ ascii "." ++ decimal addr.b1.toNat ++ ascii "." ++
    decimal addr.b2.toNat ++ ascii "." ++ decimal addr.b3.toNat

/-- inet_ntop(3) into a buffer of this size; it fails with ENOSPC. -/
def inet_ntop (addr : InAddr) (size : ℕ) : Option (List UInt8) :=
  if (dotted addr).length < size then some (dotted addr) else none

def kInetAddrStrLen : ℕ := 16

/-- Where inet_pton(3) is: the octets that a dot has ended, the octet that it is
in, and whether that has a digit. -/
structure Scan where
  done : List ℕ
  octet : ℕ
  sawDigit : Bool
  deriving DecidableEq, Repr

def Scan.next (s : Scan) (ch : UInt8) : Option Scan :=
  if isDigit ch then
    if s.sawDigit && s.octet == 0 then none
    else if 255 < s.octet * 10 + digitOf ch then none
    else if !s.sawDigit && decide (4 < s.done.length + 1) then none
    else some { s with octet := s.octet * 10 + digitOf ch, sawDigit := true }
  else if ch = 46 ∧ s.sawDigit = true then
    if s.done.length + 1 = 4 then none else some ⟨s.done ++ [s.octet], 0, false⟩
  else none

def Scan.initial : Scan := ⟨[], 0, false⟩

def Scan.read (s : Scan) : List UInt8 → Option Scan
  | [] => some s
  | ch :: rest => (s.next ch).bind fun s => s.read rest

def inet_pton (src : List UInt8) : Option InAddr := do
  let s ← Scan.initial.read src
  match s.done, s.sawDigit with
  | [o0, o1, o2], true => some ⟨o0.toUInt8, o1.toUInt8, o2.toUInt8, s.octet.toUInt8⟩
  | _, _ => none

/-- `sockets::fromHostPort`: an address that is not accepted is only logged. -/
def fromHostPort (ip : List UInt8) (port : UInt16) (addr : SockaddrIn) : SockaddrIn :=
  { addr with sin_port := hostToNetwork16 port
              sin_addr := (inet_pton ip).getD addr.sin_addr }

/-- `InetAddress::InetAddress` for a port. -/
def ofPort (port : UInt16) : SockaddrIn := ⟨hostToNetwork16 port, kInaddrAny⟩

/-- `InetAddress::InetAddress` for an address and a port; `bzero` comes first, and the
C library reads the string up to its first NUL. -/
def ofHostPort (ip : List UInt8) (port : UInt16) : SockaddrIn :=
  fromHostPort (cStr ip) port ⟨⟨0, 0⟩, kInaddrAny⟩

/-- `sockets::toHostPort` into a buffer of this size. -/
def hostPort (size : ℕ) (addr : SockaddrIn) : List UInt8 :=
  let host := (inet_ntop addr.sin_addr kInetAddrStrLen).getD (ascii "INVALID")
  let port := networkToHost16 addr.sin_port
  snprintf size (host ++ ascii ":" ++ decimal port.toNat)

def toHostPort (addr : SockaddrIn) : List UInt8 := cStr (hostPort 32 addr)

/-- `sockets::isSelfConnect` with what getsockname(2) and getpeername(2) return. -/
def isSelfConnect (localaddr peeraddr : SockaddrIn) : Bool :=
  localaddr.sin_port = peeraddr.sin_port ∧ localaddr.sin_addr = peeraddr.sin_addr

section Scan

variable {s s' : Scan}

def Scan.text (s : Scan) : List UInt8 :=
  (s.done.map fun o : ℕ => decimal o ++ ascii ".").flatten ++
    if s.sawDigit then decimal s.octet else []

/-- The octets are bytes, and an octet without a digit is zero. -/
structure Scan.Sound (s : Scan) : Prop where
  bytes : ∀ o ∈ s.done, o < 256
  octet : s.octet < 256
  fresh : s.sawDigit = false → s.octet = 0

/-- A character that is accepted is a digit of an octet or the dot behind one. -/
theorem next_some {ch : UInt8} (h : s.next ch = some s') :
    (isDigit ch = true ∧ (s.sawDigit = true → 0 < s.octet) ∧ s.octet * 10 + digitOf ch < 256 ∧
        s' = { s with octet := s.octet * 10 + digitOf ch, sawDigit := true }) ∨
      ch = 46 ∧ s.sawDigit = true ∧ s' = ⟨s.done ++ [s.octet], 0, false⟩ := by
  unfold Scan.next at h
  split at h
  · rename_i hdigit
    split at h
    · cases h
    · rename_i hzero
      split at h
      · cases h
      · rename_i hbyte
        split at h
        · cases h
        · refine Or.inl ⟨hdigit, ?_, by omega, (Option.some.inj h).symm⟩
          intro hsaw
          rw [hsaw] at hzero
          simp only [Bool.true_and, beq_iff_eq] at hzero
          omega
  · split at h
    · rename_i hdot
      split at h
      · cases h
      · exact Or.inr ⟨hdot.1, hdot.2, (Option.some.inj h).symm⟩
    · cases h

theorem next_text {ch : UInt8} (hsound : s.Sound) (h : s.next ch = some s') :
    s'.Sound ∧ s'.text = s.text ++ [ch] := by
  rcases next_some h with ⟨hdigit, hpos, hbyte, rfl⟩ | ⟨rfl, hsaw, rfl⟩
  · refine ⟨⟨hsound.bytes, hbyte, nofun⟩, ?_⟩
    have hchar := digitChar_digitOf hdigit
    have hlt := digitOf_lt hdigit
    unfold Scan.text
    cases hsaw : s.sawDigit with
    | false =>
      have hnone := hsound.fresh hsaw
      simp only [hnone, Nat.zero_mul, Nat.zero_add, if_true, Bool.false_eq_true, if_false,
        List.append_nil]
      rw [decimal_digit hlt, hchar]
    | true =>
      simp only [if_true]
      rw [decimal_snoc (hpos hsaw) hlt, hchar, List.append_assoc]
  · refine ⟨⟨?_, Nat.zero_lt_succ 255, fun _ => rfl⟩, ?_⟩
    · intro o ho
      rcases List.mem_append.mp ho with ho | ho
      · exact hsound.bytes o ho
      · rw [List.mem_singleton.mp ho]
        exact hsound.octet
    · unfold Scan.text
      simp only [hsaw, if_true, List.map_append, List.map_cons, List.map_nil,
        List.flatten_append, List.flatten_cons, List.flatten_nil, List.append_nil,
        Bool.false_eq_true, if_false, List.append_assoc]
      rfl

theorem read_text (src : List UInt8) (hsound : s.Sound) (h : s.read src = some s') :
    s'.Sound ∧ s'.text = s.text ++ src := by
  induction src generalizing s with
  | nil =>
    obtain rfl := Option.some.inj h
    exact ⟨hsound, (List.append_nil _).symm⟩
  | cons ch rest ih =>
    obtain ⟨t, ht, hrest⟩ := Option.bind_eq_some_iff.mp h
    obtain ⟨hsound', htext⟩ := next_text hsound ht
    obtain ⟨hend, hall⟩ := ih hsound' hrest
    refine ⟨hend, ?_⟩
    rw [hall, htext, List.append_assoc]
    rfl

theorem read_append (s : Scan) (a b : List UInt8) :
    s.read (a ++ b) = (s.read a).bind fun s => s.read b := by
  induction a generalizing s with
  | nil => rfl
  | cons ch rest ih =>
    simp only [List.cons_append, Scan.read]
    cases s.next ch with
    | none => rfl
    | some t => exact ih t

/-- An octet is read back. -/
theorem read_octet {done : List ℕ} (hdone : done.length ≤ 3) (o : ℕ) (ho : o < 256) :
    Scan.read ⟨done, 0, false⟩ (decimal o) = some ⟨done, o, true⟩ := by
  induction o using Nat.strong_induction_on with
  | _ o ih =>
    by_cases hsmall : o < 10
    · rw [decimal_digit hsmall]
      simp only [Scan.read, Scan.next, isDigit_digitChar hsmall, digitOf_digitChar hsmall, if_true]
      simp only [Nat.zero_mul, Nat.zero_add, Bool.false_and, Bool.not_false, Bool.true_and]
      rw [if_neg (by decide), if_neg (by omega), if_neg (by simpa using by omega)]
      rfl
    · -- The digits but the last one are those of a tenth.
      have hsplit : o / 10 * 10 + o % 10 = o := by omega
      have hlast : o % 10 < 10 := by omega
      have htenth := ih (o / 10) (by omega) (by omega)
      have hdigits : decimal o = decimal (o / 10 : ℕ) ++ [digitChar (o % 10)] := by
        rw [← decimal_snoc (by omega) hlast, hsplit]
      rw [hdigits, read_append, htenth, Option.bind_some]
      simp only [Scan.read, Scan.next, isDigit_digitChar hlast, digitOf_digitChar hlast, if_true,
        hsplit]
      have hpos : o / 10 ≠ 0 := by omega
      simp [hpos, Nat.not_lt.mpr (show o ≤ 255 by omega)]

/-- A dot ends an octet. -/
theorem read_dot {done : List ℕ} (hdone : done.length ≤ 2) (o : ℕ) :
    Scan.read ⟨done, o, true⟩ (ascii ".") = some ⟨done ++ [o], 0, false⟩ := by
  have hnot : done.length + 1 ≠ 4 := by omega
  have hchar : isDigit 46 = false := rfl
  change (Scan.next ⟨done, o, true⟩ 46).bind (fun s => s.read []) = _
  simp [Scan.next, hchar, hnot, Scan.read]

end Scan

section Texts

theorem toNat_toUInt8 {o : ℕ} (ho : o < 256) : o.toUInt8.toNat = o := by
  simp [Nat.mod_eq_of_lt ho]

/-- What inet_ntop(3) writes, inet_pton(3) reads. -/
theorem inet_pton_dotted (addr : InAddr) : inet_pton (dotted addr) = some addr := by
  have hread : Scan.initial.read (dotted addr) =
      some ⟨[addr.b0.toNat, addr.b1.toNat, addr.b2.toNat], addr.b3.toNat, true⟩ := by
    unfold dotted Scan.initial
    rw [read_append, read_append, read_append, read_append, read_append, read_append]
    rw [read_octet (by simp) _ addr.b0.toNat_lt, Option.bind_some, read_dot (by simp),
      Option.bind_some, read_octet (by simp) _ addr.b1.toNat_lt, Option.bind_some,
      read_dot (by simp), Option.bind_some, read_octet (by simp) _ addr.b2.toNat_lt,
      Option.bind_some, read_dot (by simp), Option.bind_some,
      read_octet (by simp) _ addr.b3.toNat_lt]
    rfl
  simp [inet_pton, hread]

/-- What inet_pton(3) accepts, inet_ntop(3) writes. -/
theorem dotted_of_inet_pton {ip : List UInt8} {addr : InAddr} (h : inet_pton ip = some addr) :
    dotted addr = ip := by
  obtain ⟨s, hread, hmatch⟩ := Option.bind_eq_some_iff.mp h
  obtain ⟨hsound, htext⟩ := read_text ip (s := .initial)
    ⟨nofun, Nat.zero_lt_succ 255, fun _ => rfl⟩ hread
  split at hmatch
  · rename_i o0 o1 o2 hdone hsaw
    obtain rfl := Option.some.inj hmatch
    have hbytes := hsound.bytes
    rw [hdone] at hbytes
    have htext : s.text = ip := htext
    rw [← htext, dotted, Scan.text, hdone, hsaw]
    dsimp only
    rw [toNat_toUInt8 (hbytes o0 (by simp)), toNat_toUInt8 (hbytes o1 (by simp)),
      toNat_toUInt8 (hbytes o2 (by simp)), toNat_toUInt8 hsound.octet]
    simp
  · cases hmatch

theorem networkToHost16_hostToNetwork16 (port : UInt16) :
    networkToHost16 (hostToNetwork16 port) = port := by
  have hlt := port.toNat_lt
  unfold networkToHost16 hostToNetwork16
  dsimp only
  rw [toNat_toUInt8 (by omega), toNat_toUInt8 (by omega), Nat.div_add_mod']
  simp

theorem networkToHost16_inj {p q : InPort} (h : networkToHost16 p = networkToHost16 q) : p = q := by
  have hbytes := p.high.toNat_lt
  have hbytes' := p.low.toNat_lt
  have hbytes₂ := q.high.toNat_lt
  have hbytes₂' := q.low.toNat_lt
  have hnat := congrArg UInt16.toNat h
  unfold networkToHost16 at hnat
  simp only [Nat.toUInt16_eq, UInt16.toNat_ofNat'] at hnat
  rw [Nat.mod_eq_of_lt (by omega), Nat.mod_eq_of_lt (by omega)] at hnat
  obtain ⟨ph, pl⟩ := p
  obtain ⟨qh, ql⟩ := q
  dsimp only at *
  rw [InPort.mk.injEq, ← UInt8.toNat_inj, ← UInt8.toNat_inj]
  omega

theorem length_decimal_byte (b : UInt8) : (decimal b.toNat).length ≤ 3 := by
  have hlt := b.toNat_lt
  exact (length_decimal_le_iff (by decide) (by omega)).mpr (by omega)

theorem length_dotted (addr : InAddr) : (dotted addr).length < kInetAddrStrLen := by
  have h0 := length_decimal_byte addr.b0
  have h1 := length_decimal_byte addr.b1
  have h2 := length_decimal_byte addr.b2
  have h3 := length_decimal_byte addr.b3
  have hdot : (ascii ".").length = 1 := rfl
  unfold dotted kInetAddrStrLen
  simp only [List.length_append, hdot]
  omega

/-- The buffer for the host has room for every address. -/
theorem inet_ntop_eq (addr : InAddr) : inet_ntop addr kInetAddrStrLen = some (dotted addr) :=
  if_pos (length_dotted addr)

/-- There are only digits and dots. -/
theorem notMem_dotted {c : UInt8} (hdot : c ∉ ascii ".") (hdigit : ∀ v : ℕ, c ∉ decimal v)
    (addr : InAddr) : c ∉ dotted addr := by
  unfold dotted
  simp only [List.mem_append, not_or]
  exact ⟨⟨⟨⟨⟨⟨hdigit _, hdot⟩, hdigit _⟩, hdot⟩, hdigit _⟩, hdot⟩, hdigit _⟩

/-- The text is never cut off. -/
theorem toHostPort_eq (addr : SockaddrIn) : toHostPort addr =
    dotted addr.sin_addr ++ ascii ":" ++ decimal (networkToHost16 addr.sin_port).toNat := by
  have hhost := length_dotted addr.sin_addr
  have hlt := (networkToHost16 addr.sin_port).toNat_lt
  have hport : (decimal (networkToHost16 addr.sin_port).toNat).length ≤ 5 :=
    (length_decimal_le_iff (by decide) (by omega)).mpr (by omega)
  have hcolon : (ascii ":").length = 1 := rfl
  unfold toHostPort hostPort
  dsimp only
  rw [inet_ntop_eq, Option.getD_some, cStr_snprintf]
  · have hnul : (0 : UInt8) ∉ ascii ":" := by decide
    simp only [List.mem_append, not_or]
    exact ⟨⟨notMem_dotted (by decide) (fun _ => zero_notMem_decimal _) _, hnul⟩,
      zero_notMem_decimal _⟩
  · simp only [List.length_append, hcolon, kInetAddrStrLen] at *
    omega

theorem colon_notMem_decimal (v : ℕ) : (58 : UInt8) ∉ decimal v := by
  intro hmem
  have hdigit := decimal_digits hmem
  cases hdigit

theorem toHostPort_inj {a b : SockaddrIn} (h : toHostPort a = toHostPort b) : a = b := by
  rw [toHostPort_eq, toHostPort_eq, List.append_assoc, List.append_assoc] at h
  -- There is one colon in each text.
  obtain ⟨hhost, -, hport⟩ := (List.append_cons_inj_of_notMem
    (notMem_dotted (by decide) colon_notMem_decimal a.sin_addr) (colon_notMem_decimal _)).mp h
  have haddr : a.sin_addr = b.sin_addr := by
    have hparse := congrArg inet_pton hhost
    rw [inet_pton_dotted, inet_pton_dotted] at hparse
    exact Option.some.inj hparse
  have hnat := decimal_inj (by omega) (by omega) hport
  have hport : a.sin_port = b.sin_port := by
    refine networkToHost16_inj (UInt16.toNat_inj.mp ?_)
    omega
  obtain ⟨aport, aaddr⟩ := a
  obtain ⟨bport, baddr⟩ := b
  exact congr (congrArg SockaddrIn.mk hport) haddr

/-- inet_pton(3) and inet_ntop(3) are inverse to each other, with the buffer that
there is. An address that was accepted is printed as it was given and the port
behind it; one that was not is 0.0.0.0. The text tells addresses apart, and it is
never cut off, so a socket that is connected to itself is one whose two texts are
the same. -/
theorem inetAddress_law :
    (∀ addr ip, inet_pton ip = some addr ↔ inet_ntop addr kInetAddrStrLen = some ip) ∧
      (∀ ip port, toHostPort (ofHostPort ip port) =
        (if (inet_pton (cStr ip)).isSome then cStr ip else ascii "0.0.0.0") ++ ascii ":" ++
          decimal port.toNat) ∧
      (∀ port, toHostPort (ofPort port) = ascii "0.0.0.0" ++ ascii ":" ++ decimal port.toNat) ∧
      ∀ a b, isSelfConnect a b = true ↔ toHostPort a = toHostPort b := by
  refine ⟨?_, ?_, ?_, ?_⟩
  · intro addr ip
    rw [inet_ntop_eq, Option.some_inj]
    constructor
    · exact dotted_of_inet_pton
    · rintro rfl
      exact inet_pton_dotted addr
  · intro ip port
    rw [toHostPort_eq]
    unfold ofHostPort fromHostPort
    dsimp only
    rw [networkToHost16_hostToNetwork16]
    cases hparse : inet_pton (cStr ip) with
    | none => rfl
    | some addr => rw [Option.getD_some, dotted_of_inet_pton hparse]; rfl
  · intro port
    rw [toHostPort_eq]
    unfold ofPort
    dsimp only
    rw [networkToHost16_hostToNetwork16]
    rfl
  · intro a b
    simp only [isSelfConnect, decide_eq_true_eq]
    constructor
    · rintro ⟨hport, haddr⟩
      rw [toHostPort_eq, toHostPort_eq, hport, haddr]
    · intro htext
      obtain rfl := toHostPort_inj htext
      exact ⟨rfl, rfl⟩

end Texts

end TinyMuduo.InetAddress
