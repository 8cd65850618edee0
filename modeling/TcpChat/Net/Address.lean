import TcpChat.Net.Socket

/-! net_socket.cpp: an address given as text. What a store does to memory and a conversion to a
value is that of a little-endian host. -/
namespace TcpChat

/-- Four bytes in the order they have in memory. -/
structure Quad where
  first : Byte
  second : Byte
  third : Byte
  fourth : Byte
  deriving DecidableEq

def isDigit (ch : Byte) : Bool := 48 ≤ ch ∧ ch ≤ 57
def dot : Byte := 46

/-- The loop of `inet_pton` for `AF_INET`: the octets before, the current one, if it has a digit,
and the rest of the text. An octet is at most 255 and has no leading zero. -/
def inetPtonLoop : List Byte → Option Byte → List Byte → Option Quad
  | octets, octet, [] =>
    match octets, octet with
    | [a, b, c], some d => some ⟨a, b, c, d⟩
    | _, _ => none
  | octets, octet, ch :: src =>
    if isDigit ch then
      match octet with
      | none => inetPtonLoop octets (some (ch - 48)) src
      | some v =>
        if v = 0 ∨ v.toNat * 10 + (ch - 48).toNat > 255 then none
        else inetPtonLoop octets (some (v * 10 + (ch - 48))) src
    else
      match octet with
      | some v =>
        if ch = dot ∧ octets.length < 3 then inetPtonLoop (octets ++ [v]) none src else none
      | none => none

def inetPton (strptr : List Byte) : Option Quad := inetPtonLoop [] none strptr

def inetPtonSocket {S : Type} (strptr : List Byte) : Program S Event Exn Quad :=
  match inetPton strptr with
  | none => Program.throw (.systemError none "inet_pton() failed")
  | some q => pure q

/-- `memcpy` of the four bytes to where the eight of `x` are. -/
def Quad.storeTo (q : Quad) (x : BitVec 64) : BitVec 64 :=
  x.extractLsb' 32 32 ++
    (q.fourth.toBitVec ++ q.third.toBitVec ++ q.second.toBitVec ++ q.first.toBitVec)

/-- The bytes of `sin_addr` as they stand in memory. -/
def SockaddrIn.addressBytes (sa : SockaddrIn) : Quad where
  first := ⟨sa.sinAddr.extractLsb' 0 8⟩
  second := ⟨sa.sinAddr.extractLsb' 8 8⟩
  third := ⟨sa.sinAddr.extractLsb' 16 8⟩
  fourth := ⟨sa.sinAddr.extractLsb' 24 8⟩

/-! Dotted quads. -/

def decimal (b : Byte) : List Byte :=
  if b < 10 then [48 + b]
  else if b < 100 then [48 + b / 10, 48 + b % 10]
  else [48 + b / 100, 48 + b / 10 % 10, 48 + b % 10]

def Quad.dotted (q : Quad) : List Byte :=
  decimal q.first ++ dot :: (decimal q.second ++ dot :: (decimal q.third ++ dot :: decimal q.fourth))

theorem all_bytes {P : Byte → Prop} (all : ∀ n < 256, P (UInt8.ofNat n)) (b : Byte) : P b := by
  have here := all b.toNat b.toNat_lt
  rwa [UInt8.ofNat_toNat] at here

theorem digit_facts : ∀ d : Byte, d < 10 → isDigit (48 + d) = true ∧ 48 + d - 48 = d := by
  apply all_bytes
  decide +kernel

theorem two_digits : ∀ b : Byte, ¬ b < 10 → b < 100 → b / 10 < 10 ∧ b % 10 < 10 ∧ b / 10 ≠ 0 ∧
    (b / 10).toNat * 10 + (b % 10).toNat ≤ 255 ∧ b / 10 * 10 + b % 10 = b := by
  apply all_bytes
  decide +kernel

theorem three_digits : ∀ b : Byte, ¬ b < 100 → b / 100 < 10 ∧ b / 10 % 10 < 10 ∧ b % 10 < 10 ∧
    b / 100 ≠ 0 ∧ (b / 100).toNat * 10 + (b / 10 % 10).toNat ≤ 255 ∧
    b / 100 * 10 + b / 10 % 10 ≠ 0 ∧
    (b / 100 * 10 + b / 10 % 10).toNat * 10 + (b % 10).toNat ≤ 255 ∧
    (b / 100 * 10 + b / 10 % 10) * 10 + b % 10 = b := by
  apply all_bytes
  decide +kernel

theorem inetPtonLoop_first {d : Byte} (small : d < 10) (octets src : List Byte) :
    inetPtonLoop octets none ((48 + d) :: src) = inetPtonLoop octets (some d) src := by
  obtain ⟨digit, value⟩ := digit_facts d small
  simp only [inetPtonLoop, if_pos digit, value]

theorem inetPtonLoop_next {v d : Byte} (small : d < 10) (nonzero : v ≠ 0)
    (fits : v.toNat * 10 + d.toNat ≤ 255) (octets src : List Byte) :
    inetPtonLoop octets (some v) ((48 + d) :: src) =
      inetPtonLoop octets (some (v * 10 + d)) src := by
  obtain ⟨digit, value⟩ := digit_facts d small
  have goes_on : ¬ (v = 0 ∨ v.toNat * 10 + d.toNat > 255) := by
    rintro (zero | large)
    · exact nonzero zero
    · omega
  simp only [inetPtonLoop, if_pos digit, value, if_neg goes_on]

theorem inetPtonLoop_decimal (b : Byte) (octets src : List Byte) :
    inetPtonLoop octets none (decimal b ++ src) = inetPtonLoop octets (some b) src := by
  unfold decimal
  by_cases one : b < 10
  · rw [if_pos one]
    exact inetPtonLoop_first one octets src
  · rw [if_neg one]
    by_cases two : b < 100
    · obtain ⟨tens, units, nonzero, fits, value⟩ := two_digits b one two
      rw [if_pos two]
      calc inetPtonLoop octets none ((48 + b / 10) :: (48 + b % 10) :: src)
          = inetPtonLoop octets (some (b / 10)) ((48 + b % 10) :: src) :=
            inetPtonLoop_first tens octets _
        _ = inetPtonLoop octets (some b) src := by
            rw [inetPtonLoop_next units nonzero fits, value]
    · obtain ⟨hundreds, tens, units, nonzero, fits, nonzero', fits', value⟩ := three_digits b two
      rw [if_neg two]
      calc inetPtonLoop octets none ((48 + b / 100) :: (48 + b / 10 % 10) :: (48 + b % 10) :: src)
          = inetPtonLoop octets (some (b / 100)) ((48 + b / 10 % 10) :: (48 + b % 10) :: src) :=
            inetPtonLoop_first hundreds octets _
        _ = inetPtonLoop octets (some (b / 100 * 10 + b / 10 % 10)) ((48 + b % 10) :: src) :=
            inetPtonLoop_next tens nonzero fits octets _
        _ = inetPtonLoop octets (some b) src := by
            rw [inetPtonLoop_next units nonzero' fits', value]

theorem inetPtonLoop_dot {v : Byte} {octets : List Byte} (more : octets.length < 3)
    (src : List Byte) :
    inetPtonLoop octets (some v) (dot :: src) = inetPtonLoop (octets ++ [v]) none src := by
  have nodigit : ¬ isDigit dot = true := by decide
  simp only [inetPtonLoop, if_neg nodigit]
  exact if_pos ⟨trivial, more⟩

/-- Every dotted quad is read as its four bytes. -/
theorem inetPton_dotted (q : Quad) : inetPton q.dotted = some q := by
  have last := inetPtonLoop_decimal q.fourth [q.first, q.second, q.third] []
  rw [List.append_nil] at last
  unfold inetPton Quad.dotted
  rw [inetPtonLoop_decimal, inetPtonLoop_dot (by simp), inetPtonLoop_decimal,
    inetPtonLoop_dot (by simp), inetPtonLoop_decimal, inetPtonLoop_dot (by simp)]
  exact last

/-! What is read is a dotted quad. -/

theorem digit_value : ∀ ch : Byte, isDigit ch = true → ch - 48 < 10 ∧ 48 + (ch - 48) = ch := by
  apply all_bytes
  decide +kernel

theorem decimal_digit : ∀ d : Byte, d < 10 → decimal d = [48 + d] := by
  intro d small
  exact if_pos small

theorem decimal_next {v d : Byte} (small : d < 10) (nonzero : v ≠ 0)
    (fits : v.toNat * 10 + d.toNat ≤ 255) : decimal (v * 10 + d) = decimal v ++ [48 + d] := by
  have table : ∀ n < 26, n ≠ 0 → ∀ m < 10, n * 10 + m ≤ 255 →
      decimal (UInt8.ofNat n * 10 + UInt8.ofNat m) =
        decimal (UInt8.ofNat n) ++ [48 + UInt8.ofNat m] := by
    decide +kernel
  have positive : v.toNat ≠ 0 := fun zero => nonzero (UInt8.toNat_inj.mp zero)
  have unit : d.toNat < 10 := UInt8.lt_iff_toNat_lt.mp small
  have entry := table v.toNat (by omega) positive d.toNat unit fits
  rwa [UInt8.ofNat_toNat, UInt8.ofNat_toNat] at entry

/-- The text that the loop has read when it stands with these octets. -/
def spelled (octets : List Byte) (octet : Option Byte) : List Byte :=
  octets.flatMap (fun v => decimal v ++ [dot]) ++ octet.elim [] decimal

theorem dotted_of_inetPtonLoop {q : Quad} {octets : List Byte} {octet : Option Byte}
    {src : List Byte} (read : inetPtonLoop octets octet src = some q) :
    spelled octets octet ++ src = q.dotted := by
  induction src generalizing octets octet with
  | nil =>
    unfold inetPtonLoop at read
    split at read
    case h_1 a b c d =>
      cases read
      simp [spelled, Quad.dotted]
    case h_2 => cases read
  | cons ch src ih =>
    unfold inetPtonLoop at read
    split at read
    case isTrue digit =>
      obtain ⟨small, value⟩ := digit_value ch digit
      cases octet with
      | none =>
        rw [← ih read]
        simp [spelled, decimal_digit _ small, value]
      | some v =>
        simp only at read
        split at read
        case isTrue => cases read
        case isFalse goes_on =>
          simp only [not_or, gt_iff_lt, not_lt] at goes_on
          rw [← ih read]
          simp [spelled, decimal_next small goes_on.1 goes_on.2, value]
    case isFalse =>
      cases octet with
      | none => cases read
      | some v =>
        simp only at read
        split at read
        case isFalse => cases read
        case isTrue separates =>
          rw [← ih read, separates.1]
          simp [spelled]

/-- The text of an address is a dotted quad and nothing else. -/
theorem inetPton_eq_some_iff {strptr : List Byte} {q : Quad} :
    inetPton strptr = some q ↔ strptr = q.dotted := by
  constructor
  · intro read
    simpa [spelled] using dotted_of_inetPtonLoop read
  · rintro rfl
    exact inetPton_dotted q

theorem dotted_injective {q q' : Quad} (same : q.dotted = q'.dotted) : q = q' := by
  have read := inetPton_dotted q
  rw [same, inetPton_dotted] at read
  exact (Option.some.inj read).symm

/-! The bytes in memory. -/

theorem bytes_apart (a b c d : BitVec 8) :
    (a ++ b ++ c ++ d).extractLsb' 0 8 = d ∧ (a ++ b ++ c ++ d).extractLsb' 8 8 = c ∧
      (a ++ b ++ c ++ d).extractLsb' 16 8 = b ∧ (a ++ b ++ c ++ d).extractLsb' 24 8 = a := by
  refine ⟨BitVec.extractLsb'_append_eq_right, ?_, ?_, ?_⟩
  · rw [BitVec.extractLsb'_append_eq_of_le (by decide)]
    exact BitVec.extractLsb'_append_eq_right
  · rw [BitVec.extractLsb'_append_eq_of_le (by decide),
      BitVec.extractLsb'_append_eq_of_le (by decide)]
    exact BitVec.extractLsb'_append_eq_right
  · rw [BitVec.extractLsb'_append_eq_of_le (by decide),
      BitVec.extractLsb'_append_eq_of_le (by decide)]
    exact BitVec.extractLsb'_append_eq_left

/-- Stored as they come and then taken for a number of the host, the bytes are reversed once
more by `htonl`. -/
theorem addressBytes_stored (q : Quad) (a : SocketAddress) :
    ({ a with ipAddress := q.storeTo a.ipAddress } : SocketAddress).toSockaddr.addressBytes =
      ⟨q.fourth, q.third, q.second, q.first⟩ := by
  have low : (q.storeTo a.ipAddress).setWidth 32 =
      q.fourth.toBitVec ++ q.third.toBitVec ++ q.second.toBitVec ++ q.first.toBitVec :=
    BitVec.setWidth_append_eq_right
  obtain ⟨first, second, third, fourth⟩ :=
    bytes_apart q.fourth.toBitVec q.third.toBitVec q.second.toBitVec q.first.toBitVec
  obtain ⟨first', second', third', fourth'⟩ :=
    bytes_apart q.first.toBitVec q.second.toBitVec q.third.toBitVec q.fourth.toBitVec
  simp only [SocketAddress.toSockaddr, SockaddrIn.addressBytes, low, htonl, first, second, third,
    fourth, first', second', third', fourth']

end TcpChat
