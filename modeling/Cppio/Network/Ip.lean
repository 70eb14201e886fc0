import Cppio.Library.AddressText
import Cppio.Network.Numbers
import Mathlib.Tactic.SplitIfs

/-!
# Addresses

`ip::v4` and `ip::v6`: how they are parsed and printed.  `inet_pton` is a
parameter; it is given the bytes before the first byte 0 and stores the address
in network order.
-/

namespace Cppio

open Http (Bytes isDigit toLower)

/-- What `c_str()` and `data()` are read as: the bytes before the first byte 0. -/
def cString (text : Bytes) : Bytes :=
  text.takeWhile (· ≠ 0)

namespace Ip

/-- `network_error_code::BadFormat`. -/
inductive AddressError
  | badFormat
  deriving DecidableEq

/-! ## `inet_pton` -/

/-- `isxdigit` in the C locale. -/
def isXDigit (ch : UInt8) : Bool :=
  isDigit ch || (97 ≤ toLower ch && toLower ch ≤ 102)

theorem digitValue_lt_of_isXDigit
    {ch : UInt8}
    (isDigit : isXDigit ch = true) :
    digitValue ch < 16 :=
  Http.forall_byte (P := fun ch => isXDigit ch = true → digitValue ch < 16)
    (by decide +kernel) ch isDigit

/-- The symbols of address texts as bytes. -/
def alphabet : AddressText.Alphabet UInt8 where
  dot := 46
  colon := 58
  decimal ch := if isDigit ch then some (digitValue ch) else none
  hex ch := if isXDigit ch then some (digitValue ch) else none
  decimal_dot := rfl
  decimal_colon := rfl
  hex_dot := rfl
  hex_colon := rfl
  different := by decide

/-- `inet_pton` for `AF_INET` and for `AF_INET6`: the bytes it stores when it
returns 1. -/
structure InetPton where
  v4 : Bytes → Option Bytes
  v6 : Bytes → Option Bytes

/-- The bytes of a word in network order. -/
def networkOrder (word : Nat) : Bytes :=
  [UInt8.ofNat (word / 256), UInt8.ofNat (word % 256)]

/-- `inet_pton` accepts the presentation formats and nothing else, and stores
what they denote. -/
structure InetPton.Exact (pton : InetPton) : Prop where
  v4 : ∀ text bytes, pton.v4 text = some bytes ↔
    ∃ octets, alphabet.DottedDecimal text octets ∧ octets.map UInt8.ofNat = bytes
  v6 : ∀ text bytes, pton.v6 text = some bytes ↔
    ∃ words, alphabet.Denotes text words ∧ words.flatMap networkOrder = bytes

/-- The readers of the formats as an `inet_pton`. -/
def reader : InetPton where
  v4 text := (alphabet.dottedDecimal text).map (List.map UInt8.ofNat)
  v6 text := (alphabet.words text).map (List.flatMap networkOrder)

theorem exact_reader : reader.Exact where
  v4 text bytes := by
    simp only [reader, Option.map_eq_some_iff, AddressText.Alphabet.dottedDecimal_eq_some]
  v6 text bytes := by
    simp only [reader, Option.map_eq_some_iff, AddressText.Alphabet.words_eq_some]

/-- `01.2.3.4` is no dotted decimal. -/
example : reader.v4 [48, 49, 46, 50, 46, 51, 46, 52] = none := by decide

/-! ## `ip::v4` -/

/-- `ip::v4`. -/
structure V4 where
  address : UInt32
  deriving DecidableEq

namespace V4

/-- `v4{ ntohl(addr.s_addr) }`. -/
def ofNetwork (bytes : Bytes) : V4 where
  address := UInt32.ofNat (Numeral.read 256 (bytes.map UInt8.toNat))

/-- `v4::parse`. -/
def parse (pton : InetPton) (address : Bytes) : Except AddressError V4 :=
  match pton.v4 (cString address) with
  | some bytes => .ok (ofNetwork bytes)
  | none => .error .badFormat

/-- `v4::to_string`. -/
def toString (ip : V4) : Bytes :=
  Cppio.toString ((ip.address >>> 24) &&& 0xFF).toNat ++ ([46] : Bytes) ++
    Cppio.toString ((ip.address >>> 16) &&& 0xFF).toNat ++ ([46] : Bytes) ++
    Cppio.toString ((ip.address >>> 8) &&& 0xFF).toNat ++ ([46] : Bytes) ++
    Cppio.toString ((ip.address >>> 0) &&& 0xFF).toNat

end V4

/-! ## `ip::v6` -/

/-- `ip::v6`. -/
structure V6 where
  words : List UInt16
  eight : words.length = 8
  deriving DecidableEq

/-- `zero_length` and `zero_index`. -/
structure ZeroRun where
  length : Nat
  index : Nat
  deriving DecidableEq

namespace V6

/-- `v6::v6(const uint8_t address[16])`. -/
def ofNetwork (address : Bytes) : V6 where
  words := (List.range 8).map fun i =>
    UInt16.ofNat (256 * (address.getD (2 * i) 0).toNat + (address.getD (2 * i + 1) 0).toNat)
  eight := rfl

/-- `v6::parse`. -/
def parse (pton : InetPton) (address : Bytes) : Except AddressError V6 :=
  if address.length < 2 then .error .badFormat
  else
    let addressCut := (address.drop 1).take (address.length - 2)
    let stored :=
      if address.head? = some 91 ∧ address.getLast? = some 93 then pton.v6 (cString addressCut)
      else none
    match stored.or (pton.v6 (cString address)) with
    | some bytes => .ok (ofNetwork bytes)
    | none => .error .badFormat

/-- Where the inner loop over zero words stops. -/
def skipZeros (words : List UInt16) (i : Nat) : Nat :=
  i + ((words.drop i).takeWhile (· = 0)).length

/-- The loop of `v6::to_string` that looks for the longest run of zero words. -/
def findZeros (words : List UInt16) : Nat → Nat → ZeroRun → ZeroRun
  | 0, _, zeros => zeros
  | fuel + 1, i, zeros =>
      if i < words.length then
        if words.getD i 0 = 0 then
          let stop := skipZeros words i
          findZeros words fuel (stop + 1)
            (if stop - i > zeros.length then ⟨stop - i, i⟩ else zeros)
        else findZeros words fuel (i + 1) zeros
      else zeros

/-- The loop of `v6::to_string` that prints. -/
def printWords (words : List UInt16) (zeros : ZeroRun) : Nat → Nat → Bytes
  | 0, _ => []
  | fuel + 1, i =>
      if i < words.length then
        if i = zeros.index ∧ zeros.length > 1 then
          [58, 58] ++ printWords words zeros fuel (i + zeros.length)
        else
          numeral 16 (words.getD i 0).toNat ++
            (if i < 7 ∧ (i + 1 ≠ zeros.index ∨ zeros.length ≤ 1) then [58] else []) ++
            printWords words zeros fuel (i + 1)
      else []

/-- What `v6::to_string` writes between the brackets.  Neither loop takes more
than eight rounds. -/
def print (ip : V6) : Bytes :=
  printWords ip.words (findZeros ip.words 8 0 ⟨0, 0⟩) 8 0

/-- `v6::to_string`. -/
def toString (ip : V6) : Bytes :=
  [91] ++ ip.print ++ [93]

end V6

end Ip

end Cppio
