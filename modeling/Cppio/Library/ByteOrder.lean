import Cppio.Library.Numeral
import Mathlib.Algebra.Order.Ring.Nat
import Mathlib.Data.List.GetD

/-!
# Byte orders

The bytes of a number in network order, the order in which a host keeps the
words of its memory, and the conversion of words between the two.  A memory is a
row of bytes; what is stored at one place is loaded from there and leaves every
other place alone.
-/

/-- The order in which a host stores the bytes of a word. -/
inductive ByteOrder
  | big
  | little
  deriving DecidableEq

namespace ByteOrder

/-! ## Words -/

/-- The `width` bytes of a number, the most significant one first. -/
def network : Nat → Nat → List UInt8
  | 0, _ => []
  | width + 1, number => network width (number / 256) ++ [UInt8.ofNat (number % 256)]

/-- The number whose bytes these are, the most significant one first. -/
def number (bytes : List UInt8) : Nat :=
  Numeral.read 256 (bytes.map UInt8.toNat)

/-- The number with the same bytes in the opposite order. -/
def swap (width number : Nat) : Nat :=
  ByteOrder.number (network width number).reverse

/-- The bytes of a word in the memory of a host. -/
def encode (host : ByteOrder) (width number : Nat) : List UInt8 :=
  match host with
  | .big => network width number
  | .little => (network width number).reverse

/-- The word that a host sees in bytes of its memory. -/
def decode (host : ByteOrder) (bytes : List UInt8) : Nat :=
  match host with
  | .big => number bytes
  | .little => number bytes.reverse

/-- `htons` and `htonl`. -/
def hton (host : ByteOrder) (width number : Nat) : Nat :=
  match host with
  | .big => number
  | .little => swap width number

/-- `ntohs` and `ntohl`. -/
def ntoh (host : ByteOrder) (width number : Nat) : Nat :=
  match host with
  | .big => number
  | .little => swap width number

@[simp] theorem length_network (width number : Nat) :
    (network width number).length = width := by
  induction width generalizing number with
  | zero => rfl
  | succ width inductionHypothesis =>
      rw [network, List.length_append, inductionHypothesis]
      rfl

@[simp] theorem length_encode (host : ByteOrder) (width number : Nat) :
    (host.encode width number).length = width := by
  cases host with
  | big => exact length_network width number
  | little => rw [encode, List.length_reverse, length_network]

@[simp] theorem number_concat (bytes : List UInt8) (byte : UInt8) :
    number (bytes ++ [byte]) = number bytes * 256 + byte.toNat := by
  simp [number, Numeral.read, List.foldl_append]

theorem number_lt (bytes : List UInt8) : number bytes < 256 ^ bytes.length := by
  induction bytes using List.reverseRecOn with
  | nil => exact Nat.one_pos
  | append_singleton bytes byte inductionHypothesis =>
      have digit := byte.toNat_lt
      rw [number_concat, List.length_append, List.length_singleton, pow_succ]
      omega

/-- A number is read back from its bytes if they are enough. -/
theorem number_network
    {width value : Nat}
    (small : value < 256 ^ width) :
    number (network width value) = value := by
  induction width generalizing value with
  | zero =>
      obtain rfl := Nat.lt_one_iff.mp small
      rfl
  | succ width inductionHypothesis =>
      have smaller : value / 256 < 256 ^ width := by
        rw [pow_succ] at small
        exact Nat.div_lt_of_lt_mul (by rwa [Nat.mul_comm] at small)
      have digit : (UInt8.ofNat (value % 256)).toNat = value % 256 := by
        rw [UInt8.toNat_ofNat', Nat.mod_mod]
      rw [network, number_concat, inductionHypothesis smaller, digit]
      exact Nat.div_add_mod' value 256

/-- Bytes are those of the number that they stand for. -/
theorem network_number (bytes : List UInt8) :
    network bytes.length (number bytes) = bytes := by
  induction bytes using List.reverseRecOn with
  | nil => rfl
  | append_singleton bytes byte inductionHypothesis =>
      have digit := byte.toNat_lt
      have quotient : (number bytes * 256 + byte.toNat) / 256 = number bytes := by omega
      have rest : (number bytes * 256 + byte.toNat) % 256 = byte.toNat := by omega
      rw [List.length_append, List.length_singleton, network, number_concat, quotient, rest,
        inductionHypothesis, UInt8.ofNat_toNat]

theorem network_of_length
    {width : Nat} {bytes : List UInt8}
    (length : bytes.length = width) :
    network width (number bytes) = bytes := by
  rw [← length]
  exact network_number bytes

/-- Every host sees the word that it has stored. -/
theorem decode_encode
    (host : ByteOrder) {width value : Nat}
    (small : value < 256 ^ width) :
    host.decode (host.encode width value) = value := by
  cases host with
  | big => exact number_network small
  | little => rw [decode, encode, List.reverse_reverse, number_network small]

/-- A converted word lies in the memory of every host in network order. -/
theorem encode_hton (host : ByteOrder) (width value : Nat) :
    host.encode width (host.hton width value) = network width value := by
  cases host with
  | big => rfl
  | little =>
      have length : (network width value).reverse.length = width := by simp
      rw [encode, hton, swap, network_of_length length, List.reverse_reverse]

/-- On every host, the conversion of a word in memory gives what its bytes stand
for in network order. -/
theorem ntoh_decode
    (host : ByteOrder) {width : Nat} {bytes : List UInt8}
    (length : bytes.length = width) :
    host.ntoh width (host.decode bytes) = number bytes := by
  cases host with
  | big => rfl
  | little =>
      have reversed : bytes.reverse.length = width := by rw [List.length_reverse, length]
      rw [ntoh, decode, swap, network_of_length reversed, List.reverse_reverse]

end ByteOrder

/-! ## Memory -/

/-- The bytes of a memory by their addresses. -/
abbrev Memory := Nat → UInt8

namespace Memory

/-- The `width` bytes from an address on. -/
def load (memory : Memory) (address width : Nat) : List UInt8 :=
  (List.range width).map fun index => memory (address + index)

/-- The memory with these bytes from an address on. -/
def store (memory : Memory) (address : Nat) (bytes : List UInt8) : Memory := fun place =>
  if address ≤ place ∧ place < address + bytes.length then bytes.getD (place - address) 0
  else memory place

@[simp] theorem length_load (memory : Memory) (address width : Nat) :
    (memory.load address width).length = width := by
  simp [load]

theorem load_append (memory : Memory) (address first second : Nat) :
    memory.load address first ++ memory.load (address + first) second =
      memory.load address (first + second) := by
  simp only [load, List.range_add, List.map_append, List.map_map, Nat.add_assoc]
  rfl

@[simp] theorem load_zero (memory : Memory) (address : Nat) : memory.load address 0 = [] := rfl

/-- Up to a place behind it, a byte is followed by those from the next one on. -/
theorem load_sub_eq_cons
    (memory : Memory) {address last : Nat}
    (inside : address < last) :
    memory.load address (last - address) =
      memory address :: memory.load (address + 1) (last - (address + 1)) := by
  have width : last - address = 1 + (last - (address + 1)) := by omega
  rw [width, ← load_append]
  rfl

/-- What is stored is loaded. -/
theorem load_store
    (memory : Memory) (address : Nat) {width : Nat} {bytes : List UInt8}
    (length : bytes.length = width) :
    (memory.store address bytes).load address width = bytes := by
  apply List.ext_getElem
  · rw [length_load, length]
  · intro index inside insideBytes
    have stored : address ≤ address + index ∧ address + index < address + bytes.length := by
      omega
    simp only [load, store, List.getElem_map, List.getElem_range, if_pos stored,
      Nat.add_sub_cancel_left, List.getD_eq_getElem?_getD]
    rw [List.getElem?_eq_getElem insideBytes, Option.getD_some]

/-- What lies elsewhere stays. -/
theorem load_store_of_disjoint
    (memory : Memory) {address width place : Nat} {bytes : List UInt8}
    (disjoint : address + width ≤ place ∨ place + bytes.length ≤ address) :
    (memory.store place bytes).load address width = memory.load address width := by
  apply List.map_congr_left
  intro index inside
  have bound := List.mem_range.mp inside
  exact if_neg (by omega)

@[simp] theorem store_nil (memory : Memory) (address : Nat) : memory.store address [] = memory := by
  funext place
  exact if_neg fun inside => by simp only [List.length_nil] at inside; omega

/-- Two stores in a row are one store. -/
theorem store_append (memory : Memory) (address : Nat) (first second : List UInt8) :
    (memory.store address first).store (address + first.length) second =
      memory.store address (first ++ second) := by
  funext place
  unfold store
  rw [List.length_append]
  by_cases inSecond :
      address + first.length ≤ place ∧ place < address + first.length + second.length
  · have inBoth : address ≤ place ∧ place < address + (first.length + second.length) := by omega
    have offset : place - (address + first.length) = place - address - first.length := by omega
    have behind : first.length ≤ place - address := by omega
    rw [if_pos inSecond, if_pos inBoth, List.getD_append_right _ _ _ _ behind, offset]
  · rw [if_neg inSecond]
    by_cases inFirst : address ≤ place ∧ place < address + first.length
    · have inBoth : address ≤ place ∧ place < address + (first.length + second.length) := by
        omega
      have before : place - address < first.length := by omega
      rw [if_pos inFirst, if_pos inBoth, List.getD_append _ _ _ _ before]
    · rw [if_neg inFirst, if_neg (by omega)]

/-- A loop that stores chunks of one width side by side. -/
theorem foldl_store
    (memory : Memory) (address width : Nat) (chunk : Nat → List UInt8)
    (length : ∀ index, (chunk index).length = width) (count : Nat) :
    (List.range count).foldl
        (fun memory index => memory.store (address + index * width) (chunk index)) memory =
      memory.store address ((List.range count).flatMap chunk) := by
  have total : ∀ count, ((List.range count).flatMap chunk).length = count * width := by
    intro count
    simp [List.length_flatMap, length]
  induction count with
  | zero =>
      funext place
      exact (if_neg (by simp)).symm
  | succ count inductionHypothesis =>
      rw [List.range_succ, List.foldl_append, inductionHypothesis, List.flatMap_append,
        ← store_append, total]
      simp

end Memory
