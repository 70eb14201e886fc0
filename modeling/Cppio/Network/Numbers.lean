import Cppio.Library.Numeral
import Cppio.Network.Http.Encoding
import Mathlib.Data.List.TakeWhile

/-!
# Numbers in texts

`std::to_string` and `std::stoul`, and the digits that a stream writes in base
ten and, after `std::hex`, in base sixteen.  `stoul` reads what `strtoul` reads
in base ten, into an `unsigned long` of 64 bits.
-/

namespace Cppio

open Http

/-- The byte of a digit below 16. -/
def digitByte (digit : Nat) : UInt8 :=
  UInt8.ofNat (if digit < 10 then 48 + digit else 87 + digit)

/-- The value of a digit in base 16, in either case. -/
def digitValue (ch : UInt8) : Nat :=
  if isDigit ch then ch.toNat - 48 else (toLower ch).toNat - 87

/-- The bytes of a number in a base up to 16. -/
def numeral (base number : Nat) : Bytes :=
  (Numeral.write base number).map digitByte

/-- `std::to_string` of an unsigned number. -/
def toString (number : Nat) : Bytes :=
  numeral 10 number

/-- What `stoul` throws. -/
inductive StoulError
  | invalidArgument
  | outOfRange
  deriving DecidableEq

/-- `isspace` in the C locale. -/
def isSpace (ch : UInt8) : Bool :=
  ch == 32 || (9 ≤ ch && ch ≤ 13)

/-- The sign that `strtoul` skips, and whether it negates. -/
def skipSign : Bytes → Bool × Bytes
  | 45 :: rest => (true, rest)
  | 43 :: rest => (false, rest)
  | text => (false, text)

/-- `std::stoul(text)`. -/
def stoul (text : Bytes) : Except StoulError Nat :=
  let (negative, rest) := skipSign (text.dropWhile isSpace)
  let digits := rest.takeWhile isDigit
  if digits = [] then .error .invalidArgument
  else
    let value := Numeral.read 10 (digits.map digitValue)
    if value < 2 ^ 64 then .ok (if negative then (2 ^ 64 - value) % 2 ^ 64 else value)
    else .error .outOfRange

/-! ## Reading what was written -/

theorem digitValue_digitByte {digit : Nat} (small : digit < 16) :
    digitValue (digitByte digit) = digit := by
  have all : ∀ digit < 16, digitValue (digitByte digit) = digit := by decide
  exact all digit small

theorem isDigit_digitByte {digit : Nat} (small : digit < 10) :
    isDigit (digitByte digit) = true := by
  have all : ∀ digit < 10, isDigit (digitByte digit) = true := by decide
  exact all digit small

theorem numeral_ne_nil (base number : Nat) : numeral base number ≠ [] := by
  rw [numeral, Ne, List.map_eq_nil_iff]
  exact Numeral.write_ne_nil base number

theorem read_numeral
    {base : Nat}
    (large : 1 < base)
    (small : base ≤ 16)
    (number : Nat) :
    Numeral.read base ((numeral base number).map digitValue) = number := by
  have same : (numeral base number).map digitValue = Numeral.write base number := by
    rw [numeral, List.map_map]
    refine (List.map_congr_left fun digit present => ?_).trans (List.map_id _)
    exact digitValue_digitByte ((Numeral.lt_of_mem_write large present).trans_le small)
  rw [same, Numeral.read_write]

theorem isDigit_of_mem_toString
    {number : Nat} {ch : UInt8}
    (present : ch ∈ toString number) :
    isDigit ch = true := by
  obtain ⟨digit, inside, rfl⟩ := List.mem_map.mp present
  exact isDigit_digitByte (Numeral.lt_of_mem_write (by decide) inside)

/-- A text that starts with a digit has no space and no sign to skip. -/
theorem skipSign_dropWhile_of_isDigit
    {ch : UInt8} (rest : Bytes)
    (starts : isDigit ch = true) :
    skipSign ((ch :: rest).dropWhile isSpace) = (false, ch :: rest) := by
  have notSpace : isSpace ch = false := by
    simp only [isDigit, isSpace, Bool.and_eq_true, decide_eq_true_eq] at starts ⊢
    grind
  have notMinus : ch ≠ 45 := by
    rintro rfl
    exact absurd starts (by decide)
  have notPlus : ch ≠ 43 := by
    rintro rfl
    exact absurd starts (by decide)
  rw [List.dropWhile_cons_of_neg (by simp [notSpace])]
  unfold skipSign
  split <;> simp_all

/-- `stoul` reads a text of digits. -/
theorem stoul_of_isDigit
    {text : Bytes}
    (nonempty : text ≠ [])
    (digits : ∀ ch ∈ text, isDigit ch = true)
    (small : Numeral.read 10 (text.map digitValue) < 2 ^ 64) :
    stoul text = .ok (Numeral.read 10 (text.map digitValue)) := by
  obtain ⟨ch, rest, rfl⟩ := List.exists_cons_of_ne_nil nonempty
  have whole : (ch :: rest).takeWhile isDigit = ch :: rest :=
    List.takeWhile_eq_self_iff.mpr digits
  rw [stoul, skipSign_dropWhile_of_isDigit rest (digits ch List.mem_cons_self)]
  dsimp only
  rw [whole, if_neg nonempty, if_pos small]
  rfl

/-- `stoul` reads what `to_string` wrote. -/
theorem stoul_toString
    {number : Nat}
    (small : number < 2 ^ 64) :
    stoul (toString number) = .ok number := by
  have read : Numeral.read 10 ((toString number).map digitValue) = number :=
    read_numeral (by decide) (by decide) number
  have nonempty : toString number ≠ [] := numeral_ne_nil 10 number
  have digits : ∀ ch ∈ toString number, isDigit ch = true := fun ch present =>
    isDigit_of_mem_toString present
  rw [stoul_of_isDigit nonempty digits (read.symm ▸ small), read]

end Cppio
