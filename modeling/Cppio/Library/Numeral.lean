import Mathlib.Data.Nat.Digits.Lemmas

/-!
# Positional numerals

The digits of a number as they are written, the most significant one first, and
the number that a row of digits stands for.  Zero is written with one digit and
no other numeral starts with the digit zero.
-/

namespace Numeral

/-- The number that the digits stand for. -/
def read (base : Nat) (digits : List Nat) : Nat :=
  digits.foldl (fun value digit => value * base + digit) 0

/-- The digits of a number. -/
def write (base number : Nat) : List Nat :=
  if number = 0 then [0] else (Nat.digits base number).reverse

theorem read_eq_ofDigits (base : Nat) (digits : List Nat) :
    read base digits = Nat.ofDigits base digits.reverse := by
  rw [read, Nat.ofDigits_eq_foldr, List.foldr_reverse]
  simp only [Nat.cast_id, Nat.mul_comm, Nat.add_comm]

theorem read_append (base : Nat) (first second : List Nat) :
    read base (first ++ second) = read base first * base ^ second.length + read base second := by
  rw [read_eq_ofDigits, read_eq_ofDigits, read_eq_ofDigits, List.reverse_append,
    Nat.ofDigits_append, List.length_reverse, Nat.mul_comm, Nat.add_comm]

theorem read_write (base number : Nat) : read base (write base number) = number := by
  rw [read_eq_ofDigits]
  unfold write
  split_ifs with zero
  · simp [zero]
  · rw [List.reverse_reverse, Nat.ofDigits_digits]

theorem write_ne_nil (base number : Nat) : write base number ≠ [] := by
  unfold write
  split_ifs with zero
  · simp
  · rw [Ne, List.reverse_eq_nil_iff]
    exact Nat.digits_ne_nil_iff_ne_zero.mpr zero

theorem lt_of_mem_write
    {base number digit : Nat}
    (large : 1 < base)
    (present : digit ∈ write base number) :
    digit < base := by
  unfold write at present
  split_ifs at present
  · obtain rfl := List.mem_singleton.mp present
    omega
  · exact Nat.digits_lt_base large (List.mem_reverse.mp present)

/-- A number below a power of the base has no more digits than the exponent. -/
theorem length_write_le
    {base number count : Nat}
    (large : 1 < base)
    (positive : 0 < count)
    (small : number < base ^ count) :
    (write base number).length ≤ count := by
  unfold write
  split_ifs
  · exact positive
  · rw [List.length_reverse]
    exact (Nat.digits_length_le_iff large number).mpr small

/-! ## Shortest numerals -/

/-- Digits below the base, the first of which is zero only for the number zero. -/
structure IsShortest (base : Nat) (digits : List Nat) : Prop where
  nonempty : digits ≠ []
  small : ∀ digit ∈ digits, digit < base
  leading : digits.head? = some 0 → digits = [0]

theorem isShortest_write
    {base : Nat}
    (large : 1 < base)
    (number : Nat) :
    IsShortest base (write base number) where
  nonempty := write_ne_nil base number
  small _ present := lt_of_mem_write large present
  leading := by
    intro first
    unfold write at first ⊢
    split_ifs at first ⊢ with zero
    · rfl
    · rw [List.head?_reverse] at first
      have last := Nat.getLast_digit_ne_zero base zero
      rw [List.getLast?_eq_some_getLast (Nat.digits_ne_nil_iff_ne_zero.mpr zero)] at first
      exact absurd (Option.some.inj first) last

/-- A number has one shortest numeral. -/
theorem IsShortest.eq_write
    {base : Nat} {digits : List Nat}
    (large : 1 < base)
    (shortest : IsShortest base digits) :
    digits = write base (read base digits) := by
  by_cases leadingZero : digits.head? = some 0
  · rw [shortest.leading leadingZero]
    simp [read, write]
  · have below : ∀ digit ∈ digits.reverse, digit < base := fun digit present =>
      shortest.small digit (List.mem_reverse.mp present)
    have last : ∀ nonempty : digits.reverse ≠ [], digits.reverse.getLast nonempty ≠ 0 := by
      intro nonempty isZero
      apply leadingZero
      rw [← List.getLast?_reverse, List.getLast?_eq_some_getLast nonempty, isZero]
    have same : Nat.digits base (read base digits) = digits.reverse := by
      rw [read_eq_ofDigits]
      exact Nat.digits_ofDigits base large digits.reverse below last
    have positive : read base digits ≠ 0 := by
      intro zero
      rw [zero, Nat.digits_zero] at same
      exact shortest.nonempty (List.reverse_eq_nil_iff.mp same.symm)
    rw [write, if_neg positive, same, List.reverse_reverse]

end Numeral
