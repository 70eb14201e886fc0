import Mathlib.Data.Int.Init
import Mathlib.Tactic.Ring

/-!
# Signed machine integers

A signed integer of a width is an integer in the range of two's complement.
Arithmetic is exact where its result is in range and undefined elsewhere, and a
conversion keeps the value modulo the power of two of the target's width.
-/

namespace Cppio

/-- The range of two's complement. -/
def Fits (width : Nat) (value : Int) : Prop :=
  -2 ^ width ≤ 2 * value ∧ 2 * value < 2 ^ width

instance (width : Nat) (value : Int) : Decidable (Fits width value) :=
  inferInstanceAs (Decidable (_ ∧ _))

/-- A signed integer of this width. -/
@[ext]
structure Signed (width : Nat) where
  value : Int
  fits : Fits width value
  deriving DecidableEq

namespace Signed

variable {width : Nat}

/-- The result of an operation, where it is defined. -/
def ofExact (width : Nat) (value : Int) : Option (Signed width) :=
  if fits : Fits width value then some ⟨value, fits⟩ else none

theorem ofExact_eq_some {value : Int} {result : Signed width} :
    ofExact width value = some result ↔ result.value = value := by
  unfold ofExact
  split_ifs with fits
  · rw [Option.some.injEq, Signed.ext_iff]
    exact eq_comm
  · refine iff_of_false (fun same => nomatch same) fun same => fits ?_
    exact same ▸ result.fits

theorem exists_ofExact {value : Int} :
    (∃ result : Signed width, ofExact width value = some result) ↔ Fits width value := by
  constructor
  · rintro ⟨result, defined⟩
    exact ofExact_eq_some.mp defined ▸ result.fits
  · exact fun fits => ⟨⟨value, fits⟩, ofExact_eq_some.mpr rfl⟩

/-- `left + right`. -/
def add (left right : Signed width) : Option (Signed width) :=
  ofExact width (left.value + right.value)

/-- A quotient is between zero and its dividend. -/
theorem tdiv_between (dividend : Int) (divisor : Nat) :
    min 0 dividend ≤ dividend.tdiv divisor ∧ dividend.tdiv divisor ≤ max 0 dividend := by
  have positive : ∀ value : Int, 0 ≤ value →
      0 ≤ value.tdiv divisor ∧ value.tdiv divisor ≤ value := fun value nonnegative =>
    ⟨Int.tdiv_nonneg nonnegative (Int.natCast_nonneg divisor),
      Int.tdiv_le_self _ nonnegative⟩
  rcases le_total 0 dividend with nonnegative | nonpositive
  · have between := positive dividend nonnegative
    omega
  · have between := positive (-dividend) (by omega)
    rw [Int.neg_tdiv] at between
    omega

/-- The quotient by a positive number, rounded towards zero. -/
def quotient (dividend : Signed width) (divisor : Nat) : Signed width where
  value := dividend.value.tdiv divisor
  fits := by
    have zero : (0 : Int) < 2 ^ width := Int.pow_pos (by decide)
    have between := tdiv_between dividend.value divisor
    obtain ⟨lower, upper⟩ := dividend.fits
    constructor <;> omega

theorem fits_bmod (width : Nat) (value : Int) : Fits width (value.bmod (2 ^ width)) := by
  have positive : 0 < 2 ^ width := Nat.two_pow_pos width
  have lower := Int.le_bmod (x := value) positive
  have upper := Int.bmod_lt (x := value) positive
  rw [Fits]
  cases width with
  | zero => simp
  | succ width =>
      push_cast at lower upper
      rw [Int.pow_succ] at lower upper ⊢
      omega

/-- The conversion to a type of another width. -/
def convert (target : Nat) (source : Signed width) : Signed target where
  value := source.value.bmod (2 ^ target)
  fits := fits_bmod target source.value

/-- The converted number is nonnegative if the remainder is in the lower half. -/
theorem convert_nonneg_iff
    {target : Nat} {source : Signed width} :
    0 ≤ (source.convert target).value ↔ 2 * (source.value % 2 ^ target) < 2 ^ target := by
  have positive : (0 : Int) < 2 ^ target := Int.pow_pos (by decide)
  have remainder := Int.emod_lt_of_pos source.value positive
  have nonnegative := Int.emod_nonneg source.value positive.ne'
  change 0 ≤ source.value.bmod (2 ^ target) ↔ _
  rw [Int.bmod_eq_emod]
  push_cast
  split_ifs with upper <;> omega

/-- A nonnegative number does not become greater by a conversion. -/
theorem convert_le
    {target : Nat} {source : Signed width}
    (nonnegative : 0 ≤ source.value) :
    (source.convert target).value ≤ source.value := by
  have positive : (0 : Int) < 2 ^ target := Int.pow_pos (by decide)
  have multiple : 0 ≤ 2 ^ target * (source.value / 2 ^ target) :=
    Int.mul_nonneg positive.le (Int.ediv_nonneg nonnegative positive.le)
  have division := Int.emod_add_mul_ediv source.value (2 ^ target)
  change source.value.bmod (2 ^ target) ≤ _
  rw [Int.bmod_eq_emod]
  push_cast
  split_ifs <;> omega

end Signed
end Cppio
