import Mathlib.Algebra.Order.Floor.Ring
import Mathlib.Algebra.Order.Floor.Semiring
import Mathlib.Data.Rat.Cast.OfScientific
import Mathlib.Tactic.Linarith
import Vivarium.Scalar

/-! The numbers of any ordered field as scalars, computed with exactly. As with the rational numbers, the
number next to another one is given from outside, and pi too, which may then be the true one. -/
namespace Vivarium

/-- What exact arithmetic in a field has to be given. -/
class Unrounded (K : Type) where
  nextUp : K → K
  pi : K

variable {K : Type} [Field K] [LinearOrder K] [FloorRing K] {x : K}

/-- The whole part, cut off toward zero. -/
def truncated (x : K) : ℤ := if 0 ≤ x then ⌊x⌋ else ⌈x⌉

section
variable [IsStrictOrderedRing K]

theorem truncated_neg (x : K) : truncated (-x) = -truncated x := by
  rcases lt_trichotomy x 0 with negative | rfl | positive
  · rw [truncated, if_pos (by linarith), truncated, if_neg (not_le.mpr negative), Int.floor_neg]
  · simp [truncated]
  · rw [truncated, if_neg (by linarith), truncated, if_pos positive.le, Int.ceil_neg]

theorem abs_sub_truncated_lt (x : K) : |x - truncated x| < 1 := by
  rw [truncated, abs_lt]
  split
  · have low := Int.floor_le x
    have high := Int.lt_floor_add_one x
    exact ⟨by linarith, by linarith⟩
  · have low := Int.ceil_lt_add_one x
    have high := Int.le_ceil x
    exact ⟨by linarith, by linarith⟩

theorem truncated_eq_zero (small : |x| < 1) : truncated x = 0 := by
  obtain ⟨low, high⟩ := abs_lt.mp small
  rw [truncated]
  split
  · rename_i nonneg
    exact Int.floor_eq_zero_iff.mpr ⟨nonneg, high⟩
  · rename_i negative
    exact Int.ceil_eq_zero_iff.mpr ⟨low, (not_le.mp negative).le⟩

/-- The remainder of a division cut off toward zero is smaller than the divisor. -/
theorem abs_sub_truncated_mul_lt {p : K} (positive : 0 < p) (x : K) :
    |x - truncated (x / p) * p| < p := by
  have split : x - truncated (x / p) * p = (x / p - truncated (x / p)) * p := by
    rw [sub_mul, div_mul_cancel₀ _ positive.ne']
  rw [split, abs_mul, abs_of_pos positive]
  exact mul_lt_of_lt_one_left positive (abs_sub_truncated_lt _)

end

instance (priority := low) [Unrounded K] : Scalar K where
  ltDecidable := inferInstance
  leDecidable := inferInstance
  ofNat n := n
  remainder a b := a - truncated (a / b) * b
  wholePart v := ⌊v⌋₊
  isFinite _ := true
  nextUp := Unrounded.nextUp
  pi := Unrounded.pi

namespace Unrounded
variable [Unrounded K] {a b : K}

theorem zero_eq : (Scalar.zero : K) = 0 := Nat.cast_zero

theorem tau_eq : (Scalar.tau : K) = 2 * Scalar.pi := (two_mul (Scalar.pi : K)).symm

theorem remainder_eq : Scalar.remainder a b = a - truncated (a / b) * b := rfl

end Unrounded
end Vivarium
