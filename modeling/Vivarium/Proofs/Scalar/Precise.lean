import Mathlib.Tactic.FieldSimp
import Mathlib.Tactic.GCongr
import Vivarium.Proofs.Scalar.Rounded

/-! Rounded scalars that keep 52 bits. How far one rounded result is from the exact one, and from
this how far a quotient of two rounded differences is from the exact quotient: relative to its size
by a few units of the last place, however large or small the differences are. -/
namespace Vivarium
open Scalar Rounded

/-- Rounding errs by one part in `2 ^ 52` at most, and by little where results are small. -/
class Precise (F : Type) [Scalar F] [Rounded F] : Prop where
  nearest_near : ∀ {x : ℚ}, |x| ≤ bound F / 2 → |nearest F x - x| ≤ |x| / 2 ^ 52 + 1 / 2 ^ 60
  /-- However small a difference is, rounding it errs by one part only. -/
  sub_near : ∀ {a b : F}, isFinite a = true → isFinite b = true → isFinite (a - b) = true →
    |level (a - b) - (level a - level b)| ≤ |level a - level b| / 2 ^ 52
  /-- A difference with what is not finite is not finite. -/
  sub_infinite : ∀ {a b : F}, isFinite a = false → isFinite b = true → isFinite (a - b) = false
  /-- The steps next to whole numbers up to a thousand are small. -/
  nextUp_near : ∀ {a : F} {n : ℤ}, IsNumber a → level a = n → |n| ≤ 1000 →
    level (nextUp a) ≤ n + 1 / 2 ^ 43
  tolerance_near : level (Segment.cornerTolerance : F) ≤ 10001 / 10 ^ 16

namespace Precise

/-- The quotient of two numbers that are each off by one part is off by few. -/
theorem exists_factor {a b a' b' : ℚ} (nonzero : b ≠ 0) (nearA : |a' - a| ≤ |a| / 2 ^ 52)
    (nearB : |b' - b| ≤ |b| / 2 ^ 52) :
    ∃ r, |r - 1| ≤ 1 / 2 ^ 50 ∧ a' / b' = r * (a / b) := by
  have factor : ∀ {x x' : ℚ}, |x' - x| ≤ |x| / 2 ^ 52 → ∃ r, |r - 1| ≤ 1 / 2 ^ 52 ∧ x' = r * x := by
    intro x x' near
    rcases eq_or_ne x 0 with rfl | some
    · refine ⟨1, by norm_num, ?_⟩
      rw [abs_zero, zero_div, sub_zero] at near
      rw [mul_zero, abs_nonpos_iff.mp near]
    · refine ⟨x' / x, ?_, (div_mul_cancel₀ x' some).symm⟩
      rw [div_sub_one some, abs_div, div_le_iff₀ (abs_pos.mpr some)]
      linarith
  obtain ⟨r, nearR, rfl⟩ := factor nearA
  obtain ⟨s, nearS, rfl⟩ := factor nearB
  obtain ⟨lowR, highR⟩ := abs_le.mp nearR
  obtain ⟨lowS, highS⟩ := abs_le.mp nearS
  have positive : 0 < s := by linarith
  refine ⟨r / s, ?_, by field_simp⟩
  rw [div_sub_one positive.ne', abs_div, abs_of_pos positive, div_le_iff₀ positive, abs_le]
  constructor <;> linarith

variable {F : Type} [Scalar F] [Rounded F] [Precise F]

/-- A quotient that is rounded after both of its parts were. Below zero it counts as zero; either it
is near the exact one, or both are large. -/
theorem nearest_quotient {x y r : ℚ} (near : |r - 1| ≤ 1 / 2 ^ 50) (same : y = r * x) :
    |max (nearest F y) 0 - max x 0| ≤ 1 / 2 ^ 48 ∨ 2 ≤ nearest F y ∧ 2 ≤ x := by
  subst same
  obtain ⟨low, high⟩ := abs_le.mp near
  rcases le_or_gt x 0 with negative | positive
  · have below : nearest F (r * x) ≤ 0 :=
      nearest_nonpos (mul_nonpos_of_nonneg_of_nonpos (by linarith) negative)
    rw [max_eq_right below, max_eq_right negative]
    norm_num
  · have above : 0 ≤ nearest F (r * x) := nearest_nonneg (mul_nonneg (by linarith) positive.le)
    rw [max_eq_left above, max_eq_left positive.le]
    rcases le_or_gt x (5 / 2) with small | large
    · left
      have product : |r * x - x| ≤ 5 / 2 ^ 51 := by
        have factored : r * x - x = (r - 1) * x := by ring
        rw [factored, abs_mul, abs_of_pos positive]
        nlinarith [abs_nonneg (r - 1)]
      obtain ⟨before, after⟩ := abs_le.mp product
      have wide := size_lt_bound (F := F)
      norm_num [UInt32.size] at wide
      have size : |r * x| ≤ 3 := abs_le.mpr ⟨by linarith, by linarith⟩
      have rounding := nearest_near (F := F) (x := r * x) (by linarith)
      obtain ⟨back, forth⟩ := abs_le.mp rounding
      exact abs_le.mpr ⟨by linarith, by linarith⟩
    · right
      have two : nearest F 2 = 2 := by exact_mod_cast nearest_nat (F := F) (n := 2) (by decide)
      refine ⟨?_, by linarith⟩
      rw [← two]
      exact nearest_mono (by nlinarith)

end Precise
end Vivarium
