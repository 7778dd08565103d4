import Vivarium.Proofs.Binary64.Remainder
import Vivarium.Proofs.Geometry.Folding

/-! Folding binary64 angles is exact, though pi is not quite pi. Beside the remainder it takes one turn more or
less, and does so beyond half a turn only. There the numbers have the place of pi's last bit or a coarser
one, so the sum, which is smaller, has that place too and needs no rounding. -/
namespace Vivarium.Binary64
open Float.Model Float.Model.UnpackedFloat Scalar
variable {a b v : Float}

theorem pi_reading : Scalar.isFinite (Scalar.pi : Float) = true ∧
    reading (view (Scalar.pi : Float)) = 7074237752028440 * 2 ^ (-51 : ℤ) :=
  ⟨by rfl, reading_positive 7074237752028440 (-51) (by norm_num) (by rfl)⟩

theorem tau_reading : Scalar.isFinite (Scalar.tau : Float) = true ∧
    reading (view (Scalar.tau : Float)) = 7074237752028440 * 2 ^ (-50 : ℤ) :=
  ⟨by rfl, reading_positive 7074237752028440 (-50) (by norm_num) (by rfl)⟩

/-- A finite number with two or more before the point has at most 51 bits behind it. -/
theorem reading_coarse (finite : Scalar.isFinite v = true) (large : 2 ≤ |reading (view v)|) :
    ∃ k : ℤ, reading (view v) = k * 2 ^ (-51 : ℤ) := by
  have closed : (view v).isFinite = true := finite
  have canonical := view_canonical v
  revert closed canonical large
  cases view v with
  | notANumber => exact fun _ closed => absurd closed (by decide)
  | infinity s => exact fun _ closed => absurd closed (by simp [UnpackedFloat.isFinite])
  | zero s => exact fun large => absurd large (by norm_num [reading])
  | finite s m e positive =>
    rintro large - ⟨fits, -⟩
    rw [abs_reading_finite] at large
    have low : -51 ≤ e := by
      by_contra less
      have small : (2 : ℚ) ^ (53 + e) ≤ 2 ^ (1 : ℤ) := two_zpow_le (by omega)
      rw [zpow_one] at small
      linarith [fits.size_lt]
    exact reading_multiple_of_le low

theorem tau_eq_two_mul_pi : reading (view (Scalar.tau : Float)) = 2 * reading (view Scalar.pi) := by
  rw [tau_reading.2, pi_reading.2]
  norm_num

/-- A sum in half a turn, with the place of pi's last bit, is written as it is. -/
theorem exact_within {x : ℚ} {k : ℤ} (read : IsNumber v ∧ reading (view v) = nearest x)
    (multiple : x = k * 2 ^ (-51 : ℤ)) (within : |x| ≤ reading (view (Scalar.pi : Float))) :
    Scalar.isFinite v = true ∧ reading (view v) = x := by
  obtain ⟨finite, value⟩ := pi_reading
  have unit := two_zpow_pos (-51)
  have bits : |k| ≤ 7074237752028440 := by
    rw [multiple, abs_mul, abs_of_pos unit, value] at within
    exact_mod_cast le_of_mul_le_mul_right within unit
  have kept : nearest x = x := by
    rw [multiple]
    exact nearest_multiple (bits.trans_lt (by norm_num)) (by norm_num) (by norm_num)
  rw [kept] at read
  have size := (finite_iff_reading.mp finite).2
  have small : |reading (view v)| < bound := by
    rw [read.2]
    exact (within.trans (le_abs_self _)).trans_lt size
  exact ⟨finite_iff_reading.mpr ⟨read.1, small⟩, read.2⟩

/-- The last bits of a number beyond half a turn and of a whole turn have a place in common. -/
theorem turns_multiple (finite : Scalar.isFinite v = true)
    (beyond : reading (view (Scalar.pi : Float)) ≤ |reading (view v)|) (n : ℤ) :
    ∃ k : ℤ, reading (view v) + n * reading (view (Scalar.tau : Float)) = k * 2 ^ (-51 : ℤ) := by
  have half := pi_reading.2
  have large : 2 ≤ |reading (view v)| := by
    refine le_trans ?_ beyond
    rw [half]
    norm_num
  obtain ⟨k, value⟩ := reading_coarse finite large
  refine ⟨k + n * (2 * 7074237752028440), ?_⟩
  rw [value, tau_eq_two_mul_pi, half]
  push_cast
  ring

theorem add_tau_reading (finite : Scalar.isFinite v = true)
    (low : -reading (view (Scalar.tau : Float)) < reading (view v))
    (high : reading (view v) ≤ -reading (view (Scalar.pi : Float))) :
    Scalar.isFinite (v + Scalar.tau) = true ∧
      reading (view (v + Scalar.tau)) = reading (view v) + reading (view (Scalar.tau : Float)) := by
  have whole := tau_eq_two_mul_pi
  have beyond : reading (view (Scalar.pi : Float)) ≤ |reading (view v)| :=
    le_abs.mpr (.inr (by linarith))
  obtain ⟨k, multiple⟩ := turns_multiple finite beyond 1
  rw [Int.cast_one, one_mul] at multiple
  exact exact_within (add_reading finite tau_reading.1) multiple
    (abs_le.mpr ⟨by linarith, by linarith⟩)

theorem sub_tau_reading (finite : Scalar.isFinite v = true)
    (low : reading (view (Scalar.pi : Float)) < reading (view v))
    (high : reading (view v) < reading (view (Scalar.tau : Float))) :
    Scalar.isFinite (v - Scalar.tau) = true ∧
      reading (view (v - Scalar.tau)) = reading (view v) - reading (view (Scalar.tau : Float)) := by
  have whole := tau_eq_two_mul_pi
  have beyond : reading (view (Scalar.pi : Float)) ≤ |reading (view v)| :=
    le_abs.mpr (.inl low.le)
  obtain ⟨k, multiple⟩ := turns_multiple finite beyond (-1)
  rw [Int.cast_neg, Int.cast_one, neg_one_mul, ← sub_eq_add_neg] at multiple
  exact exact_within (sub_reading finite tau_reading.1) multiple
    (abs_le.mpr ⟨by linarith, by linarith⟩)

theorem pi_reading_pos : 0 < reading (view (Scalar.pi : Float)) := by
  rw [pi_reading.2]
  norm_num

theorem tau_reading_pos : 0 < reading (view (Scalar.tau : Float)) := by
  rw [tau_reading.2]
  norm_num

theorem faithful_level : Angle.Faithful (Rounded.level : Float → ℚ) where
  pi_pos := pi_reading_pos
  tau_eq := tau_eq_two_mul_pi
  zero_eq := ⟨by rfl, by rfl⟩
  le_neg_pi := by
    intro r finite
    obtain ⟨negated, minus⟩ := neg_reading (finite_iff_reading.mp pi_reading.1).1
    rw [le_iff_level, minus]
    simp only [(finite_iff_reading.mp finite).1, negated, true_and]
    rfl
  pi_lt := by
    intro r finite
    rw [lt_iff_level]
    simp only [(finite_iff_reading.mp finite).1, (finite_iff_reading.mp pi_reading.1).1, true_and]
    rfl
  remainder_eq finite := remainder_reading finite tau_reading.1 tau_reading_pos.ne'
  remainder_self := by
    intro a finite smaller
    refine remainder_self finite tau_reading.1 ?_
    rwa [abs_of_pos tau_reading_pos]
  add_tau := add_tau_reading
  sub_tau := sub_tau_reading

end Vivarium.Binary64
