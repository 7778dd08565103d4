import Vivarium.Geometry.Point
import Vivarium.Proofs.Binary64.Laws

/-! Squared distances between binary64 points are numbers also where a point has an infinite
coordinate or a square overflows: no two infinities of opposite sign meet. -/
namespace Vivarium.Binary64
open Float.Model Float.Model.UnpackedFloat Scalar

variable {a b v : Float}

theorem view_infinite (number : IsNumber v) (infinite : ¬Scalar.isFinite v = true) :
    ∃ s, view v = .infinity s := by
  have some := number_iff.mp number
  have unbounded : ¬(view v).isFinite = true := infinite
  cases read : view v with
  | notANumber => exact absurd read some
  | infinity s => exact ⟨s, rfl⟩
  | zero s => exact absurd (by rw [read]; rfl) unbounded
  | finite s m e positive => exact absurd (by rw [read]; rfl) unbounded

/-- An infinite result is read as it was written. -/
theorem view_infinity (s : Sign) : view (.ofModel (Float.Model.pack (.infinity s))) = .infinity s :=
  unpack_pack (u := .infinity s) trivial

theorem sub_isNumber (fa : Scalar.isFinite a = true) (number : IsNumber b) : IsNumber (a - b) := by
  by_cases fb : Scalar.isFinite b = true
  · exact (sub_reading fa fb).1
  · obtain ⟨s, read⟩ := view_infinite number fb
    have finite : (view a).isFinite = true := fa
    have difference : UnpackedFloat.sub .binary64 (view a) (view b) = .infinity (-s) := by
      rw [read]
      cases read' : view a <;> simp_all [UnpackedFloat.isFinite, UnpackedFloat.sub]
    have same : view (a - b) = .infinity (-s) := by
      change view (.ofModel (Float.Model.pack (UnpackedFloat.sub .binary64 (view a) (view b)))) = _
      rw [difference, view_infinity]
    rw [number_iff, same]
    simp

/-- A square is not negative. -/
theorem square_spec (number : IsNumber a) : IsNumber (a * a) ∧ 0 ≤ reading (view (a * a)) := by
  by_cases finite : Scalar.isFinite a = true
  · obtain ⟨product, value⟩ := mul_reading finite finite
    exact ⟨product, by rw [value]; exact Rounded.nearest_nonneg (F := Float) (mul_self_nonneg _)⟩
  · obtain ⟨s, read⟩ := view_infinite number finite
    have same : view (a * a) = .infinity (s * s) := by
      change view (.ofModel (Float.Model.pack (UnpackedFloat.mul .binary64 (view a) (view a)))) = _
      rw [read]
      exact view_infinity (s * s)
    rw [number_iff, same, reading, signed_mul]
    exact ⟨by simp, mul_nonneg (mul_self_nonneg _) bound_pos.le⟩

/-- The sum of two numbers that are not negative is a number. -/
theorem add_isNumber_of_nonneg (na : IsNumber a) (nb : IsNumber b)
    (above : 0 ≤ reading (view a)) (above' : 0 ≤ reading (view b)) : IsNumber (a + b) := by
  have upward : ∀ s, 0 ≤ reading (.infinity s) → s = .positive := by
    intro s nonneg
    have top := bound_pos
    cases s with
    | positive => rfl
    | negative =>
      simp only [reading, signed] at nonneg
      linarith
  by_cases fa : Scalar.isFinite a = true
  · exact add_isNumber fa nb
  · obtain ⟨s, read⟩ := view_infinite na fa
    rw [read] at above
    obtain rfl := upward s above
    have same : view (a + b) = .infinity .positive := by
      change view (.ofModel (Float.Model.pack (UnpackedFloat.add .binary64 (view a) (view b)))) = _
      have sum : UnpackedFloat.add .binary64 (view a) (view b) = .infinity .positive := by
        rw [read]
        cases read' : view b with
        | notANumber => exact absurd read' (number_iff.mp nb)
        | infinity t =>
          rw [read'] at above'
          obtain rfl := upward t above'
          rfl
        | zero t => rfl
        | finite t m e positive => rfl
      rw [sum, view_infinity]
    rw [number_iff, same]
    simp

/-- The distance from any point with defined coordinates to a finite one. -/
theorem squaredDistance_isNumber {center p : Point Float} (finite : p.isFinite = true)
    (nx : IsNumber center.x) (ny : IsNumber center.y) : IsNumber (center.squaredDistance p) := by
  obtain ⟨fx, fy⟩ : Scalar.isFinite p.x = true ∧ Scalar.isFinite p.y = true := by
    simpa [Point.isFinite] using finite
  obtain ⟨squareX, aboveX⟩ := square_spec (sub_isNumber fx nx)
  obtain ⟨squareY, aboveY⟩ := square_spec (sub_isNumber fy ny)
  exact add_isNumber_of_nonneg squareX squareY aboveX aboveY

end Vivarium.Binary64
