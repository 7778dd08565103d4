import Vivarium.Proofs.Binary64.Laws
import Vivarium.Proofs.Scalar.Precise

/-! How far a binary64 result is from the exact one: half a grain at most, which is one part in
`2 ^ 53` of it unless it is tiny. Differences lose nothing where they are tiny, because finite numbers
are whole multiples of the smallest one. -/
namespace Vivarium.Binary64
open Float.Model Float.Model.UnpackedFloat Scalar
variable {a b v : Float} {x : ℚ}

theorem abs_toEven_sub_le (y : ℚ) : |toEven y - y| ≤ 1 / 2 := by
  have low := Int.floor_le y
  have high := Int.lt_floor_add_one y
  rw [toEven]
  split
  · rename_i down
    have half : y - ⌊y⌋ ≤ 1 / 2 := down.elim le_of_lt fun tie => tie.1.le
    exact abs_le.mpr ⟨by linarith, by linarith⟩
  · rename_i up
    have half : 1 / 2 ≤ y - ⌊y⌋ := not_lt.mp fun below => up (.inl below)
    push_cast
    exact abs_le.mpr ⟨by linarith, by linarith⟩

theorem abs_rounded_sub_le (x : ℚ) : |rounded x - x| ≤ 2 ^ grain x / 2 := by
  have unit := two_zpow_pos (grain x)
  have steps : rounded x - x = (toEven (x / 2 ^ grain x) - x / 2 ^ grain x) * 2 ^ grain x := by
    rw [rounded, sub_mul, div_mul_cancel₀ _ unit.ne']
  rw [steps, abs_mul, abs_of_pos unit]
  have half := mul_le_mul_of_nonneg_right (abs_toEven_sub_le (x / 2 ^ grain x)) unit.le
  linarith

theorem grain_le (positive : 0 < x) : (2 : ℚ) ^ grain x ≤ max (x / 2 ^ 52) (2 ^ (-1074 : ℤ)) := by
  rw [grain]
  rcases max_choice (Int.log 2 x - 52) (-1074) with high | low
  · rw [high, zpow_sub₀ (by norm_num)]
    exact le_max_of_le_left (div_le_div_of_nonneg_right (log_le positive) (by norm_num))
  · rw [low]
    exact le_max_right _ _

/-- A number that is not negative, rounded. -/
theorem abs_rounded_sub_le_max (nonneg : 0 ≤ x) :
    |rounded x - x| ≤ max (x / 2 ^ 52) (2 ^ (-1074 : ℤ)) / 2 := by
  rcases nonneg.eq_or_lt with rfl | positive
  · have unit := two_zpow_pos (-1074)
    rw [rounded_zero, sub_zero, abs_zero]
    exact div_nonneg (le_max_of_le_right unit.le) (by norm_num)
  · have fine := grain_le positive
    have near := abs_rounded_sub_le x
    linarith

/-- A result that does not overflow. -/
theorem abs_nearest_sub_le (within : |nearest x| < bound) :
    |nearest x - x| ≤ max (|x| / 2 ^ 52) (2 ^ (-1074 : ℤ)) / 2 := by
  have sides : ∀ {x : ℚ}, 0 ≤ x → |nearest x| < bound →
      |nearest x - x| ≤ max (|x| / 2 ^ 52) (2 ^ (-1074 : ℤ)) / 2 := by
    intro x nonneg within
    rw [nearest_of_nonneg nonneg] at within ⊢
    have below : rounded x ≤ bound := by
      by_contra above
      rw [min_eq_right (not_le.mp above).le, abs_of_pos bound_pos] at within
      exact lt_irrefl _ within
    rw [min_eq_left below, abs_of_nonneg nonneg]
    exact abs_rounded_sub_le_max nonneg
  rcases le_total 0 x with nonneg | nonpos
  · exact sides nonneg within
  · have mirrored := sides (x := -x) (by linarith) (by rwa [nearest_neg, abs_neg])
    rw [nearest_neg, abs_neg, ← abs_neg] at mirrored
    convert mirrored using 2
    ring

/-- A whole multiple of a power of two that 53 bits can hold is not rounded. -/
theorem nearest_multiple {k : ℤ} {e : ℤ} (small : |k| < 2 ^ 53) (low : -1074 ≤ e) (high : e ≤ 971) :
    nearest (k * 2 ^ e) = k * 2 ^ e := by
  have natural : ∀ n : ℕ, n < 2 ^ 53 → nearest (n * 2 ^ e) = n * 2 ^ e := by
    intro n few
    have size : (n : ℚ) * 2 ^ e ≤ bound := by
      rw [bound, coarsest]
      exact mul_le_mul (by exact_mod_cast few.le) (two_zpow_le high) (two_zpow_pos e).le
        (by norm_num)
    rw [nearest_of_nonneg (mul_nonneg (Nat.cast_nonneg n) (two_zpow_pos e).le),
      rounded_exact few low, min_eq_left size]
  obtain ⟨n, rfl | rfl⟩ := k.eq_nat_or_neg
  · exact_mod_cast natural n (by simpa using small)
  · push_cast
    rw [neg_mul, nearest_neg, natural n (by simpa using small)]

theorem abs_nearest_lt_bound (small : |x| ≤ bound / 2) : |nearest x| < bound := by
  have half : bound / 2 = ((2 ^ 52 : ℤ) : ℚ) * coarsest := by
    rw [bound]
    push_cast
    ring
  have kept : nearest (bound / 2) = bound / 2 := by
    rw [half]
    exact nearest_multiple (by norm_num) (by norm_num) le_rfl
  obtain ⟨low, high⟩ := abs_le.mp small
  have above := nearest_mono high
  have below := nearest_mono low
  rw [nearest_neg] at below
  rw [kept] at above below
  have positive := bound_pos
  exact abs_lt.mpr ⟨by linarith, by linarith⟩

theorem smallest_le : (2 : ℚ) ^ (-1074 : ℤ) ≤ 1 / 2 ^ 60 := by
  have powers : (2 : ℚ) ^ (-1074 : ℤ) ≤ 2 ^ (-60 : ℤ) := two_zpow_le (by norm_num)
  norm_num at powers ⊢
  exact powers

theorem nearest_near (small : |x| ≤ bound / 2) :
    |nearest x - x| ≤ |x| / 2 ^ 52 + 1 / 2 ^ 60 := by
  have near := abs_nearest_sub_le (abs_nearest_lt_bound small)
  have size : 0 ≤ |x| / 2 ^ 52 := by positivity
  have tiny := smallest_le
  have sum : max (|x| / 2 ^ 52) ((2 : ℚ) ^ (-1074 : ℤ)) ≤ |x| / 2 ^ 52 + 1 / 2 ^ 60 :=
    max_le (by linarith) (by linarith)
  have positive : 0 ≤ max (|x| / 2 ^ 52) ((2 : ℚ) ^ (-1074 : ℤ)) := le_max_of_le_left size
  linarith

/-- A tiny difference is written as it is, and a larger one errs by one part only. -/
theorem sub_near (fa : Scalar.isFinite a = true) (fb : Scalar.isFinite b = true)
    (finite : Scalar.isFinite (a - b) = true) :
    |reading (view (a - b)) - (reading (view a) - reading (view b))| ≤
      |reading (view a) - reading (view b)| / 2 ^ 52 := by
  obtain ⟨-, within⟩ := finite_iff_reading.mp finite
  obtain ⟨-, value⟩ := sub_reading fa fb
  obtain ⟨j, ha⟩ := reading_multiple fa
  obtain ⟨k, hb⟩ := reading_multiple fb
  have unit := two_zpow_pos (-1074)
  rw [value] at within ⊢
  rw [ha, hb, ← sub_mul, ← Int.cast_sub] at within ⊢
  have scaled : |((j - k : ℤ) : ℚ) * 2 ^ (-1074 : ℤ)| = |((j - k : ℤ) : ℚ)| * 2 ^ (-1074 : ℤ) := by
    rw [abs_mul, abs_of_pos unit]
  rcases lt_or_ge |j - k| (2 ^ 53) with small | large
  · rw [nearest_multiple small le_rfl (by norm_num), sub_self, abs_zero]
    positivity
  · have many : (2 : ℚ) ^ 53 ≤ |((j - k : ℤ) : ℚ)| := by exact_mod_cast large
    have size : (2 : ℚ) ^ (-1074 : ℤ) ≤ |((j - k : ℤ) : ℚ) * 2 ^ (-1074 : ℤ)| / 2 ^ 52 := by
      rw [scaled, le_div_iff₀ (by norm_num)]
      nlinarith
    have near := abs_nearest_sub_le within
    rw [max_eq_left size] at near
    have positive : 0 ≤ |((j - k : ℤ) : ℚ) * 2 ^ (-1074 : ℤ)| / 2 ^ 52 := by positivity
    linarith

theorem sub_infinite (infinite : Scalar.isFinite a = false) (fb : Scalar.isFinite b = true) :
    Scalar.isFinite (a - b) = false := by
  have closed : (view b).isFinite = true := fb
  have unbounded : (view a).isFinite = false := infinite
  have same : ∀ u, Canonical u → (view (.ofModel (Float.Model.pack u))).isFinite = u.isFinite :=
    fun u canonical => congrArg UnpackedFloat.isFinite (unpack_pack canonical)
  change (view (.ofModel (Float.Model.pack
    (UnpackedFloat.sub .binary64 (view a) (view b))))).isFinite = false
  cases read : view a with
  | finite s m e positive => simp [read, UnpackedFloat.isFinite] at unbounded
  | zero s => simp [read, UnpackedFloat.isFinite] at unbounded
  | notANumber => exact same .notANumber trivial
  | infinity s =>
    cases read' : view b with
    | finite t n e positive => exact same (.infinity s) trivial
    | zero t => exact same (.infinity s) trivial
    | notANumber => simp [read', UnpackedFloat.isFinite] at closed
    | infinity t => simp [read', UnpackedFloat.isFinite] at closed

/-- A whole number that 53 bits can hold is a number. -/
theorem exists_whole {n : ℤ} (small : |n| < 2 ^ 53) :
    ∃ v : Float, Scalar.isFinite v = true ∧ reading (view v) = n := by
  obtain ⟨number, value⟩ := of_writes (normalize_writes n 0 .positive)
  rw [nearest_multiple small (by norm_num) (by norm_num), zpow_zero, mul_one] at value
  refine ⟨_, finite_iff_reading.mpr ⟨number, ?_⟩, value⟩
  have size : (|n| : ℚ) < 2 ^ 53 := by exact_mod_cast small
  have coarse := le_coarsest
  rw [value, bound]
  linarith

/-- Behind a whole number that leaves some of the 53 bits there is a number close by. -/
theorem nextUp_near {n : ℤ} (digits : ℕ) (finite : Scalar.isFinite v = true)
    (whole : reading (view v) = n) (small : |n * 2 ^ digits + 1| < 2 ^ 53) (few : digits ≤ 53) :
    reading (view (nextUp v)) ≤ n + 1 / 2 ^ digits := by
  have place : ((n * 2 ^ digits + 1 : ℤ) : ℚ) * 2 ^ (-digits : ℤ) = n + 1 / 2 ^ digits := by
    push_cast
    rw [zpow_neg, zpow_natCast, add_mul, mul_assoc, mul_inv_cancel₀ (by positivity), mul_one,
      one_mul, one_div]
  obtain ⟨isNumber, value⟩ := of_writes (normalize_writes (n * 2 ^ digits + 1) (-digits) .positive)
  rw [nearest_multiple small (by omega) (by omega), place] at value
  refine ((nextUp_follows finite).2.2 _ isNumber ?_).trans_eq value
  rw [whole, value]
  exact lt_add_of_pos_right _ (by positivity)

/-- The number that the bits of a positive literal say. -/
theorem reading_positive (m : ℕ) (e : ℤ) (positive : 0 < m)
    (read : view v = .finite .positive m e positive) : reading (view v) = m * 2 ^ e := by
  rw [read, reading, signed, one_mul]

end Vivarium.Binary64

namespace Vivarium
open Binary64 Scalar

instance : Precise Float where
  nearest_near := Binary64.nearest_near
  sub_near := Binary64.sub_near
  sub_infinite := Binary64.sub_infinite
  nextUp_near := by
    intro v n number (whole : reading (view v) = n) small
    have size : (|n| : ℚ) ≤ 1000 := by exact_mod_cast small
    have coarse := le_coarsest
    have finite : Scalar.isFinite v = true :=
      finite_iff_reading.mpr ⟨number, by rw [whole, bound]; linarith⟩
    obtain ⟨low, high⟩ := abs_le.mp small
    exact Binary64.nextUp_near 43 finite whole (abs_lt.mpr ⟨by omega, by omega⟩) (by norm_num)
  tolerance_near := by
    have value := reading_positive (v := Segment.cornerTolerance) 4951760157141521 (-92)
      (by norm_num) (by rfl)
    exact value.trans_le (by norm_num)

namespace Binary64
open Rounded

theorem level_half : level (0.5 : Float) = 1 / 2 :=
  (reading_positive (2 ^ 52) (-53) (by norm_num) (by rfl)).trans (by norm_num)

theorem level_quarter : level (0.25 : Float) = 1 / 4 :=
  (reading_positive (2 ^ 52) (-54) (by norm_num) (by rfl)).trans (by norm_num)

theorem level_three_halves : level (1.5 : Float) = 3 / 2 :=
  (reading_positive (3 * 2 ^ 51) (-52) (by norm_num) (by rfl)).trans (by norm_num)

end Binary64
end Vivarium
