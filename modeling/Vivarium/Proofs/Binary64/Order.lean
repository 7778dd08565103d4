import Vivarium.Proofs.Binary64.Reading

/-! Numbers compare as their readings do: in canonical form a larger exponent outweighs every
significand. -/
namespace Vivarium.Binary64
open Float.Model Float.Model.UnpackedFloat

theorem size_pos {m : ℕ} (positive : 0 < m) (e : ℤ) : (0 : ℚ) < m * 2 ^ e :=
  mul_pos (by exact_mod_cast positive) (two_zpow_pos e)

theorem Fits.size_lt {m : ℕ} {e : ℤ} (fits : Fits m e) : (m : ℚ) * 2 ^ e < 2 ^ (53 + e) := by
  rw [zpow_add₀ (by norm_num)]
  exact mul_lt_mul_of_pos_right (by exact_mod_cast fits.bits) (two_zpow_pos e)

theorem Fits.size_lt_bound {m : ℕ} {e : ℤ} (fits : Fits m e) (small : e ≤ 971) :
    (m : ℚ) * 2 ^ e < bound := by
  apply fits.size_lt.trans_le
  rw [bound, two_pow_mul_coarsest]
  exact two_zpow_le (by push_cast; omega)

theorem Fits.size_lt_of_exponent {m n : ℕ} {d e : ℤ} (first : Fits m d) (second : Fits n e)
    (less : d < e) : (m : ℚ) * 2 ^ d < n * 2 ^ e := by
  have full : 2 ^ 52 ≤ n := by
    rcases second.full with low | full
    · have := first.low
      omega
    · exact full
  calc (m : ℚ) * 2 ^ d
    _ < 2 ^ (53 + d) := first.size_lt
    _ ≤ 2 ^ (52 + e) := two_zpow_le (by omega)
    _ = 2 ^ 52 * 2 ^ e := by rw [zpow_add₀ (by norm_num)]; norm_cast
    _ ≤ n * 2 ^ e := mul_le_mul_of_nonneg_right (by exact_mod_cast full) (two_zpow_pos e).le

/-- Sizes compare by exponent first and significand second. -/
theorem Fits.compare_size {m n : ℕ} {d e : ℤ} (first : Fits m d) (second : Fits n e) :
    (compare d e).then (compare m n) = cmp ((m : ℚ) * 2 ^ d) (n * 2 ^ e) := by
  rcases lt_trichotomy d e with less | rfl | more
  · have sizes := first.size_lt_of_exponent second less
    rw [compare_lt_iff_lt.mpr less, (cmp_eq_lt_iff _ _).mpr sizes]
    rfl
  · rw [compare_eq_iff_eq.mpr rfl]
    have scale := two_zpow_pos d
    rcases lt_trichotomy m n with less | rfl | more
    · have sizes := mul_lt_mul_of_pos_right (Nat.cast_lt (α := ℚ).mpr less) scale
      rw [compare_lt_iff_lt.mpr less, (cmp_eq_lt_iff _ _).mpr sizes]
      rfl
    · rw [compare_eq_iff_eq.mpr rfl, (cmp_eq_eq_iff _ _).mpr rfl]
      rfl
    · have sizes := mul_lt_mul_of_pos_right (Nat.cast_lt (α := ℚ).mpr more) scale
      rw [compare_gt_iff_gt.mpr more, (cmp_eq_gt_iff _ _).mpr sizes]
      rfl
  · have sizes := second.size_lt_of_exponent first more
    rw [compare_gt_iff_gt.mpr more, (cmp_eq_gt_iff _ _).mpr sizes]
    rfl

theorem compare_eq_cmp {u w : UnpackedFloat} (hu : Canonical u) (hw : Canonical w)
    (nu : u ≠ .notANumber) (nw : w ≠ .notANumber) :
    u.compare w = some (cmp (reading u) (reading w)) := by
  have top := bound_pos
  have less {x y : ℚ} (h : x < y) : some .lt = some (cmp x y) :=
    congrArg some ((cmp_eq_lt_iff x y).mpr h).symm
  have more {x y : ℚ} (h : y < x) : some .gt = some (cmp x y) :=
    congrArg some ((cmp_eq_gt_iff x y).mpr h).symm
  have equal (x : ℚ) : some .eq = some (cmp x x) :=
    congrArg some ((cmp_eq_eq_iff x x).mpr rfl).symm
  cases u with
  | notANumber => contradiction
  | infinity s =>
    cases w with
    | notANumber => contradiction
    | infinity t =>
      cases s <;> cases t
      · exact equal _
      · exact less (by simp only [reading, signed]; linarith)
      · exact more (by simp only [reading, signed]; linarith)
      · exact equal _
    | zero t =>
      cases s
      · exact less (by simp only [reading, signed]; linarith)
      · exact more (by simp only [reading, signed]; linarith)
    | finite t n e pos =>
      have size := size_pos pos e
      have small := hw.1.size_lt_bound hw.2
      cases s
      · exact less (by cases t <;> simp only [reading, signed] <;> linarith)
      · exact more (by cases t <;> simp only [reading, signed] <;> linarith)
  | zero s =>
    cases w with
    | notANumber => contradiction
    | infinity t =>
      cases t
      · exact more (by simp only [reading, signed]; linarith)
      · exact less (by simp only [reading, signed]; linarith)
    | zero t => exact equal 0
    | finite t n e pos =>
      have size := size_pos pos e
      cases t
      · exact more (by simp only [reading, signed]; linarith)
      · exact less (by simp only [reading, signed]; linarith)
  | finite s m d pos =>
    have size := size_pos pos d
    have small := hu.1.size_lt_bound hu.2
    cases w with
    | notANumber => contradiction
    | infinity t =>
      cases t
      · exact more (by cases s <;> simp only [reading, signed] <;> linarith)
      · exact less (by cases s <;> simp only [reading, signed] <;> linarith)
    | zero t =>
      cases s
      · exact less (by simp only [reading, signed]; linarith)
      · exact more (by simp only [reading, signed]; linarith)
    | finite t n e pos' =>
      have size' := size_pos pos' e
      have sizes := hu.1.compare_size hw.1
      cases s <;> cases t
      · change some ((compare d e).then (compare m n)).swap = _
        simp only [sizes, cmp_swap, reading, signed, neg_one_mul]
        have reverses : StrictAnti (Neg.neg : ℚ → ℚ) := fun _ _ h => neg_lt_neg h
        exact congrArg some (reverses.cmp_map_eq _ _).symm
      · exact less (by simp only [reading, signed]; linarith)
      · exact more (by simp only [reading, signed]; linarith)
      · change some ((compare d e).then (compare m n)) = _
        simp only [sizes, reading, signed, one_mul]

variable {u w : UnpackedFloat}

theorem abs_reading_finite (s : Sign) {m : ℕ} (positive : 0 < m) (e : ℤ) :
    |reading (.finite s m e positive)| = m * 2 ^ e := by
  cases s <;> simp [reading, signed, abs_of_pos (two_zpow_pos e)]

theorem isFinite_iff_reading (hu : Canonical u) :
    u.isFinite = true ↔ u ≠ .notANumber ∧ |reading u| < bound := by
  have positive := bound_pos
  cases u with
  | notANumber => simp [UnpackedFloat.isFinite]
  | infinity s => cases s <;> simp [UnpackedFloat.isFinite, reading, signed, abs_of_pos positive]
  | zero s => simp [UnpackedFloat.isFinite, reading, positive]
  | finite s m e pos =>
    rw [abs_reading_finite]
    simp [UnpackedFloat.isFinite, hu.1.size_lt_bound hu.2]

theorem lt_iff_reading (hu : Canonical u) (hw : Canonical w) :
    u.lt w = true ↔ u ≠ .notANumber ∧ w ≠ .notANumber ∧ reading u < reading w := by
  by_cases nu : u = .notANumber
  · subst nu
    simp [UnpackedFloat.lt, UnpackedFloat.compare]
  · by_cases nw : w = .notANumber
    · subst nw
      cases u <;> simp [UnpackedFloat.lt, UnpackedFloat.compare]
    · simp [UnpackedFloat.lt, compare_eq_cmp hu hw nu nw, nu, nw, cmp_eq_lt_iff]

theorem beq_iff_reading (hu : Canonical u) (hw : Canonical w) :
    u.beq w = true ↔ u ≠ .notANumber ∧ w ≠ .notANumber ∧ reading u = reading w := by
  by_cases nu : u = .notANumber
  · subst nu
    simp [UnpackedFloat.beq, UnpackedFloat.compare]
  · by_cases nw : w = .notANumber
    · subst nw
      cases u <;> simp [UnpackedFloat.beq, UnpackedFloat.compare]
    · simp [UnpackedFloat.beq, compare_eq_cmp hu hw nu nw, nu, nw, cmp_eq_eq_iff]

theorem le_iff_reading (hu : Canonical u) (hw : Canonical w) :
    u.le w = true ↔ u ≠ .notANumber ∧ w ≠ .notANumber ∧ reading u ≤ reading w := by
  by_cases nu : u = .notANumber
  · subst nu
    simp [UnpackedFloat.le, UnpackedFloat.compare]
  · by_cases nw : w = .notANumber
    · subst nw
      cases u <;> simp [UnpackedFloat.le, UnpackedFloat.compare]
    · rw [UnpackedFloat.le, compare_eq_cmp hu hw nu nw, Option.any_some,
        Ordering.isLE_iff_ne_gt, ne_eq, cmp_eq_gt_iff, not_lt]
      simp only [ne_eq, nu, nw, not_false_eq_true, true_and]

end Vivarium.Binary64
