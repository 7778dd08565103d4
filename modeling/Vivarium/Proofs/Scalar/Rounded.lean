import Mathlib.Algebra.Order.Floor.Semiring
import Mathlib.Data.Rat.Floor
import Vivarium.Route.Segment

/-! Scalars that stand for rational numbers and are computed with by rounding. Every result is the
exact one, rounded by one monotone function that leaves what can be written as it is; comparisons
and whole numbers below `2 ^ 32` are exact. Routing needs nothing else of its numbers. -/
namespace Vivarium

/-- All but what is no number equals itself. -/
def Scalar.IsNumber {F : Type} [Scalar F] (a : F) : Prop := (a == a) = true

instance {F : Type} [Scalar F] (a : F) : Decidable (Scalar.IsNumber a) :=
  inferInstanceAs (Decidable ((a == a) = true))

open Scalar

class Rounded (F : Type) [Scalar F] where
  /-- The number that a scalar stands for. An infinite scalar stands for the bound on its side. -/
  level : F → ℚ
  /-- What no finite scalar reaches. -/
  bound : ℚ
  nearest : ℚ → ℚ
  nearest_mono : Monotone nearest
  nearest_level : ∀ {a : F}, IsNumber a → nearest (level a) = level a
  le_iff : ∀ {a b : F}, a ≤ b ↔ IsNumber a ∧ IsNumber b ∧ level a ≤ level b
  lt_iff : ∀ {a b : F}, a < b ↔ IsNumber a ∧ IsNumber b ∧ level a < level b
  beq_iff : ∀ {a b : F}, (a == b) = true ↔ IsNumber a ∧ IsNumber b ∧ level a = level b
  finite_iff : ∀ {a : F}, isFinite a = true ↔ IsNumber a ∧ |level a| < bound
  size_lt_bound : (UInt32.size : ℚ) < bound
  ofNat_spec : ∀ {n : Nat}, n < UInt32.size → IsNumber (ofNat n : F) ∧ level (ofNat n : F) = n
  wholePart_eq : ∀ {a : F}, IsNumber a → 0 ≤ level a → level a < UInt32.size →
    wholePart a = ⌊level a⌋₊
  neg_spec : ∀ {a : F}, IsNumber a → IsNumber (-a) ∧ level (-a) = -level a
  add_spec : ∀ {a b : F}, isFinite a = true → isFinite b = true →
    IsNumber (a + b) ∧ level (a + b) = nearest (level a + level b)
  sub_spec : ∀ {a b : F}, isFinite a = true → isFinite b = true →
    IsNumber (a - b) ∧ level (a - b) = nearest (level a - level b)
  mul_spec : ∀ {a b : F}, isFinite a = true → isFinite b = true →
    IsNumber (a * b) ∧ level (a * b) = nearest (level a * level b)
  div_spec : ∀ {a b : F}, isFinite a = true → isFinite b = true → level b ≠ 0 →
    IsNumber (a / b) ∧ level (a / b) = nearest (level a / level b)
  /-- A sum with an infinite scalar is infinite. -/
  add_number : ∀ {a b : F}, isFinite a = true → IsNumber b → IsNumber (a + b)
  /-- Differences do not vanish by rounding. -/
  eq_of_nearest_sub : ∀ {a b : F}, isFinite a = true → isFinite b = true →
    nearest (level a - level b) = 0 → level a = level b
  /-- Next to a number with 32 bits before the point none is so large that it overflows. -/
  sub_finite : ∀ {a b : F}, isFinite a = true → IsNumber b → 0 ≤ level b →
    level b < UInt32.size → isFinite (a - b) = true
  nextUp_spec : ∀ {a : F}, isFinite a = true →
    IsNumber (nextUp a) ∧ level a < level (nextUp a) ∧
      ∀ b : F, IsNumber b → level a < level b → level (nextUp a) ≤ level b
  exists_between : ∀ {n : Nat}, n < UInt32.size →
    ∃ a : F, IsNumber a ∧ (n : ℚ) < level a ∧ level a < n + 1
  tolerance_spec : IsNumber (Segment.cornerTolerance : F) ∧
    0 ≤ level (Segment.cornerTolerance : F) ∧ level (Segment.cornerTolerance : F) ≤ 1

namespace Rounded
variable {F : Type} [Scalar F] [Rounded F] {a b : F}

theorem finite_number (finite : isFinite a = true) : IsNumber a := (finite_iff.mp finite).1

theorem number_finite (number : IsNumber a) (low : 0 ≤ level a) (high : level a < UInt32.size) :
    isFinite a = true := by
  have wide := size_lt_bound (F := F)
  exact finite_iff.mpr ⟨number, abs_lt.mpr ⟨by linarith, by linarith⟩⟩

theorem finite_ofNat {n : Nat} (small : n < UInt32.size) : isFinite (ofNat n : F) = true := by
  obtain ⟨number, level⟩ := ofNat_spec (F := F) small
  have exact : (n : ℚ) < UInt32.size := by exact_mod_cast small
  exact number_finite number (by rw [level]; positivity) (by rwa [level])

theorem lt_asymm (less : a < b) : ¬b < a := by
  intro more
  rw [lt_iff] at less more
  linarith [less.2.2, more.2.2]

theorem level_zero : level (zero : F) = 0 := by
  simpa [zero] using (ofNat_spec (F := F) (n := 0) (by decide)).2

theorem number_zero : IsNumber (zero : F) := (ofNat_spec (F := F) (n := 0) (by decide)).1

theorem level_one : level (one : F) = 1 := by
  simpa [one] using (ofNat_spec (F := F) (n := 1) (by decide)).2

theorem number_one : IsNumber (one : F) := (ofNat_spec (F := F) (n := 1) (by decide)).1

theorem finite_one : isFinite (one : F) = true := finite_ofNat (by decide)

theorem nearest_nat {n : Nat} (small : n < UInt32.size) : nearest F (n : ℚ) = n := by
  obtain ⟨number, level⟩ := ofNat_spec (F := F) small
  rw [← level, nearest_level number]

theorem nearest_zero : nearest F (0 : ℚ) = 0 := by
  simpa using nearest_nat (F := F) (n := 0) (by decide)

theorem nearest_one : nearest F (1 : ℚ) = 1 := by
  simpa using nearest_nat (F := F) (n := 1) (by decide)

theorem nearest_nonneg {x : ℚ} (h : 0 ≤ x) : 0 ≤ nearest F x := by
  have mono := nearest_mono (F := F) h
  rwa [nearest_zero] at mono

theorem nearest_nonpos {x : ℚ} (h : x ≤ 0) : nearest F x ≤ 0 := by
  have mono := nearest_mono (F := F) h
  rwa [nearest_zero] at mono

theorem nearest_le_one {x : ℚ} (h : x ≤ 1) : nearest F x ≤ 1 := by
  have mono := nearest_mono (F := F) h
  rwa [nearest_one] at mono

theorem one_le_nearest {x : ℚ} (h : 1 ≤ x) : 1 ≤ nearest F x := by
  have mono := nearest_mono (F := F) h
  rwa [nearest_one] at mono

/-- The low end of the next tile. -/
theorem add_one_spec {n : Nat} (small : n + 1 < UInt32.size) :
    isFinite (ofNat n + one : F) = true ∧ level (ofNat n + one : F) = n + 1 := by
  obtain ⟨number, sum⟩ := add_spec (finite_ofNat (F := F) (n := n) (by omega)) finite_one
  have value : level (ofNat n + one : F) = n + 1 := by
    rw [sum, (ofNat_spec (by omega)).2, level_one]
    exact_mod_cast nearest_nat (F := F) small
  have exact : (n : ℚ) + 1 < UInt32.size := by exact_mod_cast small
  exact ⟨number_finite number (by rw [value]; positivity) (by rwa [value]), value⟩

theorem larger_spec (ha : IsNumber a) (hb : IsNumber b) :
    IsNumber (larger a b) ∧ level (larger a b) = max (level a) (level b) := by
  rw [larger]
  split
  · rename_i less
    obtain ⟨-, -, less⟩ := lt_iff.mp less
    exact ⟨hb, (max_eq_right less.le).symm⟩
  · rename_i notLess
    have above : level b ≤ level a := by
      by_contra below
      exact notLess (lt_iff.mpr ⟨ha, hb, by linarith⟩)
    have itself : (a == a) = true := ha
    rw [if_pos itself]
    exact ⟨ha, (max_eq_left above).symm⟩

theorem smaller_spec (ha : IsNumber a) (hb : IsNumber b) :
    IsNumber (smaller a b) ∧ level (smaller a b) = min (level a) (level b) := by
  rw [smaller]
  split
  · rename_i less
    obtain ⟨-, -, less⟩ := lt_iff.mp less
    exact ⟨hb, (min_eq_right less.le).symm⟩
  · rename_i notLess
    have below : level a ≤ level b := by
      by_contra above
      exact notLess (lt_iff.mpr ⟨hb, ha, by linarith⟩)
    have itself : (a == a) = true := ha
    rw [if_pos itself]
    exact ⟨ha, (min_eq_left below).symm⟩

theorem abs_spec (number : IsNumber a) :
    IsNumber (Scalar.abs a) ∧ level (Scalar.abs a) = |level a| := by
  rw [Scalar.abs]
  split
  · rename_i less
    obtain ⟨-, -, less⟩ := lt_iff.mp less
    rw [level_zero] at less
    obtain ⟨negated, value⟩ := neg_spec number
    exact ⟨negated, by rw [value, abs_of_neg less]⟩
  · rename_i notLess
    have above : 0 ≤ level a := by
      by_contra below
      exact notLess (lt_iff.mpr ⟨number, number_zero, by rw [level_zero]; linarith⟩)
    exact ⟨number, (abs_of_nonneg above).symm⟩

/-- What is subtracted from its like vanishes. -/
theorem sub_of_level_eq (ha : isFinite a = true) (hb : isFinite b = true)
    (same : level a = level b) : IsNumber (a - b) ∧ level (a - b) = 0 := by
  obtain ⟨number, value⟩ := sub_spec ha hb
  exact ⟨number, by rw [value, same, sub_self, nearest_zero]⟩

end Rounded
end Vivarium
