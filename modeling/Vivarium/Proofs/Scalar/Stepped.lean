import Vivarium.Proofs.Binary64.Precision
import Vivarium.Proofs.Scalar.Exact

/-! Exact arithmetic with the steps of binary64 numbers: sums, products and quotients are those of the
rational numbers, and the number next to another one is the next binary64 number. Near whole numbers the
steps are small as long as the whole numbers leave some of the 53 bits. -/
namespace Vivarium.Exact
open Binary64 Rounded Scalar

/-- The binary64 numbers above a number. -/
def above (q : ℚ) : Set ℚ := {r | q < r ∧ ∃ v : Float, IsNumber v ∧ level v = r}

/-- Exact arithmetic that steps to the least binary64 number above. -/
@[reducible]
noncomputable def binary64 : Exact where
  nextUp q := Classical.epsilon (IsLeast (above q))
  pi := level (Scalar.pi : Float)

theorem binary64_of_follows {v w : Float} (follows : Follows v w) :
    binary64.nextUp (level v) = level w := by
  obtain ⟨number, more, least⟩ := follows
  have first : IsLeast (above (level v)) (level w) := by
    refine ⟨⟨more, w, number, rfl⟩, ?_⟩
    rintro r ⟨later, b, isNumber, rfl⟩
    exact least b isNumber later
  exact (Classical.epsilon_spec ⟨_, first⟩).unique first

/-- From a binary64 number it steps as the program does. -/
theorem binary64_nextUp {v : Float} (finite : Scalar.isFinite v = true) :
    binary64.nextUp (level v) = level (Scalar.nextUp v) := binary64_of_follows (nextUp_follows finite)

/-- Up to a power of two, steps past whole numbers fit into the bits that are left. -/
theorem binary64_steps {e : ℕ} (few : e ≤ 52) : @Steps binary64 (2 ^ e) (1 / 2 ^ (53 - e)) := by
  have power : (2 : ℤ) ^ e * 2 ^ (53 - e) = 2 ^ 53 := by
    rw [← pow_add]
    congr 1
    omega
  have some : (2 : ℤ) ≤ 2 ^ (53 - e) := by
    have two : (2 : ℤ) ^ 1 ≤ 2 ^ (53 - e) := pow_le_pow_right₀ (by norm_num) (by omega)
    rwa [pow_one] at two
  have more : (2 : ℤ) ^ e ≤ 2 ^ 52 := pow_le_pow_right₀ (by norm_num) few
  have whole : ∀ n : ℤ, -(2 ^ e : ℕ) ≤ n → n < (2 ^ e : ℕ) →
      ∃ v : Float, Scalar.isFinite v = true ∧ level v = n := by
    intro n low high
    push_cast at low high
    exact exists_whole (abs_lt.mpr ⟨by linarith, by linarith⟩)
  refine @Steps.mk binary64 _ _ ?_ ?_
  · intro n low high
    obtain ⟨v, finite, value⟩ := whole n low high
    rw [← value, binary64_nextUp finite]
    exact (nextUp_follows finite).2.1
  · intro n low high
    obtain ⟨v, finite, value⟩ := whole n low high
    rw [← value, binary64_nextUp finite, value]
    push_cast at low high
    have below : -(2 : ℤ) ^ 53 ≤ n * 2 ^ (53 - e) := by
      rw [← power, ← neg_mul]
      exact mul_le_mul_of_nonneg_right low (by positivity)
    have next : (n + 1) * 2 ^ (53 - e) ≤ (2 : ℤ) ^ 53 := by
      rw [← power]
      exact mul_le_mul_of_nonneg_right (by linarith) (by positivity)
    rw [add_mul, one_mul] at next
    exact nextUp_near (53 - e) finite value (abs_lt.mpr ⟨by linarith, by linarith⟩) (Nat.sub_le _ _)

/-- Behind the whole numbers that leave fewer bits the steps are longer. -/
theorem binary64_nextDown_wide :
    letI := binary64
    Scalar.nextDown (8388609 : ℚ) = 8388609 - 1 / 2 ^ 29 := by
  have reads : level (-8388609.0 : Float) = -8388609 := by
    have read : view (-8388609.0) = .finite .negative (2 ^ 52 + 2 ^ 29) (-29) (by norm_num) := by rfl
    show reading (view _) = _
    rw [read, reading, signed]
    norm_num
  have next : level (Float.ofBits ((-8388609.0 : Float).toBits - 1)) = -(8388609 - 1 / 2 ^ 29) := by
    have read : view (.ofBits ((-8388609.0 : Float).toBits - 1)) =
        .finite .negative (2 ^ 52 + 2 ^ 29 - 1) (-29) (by norm_num) := by
      rw [view_ofBits]
      rfl
    show reading (view _) = _
    rw [read, reading, signed]
    norm_num
  have finite : Scalar.isFinite (-8388609.0 : Float) = true := by rfl
  have step := binary64_of_follows (follows_of_neg finite (reads.trans_lt (by norm_num)))
  rw [reads, next] at step
  exact neg_eq_iff_eq_neg.mpr step

end Vivarium.Exact
