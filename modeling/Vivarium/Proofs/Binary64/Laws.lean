import Vivarium.Proofs.Binary64.NextUp

/-! Binary64 numbers are rounded scalars. -/
namespace Vivarium.Binary64
open Scalar

theorem ofNat_isFinite {n : ℕ} (small : n < UInt32.size) :
    Scalar.isFinite (Scalar.ofNat n : Float) = true := by
  obtain ⟨number, value⟩ := ofNat_reading small
  refine finite_iff_reading.mpr ⟨number, ?_⟩
  have size : (n : ℚ) < 2 ^ 32 := by exact_mod_cast small
  have coarse := le_coarsest
  rw [value, Nat.abs_cast, bound]
  linarith

theorem nearest_half {n : ℕ} (small : n < 2 ^ 53) : nearest (n / 2) = n / 2 := by
  have kept := rounded_exact (e := -1) small (by norm_num)
  have size : (n : ℚ) < 2 ^ 53 := by exact_mod_cast small
  have coarse := le_coarsest
  have half : (n : ℚ) * 2 ^ (-1 : ℤ) = n / 2 := by norm_num [div_eq_mul_inv]
  have nonneg : (0 : ℚ) ≤ n / 2 := div_nonneg (Nat.cast_nonneg n) (by norm_num)
  rw [half] at kept
  rw [nearest_of_nonneg nonneg, kept, min_eq_left]
  rw [bound]
  linarith

/-- Between two whole numbers there is another number. -/
theorem exists_between {n : ℕ} (small : n < UInt32.size) :
    ∃ a : Float, IsNumber a ∧ (n : ℚ) < reading (view a) ∧ reading (view a) < n + 1 := by
  have one := ofNat_reading (n := 1) (by decide)
  have two := ofNat_reading (n := 2) (by decide)
  obtain ⟨halfNumber, half⟩ := div_reading (ofNat_isFinite (n := 1) (by decide))
    (ofNat_isFinite (n := 2) (by decide)) (by rw [two.2]; norm_num)
  have halfExact := nearest_half (n := 1) (by norm_num)
  rw [Nat.cast_one] at halfExact
  rw [one.2, two.2, Nat.cast_one, Nat.cast_ofNat, halfExact] at half
  have halfFinite : Scalar.isFinite (Scalar.ofNat 1 / Scalar.ofNat 2 : Float) = true := by
    refine finite_iff_reading.mpr ⟨halfNumber, ?_⟩
    have coarse := le_coarsest
    rw [half, abs_of_pos (show (0 : ℚ) < 1 / 2 by norm_num), bound]
    linarith
  obtain ⟨number, sum⟩ := add_reading (ofNat_isFinite small) halfFinite
  have value : (n : ℚ) + 1 / 2 = (2 * n + 1 : ℕ) / 2 := by
    push_cast
    ring
  have narrow : UInt32.size = 2 ^ 32 := rfl
  rw [(ofNat_reading small).2, half, value, nearest_half (by omega), ← value] at sum
  exact ⟨_, number, by linarith, by linarith⟩

end Vivarium.Binary64

namespace Vivarium
open Binary64 Scalar

instance : Rounded Float where
  level v := reading (view v)
  bound := Binary64.bound
  nearest := Binary64.nearest
  nearest_mono := Binary64.nearest_mono
  nearest_level := nearest_reading
  le_iff := le_iff_level
  lt_iff := lt_iff_level
  beq_iff := beq_iff_level
  finite_iff := finite_iff_reading
  size_lt_bound := by
    have coarse := le_coarsest
    norm_num [Binary64.bound, UInt32.size]
    linarith
  ofNat_spec := ofNat_reading
  wholePart_eq := wholePart_reading
  neg_spec := neg_reading
  add_spec := add_reading
  sub_spec := sub_reading
  mul_spec := mul_reading
  div_spec := div_reading
  add_number := add_isNumber
  eq_of_nearest_sub := eq_of_nearest_sub
  sub_finite := sub_isFinite
  nextUp_spec := nextUp_follows
  exists_between := Binary64.exists_between
  tolerance_spec := by
    have number : IsNumber (Segment.cornerTolerance : Float) := by rfl
    have word : (Segment.cornerTolerance : Float).toBits = 0x3D719799812DEA11 := by rfl
    have oneWord : (Scalar.ofNat 1 : Float).toBits = 0x3FF0000000000000 := by rfl
    obtain ⟨oneNumber, one⟩ := ofNat_reading (n := 1) (by decide)
    obtain ⟨-, -, unit⟩ := bits_of_pos oneNumber (by rw [one]; norm_num)
    obtain ⟨-, value⟩ := bits_reading number
    rw [word, if_pos (by decide), one_mul] at value
    refine ⟨number, ?_, ?_⟩
    · rw [value]
      exact sizeOf_nonneg _
    · rw [one, oneWord, Nat.cast_one] at unit
      rw [value, unit]
      exact sizeOf_strictMono.monotone (by decide)

end Vivarium
