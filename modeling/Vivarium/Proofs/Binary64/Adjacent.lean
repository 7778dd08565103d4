import Vivarium.Proofs.Binary64.Order

/-! The bits of numbers in their order. Apart from the sign, bit patterns in ascending order stand
for numbers in ascending order, from zero through the finite ones to infinity, so the next pattern is
the adjacent number. -/
namespace Vivarium.Binary64
open Float.Model Float.Model.UnpackedFloat

/-- The size that bits without a sign stand for, in units of `2 ^ -1074`. -/
def units (n : ℕ) : ℕ :=
  if n / 2 ^ 52 = 0 then n % 2 ^ 52 else (n % 2 ^ 52 + 2 ^ 52) * 2 ^ (n / 2 ^ 52 - 1)

/-- The bits of infinity. -/
def infinite : ℕ := 2047 * 2 ^ 52

theorem units_lt_succ (n : ℕ) : units n < units (n + 1) := by
  simp only [units]
  by_cases carry : (n + 1) % 2 ^ 52 = 0
  · have up : (n + 1) / 2 ^ 52 = n / 2 ^ 52 + 1 := by omega
    have last : n % 2 ^ 52 = 2 ^ 52 - 1 := by omega
    rw [up, carry, last, if_neg (show ¬n / 2 ^ 52 + 1 = 0 by omega), Nat.add_sub_cancel]
    split
    · rename_i zero
      rw [zero]
      norm_num
    · rename_i nonzero
      obtain ⟨k, same⟩ := Nat.exists_eq_succ_of_ne_zero nonzero
      rw [same, Nat.succ_eq_add_one, Nat.add_sub_cancel, pow_succ]
      have positive : 0 < 2 ^ k := Nat.two_pow_pos k
      omega
  · have same : (n + 1) / 2 ^ 52 = n / 2 ^ 52 := by omega
    have next : (n + 1) % 2 ^ 52 = n % 2 ^ 52 + 1 := by omega
    rw [same, next]
    split
    · omega
    · exact Nat.mul_lt_mul_of_pos_right (by omega) (Nat.two_pow_pos _)

theorem units_strictMono : StrictMono units := strictMono_nat_of_lt_succ units_lt_succ

theorem units_normal {n : ℕ} (normal : n / 2 ^ 52 ≠ 0) :
    (units n : ℚ) * 2 ^ (-1074 : ℤ) =
      (2 ^ 52 + n % 2 ^ 52 : ℕ) * 2 ^ ((n / 2 ^ 52 : ℕ) - 1075 : ℤ) := by
  have exponent : ((n / 2 ^ 52 - 1 : ℕ) : ℤ) + -1074 = (n / 2 ^ 52 : ℕ) - 1075 := by omega
  rw [units, if_neg normal, ← exponent, zpow_add₀ (by norm_num), zpow_natCast, Nat.cast_mul,
    Nat.cast_pow, Nat.cast_ofNat, mul_assoc, add_comm]

theorem units_infinite : (units infinite : ℚ) * 2 ^ (-1074 : ℤ) = bound := by
  have exponent : infinite / 2 ^ 52 = 2047 := by decide
  have fraction : infinite % 2 ^ 52 = 0 := by decide
  rw [units_normal (by rw [exponent]; decide), exponent, fraction, bound, two_pow_mul_coarsest,
    Nat.add_zero, Nat.cast_pow, Nat.cast_ofNat, ← zpow_natCast, ← zpow_add₀ (by norm_num)]
  norm_num

/-- Bits taken apart. -/
theorem toNat_fields (b : BitVec 64) :
    (@unpackExponent .binary64 b).toNat = b.toNat / 2 ^ 52 % 2 ^ 11 ∧
      (@unpackMantissa .binary64 b).toNat = b.toNat % 2 ^ 52 ∧
      Sign.ofBitVec (@unpackSign .binary64 b) =
        if b.toNat < 2 ^ 63 then .positive else .negative := by
  have wide := b.isLt
  refine ⟨?_, ?_, ?_⟩
  · simp [unpackExponent, Nat.shiftRight_eq_div_pow]
  · simp [unpackMantissa]
  · have bit : (@unpackSign .binary64 b).toNat = b.toNat / 2 ^ 63 := by
      simp only [unpackSign, BitVec.toNat_cast, BitVec.extractLsb_toNat, Nat.shiftRight_eq_div_pow]
      omega
    have zero : @unpackSign .binary64 b = 0#1 ↔ b.toNat < 2 ^ 63 := by
      rw [← BitVec.toNat_inj, bit, BitVec.toNat_ofNat]
      omega
    simp only [Sign.ofBitVec, zero]

/-- The size that bits without a sign stand for. -/
def sizeOf (n : ℕ) : ℚ := units n * 2 ^ (-1074 : ℤ)

theorem sizeOf_strictMono : StrictMono sizeOf := fun _ _ less =>
  mul_lt_mul_of_pos_right (Nat.cast_lt.mpr (units_strictMono less)) (two_zpow_pos _)

theorem sizeOf_zero : sizeOf 0 = 0 := by
  have none : units 0 = 0 := by decide
  rw [sizeOf, none, Nat.cast_zero, zero_mul]

theorem sizeOf_nonneg (n : ℕ) : 0 ≤ sizeOf n := by
  rw [← sizeOf_zero]
  exact sizeOf_strictMono.monotone (Nat.zero_le n)

/-- The number that bits stand for, by their sign and their size. -/
theorem reading_unpack (b : BitVec 64)
    (number : UnpackedFloat.unpack .binary64 b ≠ .notANumber) :
    b.toNat % 2 ^ 63 ≤ infinite ∧
      reading (UnpackedFloat.unpack .binary64 b) =
        (if b.toNat < 2 ^ 63 then 1 else -1) * sizeOf (b.toNat % 2 ^ 63) := by
  obtain ⟨exponent, mantissa, sign⟩ := toNat_fields b
  have wide := b.isLt
  have side : signed (Sign.ofBitVec (@unpackSign .binary64 b)) =
      if b.toNat < 2 ^ 63 then 1 else -1 := by
    rw [sign]
    split <;> rfl
  have low : b.toNat % 2 ^ 63 % 2 ^ 52 = b.toNat % 2 ^ 52 := by omega
  have high : b.toNat % 2 ^ 63 / 2 ^ 52 = b.toNat / 2 ^ 52 % 2 ^ 11 := by omega
  unfold UnpackedFloat.unpack at number ⊢
  dsimp only at number ⊢
  split at number
  · rename_i top
    rw [if_pos top]
    have all : b.toNat / 2 ^ 52 % 2 ^ 11 = 2047 := by
      rw [← exponent, top]
      rfl
    split at number
    · rename_i zero
      rw [if_pos zero]
      have none : b.toNat % 2 ^ 52 = 0 := by
        rw [← mantissa, zero]
        rfl
      have bits : b.toNat % 2 ^ 63 = infinite := by
        rw [infinite]
        omega
      refine ⟨bits.le, ?_⟩
      rw [reading, side, bits, sizeOf, units_infinite]
    · exact absurd rfl number
  · rename_i notTop
    rw [if_neg notTop]
    have notAll : b.toNat / 2 ^ 52 % 2 ^ 11 ≠ 2047 := by
      rw [← exponent]
      intro all
      exact notTop (BitVec.eq_of_toNat_eq (by rw [all]; rfl))
    refine ⟨by unfold infinite; omega, ?_⟩
    split
    · rename_i bottom
      have zero : b.toNat / 2 ^ 52 % 2 ^ 11 = 0 := by
        rw [← exponent, bottom]
        rfl
      split
      · rename_i none
        have zero' : b.toNat % 2 ^ 52 = 0 := by
          rw [← mantissa, none]
          rfl
        rw [sizeOf, units, high, zero, if_pos rfl, low, zero']
        simp [reading]
      · rw [reading, side, sizeOf, units, high, zero, if_pos rfl, low, mantissa, exponent, zero]
        rfl
    · rename_i notBottom
      have nonzero : b.toNat / 2 ^ 52 % 2 ^ 11 ≠ 0 := by
        rw [← exponent]
        intro none
        exact notBottom (BitVec.eq_of_toNat_eq (by rw [none]; rfl))
      rw [reading, side, sizeOf, units_normal (by rw [high]; exact nonzero), high, low, toNat_one_append,
        mantissa, exponent]
      rfl

theorem unpack_number {b : BitVec 64} (bits : b.toNat % 2 ^ 63 ≤ infinite) :
    UnpackedFloat.unpack .binary64 b ≠ .notANumber := by
  obtain ⟨exponent, mantissa, -⟩ := toNat_fields b
  rw [infinite] at bits
  rw [UnpackedFloat.unpack]
  dsimp only
  split
  · rename_i top
    have all : b.toNat / 2 ^ 52 % 2 ^ 11 = 2047 := by
      rw [← exponent, top]
      rfl
    have zero : @unpackMantissa .binary64 b = 0#52 := by
      have none : b.toNat % 2 ^ 52 = 0 := by omega
      apply BitVec.eq_of_toNat_eq
      rw [mantissa, none]
      rfl
    rw [if_pos zero]
    simp
  · split
    · split <;> simp
    · simp


end Vivarium.Binary64
