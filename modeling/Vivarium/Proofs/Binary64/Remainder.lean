import Vivarium.Proofs.Binary64.Precision
import Vivarium.Proofs.Scalar.Unrounded

/-! The remainder of a division is computed on magnitudes, and loses nothing. A dividend that is not smaller
than the divisor is a whole multiple of the place of the divisor's last bit, and so is the remainder; being
smaller than the divisor it needs no more bits. -/
namespace Vivarium.Binary64
open Float.Model Float.Model.UnpackedFloat Scalar
variable {a b v : Float} {m n : ℕ}

/-! Numbers by sign and magnitude. -/

/-- One with the sign of a number. -/
def side (negative : Bool) : ℚ := if negative then -1 else 1

theorem abs_side (negative : Bool) : |side negative| = 1 := by
  cases negative <;> simp [side]

theorem side_mul_self (negative : Bool) : side negative * side negative = 1 := by
  cases negative <;> simp [side]

theorem div_side (x : ℚ) (negative : Bool) : x / side negative = x * side negative := by
  cases negative <;> simp [side, div_neg]

theorem magnitude_eq (v : Float) : magnitude v = units (v.toBits.toNat % 2 ^ 63) := by
  have exponent : v.toBits.toNat / 2 ^ 52 % 2048 = v.toBits.toNat % 2 ^ 63 / 2 ^ 52 := by omega
  have fraction : v.toBits.toNat % 2 ^ 52 = v.toBits.toNat % 2 ^ 63 % 2 ^ 52 := by omega
  have leading : leadingBit = 2 ^ 52 := rfl
  simp only [magnitude, units, leading, exponent, fraction, Nat.shiftLeft_eq]

theorem isNegative_iff (v : Float) : isNegative v = true ↔ 2 ^ 63 ≤ v.toBits.toNat := by
  have wide := v.toBits.toNat_lt
  rw [isNegative, beq_iff_eq, ← UInt64.toNat_inj, UInt64.toNat_shiftRight]
  change v.toBits.toNat >>> 63 = 1 ↔ _
  rw [Nat.shiftRight_eq_div_pow]
  omega

theorem reading_magnitude (number : IsNumber v) :
    reading (view v) = side (isNegative v) * (magnitude v * 2 ^ (-1074 : ℤ)) := by
  obtain ⟨-, value⟩ := bits_reading number
  rw [value, magnitude_eq, sizeOf, side]
  by_cases minus : 2 ^ 63 ≤ v.toBits.toNat
  · rw [if_pos ((isNegative_iff v).mpr minus), if_neg (not_lt.mpr minus)]
  · rw [if_neg (mt (isNegative_iff v).mp minus), if_pos (not_le.mp minus)]

theorem abs_reading_magnitude (number : IsNumber v) :
    |reading (view v)| = magnitude v * 2 ^ (-1074 : ℤ) := by
  rw [reading_magnitude number, abs_mul, abs_side, one_mul]
  exact abs_of_nonneg (mul_nonneg (Nat.cast_nonneg _) (two_zpow_pos _).le)

theorem magnitude_pos (number : IsNumber v) (nonzero : reading (view v) ≠ 0) : 0 < magnitude v := by
  have size := abs_pos.mpr nonzero
  rw [abs_reading_magnitude number] at size
  exact_mod_cast (mul_pos_iff_of_pos_right (two_zpow_pos _)).mp size

theorem magnitude_le_of_abs_le (na : IsNumber a) (nb : IsNumber b)
    (le : |reading (view a)| ≤ |reading (view b)|) : magnitude a ≤ magnitude b := by
  rw [abs_reading_magnitude na, abs_reading_magnitude nb] at le
  exact_mod_cast le_of_mul_le_mul_right le (two_zpow_pos _)

theorem magnitude_lt (finite : Scalar.isFinite v = true) : magnitude v < units infinite := by
  rw [magnitude_eq]
  exact units_strictMono (finite_bits finite)

theorem abs_reading (number : IsNumber v) :
    IsNumber v.abs ∧ reading (view v.abs) = |reading (view v)| := by
  have canonical := view_canonical v
  have written : view v.abs = (view v).abs := by
    refine unpack_pack (u := (view v).abs) ?_
    revert canonical
    cases view v <;> exact id
  rw [number_iff] at number ⊢
  rw [written]
  have positive := bound_pos
  revert number
  cases view v with
  | notANumber => exact fun number => absurd rfl number
  | infinity s => cases s <;> simp [UnpackedFloat.abs, reading, signed, abs_of_pos positive]
  | zero s => simp [UnpackedFloat.abs, reading]
  | finite s m e some =>
    rw [abs_reading_finite]
    simp [UnpackedFloat.abs, reading, signed]

/-! Magnitudes as bits. -/

/-- A magnitude is a significand of up to 53 bits at some place, with all of them unless it is the lowest. -/
theorem units_significand (n : ℕ) :
    ∃ k q, units n = k * 2 ^ q ∧ k < 2 ^ 53 ∧ (q = 0 ∨ 2 ^ 52 ≤ k) := by
  have fraction := Nat.mod_lt n (Nat.two_pow_pos 52)
  rw [units]
  split
  · exact ⟨n % 2 ^ 52, 0, by rw [pow_zero, mul_one], by omega, .inl rfl⟩
  · exact ⟨n % 2 ^ 52 + 2 ^ 52, n / 2 ^ 52 - 1, rfl, by omega, .inr (Nat.le_add_left _ _)⟩

/-- The leading bits of a magnitude, after the number of the bits left out, which are all zero. -/
theorem units_leading (whole : 2 ^ (m.log2 - 52) ∣ m) :
    units ((m.log2 - 52) * 2 ^ 52 + m / 2 ^ (m.log2 - 52)) = m := by
  rcases lt_or_ge m (2 ^ 52) with small | large
  · have low : m.log2 - 52 = 0 := by
      rcases m.eq_zero_or_pos with rfl | positive
      · rfl
      · have top := (Nat.log2_lt positive.ne').mpr small
        omega
    rw [low, zero_mul, zero_add, pow_zero, Nat.div_one, units, Nat.div_eq_of_lt small, if_pos rfl,
      Nat.mod_eq_of_lt small]
  · have nonzero : m ≠ 0 := by omega
    have high : 52 ≤ m.log2 := (Nat.le_log2 nonzero).mpr large
    generalize places : m.log2 - 52 = q at whole ⊢
    obtain ⟨k, rfl⟩ := whole
    have unit := Nat.two_pow_pos q
    have least : 2 ^ 52 ≤ k := by
      refine Nat.le_of_mul_le_mul_left ?_ unit
      rw [← pow_add]
      exact (Nat.pow_le_pow_right (by norm_num) (by omega)).trans (Nat.log2_self_le nonzero)
    have most : k < 2 ^ 53 := by
      refine Nat.lt_of_mul_lt_mul_left (a := 2 ^ q) ?_
      rw [← pow_add]
      exact Nat.lt_log2_self.trans_le (Nat.pow_le_pow_right (by norm_num) (by omega))
    have exponent : (q * 2 ^ 52 + k) / 2 ^ 52 = q + 1 := by omega
    have fraction : (q * 2 ^ 52 + k) % 2 ^ 52 + 2 ^ 52 = k := by omega
    rw [Nat.mul_div_cancel_left _ unit, units, exponent, if_neg q.succ_ne_zero, fraction,
      Nat.add_sub_cancel, mul_comm]

/-- Bits below those of infinity, with a sign put before them. -/
theorem ofBits_signed (negative : Bool) (below : n < infinite) :
    let w := if negative then UInt64.ofNat n ||| 0x8000000000000000 else UInt64.ofNat n
    IsNumber (Float.ofBits w) ∧ reading (view (.ofBits w)) = side negative * sizeOf n := by
  have top : infinite < 2 ^ 63 := by decide
  have plain : (UInt64.ofNat n).toNat = n := UInt64.toNat_ofNat_of_lt' (below.trans (by decide))
  cases negative with
  | false =>
    obtain ⟨number, value⟩ := ofBits_reading (w := UInt64.ofNat n) (by omega)
    rw [plain, if_pos (by omega), Nat.mod_eq_of_lt (by omega)] at value
    exact ⟨number, value⟩
  | true =>
    have marked : (UInt64.ofNat n ||| 0x8000000000000000).toNat = 2 ^ 63 + n := by
      have joined := Nat.two_pow_add_eq_or_of_lt (show n < 2 ^ 63 by omega) 1
      rw [UInt64.toNat_or, plain, Nat.or_comm]
      exact joined.symm
    have rest : (2 ^ 63 + n) % 2 ^ 63 = n := by omega
    obtain ⟨number, value⟩ := ofBits_reading (w := UInt64.ofNat n ||| 0x8000000000000000) (by omega)
    rw [marked, if_neg (by omega), rest] at value
    exact ⟨number, value⟩

theorem ofMagnitude_reading (negative : Bool) (whole : 2 ^ (m.log2 - 52) ∣ m)
    (small : m < units infinite) : Scalar.isFinite (ofMagnitude negative m) = true ∧
      reading (view (ofMagnitude negative m)) = side negative * (m * 2 ^ (-1074 : ℤ)) := by
  have encoded := units_leading whole
  have written := Nat.shiftRight_eq_div_pow m (m.log2 - 52)
  have below : (m.log2 - 52) * 2 ^ 52 + m / 2 ^ (m.log2 - 52) < infinite := by
    apply units_strictMono.lt_iff_lt.mp
    rwa [encoded]
  obtain ⟨number, value⟩ := ofBits_signed negative below
  rw [sizeOf, encoded, ← written] at value
  rw [← written] at number
  have within : |side negative * (m * 2 ^ (-1074 : ℤ))| < bound := by
    rw [abs_mul, abs_side, one_mul, ← units_infinite, abs_of_nonneg
      (mul_nonneg (Nat.cast_nonneg m) (two_zpow_pos _).le)]
    exact mul_lt_mul_of_pos_right (by exact_mod_cast small) (two_zpow_pos _)
  rw [← value] at within
  exact ⟨finite_iff_reading.mpr ⟨number, within⟩, value⟩

/-- The bits that are left out of the remainder of two magnitudes are zero. -/
theorem remainder_whole {i j : ℕ} (positive : 0 < units i) (le : units i ≤ units j) :
    2 ^ ((units j % units i).log2 - 52) ∣ units j % units i := by
  obtain ⟨k, q, first, few, full⟩ := units_significand i
  obtain ⟨l, p, second, few', -⟩ := units_significand j
  have places : q ≤ p := by
    by_contra less
    have full : 2 ^ 52 ≤ k := full.resolve_left (by omega)
    have small : units j < 2 ^ 53 * 2 ^ p :=
      second ▸ Nat.mul_lt_mul_of_pos_right few' (Nat.two_pow_pos p)
    have large : 2 ^ 52 * 2 ^ (p + 1) ≤ units i :=
      first ▸ Nat.mul_le_mul full (Nat.pow_le_pow_right (by norm_num) (by omega))
    rw [pow_succ] at large
    omega
  have common : 2 ^ q ∣ units j % units i := by
    refine (Nat.dvd_mod_iff ?_).mpr ?_
    · exact first ▸ Nat.dvd_mul_left _ _
    · exact second ▸ (Nat.pow_dvd_pow 2 places).mul_left l
  have small : units j % units i < 2 ^ (53 + q) := by
    refine (Nat.mod_lt _ positive).trans ?_
    rw [first, pow_add]
    exact Nat.mul_lt_mul_of_pos_right few (Nat.two_pow_pos q)
  refine (Nat.pow_dvd_pow 2 ?_).trans common
  rcases (units j % units i).eq_zero_or_pos with zero | some
  · simp [zero]
  · have top := (Nat.log2_lt some.ne').mpr small
    omega

/-! Remainders. -/

/-- The remainder of two magnitudes can be written with any sign. -/
theorem ofMagnitude_mod (negative : Bool) (fa : Scalar.isFinite a = true)
    (positive : 0 < magnitude b) (le : magnitude b ≤ magnitude a) :
    Scalar.isFinite (ofMagnitude negative (magnitude a % magnitude b)) = true ∧
      reading (view (ofMagnitude negative (magnitude a % magnitude b))) =
        side negative * ((magnitude a % magnitude b : ℕ) * 2 ^ (-1074 : ℤ)) := by
  apply ofMagnitude_reading
  · rw [magnitude_eq a, magnitude_eq b] at le ⊢
    rw [magnitude_eq b] at positive
    exact remainder_whole positive le
  · exact (Nat.mod_le _ _).trans_lt (magnitude_lt fa)

theorem truncated_natCast_div (m n : ℕ) : truncated ((m : ℚ) / n) = (m / n : ℕ) := by
  rw [truncated, if_pos (div_nonneg (Nat.cast_nonneg m) (Nat.cast_nonneg n)),
    Rat.floor_natCast_div_natCast]
  rfl

theorem truncated_side_mul (negative : Bool) (x : ℚ) :
    (truncated (side negative * x) : ℚ) = side negative * truncated x := by
  cases negative
  · simp [side]
  · simp [side, truncated_neg]

/-- The quotient rounded toward zero, by signs and magnitudes. -/
theorem truncated_div_reading (na : IsNumber a) (nb : IsNumber b) :
    (truncated (reading (view a) / reading (view b)) : ℚ) =
      side (isNegative a) * (side (isNegative b) * (magnitude a / magnitude b : ℕ)) := by
  have quotient : reading (view a) / reading (view b) =
      side (isNegative a) * (side (isNegative b) * (magnitude a / magnitude b)) := by
    rw [reading_magnitude na, reading_magnitude nb, mul_div_mul_comm,
      mul_div_mul_right _ _ (two_zpow_pos _).ne', div_side, mul_assoc]
  rw [quotient, truncated_side_mul, truncated_side_mul, truncated_natCast_div, Int.cast_natCast]

theorem abs_lt_abs_iff (fa : Scalar.isFinite a = true) (fb : Scalar.isFinite b = true) :
    a.abs < b.abs ↔ |reading (view a)| < |reading (view b)| := by
  obtain ⟨first, value⟩ := abs_reading (finite_iff_reading.mp fa).1
  obtain ⟨second, value'⟩ := abs_reading (finite_iff_reading.mp fb).1
  rw [lt_iff_level, value, value']
  simp only [first, second, true_and]

theorem remainder_eq (fa : Scalar.isFinite a = true) (fb : Scalar.isFinite b = true)
    (nonzero : reading (view b) ≠ 0) : remainder a b =
      if |reading (view a)| < |reading (view b)| then a
      else ofMagnitude (isNegative a) (magnitude a % magnitude b) := by
  have some := isNaN_eq_false (finite_iff_reading.mp fb).1
  have closed : a.isFinite = true := fa
  have closed' : b.isFinite = true := fb
  have apart : (b == 0.0) = false := by
    rw [Bool.eq_false_iff]
    exact fun zero => nonzero (beq_iff_level.mp zero).2.2
  rw [remainder, closed, some, apart, closed']
  simp only [Bool.not_true, Bool.or_false, Bool.false_eq_true, if_false, Bool.false_or,
    decide_eq_true_eq, abs_lt_abs_iff fa fb]

/-- The remainder of finite numbers is exact. -/
theorem remainder_reading (fa : Scalar.isFinite a = true) (fb : Scalar.isFinite b = true)
    (nonzero : reading (view b) ≠ 0) : Scalar.isFinite (remainder a b) = true ∧
      reading (view (remainder a b)) = reading (view a) -
        truncated (reading (view a) / reading (view b)) * reading (view b) := by
  rw [remainder_eq fa fb nonzero]
  split
  · rename_i smaller
    have part : |reading (view a) / reading (view b)| < 1 := by
      rwa [abs_div, div_lt_one (abs_pos.mpr nonzero)]
    rw [truncated_eq_zero part, Int.cast_zero, zero_mul, sub_zero]
    exact ⟨fa, rfl⟩
  · rename_i notSmaller
    have na := (finite_iff_reading.mp fa).1
    have nb := (finite_iff_reading.mp fb).1
    obtain ⟨finite, value⟩ := ofMagnitude_mod (isNegative a) fa (magnitude_pos nb nonzero)
      (magnitude_le_of_abs_le nb na (not_lt.mp notSmaller))
    have sum : (magnitude a : ℚ) =
        magnitude b * (magnitude a / magnitude b : ℕ) + (magnitude a % magnitude b : ℕ) := by
      exact_mod_cast (Nat.div_add_mod _ _).symm
    have same := side_mul_self (isNegative b)
    refine ⟨finite, ?_⟩
    rw [value, truncated_div_reading na nb, reading_magnitude na, reading_magnitude nb]
    linear_combination (-(side (isNegative a) * 2 ^ (-1074 : ℤ))) * sum +
      (side (isNegative a) * (magnitude a / magnitude b : ℕ) * magnitude b * 2 ^ (-1074 : ℤ)) * same

/-- What is smaller than the divisor is its own remainder. -/
theorem remainder_self (fa : Scalar.isFinite a = true) (fb : Scalar.isFinite b = true)
    (smaller : |reading (view a)| < |reading (view b)|) : remainder a b = a := by
  have nonzero : reading (view b) ≠ 0 := by
    rw [← abs_pos]
    exact (abs_nonneg _).trans_lt smaller
  rw [remainder_eq fa fb nonzero, if_pos smaller]

end Vivarium.Binary64
