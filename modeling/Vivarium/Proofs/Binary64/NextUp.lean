import Vivarium.Proofs.Binary64.Adjacent
import Vivarium.Proofs.Binary64.Operations

/-! The adjacent number. Words in ascending order are numbers in ascending order on the positive side
and in descending order on the negative one, so one step of the word is one step of the number. -/
namespace Vivarium.Binary64
open Float.Model Float.Model.UnpackedFloat Scalar

variable {a b v w : Float}

theorem view_ofBits (w : UInt64) :
    view (.ofBits w) = UnpackedFloat.unpack .binary64 w.toBitVec :=
  unpack_pack (unpack_canonical _)

/-- The number that a word stands for. -/
theorem ofBits_reading {w : UInt64} (bits : w.toNat % 2 ^ 63 ≤ infinite) :
    IsNumber (Float.ofBits w) ∧ reading (view (.ofBits w)) =
      (if w.toNat < 2 ^ 63 then 1 else -1) * sizeOf (w.toNat % 2 ^ 63) := by
  have number := unpack_number (b := w.toBitVec) bits
  rw [number_iff, view_ofBits]
  exact ⟨number, (reading_unpack _ number).2⟩

theorem bits_reading (number : IsNumber v) :
    v.toBits.toNat % 2 ^ 63 ≤ infinite ∧ reading (view v) =
      (if v.toBits.toNat < 2 ^ 63 then 1 else -1) * sizeOf (v.toBits.toNat % 2 ^ 63) :=
  reading_unpack v.toBits.toBitVec (number_iff.mp number)

theorem finite_bits (finite : Scalar.isFinite v = true) :
    v.toBits.toNat % 2 ^ 63 < infinite := by
  obtain ⟨number, small⟩ := finite_iff_reading.mp finite
  obtain ⟨bits, value⟩ := bits_reading number
  apply bits.lt_of_ne
  intro top
  have whole : sizeOf infinite = bound := units_infinite
  have positive := bound_pos
  rw [value, top, whole] at small
  split at small <;> simp [abs_of_pos positive] at small

/-- A number larger than zero comes with a plus sign and is at least the smallest one. -/
theorem bits_of_pos (number : IsNumber v) (positive : 0 < reading (view v)) :
    v.toBits.toNat < 2 ^ 63 ∧ 0 < v.toBits.toNat ∧ reading (view v) = sizeOf v.toBits.toNat := by
  obtain ⟨-, value⟩ := bits_reading number
  have size := sizeOf_nonneg (v.toBits.toNat % 2 ^ 63)
  rw [value] at positive
  split at positive
  · rename_i plus
    rw [if_pos plus, one_mul, Nat.mod_eq_of_lt plus] at value
    refine ⟨plus, Nat.pos_of_ne_zero fun zero => ?_, value⟩
    rw [zero, Nat.zero_mod, sizeOf_zero, mul_zero] at positive
    exact lt_irrefl 0 positive
  · linarith

theorem bits_of_neg (number : IsNumber v) (negative : reading (view v) < 0) :
    ∃ n, v.toBits.toNat = 2 ^ 63 + n + 1 ∧ reading (view v) = -sizeOf (n + 1) := by
  obtain ⟨-, value⟩ := bits_reading number
  have wide := v.toBits.toNat_lt
  have size := sizeOf_nonneg (v.toBits.toNat % 2 ^ 63)
  rw [value] at negative
  split at negative
  · linarith
  · rename_i minus
    rw [if_neg minus, neg_one_mul] at value
    have some : v.toBits.toNat % 2 ^ 63 ≠ 0 := by
      intro zero
      rw [zero, sizeOf_zero, mul_zero] at negative
      exact lt_irrefl 0 negative
    refine ⟨v.toBits.toNat % 2 ^ 63 - 1, by omega, ?_⟩
    rw [value, Nat.sub_add_cancel (Nat.pos_of_ne_zero some)]

/-- The least number above another. -/
def Follows (v w : Float) : Prop :=
  IsNumber w ∧ reading (view v) < reading (view w) ∧
    ∀ b : Float, IsNumber b → reading (view v) < reading (view b) →
      reading (view w) ≤ reading (view b)

theorem follows_of_neg (finite : Scalar.isFinite v = true) (negative : reading (view v) < 0) :
    Follows v (.ofBits (v.toBits - 1)) := by
  have bits := finite_bits finite
  obtain ⟨n, word, value⟩ := bits_of_neg (finite_iff_reading.mp finite).1 negative
  have previous : (v.toBits - 1).toNat = 2 ^ 63 + n := by
    rw [UInt64.toNat_sub_of_le]
    · rw [word]
      rfl
    · rw [UInt64.le_iff_toNat_le, word]
      exact Nat.le_add_left 1 _
  have wide := v.toBits.toNat_lt
  have rest : (v.toBits - 1).toNat % 2 ^ 63 = n := by omega
  obtain ⟨number, reads⟩ := ofBits_reading (w := v.toBits - 1) (by omega)
  rw [if_neg (by omega), rest, neg_one_mul] at reads
  refine ⟨number, ?_, ?_⟩
  · rw [reads, value]
    exact neg_lt_neg (sizeOf_strictMono (Nat.lt_succ_self n))
  · intro b isNumber above
    rw [reads]
    rcases lt_or_ge (reading (view b)) 0 with under | beyond
    · obtain ⟨k, -, other⟩ := bits_of_neg isNumber under
      rw [value, other] at above
      rw [other]
      have fewer := sizeOf_strictMono.lt_iff_lt.mp (neg_lt_neg_iff.mp above)
      exact neg_le_neg (sizeOf_strictMono.monotone (by omega))
    · have size := sizeOf_nonneg n
      linarith

theorem follows_of_zero (zero : reading (view v) = 0) : Follows v (.ofBits 1) := by
  obtain ⟨number, reads⟩ := ofBits_reading (w := 1) (by decide)
  have reads : reading (view (.ofBits 1)) = sizeOf 1 := by simpa using reads
  refine ⟨number, ?_, ?_⟩
  · rw [zero, reads, ← sizeOf_zero]
    exact sizeOf_strictMono Nat.zero_lt_one
  · intro b isNumber above
    rw [zero] at above
    obtain ⟨-, least, value⟩ := bits_of_pos isNumber above
    rw [reads, value]
    exact sizeOf_strictMono.monotone least

theorem follows_of_pos (finite : Scalar.isFinite v = true) (positive : 0 < reading (view v)) :
    Follows v (.ofBits (v.toBits + 1)) := by
  have bits := finite_bits finite
  obtain ⟨plus, -, value⟩ := bits_of_pos (finite_iff_reading.mp finite).1 positive
  rw [Nat.mod_eq_of_lt plus] at bits
  have top : infinite < 2 ^ 63 := by decide
  have next : (v.toBits + 1).toNat = v.toBits.toNat + 1 := by
    have one : (1 : UInt64).toNat = 1 := rfl
    rw [UInt64.toNat_add, one]
    exact Nat.mod_eq_of_lt (by omega)
  have within : v.toBits.toNat + 1 < 2 ^ 63 := by omega
  obtain ⟨number, reads⟩ := ofBits_reading (w := v.toBits + 1) (by omega)
  rw [next, if_pos within, Nat.mod_eq_of_lt within, one_mul] at reads
  refine ⟨number, ?_, ?_⟩
  · rw [reads, value]
    exact sizeOf_strictMono (Nat.lt_succ_self _)
  · intro b isNumber above
    obtain ⟨-, -, other⟩ := bits_of_pos isNumber (positive.trans above)
    rw [value, other] at above
    rw [reads, other]
    exact sizeOf_strictMono.monotone (sizeOf_strictMono.lt_iff_lt.mp above)

theorem nextUp_follows (finite : Scalar.isFinite v = true) : Follows v (nextUp v) := by
  have number := (finite_iff_reading.mp finite).1
  have zeroNumber : IsNumber (0.0 : Float) := by rfl
  have zeroReading : reading (view 0.0) = 0 := by rfl
  have closed : v.isFinite = true := finite
  have isZero : (v == 0.0) = true ↔ reading (view v) = 0 := by
    rw [beq_iff_level, zeroReading]
    simp only [number, zeroNumber, true_and]
  have isPositive : 0.0 < v ↔ 0 < reading (view v) := by
    rw [lt_iff_level, zeroReading]
    simp only [number, zeroNumber, true_and]
  rw [nextUp, isNaN_eq_false number, closed, Bool.not_true, Bool.false_and, Bool.or_false,
    if_neg Bool.false_ne_true]
  rcases lt_trichotomy (reading (view v)) 0 with negative | zero | positive
  · rw [if_neg (mt isZero.mp negative.ne), if_neg (mt isPositive.mp negative.le.not_gt)]
    exact follows_of_neg finite negative
  · rw [if_pos (isZero.mpr zero)]
    exact follows_of_zero zero
  · rw [if_neg (mt isZero.mp positive.ne'), if_pos (isPositive.mpr positive)]
    exact follows_of_pos finite positive

end Vivarium.Binary64
