import Mathlib
import Vivarium.Proofs.Binary64.Nearest

/-! What the bits of a number say: a sign and a significand at an exponent. Bits are read as numbers
in canonical form, writing such a number down loses nothing, and numbers compare as their readings
do. -/
namespace Vivarium.Binary64
open Float.Model Float.Model.UnpackedFloat

/-- One with the sign. -/
def signed : Sign → ℚ
  | .negative => -1
  | .positive => 1

/-- The number that is meant; the bound stands for infinity, and zero where no number is meant. -/
def reading : UnpackedFloat → ℚ
  | .infinity s => signed s * bound
  | .notANumber => 0
  | .zero _ => 0
  | .finite s m e _ => signed s * (m * 2 ^ e)

/-- The significand has 53 bits, or fewer at the lowest exponent. -/
structure Fits (m : ℕ) (e : ℤ) : Prop where
  bits : m < 2 ^ 53
  low : -1074 ≤ e
  full : e = -1074 ∨ 2 ^ 52 ≤ m

/-- The form in which bits are read. -/
def Canonical : UnpackedFloat → Prop
  | .finite _ m e _ => Fits m e ∧ e ≤ 971
  | _ => True

theorem unpack_canonical (b : BitVec 64) : Canonical (UnpackedFloat.unpack .binary64 b) := by
  rw [UnpackedFloat.unpack]
  dsimp only
  split
  · split <;> trivial
  · rename_i notTop
    have top : (@unpackExponent .binary64 b).toNat ≠ 2047 := by
      intro same
      apply notTop
      apply BitVec.eq_of_toNat_eq
      rw [same]
      rfl
    have wide : (@unpackExponent .binary64 b).toNat < 2048 := BitVec.isLt _
    split
    · rename_i zero
      split
      · trivial
      · have small : (@unpackMantissa .binary64 b).toNat < 2 ^ 52 := BitVec.isLt _
        simp only [Canonical, zero]
        exact ⟨⟨by omega, by decide, .inl (by decide)⟩, by decide⟩
    · rename_i notZero
      have bottom : (@unpackExponent .binary64 b).toNat ≠ 0 := by
        intro same
        apply notZero
        apply BitVec.eq_of_toNat_eq
        rw [same]
        rfl
      have small : (1#1 ++ @unpackMantissa .binary64 b).toNat < 2 ^ 53 := BitVec.isLt _
      have large : 2 ^ 52 ≤ (1#1 ++ @unpackMantissa .binary64 b).toNat := by
        rw [BitVec.toNat_append]
        exact Nat.left_le_or
      have bias : (Format.exponentBias .binary64 : ℤ) = 1023 := by decide
      have width : (Format.mantissaBitsWithoutImplicit .binary64 : ℤ) = 52 := rfl
      simp only [Canonical, bias, width]
      exact ⟨⟨small, by omega, .inr large⟩, by omega⟩

theorem toNat_one_append (m : BitVec 52) : (1#1 ++ m).toNat = 2 ^ 52 + m.toNat := by
  rw [BitVec.toNat_append, ← Nat.shiftLeft_add_eq_or_of_lt (BitVec.isLt _)]
  rfl

/-- Reading what was written at an exponent between the smallest and the largest one. -/
theorem unpack_packComponents {s : Sign} {e : BitVec 11} {m : BitVec 52} (top : e ≠ -1#_)
    (bottom : e ≠ 0#_) :
    UnpackedFloat.unpack .binary64 (packComponents .binary64 s e m) =
      .finite s (1#1 ++ m).toNat (e.toNat - 1075) (by rw [toNat_one_append]; omega) := by
  rw [UnpackedFloat.unpack]
  simp only [unpackMantissa_packComponents, unpackExponent_packComponents,
    unpackSign_packComponents, Sign.ofBitVec_toBitVec, if_neg top, if_neg bottom]
  rfl

/-- Writing a number down loses nothing, and a number that is too large becomes infinity. -/
theorem unpack_pack_finite {s : Sign} {m : ℕ} {e : ℤ} (positive : 0 < m) (fits : Fits m e) :
    UnpackedFloat.unpack .binary64 (UnpackedFloat.pack .binary64 (.finite s m e positive)) =
      if e ≤ 971 then .finite s m e positive else .infinity s := by
  obtain ⟨bits, low, full⟩ := fits
  have bias : (Format.exponentBias .binary64 : ℤ) = 1023 := by decide
  have width : Format.mantissaBits .binary64 = 53 := by decide
  rw [UnpackedFloat.pack]
  simp only [bias, width, Nat.cast_ofNat]
  split
  · rename_i overflow
    rw [if_neg (show ¬e ≤ 971 by omega)]
    cases s <;> rfl
  · rename_i inRange
    rw [if_pos (show e ≤ 971 by omega)]
    by_cases normal : 2 ^ 52 ≤ m
    · have log : m.log2 + 1 = 53 := by
        have lower := (Nat.le_log2 (by omega)).mpr normal
        have upper := (Nat.log2_lt (by omega)).mpr bits
        omega
      have exponent : (BitVec.ofNat 11 (e + 1023 + 52).toNat).toNat = (e + 1075).toNat := by
        rw [BitVec.toNat_ofNat]
        omega
      rw [if_pos log, unpack_packComponents]
      · have whole : (1#1 ++ BitVec.ofNat 52 m).toNat = m := by
          rw [toNat_one_append, BitVec.toNat_ofNat]
          omega
        simp only [whole, exponent]
        congr 1
        omega
      · intro top
        have value := congrArg BitVec.toNat top
        have all : (-1#11).toNat = 2047 := by decide
        omega
      · intro bottom
        have value := congrArg BitVec.toNat bottom
        have none : (0#11).toNat = 0 := by decide
        omega
    · have log : ¬m.log2 + 1 = 53 := by
        have upper := (Nat.log2_lt (by omega)).mpr (not_le.mp normal)
        omega
      have value : (BitVec.ofNat 52 m).toNat = m := by
        rw [BitVec.toNat_ofNat, Nat.mod_eq_of_lt (not_le.mp normal)]
      have nonzero : BitVec.ofNat 52 m ≠ 0#52 := by
        intro zero
        rw [zero] at value
        exact positive.ne value
      obtain rfl : e = -1074 := by omega
      rw [if_neg log]
      rw [UnpackedFloat.unpack]
      simp only [unpackMantissa_packComponents, unpackExponent_packComponents,
        unpackSign_packComponents, Sign.ofBitVec_toBitVec]
      rw [if_neg (by decide), if_pos trivial, dif_neg nonzero]
      simp only [value]
      rfl

theorem unpack_pack {u : UnpackedFloat} (canonical : Canonical u) :
    UnpackedFloat.unpack .binary64 (UnpackedFloat.pack .binary64 u) = u := by
  cases u with
  | infinity s => cases s <;> rfl
  | notANumber => rfl
  | zero s => cases s <;> rfl
  | finite s m e positive => rw [unpack_pack_finite positive canonical.1, if_pos canonical.2]

end Vivarium.Binary64
