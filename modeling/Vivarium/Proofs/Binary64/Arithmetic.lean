import Vivarium.Proofs.Binary64.Rounding

/-! The operations on numbers. Each gives the number nearest to the exact result. -/
namespace Vivarium.Binary64
open Float.Model Float.Model.UnpackedFloat

variable {u w : UnpackedFloat} {m n : ℕ} {d e : ℤ} {x : ℚ}

/-- A number in canonical form is the nearest to itself. -/
theorem Canonical.writes (canonical : Canonical u) (number : u ≠ .notANumber) :
    Writes u (reading u) := by
  rw [Writes]
  rw [unpack_pack canonical]
  refine ⟨number, ?_⟩
  cases u with
  | notANumber => contradiction
  | zero s => simp [reading, nearest, rounded_zero, bound_pos.le]
  | infinity s =>
    have whole : rounded bound = bound := by
      have exact := rounded_exact (k := 1) (e := 1024) (by norm_num) (by norm_num)
      rw [bound, two_pow_mul_coarsest]
      simpa using exact
    rw [reading, nearest_signed s bound_pos.le, whole, min_self]
  | finite s m e positive =>
    obtain ⟨fits, small⟩ := canonical
    have size := size_pos positive e
    rw [reading, nearest_signed s size.le, rounded_exact fits.bits fits.low,
      min_eq_left (fits.size_lt_bound small).le]

theorem decreaseExponent_value (m : ℕ) (d t : ℤ) :
    ((decreaseExponent m d t).1 : ℚ) * 2 ^ (decreaseExponent m d t).2 = m * 2 ^ d ∧
      (decreaseExponent m d t).2 = min d t := by
  have exponent : (decreaseExponent m d t).2 = min d t := by
    simp only [decreaseExponent]
    omega
  refine ⟨?_, exponent⟩
  have distance : ((d - t).toNat : ℤ) = d - min d t := by omega
  have value : ((decreaseExponent m d t).1 : ℚ) = m * 2 ^ (d - min d t) := by
    rw [← distance, zpow_natCast]
    simp only [decreaseExponent, Nat.shiftLeft_eq]
    push_cast
    rfl
  rw [value, exponent, mul_assoc, ← zpow_add₀ (by norm_num)]
  congr 2
  omega

theorem log_size (positive : 0 < m) (d : ℤ) : Int.log 2 ((m : ℚ) * 2 ^ d) = m.log2 + d := by
  have scale := two_zpow_pos d
  have first : (2 : ℚ) ^ m.log2 ≤ m := by exact_mod_cast Nat.log2_self_le positive.ne'
  have last : (m : ℚ) < 2 ^ (m.log2 + 1) := by exact_mod_cast Nat.lt_log2_self
  have lower := mul_le_mul_of_nonneg_right first scale.le
  have upper := mul_lt_mul_of_pos_right last scale
  rw [← zpow_natCast, ← zpow_add₀ (by norm_num)] at lower upper
  have atLeast := le_log lower
  have less := log_lt (size_pos positive d) upper
  push_cast at less
  omega

theorem round_writes (s : Sign) (positive : 0 < m) (d : ℤ) :
    Writes (UnpackedFloat.round .binary64 s m d) (signed s * (m * 2 ^ d)) := by
  have size := size_pos positive d
  obtain ⟨value, exponent⟩ :=
    decreaseExponent_value m d (Format.targetExponent .binary64 (totalExponent m d))
  have target : Format.targetExponent .binary64 (totalExponent m d) = grain (m * 2 ^ d) := by
    rw [targetExponent_eq, totalExponent, grain, log_size positive]
    omega
  rw [UnpackedFloat.round]
  dsimp only
  rw [target] at value exponent ⊢
  refine (roundWithAccuracy_rounds s ?_ size ?_).writes size.le
  · exact (div_eq_iff (two_zpow_pos _).ne').mpr value.symm
  · rw [exponent]
    exact min_le_right _ _

theorem normalize_writes (k : ℤ) (d : ℤ) (s : Sign) :
    Writes (UnpackedFloat.normalize .binary64 k d s) (k * 2 ^ d) := by
  rw [UnpackedFloat.normalize]
  rcases lt_trichotomy k 0 with negative | rfl | positive
  · rw [compare_lt_iff_lt.mpr negative]
    have size : (((-k).toNat : ℕ) : ℚ) = -k := by
      have natural : (((-k).toNat : ℕ) : ℤ) = -k := Int.toNat_of_nonneg (by omega)
      exact_mod_cast natural
    have writes := round_writes .negative (m := (-k).toNat) (by omega) d
    rwa [size, signed, neg_mul, one_mul, neg_mul, neg_neg] at writes
  · rw [compare_eq_iff_eq.mpr rfl]
    simpa [reading] using Canonical.writes (u := .zero s) trivial (by simp)
  · rw [compare_gt_iff_gt.mpr positive]
    have size : ((k.toNat : ℕ) : ℚ) = k := by
      have natural : ((k.toNat : ℕ) : ℤ) = k := Int.toNat_of_nonneg positive.le
      exact_mod_cast natural
    have writes := round_writes .positive (m := k.toNat) (by omega) d
    rwa [size, signed, one_mul] at writes

theorem signed_apply (s : Sign) (n : ℕ) : ((s.apply n : ℤ) : ℚ) = signed s * n := by
  cases s <;> simp [Sign.apply, signed]

/-- Two numbers brought to one exponent. -/
theorem common_exponent (s t : Sign) (m n : ℕ) (d e : ℤ) :
    (s.apply (decreaseExponent m d (min d e)).1 : ℚ) * 2 ^ min d e = signed s * (m * 2 ^ d) ∧
      (t.apply (decreaseExponent n e (min d e)).1 : ℚ) * 2 ^ min d e = signed t * (n * 2 ^ e) := by
  obtain ⟨first, lower⟩ := decreaseExponent_value m d (min d e)
  obtain ⟨second, lower'⟩ := decreaseExponent_value n e (min d e)
  rw [lower, min_eq_right (min_le_left _ _)] at first
  rw [lower', min_eq_right (min_le_right _ _)] at second
  rw [signed_apply, signed_apply, mul_assoc, mul_assoc, first, second]
  exact ⟨rfl, rfl⟩

theorem add_writes (hu : Canonical u) (hw : Canonical w) (fu : u.isFinite = true)
    (fw : w.isFinite = true) : Writes (UnpackedFloat.add .binary64 u w) (reading u + reading w) := by
  cases u with
  | notANumber => cases fu
  | infinity s => cases fu
  | zero s =>
    cases w with
    | notANumber => cases fw
    | infinity t => cases fw
    | zero t =>
      have zero : ∀ r : Sign, Writes (.zero r) (0 + 0) := by
        intro r
        rw [add_zero]
        exact Canonical.writes (u := .zero r) trivial (by simp)
      simp only [UnpackedFloat.add, reading]
      split <;> exact zero _
    | finite t n e positive =>
      rw [reading, zero_add]
      exact hw.writes (by simp)
  | finite s m d positive =>
    cases w with
    | notANumber => cases fw
    | infinity t => cases fw
    | zero t =>
      rw [show reading (.zero t) = 0 from rfl, add_zero]
      exact hu.writes (by simp)
    | finite t n e positive' =>
      obtain ⟨first, second⟩ := common_exponent s t m n d e
      have writes := normalize_writes (s.apply (decreaseExponent m d (min d e)).1 +
        t.apply (decreaseExponent n e (min d e)).1) (min d e) .positive
      rw [Int.cast_add, add_mul, first, second] at writes
      exact writes

theorem reading_neg (u : UnpackedFloat) : reading u.neg = -reading u := by
  have flip : ∀ s : Sign, signed (-s) = -signed s := by
    intro s
    cases s
    · exact (neg_neg 1).symm
    · rfl
  cases u with
  | notANumber => exact neg_zero.symm
  | zero s => exact neg_zero.symm
  | infinity s => simp only [UnpackedFloat.neg, reading, flip, neg_mul]
  | finite s m e positive => simp only [UnpackedFloat.neg, reading, flip, neg_mul]

theorem Canonical.neg (canonical : Canonical u) : Canonical u.neg := by
  cases u <;> exact canonical

theorem isFinite_neg (finite : u.isFinite = true) : u.neg.isFinite = true := by
  cases u <;> first | rfl | cases finite

/-- Subtracting is adding what is negated. -/
theorem sub_eq_add (u w : UnpackedFloat) :
    UnpackedFloat.sub .binary64 u w = UnpackedFloat.add .binary64 u w.neg := by
  cases u with
  | notANumber => rfl
  | infinity s => cases w <;> rfl
  | zero s => cases w <;> rfl
  | finite s m d positive =>
    cases w with
    | finite t n e positive' =>
      have apply : ∀ k : ℤ, (-t).apply k = -t.apply k := by
        intro k
        cases t
        · exact (Int.neg_neg k).symm
        · rfl
      simp only [UnpackedFloat.sub, UnpackedFloat.add, UnpackedFloat.neg, apply, Int.sub_eq_add_neg]
    | notANumber => rfl
    | infinity t => rfl
    | zero t => rfl

theorem sub_writes (hu : Canonical u) (hw : Canonical w) (fu : u.isFinite = true)
    (fw : w.isFinite = true) : Writes (UnpackedFloat.sub .binary64 u w) (reading u - reading w) := by
  rw [sub_eq_add, sub_eq_add_neg, ← reading_neg]
  exact add_writes hu hw.neg fu (isFinite_neg fw)

theorem signed_mul (s t : Sign) : signed (s * t) = signed s * signed t := by
  cases s <;> cases t <;> simp only [signed] <;> norm_num

theorem zero_writes (s : Sign) : Writes (.zero s) 0 :=
  Canonical.writes (u := .zero s) trivial (by simp)

theorem mul_writes (hu : Canonical u) (hw : Canonical w) (fu : u.isFinite = true)
    (fw : w.isFinite = true) : Writes (UnpackedFloat.mul .binary64 u w) (reading u * reading w) := by
  cases u with
  | notANumber => cases fu
  | infinity s => cases fu
  | zero s =>
    rw [show reading (.zero s) = 0 from rfl, zero_mul]
    cases w with
    | notANumber => cases fw
    | infinity t => cases fw
    | zero t => exact zero_writes _
    | finite t n e positive => exact zero_writes _
  | finite s m d positive =>
    cases w with
    | notANumber => cases fw
    | infinity t => cases fw
    | zero t =>
      rw [show reading (.zero t) = 0 from rfl, mul_zero]
      exact zero_writes _
    | finite t n e positive' =>
      have product : ((m * n : ℕ) : ℚ) * 2 ^ (d + e) = m * 2 ^ d * (n * 2 ^ e) := by
        rw [zpow_add₀ (by norm_num)]
        push_cast
        ring
      have both : 0 < m * n := Nat.mul_pos positive positive'
      have log := log_size both (d + e)
      have fine : d + e ≤ grain (m * 2 ^ d * (n * 2 ^ e)) := by
        have many : 2 ^ 52 ≤ m ∨ 2 ^ 52 ≤ n → 52 ≤ (m * n).log2 := by
          intro full
          rw [Nat.le_log2 both.ne']
          rcases full with first | second
          · exact first.trans (Nat.le_mul_of_pos_right m positive')
          · exact second.trans (Nat.le_mul_of_pos_left n positive)
        have first := hu.1.full
        have second := hw.1.full
        rw [grain, ← product, log]
        omega
      have locates : Locates (m * n) .exact (m * 2 ^ d * (n * 2 ^ e) / 2 ^ (d + e)) := by
        rw [← product, mul_div_cancel_right₀ _ (two_zpow_pos _).ne']
        rfl
      have size : (0 : ℚ) < m * 2 ^ d * (n * 2 ^ e) :=
        mul_pos (size_pos positive d) (size_pos positive' e)
      have writes := (roundWithAccuracy_rounds (s * t) locates size fine).writes size.le
      rw [signed_mul, mul_mul_mul_comm] at writes
      exact writes

/-- The place of a quotient of whole numbers. -/
theorem locates_quotient (m : ℕ) (positive : 0 < n) :
    Locates (m / n) (accuracyOfFraction (m % n) n) (m / n) := by
  have size : (0 : ℚ) < n := by exact_mod_cast positive
  have whole : (m : ℚ) = n * (m / n : ℕ) + (m % n : ℕ) := by
    exact_mod_cast (Nat.div_add_mod m n).symm
  have value : (m : ℚ) / n = (m / n : ℕ) + (m % n : ℕ) / n := by
    rw [div_eq_iff size.ne', add_mul, div_mul_cancel₀ _ size.ne']
    linarith
  have remainder : ((m % n : ℕ) : ℚ) < n := by exact_mod_cast Nat.mod_lt m positive
  rw [value]
  rw [accuracyOfFraction]
  split
  · rename_i zero
    rw [zero]
    simp [Locates]
  · rename_i nonzero
    have rest : (0 : ℚ) < (m % n : ℕ) := by exact_mod_cast Nat.pos_of_ne_zero nonzero
    have some : 0 < ((m % n : ℕ) : ℚ) / n := div_pos rest size
    rcases lt_trichotomy (2 * (m % n)) n with below | half | above
    · have small : ((m % n : ℕ) : ℚ) / n < 1 / 2 := by
        rw [div_lt_iff₀ size]
        have exact : (2 : ℚ) * (m % n : ℕ) < n := by exact_mod_cast below
        linarith
      rw [compare_lt_iff_lt.mpr below]
      exact ⟨by linarith, by linarith⟩
    · have middle : ((m % n : ℕ) : ℚ) / n = 1 / 2 := by
        rw [div_eq_iff size.ne']
        have exact : (2 : ℚ) * (m % n : ℕ) = n := by exact_mod_cast half
        linarith
      rw [compare_eq_iff_eq.mpr half, middle]
      rfl
    · have large : 1 / 2 < ((m % n : ℕ) : ℚ) / n := by
        rw [lt_div_iff₀ size]
        have exact : (n : ℚ) < 2 * (m % n : ℕ) := by exact_mod_cast above
        linarith
      have less : ((m % n : ℕ) : ℚ) / n < 1 := (div_lt_one size).mpr remainder
      rw [compare_gt_iff_gt.mpr above]
      exact ⟨by linarith, by linarith⟩

theorem signed_div (s t : Sign) : signed (s / t) = signed s / signed t := by
  cases s <;> cases t <;> simp only [signed] <;> norm_num <;> rfl

theorem div_writes (hu : Canonical u) (fu : u.isFinite = true)
    (fw : w.isFinite = true) (nonzero : reading w ≠ 0) :
    Writes (UnpackedFloat.div .binary64 u w) (reading u / reading w) := by
  cases w with
  | notANumber => cases fw
  | infinity t => cases fw
  | zero t => exact absurd rfl nonzero
  | finite t' n e positive' =>
    cases u with
    | notANumber => cases fu
    | infinity s => cases fu
    | zero s =>
      rw [show reading (.zero s) = 0 from rfl, zero_div]
      exact zero_writes _
    | finite s m d positive =>
      have size := size_pos positive d
      have size' := size_pos positive' e
      have both : (0 : ℚ) < m * 2 ^ d / (n * 2 ^ e) := div_pos size size'
      -- The exponent at which the division of significands keeps bits enough.
      generalize deep : min (d - e) (Format.targetExponent .binary64
        (totalExponent m d - totalExponent n e)) = t
      have locates : Locates ((m <<< (d - e - t).toNat) / n)
          (accuracyOfFraction ((m <<< (d - e - t).toNat) % n) n)
          (m * 2 ^ d / (n * 2 ^ e) / 2 ^ t) := by
        have distance : ((d - e - t).toNat : ℤ) = d - e - t := by omega
        have whole : (m : ℚ) * 2 ^ d / (n * 2 ^ e) / 2 ^ t =
            (m <<< (d - e - t).toNat : ℕ) / n := by
          have shifted : ((m <<< (d - e - t).toNat : ℕ) : ℚ) = m * 2 ^ (d - e - t) := by
            rw [Nat.shiftLeft_eq, ← distance, zpow_natCast]
            push_cast
            rfl
          rw [shifted, zpow_sub₀ (by norm_num), zpow_sub₀ (by norm_num)]
          field_simp
        rw [whole]
        exact locates_quotient _ positive'
      have fine : t ≤ grain (m * 2 ^ d / (n * 2 ^ e)) := by
        have low : (2 : ℚ) ^ (m.log2 + d - (n.log2 + e + 1)) ≤ m * 2 ^ d / (n * 2 ^ e) := by
          rw [zpow_sub₀ (by norm_num)]
          refine div_le_div₀ size.le ?_ size' ?_
          · rw [← log_size positive]
            exact log_le size
          · rw [← log_size positive']
            exact (lt_log _).le
        have log := le_log low
        rw [targetExponent_eq, totalExponent, totalExponent] at deep
        rw [grain]
        omega
      have writes := (roundWithAccuracy_rounds (s / t') locates both fine).writes both.le
      rw [signed_div, div_mul_div_comm] at writes
      simp only [UnpackedFloat.div, divCore, deep]
      exact writes

end Vivarium.Binary64
