import Vivarium.Proofs.Binary64.Order

/-! The rounding of results. A significand comes with two more bits that tell on which side of the
middle of its last place the exact result lies; shifting keeps them right, so the last shift rounds
to the nearest number. -/
namespace Vivarium.Binary64
open Float.Model Float.Model.UnpackedFloat

/-- The exact number `y` lies at the place of the significand that the accuracy tells. -/
def Locates (m : ℕ) (accuracy : Accuracy) (y : ℚ) : Prop :=
  match accuracy with
  | .exact => y = m
  | .inexact .lt => m < y ∧ y < m + 1 / 2
  | .inexact .eq => y = m + 1 / 2
  | .inexact .gt => m + 1 / 2 < y ∧ y < m + 1

variable {m n : ℕ} {accuracy : Accuracy} {x y : ℚ} {e t : ℤ}

theorem Locates.range (locates : Locates m accuracy y) : (m : ℚ) ≤ y ∧ y < m + 1 := by
  cases accuracy with
  | exact => exact ⟨locates.ge, by linarith [locates.le]⟩
  | inexact side =>
    cases side with
    | lt => exact ⟨locates.1.le, by linarith [locates.2]⟩
    | eq => exact ⟨by linarith [locates.ge], by linarith [locates.le]⟩
    | gt => exact ⟨by linarith [locates.1], locates.2⟩

theorem Locates.floor (locates : Locates m accuracy y) : ⌊y⌋ = m :=
  Int.floor_eq_iff.mpr (by exact_mod_cast locates.range)

theorem Locates.rounds (locates : Locates m accuracy y) :
    toEven y = accuracy.roundToNearestEven m := by
  have floor := locates.floor
  rw [toEven]
  rw [floor]
  cases accuracy with
  | exact =>
    have same : y = m := locates
    rw [if_pos (.inl (by rw [same]; norm_num))]
    rfl
  | inexact side =>
    cases side with
    | lt =>
      rw [if_pos (.inl (by push_cast; linarith [locates.2]))]
      rfl
    | eq =>
      have half : y - ((m : ℤ) : ℚ) = 1 / 2 := by push_cast; linarith [locates.le, locates.ge]
      simp only [Accuracy.roundToNearestEven, half, lt_self_iff_false, false_or, true_and]
      split <;> push_cast <;> omega
    | gt =>
      rw [if_neg]
      · rfl
      · push_cast
        rintro (below | ⟨half, -⟩) <;> linarith [locates.1]

theorem Locates.shiftRightOne {em : ExtendedMantissa}
    (locates : Locates em.mantissa em.accuracy y) :
    Locates em.shiftRightOne.mantissa em.shiftRightOne.accuracy (y / 2) := by
  obtain ⟨m, round, sticky⟩ := em
  have parts : (m : ℚ) = 2 * (m / 2 : ℕ) + (m % 2 : ℕ) := by
    exact_mod_cast (Nat.div_add_mod m 2).symm
  rcases Nat.mod_two_eq_zero_or_one m with even | odd
  · rw [even] at parts
    cases round <;> cases sticky <;>
      simp only [ExtendedMantissa.accuracy, Locates] at locates <;>
      simp only [ExtendedMantissa.shiftRightOne, even, ExtendedMantissa.accuracy, Locates,
        bne_self_eq_false, Bool.or_false, Bool.or_true, Bool.or_self] <;>
      push_cast at parts <;> grind
  · rw [odd] at parts
    cases round <;> cases sticky <;>
      simp only [ExtendedMantissa.accuracy, Locates] at locates <;>
      simp [ExtendedMantissa.shiftRightOne, odd, ExtendedMantissa.accuracy, Locates] <;>
      push_cast at parts <;> grind

theorem Locates.shiftRight {em : ExtendedMantissa} (locates : Locates em.mantissa em.accuracy y)
    (n : ℕ) : Locates (em >>> n).mantissa (em >>> n).accuracy (y / 2 ^ n) := by
  change Locates (n.repeat ExtendedMantissa.shiftRightOne em).mantissa
    (n.repeat ExtendedMantissa.shiftRightOne em).accuracy _
  induction n with
  | zero => simpa [Nat.repeat] using locates
  | succ n ih =>
    rw [pow_succ, ← div_div]
    exact ih.shiftRightOne

theorem Locates.extended (locates : Locates m accuracy y) :
    Locates (ExtendedMantissa.ofMantissaAndAccuracy m accuracy).mantissa
      (ExtendedMantissa.ofMantissaAndAccuracy m accuracy).accuracy y := by
  cases accuracy with
  | exact => exact locates
  | inexact side => cases side <;> exact locates

/-- Shifting to a larger exponent. -/
theorem Locates.shiftToExponent (locates : Locates m accuracy (x / 2 ^ e)) (up : e ≤ t) :
    Locates (shiftToExponent m e accuracy t).1.mantissa
      (shiftToExponent m e accuracy t).1.accuracy (x / 2 ^ t) ∧
      (UnpackedFloat.shiftToExponent m e accuracy t).2 = t := by
  have distance : ((t - e).toNat : ℤ) = t - e := Int.toNat_of_nonneg (by omega)
  have scale : x / 2 ^ t = x / 2 ^ e / 2 ^ (t - e).toNat := by
    rw [div_div, ← zpow_natCast, ← zpow_add₀ (by norm_num), distance]
    congr 2
    omega
  constructor
  · rw [scale]
    exact locates.extended.shiftRight _
  · simp only [UnpackedFloat.shiftToExponent, distance]
    omega

theorem targetExponent_eq (total : ℤ) :
    Format.targetExponent .binary64 total = max (total - 53) (-1074) := by
  have lowest : Format.minExponent .binary64 = -1074 := by decide
  have width : Format.mantissaBits .binary64 = 53 := by decide
  rw [Format.targetExponent, lowest, width]
  rfl

/-- The target exponent is the grain of the exact number, if there are bits enough to tell. -/
theorem Locates.target (locates : Locates m accuracy (x / 2 ^ e)) (positive : 0 < x)
    (fine : e ≤ grain x) :
    Format.targetExponent .binary64 (totalExponent m e) = grain x := by
  have scale := two_zpow_pos e
  obtain ⟨low, high⟩ := locates.range
  rw [le_div_iff₀ scale] at low
  rw [div_lt_iff₀ scale] at high
  rw [targetExponent_eq, totalExponent]
  rcases m.eq_zero_or_pos with rfl | some
  · have small : Int.log 2 x < e := by
      apply log_lt positive
      simpa using high
    have width : Nat.log2 0 = 0 := by decide
    unfold grain at fine ⊢
    rw [width]
    omega
  · have first : (2 : ℚ) ^ m.log2 ≤ m := by
      exact_mod_cast Nat.log2_self_le some.ne'
    have last : (m : ℚ) + 1 ≤ 2 ^ (m.log2 + 1) := by
      exact_mod_cast Nat.lt_log2_self
    have lower : (2 : ℚ) ^ (m.log2 + e) ≤ x := by
      rw [zpow_add₀ (by norm_num), zpow_natCast]
      exact (mul_le_mul_of_nonneg_right first scale.le).trans low
    have upper : x < 2 ^ (m.log2 + 1 + e) := by
      have whole : (2 : ℚ) ^ ((m.log2 : ℤ) + 1 + e) = 2 ^ (m.log2 + 1) * 2 ^ e := by
        rw [zpow_add₀ (by norm_num)]
        norm_cast
      rw [whole]
      exact high.trans_le (mul_le_mul_of_nonneg_right last scale.le)
    have atLeast := le_log lower
    have less := log_lt positive upper
    rw [grain]
    omega

/-- The bits of a number, zero apart, without regard to how large it is. -/
def Rounds (u : UnpackedFloat) (s : Sign) (x : ℚ) : Prop :=
  u = .zero s ∧ rounded x = 0 ∨
    ∃ m e, ∃ positive : 0 < m, u = .finite s m e positive ∧ Fits m e ∧ m * 2 ^ e = rounded x

theorem toEven_grain (positive : 0 < x) :
    0 ≤ toEven (x / 2 ^ grain x) ∧ toEven (x / 2 ^ grain x) ≤ 2 ^ 53 ∧
      (grain x = -1074 ∨ 2 ^ 52 ≤ toEven (x / 2 ^ grain x)) := by
  have scale := two_zpow_pos (grain x)
  have whole : ∀ k : ℤ, toEven (k : ℚ) = k := toEven_intCast
  refine ⟨?_, ?_, ?_⟩
  · rw [← whole 0]
    exact toEven_mono (by rw [Int.cast_zero]; exact div_nonneg positive.le scale.le)
  · rw [← whole (2 ^ 53)]
    apply toEven_mono
    rw [div_le_iff₀ scale]
    have size : x < 2 ^ (53 + grain x) := (lt_log x).trans_le (two_zpow_le (by unfold grain; omega))
    rw [zpow_add₀ (by norm_num)] at size
    exact_mod_cast size.le
  · by_cases lowest : grain x = -1074
    · exact .inl lowest
    · right
      rw [← whole (2 ^ 52)]
      apply toEven_mono
      rw [le_div_iff₀ scale]
      have size : 2 ^ (52 + grain x) ≤ x :=
        (two_zpow_le (by unfold grain at lowest ⊢; omega)).trans (log_le positive)
      rw [zpow_add₀ (by norm_num)] at size
      exact_mod_cast size

/-- After rounding a significand is shifted again only if it has overflowed to a power of two. -/
theorem shiftToTargetExponent_exact {r : ℕ} (bits : r < 2 ^ 53) (low : -1074 ≤ t) :
    (shiftToTargetExponent .binary64 r t .exact).1.mantissa = r ∧
      (shiftToTargetExponent .binary64 r t .exact).2 = t := by
  have log : r.log2 ≤ 52 := by
    rcases r.eq_zero_or_pos with rfl | some
    · decide
    · exact Nat.le_of_lt_succ ((Nat.log2_lt some.ne').mpr bits)
  have amount : (Format.targetExponent .binary64 (totalExponent r t) - t).toNat = 0 := by
    rw [targetExponent_eq, totalExponent]
    omega
  simp only [shiftToTargetExponent, UnpackedFloat.shiftToExponent, amount]
  exact ⟨rfl, by omega⟩

theorem shiftToTargetExponent_overflow (low : -1074 ≤ t) :
    (shiftToTargetExponent .binary64 (2 ^ 53) t .exact).1.mantissa = 2 ^ 52 ∧
      (shiftToTargetExponent .binary64 (2 ^ 53) t .exact).2 = t + 1 := by
  have log : Nat.log2 (2 ^ 53) = 53 := by decide
  have amount : (Format.targetExponent .binary64 (totalExponent (2 ^ 53) t) - t).toNat = 1 := by
    rw [targetExponent_eq, totalExponent, log]
    omega
  simp only [shiftToTargetExponent, UnpackedFloat.shiftToExponent, amount]
  exact ⟨rfl, rfl⟩

theorem roundWithAccuracy_rounds (s : Sign) (locates : Locates m accuracy (x / 2 ^ e))
    (positive : 0 < x) (fine : e ≤ grain x) :
    Rounds (roundWithAccuracy .binary64 s m e accuracy) s x := by
  obtain ⟨located, exponent⟩ := locates.shiftToExponent fine
  obtain ⟨nonneg, atMost, full⟩ := toEven_grain positive
  have low : -1074 ≤ grain x := le_max_right _ _
  generalize shifted : UnpackedFloat.shiftToExponent m e accuracy (grain x) = em at located exponent
  have mantissa : (em.1.roundedMantissa : ℤ) = toEven (x / 2 ^ grain x) := located.rounds.symm
  have value : (em.1.roundedMantissa : ℚ) * 2 ^ grain x = rounded x := by
    rw [rounded, ← mantissa]
    rfl
  rw [← mantissa] at nonneg atMost full
  rw [roundWithAccuracy]
  rw [shiftToTargetExponent, locates.target positive fine, shifted]
  dsimp only
  rw [exponent]
  rcases Nat.lt_or_ge em.1.roundedMantissa (2 ^ 53) with bits | overflow
  · obtain ⟨same, unmoved⟩ := shiftToTargetExponent_exact bits low
    split
    · rename_i zero
      rw [same] at zero
      rw [zero, Nat.cast_zero, zero_mul] at value
      exact .inl ⟨rfl, value.symm⟩
    · rename_i nonzero
      refine .inr ⟨_, _, _, rfl, ?_, ?_⟩
      · rw [same, unmoved]
        exact ⟨bits, low, by omega⟩
      · rw [same, unmoved, value]
  · have power : em.1.roundedMantissa = 2 ^ 53 := by omega
    obtain ⟨halved, moved⟩ := shiftToTargetExponent_overflow low
    rw [power]
    rw [dif_neg (by rw [halved]; norm_num)]
    refine .inr ⟨_, _, _, rfl, ?_, ?_⟩
    · rw [halved, moved]
      exact ⟨by norm_num, by omega, .inr le_rfl⟩
    · rw [halved, moved, ← value, power, zpow_add_one₀ (by norm_num)]
      push_cast
      ring

/-- What is written down is the nearest number to `x`. -/
def Writes (u : UnpackedFloat) (x : ℚ) : Prop :=
  UnpackedFloat.unpack .binary64 (UnpackedFloat.pack .binary64 u) ≠ .notANumber ∧
    reading (UnpackedFloat.unpack .binary64 (UnpackedFloat.pack .binary64 u)) = nearest x

theorem nearest_signed (s : Sign) (nonneg : 0 ≤ x) :
    nearest (signed s * x) = signed s * min (rounded x) bound := by
  cases s
  · rw [signed, neg_one_mul, nearest_neg, nearest_of_nonneg nonneg, neg_one_mul]
  · rw [signed, one_mul, nearest_of_nonneg nonneg, one_mul]

theorem Fits.bound_le_size (fits : Fits m e) (large : 971 < e) : bound ≤ m * 2 ^ e := by
  have full : 2 ^ 52 ≤ m := by
    rcases fits.full with low | full
    · omega
    · exact full
  calc bound
    _ = 2 ^ (53 + 971 : ℤ) := two_pow_mul_coarsest 53
    _ ≤ 2 ^ (52 + e) := two_zpow_le (by omega)
    _ = 2 ^ 52 * 2 ^ e := by rw [zpow_add₀ (by norm_num)]; norm_cast
    _ ≤ m * 2 ^ e := mul_le_mul_of_nonneg_right (by exact_mod_cast full) (two_zpow_pos e).le

theorem Rounds.writes {u : UnpackedFloat} {s : Sign} (rounds : Rounds u s x) (nonneg : 0 ≤ x) :
    Writes u (signed s * x) := by
  rw [Writes]
  rw [nearest_signed s nonneg]
  rcases rounds with ⟨rfl, zero⟩ | ⟨m, e, positive, rfl, fits, value⟩
  · rw [unpack_pack (u := .zero s) trivial, zero, min_eq_left bound_pos.le, mul_zero]
    exact ⟨by simp, rfl⟩
  · rw [unpack_pack_finite positive fits, ← value]
    split
    · rename_i small
      rw [min_eq_left (fits.size_lt_bound small).le]
      exact ⟨by simp, rfl⟩
    · rename_i large
      rw [min_eq_right (fits.bound_le_size (not_le.mp large))]
      exact ⟨by simp, rfl⟩

end Vivarium.Binary64
