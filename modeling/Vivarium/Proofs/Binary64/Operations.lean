import Vivarium.Binary64
import Vivarium.Proofs.Binary64.Arithmetic
import Vivarium.Proofs.Scalar.Rounded

/-! The operations on binary64 numbers, seen through what their bits say: comparisons are exact, and
every other operation gives the nearest number to the exact result. -/
namespace Vivarium.Binary64
open Float.Model Float.Model.UnpackedFloat Scalar

/-- The bits of a number as they are read. -/
def view (v : Float) : UnpackedFloat := v.toModel.unpack

variable {a b v : Float}

theorem view_canonical (v : Float) : Canonical (view v) := unpack_canonical _

theorem number_iff : IsNumber v ↔ view v ≠ .notANumber := by
  change (view v).beq (view v) = true ↔ _
  rw [beq_iff_reading (view_canonical v) (view_canonical v)]
  simp

theorem isNaN_eq_false (number : IsNumber v) : v.isNaN = false := by
  rw [number_iff] at number
  change (view v).isNaN = false
  cases read : view v <;> simp_all [UnpackedFloat.isNaN]

theorem finite_iff_reading :
    Scalar.isFinite v = true ↔ IsNumber v ∧ |reading (view v)| < bound := by
  rw [number_iff]
  exact isFinite_iff_reading (view_canonical v)

theorem lt_iff_level : a < b ↔ IsNumber a ∧ IsNumber b ∧ reading (view a) < reading (view b) := by
  have same : a < b ↔ (view a).lt (view b) = true := decide_eq_true_iff
  rw [number_iff, number_iff, same]
  exact lt_iff_reading (view_canonical a) (view_canonical b)

theorem le_iff_level : a ≤ b ↔ IsNumber a ∧ IsNumber b ∧ reading (view a) ≤ reading (view b) := by
  have same : a ≤ b ↔ (view a).le (view b) = true := decide_eq_true_iff
  rw [number_iff, number_iff, same]
  exact le_iff_reading (view_canonical a) (view_canonical b)

theorem beq_iff_level :
    (a == b) = true ↔ IsNumber a ∧ IsNumber b ∧ reading (view a) = reading (view b) := by
  rw [number_iff, number_iff]
  exact beq_iff_reading (view_canonical a) (view_canonical b)

/-- What an operation writes is read as the nearest number. -/
theorem of_writes {u : UnpackedFloat} {x : ℚ} (writes : Writes u x) :
    IsNumber (Float.ofModel (Float.Model.pack u)) ∧
      reading (view (.ofModel (Float.Model.pack u))) = nearest x :=
  ⟨number_iff.mpr writes.1, writes.2⟩

theorem nearest_reading (number : IsNumber v) : nearest (reading (view v)) = reading (view v) := by
  have writes := (view_canonical v).writes (number_iff.mp number)
  rw [Writes] at writes
  rw [unpack_pack (view_canonical v)] at writes
  exact writes.2.symm

theorem nearest_nat {n : ℕ} (small : n < 2 ^ 53) : nearest n = n := by
  have exact := rounded_exact (e := 0) small (by norm_num)
  rw [zpow_zero, mul_one] at exact
  have large : (n : ℚ) ≤ bound := by
    have width : (n : ℚ) < 2 ^ 53 := by exact_mod_cast small
    have coarse := le_coarsest
    rw [bound]
    linarith
  rw [nearest_of_nonneg (Nat.cast_nonneg n), exact, min_eq_left large]

theorem ofNat_reading {n : ℕ} (small : n < UInt32.size) :
    IsNumber (Scalar.ofNat n : Float) ∧ reading (view (Scalar.ofNat n : Float)) = n := by
  have word : n.toUInt32.toNat = n := UInt32.toNat_ofNat_of_lt' small
  have writes := normalize_writes n.toUInt32.toNat 0 .positive
  rw [word, zpow_zero, mul_one, Int.cast_natCast] at writes
  have exact := nearest_nat (n := n) (small.trans (by decide))
  obtain ⟨number, value⟩ := of_writes writes
  rw [exact] at value
  have same : (Scalar.ofNat n : Float) =
      .ofModel (Float.Model.pack (UnpackedFloat.normalize .binary64 n 0 .positive)) := by
    change Float.ofModel (Float.Model.pack (UnpackedFloat.normalize .binary64 n.toUInt32.toNat 0 .positive)) = _
    rw [word]
  rw [same]
  exact ⟨number, value⟩

/-- Cutting off what stands behind the point. -/
theorem toInt_eq_floor {u : UnpackedFloat} {low high : ℤ} (finite : u.isFinite = true)
    (nonneg : 0 ≤ reading u) : u.toInt low high = ⌊reading u⌋ := by
  cases u with
  | notANumber => cases finite
  | infinity s => cases finite
  | zero s => simp [UnpackedFloat.toInt, reading]
  | finite s m e positive =>
    have size := size_pos positive e
    cases s with
    | negative =>
      simp only [reading, signed] at nonneg
      linarith
    | positive =>
      obtain ⟨value, exponent⟩ := decreaseExponent_value m e 0
      have locates : Locates (decreaseExponent m e 0).1 .exact
          (m * 2 ^ e / 2 ^ (decreaseExponent m e 0).2) :=
        (div_eq_iff (two_zpow_pos _).ne').mpr value.symm
      have whole := (locates.shiftToExponent (t := 0) (by omega)).1.floor
      rw [zpow_zero, div_one] at whole
      simp only [reading, signed, one_mul, whole, UnpackedFloat.toInt, roundToInt, Sign.apply]

theorem wholePart_reading (number : IsNumber v) (nonneg : 0 ≤ reading (view v))
    (small : reading (view v) < UInt32.size) : Scalar.wholePart v = ⌊reading (view v)⌋₊ := by
  have large : (UInt32.size : ℚ) < bound := by
    have coarse := le_coarsest
    rw [bound]
    norm_num [UInt32.size]
    linarith
  have finite : (view v).isFinite = true :=
    finite_iff_reading.mpr ⟨number, by rw [abs_of_nonneg nonneg]; exact small.trans large⟩
  have below : ⌊reading (view v)⌋₊ < UInt32.size := (Nat.floor_lt nonneg).mpr small
  have natural : ((view v).toInt 0 (UInt32.size - 1)).toNat = ⌊reading (view v)⌋₊ := by
    rw [toInt_eq_floor finite nonneg, Int.floor_toNat]
  change (UInt32.ofNatClamp ((view v).toInt 0 (UInt32.size - 1)).toNat).toNat = _
  rw [natural]
  simp [UInt32.ofNatClamp, below]

theorem neg_reading (number : IsNumber v) :
    IsNumber (-v) ∧ reading (view (-v)) = -reading (view v) := by
  have same : view (-v) = (view v).neg := unpack_pack (view_canonical v).neg
  rw [number_iff, same, reading_neg]
  refine ⟨?_, rfl⟩
  have some := number_iff.mp number
  cases read : view v <;> simp_all [UnpackedFloat.neg]

theorem add_reading (fa : Scalar.isFinite a = true) (fb : Scalar.isFinite b = true) :
    IsNumber (a + b) ∧ reading (view (a + b)) = nearest (reading (view a) + reading (view b)) :=
  of_writes (add_writes (view_canonical a) (view_canonical b) fa fb)

theorem sub_reading (fa : Scalar.isFinite a = true) (fb : Scalar.isFinite b = true) :
    IsNumber (a - b) ∧ reading (view (a - b)) = nearest (reading (view a) - reading (view b)) :=
  of_writes (sub_writes (view_canonical a) (view_canonical b) fa fb)

theorem mul_reading (fa : Scalar.isFinite a = true) (fb : Scalar.isFinite b = true) :
    IsNumber (a * b) ∧ reading (view (a * b)) = nearest (reading (view a) * reading (view b)) :=
  of_writes (mul_writes (view_canonical a) (view_canonical b) fa fb)

theorem div_reading (fa : Scalar.isFinite a = true) (fb : Scalar.isFinite b = true)
    (nonzero : reading (view b) ≠ 0) :
    IsNumber (a / b) ∧ reading (view (a / b)) = nearest (reading (view a) / reading (view b)) :=
  of_writes (div_writes (view_canonical a) fa fb nonzero)

theorem add_isNumber (fa : Scalar.isFinite a = true) (number : IsNumber b) : IsNumber (a + b) := by
  by_cases fb : Scalar.isFinite b = true
  · exact (add_reading fa fb).1
  · have finite : (view a).isFinite = true := fa
    have infinite : ∃ s, view b = .infinity s := by
      have some := number_iff.mp number
      have open' : ¬(view b).isFinite = true := fb
      cases read : view b <;> simp_all [UnpackedFloat.isFinite]
    obtain ⟨s, read⟩ := infinite
    have sum : UnpackedFloat.add .binary64 (view a) (view b) = .infinity s := by
      rw [read]
      cases read' : view a <;> simp_all [UnpackedFloat.isFinite, UnpackedFloat.add]
    have same : view (a + b) = .infinity s := by
      change UnpackedFloat.unpack .binary64
        (UnpackedFloat.pack .binary64 (UnpackedFloat.add .binary64 (view a) (view b))) = _
      rw [sum]
      exact unpack_pack (u := .infinity s) trivial
    rw [number_iff, same]
    simp

theorem reading_multiple_of_le {s : Sign} {m : ℕ} {d e : ℤ} {positive : 0 < m} (low : d ≤ e) :
    ∃ k : ℤ, reading (.finite s m e positive) = k * 2 ^ d := by
  have distance : ((e - d).toNat : ℤ) = e - d := by omega
  refine ⟨s.apply (m * 2 ^ (e - d).toNat : ℕ), ?_⟩
  rw [signed_apply, reading, mul_assoc]
  congr 1
  rw [Nat.cast_mul, Nat.cast_pow, Nat.cast_ofNat, mul_assoc, ← zpow_natCast, distance,
    ← zpow_add₀ (by norm_num), sub_add_cancel]

/-- Finite numbers are whole multiples of the smallest one. -/
theorem reading_multiple (finite : Scalar.isFinite v = true) :
    ∃ k : ℤ, reading (view v) = k * 2 ^ (-1074 : ℤ) := by
  have closed : (view v).isFinite = true := finite
  have canonical := view_canonical v
  revert closed canonical
  cases view v with
  | notANumber => intro closed; cases closed
  | infinity s => intro closed; cases closed
  | zero s => exact fun _ _ => ⟨0, by simp [reading]⟩
  | finite s m e positive =>
    rintro - ⟨fits, -⟩
    exact reading_multiple_of_le fits.low

theorem rounded_smallest : rounded (2 ^ (-1074 : ℤ)) = 2 ^ (-1074 : ℤ) := by
  have exact := rounded_exact (k := 1) (e := -1074) (by norm_num) le_rfl
  simpa using exact

/-- Rounding does not make a difference vanish. -/
theorem eq_of_nearest_sub (fa : Scalar.isFinite a = true) (fb : Scalar.isFinite b = true)
    (vanishes : nearest (reading (view a) - reading (view b)) = 0) :
    reading (view a) = reading (view b) := by
  obtain ⟨j, ha⟩ := reading_multiple fa
  obtain ⟨k, hb⟩ := reading_multiple fb
  have unit := two_zpow_pos (-1074)
  have positive : ∀ i : ℤ, 0 < i → 0 < nearest (i * 2 ^ (-1074 : ℤ)) := by
    intro i more
    have least : (2 : ℚ) ^ (-1074 : ℤ) ≤ i * 2 ^ (-1074 : ℤ) :=
      le_mul_of_one_le_left unit.le (by exact_mod_cast more)
    have size := unit.le.trans least
    have grown := rounded_mono unit.le least
    rw [rounded_smallest] at grown
    rw [nearest_of_nonneg size]
    exact lt_min (unit.trans_le grown) bound_pos
  rw [ha, hb, ← sub_mul, ← Int.cast_sub] at vanishes
  rw [ha, hb]
  rcases lt_trichotomy (j - k) 0 with less | same | more
  · have negated := positive (-(j - k)) (by omega)
    rw [Int.cast_neg, neg_mul, nearest_neg, vanishes, neg_zero] at negated
    exact absurd negated (lt_irrefl 0)
  · obtain rfl : j = k := by omega
    rfl
  · have grown := positive (j - k) more
    rw [vanishes] at grown
    exact absurd grown (lt_irrefl 0)

theorem abs_reading_le (finite : Scalar.isFinite v = true) : |reading (view v)| ≤ largest := by
  have closed : (view v).isFinite = true := finite
  have canonical := view_canonical v
  have coarse := le_coarsest
  revert closed canonical
  cases view v with
  | notANumber => intro closed; cases closed
  | infinity s => intro closed; cases closed
  | zero s =>
    intro _ _
    rw [reading, abs_zero, largest]
    linarith
  | finite s m e positive =>
    rintro - ⟨fits, small⟩
    have bits : (m : ℚ) ≤ 2 ^ 53 - 1 := by
      have whole : m + 1 ≤ 2 ^ 53 := fits.bits
      have exact : (m : ℚ) + 1 ≤ 2 ^ 53 := by exact_mod_cast whole
      linarith
    rw [abs_reading_finite, largest, coarsest]
    exact mul_le_mul bits (two_zpow_le small) (two_zpow_pos e).le (by norm_num)

theorem sub_isFinite (fa : Scalar.isFinite a = true) (number : IsNumber b)
    (nonneg : 0 ≤ reading (view b)) (small : reading (view b) < UInt32.size) :
    Scalar.isFinite (a - b) = true := by
  have large := largest_lt_bound
  have coarse := le_coarsest
  have narrow : (UInt32.size : ℚ) ≤ 2 ^ 32 := by norm_num [UInt32.size]
  have fb : Scalar.isFinite b = true := by
    refine finite_iff_reading.mpr ⟨number, ?_⟩
    rw [abs_of_nonneg nonneg, bound]
    linarith
  obtain ⟨number', value⟩ := sub_reading fa fb
  refine finite_iff_reading.mpr ⟨number', ?_⟩
  rw [value]
  refine (abs_nearest_le_largest ?_).trans_lt large
  obtain ⟨low, high⟩ := abs_le.mp (abs_reading_le fa)
  exact abs_le.mpr ⟨by linarith, by linarith⟩

end Vivarium.Binary64
