import Mathlib.Algebra.Order.Floor.Ring
import Mathlib.Data.Int.Log
import Mathlib.Data.Rat.Floor
import Mathlib.Tactic.Linarith
import Mathlib.Tactic.NormNum
import Mathlib.Tactic.Positivity
import Mathlib.Tactic.Ring

/-! Rounding of rational numbers to the ones that 64 bits can hold: 53 significant bits, none below
`2 ^ -1074`, ties to the even side, and nothing beyond `2 ^ 1024`, which stands for infinity. -/
namespace Vivarium.Binary64

/-- The nearest whole number, of two equally near ones the even one. -/
def toEven (y : ℚ) : ℤ :=
  if y - ⌊y⌋ < 1 / 2 ∨ y - ⌊y⌋ = 1 / 2 ∧ ⌊y⌋ % 2 = 0 then ⌊y⌋ else ⌊y⌋ + 1

theorem toEven_intCast (n : ℤ) : toEven n = n := by
  simp [toEven]

theorem floor_le_toEven (y : ℚ) : ⌊y⌋ ≤ toEven y := by
  rw [toEven]
  split <;> omega

theorem toEven_le_floor_add_one (y : ℚ) : toEven y ≤ ⌊y⌋ + 1 := by
  rw [toEven]
  split <;> omega

theorem toEven_mono {y z : ℚ} (le : y ≤ z) : toEven y ≤ toEven z := by
  rcases (Int.floor_mono le).eq_or_lt with same | less
  · simp only [toEven]
    rw [same]
    split
    · split <;> omega
    · rename_i high
      rw [if_neg]
      intro low
      apply high
      rcases low with below | ⟨half, even⟩
      · exact .inl (by linarith)
      · rcases le.eq_or_lt with rfl | strict
        · exact .inr ⟨half, even⟩
        · exact .inl (by linarith)
  · have up := toEven_le_floor_add_one y
    have down := floor_le_toEven z
    omega

/-- The exponent of the last bit that a number of this size keeps. -/
def grain (x : ℚ) : ℤ := max (Int.log 2 x - 52) (-1074)

/-- A number that is not negative, rounded as if there were no largest one. -/
def rounded (x : ℚ) : ℚ := toEven (x / 2 ^ grain x) * 2 ^ grain x

/-- The grain of the largest numbers. -/
def coarsest : ℚ := 2 ^ (971 : ℤ)

/-- What stands for infinity. -/
def bound : ℚ := 2 ^ 53 * coarsest

def nearest (x : ℚ) : ℚ := if x < 0 then -min (rounded (-x)) bound else min (rounded x) bound

theorem two_zpow_pos (n : ℤ) : (0 : ℚ) < 2 ^ n := zpow_pos (by norm_num) n

theorem two_zpow_le {m n : ℤ} (le : m ≤ n) : (2 : ℚ) ^ m ≤ 2 ^ n :=
  zpow_le_zpow_right₀ (by norm_num) le

/-- A power of two counts whole grains of a smaller one. -/
theorem two_zpow_div {m n : ℤ} (le : m ≤ n) :
    (2 : ℚ) ^ n / 2 ^ m = ((2 ^ (n - m).toNat : ℕ) : ℤ) := by
  have exponent : ((n - m).toNat : ℤ) = n - m := Int.toNat_of_nonneg (by omega)
  rw [← zpow_sub₀ (by norm_num), ← exponent]
  push_cast
  exact zpow_natCast _ _

theorem log_le {x : ℚ} (positive : 0 < x) : (2 : ℚ) ^ Int.log 2 x ≤ x := by
  exact_mod_cast Int.zpow_log_le_self (b := 2) (by norm_num) positive

theorem lt_log (x : ℚ) : x < 2 ^ (Int.log 2 x + 1) := by
  exact_mod_cast Int.lt_zpow_succ_log_self (b := 2) (by norm_num) x

theorem log_lt {x : ℚ} (positive : 0 < x) {n : ℤ} (less : x < 2 ^ n) : Int.log 2 x < n := by
  have powers : (2 : ℚ) ^ Int.log 2 x < 2 ^ n := (log_le positive).trans_lt less
  exact (zpow_lt_zpow_iff_right₀ (by norm_num)).mp powers

theorem le_log {x : ℚ} {n : ℤ} (le : (2 : ℚ) ^ n ≤ x) : n ≤ Int.log 2 x := by
  have powers : (2 : ℚ) ^ n < 2 ^ (Int.log 2 x + 1) := le.trans_lt (lt_log x)
  have exponents := (zpow_lt_zpow_iff_right₀ (a := (2 : ℚ)) (by norm_num)).mp powers
  omega

theorem rounded_zero : rounded 0 = 0 := by
  have zero : toEven 0 = 0 := toEven_intCast 0
  rw [rounded, zero_div, zero, Int.cast_zero, zero_mul]

theorem rounded_nonneg {x : ℚ} (nonneg : 0 ≤ x) : 0 ≤ rounded x := by
  have least : (0 : ℤ) ≤ toEven (x / 2 ^ grain x) := by
    have mono := toEven_mono (div_nonneg nonneg (two_zpow_pos (grain x)).le)
    rwa [← Int.cast_zero, toEven_intCast] at mono
  exact mul_nonneg (by exact_mod_cast least) (two_zpow_pos _).le

/-- A multiple of a power of two with up to 53 significant bits is not changed. -/
theorem rounded_exact {k : ℕ} {e : ℤ} (small : k < 2 ^ 53) (low : -1074 ≤ e) :
    rounded (k * 2 ^ e) = k * 2 ^ e := by
  rcases k.eq_zero_or_pos with rfl | positive
  · simpa using rounded_zero
  · have size : (0 : ℚ) < k * 2 ^ e := mul_pos (by exact_mod_cast positive) (two_zpow_pos e)
    have below : (k : ℚ) * 2 ^ e < 2 ^ (53 + e) := by
      rw [zpow_add₀ (by norm_num)]
      exact mul_lt_mul_of_pos_right (by exact_mod_cast small) (two_zpow_pos e)
    have log := log_lt size below
    have fine : grain (k * 2 ^ e) ≤ e := by
      rw [grain]
      omega
    have whole : (k : ℚ) * 2 ^ e / 2 ^ grain (k * 2 ^ e) =
        ((k * 2 ^ (e - grain (k * 2 ^ e)).toNat : ℕ) : ℤ) := by
      rw [mul_div_assoc, two_zpow_div fine]
      push_cast
      ring
    rw [rounded]
    rw [whole, toEven_intCast, ← whole, div_mul_cancel₀ _ (two_zpow_pos _).ne']

/-- Numbers on both sides of a power of two stay on their sides. -/
theorem rounded_mono {x y : ℚ} (nonneg : 0 ≤ x) (le : x ≤ y) : rounded x ≤ rounded y := by
  rcases nonneg.eq_or_lt with rfl | positive
  · rw [rounded_zero]
    exact rounded_nonneg le
  · have log : Int.log 2 x ≤ Int.log 2 y := Int.log_mono_right positive le
    have order : grain x ≤ grain y := by
      simp only [grain]
      omega
    rcases order.eq_or_lt with same | finer
    · simp only [rounded]
      rw [← same]
      have steps := toEven_mono (div_le_div_of_nonneg_right le (two_zpow_pos (grain x)).le)
      exact mul_le_mul_of_nonneg_right (by exact_mod_cast steps) (two_zpow_pos _).le
    · have coarse : grain y = Int.log 2 y - 52 := by
        unfold grain at finer ⊢
        omega
      have logs : Int.log 2 x < Int.log 2 y := by
        rw [grain] at finer
        omega
      have under : x ≤ 2 ^ Int.log 2 y :=
        (lt_log x).le.trans (two_zpow_le (by omega))
      have beyond : (2 : ℚ) ^ Int.log 2 y ≤ y := log_le (positive.trans_le le)
      have upper : rounded x ≤ 2 ^ Int.log 2 y := by
        have steps := toEven_mono
          (div_le_div_of_nonneg_right under (two_zpow_pos (grain x)).le)
        rw [two_zpow_div (by omega), toEven_intCast, ← Int.cast_le (R := ℚ),
          ← two_zpow_div (by omega)] at steps
        exact (le_div_iff₀ (two_zpow_pos _)).mp steps
      have lower : (2 : ℚ) ^ Int.log 2 y ≤ rounded y := by
        have steps := toEven_mono
          (div_le_div_of_nonneg_right beyond (two_zpow_pos (grain y)).le)
        rw [two_zpow_div (by omega), toEven_intCast, ← Int.cast_le (R := ℚ),
          ← two_zpow_div (by omega)] at steps
        exact (div_le_iff₀ (two_zpow_pos _)).mp steps
      exact upper.trans lower

theorem le_coarsest : 2 ^ 40 ≤ coarsest := by
  have powers : (2 : ℚ) ^ (40 : ℤ) ≤ coarsest := two_zpow_le (by norm_num)
  exact_mod_cast powers

/-- A power of two that numbers with few bits reach. -/
theorem two_pow_mul_coarsest (n : ℕ) : 2 ^ n * coarsest = 2 ^ (n + 971 : ℤ) := by
  rw [zpow_add₀ (by norm_num), zpow_natCast, coarsest]

theorem bound_pos : 0 < bound := by
  rw [bound]
  linarith [le_coarsest]

theorem nearest_of_nonneg {x : ℚ} (nonneg : 0 ≤ x) : nearest x = min (rounded x) bound :=
  if_neg (not_lt.mpr nonneg)

theorem nearest_neg (x : ℚ) : nearest (-x) = -nearest x := by
  simp only [nearest]
  rcases lt_trichotomy x 0 with negative | rfl | positive
  · rw [if_neg (by linarith), if_pos negative, neg_neg]
  · simp [rounded_zero, bound_pos.le]
  · rw [if_pos (by linarith), if_neg (by linarith), neg_neg]

theorem nearest_mono : Monotone nearest := by
  intro x y le
  have sides : ∀ {x : ℚ}, 0 ≤ x → 0 ≤ min (rounded x) bound := by
    intro x nonneg
    exact le_min (rounded_nonneg nonneg) bound_pos.le
  simp only [nearest]
  split
  · rename_i negative
    split
    · rename_i alsoNegative
      exact neg_le_neg (min_le_min_right _ (rounded_mono (by linarith) (by linarith)))
    · rename_i nonneg
      have first := sides (x := -x) (by linarith)
      have second := sides (x := y) (by linarith)
      linarith
  · rename_i nonneg
    rw [if_neg (by linarith)]
    exact min_le_min_right _ (rounded_mono (by linarith) le)

/-- The largest number below the bound. -/
def largest : ℚ := (2 ^ 53 - 1) * coarsest

theorem largest_lt_bound : largest < bound := by
  unfold largest bound
  linarith [le_coarsest]

/-- What exceeds the largest number by less than half a grain is rounded back to it. -/
theorem rounded_le_largest {x : ℚ} (nonneg : 0 ≤ x) (le : x ≤ largest + 2 ^ 32) :
    rounded x ≤ largest := by
  apply (rounded_mono nonneg le).trans_eq
  have coarse := le_coarsest
  have positive : 0 < coarsest := by linarith
  have below : largest + 2 ^ 32 < (2 : ℚ) ^ (1024 : ℤ) := by
    refine lt_of_lt_of_eq ?_ (two_pow_mul_coarsest 53)
    rw [largest]
    linarith
  have above : (2 : ℚ) ^ (1023 : ℤ) ≤ largest + 2 ^ 32 := by
    apply (two_pow_mul_coarsest 52).symm.trans_le
    rw [largest]
    linarith
  have log : Int.log 2 (largest + 2 ^ 32) = 1023 := by
    have lower := le_log above
    have upper := log_lt ((two_zpow_pos _).trans_le above) below
    omega
  have last : (2 : ℚ) ^ grain (largest + 2 ^ 32) = coarsest := by
    rw [grain, log]
    rfl
  have quotient : (largest + 2 ^ 32) / coarsest = (2 ^ 53 - 1 : ℤ) + 2 ^ 32 / coarsest := by
    rw [largest, add_div, mul_div_cancel_right₀ _ positive.ne']
    norm_num
  have small : 2 ^ 32 / coarsest < 1 / 2 := by
    rw [div_lt_iff₀ positive]
    linarith
  have fraction : 0 ≤ 2 ^ 32 / coarsest := by positivity
  have floor : ⌊(largest + 2 ^ 32) / coarsest⌋ = 2 ^ 53 - 1 := by
    rw [quotient, Int.floor_intCast_add, Int.floor_eq_zero_iff.mpr ⟨fraction, by linarith⟩,
      add_zero]
  have even : toEven ((largest + 2 ^ 32) / coarsest) = 2 ^ 53 - 1 := by
    rw [toEven]
    rw [floor, if_pos (.inl (by rw [quotient]; linarith))]
  rw [rounded, last, even, largest]
  norm_num

theorem abs_nearest_le_largest {x : ℚ} (le : |x| ≤ largest + 2 ^ 32) : |nearest x| ≤ largest := by
  have sides : ∀ {x : ℚ}, 0 ≤ x → x ≤ largest + 2 ^ 32 → |min (rounded x) bound| ≤ largest := by
    intro x nonneg le
    rw [abs_of_nonneg (le_min (rounded_nonneg nonneg) bound_pos.le)]
    exact (min_le_left _ _).trans (rounded_le_largest nonneg le)
  obtain ⟨low, high⟩ := abs_le.mp le
  rw [nearest]
  split
  · rw [abs_neg]
    exact sides (by linarith) (by linarith)
  · exact sides (by linarith) high

end Vivarium.Binary64
