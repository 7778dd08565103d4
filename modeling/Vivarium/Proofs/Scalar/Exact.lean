import Mathlib.Data.Rat.Floor
import Vivarium.Route.Segment

/-! Rational numbers as scalars, computed with exactly. Two things that scalars have are not in the
rational numbers: the number next to another one, and pi. They are given from outside, so what holds
of exact scalars holds whatever stands for them. -/
namespace Vivarium

/-- What exact arithmetic has to be given. -/
class Exact where
  nextUp : ℚ → ℚ
  pi : ℚ

instance [Exact] : Scalar ℚ where
  ltDecidable := inferInstance
  leDecidable := inferInstance
  ofNat n := n
  remainder a b := if 0 ≤ a / b then a - b * ⌊a / b⌋ else a - b * ⌈a / b⌉
  wholePart v := ⌊v⌋₊
  isFinite _ := true
  nextUp := Exact.nextUp
  pi := Exact.pi

namespace Exact
variable [Exact] {a b : ℚ}

@[simp]
theorem ofNat_eq (n : Nat) : (Scalar.ofNat n : ℚ) = n := rfl

@[simp]
theorem zero_eq : (Scalar.zero : ℚ) = 0 := Nat.cast_zero

@[simp]
theorem one_eq : (Scalar.one : ℚ) = 1 := Nat.cast_one

@[simp]
theorem wholePart_eq : Scalar.wholePart a = ⌊a⌋₊ := rfl

@[simp]
theorem isFinite_eq : Scalar.isFinite a = true := rfl

theorem larger_eq : Scalar.larger a b = max a b := by
  rw [Scalar.larger, if_pos (beq_self_eq_true a), max_def_lt]

theorem smaller_eq : Scalar.smaller a b = min a b := by
  rw [Scalar.smaller, if_pos (beq_self_eq_true a), min_comm, min_def_lt]

theorem abs_eq : Scalar.abs a = |a| := by
  rw [Scalar.abs, zero_eq]
  split
  · rename_i negative
    exact (abs_of_neg negative).symm
  · rename_i notNegative
    exact (abs_of_nonneg (not_lt.mp notNegative)).symm

/-- A number, or one of those next to it. -/
def NextTo (a b : ℚ) : Prop := b = a ∨ b = nextUp a ∨ b = Scalar.nextDown a

/-- Up to a limit, one step past a whole number, either way, is a small step. -/
structure Steps (limit : ℕ) (size : ℚ) : Prop where
  up : ∀ n : ℤ, -limit ≤ n → n < limit → (n : ℚ) < nextUp n
  small : ∀ n : ℤ, -limit ≤ n → n < limit → nextUp (n : ℚ) ≤ n + size

theorem Steps.down {limit : ℕ} {size : ℚ} (steps : Steps limit size) (n : ℤ) (low : -limit < n)
    (high : n ≤ limit) : Scalar.nextDown (n : ℚ) < n ∧ n - size ≤ Scalar.nextDown (n : ℚ) := by
  have up := steps.up (-n) (by omega) (by omega)
  have small := steps.small (-n) (by omega) (by omega)
  push_cast at up small
  exact ⟨neg_lt.mp up, by change _ ≤ -nextUp (-(n : ℚ)); linarith⟩

end Exact
end Vivarium
