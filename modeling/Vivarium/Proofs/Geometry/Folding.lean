import Mathlib.Algebra.Order.ToIntervalMod
import Vivarium.Geometry.Motion
import Vivarium.Proofs.Scalar.Unrounded

/-! Folding an angle into the half-open turn. The remainder by a whole turn keeps the side of the angle, so one
turn more or less may be left to go. Where these few operations are exact, of exact numbers and of rounded
ones alike, the folded angle is the one angle of the half-open turn that differs by whole turns. -/
namespace Vivarium.Angle
open Scalar

variable {F K : Type} [Scalar F] [Field K]

/-- The two numbers are apart by whole turns. -/
def Congruent (turn x y : K) : Prop := ∃ n : ℤ, y = x + n * turn

namespace Congruent
variable {turn x y z : K}

theorem symm (turns : Congruent turn x y) : Congruent turn y x := by
  obtain ⟨n, rfl⟩ := turns
  exact ⟨-n, by push_cast; ring⟩

theorem trans (first : Congruent turn x y) (second : Congruent turn y z) : Congruent turn x z := by
  obtain ⟨n, rfl⟩ := first
  obtain ⟨m, rfl⟩ := second
  exact ⟨n + m, by push_cast; ring⟩

end Congruent

variable [LinearOrder K] [IsStrictOrderedRing K] [FloorRing K]

/-- The half-open turn has one number of each kind. -/
theorem Congruent.eq_of_mem {x y z : K} (turns : Congruent (2 * x) y z) (positive : 0 < x)
    (first : y ∈ Set.Ioc (-x) x) (second : z ∈ Set.Ioc (-x) x) : z = y := by
  have := FloorRing.archimedean K
  obtain ⟨n, rfl⟩ := turns
  have turn : 0 < 2 * x := by linarith
  have top : -x + 2 * x = x := by ring
  have one := existsUnique_add_zsmul_mem_Ioc turn y (-x)
  rw [top] at one
  have none : n = 0 := one.unique (by simpa [zsmul_eq_mul] using second) (by simpa using first)
  simp [none]

/-- The scalars stand for numbers so that folding loses nothing: pi is positive, comparing with it is right,
and nothing is rounded, neither the remainder by a whole turn nor the turn that is added or taken away
where folding does so. -/
structure Faithful (angle : F → K) : Prop where
  pi_pos : 0 < angle pi
  tau_eq : angle tau = 2 * angle pi
  zero_eq : isFinite (zero : F) = true ∧ angle zero = 0
  le_neg_pi : ∀ {r}, isFinite r = true → (r ≤ -pi ↔ angle r ≤ -angle pi)
  pi_lt : ∀ {r}, isFinite r = true → (pi < r ↔ angle pi < angle r)
  remainder_eq : ∀ {a}, isFinite a = true → isFinite (remainder a tau) = true ∧
    angle (remainder a tau) = angle a - truncated (angle a / angle tau) * angle tau
  /-- What is smaller than a turn is its own remainder, as a scalar. -/
  remainder_self : ∀ {a}, isFinite a = true → |angle a| < angle tau → remainder a tau = a
  add_tau : ∀ {r}, isFinite r = true → -angle tau < angle r → angle r ≤ -angle pi →
    isFinite (r + tau) = true ∧ angle (r + tau) = angle r + angle tau
  sub_tau : ∀ {r}, isFinite r = true → angle pi < angle r → angle r < angle tau →
    isFinite (r - tau) = true ∧ angle (r - tau) = angle r - angle tau

/-- Folding gives the one representative in the half-open turn. -/
structure Folds (angle : F → K) : Prop where
  range : ∀ a, angle (fold a) ∈ Set.Ioc (-angle pi) (angle pi)
  turns : ∀ {a}, isFinite a = true → Congruent (angle tau) (angle a) (angle (fold a))
  only : ∀ {a}, isFinite a = true → ∀ x ∈ Set.Ioc (-angle pi) (angle pi),
    Congruent (angle tau) (angle a) x → x = angle (fold a)
  again : ∀ a : F, fold (fold a) = fold a
  same : ∀ {a b}, isFinite a = true → isFinite b = true →
    Congruent (angle tau) (angle a) (angle b) → angle (fold b) = angle (fold a)

namespace Faithful
variable {angle : F → K} {a : F} (faithful : Faithful angle)
include faithful

/-- Folding of a finite angle, one case for each side. -/
theorem fold_spec (finite : isFinite a = true) : isFinite (fold a) = true ∧
    angle (fold a) ∈ Set.Ioc (-angle pi) (angle pi) ∧
    Congruent (angle tau) (angle a) (angle (fold a)) := by
  obtain ⟨finite', value⟩ := faithful.remainder_eq finite
  have turn : 0 < angle (tau : F) := by linarith [faithful.pi_pos, faithful.tau_eq]
  have small := abs_sub_truncated_mul_lt turn (angle a)
  rw [← value] at small
  obtain ⟨low, high⟩ := abs_lt.mp small
  have turns : Congruent (angle tau) (angle a) (angle (remainder a tau)) :=
    ⟨-truncated (angle a / angle tau), by rw [value]; push_cast; ring⟩
  simp only [fold, if_pos finite, faithful.le_neg_pi finite', faithful.pi_lt finite']
  have whole := faithful.tau_eq
  split
  · rename_i under
    obtain ⟨finite'', raised⟩ := faithful.add_tau finite' low under
    rw [raised]
    exact ⟨finite'', ⟨by linarith, by linarith⟩, turns.trans ⟨1, by simp⟩⟩
  · rename_i above
    split
    · rename_i beyond
      obtain ⟨finite'', lowered⟩ := faithful.sub_tau finite' beyond high
      rw [lowered]
      exact ⟨finite'', ⟨by linarith, by linarith⟩, turns.trans ⟨-1, by simp [sub_eq_add_neg]⟩⟩
    · rename_i below
      exact ⟨finite', ⟨not_le.mp above, not_lt.mp below⟩, turns⟩

/-- What is in the half-open turn stays as it is. -/
theorem fold_self (finite : isFinite a = true) (within : angle a ∈ Set.Ioc (-angle pi) (angle pi)) :
    fold a = a := by
  have positive := faithful.pi_pos
  have whole := faithful.tau_eq
  have small : |angle a| < angle (tau : F) :=
    abs_lt.mpr ⟨by linarith [within.1], by linarith [within.2]⟩
  simp only [fold, if_pos finite, faithful.remainder_self finite small,
    faithful.le_neg_pi finite, faithful.pi_lt finite, if_neg (not_le.mpr within.1),
    if_neg (not_lt.mpr within.2)]

theorem fold_finite (a : F) : isFinite (fold a) = true ∧
    angle (fold a) ∈ Set.Ioc (-angle pi) (angle pi) := by
  by_cases finite : isFinite a = true
  · obtain ⟨folded, within, -⟩ := faithful.fold_spec finite
    exact ⟨folded, within⟩
  · obtain ⟨closed, value⟩ := faithful.zero_eq
    have positive := faithful.pi_pos
    rw [fold, if_neg finite, value]
    exact ⟨closed, ⟨by linarith, positive.le⟩⟩

theorem folds : Folds angle where
  range a := (faithful.fold_finite a).2
  turns finite := (faithful.fold_spec finite).2.2
  only := by
    intro a finite x within turns
    obtain ⟨-, folded, turns'⟩ := faithful.fold_spec finite
    have apart := turns'.symm.trans turns
    rw [faithful.tau_eq] at apart
    exact apart.eq_of_mem faithful.pi_pos folded within
  again a := by
    obtain ⟨finite, within⟩ := faithful.fold_finite a
    exact faithful.fold_self finite within
  same := by
    intro a b fa fb turns
    obtain ⟨-, first, turns'⟩ := faithful.fold_spec fa
    obtain ⟨-, second, turns''⟩ := faithful.fold_spec fb
    have apart := turns'.symm.trans (turns.trans turns'')
    rw [faithful.tau_eq] at apart
    exact apart.eq_of_mem faithful.pi_pos first second

end Faithful

section Unrounded
variable [Unrounded K]

/-- Exact numbers stand for themselves. -/
theorem faithful_unrounded (positive : (0 : K) < pi) : Faithful (id : K → K) where
  pi_pos := positive
  tau_eq := Unrounded.tau_eq
  zero_eq := ⟨rfl, Unrounded.zero_eq⟩
  le_neg_pi _ := .rfl
  pi_lt _ := .rfl
  remainder_eq _ := ⟨rfl, rfl⟩
  remainder_self := by
    intro a _ small
    have turn : 0 < (tau : K) := by linarith [Unrounded.tau_eq (K := K)]
    have part : |a / tau| < 1 := by
      rwa [abs_div, abs_of_pos turn, div_lt_one turn]
    rw [Unrounded.remainder_eq, truncated_eq_zero part, Int.cast_zero, zero_mul, sub_zero]
  add_tau _ _ _ := ⟨rfl, rfl⟩
  sub_tau _ _ _ := ⟨rfl, rfl⟩

/-- The turn from one angle toward another is folded, and so is the sum; what comes out is the other angle,
folded once. -/
theorem aim_toward [Trig K] (positive : (0 : K) < pi) (c h d : K) {p : Projection K}
    (faces : p.orientation = c) : ((Motion.toward c h d).aim p).orientation = fold h := by
  have folds := (faithful_unrounded positive).folds
  have turn : ((Motion.toward c h d).aim p).orientation = fold (c + fold (h - c)) := by
    rw [← faces]
    rfl
  rw [turn]
  obtain ⟨n, turned⟩ := folds.turns (a := h - c) rfl
  refine folds.same (a := h) (b := c + fold (h - c)) rfl rfl ⟨n, ?_⟩
  simp only [id_eq] at turned ⊢
  rw [turned]
  ring

end Unrounded
end Vivarium.Angle
