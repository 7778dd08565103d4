import Vivarium.Proofs.Scalar.Rounded

/-! One coordinate of a segment. While the end is still outside the unit interval that is being
crossed, the rounded parameter at which the interval is left lies between zero and one; once the end
is inside, the parameter is at least one. Rounding is monotone and keeps one, so quotients of
differences stay on their side. -/
namespace Vivarium
open Scalar Rounded Segment

namespace Sense

/-- The interval from `place` on is met on the way from the interval `first` to `finish`. -/
def OnWay (first : Nat) (finish : ℚ) : Option Sense → Nat → Prop
  | some .rising, place => first ≤ place ∧ (place : ℚ) ≤ finish
  | some .falling, place => place ≤ first ∧ finish < place + 1
  | none, place => place = first

/-- The end lies beyond the interval from `place` on. -/
def Pending (finish : ℚ) : Option Sense → Nat → Prop
  | some .rising, place => (place : ℚ) + 1 ≤ finish
  | some .falling, place => finish < place
  | none, _ => False

end Sense

variable {F : Type} [Scalar F] [Rounded F] {first place : Nat} {start finish : F}

theorem sense_rising {run : F} (rising : sense run = some .rising) : 0 < level run := by
  rw [sense] at rising
  split at rising
  · rename_i positive
    simpa only [level_zero] using (lt_iff.mp positive).2.2
  · split at rising <;> cases rising

theorem sense_falling {run : F} (falling : sense run = some .falling) : level run < 0 := by
  rw [sense] at falling
  split at falling
  · cases falling
  · split at falling
    · rename_i negative
      simpa only [level_zero] using (lt_iff.mp negative).2.2
    · cases falling

/-- A coordinate starts in the interval from `first` on and has a finite end. -/
structure Leg (first : Nat) (start finish : F) : Prop where
  small : first + 1 < UInt32.size
  number : IsNumber start
  low : (first : ℚ) ≤ level start
  high : level start < first + 1
  finite : isFinite finish = true

namespace Leg

theorem start_nonneg (leg : Leg first start finish) : 0 ≤ level start :=
  le_trans (Nat.cast_nonneg _) leg.low

theorem start_small (leg : Leg first start finish) : level start < UInt32.size :=
  leg.high.trans (by exact_mod_cast leg.small)

theorem start_finite (leg : Leg first start finish) : isFinite start = true :=
  number_finite leg.number leg.start_nonneg leg.start_small

theorem run_finite (leg : Leg first start finish) : isFinite (finish - start) = true :=
  sub_finite leg.finite leg.number leg.start_nonneg leg.start_small

theorem run_level (leg : Leg first start finish) :
    level (finish - start) = nearest F (level finish - level start) :=
  (sub_spec leg.finite leg.start_finite).2

theorem run_still (leg : Leg first start finish) (still : sense (finish - start) = none) :
    level finish = level start := by
  have number := finite_number leg.run_finite
  rw [sense] at still
  split at still
  · cases still
  · rename_i notRising
    split at still
    · cases still
    · rename_i notFalling
      apply eq_of_nearest_sub leg.finite leg.start_finite
      rw [← leg.run_level]
      apply le_antisymm
      · by_contra above
        exact notRising (lt_iff.mpr ⟨number_zero, number, by rw [level_zero]; linarith⟩)
      · by_contra below
        exact notFalling (lt_iff.mpr ⟨number, number_zero, by rw [level_zero]; linarith⟩)

theorem rises (leg : Leg first start finish) (rising : sense (finish - start) = some .rising) :
    level start < level finish := by
  by_contra above
  have back := nearest_nonpos (F := F) (x := level finish - level start) (by linarith)
  have run := sense_rising rising
  rw [leg.run_level] at run
  linarith

theorem falls (leg : Leg first start finish) (falling : sense (finish - start) = some .falling) :
    level finish < level start := by
  by_contra below
  have forth := nearest_nonneg (F := F) (x := level finish - level start) (by linarith)
  have run := sense_falling falling
  rw [leg.run_level] at run
  linarith

theorem start_onWay (leg : Leg first start finish) :
    Sense.OnWay first (level finish) (sense (finish - start)) first := by
  cases way : sense (finish - start) with
  | none => rfl
  | some sense =>
    cases sense with
    | rising => exact ⟨le_rfl, leg.low.trans (leg.rises way).le⟩
    | falling => exact ⟨le_rfl, (leg.falls way).trans leg.high⟩

/-- An interval on the way that the end is not beyond is the one that holds the end. -/
theorem arrived (leg : Leg first start finish)
    (onWay : Sense.OnWay first (level finish) (sense (finish - start)) place)
    (past : ¬Sense.Pending (level finish) (sense (finish - start)) place) :
    (place : ℚ) ≤ level finish ∧ level finish < place + 1 := by
  cases way : sense (finish - start) with
  | none =>
    simp only [way, Sense.OnWay] at onWay
    rw [leg.run_still way, onWay]
    exact ⟨leg.low, leg.high⟩
  | some sense =>
    cases sense with
    | rising =>
      simp only [way, Sense.OnWay, Sense.Pending] at onWay past
      exact ⟨onWay.2, not_le.mp past⟩
    | falling =>
      simp only [way, Sense.OnWay, Sense.Pending] at onWay past
      exact ⟨not_lt.mp past, onWay.2⟩

/-- The quotient that tells when the edge at `edge` is crossed. -/
theorem quotient (leg : Leg first start finish) {edge : F} (near : isFinite edge = true)
    (moving : level (finish - start) ≠ 0) :
    IsNumber ((edge - start) / (finish - start)) ∧
      level ((edge - start) / (finish - start)) =
        nearest F (nearest F (level edge - level start) /
          nearest F (level finish - level start)) := by
  have difference := sub_spec near leg.start_finite
  have finite := sub_finite near leg.number leg.start_nonneg leg.start_small
  obtain ⟨number, value⟩ := div_spec finite leg.run_finite moving
  exact ⟨number, by rw [value, difference.2, leg.run_level]⟩

/-- The parameter of an edge that lies on the way to the end. -/
theorem parameter_pending (leg : Leg first start finish) (small : place + 1 < UInt32.size)
    (onWay : Sense.OnWay first (level finish) (sense (finish - start)) place)
    (pending : Sense.Pending (level finish) (sense (finish - start)) place) :
    ∃ u, parameter (ofNat place) start (finish - start) = some u ∧ IsNumber u ∧
      0 ≤ level u ∧ level u ≤ 1 := by
  cases way : sense (finish - start) with
  | none => simp only [way, Sense.Pending] at pending
  | some sense =>
    cases sense with
    | rising =>
      simp only [way, Sense.OnWay, Sense.Pending] at onWay pending
      obtain ⟨finite, edge⟩ := add_one_spec (F := F) small
      have positive := sense_rising way
      obtain ⟨number, value⟩ := leg.quotient finite positive.ne'
      have behind : (first : ℚ) ≤ place := by exact_mod_cast onWay.1
      have forth : 0 ≤ nearest F ((place : ℚ) + 1 - level start) :=
        nearest_nonneg (by linarith [leg.high])
      have short : nearest F ((place : ℚ) + 1 - level start) ≤
          nearest F (level finish - level start) := nearest_mono (by linarith)
      rw [leg.run_level] at positive
      refine ⟨_, by simp only [parameter, way], number, ?_, ?_⟩
      · rw [value, edge]
        exact nearest_nonneg (div_nonneg forth positive.le)
      · rw [value, edge]
        exact nearest_le_one ((div_le_one positive).mpr short)
    | falling =>
      simp only [way, Sense.OnWay, Sense.Pending] at onWay pending
      have finite := finite_ofNat (F := F) (n := place) (by omega)
      have edge := (ofNat_spec (F := F) (n := place) (by omega)).2
      have negative := sense_falling way
      obtain ⟨number, value⟩ := leg.quotient finite negative.ne
      have ahead : (place : ℚ) ≤ first := by exact_mod_cast onWay.1
      have back : nearest F ((place : ℚ) - level start) ≤ 0 :=
        nearest_nonpos (by linarith [leg.low])
      have short : nearest F (level finish - level start) ≤
          nearest F ((place : ℚ) - level start) := nearest_mono (by linarith)
      rw [leg.run_level] at negative
      refine ⟨_, by simp only [parameter, way], number, ?_, ?_⟩
      · rw [value, edge]
        exact nearest_nonneg (div_nonneg_of_nonpos back negative.le)
      · rw [value, edge]
        exact nearest_le_one ((div_le_one_of_neg negative).mpr short)

/-- The parameter of an edge that lies behind the end. -/
theorem parameter_past (leg : Leg first start finish) (small : place + 1 < UInt32.size)
    (past : ¬Sense.Pending (level finish) (sense (finish - start)) place) {u : F}
    (found : parameter (ofNat place) start (finish - start) = some u) :
    IsNumber u ∧ 1 ≤ level u := by
  cases way : sense (finish - start) with
  | none => simp only [parameter, way, reduceCtorEq] at found
  | some sense =>
    cases sense with
    | rising =>
      simp only [way, Sense.Pending, not_le] at past
      simp only [parameter, way, Option.some.injEq] at found
      subst found
      obtain ⟨finite, edge⟩ := add_one_spec (F := F) small
      have positive := sense_rising way
      obtain ⟨number, value⟩ := leg.quotient finite positive.ne'
      have long : nearest F (level finish - level start) ≤
          nearest F ((place : ℚ) + 1 - level start) := nearest_mono (by linarith)
      rw [leg.run_level] at positive
      refine ⟨number, ?_⟩
      rw [value, edge]
      exact one_le_nearest ((one_le_div positive).mpr long)
    | falling =>
      simp only [way, Sense.Pending, not_lt] at past
      simp only [parameter, way, Option.some.injEq] at found
      subst found
      have finite := finite_ofNat (F := F) (n := place) (by omega)
      have edge := (ofNat_spec (F := F) (n := place) (by omega)).2
      have negative := sense_falling way
      obtain ⟨number, value⟩ := leg.quotient finite negative.ne
      have long : nearest F ((place : ℚ) - level start) ≤
          nearest F (level finish - level start) := nearest_mono (by linarith)
      rw [leg.run_level] at negative
      refine ⟨number, ?_⟩
      rw [value, edge]
      exact one_le_nearest ((one_le_div_of_neg negative).mpr long)

end Leg
end Vivarium
