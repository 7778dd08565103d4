import Vivarium.Proofs.Binary64.HalfTurn
import Vivarium.Proofs.Space.NonFinite

/-! Headings of moved objects. Whoever moves is left with a folded orientation, whichever orientation it had and
whichever turn it was to take; so wherever folding is exact, the orientation is in the half-open turn. -/
namespace Vivarium
open Scalar

theorem Projection.carried_orientation {F : Type} [Scalar F] [Trig F] (p : Projection F)
    (t : Terrain F) {m : Motion F} (moves : m.isStill = false) :
    (p.carried t m).orientation = Angle.fold (p.orientation + m.clamped.rotation) := by
  rw [carried, if_neg (Bool.eq_false_iff.mp moves)]
  rfl

namespace Angle
variable {F K : Type} [Scalar F] [Trig F] [Field K] [LinearOrder K] {angle : F → K}

/-- A move that is not still succeeds for every stored object and leaves it with an orientation in the half-open
turn, whether it is moved alone or along with others. -/
def MovesWithin (angle : F → K) : Prop :=
  ∀ (t : Terrain F) (events : List (Space.Event F)) (id : AgentId) (m : Motion F),
    let s := (Space.empty t).metAll events
    id ∈ s.ids → m.isStill = false →
      ∃ p, angle p.orientation ∈ Set.Ioc (-angle pi) (angle pi) ∧
        (∃ s', s.moveObject id m = .ok (p, s') ∧ s'.projection? id = some p) ∧
        ∀ chunkSize motionOf, motionOf id = some m →
          (s.moveAll chunkSize motionOf).2.projection? id = some p

theorem Folds.movesWithin (folds : Folds angle) : MovesWithin angle := by
  intro t events id m s stored moves
  have wf : s.WellFormed := ((Space.empty_fresh t).metAll events).wellFormed
  obtain ⟨e, there, named⟩ := Space.mem_ids.mp stored
  have before : s.projection? id = some e.projection :=
    wf.projection?_eq_some.mpr ⟨e, there, named, rfl⟩
  refine ⟨e.projection.carried s.terrain m, ?_, wf.moveObject_carried before m, ?_⟩
  · rw [e.projection.carried_orientation s.terrain moves]
    exact folds.range _
  · intro chunkSize motionOf given
    exact wf.projection?_moveAll chunkSize given before

/-- Folding is exact. Computed with in any ordered field, with any positive number for pi, the folded angle is
the one angle of the half-open turn that differs by whole turns, every move leaves such an orientation, and the
motion toward a heading faces that heading. The operations on binary64 numbers that folding consists of
lose nothing, so the first two hold of them too. -/
theorem folding_exact :
    (∀ (K : Type) [Field K] [LinearOrder K] [IsStrictOrderedRing K] [FloorRing K] [Unrounded K]
      [Trig K], (0 : K) < pi → Folds (id : K → K) ∧ MovesWithin (id : K → K) ∧
        ∀ (c h d : K) (p : Projection K), p.orientation = c →
          ((Motion.toward c h d).aim p).orientation = fold h) ∧
    Faithful (Rounded.level : Float → ℚ) ∧ Folds (Rounded.level : Float → ℚ) ∧
      ∀ [Trig Float], MovesWithin (Rounded.level : Float → ℚ) := by
  refine ⟨?_, Binary64.faithful_level, Binary64.faithful_level.folds, ?_⟩
  · intro K _ _ _ _ _ _ positive
    have folds := (faithful_unrounded positive).folds
    exact ⟨folds, folds.movesWithin, fun c h d p faces => aim_toward positive c h d faces⟩
  · intro trig
    exact Binary64.faithful_level.folds.movesWithin

/-- With the true pi: one and a half turns fold to west, and from west it is no turn toward west, written
the other way. A stored object of binary64 numbers that turns by more than half a turn faces within it. -/
theorem folding_exact_west :
    ∃ (_ : Unrounded ℝ) (_ : Trig ℝ), (0 : ℝ) < pi ∧ (pi : ℝ) = Real.pi ∧
      fold (3 * Real.pi) = Real.pi ∧
      (∀ p : Projection ℝ, p.orientation = Real.pi →
        ((Motion.toward Real.pi (-Real.pi) 1).aim p).orientation = Real.pi) ∧
      ∃ p s', Space.pair.moveObject ⟨0⟩ ⟨4.0, 0.0⟩ = .ok (p, s') ∧
        Rounded.level p.orientation ∈
          Set.Ioc (-Rounded.level (pi : Float)) (Rounded.level (pi : Float)) := by
  let unrounded : Unrounded ℝ := ⟨id, Real.pi⟩
  let trig : Trig ℝ := ⟨Real.sin, Real.cos⟩
  have positive : (0 : ℝ) < pi := Real.pi_pos
  obtain ⟨folds, -, toward⟩ := folding_exact.1 ℝ positive
  have west : Real.pi ∈ Set.Ioc (-pi : ℝ) pi := ⟨by linarith [Real.pi_pos], le_rfl⟩
  have around : ∀ (a : ℝ) (n : ℤ), Real.pi = a + n * (2 * Real.pi) → fold a = Real.pi :=
    fun a n turns => (folds.only (a := a) rfl Real.pi west ⟨n, Unrounded.tau_eq (K := ℝ) ▸ turns⟩).symm
  refine ⟨unrounded, trig, positive, rfl, around _ (-1) (by push_cast; ring), ?_, ?_⟩
  · intro p faces
    rw [toward Real.pi (-Real.pi) 1 p faces]
    exact around _ 1 (by push_cast; ring)
  · obtain ⟨p, within, ⟨s', moved, -⟩, -⟩ := folding_exact.2.2.2 (.ofGrid Space.pairGrid)
      Space.pairEvents ⟨0⟩ ⟨4.0, 0.0⟩ Space.pair_stored (by decide +kernel)
    exact ⟨p, s', moved, within⟩

end Angle
end Vivarium
