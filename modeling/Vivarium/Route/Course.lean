import Vivarium.Grid.Basic

/-!
The direction of travel of a segment. Along each axis it rises, falls or stands still, so a segment
never leaves tiles through two opposite edges, and every tile it enters has fewer tiles ahead.
-/
namespace Vivarium

/-- How a coordinate changes along a segment. -/
inductive Sense where
  | rising | falling
  deriving DecidableEq

structure Course where
  horizontal : Option Sense
  vertical : Option Sense
  deriving DecidableEq

namespace Course

/-- The edge lies ahead in the direction of travel. -/
def faces (c : Course) : Direction → Bool
  | .north => c.vertical = some .falling
  | .east => c.horizontal = some .rising
  | .south => c.vertical = some .rising
  | .west => c.horizontal = some .falling

/-- How many tiles can still be entered along one axis. -/
def reach : Option Sense → Nat → Nat → Nat
  | some .rising, size, place => size - 1 - place
  | some .falling, _, place => place
  | none, _, _ => 0

/-- How many tiles can still be entered, both axes together. -/
def ahead (c : Course) {e : Extent} (t : e.Tile) : Nat :=
  reach c.horizontal e.width t.x + reach c.vertical e.height t.y

theorem ahead_lt {c : Course} {e : Extent} {t next : e.Tile} {d : Direction}
    (facing : c.faces d = true) (step : e.neighbour? t.x t.y d = some next) :
    c.ahead next < c.ahead t := by
  obtain ⟨⟨x, hx⟩, ⟨y, hy⟩⟩ := t
  cases d <;> simp only [faces, decide_eq_true_eq] at facing <;>
    simp only [Extent.neighbour?, Extent.tile?] at step
  case east | south =>
    split at step
    · cases step
      simp only [ahead, reach, facing]
      omega
    · cases step
  case north | west =>
    split at step
    · cases step
    · split at step
      · cases step
        simp only [ahead, reach, facing]
        omega
      · cases step

theorem ahead_le_size (c : Course) {e : Extent} (t : e.Tile) :
    c.ahead t ≤ e.width + e.height - 2 := by
  have hx := t.x.isLt
  have hy := t.y.isLt
  simp only [ahead]
  rcases c with ⟨_ | _ | _, _ | _ | _⟩ <;> simp only [reach] <;> omega

end Course
end Vivarium
