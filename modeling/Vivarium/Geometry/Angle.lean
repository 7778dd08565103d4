import Vivarium.Scalar

/-!
Angles in radians, measured clockwise from east, and their representatives in the half-open turn
from `-π` (left out) to `π` (kept).
-/
namespace Vivarium.Angle
variable {F : Type} [Scalar F]

def east : F := Scalar.zero
def south : F := Scalar.pi / Scalar.ofNat 2
def west : F := Scalar.pi
def north : F := -(Scalar.pi / Scalar.ofNat 2)

/-- The angle that differs from `a` by whole turns and lies in the half-open turn; zero where
`a` is not finite. -/
def fold (a : F) : F :=
  if Scalar.isFinite a then
    let r := Scalar.remainder a Scalar.tau
    if r ≤ -Scalar.pi then r + Scalar.tau
    else if Scalar.pi < r then r - Scalar.tau
    else r
  else Scalar.zero

end Vivarium.Angle
