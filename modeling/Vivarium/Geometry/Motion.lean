import Vivarium.Geometry.Point
import Vivarium.Geometry.Angle

/-!
Where an object is (`Projection`) and how it wants to move in one step (`Motion`): turn first, then
advance along the new heading. The fields of a motion are free; `Motion.of` and `Motion.aim` clamp
them.
-/
namespace Vivarium

/-- Position and orientation of an object, and whether its last move was cut short by a wall. -/
structure Projection (F : Type) where
  position : Point F
  orientation : F
  collided : Bool
  deriving DecidableEq

namespace Projection
variable {F : Type} [Scalar F]

/-- At rest at the given place, facing east. -/
def placed (x y : F) : Projection F := ⟨⟨x, y⟩, Angle.east, false⟩

def facing (p : Projection F) (orientation : F) : Projection F :=
  { p with orientation := Angle.fold orientation }

end Projection

/-- Turn by `rotation`, then advance by `translation`. -/
structure Motion (F : Type) where
  rotation : F
  translation : F
  deriving DecidableEq

/-- What a motion asks for: the new orientation, and the point reached if no wall is in the way. -/
structure Aim (F : Type) where
  orientation : F
  destination : Point F
  deriving DecidableEq

namespace Motion
variable {F : Type} [Scalar F]

def rest : Motion F := ⟨Scalar.zero, Scalar.zero⟩

/-- A field that is not finite becomes zero, and so does a negative advance. -/
def of (rotation translation : F) : Motion F where
  rotation := if Scalar.isFinite rotation then rotation else Scalar.zero
  translation :=
    if Scalar.isFinite translation && Scalar.zero < translation then translation else Scalar.zero

/-- Turn from the orientation `current` to `heading`, then advance. -/
def toward (current heading translation : F) : Motion F :=
  of (Angle.fold (heading - current)) translation

def isStill (m : Motion F) : Bool := m.translation == Scalar.zero && m.rotation == Scalar.zero

def aim [Trig F] (m : Motion F) (start : Projection F) : Aim F :=
  let m := of m.rotation m.translation
  let orientation := Angle.fold (start.orientation + m.rotation)
  ⟨orientation,
    if Scalar.zero < m.translation then start.position.offset orientation m.translation
    else start.position⟩

end Motion
end Vivarium
