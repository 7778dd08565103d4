import Vivarium.Binary64

/-!
Points of the plane. The first coordinate grows to the east and the second to the south, so the
row of tiles with the least second coordinate is the northernmost one.
-/
namespace Vivarium

structure Point (F : Type) where
  x : F
  y : F
  deriving DecidableEq

namespace Point
variable {F : Type} [Scalar F]

/-- Both coordinates compare equal as numbers: the two zeros agree, and no point with an
undefined coordinate agrees with anything. -/
def agrees (p q : Point F) : Bool := p.x == q.x && p.y == q.y

def isFinite (p : Point F) : Bool := Scalar.isFinite p.x && Scalar.isFinite p.y

def squaredDistance (p q : Point F) : F :=
  let dx := q.x - p.x
  let dy := q.y - p.y
  dx * dx + dy * dy

/-- The point reached from `p` by going `distance` along `heading`. -/
def offset [Trig F] (p : Point F) (heading distance : F) : Point F :=
  ⟨p.x + Trig.cos heading * distance, p.y + Trig.sin heading * distance⟩

def distance (p q : Point Float) : Float := (p.squaredDistance q).sqrt

/-- The heading under which `q` lies as seen from `p`. -/
def headingTo (p q : Point Float) : Float := (q.y - p.y).atan2 (q.x - p.x)

end Point
end Vivarium
