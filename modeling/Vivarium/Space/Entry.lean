import Vivarium.AgentId
import Vivarium.Geometry.Motion
import Vivarium.Route.Terrain
import Vivarium.Text.FixedPlaces

/-!
One stored object, and what a motion does to it; the errors of a store of such objects.
-/
namespace Vivarium

structure Entry (F : Type) where
  id : AgentId
  population : Population
  projection : Projection F
  deriving DecidableEq

/-- Why a store refuses an operation. -/
inductive StoreError (F : Type) where
  | duplicate (id : AgentId)
  | unknown (id : AgentId)
  | outside (id : AgentId) (position : Point F)

def StoreError.message : StoreError Float → String
  | duplicate id => s!"object {id.text} is already present in the space"
  | unknown id => s!"object {id.text} is not present in the space"
  | outside id p => s!"position {p.text} of object {id.text} lies outside the space"

namespace Entry
variable {F : Type} [Scalar F] [Trig F]

def position (e : Entry F) : Point F := e.projection.position

/-- The entry after a motion, clipped by the terrain; none if the motion is still. -/
def moved? (t : Terrain F) (m : Motion F) (e : Entry F) : Option (Entry F) :=
  if m.isStill then none
  else
    let aim := m.aim e.projection
    let way := t.route e.projection.position aim.destination
    some { e with projection := ⟨way.point, aim.orientation, way.collided⟩ }

end Entry
end Vivarium
