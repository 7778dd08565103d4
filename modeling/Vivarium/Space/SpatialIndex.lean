import Vivarium.Space.Listing

/-!
A picture of all positions for queries by distance. It is taken anew by the first query after a
change, and counts how often that happened.
-/
namespace Vivarium

structure SpatialIndex (F : Type) where
  sightings : List (Sighting F)
  outdated : Bool
  rebuilds : Nat

namespace SpatialIndex
variable {F : Type}

def empty : SpatialIndex F := ⟨[], false, 0⟩

def invalidate (x : SpatialIndex F) : SpatialIndex F := { x with outdated := true }

variable [Scalar F]

/-- The picture as it is, or a new one of what is there now. -/
def refreshed (x : SpatialIndex F) (now : Unit → List (Sighting F)) : SpatialIndex F :=
  if x.outdated then
    let all := now ()
    ⟨Listing.listed all.length all, false, x.rebuilds + 1⟩
  else x

/-- The objects at most `radius` away from `center`, in the order of the listing. -/
def within (x : SpatialIndex F) (center : Point F) (radius : F) : List AgentId :=
  (x.sightings.filter fun s => decide (center.squaredDistance s.position ≤ radius * radius)).map
    (·.id)

/-- The `count` objects nearest to `center`, the nearest first, equally near ones by id; nothing if
there are distances to compare and one of them is no number. -/
def nearest? (x : SpatialIndex F) (center : Point F) (count : Nat) : Option (List AgentId) :=
  let ranked := x.sightings.map fun s => (center.squaredDistance s.position, s.id)
  if 1 < ranked.length && ranked.any (fun r => r.1 != r.1) then none
  else
    let sorted := ranked.mergeSort fun a b =>
      decide (a.1 < b.1) || (!decide (b.1 < a.1) && a.2.val ≤ b.2.val)
    some ((sorted.take count).map (·.2))

end SpatialIndex
end Vivarium
