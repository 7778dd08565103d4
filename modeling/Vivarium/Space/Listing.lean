import Vivarium.Geometry.Point
import Vivarium.AgentId
import Vivarium.Selection

/-!
The order in which a picture of positions lists them. The positions are cut from north to south into
slabs and each slab from west to east into clusters, and so on within the clusters until one holds
no more than six. Clusters are listed in the order they were cut in, the positions of the smallest
ones from the last to the first.
-/
namespace Vivarium

/-- An object and where it was when the picture was taken. -/
structure Sighting (F : Type) where
  id : AgentId
  position : Point F
  deriving DecidableEq

namespace Listing

/-- The most positions that a cluster holds without being cut. -/
def clusterSize : Nat := 6

/-- The smallest power of the cluster size that is at least a sixth of `count`, found in at most
`fuel` steps from `size` on. -/
def branchSize (count : Nat) : Nat → Nat → Nat
  | 0, size => size
  | fuel + 1, size =>
    if count ≤ size * clusterSize then size else branchSize count fuel (size * clusterSize)

/-- The smallest number whose square is at least `count`, found in at most `fuel` steps from `side`
on. -/
def squareSide (count : Nat) : Nat → Nat → Nat
  | 0, side => side
  | fuel + 1, side => if count ≤ side * side then side else squareSide count fuel (side + 1)

/-- How many parts `count` positions are cut into in each direction. -/
def partsOf (count : Nat) : Nat :=
  let branch := branchSize count count 1
  squareSide ((count + branch - 1) / branch) count 1

/-- Cuts off parts of `size` elements, the lowest first, until no more than one part remains. -/
def cut {α : Type} (less : α → α → Bool) (size : Nat) : Nat → List α → List (List α)
  | 0, xs => [xs]
  | fuel + 1, xs =>
    if xs.length ≤ size then [xs]
    else
      let xs := Selection.select less size xs
      xs.take size :: cut less size fuel (xs.drop size)

/-- Cuts into at most `parts` parts of equal size, the last one possibly smaller. -/
def cutInto {α : Type} (less : α → α → Bool) (parts : Nat) (xs : List α) : List (List α) :=
  cut less ((xs.length + parts - 1) / parts) parts xs

variable {F : Type} [Scalar F]

def northOf (a b : Sighting F) : Bool := decide (a.position.y < b.position.y)

def westOf (a b : Sighting F) : Bool := decide (a.position.x < b.position.x)

/-- The positions in the order of their listing, cut at most `levels` times. -/
def listed : Nat → List (Sighting F) → List (Sighting F)
  | 0, all => all.reverse
  | levels + 1, all =>
    if all.length ≤ clusterSize then all.reverse
    else
      let parts := partsOf all.length
      (cutInto northOf parts all).flatMap fun slab =>
        (cutInto westOf parts slab).flatMap (listed levels)

end Listing
end Vivarium
