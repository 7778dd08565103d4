import Vivarium.Route.Search

/-!
How movement is clipped. A `Terrain` says which positions are legal and how far a move gets; the
terrain of a grid stops moves at walls, an open one never stops them. A collision lies on an edge,
so the point that is answered is moved to the nearest number inside the tile that was being left.
-/
namespace Vivarium

/-- How far a move got, and the edge that stopped it. -/
structure Transition (F : Type) where
  point : Point F
  collision : Option Direction
  deriving DecidableEq

namespace Transition

def free {F : Type} (p : Point F) : Transition F := ⟨p, none⟩

def collided {F : Type} (t : Transition F) : Bool := t.collision.isSome

end Transition

structure Terrain (F : Type) where
  contains : Point F → Bool
  /-- The furthest point reachable from the first point toward the second. -/
  route : Point F → Point F → Transition F
  grid : Option Grid

namespace Terrain

/-- No wall lies between the two points. -/
def isVisible {F : Type} (t : Terrain F) (p q : Point F) : Bool := !(t.route p q).collided

end Terrain

namespace Grid
variable {F : Type} [Scalar F]

/-- `v` itself where it lies strictly between `low` and `low + 1`, else the nearest such number. -/
def inside (low v : F) : F :=
  let high := low + Scalar.one
  if v ≤ low then Scalar.nextUp low else if high ≤ v then Scalar.nextDown high else v

def insideTile {g : Grid} (t : g.Tile) (p : Point F) : Point F :=
  ⟨inside (Scalar.ofNat t.x) p.x, inside (Scalar.ofNat t.y) p.y⟩

/-- The search along a segment. -/
def searchAlong (g : Grid) (s : Segment F) : WallSearch F where
  grid := g
  course := s.course
  origin := s.start
  goal := g.extent.tileAt? s.finish
  exits t := s.exits t.x t.y

/-- The furthest point of the segment from `origin` to `destination` that no wall cuts off. What
lies outside the grid stays where it is, and so does what has no finite destination. -/
def route (g : Grid) (origin destination : Point F) : Transition F :=
  if origin.agrees destination then .free destination
  else if !destination.isFinite then .free origin
  else
    match g.extent.tileAt? origin with
    | none => .free origin
    | some start =>
      match (g.searchAlong ⟨origin, destination⟩).trace start with
      | none => .free destination
      | some hit => ⟨insideTile hit.tile hit.point, some hit.edge⟩

end Grid

namespace Terrain
variable {F : Type} [Scalar F]

def ofGrid (g : Grid) : Terrain F where
  contains := g.extent.contains
  route := g.route
  grid := some g

/-- Every finite position is legal and every move is free. -/
def unbounded : Terrain F where
  contains := Point.isFinite
  route _ destination := .free destination
  grid := none

end Terrain
end Vivarium
