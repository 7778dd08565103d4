import Std.Data.ExtTreeMap
import Vivarium.Grid.Extent

/-!
A grid of unit tiles with walls on their edges. An inner edge is stored on both of its tiles, and
the edges on the border are walls whatever is stored.
-/
namespace Vivarium

/-- One walled edge, named from one of its two tiles. -/
structure Wall where
  x : UInt32
  y : UInt32
  direction : Direction
  deriving DecidableEq

structure Grid where
  extent : Extent
  /-- The walls that were set, by the slot of their tile; the border is not among them. -/
  marks : Std.ExtTreeMap (Fin extent.area) WallMask

namespace Grid

/-- No walls but the border. -/
def empty (extent : Extent) : Grid := ⟨extent, ∅⟩

def ofSize (width height : UInt32) : Except GridError Grid :=
  (Extent.ofSize width height).map empty

abbrev Tile (g : Grid) : Type := g.extent.Tile

def slot (g : Grid) (t : g.Tile) : Fin g.extent.area :=
  ⟨g.extent.slot t.x t.y, Extent.slot_lt_area t.x.isLt t.y.isLt⟩

/-- The walls that were set in a slot. -/
def marksAt (g : Grid) (slot : Fin g.extent.area) : WallMask := g.marks.getD slot .empty

/-- The walls of a tile, its edges on the border included. -/
def walls (g : Grid) (t : g.Tile) : WallMask :=
  (g.marksAt (g.slot t)).union (g.extent.border t.x t.y)

/-- The walls read at any coordinates whose slot exists: those stored in the slot, and the edges
that coordinates like these have on the border. -/
def slotWalls? (g : Grid) (x y : Nat) : Option WallMask :=
  if h : g.extent.slot x y < g.extent.area then
    some ((g.marksAt ⟨_, h⟩).union (g.extent.border x y))
  else none

/-- No tile outside the grid has a wall. -/
def hasWall (g : Grid) (x y : Nat) (d : Direction) : Bool :=
  match g.extent.tile? x y with
  | some t => (g.walls t).has d
  | none => false

/-- Sets or clears one edge of one tile, and leaves the tile behind it as it is. -/
def mark (g : Grid) (t : g.Tile) (d : Direction) (walled : Bool) : Grid :=
  let slot := g.slot t
  { g with marks := g.marks.insert slot ((g.marksAt slot).set d walled) }

/-- Sets or clears an edge on both of its tiles. -/
def setEdge (g : Grid) (t : g.Tile) (d : Direction) (walled : Bool) : Grid :=
  match g.extent.neighbour? t.x t.y d with
  | some next => (g.mark t d walled).mark next d.opposite walled
  | none => g.mark t d walled

def setWall (g : Grid) (x y : Nat) (d : Direction) (walled : Bool) : Except GridError Grid :=
  match g.extent.tile? x y with
  | some t => .ok (g.setEdge t d walled)
  | none => .error (.noTile x y)

/-- Sets walls up to the first one outside the grid, which is reported. -/
def addWalls (g : Grid) : List Wall → Grid × Option GridError
  | [] => (g, none)
  | w :: rest =>
    match g.setWall w.x.toNat w.y.toNat w.direction true with
    | .ok g => g.addWalls rest
    | .error e => (g, some e)

/-- The grid with all the walls, or the error of the first one outside. -/
def withWalls (g : Grid) (walls : List Wall) : Except GridError Grid :=
  match g.addWalls walls with
  | (g, none) => .ok g
  | (_, some e) => .error e

/-- How many tiles have a wall that was set. -/
def walledTiles (g : Grid) : Nat := g.marks.toList.countP fun m => !m.2.isEmpty

end Grid
end Vivarium
