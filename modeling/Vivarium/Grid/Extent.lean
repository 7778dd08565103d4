import Vivarium.Geometry.Point
import Vivarium.Grid.Direction
import Vivarium.Machine

/-!
The size of a grid and its tiles. Tile `(x, y)` covers the half-open unit square whose north-west
corner is the point `(x, y)`; the tiles of an extent are a type, so no tile lies outside its grid.
-/
namespace Vivarium

inductive GridError where
  | emptyGrid (width height : Nat)
  /-- More tiles, of a byte each, than a vector has. -/
  | tooLarge (width height : Nat)
  | noTile (x y : Nat)

namespace GridError

def message : GridError → String
  | emptyGrid w h => s!"invalid grid: grid must be at least 1×1, got {w}×{h}"
  | tooLarge w h => s!"invalid grid: {w}×{h} tiles are too many"
  | noTile x y => s!"tile ({x}, {y}) lies outside the grid"

end GridError

structure Extent where
  width : Nat
  height : Nat
  width_pos : 0 < width
  height_pos : 0 < height
  width_lt : width < UInt32.size
  height_lt : height < UInt32.size
  deriving DecidableEq

structure Extent.Tile (e : Extent) where
  x : Fin e.width
  y : Fin e.height
  deriving DecidableEq, Hashable

namespace Extent

/-- The number of tiles. -/
def area (e : Extent) : Nat := e.width * e.height

def ofSize (width height : UInt32) : Except GridError Extent :=
  if h : 0 < width.toNat ∧ 0 < height.toNat then
    let e : Extent :=
      ⟨width.toNat, height.toNat, h.1, h.2, width.toNat_lt_size, height.toNat_lt_size⟩
    if e.area < Machine.vectorLimit then .ok e else .error (.tooLarge e.width e.height)
  else .error (.emptyGrid width.toNat height.toNat)

/-- Where tile `(x, y)` stands when the rows are written one after the other. -/
def slot (e : Extent) (x y : Nat) : Nat := y * e.width + x

theorem slot_lt_area {e : Extent} {x y : Nat} (hx : x < e.width) (hy : y < e.height) :
    e.slot x y < e.area := by
  have row : (y + 1) * e.width ≤ e.height * e.width := Nat.mul_le_mul_right _ hy
  have expand : (y + 1) * e.width = y * e.width + e.width := Nat.succ_mul y e.width
  have swap : e.area = e.height * e.width := Nat.mul_comm _ _
  simp only [slot]
  omega

def tile? (e : Extent) (x y : Nat) : Option e.Tile :=
  if h : x < e.width ∧ y < e.height then some ⟨⟨x, h.1⟩, ⟨y, h.2⟩⟩ else none

/-- The tile behind edge `d` of `(x, y)`, unless it lies outside. -/
def neighbour? (e : Extent) (x y : Nat) : Direction → Option e.Tile
  | .north => if y = 0 then none else e.tile? x (y - 1)
  | .east => e.tile? (x + 1) y
  | .south => e.tile? x (y + 1)
  | .west => if x = 0 then none else e.tile? (x - 1) y

/-- The edges of `(x, y)` that lie on the border of the grid. -/
def border (e : Extent) (x y : Nat) : WallMask :=
  Direction.all.foldl
    (fun m d => if onBorder d then m.insert d else m) .empty
where
  onBorder : Direction → Bool
    | .north => y == 0
    | .east => x + 1 == e.width
    | .south => y + 1 == e.height
    | .west => x == 0

section
variable {F : Type} [Scalar F]

/-- The point lies in the half-open rectangle of the grid. -/
def contains (e : Extent) (p : Point F) : Bool :=
  Scalar.zero ≤ p.x && Scalar.zero ≤ p.y && p.x < Scalar.ofNat e.width &&
    p.y < Scalar.ofNat e.height

/-- The tile that covers a point. -/
def tileAt? (e : Extent) (p : Point F) : Option e.Tile :=
  if e.contains p then
    some ⟨clip e.width e.width_pos p.x, clip e.height e.height_pos p.y⟩
  else none
where
  clip (n : Nat) (pos : 0 < n) (v : F) : Fin n :=
    ⟨min (Scalar.wholePart v) (n - 1), by omega⟩

def Tile.center {e : Extent} (t : e.Tile) : Point F :=
  ⟨Scalar.ofNat t.x + 0.5, Scalar.ofNat t.y + 0.5⟩

end
end Extent
end Vivarium
