import Vivarium.Text.Blank

/-!
The four edges of a tile, their names, and sets of edges.
-/
namespace Vivarium

inductive Direction where
  | north | east | south | west
  deriving DecidableEq

namespace Direction

/-- Every direction, in the order in which edges are tested. -/
def all : List Direction := [north, east, south, west]

/-- The place of a direction in `all`. -/
def rank : Direction → Nat
  | north => 0
  | east => 1
  | south => 2
  | west => 3

def bit : Direction → UInt8
  | north => 1
  | east => 2
  | south => 4
  | west => 8

def opposite : Direction → Direction
  | north => south
  | east => west
  | south => north
  | west => east

/-- The step in tile coordinates toward the neighbour behind this edge. -/
def offset : Direction → Int × Int
  | north => (0, -1)
  | east => (1, 0)
  | south => (0, 1)
  | west => (-1, 0)

def letter : Direction → String
  | north => "N"
  | east => "E"
  | south => "S"
  | west => "W"

/-- Reads a letter or a full name, in either letter case, with blanks around it. Only the letters
of ASCII have a case here. -/
def ofName? (s : String) : Option Direction :=
  match String.ofList ((Text.trim s.toList).map Char.toLower) with
  | "n" | "north" => some north
  | "e" | "east" => some east
  | "s" | "south" => some south
  | "w" | "west" => some west
  | _ => none

end Direction

/-- A set of edges of one tile, one bit each. -/
structure WallMask where
  bits : UInt8
  deriving DecidableEq

namespace WallMask

def empty : WallMask := ⟨0⟩

/-- The bits that name no edge are dropped. -/
def ofBits (bits : UInt8) : WallMask := ⟨bits &&& 15⟩

def has (m : WallMask) (d : Direction) : Bool := m.bits &&& d.bit != 0

def insert (m : WallMask) (d : Direction) : WallMask := ⟨m.bits ||| d.bit⟩

def erase (m : WallMask) (d : Direction) : WallMask := ⟨m.bits &&& ~~~d.bit⟩

def set (m : WallMask) (d : Direction) (walled : Bool) : WallMask :=
  if walled then m.insert d else m.erase d

def union (m n : WallMask) : WallMask := ⟨m.bits ||| n.bits⟩

def isEmpty (m : WallMask) : Bool := m.bits == 0

def directions (m : WallMask) : List Direction := Direction.all.filter m.has

end WallMask
end Vivarium
