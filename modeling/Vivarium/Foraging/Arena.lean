import Vivarium.Grid.Basic

/-!
The arena: a room of four chambers. A partition runs from north to south between two columns, with a
door of two rows, and one from west to east between two rows, with a door on either side.
-/
namespace Vivarium.Foraging.Arena

def width : UInt32 := 24
def height : UInt32 := 16

def partitionRows : List UInt32 := [0, 1, 2, 3, 4, 5, 6, 9, 10, 11, 12, 13, 14, 15]
def westColumns : List UInt32 := [0, 1, 2, 3, 5, 6, 7, 8, 9, 10]
def eastColumns : List UInt32 := [13, 14, 15, 16, 17, 18, 20, 21, 22, 23]

def walls : List Wall :=
  partitionRows.map (⟨11, ·, .east⟩) ++ westColumns.map (⟨·, 7, .south⟩) ++
    eastColumns.map (⟨·, 8, .north⟩)

end Vivarium.Foraging.Arena
