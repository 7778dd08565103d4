import Mathlib.Logic.Relation
import Vivarium.Proofs.Grid.Edges

/-! Rooms. Two tiles are joined if they share an edge that is a wall on neither side; a room is
what can be reached from one tile through such edges. On every grid that is made by setting and
clearing walls the two sides of an edge agree, so looking at one of them is enough. -/
namespace Vivarium.Grid
variable {g : Grid}

/-- The two sides of every inner edge are both set or both clear. -/
def Agrees (g : Grid) : Prop :=
  ∀ (t next : g.Tile) (d : Direction), g.extent.neighbour? t.x t.y d = some next →
    g.marked t d = g.marked next d.opposite

theorem empty_agrees (e : Extent) : (Grid.empty e).Agrees := by
  intro t next d _
  rw [marked_empty, marked_empty]

/-- Agreement of a grid of the same extent, said of its tiles. -/
theorem agrees_of_extent {g' : Grid} (extent : g'.extent = g.extent)
    (agrees : ∀ (t next : g.Tile) (d : Direction), g.extent.neighbour? t.x t.y d = some next →
      g'.hasMark t.x t.y d = g'.hasMark next.x next.y d.opposite) : g'.Agrees := by
  obtain ⟨e, stored⟩ := g'
  obtain rfl : e = g.extent := extent
  intro t next d step
  have sides := agrees t next d step
  rwa [hasMark_tile (g := ⟨g.extent, stored⟩), hasMark_tile (g := ⟨g.extent, stored⟩)] at sides

theorem setEdge_agrees (agrees : g.Agrees) (t : g.Tile) (d : Direction) (walled : Bool) :
    (g.setEdge t d walled).Agrees := by
  apply agrees_of_extent (setEdge_extent t d walled)
  intro u next c step
  have near := hasMark_setEdge t u d c walled
  have far := hasMark_setEdge t next d c.opposite walled
  rw [Extent.edgeOf_neighbour step, hasMark_tile, ← agrees u next c step, ← hasMark_tile] at far
  exact near.trans far.symm

/-- A grid made from an open one by setting and clearing walls. -/
inductive Built : Grid → Prop where
  | empty (e : Extent) : Built (.empty e)
  | setWall {g g' : Grid} {x y : Nat} {d : Direction} {walled : Bool} :
      Built g → g.setWall x y d walled = .ok g' → Built g'

theorem Built.setEdge (built : g.Built) (t : g.Tile) (d : Direction) (walled : Bool) :
    (g.setEdge t d walled).Built := by
  have set : g.setWall t.x t.y d walled = .ok (g.setEdge t d walled) := by
    rw [Grid.setWall, Extent.tile?_eq_some_iff.mpr ⟨rfl, rfl⟩]
  exact .setWall built set

theorem Built.agrees (built : g.Built) : g.Agrees := by
  induction built with
  | empty e => exact empty_agrees e
  | setWall _ set ih =>
    rw [Grid.setWall] at set
    split at set
    · cases set
      exact setEdge_agrees ih _ _ _
    · cases set

/-- Tiles side by side with no wall between them, seen from either side. -/
def Joined (g : Grid) (t next : g.Tile) : Prop :=
  ∃ d, g.extent.neighbour? t.x t.y d = some next ∧ (g.walls t).has d = false ∧
    (g.walls next).has d.opposite = false

/-- The tiles are connected by a chain of joined ones. -/
def SameRoom (g : Grid) : g.Tile → g.Tile → Prop := Relation.ReflTransGen g.Joined

/-- An edge that is no wall lies inside the grid. -/
theorem exists_behind {t : g.Tile} {d : Direction} (free : (g.walls t).has d = false) :
    ∃ next, g.extent.neighbour? t.x t.y d = some next := by
  rw [← Option.ne_none_iff_exists']
  intro outside
  rw [walls, WallMask.has_union, (Extent.has_border_iff t d).mpr outside, Bool.or_true] at free
  cases free

/-- Away from the border a wall is what was set as one. -/
theorem walls_inner {t next : g.Tile} {d : Direction}
    (step : g.extent.neighbour? t.x t.y d = some next) : (g.walls t).has d = g.marked t d := by
  have inside : (g.extent.border t.x t.y).has d = false := by
    rw [Bool.eq_false_iff, ne_eq, Extent.has_border_iff, step]
    simp
  rw [walls, WallMask.has_union, inside, Bool.or_false]
  rfl

/-- An inner edge is a wall from both sides or from neither. -/
theorem Agrees.walls_opposite (agrees : g.Agrees) {t next : g.Tile} {d : Direction}
    (step : g.extent.neighbour? t.x t.y d = some next) :
    (g.walls t).has d = (g.walls next).has d.opposite := by
  rw [walls_inner step, walls_inner (Extent.neighbour?_opposite step)]
  exact agrees t next d step

/-- A tile without a wall on an edge has a tile behind it, and the edge is open from there too. -/
theorem Agrees.joined (agrees : g.Agrees) {t : g.Tile} {d : Direction}
    (free : (g.walls t).has d = false) :
    ∃ next, g.extent.neighbour? t.x t.y d = some next ∧ g.Joined t next := by
  obtain ⟨next, step⟩ := exists_behind free
  exact ⟨next, step, d, step, free, (agrees.walls_opposite step).symm.trans free⟩

end Vivarium.Grid
