import Vivarium.Grid.Basic

/-! What is stored of an edge. Marks are kept by tile and direction, so an inner edge is named from either
of its two tiles; both names stand for one stretch of a line between columns or rows. Setting a wall from
a tile changes what is stored of this stretch, on both of its sides, and of no other. -/
namespace Vivarium

namespace Direction

@[simp]
theorem opposite_opposite (d : Direction) : d.opposite.opposite = d := by
  cases d <;> rfl

end Direction

namespace WallMask

theorem has_eq_getLsbD (m : WallMask) (d : Direction) :
    m.has d = m.bits.toBitVec.getLsbD d.rank := by
  have bit : ∀ (v : BitVec 8) (d : Direction),
      (UInt8.ofBitVec v &&& d.bit != 0) = v.getLsbD d.rank := by
    intro v d
    cases d <;> revert v <;> decide
  exact bit m.bits.toBitVec d

theorem getLsbD_bit (d e : Direction) : d.bit.toBitVec.getLsbD e.rank = decide (d = e) := by
  cases d <;> cases e <;> rfl

@[simp]
theorem has_insert (m : WallMask) (d e : Direction) :
    (m.insert d).has e = (m.has e || decide (d = e)) := by
  simp [has_eq_getLsbD, insert, getLsbD_bit]

@[simp]
theorem has_erase (m : WallMask) (d e : Direction) :
    (m.erase d).has e = (m.has e && !decide (d = e)) := by
  have bound : e.rank < 8 := by cases e <;> decide
  simp only [has_eq_getLsbD, erase, UInt8.toBitVec_and, UInt8.toBitVec_not, BitVec.getLsbD_and,
    BitVec.getLsbD_not, getLsbD_bit, bound, decide_true, Bool.true_and]

@[simp]
theorem has_union (m n : WallMask) (d : Direction) : (m.union n).has d = (m.has d || n.has d) := by
  simp [has_eq_getLsbD, union]

@[simp]
theorem has_set (m : WallMask) (d e : Direction) (walled : Bool) :
    (m.set d walled).has e = if d = e then walled else m.has e := by
  rw [set]
  cases walled <;> by_cases same : d = e <;> simp [same]

@[simp]
theorem has_empty (d : Direction) : WallMask.empty.has d = false := by
  cases d <;> rfl

end WallMask

/-- A unit stretch of a grid line, whichever tile it is named from. -/
structure Edge where
  /-- It divides columns, not rows. -/
  upright : Bool
  /-- How many columns or rows lie before its line. -/
  line : Nat
  /-- The row or column that it runs along. -/
  place : Nat
  deriving DecidableEq

namespace Edge

/-- The edge on one side of tile `(x, y)`. -/
def of (x y : Nat) : Direction → Edge
  | .north => ⟨false, y, x⟩
  | .east => ⟨true, x + 1, y⟩
  | .south => ⟨false, y + 1, x⟩
  | .west => ⟨true, x, y⟩

/-- The edge lies on the first or the last line of the grid. -/
def OnBorder (edge : Edge) (e : Extent) : Prop :=
  edge.line = 0 ∨ edge.line = if edge.upright then e.width else e.height

instance (edge : Edge) (e : Extent) : Decidable (edge.OnBorder e) :=
  inferInstanceAs (Decidable (_ ∨ _))

end Edge

namespace Extent
variable {e : Extent}

theorem Tile.ext_index {t u : e.Tile} (hx : t.x.val = u.x.val) (hy : t.y.val = u.y.val) :
    t = u := by
  obtain ⟨tx, ty⟩ := t
  obtain ⟨ux, uy⟩ := u
  simp only [Tile.mk.injEq]
  exact ⟨Fin.ext hx, Fin.ext hy⟩

theorem tile?_eq_some_iff {x y : Nat} {t : e.Tile} :
    e.tile? x y = some t ↔ t.x.val = x ∧ t.y.val = y := by
  rw [tile?]
  constructor
  · intro found
    split at found
    · obtain rfl := Option.some.inj found
      exact ⟨rfl, rfl⟩
    · cases found
  · rintro ⟨rfl, rfl⟩
    rw [dif_pos ⟨t.x.isLt, t.y.isLt⟩]

/-- The coordinates of the tile behind an edge. -/
theorem neighbour?_eq_some_iff {t next : e.Tile} {d : Direction} :
    e.neighbour? t.x t.y d = some next ↔
      (next.x : Int) = t.x + d.offset.1 ∧ (next.y : Int) = t.y + d.offset.2 := by
  cases d <;> simp only [neighbour?, Direction.offset]
  case east | south =>
    rw [tile?_eq_some_iff]
    omega
  case north | west =>
    split
    · simp only [reduceCtorEq, false_iff]
      omega
    · rw [tile?_eq_some_iff]
      omega

theorem neighbour?_opposite {t next : e.Tile} {d : Direction}
    (step : e.neighbour? t.x t.y d = some next) :
    e.neighbour? next.x next.y d.opposite = some t := by
  rw [neighbour?_eq_some_iff] at step ⊢
  cases d <;> simp only [Direction.offset, Direction.opposite] at step ⊢ <;> omega

theorem has_border (x y : Nat) (d : Direction) :
    (e.border x y).has d = border.onBorder e x y d := by
  simp only [border, Direction.all, List.foldl_cons, List.foldl_nil]
  cases d <;> cases border.onBorder e x y .north <;> cases border.onBorder e x y .east <;>
    cases border.onBorder e x y .south <;> cases border.onBorder e x y .west <;> rfl

/-- An edge lies on the border where there is no tile behind it. -/
theorem has_border_iff (t : e.Tile) (d : Direction) :
    (e.border t.x t.y).has d = true ↔ e.neighbour? t.x t.y d = none := by
  have hx := t.x.isLt
  have hy := t.y.isLt
  rw [has_border]
  cases d <;> simp only [border.onBorder, neighbour?, tile?, beq_iff_eq] <;> grind

theorem slot_injective {t u : e.Tile} (same : e.slot t.x t.y = e.slot u.x u.y) : t = u := by
  have hx := t.x.isLt
  have hx' := u.x.isLt
  simp only [slot] at same
  have row : t.y.val = u.y.val := by
    have quotient := congrArg (· / e.width) same
    simpa [Nat.mul_comm _ e.width, Nat.mul_add_div e.width_pos, Nat.div_eq_of_lt, hx, hx'] using
      quotient
  rw [row] at same
  exact Tile.ext_index (by omega) row

def Tile.edgeOf (t : e.Tile) (d : Direction) : Edge := .of t.x t.y d

/-- The two names of an inner edge. -/
theorem edgeOf_neighbour {t next : e.Tile} {d : Direction}
    (step : e.neighbour? t.x t.y d = some next) : next.edgeOf d.opposite = t.edgeOf d := by
  rw [neighbour?_eq_some_iff] at step
  cases d <;>
    simp only [Direction.offset, Direction.opposite, Tile.edgeOf, Edge.of, Edge.mk.injEq,
      true_and] at step ⊢ <;>
    omega

/-- An edge has no names but those from its own tiles. -/
theorem edgeOf_eq_iff {t u : e.Tile} {d c : Direction} :
    t.edgeOf d = u.edgeOf c ↔
      t = u ∧ d = c ∨ e.neighbour? t.x t.y d = some u ∧ d.opposite = c := by
  constructor
  · intro same
    rw [neighbour?_eq_some_iff]
    cases d <;> cases c <;>
      simp only [Tile.edgeOf, Edge.of, Edge.mk.injEq, Direction.offset, Direction.opposite,
        reduceCtorEq, and_true, and_false, false_and, or_false, false_or, true_and] at same ⊢
    case north.north | east.east | south.south | west.west =>
      exact Tile.ext_index (by omega) (by omega)
    all_goals omega
  · rintro (⟨rfl, rfl⟩ | ⟨step, rfl⟩)
    · rfl
    · exact (edgeOf_neighbour step).symm

/-- The edges that the border mask of a tile names. -/
theorem onBorder_iff {t : e.Tile} {d : Direction} :
    (t.edgeOf d).OnBorder e ↔ (e.border t.x t.y).has d = true := by
  have hx := t.x.isLt
  have hy := t.y.isLt
  rw [has_border]
  cases d <;>
    simp only [Tile.edgeOf, Edge.of, Edge.OnBorder, border.onBorder, beq_iff_eq, if_true,
      Bool.false_eq_true, if_false] <;>
    omega

end Extent

namespace Grid
variable {g : Grid}

/-- An edge of a tile was set as a wall. -/
def marked (g : Grid) (t : g.Tile) (d : Direction) : Bool := (g.marksAt (g.slot t)).has d

theorem slot_inj {t u : g.Tile} : g.slot t = g.slot u ↔ t = u := by
  constructor
  · intro same
    exact Extent.slot_injective (congrArg Fin.val same)
  · rintro rfl
    rfl

theorem marked_empty (e : Extent) (t : (Grid.empty e).Tile) (d : Direction) :
    (Grid.empty e).marked t d = false := by
  have blank : (Grid.empty e).marksAt ((Grid.empty e).slot t) = .empty :=
    Std.ExtTreeMap.getD_empty
  rw [marked, blank, WallMask.has_empty]

theorem marked_mark (t u : g.Tile) (d c : Direction) (walled : Bool) :
    (g.mark t d walled).marked u c = if t = u ∧ d = c then walled else g.marked u c := by
  have slots : compare (g.slot t) (g.slot u) = .eq ↔ t = u := by
    rw [Std.compare_eq_iff_eq, slot_inj]
  have there : (g.mark t d walled).marksAt (g.slot u) =
      if compare (g.slot t) (g.slot u) = .eq then (g.marksAt (g.slot t)).set d walled
      else g.marksAt (g.slot u) :=
    Std.ExtTreeMap.getD_insert
  change ((g.mark t d walled).marksAt (g.slot u)).has c = _
  simp only [there, slots]
  by_cases same : t = u
  · subst same
    simp [marked]
  · simp [marked, same]

/-- An edge of the tile at `(x, y)`, if there is one, was set as a wall. -/
def hasMark (g : Grid) (x y : Nat) (d : Direction) : Bool :=
  match g.extent.tile? x y with
  | some t => g.marked t d
  | none => false

theorem hasMark_tile (t : g.Tile) (d : Direction) : g.hasMark t.x t.y d = g.marked t d := by
  rw [hasMark, Extent.tile?_eq_some_iff.mpr ⟨rfl, rfl⟩]

/-- A wall is what was set as one, or lies on the border. -/
theorem hasWall_tile (t : g.Tile) (d : Direction) :
    g.hasWall t.x t.y d = (g.hasMark t.x t.y d || decide ((t.edgeOf d).OnBorder g.extent)) := by
  have border : decide ((t.edgeOf d).OnBorder g.extent) = (g.extent.border t.x t.y).has d := by
    rw [Bool.eq_iff_iff, decide_eq_true_iff, Extent.onBorder_iff]
  rw [hasMark_tile, border, hasWall, Extent.tile?_eq_some_iff.mpr ⟨rfl, rfl⟩]
  exact WallMask.has_union _ _ d

theorem setEdge_extent (t : g.Tile) (d : Direction) (walled : Bool) :
    (g.setEdge t d walled).extent = g.extent := by
  rw [setEdge]
  split <;> rfl

theorem hasMark_mark (t u : g.Tile) (d c : Direction) (walled : Bool) :
    (g.mark t d walled).hasMark u.x u.y c = if t = u ∧ d = c then walled else g.marked u c :=
  (hasMark_tile (g := g.mark t d walled) u c).trans (marked_mark t u d c walled)

/-- Setting an edge is seen from both of its tiles, and changes no other edge. -/
theorem hasMark_setEdge (t u : g.Tile) (d c : Direction) (walled : Bool) :
    (g.setEdge t d walled).hasMark u.x u.y c =
      if t.edgeOf d = u.edgeOf c then walled else g.hasMark u.x u.y c := by
  simp only [Extent.edgeOf_eq_iff, hasMark_tile]
  rw [setEdge]
  split
  · rename_i far step
    have twice := hasMark_mark (g := g.mark t d walled) far u d.opposite c walled
    have once : (g.mark t d walled).marked u c = _ := marked_mark t u d c walled
    by_cases behind : far = u ∧ d.opposite = c
    · obtain ⟨rfl, rfl⟩ := behind
      exact (twice.trans (if_pos ⟨rfl, rfl⟩)).trans (if_pos (.inr ⟨step, rfl⟩)).symm
    · have apart : ¬(g.extent.neighbour? t.x t.y d = some u ∧ d.opposite = c) := by
        rintro ⟨step', same⟩
        exact behind ⟨Option.some.inj (step.symm.trans step'), same⟩
      simp only [apart, or_false]
      exact (twice.trans (if_neg behind)).trans once
  · rename_i outside
    rw [hasMark_mark, outside]
    simp

end Grid
end Vivarium
