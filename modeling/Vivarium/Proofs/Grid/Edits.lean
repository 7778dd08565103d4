import Mathlib.Data.List.Perm.Basic
import Vivarium.Proofs.Grid.Edges

/-! Edits of a grid, one after the other, granted or refused. All that they leave behind is what each
edge was last set to, whichever of its tiles that was said of; lists of walls even leave the same grid
if they name the same edges. -/
namespace Vivarium

/-- An edge and whether it is made a wall. -/
structure Mark where
  edge : Edge
  walled : Bool
  deriving DecidableEq

namespace Wall

def edge (w : Wall) : Edge := .of w.x.toNat w.y.toNat w.direction

/-- The tile from which the wall is named is one of the grid. -/
def inside (w : Wall) (e : Extent) : Bool := w.x.toNat < e.width && w.y.toNat < e.height

theorem inside_iff {w : Wall} {e : Extent} :
    w.inside e = true ↔ ∃ t, e.tile? w.x.toNat w.y.toNat = some t := by
  rw [← Option.isSome_iff_exists, Extent.tile?]
  split <;> simp_all [inside]

end Wall

/-- What the last of some marks on an edge says. -/
def lastMark (marks : List Mark) (edge : Edge) : Option Bool :=
  (marks.filter (·.edge = edge)).getLast?.map (·.walled)

theorem lastMark_append (before after : List Mark) (edge : Edge) :
    lastMark (before ++ after) edge = (lastMark after edge).or (lastMark before edge) := by
  rw [lastMark, List.filter_append, List.getLast?_append, Option.map_or]
  rfl

theorem lastMark_singleton (mark : Mark) (edge : Edge) :
    lastMark [mark] edge = if mark.edge = edge then some mark.walled else none := by
  by_cases same : mark.edge = edge <;> simp [lastMark, same]

/-- An edge that no mark names has none. -/
theorem lastMark_eq_none {marks : List Mark} {edge : Edge} :
    lastMark marks edge = none ↔ ∀ mark ∈ marks, mark.edge ≠ edge := by
  simp [lastMark]

namespace Grid
variable {g g' g'' : Grid}

inductive Edit where
  | setWall (x y : Nat) (d : Direction) (walled : Bool)
  | addWalls (walls : List Wall)

/-- One wall of a list, as an edit of its own. -/
def Edit.ofWall (w : Wall) : Edit := .setWall w.x.toNat w.y.toNat w.direction true

/-- The grid after an edit, whether it was granted, refused or broken off. -/
def edited (g : Grid) : Edit → Grid
  | .setWall x y d walled => match g.setWall x y d walled with
    | .ok g => g
    | .error _ => g
  | .addWalls walls => (g.addWalls walls).1

def editedAll (g : Grid) (edits : List Edit) : Grid := edits.foldl edited g

/-- What an edit sets in a grid of this extent: nothing from a tile outside, and of a list of walls
those before the first one outside. -/
def Edit.marks (e : Extent) : Edit → List Mark
  | .setWall x y d walled => if x < e.width ∧ y < e.height then [⟨.of x y d, walled⟩] else []
  | .addWalls walls => (walls.takeWhile (·.inside e)).map fun w => ⟨w.edge, true⟩

/-! What an edit does. -/

/-- From one grid to another of the same extent by setting edges, the last mark on an edge first. -/
structure Marked (marks : List Mark) (g g' : Grid) : Prop where
  extent : g'.extent = g.extent
  last : ∀ x y d, x < g.extent.width → y < g.extent.height →
    g'.hasMark x y d = (lastMark marks (.of x y d)).getD (g.hasMark x y d)

namespace Marked
variable {marks more : List Mark}

theorem refl (g : Grid) : Marked [] g g := ⟨rfl, fun _ _ _ _ _ => rfl⟩

theorem trans (first : Marked marks g g') (second : Marked more g' g'') :
    Marked (marks ++ more) g g'' where
  extent := second.extent.trans first.extent
  last x y d wide tall := by
    rw [second.last x y d (first.extent ▸ wide) (first.extent ▸ tall), first.last x y d wide tall,
      lastMark_append]
    cases lastMark more (.of x y d) <;> rfl

theorem hasWall (marked : Marked marks g g') (t : g.Tile) (d : Direction) :
    g'.hasWall t.x t.y d = ((lastMark marks (t.edgeOf d)).getD (g.hasMark t.x t.y d) ||
      decide ((t.edgeOf d).OnBorder g.extent)) := by
  obtain ⟨extent, last⟩ := marked
  obtain ⟨e, stored⟩ := g'
  obtain rfl : e = g.extent := extent
  rw [hasWall_tile (g := ⟨g.extent, stored⟩), last t.x t.y d t.x.isLt t.y.isLt]
  rfl

end Marked

theorem setWall_inside {x y : Nat} {t : g.Tile} (there : g.extent.tile? x y = some t)
    (d : Direction) (walled : Bool) : g.setWall x y d walled = .ok (g.setEdge t d walled) := by
  rw [setWall, there]

/-- Setting an edge from a tile outside is refused. -/
theorem setWall_outside {x y : Nat} (outside : ¬(x < g.extent.width ∧ y < g.extent.height))
    (d : Direction) (walled : Bool) : g.setWall x y d walled = .error (.noTile x y) := by
  rw [setWall, Extent.tile?, dif_neg outside]

theorem setEdge_marked (t : g.Tile) (d : Direction) (walled : Bool) :
    Marked [⟨t.edgeOf d, walled⟩] g (g.setEdge t d walled) where
  extent := setEdge_extent t d walled
  last x y c wide tall := by
    let u : g.Tile := ⟨⟨x, wide⟩, ⟨y, tall⟩⟩
    rw [lastMark_singleton, show Edge.of x y c = u.edgeOf c from rfl]
    refine (hasMark_setEdge t u d c walled).trans ?_
    split <;> rfl

theorem setWall_marked (g : Grid) (x y : Nat) (d : Direction) (walled : Bool) :
    Marked ((Edit.setWall x y d walled).marks g.extent) g (g.edited (.setWall x y d walled)) := by
  rw [Edit.marks, edited]
  split
  · rename_i inside
    rw [setWall_inside (t := ⟨⟨x, inside.1⟩, ⟨y, inside.2⟩⟩) (dif_pos inside)]
    exact setEdge_marked (⟨⟨x, inside.1⟩, ⟨y, inside.2⟩⟩ : g.Tile) d walled
  · rename_i outside
    rw [setWall_outside outside]
    exact .refl g

/-! Lists of walls. -/

section
variable {w : Wall} {rest : List Wall}

theorem addWalls_inside (inside : w.inside g.extent = true) :
    g.addWalls (w :: rest) = (g.edited (.ofWall w)).addWalls rest := by
  obtain ⟨t, there⟩ := Wall.inside_iff.mp inside
  rw [addWalls, Edit.ofWall, edited, setWall_inside there]

theorem addWalls_outside (beyond : w.inside g.extent = false) :
    g.addWalls (w :: rest) = (g, some (.noTile w.x.toNat w.y.toNat)) := by
  have outside : ¬(w.x.toNat < g.extent.width ∧ w.y.toNat < g.extent.height) := by
    simpa [Wall.inside] using beyond
  rw [addWalls, setWall_outside outside]

end

/-- A list of walls is set one by one up to the first that is named from outside. -/
theorem addWalls_eq (g : Grid) (walls : List Wall) :
    g.addWalls walls =
      (g.editedAll ((walls.takeWhile (·.inside g.extent)).map .ofWall),
        (walls.find? (!·.inside g.extent)).map fun w => .noTile w.x.toNat w.y.toNat) := by
  induction walls generalizing g with
  | nil => rfl
  | cons w rest ih =>
    cases within : w.inside g.extent with
    | true =>
      have same : (g.edited (.ofWall w)).extent = g.extent := (setWall_marked g _ _ _ _).extent
      simp only [addWalls_inside within, ih, same, List.takeWhile_cons, List.find?_cons, within,
        if_true, Bool.not_true]
      rfl
    | false =>
      simp only [addWalls_outside within, List.takeWhile_cons, List.find?_cons, within,
        Bool.not_false]
      rfl

theorem addWalls_marked (g : Grid) (walls : List Wall) :
    Marked ((Edit.addWalls walls).marks g.extent) g (g.edited (.addWalls walls)) := by
  induction walls generalizing g with
  | nil => exact .refl g
  | cons w rest ih =>
    rw [Edit.marks, edited]
    cases within : w.inside g.extent with
    | true =>
      have first := setWall_marked g w.x.toNat w.y.toNat w.direction true
      have others := ih (g.edited (.ofWall w))
      rw [show (g.edited (.ofWall w)).extent = g.extent from first.extent] at others
      rw [Edit.marks, if_pos (by simpa [Wall.inside] using within)] at first
      simp only [addWalls_inside within, List.takeWhile_cons, within, if_true]
      exact first.trans others
    | false =>
      simp only [addWalls_outside within, List.takeWhile_cons, within]
      exact .refl g

/-! Any edits in any order. -/

theorem edited_marked (g : Grid) (edit : Edit) : Marked (edit.marks g.extent) g (g.edited edit) := by
  cases edit with
  | setWall x y d walled => exact setWall_marked g x y d walled
  | addWalls walls => exact addWalls_marked g walls

theorem editedAll_marked (g : Grid) (edits : List Edit) :
    Marked (edits.flatMap (Edit.marks g.extent)) g (g.editedAll edits) := by
  induction edits generalizing g with
  | nil => exact .refl g
  | cons edit rest ih =>
    have first := edited_marked g edit
    have others := ih (g.edited edit)
    rw [first.extent] at others
    exact first.trans others

end Grid
end Vivarium
