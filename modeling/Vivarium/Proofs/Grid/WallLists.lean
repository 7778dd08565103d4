import Mathlib.Data.List.Induction
import Mathlib.Data.List.TakeWhile
import Std.Data.ExtTreeMap.Lemmas
import Vivarium.Proofs.Grid.Edits

/-! Lists of walls that name the same edges. Setting walls adds to what is stored on the sides of their
edges, and what is there already is not added again; so neither the order of a list matters, nor how
often an edge is named, nor from which of its tiles. -/
namespace Vivarium

section
variable {α β : Type} {f : β → α → β} (comm : ∀ b x y, f (f b x) y = f (f b y) x)
  (idem : ∀ b x, f (f b x) x = f b x)
include comm idem

/-- What comes up again need not come first. -/
theorem foldl_of_mem {x : α} {xs : List α} (among : x ∈ xs) (b : β) :
    xs.foldl f (f b x) = xs.foldl f b := by
  induction xs generalizing b with
  | nil => cases among
  | cons y rest ih =>
    rw [List.foldl_cons, List.foldl_cons]
    rcases List.mem_cons.mp among with rfl | later
    · rw [idem]
    · rw [comm, ih later]

theorem foldl_of_subset {xs ys : List α} (among : ∀ y ∈ ys, y ∈ xs) (b : β) :
    (ys ++ xs).foldl f b = xs.foldl f b := by
  induction ys generalizing b with
  | nil => rfl
  | cons y rest ih =>
    rw [List.cons_append, List.foldl_cons, ih fun z later => among z (List.mem_cons_of_mem y later),
      foldl_of_mem comm idem (among y List.mem_cons_self)]

/-- Changes that commute and take effect once depend only on which there are. -/
theorem foldl_of_same_members {xs ys : List α} (same : ∀ x, x ∈ xs ↔ x ∈ ys) (b : β) :
    xs.foldl f b = ys.foldl f b := by
  have exchange : RightCommutative f := ⟨comm⟩
  calc xs.foldl f b
    _ = (ys ++ xs).foldl f b := (foldl_of_subset comm idem (fun y => (same y).mpr) b).symm
    _ = (xs ++ ys).foldl f b := List.perm_append_comm.foldl_eq b
    _ = ys.foldl f b := foldl_of_subset comm idem (fun x => (same x).mp) b

end

namespace Extent
variable {e : Extent}

/-- The places where the walls of a tile are stored. -/
def Tile.slot (t : e.Tile) : Fin e.area := ⟨e.slot t.x t.y, slot_lt_area t.x.isLt t.y.isLt⟩

/-- The places where an edge is stored, with its name there: one on the border, two elsewhere. -/
def Tile.sides (t : e.Tile) (d : Direction) : List (Fin e.area × Direction) :=
  (t.slot, d) :: ((e.neighbour? t.x t.y d).map fun next => (next.slot, d.opposite)).toList

theorem Tile.mem_sides {t : e.Tile} {d : Direction} {side : Fin e.area × Direction} :
    side ∈ t.sides d ↔ ∃ u : e.Tile, side = (u.slot, side.2) ∧ u.edgeOf side.2 = t.edgeOf d := by
  simp only [eq_comm (b := t.edgeOf d), edgeOf_eq_iff, sides, List.mem_cons, Option.mem_toList,
    Option.map_eq_some_iff]
  obtain ⟨slot, c⟩ := side
  simp only [Prod.mk.injEq, and_true]
  constructor
  · rintro (⟨rfl, rfl⟩ | ⟨next, step, rfl, rfl⟩)
    · exact ⟨t, rfl, .inl ⟨rfl, rfl⟩⟩
    · exact ⟨next, rfl, .inr ⟨step, rfl⟩⟩
  · rintro ⟨u, rfl, ⟨rfl, rfl⟩ | ⟨step, rfl⟩⟩
    · exact .inl ⟨rfl, rfl⟩
    · exact .inr ⟨u, step, rfl, rfl⟩

/-- The places where the edge of a wall is stored, if the wall is named from inside. -/
def sidesOf (e : Extent) (w : Wall) : List (Fin e.area × Direction) :=
  match e.tile? w.x.toNat w.y.toNat with
  | some t => t.sides w.direction
  | none => []

end Extent

namespace Grid
variable {g : Grid}

section
variable {e : Extent} {marks : Std.ExtTreeMap (Fin e.area) WallMask}

/-- The marks with one side of an edge made a wall. -/
def raised (marks : Std.ExtTreeMap (Fin e.area) WallMask) (side : Fin e.area × Direction) :
    Std.ExtTreeMap (Fin e.area) WallMask :=
  marks.insert side.1 ((marks.getD side.1 .empty).insert side.2)

theorem getElem?_raised (side : Fin e.area × Direction) (slot : Fin e.area) :
    (raised marks side)[slot]? =
      if side.1 = slot then some ((marks.getD side.1 .empty).insert side.2) else marks[slot]? := by
  rw [raised, Std.ExtTreeMap.getElem?_insert]
  simp only [Std.compare_eq_iff_eq]

theorem getD_raised (side : Fin e.area × Direction) (slot : Fin e.area) :
    (raised marks side).getD slot .empty =
      if side.1 = slot then (marks.getD side.1 .empty).insert side.2
      else marks.getD slot .empty := by
  rw [raised, Std.ExtTreeMap.getD_insert]
  simp only [Std.compare_eq_iff_eq]

theorem raised_comm (marks : Std.ExtTreeMap (Fin e.area) WallMask)
    (first second : Fin e.area × Direction) :
    raised (raised marks first) second = raised (raised marks second) first := by
  apply Std.ExtTreeMap.ext_getElem?
  intro slot
  simp only [getElem?_raised, getD_raised]
  by_cases same : first.1 = second.1
  · simp only [same, if_true, WallMask.insert, UInt8.or_assoc, UInt8.or_comm first.2.bit]
    split <;> rfl
  · simp only [same, Ne.symm same, if_false]
    by_cases here : first.1 = slot
    · subst here
      simp [Ne.symm same]
    · simp [here]

theorem raised_idem (marks : Std.ExtTreeMap (Fin e.area) WallMask) (side : Fin e.area × Direction) :
    raised (raised marks side) side = raised marks side := by
  apply Std.ExtTreeMap.ext_getElem?
  intro slot
  simp only [getElem?_raised, getD_raised, if_true, WallMask.insert, UInt8.or_assoc, UInt8.or_self]
  split <;> rfl

theorem setEdge_raised (t : e.Tile) (d : Direction) :
    (⟨e, marks⟩ : Grid).setEdge t d true = ⟨e, (t.sides d).foldl raised marks⟩ := by
  rw [setEdge, Extent.Tile.sides]
  dsimp only
  cases e.neighbour? t.x t.y d with
  | some next => rfl
  | none => rfl

end

/-- A list of walls that all are named from inside. -/
theorem addWalls_raised {e : Extent} (marks : Std.ExtTreeMap (Fin e.area) WallMask)
    {walls : List Wall} (inside : ∀ w ∈ walls, w.inside e = true) :
    (⟨e, marks⟩ : Grid).addWalls walls = (⟨e, (walls.flatMap e.sidesOf).foldl raised marks⟩, none) := by
  induction walls generalizing marks with
  | nil => rfl
  | cons w rest ih =>
    obtain ⟨t, there⟩ := Wall.inside_iff.mp (inside w List.mem_cons_self)
    rw [addWalls, setWall_inside there, List.flatMap_cons, List.foldl_append]
    dsimp only
    rw [setEdge_raised, Extent.sidesOf, there]
    exact ih _ fun w later => inside w (List.mem_cons_of_mem _ later)

/-- All that lists from inside the grid store. -/
theorem mem_sidesOf {e : Extent} {walls : List Wall} (inside : ∀ w ∈ walls, w.inside e = true)
    {side : Fin e.area × Direction} :
    side ∈ walls.flatMap e.sidesOf ↔
      ∃ u : e.Tile, side = (u.slot, side.2) ∧ u.edgeOf side.2 ∈ walls.map Wall.edge := by
  have each : ∀ w ∈ walls, (side ∈ e.sidesOf w ↔
      ∃ u : e.Tile, side = (u.slot, side.2) ∧ w.edge = u.edgeOf side.2) := by
    intro w among
    obtain ⟨t, there⟩ := Wall.inside_iff.mp (inside w among)
    obtain ⟨hx, hy⟩ := Extent.tile?_eq_some_iff.mp there
    have named : w.edge = t.edgeOf w.direction := by
      rw [Wall.edge, Extent.Tile.edgeOf, hx, hy]
    simp only [Extent.sidesOf, there, Extent.Tile.mem_sides, named, eq_comm]
  simp only [List.mem_flatMap, List.mem_map]
  constructor
  · rintro ⟨w, among, stored⟩
    obtain ⟨u, here, same⟩ := (each w among).mp stored
    exact ⟨u, here, w, among, same⟩
  · rintro ⟨u, here, w, among, same⟩
    exact ⟨w, among, (each w among).mpr ⟨u, here, same⟩⟩

theorem addWalls_eq_none {walls : List Wall} (granted : (g.addWalls walls).2 = none) :
    ∀ w ∈ walls, w.inside g.extent = true := by
  rw [addWalls_eq, Option.map_eq_none_iff, List.find?_eq_none] at granted
  simpa using granted

/-- Lists that name the same edges leave the same grid, if they are granted. -/
theorem addWalls_congr {walls walls' : List Wall} (granted : (g.addWalls walls).2 = none)
    (granted' : (g.addWalls walls').2 = none)
    (same : ∀ edge, edge ∈ walls.map Wall.edge ↔ edge ∈ walls'.map Wall.edge) :
    (g.addWalls walls).1 = (g.addWalls walls').1 := by
  have inside := addWalls_eq_none granted
  have inside' := addWalls_eq_none granted'
  obtain ⟨e, marks⟩ := g
  have sides : ∀ side, side ∈ walls.flatMap e.sidesOf ↔ side ∈ walls'.flatMap e.sidesOf := by
    intro side
    rw [mem_sidesOf inside, mem_sidesOf inside']
    simp only [same]
  rw [addWalls_raised marks inside, addWalls_raised marks inside',
    foldl_of_same_members raised_comm raised_idem sides]

/-- A list of walls makes walls of the edges that it names. -/
theorem lastMark_walls (walls : List Wall) (edge : Edge) (before : Bool) :
    (lastMark (walls.map fun w => ⟨w.edge, true⟩) edge).getD before = true ↔
      before = true ∨ ∃ w ∈ walls, w.edge = edge := by
  induction walls using List.reverseRecOn with
  | nil => simp [lastMark]
  | append_singleton walls w ih =>
    rw [List.map_append, List.map_singleton, lastMark_append, lastMark_singleton]
    by_cases own : w.edge = edge <;> simp [own, ih]

theorem hasWall_addWalls {walls : List Wall} (inside : ∀ w ∈ walls, w.inside g.extent = true)
    (t : g.Tile) (d : Direction) : (g.addWalls walls).1.hasWall t.x t.y d = true ↔
      g.hasWall t.x t.y d = true ∨ ∃ w ∈ walls, w.edge = t.edgeOf d := by
  have marked := (g.addWalls_marked walls).hasWall t d
  rw [Edit.marks, List.takeWhile_eq_self_iff.mpr inside, edited] at marked
  rw [marked, hasWall_tile, Bool.or_eq_true, Bool.or_eq_true, lastMark_walls, or_right_comm]

/-- An open grid has its border only. -/
theorem hasWall_empty {e : Extent} (t : e.Tile) (d : Direction) :
    (empty e).hasWall t.x t.y d = true ↔ (t.edgeOf d).OnBorder e := by
  have unmarked : (empty e).hasMark t.x t.y d = false :=
    (hasMark_tile (g := .empty e) t d).trans (marked_empty e t d)
  rw [hasWall_tile (g := .empty e) t d, unmarked, Bool.false_or, decide_eq_true_iff]
  rfl

/-- All walls of a list are added, or the first that is named from outside is refused. -/
theorem withWalls_spec (g : Grid) (walls : List Wall) :
    match g.withWalls walls with
    | .ok grid => (∀ w ∈ walls, w.inside g.extent = true) ∧ grid = (g.addWalls walls).1
    | .error e => ∃ before w after, walls = before ++ w :: after ∧
        (∀ v ∈ before, v.inside g.extent = true) ∧ w.inside g.extent = false ∧
        e = .noTile w.x.toNat w.y.toNat := by
  rw [withWalls]
  rcases added : g.addWalls walls with ⟨made, - | e⟩
  · exact ⟨addWalls_eq_none (congrArg Prod.snd added), rfl⟩
  · rw [addWalls_eq, Prod.mk.injEq, Option.map_eq_some_iff] at added
    obtain ⟨-, w, first, rfl⟩ := added
    obtain ⟨beyond, before, after, rfl, inside⟩ := List.find?_eq_some_iff_append.mp first
    exact ⟨before, w, after, rfl, by simpa using inside, by simpa using beyond, rfl⟩

theorem withWalls_perm {grid grid' : Grid} {walls walls' : List Wall} (perm : walls'.Perm walls)
    (walled' : g.withWalls walls' = .ok grid') (walled : g.withWalls walls = .ok grid) :
    grid' = grid := by
  rw [withWalls] at walled walled'
  rcases added : g.addWalls walls with ⟨made, - | e⟩ <;> rw [added] at walled <;> cases walled
  rcases added' : g.addWalls walls' with ⟨made', - | e⟩ <;> rw [added'] at walled' <;> cases walled'
  have same := addWalls_congr (congrArg Prod.snd added') (congrArg Prod.snd added) fun edge =>
    (perm.map Wall.edge).mem_iff
  rwa [added, added'] at same

/-- A grid is a map from edges to walls. Whatever was edited, granted or not, an edge is a wall if it
lies on the border or was last made one, seen from either side; an edit changes no edge that it does not
name; and lists of walls are carried out up to the first wall named from outside. -/
theorem edits_exact (e : Extent) (edits : List Edit) :
    let g := (empty e).editedAll edits
    (∀ (t : e.Tile) (d : Direction), g.hasWall t.x t.y d = true ↔
      (t.edgeOf d).OnBorder e ∨
        lastMark (edits.flatMap (Edit.marks e)) (t.edgeOf d) = some true) ∧
      (∀ (t next : e.Tile) (d : Direction), e.neighbour? t.x t.y d = some next →
        g.hasWall t.x t.y d = g.hasWall next.x next.y d.opposite) ∧
      (∀ (edit : Edit) (t : e.Tile) (d : Direction),
        (∀ mark ∈ edit.marks e, mark.edge ≠ t.edgeOf d) →
          (g.edited edit).hasWall t.x t.y d = g.hasWall t.x t.y d) ∧
      (∀ (x y : Nat) (d : Direction) (walled : Bool),
        (x < e.width ∧ y < e.height →
          g.setWall x y d walled = .ok (g.edited (.setWall x y d walled))) ∧
        (¬(x < e.width ∧ y < e.height) → g.setWall x y d walled = .error (.noTile x y) ∧
          g.edited (.setWall x y d walled) = g)) ∧
      (∀ walls, g.addWalls walls =
        (g.editedAll ((walls.takeWhile (·.inside e)).map .ofWall),
          (walls.find? (!·.inside e)).map fun w => .noTile w.x.toNat w.y.toNat)) ∧
      ∀ walls walls', (g.addWalls walls).2 = none → (g.addWalls walls').2 = none →
        (∀ edge, edge ∈ walls.map Wall.edge ↔ edge ∈ walls'.map Wall.edge) →
          (g.addWalls walls).1 = (g.addWalls walls').1 := by
  intro g
  have marked : Marked (edits.flatMap (Edit.marks e)) (empty e) g := editedAll_marked (empty e) edits
  have extent : g.extent = e := marked.extent
  have walls : ∀ (t : e.Tile) (d : Direction), g.hasWall t.x t.y d = true ↔
      (t.edgeOf d).OnBorder e ∨
        lastMark (edits.flatMap (Edit.marks e)) (t.edgeOf d) = some true := by
    intro t d
    have unmarked : (empty e).hasMark t.x t.y d = false :=
      (hasMark_tile (g := empty e) t d).trans (marked_empty e t d)
    rw [marked.hasWall t d, unmarked, Bool.or_eq_true, decide_eq_true_iff, or_comm]
    refine or_congr_right ?_
    change (lastMark (edits.flatMap (Edit.marks e)) (t.edgeOf d)).getD false = true ↔ _
    cases lastMark (edits.flatMap (Edit.marks e)) (t.edgeOf d) <;> simp
  clear_value g
  subst extent
  refine ⟨walls, ?_, ?_, ?_, addWalls_eq g, fun _ _ => addWalls_congr⟩
  · intro t next d step
    rw [Bool.eq_iff_iff, walls, walls, Extent.edgeOf_neighbour step]
  · intro edit t d apart
    rw [(edited_marked g edit).hasWall t d, lastMark_eq_none.mpr apart, hasWall_tile]
    rfl
  · intro x y d walled
    constructor
    · intro inside
      have granted := setWall_inside (t := ⟨⟨x, inside.1⟩, ⟨y, inside.2⟩⟩) (dif_pos inside) d walled
      rw [edited, granted]
    · intro outside
      have refused := setWall_outside outside d walled
      exact ⟨refused, by rw [edited, refused]⟩

/-- The edge between two tiles is set from the west, cleared from the east and set again by a list that
stops at its second wall. A list that names it from the east, and one that names it twice, leave the
same grid. -/
theorem edits_exact_two_tiles :
    let e : Extent := ⟨2, 1, by decide, by decide, by decide, by decide⟩
    let g := (empty e).editedAll [.setWall 0 0 .east true, .setWall 1 0 .west false,
      .setWall 5 0 .north true, .addWalls [⟨0, 0, .east⟩, ⟨2, 0, .west⟩, ⟨1, 0, .north⟩]]
    let once : List Wall := [⟨1, 0, .west⟩]
    let twice : List Wall := [⟨0, 0, .east⟩, ⟨1, 0, .west⟩]
    g.hasWall 0 0 .east = true ∧ g.hasWall 1 0 .west = true ∧ g.hasWall 1 0 .north = true ∧
      (g.edited (.setWall 0 0 .east false)).hasWall 0 0 .north = g.hasWall 0 0 .north ∧
      g.setWall 2 0 .west true = .error (.noTile 2 0) ∧
      ((empty e).addWalls once).1 = ((empty e).addWalls twice).1 := by
  intro e g once twice
  let west : e.Tile := ⟨⟨0, by decide⟩, ⟨0, by decide⟩⟩
  let east : e.Tile := ⟨⟨1, by decide⟩, ⟨0, by decide⟩⟩
  obtain ⟨walls, sides, others, outside, -, -⟩ := edits_exact e
    [.setWall 0 0 .east true, .setWall 1 0 .west false, .setWall 5 0 .north true,
      .addWalls [⟨0, 0, .east⟩, ⟨2, 0, .west⟩, ⟨1, 0, .north⟩]]
  obtain ⟨-, -, -, -, -, same⟩ := edits_exact e []
  have shut : g.hasWall 0 0 .east = true := (walls west .east).mpr (.inr (by decide))
  have border : g.hasWall 1 0 .north = true := (walls east .north).mpr (.inl (by decide))
  have behind : e.neighbour? west.x west.y .east = some east := rfl
  refine ⟨shut, (sides west east .east behind).symm.trans shut, border,
    others (.setWall 0 0 .east false) west .north (by decide),
    ((outside 2 0 .west true).2 (by decide)).1, same once twice rfl rfl fun edge => ?_⟩
  simp [once, twice, Wall.edge, Edge.of]

end Grid
end Vivarium
