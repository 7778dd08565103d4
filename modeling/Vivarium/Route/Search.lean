import Std.Data.HashMap
import Vivarium.Route.Segment

/-!
The search for the wall that stops a walk across tiles. A walk goes from tile to tile through open
exits; a tile with a walled exit ends it there, and where a corner offers two ways on, the hit
nearest to the origin counts. `WallSearch.find` says this directly; `WallSearch.trace` finds the
same hits and settles every tile only once.
-/
namespace Vivarium

/-- A walled edge met by a walk, the tile from which it was met, and where. -/
structure Hit (F : Type) (e : Extent) where
  tile : e.Tile
  edge : Direction
  point : Point F

/-- What a search is given: the walls, the direction of travel, and the exits of every tile. -/
structure WallSearch (F : Type) where
  grid : Grid
  course : Course
  origin : Point F
  /-- The tile in which every walk ends, if the destination lies in the grid. -/
  goal : Option grid.Tile
  exits : grid.Tile → List (Exit F course)

namespace WallSearch
variable {F : Type} [Scalar F]

abbrev Found (s : WallSearch F) : Type := Option (Hit F s.grid.extent)

/-- What has been found out on the way: the outcome of every settled tile, and the tiles whose exits
were worked out, the latest first. -/
structure Notes (s : WallSearch F) where
  settled : Std.HashMap s.grid.Tile s.Found
  expanded : List s.grid.Tile

def Notes.blank (s : WallSearch F) : s.Notes := ⟨∅, []⟩

/-- The first exit that is walled, as a hit. -/
def blocked (s : WallSearch F) (t : s.grid.Tile) (exits : List (Exit F s.course)) : s.Found :=
  (exits.find? fun e => (s.grid.walls t).has e.edge).map fun e => ⟨t, e.edge, e.point⟩

/-- The hit nearer to the origin; of two equally near ones the first. -/
def nearer (s : WallSearch F) : s.Found → s.Found → s.Found
  | none, found => found
  | some best, none => some best
  | some best, some found =>
    if found.point.squaredDistance s.origin < best.point.squaredDistance s.origin then some found
    else some best

/-- Going on through one exit: whatever the tile behind it leads to. The edge counts as a wall
where there is no tile behind it. -/
def through (s : WallSearch F) (t : s.grid.Tile)
    (onward : (next : s.grid.Tile) → s.course.ahead next < s.course.ahead t → s.Found)
    (e : Exit F s.course) : s.Found :=
  match h : s.grid.extent.neighbour? t.x t.y e.edge with
  | some next => onward next (Course.ahead_lt e.facing h)
  | none => some ⟨t, e.edge, e.point⟩

/-- The outcome from one tile, given the outcomes from the tiles further on. -/
def settle (s : WallSearch F) (t : s.grid.Tile)
    (onward : (next : s.grid.Tile) → s.course.ahead next < s.course.ahead t → s.Found) : s.Found :=
  if s.goal = some t then none
  else
    let exits := s.exits t
    match s.blocked t exits with
    | some hit => some hit
    | none => exits.foldl (fun best e => s.nearer best (s.through t onward e)) none

/-- The outcome from a tile that has at most `n` tiles ahead. -/
def findWithin (s : WallSearch F) :
    (n : Nat) → (t : s.grid.Tile) → s.course.ahead t ≤ n → s.Found
  | 0, t, bound => s.settle t fun _ fewer => absurd fewer (by omega)
  | n + 1, t, bound => s.settle t fun next fewer => s.findWithin n next (by omega)

/-- The wall that stops the walk from `t`, or none if the walk is free. -/
def find (s : WallSearch F) (t : s.grid.Tile) : s.Found :=
  s.findWithin (s.course.ahead t) t (Nat.le_refl _)

/-- Going on through every exit, with notes taken. -/
def throughAll (s : WallSearch F) (t : s.grid.Tile)
    (onward : (next : s.grid.Tile) → s.course.ahead next < s.course.ahead t →
      s.Notes → s.Found × s.Notes) :
    List (Exit F s.course) → s.Found → s.Notes → s.Found × s.Notes
  | [], best, notes => (best, notes)
  | e :: rest, best, notes =>
    match h : s.grid.extent.neighbour? t.x t.y e.edge with
    | some next =>
      let (found, notes) := onward next (Course.ahead_lt e.facing h) notes
      s.throughAll t onward rest (s.nearer best found) notes
    | none => s.throughAll t onward rest (s.nearer best (some ⟨t, e.edge, e.point⟩)) notes

/-- `settle`, with notes taken and used. -/
def settleNoting (s : WallSearch F) (t : s.grid.Tile)
    (onward : (next : s.grid.Tile) → s.course.ahead next < s.course.ahead t →
      s.Notes → s.Found × s.Notes)
    (notes : s.Notes) : s.Found × s.Notes :=
  if s.goal = some t then (none, notes)
  else
    match notes.settled[t]? with
    | some known => (known, notes)
    | none =>
      let exits := s.exits t
      let notes := { notes with expanded := t :: notes.expanded }
      let (found, notes) :=
        match s.blocked t exits with
        | some hit => (some hit, notes)
        | none => s.throughAll t onward exits none notes
      (found, { notes with settled := notes.settled.insert t found })

/-- `findWithin`, with notes taken and used. -/
def traceWithin (s : WallSearch F) :
    (n : Nat) → (t : s.grid.Tile) → s.course.ahead t ≤ n → s.Notes → s.Found × s.Notes
  | 0, t, bound => s.settleNoting t fun _ fewer => absurd fewer (by omega)
  | n + 1, t, bound => s.settleNoting t fun next fewer => s.traceWithin n next (by omega)

/-- The wall that stops the walk from `t`, with the notes of the whole search. -/
def traceNoting (s : WallSearch F) (t : s.grid.Tile) : s.Found × s.Notes :=
  s.traceWithin (s.course.ahead t) t (Nat.le_refl _) (.blank s)

def trace (s : WallSearch F) (t : s.grid.Tile) : s.Found := (s.traceNoting t).1

end WallSearch
end Vivarium
