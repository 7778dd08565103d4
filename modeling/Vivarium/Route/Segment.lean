import Vivarium.Route.Course

/-!
A straight segment and the edges through which it leaves a tile. Where the crossings of a vertical
and a horizontal edge fall together up to a relative tolerance, the segment passes a corner and
leaves through both.
-/
namespace Vivarium

/-- A place where a segment may leave a tile: an edge ahead, and the crossing on it. -/
structure Exit (F : Type) (c : Course) where
  edge : Direction
  facing : c.faces edge = true
  point : Point F

structure Segment (F : Type) where
  start : Point F
  finish : Point F
  deriving DecidableEq

namespace Segment
variable {F : Type} [Scalar F]

/-- How far apart, relative to their size, two crossings at a corner may be. -/
def cornerTolerance : F := 1e-12

def dx (s : Segment F) : F := s.finish.x - s.start.x

def dy (s : Segment F) : F := s.finish.y - s.start.y

def sense (run : F) : Option Sense :=
  if Scalar.zero < run then some .rising else if run < Scalar.zero then some .falling else none

def course (s : Segment F) : Course := ⟨sense s.dx, sense s.dy⟩

/-- The point at parameter `t`, which is the start for zero and the finish for one. -/
def pointAt (s : Segment F) (t : F) : Point F := ⟨s.start.x + s.dx * t, s.start.y + s.dy * t⟩

/-- The parameter at which one coordinate leaves the unit interval that begins at `low`. -/
def parameter (low start run : F) : Option F :=
  match sense run with
  | some .rising => some ((low + Scalar.one - start) / run)
  | some .falling => some ((low - start) / run)
  | none => none

/-- The smaller of two parameters. An axis without movement has none, and next to it what is no number
counts as none. -/
def earlier : Option F → Option F → Option F
  | some a, some b => some (Scalar.smaller a b)
  | some a, none | none, some a => if a == a then some a else none
  | none, none => none

/-- Puts the coordinate that an edge fixes exactly on that edge. -/
def snap (p : Point F) (x y : Nat) : Direction → Point F
  | .north => ⟨p.x, Scalar.ofNat y⟩
  | .east => ⟨Scalar.ofNat x + Scalar.one, p.y⟩
  | .south => ⟨p.x, Scalar.ofNat y + Scalar.one⟩
  | .west => ⟨Scalar.ofNat x, p.y⟩

/-- The exits of tile `(x, y)`, in the order in which edges are tested: none if the segment ends in
the tile, two at a corner. -/
def exits (s : Segment F) (x y : Nat) : List (Exit F s.course) :=
  let tx := parameter (Scalar.ofNat x) s.start.x s.dx
  let ty := parameter (Scalar.ofNat y) s.start.y s.dy
  match earlier tx ty with
  | none => []
  | some first =>
    let t := Scalar.larger first Scalar.zero
    let tolerance := cornerTolerance * Scalar.larger (Scalar.abs t) Scalar.one
    if Scalar.isFinite t && !decide (Scalar.one + tolerance < t) then
      let crossedAt : Option F → Bool
        | some u => Scalar.abs (Scalar.larger u Scalar.zero - t) ≤ tolerance
        | none => false
      let crossed : Direction → Bool
        | .north | .south => crossedAt ty
        | .east | .west => crossedAt tx
      Direction.all.filterMap fun d =>
        if h : s.course.faces d = true then
          if crossed d then some ⟨d, h, snap (s.pointAt t) x y d⟩ else none
        else none
    else []

end Segment
end Vivarium
