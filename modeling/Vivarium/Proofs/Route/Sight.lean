import Vivarium.Proofs.Binary64.Precision
import Vivarium.Proofs.Route.Collisions
import Vivarium.Proofs.Route.Crossings

/-! What blocks a line of sight. Crossings are told from one another by parameters that are off by
`slack`, so edges that a segment only ends on or only passes the end of may block it, and do so one way
and not the other. Main statements: without walls nothing is blocked unless the segment ends at a side
of the grid that it leads to, and a segment that keeps off the corners is blocked both ways or not at
all. -/
namespace Vivarium
open Scalar Rounded Binary64

namespace Extent
variable {e : Extent} {t : e.Tile} {d : Direction}

/-- The coordinate that the border fixes on a side of the grid. -/
def rim (e : Extent) : Direction → ℕ
  | .north | .west => 0
  | .east => e.width
  | .south => e.height

theorem neighbour?_eq_none_iff : e.neighbour? t.x t.y d = none ↔ t.edge d = e.rim d := by
  have column := t.x.isLt
  have row := t.y.isLt
  cases d <;> simp only [neighbour?, tile?, Tile.edge, rim] <;> grind

theorem Tile.edge_le_rim (t : e.Tile) (d : Direction) :
    t.edge d ≤ max (e.rim d) (e.rim d.opposite) := by
  have column := t.x.isLt
  have row := t.y.isLt
  cases d <;> simp only [edge, rim, Direction.opposite] <;> omega

end Extent

namespace Segment
variable {F : Type} [Scalar F] [Rounded F] {s : Segment F} {e : Extent} {origin t : e.Tile}
  {c d : Direction}

/-- A segment that stands still along one axis faces one edge at most. -/
theorem Starts.faces_unique (starts : s.Starts origin) {c d d' : Direction} (rests : s.run c = 0)
    (facing : s.course.faces d = true) (facing' : s.course.faces d' = true) : d' = d := by
  have moves := starts.faces_iff.mp facing
  have moves' := starts.faces_iff.mp facing'
  cases c <;> cases d <;> cases d' <;> simp_all [Direction.sign, run, Point.across] <;> linarith

end Segment

namespace Grid
variable {F : Type} [Scalar F] {g : Grid} {s : Segment F} {origin t u : g.Tile} {d : Direction}

/-- What lies elsewhere is seen exactly if the search along the segment finds no wall. -/
theorem isVisible_eq {p q : Point F} (start : g.extent.tileAt? p = some t)
    (apart : p.agrees q = false) (finite : q.isFinite = true) :
    (Terrain.ofGrid g).isVisible p q = ((g.searchAlong ⟨p, q⟩).find t).isNone := by
  change (!(g.route p q).collided) = _
  rw [route_eq start apart finite]
  cases (g.searchAlong ⟨p, q⟩).find t <;> rfl

variable [Rounded F]

/-! Rooms without walls. -/

/-- No wall but the border. -/
def Bare (g : Grid) : Prop := ∀ t d, g.marked t d = false

theorem Bare.has_iff (bare : g.Bare) (t : g.Tile) (d : Direction) :
    (g.walls t).has d = true ↔ t.edge d = g.extent.rim d := by
  have border : (g.walls t).has d = (g.marked t d || (g.extent.border t.x t.y).has d) :=
    WallMask.has_union _ _ _
  rw [border, bare t d, Bool.false_or, Extent.has_border_iff, Extent.neighbour?_eq_none_iff]

/-- A segment that leads beyond a tile and ends in the grid does not meet the border there. -/
theorem inner_of_leads (inside : g.extent.contains s.finish = true)
    (facing : s.course.faces d = true) (leads : s.Leads t d) : t.edge d ≠ g.extent.rim d := by
  obtain ⟨-, -, west, north, east, south⟩ := Extent.contains_iff.mp inside
  intro border
  cases d <;> simp only [Course.faces, decide_eq_true_eq] at facing <;>
    simp only [Segment.Leads, facing, Sense.Pending] at leads <;>
    simp only [Extent.Tile.edge, Extent.rim] at border
  case north | west =>
    rw [border] at leads
    push_cast at leads
    linarith
  case east | south =>
    have border := congrArg (Nat.cast (R := ℚ)) border
    push_cast at border
    linarith

/-- Along an axis a walk comes to tiles on the way only, and in a bare grid none of its exits is
walled. -/
theorem Bare.find_straight (bare : g.Bare) (starts : s.Starts origin)
    (inside : g.extent.contains s.finish = true) {c : Direction} (rests : s.run c = 0) :
    (g.searchAlong s).find origin = none := by
  have leading : ∀ {t}, s.OnWay origin t → (g.searchAlong s).goal ≠ some t →
      ∀ d, s.course.faces d = true → s.Leads t d := by
    intro t onWay elsewhere d facing
    have pending : ∃ d, s.Leads t d := by
      by_contra last
      exact elsewhere (Extent.tileAt?_eq_some_iff.mpr
        (starts.arrived onWay fun d leads => last ⟨d, leads⟩))
    obtain ⟨d', leads⟩ := pending
    obtain ⟨ahead, facing', leads, -⟩ := leads.faced
    obtain rfl := starts.faces_unique rests facing facing'
    exact leads
  refine WallSearch.find_eq_none_iff.mpr fun u walks elsewhere exit among => ?_
  have onWay : s.OnWay origin u := by
    clear exit among elsewhere
    induction walks with
    | refl => exact starts.onWay
    | tail _ passes ih =>
      obtain ⟨elsewhere, exit, -, -, step⟩ := passes
      exact ih.next exit.facing (leading ih elsewhere _ exit.facing) step
  have inner := inner_of_leads inside exit.facing (leading onWay elsewhere _ exit.facing)
  rw [Bool.eq_false_iff]
  exact fun walled => inner ((bare.has_iff u exit.edge).mp walled)

/-- The segment does not end where a side of the grid that it leads to meets a line across, up to a
fraction of its length. A segment along an axis may end anywhere. -/
def KeepsOff (g : Grid) (s : Segment F) : Prop :=
  ∀ c d : Direction, c ≠ d → c ≠ d.opposite → s.run c ≠ 0 → 0 < d.sign * s.run d →
    d.sign * (g.extent.rim d - s.finish.across d) ≤ 3 / 10 ^ 12 * (d.sign * s.run d) →
      ∀ n : ℕ, 4 / 10 ^ 12 * |s.run c| < |n - s.finish.across c|

/-- What is in the grid but not in a tile lies behind an edge of the tile that is not on the border. -/
theorem exists_behind_edge {p : Point F} (inside : g.extent.contains p = true)
    (elsewhere : ¬t.Covers p) :
    ∃ b : Direction, b.sign * t.edge b ≤ b.sign * p.across b ∧ t.edge b ≠ g.extent.rim b := by
  obtain ⟨numberX, numberY, left, top, right, bottom⟩ := Extent.contains_iff.mp inside
  by_contra none
  refine elsewhere ⟨numberX, numberY, ?_, ?_, ?_, ?_⟩ <;> by_contra out
  · refine none ⟨.west, by simp only [Direction.sign, Extent.Tile.edge, Point.across]; linarith, ?_⟩
    intro border
    have column : (t.x : ℚ) = 0 := by exact_mod_cast border
    linarith
  · refine none ⟨.east, by
      simp only [Direction.sign, Extent.Tile.edge, Point.across]; push_cast; linarith, ?_⟩
    intro border
    have column : (t.x : ℚ) + 1 = g.extent.width := by exact_mod_cast border
    linarith
  · refine none ⟨.north, by simp only [Direction.sign, Extent.Tile.edge, Point.across]; linarith, ?_⟩
    intro border
    have row : (t.y : ℚ) = 0 := by exact_mod_cast border
    linarith
  · refine none ⟨.south, by
      simp only [Direction.sign, Extent.Tile.edge, Point.across]; push_cast; linarith, ?_⟩
    intro border
    have row : (t.y : ℚ) + 1 = g.extent.height := by exact_mod_cast border
    linarith

/-- How far a point is from the sides of its grid. -/
theorem rim_bounds {p : Point F} (inside : g.extent.contains p = true) (d : Direction) :
    0 ≤ d.sign * (g.extent.rim d - p.across d) ∧
      d.sign * (g.extent.rim d - p.across d) ≤ UInt32.size := by
  obtain ⟨-, -, left, top, right, bottom⟩ := Extent.contains_iff.mp inside
  have width : (g.extent.width : ℚ) < UInt32.size := by exact_mod_cast g.extent.width_lt
  have height : (g.extent.height : ℚ) < UInt32.size := by exact_mod_cast g.extent.height_lt
  norm_num only [UInt32.size] at width height ⊢
  cases d <;> simp only [Direction.sign, Extent.rim, Point.across, Nat.cast_zero] <;>
    constructor <;> linarith

/-- A segment that ends in the grid, but leaves a tile through the border, ends at the border. -/
theorem ends_at_rim [Precise F] (starts : s.Starts origin)
    (inside : g.extent.contains s.finish = true) (meets : s.Meets t) {p : F} (left : s.LeftAt t d p)
    (facing : s.course.faces d = true) (border : t.edge d = g.extent.rim d) :
    1 ≤ s.crossing d (t.edge d) ∧
      d.sign * (g.extent.rim d - s.finish.across d) ≤ 202 / 10 ^ 14 * (d.sign * s.run d) := by
  have moving := starts.faces_iff.mp facing
  have scale := starts.crossing_mul facing (t.edge d)
  rw [starts.abs_run facing] at scale
  obtain ⟨before, -⟩ := rim_bounds inside d
  rw [← border, s.finish_across] at before ⊢
  have near := left.near
  have within := left.within
  rw [max_eq_left (meets.ahead d facing)] at near
  norm_num only [Segment.slack] at near within
  have most : s.crossing d (t.edge d) ≤ 1 + 202 / 10 ^ 14 := by linarith [(abs_le.mp near).2]
  have scaled := mul_le_mul_of_nonneg_right most moving.le
  rw [scale] at scaled
  refine ⟨le_of_mul_le_mul_right ?_ moving, by linarith⟩
  rw [scale]
  linarith

/-- A tile is left late in the segment. If the segment ends behind another edge of the tile, it ends
near the line along this edge, which it still has to cross or has crossed before. -/
theorem ends_near_line [Precise F] (starts : s.Starts origin) (meets : s.Meets t) {p : F}
    (left : s.LeftAt t d p) (facing : s.course.faces d = true)
    (late : 1 ≤ s.crossing d (t.edge d)) {b : Direction} (moves : s.run b ≠ 0)
    (behind : b.sign * t.edge b ≤ b.sign * s.finish.across b) :
    |t.edge b - s.finish.across b| ≤ 4 / 10 ^ 12 * |s.run b| := by
  have near := left.near
  have within := left.within
  rw [max_eq_left (meets.ahead d facing)] at near
  norm_num only [Segment.slack] at near within
  obtain ⟨low, high⟩ := abs_le.mp near
  have positive := abs_nonneg (s.run b)
  have sides : b.sign * (t.edge b - s.finish.across b) ≤ 0 := by linarith
  rw [← b.abs_sign_mul (t.edge b - s.finish.across b), abs_of_nonpos sides, s.finish_across]
  rw [s.finish_across] at behind
  rcases starts.faces_or moves with ahead | turned
  · have order := left.before b ahead
    rw [max_eq_left (meets.ahead b ahead)] at order
    norm_num only [Segment.blur] at order
    have reached : 1 - 102 / 10 ^ 14 ≤ s.crossing b (t.edge b) := by linarith
    have scaled := mul_le_mul_of_nonneg_right reached positive
    have size := starts.abs_run ahead
    rw [starts.crossing_mul ahead] at scaled
    linarith
  · have order := meets.behind b.opposite d turned facing
    rw [Direction.opposite_opposite] at order
    norm_num only [Segment.slack, Segment.blur] at order
    have passed : s.crossing b.opposite (t.edge b) ≤ 1 + 304 / 10 ^ 14 := by linarith
    have size := starts.abs_run turned
    have scaled := mul_le_mul_of_nonneg_right passed (abs_nonneg (s.run b.opposite))
    rw [starts.crossing_mul turned, Segment.run_opposite, Direction.sign_opposite,
      Point.across_opposite] at scaled
    rw [Segment.run_opposite, Direction.sign_opposite] at size
    linarith

/-- A tile in which the segment does not end is not left through the border. The side of the grid would
lie right behind the end, and so would, or right before it, a line of the other axis. -/
theorem KeepsOff.inner [Precise F] (clear : g.KeepsOff s) (starts : s.Starts origin)
    (inside : g.extent.contains s.finish = true) (moves : ∀ c, s.run c ≠ 0) (meets : s.Meets t)
    {p : F} (left : s.LeftAt t d p) (facing : s.course.faces d = true)
    (elsewhere : ¬t.Covers s.finish) : t.edge d ≠ g.extent.rim d := by
  intro border
  obtain ⟨b, behind, inner⟩ := exists_behind_edge inside elsewhere
  obtain ⟨late, little⟩ := ends_at_rim starts inside meets left facing border
  have moving := starts.faces_iff.mp facing
  have same : b ≠ d := by
    rintro rfl
    exact inner border
  have back : b ≠ d.opposite := by
    rintro rfl
    obtain ⟨-, far⟩ := rim_bounds (Extent.contains_iff_covered.mpr ⟨origin, starts.covers⟩) d
    obtain ⟨before, -⟩ := rim_bounds inside d
    norm_num only [UInt32.size] at far
    have wide : d.sign * g.extent.rim d = d.sign * t.edge d.opposite + 1 := by
      rw [← border, t.edge_opposite d, mul_add, d.sign_mul_self]
    rw [Direction.sign_opposite, Point.across_opposite] at behind
    rw [s.finish_across] at before little behind
    linarith
  have apart := clear b d same back (moves b) moving (by linarith) (t.edge b)
  exact apart.not_ge (ends_near_line starts meets left facing late (moves b) behind)

/-- In a bare grid no search finds a wall, unless the segment ends where a line meets a side of it. -/
theorem Bare.find_eq_none [Precise F] (bare : g.Bare) (starts : s.Starts origin)
    (inside : g.extent.contains s.finish = true) (clear : g.KeepsOff s) :
    (g.searchAlong s).find origin = none := by
  by_cases straight : ∃ c, s.run c = 0
  · obtain ⟨c, rests⟩ := straight
    exact bare.find_straight starts inside rests
  · refine WallSearch.find_eq_none_iff.mpr fun u walks elsewhere exit among => ?_
    obtain ⟨p, -, left⟩ := starts.exit_leftAt u among
    have inner := clear.inner starts inside (not_exists.mp straight)
      (WallSearch.Walks.meets starts walks starts.meets) left exit.facing fun covers =>
        elsewhere (Extent.tileAt?_eq_some_iff.mpr covers)
    rw [Bool.eq_false_iff]
    exact fun walled => inner ((bare.has_iff u exit.edge).mp walled)

/-- In a grid without walls a move inside the grid is free, if it does not end where a side that it
leads to meets a line across. -/
theorem bare_route_free (bare : g.Bare) {p q : Point Float} (start : g.extent.contains p = true)
    (finish : g.extent.contains q = true) (clear : g.KeepsOff ⟨p, q⟩) :
    g.route p q = .free q ∧ (Terrain.ofGrid g).isVisible p q = true := by
  have free : g.route p q = .free q := by
    cases apart : p.agrees q with
    | true => rw [route, if_pos apart]
    | false =>
      obtain ⟨t, covers⟩ := Extent.contains_iff_covered.mp start
      have finite := Extent.isFinite_of_contains finish
      rw [route_eq (Extent.tileAt?_eq_some_iff.mpr covers) apart finite]
      simp only [Point.isFinite, Bool.and_eq_true] at finite
      rw [bare.find_eq_none ⟨covers, finite.1, finite.2⟩ finish clear]
  refine ⟨free, ?_⟩
  change (!(g.route p q).collided) = true
  rw [free]
  rfl

/-- A move from corner to corner through the middle of a grid of four tiles. -/
theorem bare_route_free_diagonal :
    ∃ (g : Grid) (p q : Point Float), g.Bare ∧ g.extent.contains p = true ∧
      g.extent.contains q = true ∧ g.KeepsOff ⟨p, q⟩ ∧ g.route p q = .free q ∧
      (Terrain.ofGrid g).isVisible p q = true := by
  let g := Grid.empty ⟨2, 2, by decide, by decide, by decide, by decide⟩
  let p : Point Float := ⟨0.5, 0.5⟩
  let q : Point Float := ⟨1.5, 1.5⟩
  have bare : g.Bare := marked_empty _
  have start : g.extent.contains p = true := by decide +kernel
  have finish : g.extent.contains q = true := by decide +kernel
  have clear : g.KeepsOff ⟨p, q⟩ := by
    intro c d _ _ _ leads near
    have wide : (g.extent.width : ℚ) = 2 := rfl
    have tall : (g.extent.height : ℚ) = 2 := rfl
    cases d <;>
      simp only [Direction.sign, Extent.rim, Segment.run, Point.across, p, q, level_half,
        level_three_halves, wide, tall] at leads near
    case north | west => norm_num at leads
    case east | south => norm_num at near
  exact ⟨g, p, q, bare, start, finish, clear, bare_route_free bare start finish clear⟩

/-- A move that ends where the west side of a grid without walls meets an edge between two tiles. The
search looks at the border of the tile that the move leaves there before it looks where the move ends. -/
theorem bare_route_blocked :
    ∃ (g : Grid) (p q : Point Float), g.Bare ∧ g.extent.contains p = true ∧
      g.extent.contains q = true ∧ (g.route p q).collision = some .west ∧
      (Terrain.ofGrid g).isVisible p q = false := by
  let g := Grid.empty ⟨2, 2, by decide, by decide, by decide, by decide⟩
  let t : g.Tile := ⟨⟨1, by decide⟩, ⟨0, by decide⟩⟩
  let p : Point Float := ⟨1.5, 0.5⟩
  let q : Point Float := ⟨0, 1⟩
  have start : g.extent.contains p = true := by decide +kernel
  have finish : g.extent.contains q = true := by decide +kernel
  have there : g.extent.tileAt? p = some t := by decide +kernel
  have apart : p.agrees q = false := by decide +kernel
  have found : ((g.searchAlong ⟨p, q⟩).find t).map (·.edge) = some .west := by decide +kernel
  have stopped : (g.route p q).collision = some .west := by
    obtain ⟨hit, found, edge⟩ := Option.map_eq_some_iff.mp found
    rw [route_eq there apart (Extent.isFinite_of_contains finish), found, ← edge]
  refine ⟨g, p, q, marked_empty _, start, finish, stopped, ?_⟩
  change (!(g.route p q).collided) = false
  rw [Transition.collided, stopped]
  rfl

/-! Both directions. -/

variable {last : g.Tile}

/-- The segment keeps off the corners of the grid: no line of one axis is crossed at nearly the same
parameter as a line of the other. -/
def Avoids (g : Grid) (s : Segment F) : Prop :=
  s.run .east ≠ 0 → s.run .south ≠ 0 → ∀ i ≤ g.extent.width, ∀ j ≤ g.extent.height,
    |s.crossing .east i - 1 / 2| ≤ 1 / 2 + 4 / 10 ^ 12 →
      4 / 10 ^ 12 < |s.crossing .east i - s.crossing .south j|

end Grid

namespace Segment
variable {F : Type} [Scalar F] [Rounded F] {s : Segment F} {e : Extent} {origin last t : e.Tile}
  {c d : Direction} {n : ℚ}

def reverse (s : Segment F) : Segment F := ⟨s.finish, s.start⟩

theorem run_reverse (s : Segment F) (d : Direction) : s.reverse.run d = -s.run d :=
  (neg_sub _ _).symm

theorem crossing_reverse (moving : s.run d ≠ 0) (n : ℚ) :
    s.reverse.crossing d n = 1 - s.crossing d n := by
  have nonzero : -s.run d ≠ 0 := neg_ne_zero.mpr moving
  rw [crossing, crossing, run_reverse, eq_sub_iff_add_eq, div_neg, neg_add_eq_sub, ← sub_div,
    div_eq_one_iff_eq moving, run]
  simp only [reverse]
  ring

/-- The way back faces the edges that the way there leaves behind. -/
theorem Starts.faces_reverse (starts : s.Starts origin) (returns : s.reverse.Starts last) :
    s.reverse.course.faces d = s.course.faces d.opposite := by
  rw [Bool.eq_iff_iff, returns.faces_iff, starts.faces_iff, run_reverse, Direction.sign_opposite,
    run_opposite, neg_mul_comm]

end Segment

namespace Grid
variable {F : Type} [Scalar F] [Rounded F] {g : Grid} {s : Segment F} {origin last t next : g.Tile}
  {c d : Direction}

theorem Avoids.reverse (avoids : g.Avoids s) : g.Avoids s.reverse := by
  intro horizontal vertical i wide j tall within
  rw [Segment.run_reverse, neg_ne_zero] at horizontal vertical
  rw [Segment.crossing_reverse horizontal] at within ⊢
  rw [Segment.crossing_reverse vertical]
  have mirrored := avoids horizontal vertical i wide j tall (by
    rw [← abs_neg]
    convert within using 2
    ring)
  rw [← abs_neg]
  convert mirrored using 2
  ring

/-- An edge ahead and an edge behind on the other axis are not crossed at nearly the same parameter. -/
theorem Avoids.apart (avoids : g.Avoids s) (starts : s.Starts origin) (t : g.Tile)
    (facing : s.course.faces d = true) (facing' : s.course.faces c = true) (other : c ≠ d)
    (within : |s.crossing d (t.edge d) - 1 / 2| ≤ 1 / 2 + 4 / 10 ^ 12)
    (within' : |s.crossing c (t.edge c.opposite) - 1 / 2| ≤ 1 / 2 + 4 / 10 ^ 12) :
    4 / 10 ^ 12 < |s.crossing d (t.edge d) - s.crossing c (t.edge c.opposite)| := by
  have moving := starts.run_ne_zero facing
  have moving' := starts.run_ne_zero facing'
  have onGrid := t.edge_le_rim d
  have onGrid' := t.edge_le_rim c.opposite
  rw [Direction.opposite_opposite] at onGrid'
  cases d with
  | north | south =>
    cases c with
    | east | west =>
      rw [abs_sub_comm]
      exact avoids moving' moving _ (by simpa [Extent.rim, Direction.opposite] using onGrid') _
        (by simpa [Extent.rim, Direction.opposite] using onGrid) within'
    | north | south =>
      first
        | exact absurd rfl other
        | exact absurd rfl (starts.ne_opposite facing facing')
  | east | west =>
    cases c with
    | north | south =>
      exact avoids moving moving' _ (by simpa [Extent.rim, Direction.opposite] using onGrid) _
        (by simpa [Extent.rim, Direction.opposite] using onGrid') within
    | east | west =>
      first
        | exact absurd rfl other
        | exact absurd rfl (starts.ne_opposite facing facing')

/-- A walk there and back leaves each tile through the edge by which it was entered. Otherwise the
edge by which the tile was entered would be crossed at nearly the same parameter as one on the other
axis, there by the order on the way there and back by the order on the way back. -/
theorem Avoids.back_through [Precise F] (avoids : g.Avoids s) (starts : s.Starts origin)
    (returns : s.reverse.Starts last) (meets : s.Meets t) {exit : Exit F s.course}
    (among : exit ∈ s.exits t.x t.y)
    (step : g.extent.neighbour? t.x t.y exit.edge = some next)
    {exit' : Exit F s.reverse.course} (among' : exit' ∈ s.reverse.exits next.x next.y) :
    exit'.edge = exit.edge.opposite := by
  obtain ⟨p, -, left⟩ := starts.exit_leftAt t among
  obtain ⟨p', -, left'⟩ := returns.exit_leftAt next among'
  have facing := exit.facing
  have facing' := exit'.facing
  generalize exit.edge = d at *
  generalize exit'.edge = d' at *
  by_contra other
  rw [starts.faces_reverse returns] at facing'
  obtain ⟨c, rfl⟩ : ∃ c : Direction, d' = c.opposite := ⟨d'.opposite, by simp⟩
  rw [Direction.opposite_opposite] at facing'
  have side : c ≠ d := fun same => other (by rw [same])
  have across : c.opposite ≠ d := by
    rintro rfl
    exact starts.ne_opposite facing facing' (by rw [Direction.opposite_opposite])
  have moving := starts.run_ne_zero facing
  have moving' := starts.run_ne_zero facing'
  -- The order on the way there.
  have near := left.near
  have within := left.within
  have before := meets.behind c d facing' facing
  rw [max_eq_left (meets.ahead d facing)] at near
  -- The order on the way back.
  have near' := left'.near
  have before' := left'.before d.opposite (by
    rw [starts.faces_reverse returns, Direction.opposite_opposite, facing])
  rw [Segment.crossing_opposite, Segment.crossing_reverse moving', Extent.edge_beside step across other]
    at near'
  rw [Segment.crossing_opposite, Segment.crossing_reverse moving, (Extent.edge_next step).1]
    at before'
  have apart := avoids.apart starts t facing facing' side
  have positive := meets.ahead d facing
  have nonneg := left.nonneg
  generalize s.crossing d (t.edge d) = here at *
  generalize s.crossing c (t.edge c.opposite) = there at *
  norm_num only [Segment.slack, Segment.blur] at near within before near' before'
  obtain ⟨low, high⟩ := abs_le.mp near
  have order : 1 - there ≤ max (1 - here) 0 + 102 / 10 ^ 14 := by
    linarith [le_max_left (1 - there) 0, (abs_le.mp near').2]
  have close : here - there ≤ 304 / 10 ^ 14 := by
    rcases max_choice (1 - here) 0 with same | same <;> rw [same] at order <;> linarith
  have together := apart (abs_le.mpr ⟨by linarith, by linarith⟩)
    (abs_le.mpr ⟨by linarith, by linarith⟩)
  rcases abs_cases (here - there) with ⟨same, -⟩ | ⟨same, -⟩ <;> rw [same] at together <;> linarith

/-- From every tile that a walk comes to, the search back to its start finds no wall. -/
theorem Avoids.find_back [Precise F] (avoids : g.Avoids s) (agrees : g.Agrees)
    (starts : s.Starts origin) (returns : s.reverse.Starts last)
    (walks : (g.searchAlong s).Walks origin t) : (g.searchAlong s.reverse).find t = none := by
  induction walks with
  | refl => exact WallSearch.find_arrived (Extent.tileAt?_eq_some_iff.mpr starts.covers)
  | @tail u next walks passes ih =>
    by_cases arrived : (g.searchAlong s.reverse).goal = some next
    · exact WallSearch.find_arrived arrived
    obtain ⟨-, exit, among, free, step⟩ := passes
    have meets := WallSearch.Walks.meets starts walks starts.meets
    have back : ∀ exit' ∈ (g.searchAlong s.reverse).exits next, exit'.edge = exit.edge.opposite :=
      fun exit' among' => avoids.back_through starts returns meets among step among'
    refine (WallSearch.find_eq_none arrived).mpr ⟨fun exit' among' => ?_, fun exit' among' => ?_⟩
    · rw [back exit' among']
      exact (agrees.walls_opposite step).symm.trans free
    · have behind := Extent.neighbour?_opposite step
      rw [← back exit' among'] at behind
      exact (WallSearch.through_tile behind _).trans ih

/-- What is seen sees back. -/
theorem Avoids.sees_back [Precise F] (built : g.Built) {p q : Point F} (avoids : g.Avoids ⟨p, q⟩)
    (start : g.extent.contains p = true) (finish : g.extent.contains q = true)
    (sees : (Terrain.ofGrid g).isVisible p q = true) :
    (Terrain.ofGrid g).isVisible q p = true := by
  have agrees_comm : q.agrees p = p.agrees q := by
    rw [Bool.eq_iff_iff]
    simp only [Point.agrees, Bool.and_eq_true, beq_iff]
    tauto
  cases apart : p.agrees q with
  | true =>
    simp only [Terrain.isVisible, Terrain.ofGrid, route, agrees_comm, apart, if_true]
    rfl
  | false =>
    obtain ⟨origin, covers⟩ := Extent.contains_iff_covered.mp start
    obtain ⟨last, covers'⟩ := Extent.contains_iff_covered.mp finish
    have here := Extent.tileAt?_eq_some_iff.mpr covers
    have there := Extent.tileAt?_eq_some_iff.mpr covers'
    have finite := Extent.isFinite_of_contains start
    have finite' := Extent.isFinite_of_contains finish
    rw [isVisible_eq here apart finite', Option.isNone_iff_eq_none] at sees
    rw [isVisible_eq there (agrees_comm.trans apart) finite, Option.isNone_iff_eq_none]
    simp only [Point.isFinite, Bool.and_eq_true] at finite finite'
    have starts : Segment.Starts ⟨p, q⟩ origin := ⟨covers, finite'.1, finite'.2⟩
    have returns : Segment.Starts ⟨q, p⟩ last := ⟨covers', finite.1, finite.2⟩
    obtain ⟨last', arrived, walks⟩ := find_arrives starts starts.onWay sees
    have same := (Extent.tileAt?_eq_some_iff.mpr arrived).symm.trans there
    obtain rfl := Option.some.inj same
    exact avoids.find_back built.agrees starts returns walks

/-- Two points of a grid see each other, or neither sees the other, if the segment between them keeps
off the corners of the grid or leads along an axis. -/
theorem isVisible_comm (built : g.Built) {p q : Point Float} (start : g.extent.contains p = true)
    (finish : g.extent.contains q = true) (avoids : g.Avoids ⟨p, q⟩) :
    (Terrain.ofGrid g).isVisible p q = (Terrain.ofGrid g).isVisible q p := by
  rw [Bool.eq_iff_iff]
  exact ⟨avoids.sees_back built start finish, avoids.reverse.sees_back built finish start⟩

/-- A point on the west side of a grid sees a point that does not see it. -/
theorem isVisible_one_way :
    ∃ (g : Grid) (p q : Point Float), g.Built ∧ g.extent.contains p = true ∧
      g.extent.contains q = true ∧
      (Terrain.ofGrid g).isVisible p q = false ∧ (Terrain.ofGrid g).isVisible q p = true := by
  let g := Grid.empty ⟨2, 2, by decide, by decide, by decide, by decide⟩
  let t : g.Tile := ⟨⟨1, by decide⟩, ⟨0, by decide⟩⟩
  let u : g.Tile := ⟨⟨0, by decide⟩, ⟨1, by decide⟩⟩
  let p : Point Float := ⟨1.5, 0.5⟩
  let q : Point Float := ⟨0, 1⟩
  have start : g.extent.contains p = true := by decide +kernel
  have finish : g.extent.contains q = true := by decide +kernel
  have there : g.extent.tileAt? p = some t := by decide +kernel
  have here : g.extent.tileAt? q = some u := by decide +kernel
  have apart : p.agrees q = false := by decide +kernel
  have apart' : q.agrees p = false := by decide +kernel
  have hidden : ((g.searchAlong ⟨p, q⟩).find t).isNone = false := by decide +kernel
  have seen : ((g.searchAlong ⟨q, p⟩).find u).isNone = true := by decide +kernel
  exact ⟨g, p, q, .empty _, start, finish,
    (isVisible_eq there apart (Extent.isFinite_of_contains finish)).trans hidden,
    (isVisible_eq here apart' (Extent.isFinite_of_contains start)).trans seen⟩

end Grid
end Vivarium
