import Vivarium.Proofs.Binary64.Precision
import Vivarium.Proofs.Route.Collisions
import Vivarium.Proofs.Route.Crossings

/-! How far from its segment a move may end. The parameter at which a tile is left is off by `slack`
at most, in units of the whole segment, and so is what lies on the edge or is moved into the tile.
Main statement: in a grid of up to a thousand tiles a side, a route ends beside its segment by a
fraction of the length of the segment, so by less than a billionth of a tile if the segment is short. -/
namespace Vivarium
open Scalar Rounded Binary64

namespace Segment
variable {F : Type} [Scalar F] [Rounded F] {s : Segment F} {e : Extent} {origin t : e.Tile}
  {c d : Direction} {p : F}

/-- The point is near a point of the segment, up to a fraction of the length. -/
def Near (s : Segment F) (p : Point F) : Prop :=
  ∃ part : ℚ, 0 ≤ part ∧ part ≤ 1 ∧ ∀ d,
    |p.across d - (s.start.across d + part * s.run d)| ≤ 21 / 10 ^ 13 * |s.run d| + 2 / 10 ^ 12

theorem near_finish (s : Segment F) : s.Near s.finish := by
  refine ⟨1, zero_le_one, le_rfl, fun d => ?_⟩
  rw [one_mul, finish_across, sub_self, abs_zero]
  positivity

/-- Snapping fixes the coordinate across the edge and no other. -/
theorem snap_across (q : Point F) (t : e.Tile) (d : Direction) :
    (snap q t.x t.y d).across d = t.edge d ∧
      ∀ c, c ≠ d → c ≠ d.opposite → (snap q t.x t.y d).across c = q.across c := by
  have column := (ofNat_spec (F := F) (t.x.isLt.trans e.width_lt)).2
  have row := (ofNat_spec (F := F) (t.y.isLt.trans e.height_lt)).2
  have nextColumn := (add_one_spec (F := F) (column_small t)).2
  have nextRow := (add_one_spec (F := F) (row_small t)).2
  constructor
  · cases d <;> simp only [snap, Point.across, Extent.Tile.edge, column, row, nextColumn, nextRow] <;>
      push_cast <;> rfl
  · intro c other across
    cases d <;> cases c <;> simp_all [snap, Point.across, Direction.opposite]

/-- At the parameter at which a tile is left the segment lies in it, or beside it by little. -/
theorem LeftAt.between [Precise F] (left : s.LeftAt t d p) (starts : s.Starts origin)
    (meets : s.Meets t) (c : Direction) :
    c.sign * (s.start.across c + level p * s.run c) ≤
      c.sign * t.edge c + (slack + 2 * blur) * |s.run c| := by
  have margin : 0 ≤ (slack + blur) * |s.run c| := by
    have positive : (0 : ℚ) ≤ slack + blur := by norm_num [slack, blur]
    positivity
  by_cases moving : s.run c = 0
  · rw [moving, mul_zero, add_zero, abs_zero, mul_zero, add_zero]
    exact meets.still c moving
  rcases starts.faces_or moving with facing | facing
  · have before := left.before c facing
    rw [max_eq_left (meets.ahead c facing)] at before
    have scaled := mul_le_mul_of_nonneg_right before (abs_nonneg (s.run c))
    rw [add_mul, starts.crossing_mul facing, starts.abs_run facing] at scaled
    rw [starts.abs_run facing] at margin ⊢
    linarith
  · obtain ⟨c', facing', reached⟩ := left.reached
    have behind := meets.behind c.opposite c' facing facing'
    rw [Direction.opposite_opposite] at behind
    have before : s.crossing c.opposite (t.edge c) ≤ level p + (slack + 2 * blur) := by
      linarith [le_max_left (s.crossing c' (t.edge c')) 0]
    have scaled := mul_le_mul_of_nonneg_right before (abs_nonneg (s.run c.opposite))
    rw [starts.crossing_mul facing, starts.abs_run facing, Direction.sign_opposite, run_opposite,
      Point.across_opposite] at scaled
    have size := starts.abs_run facing
    rw [Direction.sign_opposite, run_opposite] at size
    rw [size]
    linarith

/-- An edge through which a tile is left lies where the segment is at that parameter. -/
theorem LeftAt.crossed (left : s.LeftAt t d p) (starts : s.Starts origin) (meets : s.Meets t)
    (facing : s.course.faces d = true) :
    |(t.edge d : ℚ) - (s.start.across d + level p * s.run d)| ≤ slack * |s.run d| := by
  have near := left.near
  rw [max_eq_left (meets.ahead d facing)] at near
  have split : (t.edge d : ℚ) - (s.start.across d + level p * s.run d) =
      (s.crossing d (t.edge d) - level p) * s.run d := by
    rw [sub_mul, crossing, div_mul_cancel₀ _ (starts.run_ne_zero facing)]
    ring
  rw [split, abs_mul]
  gcongr

end Segment

/-- One coordinate of the point at a parameter, where it lies in a grid of up to a thousand tiles. -/
theorem Leg.point_near {F : Type} [Scalar F] [Rounded F] [Precise F] {first : Nat}
    {start finish p : F} (leg : Leg first start finish) (finite : isFinite p = true)
    (low : level start ≤ 1000)
    (within : |level p * (level finish - level start)| ≤
      1002 + |level finish - level start| / 10 ^ 11) :
    IsNumber (start + (finish - start) * p) ∧
      |level (start + (finish - start) * p) -
          (level start + level p * (level finish - level start))| ≤
        9 / 10 ^ 13 + |level finish - level start| / 10 ^ 20 := by
  have wide := size_lt_bound (F := F)
  norm_num [UInt32.size] at wide
  have runFinite := leg.run_finite
  have off := Precise.sub_near leg.finite leg.start_finite runFinite
  have most : |level finish - level start| ≤ 2 * bound F := by
    have first := (finite_iff.mp leg.finite).2
    have second := (finite_iff.mp leg.start_finite).2
    exact (abs_sub _ _).trans (by linarith)
  generalize level finish - level start = run at *
  have nonneg := leg.start_nonneg
  -- The product of the parameter with the run, first with the run rounded, then rounded itself.
  have factor : |level (finish - start) * level p - level p * run| ≤ |level p * run| / 2 ^ 52 := by
    have split : level (finish - start) * level p - level p * run =
        (level (finish - start) - run) * level p := by ring
    rw [split, abs_mul, abs_mul]
    calc |level (finish - start) - run| * |level p| ≤ |run| / 2 ^ 52 * |level p| := by gcongr
      _ = |level p| * |run| / 2 ^ 52 := by ring
  obtain ⟨back, forth⟩ := abs_le.mp factor
  obtain ⟨least, greatest⟩ := abs_le.mp (le_refl |level p * run|)
  have size : |level (finish - start) * level p| ≤ |level p * run| + |level p * run| / 2 ^ 52 :=
    abs_le.mpr ⟨by linarith, by linarith⟩
  obtain ⟨productNumber, product⟩ := mul_spec runFinite finite
  have rounding := Precise.nearest_near (F := F) (x := level (finish - start) * level p)
    (by linarith)
  rw [← product] at rounding
  obtain ⟨back', forth'⟩ := abs_le.mp rounding
  have productFinite : isFinite ((finish - start) * p) = true :=
    finite_iff.mpr ⟨productNumber, abs_lt.mpr ⟨by linarith, by linarith⟩⟩
  obtain ⟨number, sum⟩ := add_spec leg.start_finite productFinite
  have total : |level start + level ((finish - start) * p)| ≤
      1001 + (1 + 1 / 2 ^ 50) * |level p * run| :=
    abs_le.mpr ⟨by linarith, by linarith⟩
  have rounding' := Precise.nearest_near (F := F)
    (x := level start + level ((finish - start) * p)) (by linarith)
  rw [← sum] at rounding'
  obtain ⟨back'', forth''⟩ := abs_le.mp rounding'
  have positive := abs_nonneg run
  exact ⟨number, abs_le.mpr ⟨by linarith, by linarith⟩⟩

namespace Grid
variable {F : Type} [Scalar F] [Rounded F] [Precise F] {g : Grid} {s : Segment F}
  {origin t : g.Tile} {d : Direction}

/-- Moving inside goes no further from what lies near than a step. -/
theorem inside_close {n : ℕ} (small : n < 1000) {v : F} {x reach : ℚ} (low : n ≤ x + reach)
    (high : x ≤ n + 1 + reach) (near : |level v - x| ≤ reach) :
    |level (inside (ofNat n) v) - x| ≤ reach + 1 / 2 ^ 43 := by
  obtain ⟨below, above⟩ := abs_le.mp near
  have narrow : UInt32.size = 2 ^ 32 := rfl
  obtain ⟨lowNumber, lowLevel⟩ := ofNat_spec (F := F) (n := n) (by omega)
  obtain ⟨highFinite, highLevel⟩ := add_one_spec (F := F) (n := n) (by omega)
  have highNumber := finite_number highFinite
  unfold inside
  dsimp only
  split
  · rename_i under
    have past := (le_iff.mp under).2.2
    rw [lowLevel] at past
    have up := (nextUp_spec (finite_ofNat (F := F) (n := n) (by omega))).2.1
    have step := Precise.nextUp_near (n := n) lowNumber (by exact_mod_cast lowLevel)
      (by rw [Nat.abs_cast]; omega)
    rw [lowLevel] at up
    push_cast at step
    exact abs_le.mpr ⟨by linarith, by linarith⟩
  · split
    · rename_i beyond
      have past := (le_iff.mp beyond).2.2
      rw [highLevel] at past
      obtain ⟨negNumber, neg⟩ := neg_spec highNumber
      have negFinite : isFinite (-(ofNat n + one) : F) = true := by
        refine finite_iff.mpr ⟨negNumber, ?_⟩
        rw [neg, abs_neg]
        exact (finite_iff.mp highFinite).2
      obtain ⟨upNumber, up, -⟩ := nextUp_spec negFinite
      have step := Precise.nextUp_near (n := -(n + 1 : ℤ)) negNumber
        (by rw [neg, highLevel]; push_cast; ring) (by rw [abs_neg, abs_of_nonneg] <;> omega)
      rw [neg, highLevel] at up
      push_cast at step
      simp only [nextDown, (neg_spec upNumber).2]
      exact abs_le.mpr ⟨by linarith, by linarith⟩
    · exact near.trans (by norm_num)

/-- A grid of up to a thousand tiles a side. -/
structure Moderate (g : Grid) : Prop where
  wide : g.extent.width ≤ 1000
  tall : g.extent.height ≤ 1000

theorem Moderate.edge_bounds (moderate : g.Moderate) (t : g.Tile) (d : Direction) :
    0 ≤ (t.edge d : ℚ) ∧ (t.edge d : ℚ) ≤ 1000 := by
  have column := t.x.isLt
  have row := t.y.isLt
  have wide := moderate.wide
  have tall := moderate.tall
  have most : t.edge d ≤ 1000 := by cases d <;> simp only [Extent.Tile.edge] <;> omega
  exact ⟨Nat.cast_nonneg _, by exact_mod_cast most⟩

omit [Precise F] in
theorem Moderate.start_bounds (moderate : g.Moderate) (starts : s.Starts origin) (d : Direction) :
    0 ≤ s.start.across d ∧ s.start.across d ≤ 1000 := by
  obtain ⟨-, -, west, east, north, south⟩ := starts.covers
  obtain ⟨-, right⟩ := moderate.edge_bounds origin .east
  obtain ⟨left, -⟩ := moderate.edge_bounds origin .west
  obtain ⟨-, bottom⟩ := moderate.edge_bounds origin .south
  obtain ⟨top, -⟩ := moderate.edge_bounds origin .north
  simp only [Extent.Tile.edge] at left right top bottom
  push_cast at right bottom
  cases d <;> simp only [Point.across] <;> constructor <;> linarith

/-- The point at the parameter at which a tile is left. -/
theorem Moderate.pointAt_near (moderate : g.Moderate) (starts : s.Starts origin) (meets : s.Meets t)
    {p : F} (left : s.LeftAt t d p) (c : Direction) :
    |(s.pointAt p).across c - (s.start.across c + level p * s.run c)| ≤
      9 / 10 ^ 13 + |s.run c| / 10 ^ 20 := by
  have beyond := left.between starts meets c
  have behind := left.between starts meets c.opposite
  rw [Direction.sign_opposite, Segment.run_opposite, Point.across_opposite] at behind
  obtain ⟨low, high⟩ := moderate.edge_bounds t c
  obtain ⟨low', high'⟩ := moderate.edge_bounds t c.opposite
  obtain ⟨first, last⟩ := moderate.start_bounds starts c
  have size := abs_nonneg (s.run c)
  have within : |level p * s.run c| ≤ 1002 + |s.run c| / 10 ^ 11 := by
    norm_num only [Segment.slack, Segment.blur] at beyond behind
    cases c <;> simp only [Direction.sign] at beyond behind <;>
      exact abs_le.mpr ⟨by linarith, by linarith⟩
  cases c with
  | north | south => exact (starts.vertical.point_near left.finite last within).2
  | east | west => exact (starts.horizontal.point_near left.finite last within).2

/-- What lies on the edge through which a tile is left. -/
theorem Moderate.snap_near (moderate : g.Moderate) (starts : s.Starts origin) (meets : s.Meets t)
    {p : F} (left : s.LeftAt t d p) (facing : s.course.faces d = true) (c : Direction) :
    |(Segment.snap (s.pointAt p) t.x t.y d).across c - (s.start.across c + level p * s.run c)| ≤
      9 / 10 ^ 13 + 102 / 10 ^ 14 * |s.run c| := by
  have size := abs_nonneg (s.run c)
  have along := moderate.pointAt_near starts meets left c
  have crossed := left.crossed starts meets facing
  obtain ⟨fixed, kept⟩ := Segment.snap_across (s.pointAt p) t d
  norm_num only [Segment.slack] at crossed
  by_cases same : c = d
  · subst same
    rw [fixed]
    linarith
  by_cases turned : c = d.opposite
  · subst turned
    rw [Point.across_opposite, Point.across_opposite, Segment.run_opposite, fixed]
    linarith [abs_nonneg (s.run d)]
  · rw [kept c same turned]
    linarith

/-- Where a move is stopped: near the point of the segment at which the tile is left. -/
theorem Moderate.insideTile_near (moderate : g.Moderate) (starts : s.Starts origin)
    (meets : s.Meets t) {p : F} (left : s.LeftAt t d p) (facing : s.course.faces d = true)
    (c : Direction) :
    |(insideTile t (Segment.snap (s.pointAt p) t.x t.y d)).across c -
        (s.start.across c + level p * s.run c)| ≤
      9 / 10 ^ 13 + 102 / 10 ^ 14 * |s.run c| + 1 / 2 ^ 43 := by
  have near := moderate.snap_near starts meets left facing c
  have beyond := left.between starts meets c
  have behind := left.between starts meets c.opposite
  rw [Direction.sign_opposite, Segment.run_opposite, Point.across_opposite] at behind
  norm_num only [Segment.slack, Segment.blur] at beyond behind
  have column := t.x.isLt.trans_le moderate.wide
  have row := t.y.isLt.trans_le moderate.tall
  have size := abs_nonneg (s.run c)
  cases c <;> simp only [Direction.sign, Direction.opposite, Extent.Tile.edge] at beyond behind <;>
    push_cast at beyond behind
  case north | south => exact inside_close row (by linarith) (by linarith) near
  case east | west => exact inside_close column (by linarith) (by linarith) near

/-- A stopped move ends beside its segment. The parameter at which the tile is left may lie right
behind the end, which then is the nearest point of the segment. -/
theorem Moderate.stopped_near (moderate : g.Moderate) (starts : s.Starts origin) (meets : s.Meets t)
    {p : F} (left : s.LeftAt t d p) (facing : s.course.faces d = true) :
    s.Near (insideTile t (Segment.snap (s.pointAt p) t.x t.y d)) := by
  refine ⟨min (level p) 1, le_min left.nonneg zero_le_one, min_le_right _ _, fun c => ?_⟩
  have near := moderate.insideTile_near starts meets left facing c
  generalize insideTile t (Segment.snap (s.pointAt p) t.x t.y d) = stop at near ⊢
  have late : |(level p - min (level p) 1) * s.run c| ≤ 101 / 10 ^ 14 * |s.run c| := by
    have within := left.within
    norm_num only [Segment.slack] at within
    have little : |level p - min (level p) 1| ≤ 101 / 10 ^ 14 := by
      rcases le_total (level p) 1 with before | after
      · rw [min_eq_left before, sub_self, abs_zero]
        norm_num
      · rw [min_eq_right after, abs_of_nonneg (by linarith)]
        linarith
    rw [abs_mul]
    gcongr
  have split : stop.across c - (s.start.across c + min (level p) 1 * s.run c) =
      stop.across c - (s.start.across c + level p * s.run c) +
        (level p - min (level p) 1) * s.run c := by ring
  rw [split]
  refine (abs_add_le _ _).trans ((add_le_add near late).trans ?_)
  linarith [abs_nonneg (s.run c)]

/-- A route ends beside its segment by a fraction of the length of the segment at most. -/
theorem Moderate.route_near (moderate : g.Moderate) {origin destination : Point F}
    (start : g.extent.contains origin = true) (finite : destination.isFinite = true) :
    Segment.Near ⟨origin, destination⟩ (g.route origin destination).point := by
  have arrives : Segment.Near ⟨origin, destination⟩ (Transition.free destination).point :=
    Segment.near_finish _
  cases apart : origin.agrees destination with
  | true => rwa [route, if_pos apart]
  | false =>
    obtain ⟨t, covers⟩ := Extent.contains_iff_covered.mp start
    have route := route_eq (Extent.tileAt?_eq_some_iff.mpr covers) apart finite
    simp only [Point.isFinite, Bool.and_eq_true] at finite
    have starts : Segment.Starts ⟨origin, destination⟩ t := ⟨covers, finite.1, finite.2⟩
    cases found : (g.searchAlong ⟨origin, destination⟩).find t with
    | none => rwa [route, found]
    | some hit =>
      obtain ⟨walks, exit, among, -, -, point⟩ := WallSearch.find_walks found
      obtain ⟨p, place, left⟩ := starts.exit_leftAt hit.tile among
      rw [route, found]
      change Segment.Near _ (insideTile hit.tile hit.point)
      rw [point, place]
      exact moderate.stopped_near starts (walks.meets starts starts.meets) left exit.facing

/-- A route in a grid of up to a thousand tiles a side ends beside a point of its segment by a
fraction of the length of the segment, and so by less than a billionth where the segment leads over
three hundred tiles at most. -/
theorem route_beside_segment (moderate : g.Moderate) {origin destination : Point Float}
    (start : g.extent.contains origin = true) (finite : destination.isFinite = true) :
    ∃ part : ℚ, 0 ≤ part ∧ part ≤ 1 ∧
      let run d := destination.across d - origin.across d
      let off d := (g.route origin destination).point.across d - (origin.across d + part * run d)
      (∀ d, |off d| ≤ 21 / 10 ^ 13 * |run d| + 2 / 10 ^ 12) ∧
        ((∀ d, |run d| ≤ 300) → off .east ^ 2 + off .south ^ 2 < (1 / 10 ^ 9) ^ 2) := by
  obtain ⟨part, least, most, near⟩ := moderate.route_near start finite
  refine ⟨part, least, most, near, fun short => ?_⟩
  have square : ∀ d, ((g.route origin destination).point.across d -
      (origin.across d + part * (destination.across d - origin.across d))) ^ 2 ≤
        (633 / 10 ^ 12) ^ 2 := by
    intro d
    rw [← sq_abs]
    have little := near d
    have few := short d
    simp only [Segment.run] at little few
    exact pow_le_pow_left₀ (abs_nonneg _) (by linarith) 2
  have horizontal := square .east
  have vertical := square .south
  norm_num at horizontal vertical ⊢
  linarith

/-- A move over three tiles that the border of a small grid stops. -/
theorem route_beside_segment_border :
    ∃ (g : Grid) (origin destination : Point Float), g.Moderate ∧
      g.extent.contains origin = true ∧ destination.isFinite = true ∧
      (g.route origin destination).collided = true ∧
      ∃ part : ℚ, 0 ≤ part ∧ part ≤ 1 ∧
        let off d := (g.route origin destination).point.across d -
          (origin.across d + part * (destination.across d - origin.across d))
        off .east ^ 2 + off .south ^ 2 < (1 / 10 ^ 9) ^ 2 := by
  let g := Grid.empty ⟨2, 1, by decide, by decide, by decide, by decide⟩
  let start : g.Tile := ⟨⟨0, by decide⟩, ⟨0, by decide⟩⟩
  let origin : Point Float := ⟨0.5, 0.25⟩
  let destination : Point Float := ⟨3.5, 3.25⟩
  have moderate : g.Moderate := ⟨by decide, by decide⟩
  have there : g.extent.tileAt? origin = some start := by decide +kernel
  have inside : g.extent.contains origin = true := by decide +kernel
  have apart : origin.agrees destination = false := by decide +kernel
  have finite : destination.isFinite = true := by decide +kernel
  have found : ((g.searchAlong ⟨origin, destination⟩).find start).isSome = true := by
    decide +kernel
  have stopped : (g.route origin destination).collided = true := by
    obtain ⟨hit, found⟩ := Option.isSome_iff_exists.mp found
    rw [route_eq there apart finite, found]
    rfl
  have short : ∀ d, |destination.across d - origin.across d| ≤ 300 := by
    intro d
    have far : level (3.5 : Float) = 7 / 2 :=
      (reading_positive (7 * 2 ^ 50) (-51) (by norm_num) (by rfl)).trans (by norm_num)
    have far' : level (3.25 : Float) = 13 / 4 :=
      (reading_positive (13 * 2 ^ 49) (-51) (by norm_num) (by rfl)).trans (by norm_num)
    cases d <;>
      simp only [Point.across, origin, destination, level_half, level_quarter, far, far'] <;>
      norm_num
  obtain ⟨part, least, most, -, near⟩ := route_beside_segment moderate inside finite
  exact ⟨g, origin, destination, moderate, inside, finite, stopped, part, least, most, near short⟩

/-- Two crossings a quarter of a tile apart, that a long segment makes into one corner. The move is
stopped at this corner, and no point of the line through its segment is near. -/
theorem route_aside_corner :
    ∃ (g : Grid) (origin destination : Point Float), g.Built ∧ g.Moderate ∧
      g.extent.contains origin = true ∧ destination.isFinite = true ∧
      ∀ part : ℚ,
        let off d := (g.route origin destination).point.across d -
          (origin.across d + part * (destination.across d - origin.across d))
        (1 / 10) ^ 2 < off .east ^ 2 + off .south ^ 2 := by
  let g := Grid.empty ⟨2, 1, by decide, by decide, by decide, by decide⟩
  let start : g.Tile := ⟨⟨0, by decide⟩, ⟨0, by decide⟩⟩
  let origin : Point Float := ⟨0.5, 0.25⟩
  let destination : Point Float := ⟨8796093022208.5, 8796093022208.25⟩
  have there : g.extent.tileAt? origin = some start := by decide +kernel
  have inside : g.extent.contains origin = true := by decide +kernel
  have apart : origin.agrees destination = false := by decide +kernel
  have finite : destination.isFinite = true := by decide +kernel
  have found : ((g.searchAlong ⟨origin, destination⟩).find start).map (fun hit =>
      let p := insideTile hit.tile hit.point
      p.x == p.y) = some true := by decide +kernel
  have far : level (8796093022208.5 : Float) = 2 ^ 43 + 1 / 2 :=
    (reading_positive (2 ^ 52 + 2 ^ 8) (-9) (by norm_num) (by rfl)).trans (by norm_num)
  have far' : level (8796093022208.25 : Float) = 2 ^ 43 + 1 / 4 :=
    (reading_positive (2 ^ 52 + 2 ^ 7) (-9) (by norm_num) (by rfl)).trans (by norm_num)
  refine ⟨g, origin, destination, .empty _, ⟨by decide, by decide⟩, inside, finite, fun part => ?_⟩
  obtain ⟨hit, found, corner⟩ := Option.map_eq_some_iff.mp found
  have route := route_eq there apart finite
  rw [found] at route
  simp only [route, Point.across, (beq_iff.mp corner).2.2]
  simp only [origin, destination, level_half, level_quarter, far, far']
  -- The coordinates are equal, and those of points on the line differ by a quarter.
  generalize level (insideTile hit.tile hit.point).y = y
  nlinarith [sq_nonneg (y - (1 / 2 + part * 2 ^ 43) + (y - (1 / 4 + part * 2 ^ 43)))]

end Grid
end Vivarium
