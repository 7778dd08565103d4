import Vivarium.Proofs.Route.Rooms
import Vivarium.Proofs.Scalar.Precise

/-! Where a segment crosses the lines of the grid, said with exact numbers, and how close the rounded
search keeps to it. Two quantities bound the difference: `blur`, by which a rounded crossing is off,
and `slack`, by which crossings of one corner may differ. Neither adds up along a walk, because every
tile is left at parameters that are worked out from the whole segment. -/
namespace Vivarium
open Scalar Rounded

namespace Direction

/-- The way in which the coordinate across an edge changes toward the edge. -/
def sign : Direction → ℚ
  | north | west => -1
  | east | south => 1

theorem sign_opposite (d : Direction) : d.opposite.sign = -d.sign := by
  cases d <;> norm_num [opposite, sign]

theorem sign_ne_zero (d : Direction) : d.sign ≠ 0 := by
  cases d <;> norm_num [sign]

theorem sign_mul_self (d : Direction) : d.sign * d.sign = 1 := by
  cases d <;> norm_num [sign]

theorem abs_sign_mul (d : Direction) (x : ℚ) : |d.sign * x| = |x| := by
  have unit : |d.sign| = 1 := by cases d <;> norm_num [sign]
  rw [abs_mul, unit, one_mul]

end Direction

namespace Extent
variable {e : Extent} {t next : e.Tile} {c d : Direction}

/-- The coordinate that an edge of a tile fixes. -/
def Tile.edge (t : e.Tile) : Direction → ℕ
  | .north => t.y
  | .east => t.x + 1
  | .south => t.y + 1
  | .west => t.x

theorem Tile.edge_opposite (t : e.Tile) (d : Direction) :
    (t.edge d : ℚ) = t.edge d.opposite + d.sign := by
  cases d <;> simp only [edge, Direction.opposite, Direction.sign] <;> push_cast <;> ring

/-- From behind an edge one returns through it, and the edge ahead is one further. -/
theorem edge_next (step : e.neighbour? t.x t.y d = some next) :
    next.edge d.opposite = t.edge d ∧ (next.edge d : ℚ) = t.edge d + d.sign := by
  obtain ⟨column, row⟩ := neighbour?_eq_some_iff.mp step
  have back : next.edge d.opposite = t.edge d := by
    cases d <;> simp only [Direction.offset] at column row <;>
      simp only [Tile.edge, Direction.opposite] <;> omega
  exact ⟨back, by rw [next.edge_opposite d, back]⟩

/-- The edges on the other axis stay. -/
theorem edge_beside (step : e.neighbour? t.x t.y d = some next) (other : c ≠ d)
    (across : c ≠ d.opposite) : next.edge c = t.edge c := by
  obtain ⟨column, row⟩ := neighbour?_eq_some_iff.mp step
  cases d <;> cases c <;> simp_all [Direction.opposite, Direction.offset, Tile.edge]

end Extent

variable {F : Type} [Scalar F]

/-- The coordinate of a point on the axis across an edge. -/
def Point.across [Rounded F] (p : Point F) : Direction → ℚ
  | .north | .south => level p.y
  | .east | .west => level p.x

theorem Point.across_opposite [Rounded F] (p : Point F) (d : Direction) :
    p.across d.opposite = p.across d := by
  cases d <;> rfl

namespace Segment
variable [Rounded F] {s : Segment F} {x y : Nat} {c d : Direction} {n : ℚ}

/-- How far the segment leads on the axis across an edge. -/
def run (s : Segment F) (d : Direction) : ℚ := s.finish.across d - s.start.across d

/-- The exact parameter at which the segment, made longer as needed, meets a line along an edge. -/
def crossing (s : Segment F) (d : Direction) (n : ℚ) : ℚ := (n - s.start.across d) / s.run d

theorem finish_across (s : Segment F) (d : Direction) :
    s.finish.across d = s.start.across d + s.run d := by
  rw [run, add_sub_cancel]

theorem run_opposite (s : Segment F) (d : Direction) : s.run d.opposite = s.run d := by
  cases d <;> rfl

theorem crossing_opposite (s : Segment F) (d : Direction) (n : ℚ) :
    s.crossing d.opposite n = s.crossing d n := by
  cases d <;> rfl

/-- By how much a rounded crossing is off. -/
def blur : ℚ := 1 / 2 ^ 48

/-- By how much a crossing may differ from the parameter at which it counts as reached. -/
def slack : ℚ := 101 / 10 ^ 14

/-- A rounded crossing and the exact one. What lies before the start counts as the start, and what lies
far behind the end need not agree. -/
def Blurs (rounded exact : ℚ) : Prop :=
  |max rounded 0 - max exact 0| ≤ blur ∨ 2 ≤ rounded ∧ 2 ≤ exact

end Segment

namespace Leg
variable [Rounded F] {first : Nat} {start finish : F}

theorem rises_iff (leg : Leg first start finish) :
    Segment.sense (finish - start) = some .rising ↔ level start < level finish := by
  refine ⟨leg.rises, fun less => ?_⟩
  cases way : Segment.sense (finish - start) with
  | none => linarith [leg.run_still way]
  | some sense =>
    cases sense with
    | rising => rfl
    | falling => linarith [leg.falls way]

theorem falls_iff (leg : Leg first start finish) :
    Segment.sense (finish - start) = some .falling ↔ level finish < level start := by
  refine ⟨leg.falls, fun less => ?_⟩
  cases way : Segment.sense (finish - start) with
  | none => linarith [leg.run_still way]
  | some sense =>
    cases sense with
    | rising => linarith [leg.rises way]
    | falling => rfl

/-- The rounded quotient that tells when a line is crossed. -/
theorem quotient_near [Precise F] (leg : Leg first start finish) {line : F}
    (finite : isFinite line = true) (moving : level finish ≠ level start) :
    IsNumber ((line - start) / (finish - start)) ∧
      Segment.Blurs (level ((line - start) / (finish - start)))
        ((level line - level start) / (level finish - level start)) := by
  have nonzero : level finish - level start ≠ 0 := sub_ne_zero.mpr moving
  have rounded : level (finish - start) ≠ 0 := by
    rw [leg.run_level]
    exact fun vanishes => moving (eq_of_nearest_sub leg.finite leg.start_finite vanishes)
  have lineRun := sub_finite finite leg.number leg.start_nonneg leg.start_small
  obtain ⟨number, value⟩ := div_spec lineRun leg.run_finite rounded
  obtain ⟨r, near, quotient⟩ := Precise.exists_factor nonzero
    (Precise.sub_near finite leg.start_finite lineRun)
    (Precise.sub_near leg.finite leg.start_finite leg.run_finite)
  rw [value]
  exact ⟨number, Precise.nearest_quotient near quotient⟩

/-- The parameter at which an interval is left, upwards or downwards. -/
theorem parameter_near [Precise F] (leg : Leg first start finish) {place : Nat}
    (small : place + 1 < UInt32.size) {u : F}
    (found : Segment.parameter (ofNat place) start (finish - start) = some u) :
    IsNumber u ∧ Segment.Blurs (level u) (((match Segment.sense (finish - start) with
      | some .rising => place + 1
      | _ => place : ℕ) - level start) / (level finish - level start)) := by
  rw [Segment.parameter] at found
  cases way : Segment.sense (finish - start) with
  | none => simp only [way, reduceCtorEq] at found
  | some sense =>
    cases sense with
    | rising =>
      simp only [way, Option.some.injEq] at found
      subst found
      obtain ⟨finite, line⟩ := add_one_spec (F := F) small
      have near := leg.quotient_near finite (leg.rises way).ne'
      rw [line] at near
      exact_mod_cast near
    | falling =>
      simp only [way, Option.some.injEq] at found
      subst found
      have finite := finite_ofNat (F := F) (n := place) (by omega)
      have near := leg.quotient_near finite (leg.falls way).ne
      rwa [(ofNat_spec (F := F) (n := place) (by omega)).2] at near

end Leg

namespace Segment
variable [Rounded F] {s : Segment F} {x y : Nat} {c d : Direction} {e : Extent} {origin t : e.Tile}

/-- An edge lies ahead exactly if the coordinate across it changes toward it. -/
theorem Starts.faces_iff (starts : s.Starts origin) :
    s.course.faces d = true ↔ 0 < d.sign * s.run d := by
  have horizontal := starts.horizontal
  have vertical := starts.vertical
  cases d <;> simp only [Course.faces, decide_eq_true_eq, Direction.sign, run, Point.across]
  · exact vertical.falls_iff.trans ⟨fun less => by linarith, fun less => by linarith⟩
  · exact horizontal.rises_iff.trans ⟨fun less => by linarith, fun less => by linarith⟩
  · exact vertical.rises_iff.trans ⟨fun less => by linarith, fun less => by linarith⟩
  · exact horizontal.falls_iff.trans ⟨fun less => by linarith, fun less => by linarith⟩

theorem Starts.run_ne_zero (starts : s.Starts origin) (facing : s.course.faces d = true) :
    s.run d ≠ 0 := right_ne_zero_of_mul (starts.faces_iff.mp facing).ne'

/-- Of the two edges on one axis at most one lies ahead. -/
theorem Starts.ne_opposite (starts : s.Starts origin) (facing : s.course.faces d = true)
    (facing' : s.course.faces c = true) : c ≠ d.opposite := by
  rintro rfl
  have moving := starts.faces_iff.mp facing
  have moving' := starts.faces_iff.mp facing'
  rw [Direction.sign_opposite, run_opposite] at moving'
  linarith

omit [Rounded F] in
theorem exists_parameter (facing : s.course.faces d = true) (x y : Nat) :
    ∃ u, s.parameterOf x y d = some u := by
  cases d <;> simp only [Course.faces, decide_eq_true_eq] at facing <;>
    simp only [course] at facing <;> simp [parameterOf, parameter, facing]

omit [Rounded F] in
/-- A parameter is that of an edge ahead. -/
theorem exists_ahead {u : F} (found : s.parameterOf x y d = some u) :
    ∃ c, s.course.faces c = true ∧ s.parameterOf x y c = some u := by
  have axis : ∀ {low start run : F}, parameter low start run = some u →
      sense run = some .rising ∨ sense run = some .falling := by
    intro low start run found
    rw [parameter] at found
    split at found
    · exact .inl ‹_›
    · exact .inr ‹_›
    · cases found
  cases d with
  | north | south =>
    rcases axis found with rising | falling
    · exact ⟨.south, decide_eq_true rising, found⟩
    · exact ⟨.north, decide_eq_true falling, found⟩
  | east | west =>
    rcases axis found with rising | falling
    · exact ⟨.east, decide_eq_true rising, found⟩
    · exact ⟨.west, decide_eq_true falling, found⟩

/-- The parameter of an edge ahead is the rounded crossing of its line. -/
theorem Starts.parameter_near [Precise F] (starts : s.Starts origin) (t : e.Tile)
    (facing : s.course.faces d = true) {u : F} (found : s.parameterOf t.x t.y d = some u) :
    IsNumber u ∧ Blurs (level u) (s.crossing d (t.edge d)) := by
  cases d <;> simp only [Course.faces, decide_eq_true_eq] at facing <;>
    simp only [course] at facing
  case north | south =>
    have near := starts.vertical.parameter_near (row_small t) found
    simp only [dy] at facing
    rwa [facing] at near
  case east | west =>
    have near := starts.horizontal.parameter_near (column_small t) found
    simp only [dx] at facing
    rwa [facing] at near

/-! Leaving a tile. -/

theorem tolerance_near [Precise F] {p : F} (finite : isFinite p = true) (nonneg : 0 ≤ level p) :
    isFinite (tolerance p) = true ∧ level (tolerance p) ≤ 10002 / 10 ^ 16 * max (level p) 1 := by
  obtain ⟨corner, low, high⟩ := Rounded.tolerance_spec (F := F)
  have tiny := Precise.tolerance_near (F := F)
  have wide := size_lt_bound (F := F)
  norm_num [UInt32.size] at wide
  obtain ⟨number, below⟩ := finite_iff.mp finite
  rw [abs_of_nonneg nonneg] at below
  obtain ⟨absNumber, absLevel⟩ := abs_spec number
  obtain ⟨scaleNumber, scale⟩ := larger_spec absNumber number_one
  rw [absLevel, abs_of_nonneg nonneg, level_one] at scale
  have least : 1 ≤ max (level p) 1 := le_max_right _ _
  have most : max (level p) 1 < bound F := max_lt below (by linarith)
  have cornerFinite := number_finite corner low (high.trans_lt (by norm_num [UInt32.size]))
  have scaleFinite : isFinite (larger (Scalar.abs p) one) = true :=
    finite_iff.mpr ⟨scaleNumber, by rw [scale, abs_of_nonneg (by linarith)]; exact most⟩
  obtain ⟨product, value⟩ := mul_spec cornerFinite scaleFinite
  rw [scale] at value
  have positive := mul_nonneg low (zero_le_one.trans least)
  have upper : level (cornerTolerance : F) * max (level p) 1 ≤ 10001 / 10 ^ 16 * max (level p) 1 :=
    mul_le_mul_of_nonneg_right tiny (by linarith)
  have rounding := Precise.nearest_near (F := F)
    (x := level (cornerTolerance : F) * max (level p) 1) (by rw [abs_of_nonneg positive]; linarith)
  rw [← value, abs_of_nonneg positive] at rounding
  obtain ⟨back, forth⟩ := abs_le.mp rounding
  have reached := nearest_nonneg (F := F) positive
  rw [← value] at reached
  change isFinite (cornerTolerance * larger (Scalar.abs p) one) = true ∧
    level (cornerTolerance * larger (Scalar.abs p) one) ≤ _
  exact ⟨finite_iff.mpr ⟨product, abs_lt.mpr ⟨by linarith, by linarith⟩⟩, by linarith⟩

/-- What is not refused as too late. -/
theorem level_le_of_not_late [Precise F] {p : F} (finite : isFinite p = true) (nonneg : 0 ≤ level p)
    (within : ¬one + tolerance p < p) : level p ≤ 1 + slack := by
  by_contra late
  rw [not_le, slack] at late
  apply within
  have wide := size_lt_bound (F := F)
  norm_num [UInt32.size] at wide
  obtain ⟨number, below⟩ := finite_iff.mp finite
  rw [abs_of_nonneg nonneg] at below
  obtain ⟨toleranceFinite, small⟩ := tolerance_near finite nonneg
  rw [max_eq_left (by linarith)] at small
  obtain ⟨sumNumber, sum⟩ := add_spec finite_one toleranceFinite
  rw [level_one] at sum
  refine lt_iff.mpr ⟨sumNumber, number, ?_⟩
  rw [sum]
  by_contra above
  rw [not_lt] at above
  -- Rounding is monotone, so the exact sum may be taken to be as large as the bound on it.
  have most := nearest_mono (F := F) (show 1 + level (tolerance p) ≤ 1 + 10002 / 10 ^ 16 * level p
    by linarith)
  have size : |1 + 10002 / 10 ^ 16 * level p| ≤ bound F / 2 := by
    rw [abs_of_nonneg (by linarith)]
    linarith
  have rounding := (abs_le.mp (Precise.nearest_near (F := F) size)).2
  rw [abs_of_nonneg (by linarith)] at rounding
  linarith

theorem near_of_reached [Precise F] {u p : F} (number : IsNumber u) (finite : isFinite p = true)
    (nonneg : 0 ≤ level p) (within : level p ≤ 1 + slack)
    (reached : Scalar.abs (larger u zero - p) ≤ tolerance p) :
    |max (level u) 0 - level p| ≤ 10004 / 10 ^ 16 := by
  rw [slack] at within
  obtain ⟨clipNumber, clip⟩ := larger_spec number number_zero
  rw [level_zero] at clip
  obtain ⟨toleranceFinite, small⟩ := tolerance_near finite nonneg
  have scale : max (level p) 1 ≤ 1 + 101 / 10 ^ 14 := max_le within (by norm_num)
  obtain ⟨absNumber, -, less⟩ := le_iff.mp reached
  have differenceNumber : IsNumber (larger u zero - p) := by
    by_contra none
    rw [Scalar.abs, if_neg fun negative => none (lt_iff.mp negative).1] at absNumber
    exact none absNumber
  rw [(abs_spec differenceNumber).2] at less
  have differenceFinite : isFinite (larger u zero - p) = true :=
    finite_iff.mpr ⟨differenceNumber,
      less.trans_lt ((le_abs_self _).trans_lt (finite_iff.mp toleranceFinite).2)⟩
  have clipFinite : isFinite (larger u zero) = true := by
    by_contra infinite
    have difference := Precise.sub_infinite (Bool.eq_false_iff.mpr infinite) finite
    exact Bool.false_ne_true (difference.symm.trans differenceFinite)
  have rounding := Precise.sub_near clipFinite finite differenceFinite
  rw [clip] at rounding
  have sides := abs_le.mp less
  have off := abs_le.mp rounding
  have triangle : |max (level u) 0 - level p| ≤
      |level (larger u zero - p)| + |max (level u) 0 - level p| / 2 ^ 52 := by
    have split : max (level u) 0 - level p = level (larger u zero - p) -
        (level (larger u zero - p) - (max (level u) 0 - level p)) := by ring
    calc |max (level u) 0 - level p|
        = |level (larger u zero - p) -
            (level (larger u zero - p) - (max (level u) 0 - level p))| := by rw [← split]
      _ ≤ |level (larger u zero - p)| +
            |level (larger u zero - p) - (max (level u) 0 - level p)| := abs_sub _ _
      _ ≤ _ := by gcongr
  linarith

/-- A tile is left at the least of the rounded crossings ahead, or at the start. -/
theorem Starts.leaves_level [Precise F] (starts : s.Starts origin) (t : e.Tile) {p : F}
    (leaves : s.Leaves t.x t.y p) (among : ∃ d u, s.parameterOf t.x t.y d = some u) :
    (∃ c v, s.course.faces c = true ∧ s.parameterOf t.x t.y c = some v ∧
      level p = max (level v) 0) ∧
      ∀ c v, s.parameterOf t.x t.y c = some v → level p ≤ max (level v) 0 := by
  have numbers : ∀ {d : Direction} {v : F}, s.parameterOf t.x t.y d = some v → IsNumber v := by
    intro d v found
    obtain ⟨c, facing, same⟩ := exists_ahead found
    exact (starts.parameter_near t facing same).1
  have axes : ∀ {d : Direction} {v : F}, s.parameterOf t.x t.y d = some v →
      parameter (ofNat t.x) s.start.x s.dx = some v ∨
        parameter (ofNat t.y) s.start.y s.dy = some v := by
    intro d v found
    cases d with
    | north | south => exact .inr found
    | east | west => exact .inl found
  obtain ⟨d, u, found⟩ := among
  obtain ⟨first, earliest, firstNumber, ⟨v, chosen, same⟩, least⟩ := earlier_spec
    (fun v found => numbers (d := .east) found) (fun v found => numbers (d := .south) found)
    ⟨u, axes found⟩
  obtain ⟨first', earliest', rfl⟩ := leaves.earliest
  obtain rfl := Option.some.inj (earliest.symm.trans earliest')
  obtain ⟨-, value⟩ := larger_spec firstNumber number_zero
  rw [level_zero] at value
  have axis : ∃ d, s.parameterOf t.x t.y d = some v := by
    rcases chosen with horizontal | vertical
    · exact ⟨.east, horizontal⟩
    · exact ⟨.south, vertical⟩
  obtain ⟨d', found'⟩ := axis
  obtain ⟨c, facing, ahead⟩ := exists_ahead found'
  refine ⟨⟨c, v, facing, ahead, by rw [value, same]⟩, fun c w found => ?_⟩
  rw [value]
  exact max_le_max_right 0 (least w (axes found))

/-- A tile is left through an edge at parameter `p`: this is where the edge is crossed, up to `slack`,
and the first crossing of an edge ahead, up to `blur`. -/
structure LeftAt (s : Segment F) (t : e.Tile) (d : Direction) (p : F) : Prop where
  finite : isFinite p = true
  nonneg : 0 ≤ level p
  within : level p ≤ 1 + slack
  near : |max (s.crossing d (t.edge d)) 0 - level p| ≤ slack
  before : ∀ c, s.course.faces c = true → level p ≤ max (s.crossing c (t.edge c)) 0 + blur
  reached : ∃ c, s.course.faces c = true ∧ max (s.crossing c (t.edge c)) 0 ≤ level p + blur

theorem Starts.exit_leftAt [Precise F] (starts : s.Starts origin) (t : e.Tile)
    {exit : Exit F s.course} (among : exit ∈ s.exits t.x t.y) :
    ∃ p, exit.point = snap (s.pointAt p) t.x t.y exit.edge ∧ s.LeftAt t exit.edge p := by
  obtain ⟨p, leaves, point, u, found, reached⟩ := mem_exits.mp among
  obtain ⟨⟨c, v, facing, first, value⟩, least⟩ := starts.leaves_level t leaves ⟨_, u, found⟩
  have nonneg : 0 ≤ level p := by
    rw [value]
    exact le_max_right _ _
  have within := level_le_of_not_late leaves.finite nonneg leaves.within
  have short : level p < 2 := within.trans_lt (by norm_num [slack])
  refine ⟨p, point, leaves.finite, nonneg, within, ?near, ?before, c, facing, ?reached⟩
  case near =>
    obtain ⟨number, blurs⟩ := starts.parameter_near t exit.facing found
    have near := near_of_reached number leaves.finite nonneg within reached
    rcases blurs with close | ⟨far, -⟩
    · have off := abs_le.mp close
      have off' := abs_le.mp near
      simp only [blur, slack] at off ⊢
      exact abs_le.mpr ⟨by linarith, by linarith⟩
    · have above := (le_max_left (level u) 0).trans (sub_le_iff_le_add.mp (abs_le.mp near).2)
      simp only [slack] at within
      linarith
  case before =>
    intro c facing
    obtain ⟨w, found'⟩ := exists_parameter facing t.x t.y
    have before := least c w found'
    rcases (starts.parameter_near t facing found').2 with close | ⟨-, far⟩
    · have off := (abs_le.mp close).2
      linarith
    · have above := far.trans (le_max_left _ 0)
      have fine : (0 : ℚ) ≤ blur := by norm_num [blur]
      linarith
  case reached =>
    rcases (starts.parameter_near t facing first).2 with close | ⟨far, -⟩
    · have off := (abs_le.mp close).1
      rw [← value] at off
      linarith
    · have above := far.trans (le_max_left _ 0)
      rw [← value] at above
      linarith

/-! Walking on. -/

theorem crossing_eq (s : Segment F) (d : Direction) (n : ℚ) :
    s.crossing d n = d.sign * (n - s.start.across d) / (d.sign * s.run d) := by
  rw [crossing, mul_div_mul_left _ _ d.sign_ne_zero]

theorem Starts.abs_run (starts : s.Starts origin) (facing : s.course.faces d = true) :
    |s.run d| = d.sign * s.run d := by
  rw [← d.abs_sign_mul, abs_of_pos (starts.faces_iff.mp facing)]

theorem Starts.crossing_mul (starts : s.Starts origin) (facing : s.course.faces d = true) (n : ℚ) :
    s.crossing d n * |s.run d| = d.sign * (n - s.start.across d) := by
  rw [starts.abs_run facing, crossing_eq, div_mul_cancel₀ _ (starts.faces_iff.mp facing).ne']

theorem Starts.faces_or (starts : s.Starts origin) (moving : s.run d ≠ 0) :
    s.course.faces d = true ∨ s.course.faces d.opposite = true := by
  rw [starts.faces_iff, starts.faces_iff, Direction.sign_opposite, run_opposite]
  rcases lt_or_gt_of_ne (mul_ne_zero d.sign_ne_zero moving) with below | above
  · exact .inr (by linarith)
  · exact .inl above

/-- The segment meets a tile or all but meets it. The tile lies ahead of the start, no line ahead is
crossed clearly before a line behind, and along an axis without movement the start lies between the
edges. -/
structure Meets (s : Segment F) (t : e.Tile) : Prop where
  still : ∀ d, s.run d = 0 → d.sign * s.start.across d ≤ d.sign * t.edge d
  ahead : ∀ d, s.course.faces d = true → 0 ≤ s.crossing d (t.edge d)
  behind : ∀ c d, s.course.faces c = true → s.course.faces d = true →
    s.crossing c (t.edge c.opposite) ≤ s.crossing d (t.edge d) + (slack + blur)

theorem Starts.meets (starts : s.Starts origin) : s.Meets origin := by
  have between : ∀ d : Direction, d.sign * s.start.across d ≤ d.sign * origin.edge d := by
    obtain ⟨-, -, west, east, north, south⟩ := starts.covers
    intro d
    cases d <;> simp only [Direction.sign, Point.across, Extent.Tile.edge] <;> push_cast <;> linarith
  have ahead : ∀ d, s.course.faces d = true → 0 ≤ s.crossing d (origin.edge d) := by
    intro d facing
    rw [crossing_eq]
    exact div_nonneg (by linarith [between d]) (starts.faces_iff.mp facing).le
  refine ⟨fun d _ => between d, ahead, fun c d facing facing' => ?_⟩
  have passed : s.crossing c (origin.edge c.opposite) ≤ 0 := by
    have behind := between c.opposite
    rw [Direction.sign_opposite, Point.across_opposite] at behind
    rw [crossing_eq]
    exact div_nonpos_of_nonpos_of_nonneg (by linarith) (starts.faces_iff.mp facing).le
  have margin : (0 : ℚ) ≤ slack + blur := by norm_num [slack, blur]
  linarith [ahead d facing']

/-- A step through an edge moves the line behind to where the edge was and the line ahead further, and
leaves the lines of the other axis. -/
theorem Meets.next [Precise F] (starts : s.Starts origin) (meets : s.Meets t) {next : e.Tile} {p : F}
    (facing : s.course.faces d = true) (left : s.LeftAt t d p)
    (step : e.neighbour? t.x t.y d = some next) : s.Meets next := by
  obtain ⟨back, further⟩ := Extent.edge_next step
  have moving := starts.faces_iff.mp facing
  have later : ∀ c, s.course.faces c = true →
      s.crossing c (t.edge c) ≤ s.crossing c (next.edge c) := by
    intro c facing'
    by_cases same : c = d
    · subst same
      rw [further, crossing_eq, crossing_eq]
      exact div_le_div_of_nonneg_right (by linarith [c.sign_mul_self]) moving.le
    · rw [Extent.edge_beside step same (starts.ne_opposite facing facing')]
  refine ⟨?_, fun c facing' => (meets.ahead c facing').trans (later c facing'), ?_⟩
  · intro c rests
    have other : c ≠ d := by
      rintro rfl
      exact starts.run_ne_zero facing rests
    have across : c ≠ d.opposite := by
      rintro rfl
      exact starts.run_ne_zero facing ((s.run_opposite d).symm.trans rests)
    rw [Extent.edge_beside step other across]
    exact meets.still c rests
  · intro c c' facing' facing''
    by_cases same : c = d
    · subst same
      rw [back]
      have reached := (le_max_left _ 0).trans (sub_le_iff_le_add.mp (abs_le.mp left.near).2)
      have before := left.before c' facing''
      rw [max_eq_left (meets.ahead c' facing'')] at before
      linarith [later c' facing'']
    · have other : c.opposite ≠ d := by
        rintro rfl
        exact starts.ne_opposite facing facing' (by rw [Direction.opposite_opposite])
      have across : c.opposite ≠ d.opposite := by
        intro equal
        exact same (by simpa using congrArg Direction.opposite equal)
      rw [Extent.edge_beside step other across]
      exact (meets.behind c c' facing' facing'').trans (by linarith [later c' facing''])

end Segment

/-- Every tile that a walk comes to is met by the segment, up to `slack`. -/
theorem WallSearch.Walks.meets [Rounded F] [Precise F] {g : Grid} {s : Segment F}
    {origin t u : g.Tile} (starts : s.Starts origin) (walks : (g.searchAlong s).Walks t u)
    (meets : s.Meets t) : s.Meets u := by
  induction walks with
  | refl => exact meets
  | tail _ passes ih =>
    obtain ⟨-, exit, among, -, step⟩ := passes
    obtain ⟨p, -, left⟩ := starts.exit_leftAt _ among
    exact ih.next starts exit.facing left step

end Vivarium
