import Vivarium.Proofs.Grid.Covers
import Vivarium.Proofs.Grid.Rooms
import Vivarium.Proofs.Route.Leg

/-! The exits of a tile on the way to the end of a segment. As long as the end lies outside the
tile, one of its exits leads along an axis on which the end is still pending, and the tile behind
that exit is on the way again. -/
namespace Vivarium.Segment
open Scalar Rounded
variable {F : Type} [Scalar F] {s : Segment F} {x y : Nat}

/-- The parameter at which the segment leaves the tile along the axis of an edge. -/
def parameterOf (s : Segment F) (x y : Nat) : Direction → Option F
  | .north | .south => parameter (ofNat y) s.start.y s.dy
  | .east | .west => parameter (ofNat x) s.start.x s.dx

def tolerance (t : F) : F := cornerTolerance * larger (Scalar.abs t) one

/-- The segment leaves tile `(x, y)` at parameter `t`. -/
structure Leaves (s : Segment F) (x y : Nat) (t : F) : Prop where
  earliest : ∃ first, earlier (parameter (ofNat x) s.start.x s.dx)
    (parameter (ofNat y) s.start.y s.dy) = some first ∧ t = larger first zero
  finite : isFinite t = true
  within : ¬one + tolerance t < t

theorem mem_exits {e : Exit F s.course} : e ∈ s.exits x y ↔
    ∃ t, s.Leaves x y t ∧ e.point = snap (s.pointAt t) x y e.edge ∧
      ∃ u, s.parameterOf x y e.edge = some u ∧
        Scalar.abs (larger u zero - t) ≤ tolerance t := by
  have axis : ∀ d : Direction, s.parameterOf x y d = match d with
      | .north | .south => parameter (ofNat y) s.start.y s.dy
      | .east | .west => parameter (ofNat x) s.start.x s.dx := by
    intro d
    cases d <;> rfl
  unfold exits
  cases earliest : earlier (parameter (ofNat x) s.start.x s.dx)
      (parameter (ofNat y) s.start.y s.dy) with
  | none =>
    simp only [earliest, List.not_mem_nil, false_iff]
    rintro ⟨t, leaves, -⟩
    obtain ⟨first, found, -⟩ := leaves.earliest
    cases earliest.symm.trans found
  | some first =>
    have same : ∀ {t}, s.Leaves x y t → t = larger first zero := by
      intro t leaves
      obtain ⟨other, found, rfl⟩ := leaves.earliest
      obtain rfl := Option.some.inj (earliest.symm.trans found)
      rfl
    simp only [earliest]
    split
    · rename_i guard
      simp only [Bool.and_eq_true, Bool.not_eq_true', decide_eq_false_iff_not] at guard
      have leaves : s.Leaves x y (larger first zero) := ⟨⟨first, earliest, rfl⟩, guard.1, guard.2⟩
      simp only [List.mem_filterMap, Option.dite_none_right_eq_some,
        Option.ite_none_right_eq_some, Option.some.injEq]
      constructor
      · rintro ⟨d, -, facing, crossed, rfl⟩
        refine ⟨_, leaves, rfl, ?_⟩
        revert crossed
        cases d <;> simp only [axis] <;> split <;> simp_all [tolerance]
      · rintro ⟨t, leaves', point, u, found, near⟩
        obtain rfl := same leaves'
        obtain ⟨d, facing, p⟩ := e
        refine ⟨d, by cases d <;> decide, facing, ?_, ?_⟩
        · cases d <;> simp only [axis] at found <;> simpa [found, tolerance] using near
        · simp_all
    · rename_i guard
      simp only [List.not_mem_nil, false_iff]
      rintro ⟨t, leaves, -⟩
      obtain rfl := same leaves
      apply guard
      have within := leaves.within
      simp only [tolerance] at within
      simp [leaves.finite, within]

variable [Rounded F] {e : Extent} {origin t : e.Tile}

/-- Along both axes the tile lies between the one that the segment starts in and its end. -/
structure OnWay (s : Segment F) (origin t : e.Tile) : Prop where
  horizontal : Sense.OnWay origin.x (level s.finish.x) s.course.horizontal t.x
  vertical : Sense.OnWay origin.y (level s.finish.y) s.course.vertical t.y

/-- The end of the segment lies beyond the tile along the axis of an edge. -/
def Leads (s : Segment F) (t : e.Tile) : Direction → Prop
  | .north | .south => Sense.Pending (level s.finish.y) s.course.vertical t.y
  | .east | .west => Sense.Pending (level s.finish.x) s.course.horizontal t.x

/-- A segment from a tile of the grid to a finite end. -/
structure Starts (s : Segment F) (origin : e.Tile) : Prop where
  covers : origin.Covers s.start
  finite_x : isFinite s.finish.x = true
  finite_y : isFinite s.finish.y = true

theorem column_small (t : e.Tile) : t.x.val + 1 < UInt32.size :=
  lt_of_le_of_lt t.x.isLt e.width_lt

theorem row_small (t : e.Tile) : t.y.val + 1 < UInt32.size :=
  lt_of_le_of_lt t.y.isLt e.height_lt

namespace Starts

theorem horizontal (starts : s.Starts origin) : Leg origin.x s.start.x s.finish.x :=
  ⟨column_small origin, starts.covers.number_x, starts.covers.west, starts.covers.east,
    starts.finite_x⟩

theorem vertical (starts : s.Starts origin) : Leg origin.y s.start.y s.finish.y :=
  ⟨row_small origin, starts.covers.number_y, starts.covers.north, starts.covers.south,
    starts.finite_y⟩

theorem onWay (starts : s.Starts origin) : s.OnWay origin origin :=
  ⟨starts.horizontal.start_onWay, starts.vertical.start_onWay⟩

/-- A tile on the way from which no axis leads further holds the end. -/
theorem arrived (starts : s.Starts origin) (onWay : s.OnWay origin t)
    (last : ∀ d, ¬s.Leads t d) : t.Covers s.finish := by
  obtain ⟨west, east⟩ := starts.horizontal.arrived onWay.horizontal (last .east)
  obtain ⟨north, south⟩ := starts.vertical.arrived onWay.vertical (last .south)
  exact ⟨finite_number starts.finite_x, finite_number starts.finite_y, west, east, north, south⟩

theorem parameter_leading (starts : s.Starts origin) (onWay : s.OnWay origin t) {d : Direction}
    (leads : s.Leads t d) :
    ∃ u, s.parameterOf t.x t.y d = some u ∧ IsNumber u ∧ 0 ≤ level u ∧ level u ≤ 1 := by
  cases d with
  | north | south =>
    exact starts.vertical.parameter_pending (row_small t) onWay.vertical leads
  | east | west =>
    exact starts.horizontal.parameter_pending (column_small t) onWay.horizontal leads

theorem parameter_past (starts : s.Starts origin) {d : Direction} (past : ¬s.Leads t d) {u : F}
    (found : s.parameterOf t.x t.y d = some u) : IsNumber u ∧ 1 ≤ level u := by
  cases d with
  | north | south => exact starts.vertical.parameter_past (row_small t) past found
  | east | west => exact starts.horizontal.parameter_past (column_small t) past found

end Starts

/-- The edge ahead on an axis along which the segment leads. -/
theorem Leads.faced {d : Direction} (leads : s.Leads t d) :
    ∃ ahead, s.course.faces ahead = true ∧ s.Leads t ahead ∧
      s.parameterOf t.x t.y ahead = s.parameterOf t.x t.y d := by
  cases d with
  | north | south =>
    simp only [Leads] at leads
    cases way : s.course.vertical with
    | none => simp only [way, Sense.Pending] at leads
    | some sense =>
      cases sense with
      | rising => exact ⟨.south, by simp [Course.faces, way], leads, rfl⟩
      | falling => exact ⟨.north, by simp [Course.faces, way], leads, rfl⟩
  | east | west =>
    simp only [Leads] at leads
    cases way : s.course.horizontal with
    | none => simp only [way, Sense.Pending] at leads
    | some sense =>
      cases sense with
      | rising => exact ⟨.east, by simp [Course.faces, way], leads, rfl⟩
      | falling => exact ⟨.west, by simp [Course.faces, way], leads, rfl⟩

theorem earlier_spec {p q : Option F} (hp : ∀ u, p = some u → IsNumber u)
    (hq : ∀ u, q = some u → IsNumber u) (present : ∃ u, p = some u ∨ q = some u) :
    ∃ first, earlier p q = some first ∧ IsNumber first ∧
      (∃ u, (p = some u ∨ q = some u) ∧ level first = level u) ∧
      ∀ u, p = some u ∨ q = some u → level first ≤ level u := by
  cases p with
  | none =>
    cases q with
    | none => simp at present
    | some b =>
      have number : (b == b) = true := hq b rfl
      exact ⟨b, by simp [earlier, number], number, ⟨b, by simp⟩, by simp⟩
  | some a =>
    cases q with
    | none =>
      have number : (a == a) = true := hp a rfl
      exact ⟨a, by simp [earlier, number], number, ⟨a, by simp⟩, by simp⟩
    | some b =>
      obtain ⟨number, least⟩ := smaller_spec (hp a rfl) (hq b rfl)
      refine ⟨_, rfl, number, ?_, ?_⟩
      · rcases min_choice (level a) (level b) with left | right
        · exact ⟨a, .inl rfl, by rw [least, left]⟩
        · exact ⟨b, .inr rfl, by rw [least, right]⟩
      · rintro u (found | found) <;> cases found
        · exact least.trans_le (min_le_left _ _)
        · exact least.trans_le (min_le_right _ _)

/-- The earliest parameter is one of an axis that leads on: the parameters of the other axes are at
least one. -/
theorem Starts.earliest_leads (starts : s.Starts origin) (onWay : s.OnWay origin t) {d : Direction}
    (leads : s.Leads t d) :
    ∃ first ahead u, earlier (parameter (ofNat t.x) s.start.x s.dx)
        (parameter (ofNat t.y) s.start.y s.dy) = some first ∧ IsNumber first ∧
      s.Leads t ahead ∧ s.parameterOf t.x t.y ahead = some u ∧ level u = level first := by
  have number : ∀ (d : Direction) (u : F), s.parameterOf t.x t.y d = some u → IsNumber u := by
    intro d u found
    by_cases pending : s.Leads t d
    · obtain ⟨v, found', number, -, -⟩ := starts.parameter_leading onWay pending
      obtain rfl := Option.some.inj (found.symm.trans found')
      exact number
    · exact (starts.parameter_past pending found).1
  obtain ⟨v, found, -, -, short⟩ := starts.parameter_leading onWay leads
  have present : ∀ (d : Direction) (u : F), s.parameterOf t.x t.y d = some u →
      parameter (ofNat t.x) s.start.x s.dx = some u ∨
        parameter (ofNat t.y) s.start.y s.dy = some u := by
    intro d u found
    cases d with
    | north | south => exact .inr found
    | east | west => exact .inl found
  obtain ⟨first, earliest, isNumber, ⟨u, choice, same⟩, least⟩ :=
    earlier_spec (number .east) (number .south) ⟨v, present d v found⟩
  have axis : ∃ ahead, s.parameterOf t.x t.y ahead = some u := by
    rcases choice with horizontal | vertical
    · exact ⟨.east, horizontal⟩
    · exact ⟨.south, vertical⟩
  obtain ⟨ahead, chosen⟩ := axis
  by_cases pending : s.Leads t ahead
  · exact ⟨first, ahead, u, earliest, isNumber, pending, chosen, same.symm⟩
  · -- The two axes tie at the end of the segment.
    have long := (starts.parameter_past pending chosen).2
    have before := least v (present d v found)
    exact ⟨first, d, v, earliest, isNumber, leads, found, by linarith⟩

theorem tolerance_bounds {p : F} (number : IsNumber p) (low : 0 ≤ level p) (high : level p ≤ 1) :
    isFinite (tolerance p) = true ∧ 0 ≤ level (tolerance p) := by
  obtain ⟨corner, nonneg, small⟩ := Rounded.tolerance_spec (F := F)
  obtain ⟨absNumber, absLevel⟩ := abs_spec number
  obtain ⟨scale, one⟩ := larger_spec absNumber number_one
  rw [absLevel, abs_of_nonneg low, level_one, max_eq_right high] at one
  have cornerFinite : isFinite (cornerTolerance : F) = true :=
    number_finite corner nonneg (lt_of_le_of_lt small (by norm_num [UInt32.size]))
  have scaleFinite := number_finite scale (by rw [one]; norm_num)
    (by rw [one]; norm_num [UInt32.size])
  obtain ⟨product, value⟩ := mul_spec cornerFinite scaleFinite
  rw [one, mul_one, nearest_level corner] at value
  change isFinite (cornerTolerance * larger (Scalar.abs p) Scalar.one) = true ∧
    0 ≤ level (cornerTolerance * larger (Scalar.abs p) Scalar.one)
  rw [value]
  exact ⟨number_finite product (by rwa [value])
    (by rw [value]; exact lt_of_le_of_lt small (by norm_num [UInt32.size])), nonneg⟩

/-- Where the segment leads beyond a tile on the way, the tile has an exit in that direction. -/
theorem Starts.exit_leads (starts : s.Starts origin) (onWay : s.OnWay origin t) {d : Direction}
    (leads : s.Leads t d) : ∃ e ∈ s.exits t.x t.y, s.Leads t e.edge := by
  obtain ⟨first, side, u, earliest, number, leads, found, same⟩ :=
    starts.earliest_leads onWay leads
  obtain ⟨ahead, facing, onward, axis⟩ := leads.faced
  obtain ⟨v, found', uNumber, low, high⟩ := starts.parameter_leading onWay leads
  obtain rfl := Option.some.inj (found.symm.trans found')
  obtain ⟨tNumber, tLevel⟩ := larger_spec number number_zero
  obtain ⟨crossing, crossingLevel⟩ := larger_spec uNumber number_zero
  rw [← same, level_zero, max_eq_left low] at tLevel
  rw [level_zero, max_eq_left low] at crossingLevel
  have one_small : (1 : ℚ) < UInt32.size := by norm_num [UInt32.size]
  have tFinite := number_finite tNumber (by rwa [tLevel]) (by rw [tLevel]; linarith)
  have crossingFinite := number_finite crossing (by rwa [crossingLevel])
    (by rw [crossingLevel]; linarith)
  obtain ⟨toleranceFinite, nonneg⟩ := tolerance_bounds tNumber (by rwa [tLevel]) (by rwa [tLevel])
  have within : ¬one + tolerance (larger first zero) < larger first zero := by
    intro outside
    obtain ⟨-, sum⟩ := add_spec finite_one toleranceFinite
    obtain ⟨-, -, above⟩ := lt_iff.mp outside
    have least := one_le_nearest (F := F)
      (x := level (one : F) + level (tolerance (larger first zero))) (by rw [level_one]; linarith)
    rw [sum, tLevel] at above
    linarith
  have near : Scalar.abs (larger u zero - larger first zero) ≤ tolerance (larger first zero) := by
    obtain ⟨difference, vanishes⟩ :=
      sub_of_level_eq crossingFinite tFinite (by rw [crossingLevel, tLevel])
    obtain ⟨absNumber, absLevel⟩ := abs_spec difference
    exact le_iff.mpr ⟨absNumber, finite_number toleranceFinite, by
      rw [absLevel, vanishes, abs_zero]; exact nonneg⟩
  exact ⟨⟨ahead, facing, snap (s.pointAt (larger first zero)) t.x t.y ahead⟩,
    mem_exits.mpr ⟨_, ⟨⟨first, earliest, rfl⟩, tFinite, within⟩, rfl, u, axis.trans found, near⟩,
    onward⟩

/-- The tile behind an edge that leads on is on the way. -/
theorem OnWay.next (onWay : s.OnWay origin t) {next : e.Tile} {d : Direction} (facing : s.course.faces d = true)
    (leads : s.Leads t d) (step : e.neighbour? t.x t.y d = some next) : s.OnWay origin next := by
  obtain ⟨columns, rows⟩ := Extent.neighbour?_eq_some_iff.mp step
  obtain ⟨horizontal, vertical⟩ := onWay
  cases d <;> simp only [Course.faces, decide_eq_true_eq] at facing <;>
    simp only [Leads, facing, Sense.Pending] at leads <;>
    simp only [Direction.offset, add_zero] at columns rows
  case east =>
    simp only [facing, Sense.OnWay] at horizontal
    have column : next.x.val = t.x + 1 := by omega
    have row : next.y.val = t.y := by omega
    refine ⟨?_, by rwa [row]⟩
    simp only [facing, Sense.OnWay, column]
    exact ⟨by omega, by exact_mod_cast leads⟩
  case south =>
    simp only [facing, Sense.OnWay] at vertical
    have column : next.x.val = t.x := by omega
    have row : next.y.val = t.y + 1 := by omega
    refine ⟨by rwa [column], ?_⟩
    simp only [facing, Sense.OnWay, row]
    exact ⟨by omega, by exact_mod_cast leads⟩
  case west =>
    simp only [facing, Sense.OnWay] at horizontal
    have column : t.x.val = next.x + 1 := by omega
    have row : next.y.val = t.y := by omega
    refine ⟨?_, by rwa [row]⟩
    simp only [facing, Sense.OnWay]
    exact ⟨by omega, by rw [column] at leads; exact_mod_cast leads⟩
  case north =>
    simp only [facing, Sense.OnWay] at vertical
    have column : next.x.val = t.x := by omega
    have row : t.y.val = next.y + 1 := by omega
    refine ⟨by rwa [column], ?_⟩
    simp only [facing, Sense.OnWay]
    exact ⟨by omega, by rw [row] at leads; exact_mod_cast leads⟩

/-- The point of an exit has numbers for coordinates. -/
theorem Starts.exit_number (starts : s.Starts origin) (t : e.Tile) {exit : Exit F s.course}
    (isExit : exit ∈ s.exits t.x t.y) : IsNumber exit.point.x ∧ IsNumber exit.point.y := by
  obtain ⟨p, leaves, point, -⟩ := mem_exits.mp isExit
  have column := (ofNat_spec (F := F) (t.x.isLt.trans e.width_lt)).1
  have row := (ofNat_spec (F := F) (t.y.isLt.trans e.height_lt)).1
  have nextColumn := finite_number (add_one_spec (F := F) (column_small t)).1
  have nextRow := finite_number (add_one_spec (F := F) (row_small t)).1
  have x : IsNumber (s.pointAt p).x := add_number starts.horizontal.start_finite
    (mul_spec starts.horizontal.run_finite leaves.finite).1
  have y : IsNumber (s.pointAt p).y := add_number starts.vertical.start_finite
    (mul_spec starts.vertical.run_finite leaves.finite).1
  rw [point]
  cases exit.edge with
  | north => exact ⟨x, row⟩
  | east => exact ⟨nextColumn, y⟩
  | south => exact ⟨x, nextRow⟩
  | west => exact ⟨column, y⟩

end Vivarium.Segment
