import Mathlib.Tactic.FieldSimp
import Vivarium.Proofs.Route.Exits
import Vivarium.Proofs.Scalar.Exact

/-! Compass lines, from the centre of one tile to the centre of another, with exact numbers. A line
leaves its tiles in the middle of an edge or at a corner, always halfway between two centres, and it
leaves the tiles beside a corner at the same corner. -/
namespace Vivarium

namespace Sense

/-- The change of a coordinate from one tile of a line to the next. -/
def step : Option Sense → ℤ
  | some .rising => 1
  | some .falling => -1
  | none => 0

end Sense

namespace Course

/-- The line leads from corner to corner. -/
def diagonal (c : Course) : Bool := c.horizontal.isSome && c.vertical.isSome

end Course

namespace Direction

/-- Of a number of columns and a number of rows the one that counts along the axis of an edge. -/
def along : Direction → ℕ → ℕ → ℕ
  | north, _, j | south, _, j => j
  | east, i, _ | west, i, _ => i

end Direction

namespace Extent
variable {e : Extent} {t u v : e.Tile} {c : Course} {d : Direction} {i j i' j' n : ℕ}

/-- The tile `n` steps away along a compass line, unless the line has left the grid. -/
def along? (e : Extent) (t : e.Tile) (c : Course) (n : ℕ) : Option e.Tile :=
  let x := t.x + n * Sense.step c.horizontal
  let y := t.y + n * Sense.step c.vertical
  if 0 ≤ x ∧ 0 ≤ y then e.tile? x.toNat y.toNat else none

namespace Tile

/-- A point on the compass line from the centre of a tile, `n` tiles away. -/
def ahead (t : e.Tile) (c : Course) (n : ℚ) : Point ℚ :=
  ⟨t.x + 1 / 2 + n * Sense.step c.horizontal, t.y + 1 / 2 + n * Sense.step c.vertical⟩

/-- A tile `i` columns and `j` rows away in the direction of travel. -/
structure Displaced (t : e.Tile) (c : Course) (i j : ℕ) (u : e.Tile) : Prop where
  column : (u.x : ℤ) = t.x + i * Sense.step c.horizontal
  row : (u.y : ℤ) = t.y + j * Sense.step c.vertical

end Tile

theorem along?_eq_some_iff : e.along? t c n = some u ↔ t.Displaced c n n u := by
  simp only [along?]
  constructor
  · intro found
    split at found
    · obtain ⟨column, row⟩ := tile?_eq_some_iff.mp found
      exact ⟨by omega, by omega⟩
    · cases found
  · rintro ⟨column, row⟩
    rw [if_pos ⟨by omega, by omega⟩, tile?_eq_some_iff]
    omega

namespace Tile.Displaced

theorem start : t.Displaced c 0 0 t := ⟨by simp, by simp⟩

theorem unique (first : t.Displaced c i j u) (second : t.Displaced c i j v) : u = v := by
  have columns := first.column.trans second.column.symm
  have rows := first.row.trans second.row.symm
  exact ext_index (by omega) (by omega)

theorem trans (first : t.Displaced c i j u) (second : u.Displaced c i' j' v) :
    t.Displaced c (i + i') (j + j') v := by
  obtain ⟨column, row⟩ := first
  obtain ⟨column', row'⟩ := second
  constructor
  · rw [column', column]
    push_cast
    ring
  · rw [row', row]
    push_cast
    ring

/-- The way from one displaced tile to another. -/
theorem between (first : t.Displaced c i j u) (second : t.Displaced c (i + i') (j + j') v) :
    u.Displaced c i' j' v := by
  obtain ⟨column, row⟩ := first
  obtain ⟨column', row'⟩ := second
  push_cast at column' row'
  exact ⟨by linarith, by linarith⟩

/-- Along an axis that the line advances on, steps can be told from tiles. -/
theorem along_eq (facing : c.faces d = true) (first : t.Displaced c i j u)
    (second : t.Displaced c i' j' u) : d.along i j = d.along i' j' := by
  have columns := first.column.symm.trans second.column
  have rows := first.row.symm.trans second.row
  cases d <;> simp only [Course.faces, decide_eq_true_eq] at facing <;>
    simp only [facing, Sense.step, Direction.along] at columns rows ⊢ <;> omega

/-- Along an axis that the line does not advance on, any number of steps is right. -/
theorem straight (displaced : t.Displaced c i j u) (facing : c.faces d = true)
    (still : c.diagonal = false) : t.Displaced c (d.along i j) (d.along i j) u := by
  obtain ⟨column, row⟩ := displaced
  obtain ⟨horizontal, vertical⟩ := c
  cases d <;> simp only [Course.faces, decide_eq_true_eq] at facing <;> subst facing <;>
    simp only [Course.diagonal, Option.isSome_some, Bool.true_and, Bool.and_true,
      Option.isSome_eq_false_iff, Option.isNone_iff_eq_none] at still <;> subst still
  · exact ⟨by simpa [Sense.step] using column, row⟩
  · exact ⟨column, by simpa [Sense.step] using row⟩
  · exact ⟨by simpa [Sense.step] using column, row⟩
  · exact ⟨column, by simpa [Sense.step] using row⟩

theorem next (displaced : t.Displaced c i j u) (facing : c.faces d = true)
    (behind : e.neighbour? u.x u.y d = some v) :
    t.Displaced c (i + d.along 1 0) (j + d.along 0 1) v := by
  obtain ⟨columns, rows⟩ := neighbour?_eq_some_iff.mp behind
  obtain ⟨column, row⟩ := displaced
  constructor <;> cases d <;> simp only [Course.faces, decide_eq_true_eq] at facing <;>
    simp only [Direction.offset] at columns rows <;>
    simp only [facing, Sense.step, Direction.along, Nat.add_zero] at column row ⊢ <;>
    push_cast <;> omega

/-- The tile beside the line from which an edge leads back to it. -/
theorem neighbour (first : t.Displaced c i j u) (facing : c.faces d = true)
    (second : t.Displaced c (i + d.along 1 0) (j + d.along 0 1) v) :
    e.neighbour? u.x u.y d = some v := by
  rw [neighbour?_eq_some_iff]
  obtain ⟨column, row⟩ := first
  obtain ⟨column', row'⟩ := second
  constructor <;> cases d <;> simp only [Course.faces, decide_eq_true_eq] at facing <;>
    simp only [Direction.offset] <;>
    simp only [facing, Sense.step, Direction.along, Nat.add_zero] at column row column' row' <;>
    push_cast at column' row' <;> omega

end Tile.Displaced
end Extent

namespace Course
variable {c : Course}

theorem exists_facing (moving : c ≠ ⟨none, none⟩) : ∃ d, c.faces d = true := by
  obtain ⟨horizontal, vertical⟩ := c
  cases horizontal with
  | some s => cases s with
    | rising => exact ⟨.east, rfl⟩
    | falling => exact ⟨.west, rfl⟩
  | none => cases vertical with
    | some s => cases s with
      | rising => exact ⟨.south, rfl⟩
      | falling => exact ⟨.north, rfl⟩
    | none => exact absurd rfl moving

/-- A line past corners has an edge ahead on both axes. -/
theorem diagonal_faces (diagonal : c.diagonal = true) :
    (∃ d, c.faces d = true ∧ ∀ i j, d.along i j = i) ∧
      ∃ d, c.faces d = true ∧ ∀ i j, d.along i j = j := by
  obtain ⟨_ | side, _ | side'⟩ := c
  · cases diagonal
  · cases diagonal
  · cases diagonal
  · constructor
    · cases side with
      | rising => exact ⟨.east, rfl, fun _ _ => rfl⟩
      | falling => exact ⟨.west, rfl, fun _ _ => rfl⟩
    · cases side' with
      | rising => exact ⟨.south, rfl, fun _ _ => rfl⟩
      | falling => exact ⟨.north, rfl, fun _ _ => rfl⟩

/-- At a corner there is an edge ahead on the other axis, too. -/
theorem faces_across (diagonal : c.diagonal = true) (d : Direction) :
    ∃ d', c.faces d' = true ∧ d'.along 1 0 = d.along 0 1 ∧ d'.along 0 1 = d.along 1 0 := by
  obtain ⟨⟨h, facing, horizontal⟩, v, facing', vertical⟩ := diagonal_faces diagonal
  cases d with
  | north | south => exact ⟨h, facing, horizontal 1 0, horizontal 0 1⟩
  | east | west => exact ⟨v, facing', vertical 1 0, vertical 0 1⟩

end Course

namespace Segment
open Scalar
variable [Exact] {e : Extent} {t u : e.Tile} {c : Course} {d : Direction} {i j k : ℕ}

theorem center_eq (t : e.Tile) (c : Course) : (t.center : Point ℚ) = t.ahead c 0 := by
  have half : (0.5 : ℚ) = 1 / 2 := by norm_num
  simp only [Extent.Tile.center, Extent.Tile.ahead, zero_mul, add_zero, Point.mk.injEq]
  exact ⟨congrArg _ half, congrArg _ half⟩

/-- From the centre of a tile to the centre of the one `k` steps away. -/
def line (t : e.Tile) (c : Course) (k : ℕ) : Segment ℚ := ⟨t.center, t.ahead c k⟩

theorem sense_mul_step {run : ℕ} (positive : 0 < run) (way : Option Sense) :
    sense ((run : ℚ) * Sense.step way) = way := by
  have forth : (0 : ℚ) < run := by exact_mod_cast positive
  cases way with
  | none => simp [sense, Sense.step]
  | some side =>
    cases side with
    | rising => simp [sense, Sense.step, forth]
    | falling => simp [sense, Sense.step, forth, forth.le]

theorem line_start (t : e.Tile) (c : Course) (k : ℕ) : (line t c k).start = t.ahead c 0 :=
  center_eq t c

theorem line_runs (t : e.Tile) (c : Course) (k : ℕ) :
    (line t c k).dx = k * Sense.step c.horizontal ∧ (line t c k).dy = k * Sense.step c.vertical := by
  simp only [dx, dy, line, center_eq t c, Extent.Tile.ahead]
  constructor <;> ring

theorem line_course (t : e.Tile) (c : Course) (positive : 0 < k) : (line t c k).course = c := by
  obtain ⟨dx, dy⟩ := line_runs t c k
  simp only [course, dx, dy, sense_mul_step positive]

/-- The parameter at which the line is between its steps `n` and `n + 1`. -/
def halfway (k n : ℕ) : ℚ := (n + 1 / 2) / k

theorem pointAt_halfway (t : e.Tile) (c : Course) (positive : 0 < k) (n : ℕ) :
    (line t c k).pointAt (halfway k n) = t.ahead c (n + 1 / 2) := by
  obtain ⟨dx, dy⟩ := line_runs t c k
  have run : (k : ℚ) ≠ 0 := by exact_mod_cast positive.ne'
  simp only [pointAt, dx, dy, line_start, Extent.Tile.ahead, halfway, Point.mk.injEq]
  constructor <;> field_simp <;> ring

omit [Exact] in
theorem halfway_bounds {n : ℕ} (before : n < k) : 0 ≤ halfway k n ∧ halfway k n < 1 := by
  have run : (0 : ℚ) < k := by exact_mod_cast (Nat.zero_le n).trans_lt before
  have room : (n : ℚ) + 1 ≤ k := by exact_mod_cast before
  refine ⟨by unfold halfway; positivity, (div_lt_one run).mpr ?_⟩
  linarith

omit [Exact] in
/-- Steps are farther apart than crossings at one corner may be. -/
theorem halfway_sub {m n : ℕ} (short : k < UInt32.size) (less : m < n) (positive : 0 < k) :
    1 / 10 ^ 12 < halfway k n - halfway k m := by
  have run : (0 : ℚ) < k := by exact_mod_cast positive
  have long : (k : ℚ) < 2 ^ 32 := by exact_mod_cast short
  have apart : (m : ℚ) + 1 ≤ n := by exact_mod_cast less
  rw [halfway, halfway, ← sub_div, lt_div_iff₀ run]
  linarith

/-- One coordinate leaves its interval halfway between two steps. -/
theorem parameter_line {place first n : ℕ} {way : Option Sense} (positive : 0 < k)
    (column : (place : ℤ) = first + n * Sense.step way) :
    parameter (ofNat place) ((first : ℚ) + 1 / 2) (k * Sense.step way) =
      way.map fun _ => halfway k n := by
  have run : (k : ℚ) ≠ 0 := by exact_mod_cast positive.ne'
  have place : (place : ℚ) = first + n * Sense.step way := by exact_mod_cast column
  rw [parameter, sense_mul_step positive]
  cases way with
  | none => rfl
  | some side =>
    cases side <;> simp only [Exact.ofNat_eq, Exact.one_eq, place, Sense.step, Option.map_some,
      Option.some.injEq, halfway] <;> field_simp <;> push_cast <;> ring

section
variable (positive : 0 < k) (displaced : t.Displaced c i j u)
include positive displaced

theorem parameters_line :
    parameter (ofNat u.x) (line t c k).start.x (line t c k).dx =
        c.horizontal.map (fun _ => halfway k i) ∧
      parameter (ofNat u.y) (line t c k).start.y (line t c k).dy =
        c.vertical.map fun _ => halfway k j := by
  obtain ⟨dx, dy⟩ := line_runs t c k
  have start : (line t c k).start = ⟨(t.x : ℚ) + 1 / 2, t.y + 1 / 2⟩ := by
    simp [line_start, Extent.Tile.ahead]
  rw [dx, dy, start]
  exact ⟨parameter_line positive displaced.column, parameter_line positive displaced.row⟩

theorem parameterOf_line (facing : c.faces d = true) :
    (line t c k).parameterOf u.x u.y d = some (halfway k (d.along i j)) := by
  obtain ⟨horizontal, vertical⟩ := parameters_line positive displaced
  cases d <;> simp only [Course.faces, decide_eq_true_eq] at facing <;>
    simp only [parameterOf, horizontal, vertical, facing, Direction.along, Option.map_some]

variable (moving : c ≠ ⟨none, none⟩) (shape : i = j ∨ c.diagonal = true)
include moving shape

/-- The line leaves a tile on the axis on which it has fewer steps behind it. -/
theorem earliest_line :
    earlier (parameter (ofNat u.x) (line t c k).start.x (line t c k).dx)
      (parameter (ofNat u.y) (line t c k).start.y (line t c k).dy) =
        some (halfway k (min i j)) := by
  obtain ⟨horizontal, vertical⟩ := parameters_line positive displaced
  have run : (0 : ℚ) < k := by exact_mod_cast positive
  have least : min (halfway k i) (halfway k j) = halfway k (min i j) := by
    have mono : Monotone (halfway k) := by
      intro m n le
      have steps : (m : ℚ) ≤ n := by exact_mod_cast le
      exact div_le_div_of_nonneg_right (by linarith) run.le
    exact (mono.map_min).symm
  rw [horizontal, vertical]
  obtain ⟨way, way'⟩ := c
  cases way with
  | none =>
    cases way' with
    | none => exact absurd rfl moving
    | some side =>
      obtain rfl : i = j := by simpa [Course.diagonal] using shape
      simp [earlier]
  | some side =>
    cases way' with
    | none =>
      obtain rfl : i = j := by simpa [Course.diagonal] using shape
      simp [earlier]
    | some side' => simp [earlier, Exact.smaller_eq, least]

end

theorem tolerance_halfway {n : ℕ} (before : n < k) : tolerance (halfway k n) = 1 / 10 ^ 12 := by
  obtain ⟨low, high⟩ := halfway_bounds before
  have corner : (cornerTolerance : ℚ) = 1 / 10 ^ 12 := by
    change (1e-12 : ℚ) = 1 / 10 ^ 12
    norm_num
  rw [tolerance, corner, Exact.abs_eq, Exact.larger_eq, Exact.one_eq, abs_of_nonneg low,
    max_eq_right high.le, mul_one]

section
variable (positive : 0 < k) (displaced : t.Displaced c i j u) (moving : c ≠ ⟨none, none⟩)
  (shape : i = j ∨ c.diagonal = true) (before : min i j < k)
include positive displaced moving shape before

theorem leaves_line {p : ℚ} :
    (line t c k).Leaves u.x u.y p ↔ p = halfway k (min i j) := by
  have earliest := earliest_line positive displaced moving shape
  obtain ⟨low, high⟩ := halfway_bounds before
  have larger : larger (halfway k (min i j)) zero = halfway k (min i j) := by
    rw [Exact.larger_eq, Exact.zero_eq, max_eq_left low]
  constructor
  · rintro ⟨⟨first, found, rfl⟩, -, -⟩
    obtain rfl := Option.some.inj (earliest.symm.trans found)
    exact larger
  · rintro rfl
    refine ⟨⟨_, earliest, larger.symm⟩, rfl, ?_⟩
    rw [tolerance_halfway before, Exact.one_eq]
    linarith

/-- The line leaves a tile through the edges on the axes with fewer steps behind it, in the middle of
an edge or at a corner. -/
theorem mem_exits_line (short : k < UInt32.size) {exit : Exit ℚ (line t c k).course} :
    exit ∈ (line t c k).exits u.x u.y ↔
      exit.edge.along i j = min i j ∧ exit.point = t.ahead c ((min i j : ℕ) + 1 / 2) := by
  have facing : c.faces exit.edge = true :=
    (congrArg (Course.faces · exit.edge) (line_course t c positive)).symm.trans exit.facing
  have found := parameterOf_line positive displaced facing
  have least : min i j ≤ exit.edge.along i j := by
    cases exit.edge <;> simp [Direction.along]
  have near : Scalar.abs (larger (halfway k (exit.edge.along i j)) zero - halfway k (min i j)) ≤
      tolerance (halfway k (min i j)) ↔ exit.edge.along i j = min i j := by
    have low : 0 ≤ halfway k (exit.edge.along i j) := by unfold halfway; positivity
    rw [tolerance_halfway before, Exact.abs_eq, Exact.larger_eq, Exact.zero_eq, max_eq_left low]
    constructor
    · intro close
      by_contra apart
      have far := halfway_sub short (lt_of_le_of_ne least (Ne.symm apart)) positive
      exact absurd (le_trans (le_abs_self _) close) (not_le.mpr far)
    · intro same
      rw [same, sub_self, abs_zero]
      positivity
  have snapped : exit.edge.along i j = min i j →
      snap ((line t c k).pointAt (halfway k (min i j))) u.x u.y exit.edge =
        t.ahead c ((min i j : ℕ) + 1 / 2) := by
    intro same
    rw [pointAt_halfway t c positive, ← same]
    have column : (u.x : ℚ) = t.x + i * Sense.step c.horizontal := by
      exact_mod_cast displaced.column
    have row : (u.y : ℚ) = t.y + j * Sense.step c.vertical := by exact_mod_cast displaced.row
    revert facing
    cases exit.edge <;> intro facing <;>
      simp only [Course.faces, decide_eq_true_eq] at facing <;>
      simp only [snap, Extent.Tile.ahead, Direction.along, Exact.ofNat_eq, Exact.one_eq, column, row,
        facing, Sense.step, Point.mk.injEq, true_and, and_true] <;> push_cast <;> ring
  rw [mem_exits]
  constructor
  · rintro ⟨p, leaves, point, p', found', close⟩
    obtain rfl := (leaves_line positive displaced moving shape before).mp leaves
    obtain rfl := Option.some.inj (found.symm.trans found')
    have same := near.mp close
    exact ⟨same, point.trans (snapped same)⟩
  · rintro ⟨same, point⟩
    exact ⟨_, (leaves_line positive displaced moving shape before).mpr rfl,
      point.trans (snapped same).symm, _, found, near.mpr same⟩

end
end Segment
end Vivarium
