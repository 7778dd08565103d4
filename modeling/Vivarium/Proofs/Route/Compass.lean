import Vivarium.Proofs.Route.Collisions
import Vivarium.Proofs.Route.Line
import Vivarium.Proofs.Scalar.Stepped

/-! Moves along compass lines. At a corner the search goes on through the tiles on both sides and
comes together behind it again, so it is on the line or beside it and nowhere else. Main statement:
a move is stopped exactly by the first closed step of its line, where a step past a corner is closed
if one of the four edges is walled that meet there. -/
namespace Vivarium

namespace WallSearch
variable [Exact] {s : WallSearch ℚ} {t : s.grid.Tile} {hit other : Hit ℚ s.grid.extent}
  {best found : s.Found}

theorem nearer_reach (nearer : s.nearer best found = some hit)
    (among : best = some other ∨ found = some other) : s.reach hit ≤ s.reach other := by
  cases best with
  | none =>
    obtain rfl : found = some hit := nearer
    simp_all
  | some first =>
    cases found with
    | none =>
      obtain rfl := Option.some.inj nearer
      simp_all
    | some second =>
      simp only [WallSearch.nearer] at nearer
      split at nearer
      · rename_i less
        obtain rfl := Option.some.inj nearer
        rcases among with same | same <;> obtain rfl := Option.some.inj same
        · exact le_of_lt less
        · exact le_refl _
      · rename_i notLess
        obtain rfl := Option.some.inj nearer
        rcases among with same | same <;> obtain rfl := Option.some.inj same
        · exact le_refl _
        · exact not_lt.mp notLess

/-- The nearest hit is no farther than any. -/
theorem nearest_reach {α : Type} {outcome : α → s.Found} {exits : List α}
    (nearest : exits.foldl (fun best e => s.nearer best (outcome e)) best = some hit)
    (among : best = some other ∨ ∃ e ∈ exits, outcome e = some other) :
    s.reach hit ≤ s.reach other := by
  induction exits generalizing best other with
  | nil =>
    rcases among with same | ⟨e, absent, -⟩
    · obtain rfl := Option.some.inj (nearest.symm.trans same)
      exact le_refl _
    · cases absent
  | cons e rest ih =>
    rw [List.foldl_cons] at nearest
    have rest : (best = some other ∨ outcome e = some other) ∨ ∃ e ∈ rest, outcome e = some other := by
      simpa [or_assoc] using among
    rcases rest with first | later
    · cases kept : s.nearer best (outcome e) with
      | none => simp_all [nearer_eq_none]
      | some nearer => exact (ih nearest (.inl kept)).trans (nearer_reach kept first)
    · exact ih nearest (.inr later)

/-- Where all exits lead to the same outcome, it is the outcome. -/
theorem find_eq_of_onward (elsewhere : s.goal ≠ some t) (unblocked : s.Open t)
    (leads : s.exits t ≠ []) (same : ∀ e ∈ s.exits t, s.onward t e = found) : s.find t = found := by
  have twice : s.nearer found found = found := by
    cases found with
    | none => rfl
    | some hit => simp [nearer]
  have all : ∀ {exits : List (Exit ℚ s.course)}, (∀ e ∈ exits, s.onward t e = found) →
      exits.foldl (fun best e => s.nearer best (s.onward t e)) found = found := by
    intro exits same
    induction exits with
    | nil => rfl
    | cons e rest ih =>
      rw [List.foldl_cons, same e (by simp), twice]
      exact ih fun e' among => same e' (by simp [among])
  rw [find_open elsewhere unblocked]
  obtain ⟨e, rest, exits⟩ := List.exists_cons_of_ne_nil leads
  rw [exits] at same ⊢
  rw [List.foldl_cons, same e (by simp)]
  exact all fun e' among => same e' (by simp [among])

end WallSearch

namespace Extent
variable [Exact] {e : Extent} {t u : e.Tile} {c : Course} {n : ℕ}

/-- The tile around a centre. -/
theorem tileAt?_middle {x y : ℤ} :
    e.tileAt? (⟨x + 1 / 2, y + 1 / 2⟩ : Point ℚ) = some u ↔ (u.x : ℤ) = x ∧ (u.y : ℤ) = y := by
  have low : ∀ z : ℤ, (0 : ℚ) ≤ z + 1 / 2 ↔ 0 ≤ z := by
    intro z
    constructor
    · intro above
      have more : (-1 : ℚ) < z := by linarith
      have whole : -1 < z := by exact_mod_cast more
      omega
    · intro above
      have whole : (0 : ℚ) ≤ z := by exact_mod_cast above
      linarith
  have high : ∀ (z : ℤ) (size : ℕ), (z : ℚ) + 1 / 2 < size ↔ z < size := by
    intro z size
    constructor
    · intro below
      have less : (z : ℚ) < size := by linarith
      exact_mod_cast less
    · intro below
      have whole : (z : ℚ) + 1 ≤ size := by exact_mod_cast below
      linarith
  have clip : ∀ (size : ℕ) (pos : 0 < size) (z : ℤ), 0 ≤ z → z < size →
      ((tileAt?.clip size pos ((z : ℚ) + 1 / 2) : ℕ) : ℤ) = z := by
    intro size pos z low high
    have floor : ⌊(z : ℚ) + 1 / 2⌋₊ = z.toNat := by
      rw [← Int.floor_toNat, Int.floor_intCast_add]
      norm_num
    simp only [tileAt?.clip, Exact.wholePart_eq, floor]
    omega
  rw [tileAt?]
  simp only [contains, Exact.zero_eq, Exact.ofNat_eq, low, high, Bool.and_eq_true,
    decide_eq_true_eq]
  constructor
  · intro found
    split at found
    · rename_i inside
      obtain rfl := Option.some.inj found
      exact ⟨clip _ e.width_pos x inside.1.1.1 inside.1.2,
        clip _ e.height_pos y inside.1.1.2 inside.2⟩
    · cases found
  · rintro ⟨rfl, rfl⟩
    have column := u.x.isLt
    have row := u.y.isLt
    rw [if_pos ⟨⟨⟨by omega, by omega⟩, by omega⟩, by omega⟩, Option.some.injEq]
    apply Tile.ext_index
    · exact_mod_cast clip _ e.width_pos u.x (by omega) (by omega)
    · exact_mod_cast clip _ e.height_pos u.y (by omega) (by omega)

theorem tileAt?_ahead : e.tileAt? (t.ahead c n) = some u ↔ t.Displaced c n n u := by
  have place : t.ahead c n = ⟨((t.x + n * Sense.step c.horizontal : ℤ) : ℚ) + 1 / 2,
      ((t.y + n * Sense.step c.vertical : ℤ) : ℚ) + 1 / 2⟩ := by
    simp only [Tile.ahead, Point.mk.injEq]
    constructor <;> push_cast <;> ring
  rw [place, tileAt?_middle]
  exact ⟨fun same => ⟨same.1, same.2⟩, fun same => ⟨same.column, same.row⟩⟩

end Extent

@[simp] theorem Direction.along_self (d : Direction) (n : ℕ) : d.along n n = n := by
  cases d <;> rfl

/-- Past an edge on the axis with fewer steps behind it, both axes have as many. -/
theorem Direction.along_corner {d : Direction} {i j : ℕ} (corner : max i j = min i j + 1)
    (least : d.along i j = min i j) : i + d.along 1 0 = max i j ∧ j + d.along 0 1 = max i j := by
  cases d <;> simp only [Direction.along] at least ⊢ <;> omega

namespace Grid
variable {g : Grid} {t u v w : g.Tile} {c : Course} {d : Direction} {i j k n : ℕ}
  {hit : Hit ℚ g.extent}

/-- The next step of a compass line is closed: an edge of the tile on the way is walled, or, where the
step leads past a corner, one of the edges of the next tile at this corner. -/
def Closed (g : Grid) (c : Course) (t : g.Tile) : Prop :=
  ∃ d, c.faces d = true ∧ ((g.walls t).has d = true ∨
    c.diagonal = true ∧ ∃ u, g.extent.along? t c 1 = some u ∧ (g.walls u).has d.opposite = true)

/-- A tile on a compass line or beside it, from which some of the `k` steps are still to be made. -/
structure Under (t : g.Tile) (c : Course) (k i j : ℕ) (u : g.Tile) : Prop where
  moving : c ≠ ⟨none, none⟩
  short : k < UInt32.size
  displaced : t.Displaced c i j u
  shape : i = j ∨ c.diagonal = true
  before : min i j < k

namespace Under

theorem positive (under : Under t c k i j u) : 0 < k := (Nat.zero_le _).trans_lt under.before

/-- There is an edge ahead on the axis on which the tile has fewer steps behind it. -/
theorem exists_earliest (under : Under t c k i j u) :
    ∃ d, c.faces d = true ∧ d.along i j = min i j := by
  rcases under.shape with rfl | diagonal
  · obtain ⟨d, facing⟩ := Course.exists_facing under.moving
    exact ⟨d, facing, by simp⟩
  · obtain ⟨⟨d, facing, horizontal⟩, d', facing', vertical⟩ := Course.diagonal_faces diagonal
    rcases le_total i j with less | more
    · exact ⟨d, facing, by rw [horizontal, min_eq_left less]⟩
    · exact ⟨d', facing', by rw [vertical, min_eq_right more]⟩

end Under

variable [Exact]

/-- The search along a compass line. -/
abbrev compass (g : Grid) (t : g.Tile) (c : Course) (k : ℕ) : WallSearch ℚ :=
  g.searchAlong (.line t c k)

namespace Under

theorem facing (under : Under t c k i j u) (e : Exit ℚ (g.compass t c k).course) :
    c.faces e.edge = true :=
  (congrArg (Course.faces · e.edge) (Segment.line_course t c under.positive)).symm.trans e.facing

theorem elsewhere (under : Under t c k i j u) : (g.compass t c k).goal ≠ some u := by
  intro arrived
  obtain ⟨d, facing, least⟩ := under.exists_earliest
  have there := under.displaced.along_eq facing (Extent.tileAt?_ahead.mp arrived)
  rw [Direction.along_self] at there
  have before := under.before
  omega

theorem mem_exits (under : Under t c k i j u) {e : Exit ℚ (g.compass t c k).course} :
    e ∈ (g.compass t c k).exits u ↔
      e.edge.along i j = min i j ∧ e.point = t.ahead c ((min i j : ℕ) + 1 / 2) :=
  Segment.mem_exits_line under.positive under.displaced under.moving under.shape under.before
    under.short

theorem exists_exit (under : Under t c k i j u) (facing : c.faces d = true)
    (least : d.along i j = min i j) : ∃ e ∈ (g.compass t c k).exits u, e.edge = d := by
  have facing : (g.compass t c k).course.faces d = true :=
    (congrArg (Course.faces · d) (Segment.line_course t c under.positive)).trans facing
  exact ⟨⟨d, facing, t.ahead c ((min i j : ℕ) + 1 / 2)⟩, under.mem_exits.mpr ⟨least, rfl⟩, rfl⟩

theorem exits_ne_nil (under : Under t c k i j u) : (g.compass t c k).exits u ≠ [] := by
  obtain ⟨d, facing, least⟩ := under.exists_earliest
  obtain ⟨e, among, -⟩ := under.exists_exit facing least
  exact List.ne_nil_of_mem among

/-- A walled exit stops the move at the corner or in the middle of the edge. -/
theorem find_walled (under : Under t c k i j u) (facing : c.faces d = true)
    (least : d.along i j = min i j) (walled : (g.walls u).has d = true) :
    ∃ hit, (g.compass t c k).find u = some hit ∧ hit.tile = u ∧
      hit.point = t.ahead c ((min i j : ℕ) + 1 / 2) := by
  obtain ⟨e, among, rfl⟩ := under.exists_exit facing least
  cases blocked : (g.compass t c k).blocked u ((g.compass t c k).exits u) with
  | none =>
    cases walled.symm.trans (WallSearch.blocked_eq_none.mp blocked e among)
  | some hit =>
    refine ⟨hit, WallSearch.find_blocked under.elsewhere blocked, ?_⟩
    simp only [WallSearch.blocked, Option.map_eq_some_iff] at blocked
    obtain ⟨first, found, rfl⟩ := blocked
    exact ⟨rfl, (under.mem_exits.mp (List.mem_of_find?_eq_some found)).2⟩

/-- Beside a corner the search goes on to the tile behind the corner. -/
theorem find_beside (under : Under t c k i j w) (corner : max i j = min i j + 1)
    (last : t.Displaced c (max i j) (max i j) v) (agrees : g.Agrees)
    (clear : ∀ d, c.faces d = true → (g.walls v).has d.opposite = false) :
    (g.compass t c k).find w = (g.compass t c k).find v := by
  have behind : ∀ e ∈ (g.compass t c k).exits w,
      g.extent.neighbour? w.x w.y e.edge = some v := by
    intro e among
    obtain ⟨column, row⟩ := Direction.along_corner corner (under.mem_exits.mp among).1
    refine under.displaced.neighbour (under.facing e) ?_
    rwa [column, row]
  refine WallSearch.find_eq_of_onward under.elsewhere ?_ under.exits_ne_nil ?_
  · intro e among
    exact (agrees.walls_opposite (behind e among)).trans (clear e.edge (under.facing e))
  · intro e among
    exact WallSearch.through_tile (behind e among) _

/-- The tile behind an exit that is no wall. -/
theorem exists_next (under : Under t c k i j u) {e : Exit ℚ (g.compass t c k).course}
    (clear : (g.walls u).has e.edge = false) :
    ∃ next, (g.compass t c k).course.ahead next < (g.compass t c k).course.ahead u ∧
      t.Displaced c (i + e.edge.along 1 0) (j + e.edge.along 0 1) next ∧
      (g.compass t c k).onward u e = (g.compass t c k).find next := by
  obtain ⟨next, step, onward⟩ := WallSearch.onward_open (s := g.compass t c k) clear
  exact ⟨next, Course.ahead_lt e.facing step, under.displaced.next (under.facing e) step, onward⟩

/-- Off the diagonals the tile behind an exit is the next one of the line. -/
theorem straight_next (under : Under t c k n n u) (diagonal : c.diagonal = false)
    {e : Exit ℚ (g.compass t c k).course}
    (next : t.Displaced c (n + e.edge.along 1 0) (n + e.edge.along 0 1) v) :
    t.Displaced c (n + 1) (n + 1) v := by
  have straight := next.straight (under.facing e) diagonal
  have steps : e.edge.along (n + e.edge.along 1 0) (n + e.edge.along 0 1) = n + 1 := by
    cases e.edge <;> rfl
  rwa [steps] at straight

/-- An open step leads on to the next tile of the line. -/
theorem find_passed (under : Under t c k n n u) (agrees : g.Agrees) (opened : ¬g.Closed c u) :
    ∃ v, t.Displaced c (n + 1) (n + 1) v ∧ (g.compass t c k).find u = (g.compass t c k).find v := by
  have clear : ∀ d, c.faces d = true → (g.walls u).has d = false := by
    intro d facing
    by_contra walled
    exact opened ⟨d, facing, .inl (by simpa using walled)⟩
  have unblocked : (g.compass t c k).Open u := fun e _ => clear e.edge (under.facing e)
  cases diagonal : c.diagonal with
  | false =>
    -- The only edge ahead leads to the next tile of the line.
    have behind : ∀ e : Exit ℚ (g.compass t c k).course, ∃ v, t.Displaced c (n + 1) (n + 1) v ∧
        (g.compass t c k).onward u e = (g.compass t c k).find v := by
      intro e
      obtain ⟨v, -, displaced, onward⟩ := under.exists_next (clear e.edge (under.facing e))
      exact ⟨v, under.straight_next diagonal displaced, onward⟩
    obtain ⟨e, rest, exits⟩ := List.exists_cons_of_ne_nil under.exits_ne_nil
    obtain ⟨v, displaced, -⟩ := behind e
    refine ⟨v, displaced, WallSearch.find_eq_of_onward under.elsewhere unblocked under.exits_ne_nil ?_⟩
    intro e' _
    obtain ⟨v', displaced', onward⟩ := behind e'
    rw [onward, displaced.unique displaced']
  | true =>
    obtain ⟨⟨d, facing, horizontal⟩, d', facing', vertical⟩ := Course.diagonal_faces diagonal
    obtain ⟨w, step⟩ := exists_behind (clear d facing)
    obtain ⟨w', step'⟩ := exists_behind (clear d' facing')
    have column := (under.displaced.next facing step).column
    have row := (under.displaced.next facing' step').row
    rw [horizontal] at column
    rw [vertical] at row
    have displaced : t.Displaced c (n + 1) (n + 1) (⟨w.x, w'.y⟩ : g.Tile) := ⟨column, row⟩
    have corner : ∀ d, c.faces d = true → (g.walls ⟨w.x, w'.y⟩).has d.opposite = false := by
      intro d facing
      by_contra walled
      have next := Extent.along?_eq_some_iff.mpr (under.displaced.between displaced)
      exact opened ⟨d, facing, .inr ⟨diagonal, _, next, by simpa using walled⟩⟩
    refine ⟨_, displaced, WallSearch.find_eq_of_onward under.elsewhere unblocked under.exits_ne_nil ?_⟩
    intro e _
    obtain ⟨next, -, aside, onward⟩ := under.exists_next (clear e.edge (under.facing e))
    have steps : max (n + e.edge.along 1 0) (n + e.edge.along 0 1) = n + 1 ∧
        min (n + e.edge.along 1 0) (n + e.edge.along 0 1) = n := by
      cases e.edge <;> simp [Direction.along]
    have before : n < k := by simpa using under.before
    have besides : Under t c k (n + e.edge.along 1 0) (n + e.edge.along 0 1) next :=
      ⟨under.moving, under.short, aside, .inr diagonal, by omega⟩
    rw [onward]
    exact besides.find_beside (by omega) (by rwa [steps.1]) agrees corner

end Under

/-- A tile that the line comes to with its step `n`, or one beside the corner that it passes next. -/
def Beside (t : g.Tile) (c : Course) (k n : ℕ) (u : g.Tile) : Prop :=
  ∃ i j, t.Displaced c i j u ∧ min i j = n ∧ n ≤ k ∧
    (i = j ∨ c.diagonal = true ∧ max i j = n + 1 ∧ n < k)

theorem Beside.under (beside : Beside t c k n u) (moving : c ≠ ⟨none, none⟩)
    (short : k < UInt32.size) (elsewhere : (g.compass t c k).goal ≠ some u) :
    ∃ i j, Under t c k i j u ∧ min i j = n ∧ (i = j ∨ c.diagonal = true ∧ max i j = n + 1) := by
  obtain ⟨i, j, displaced, least, within, shape⟩ := beside
  refine ⟨i, j, ⟨moving, short, displaced, shape.imp_right And.left, ?_⟩, least,
    shape.imp_right fun corner => ⟨corner.1, corner.2.1⟩⟩
  rcases shape with rfl | ⟨-, -, before⟩
  · rw [min_self] at least ⊢
    refine lt_of_le_of_ne (least.trans_le within) ?_
    rintro rfl
    exact elsewhere (Extent.tileAt?_ahead.mpr displaced)
  · omega

/-- What the search finds from a tile of the line lies on this or a later step. -/
theorem Beside.find_hit (beside : Beside t c k n u) (moving : c ≠ ⟨none, none⟩)
    (short : k < UInt32.size) (found : (g.compass t c k).find u = some hit) :
    ∃ m, n ≤ m ∧ m < k ∧ Beside t c k m hit.tile ∧ hit.point = t.ahead c (m + 1 / 2) := by
  generalize ahead : (g.compass t c k).course.ahead u = fewer
  induction fewer using Nat.strongRecOn generalizing u n with
  | _ fewer ih =>
    obtain ⟨elsewhere, cases⟩ := WallSearch.find_eq_some found
    obtain ⟨i, j, under, rfl, shape⟩ := beside.under moving short elsewhere
    rcases cases with ⟨e, among, -, rfl⟩ | ⟨e, among, clear, further⟩
    · exact ⟨_, le_rfl, under.before, beside, (under.mem_exits.mp among).2⟩
    · obtain ⟨next, less, displaced, onward⟩ := under.exists_next clear
      have least := (under.mem_exits.mp among).1
      have before := under.before
      have later : ∃ m, min i j ≤ m ∧ Beside t c k m next := by
        cases diagonal : c.diagonal with
        | false =>
          obtain rfl : i = j := by simpa [diagonal] using shape
          have straight := under.straight_next diagonal displaced
          exact ⟨i + 1, by omega, i + 1, i + 1, straight, min_self _, by omega, .inl rfl⟩
        | true =>
          rcases shape with rfl | ⟨-, corner⟩
          · refine ⟨i, by omega, _, _, displaced, ?_, by omega, .inr ⟨diagonal, ?_, by omega⟩⟩
            · cases e.edge <;> simp [Direction.along]
            · cases e.edge <;> simp [Direction.along]
          · obtain ⟨column, row⟩ := Direction.along_corner corner least
            rw [column, row] at displaced
            exact ⟨_, by omega, _, _, displaced, min_self _, by omega, .inl rfl⟩
      obtain ⟨m, le, beside⟩ := later
      obtain ⟨m', le', hit⟩ := ih _ (ahead ▸ less) beside (onward.symm.trans further) rfl
      exact ⟨m', le.trans le', hit⟩

/-- Farther crossings of the line are farther from its start. -/
theorem le_of_reach (moving : c ≠ ⟨none, none⟩) {first second : Hit ℚ g.extent} {m : ℕ}
    (one : first.point = t.ahead c (m + 1 / 2)) (two : second.point = t.ahead c (n + 1 / 2))
    (le : (g.compass t c k).reach first ≤ (g.compass t c k).reach second) : m ≤ n := by
  have size : (0 : ℚ) < Sense.step c.horizontal ^ 2 + Sense.step c.vertical ^ 2 := by
    obtain ⟨_ | (_ | _), _ | (_ | _)⟩ := c <;> first | exact absurd rfl moving | norm_num [Sense.step]
  have reach : ∀ (hit : Hit ℚ g.extent) (n : ℕ), hit.point = t.ahead c (n + 1 / 2) →
      (g.compass t c k).reach hit =
        (n + 1 / 2) ^ 2 * (Sense.step c.horizontal ^ 2 + Sense.step c.vertical ^ 2) := by
    intro hit n point
    have origin : (g.compass t c k).origin = t.ahead c 0 := Segment.center_eq t c
    change hit.point.squaredDistance (g.compass t c k).origin = _
    rw [point, origin]
    simp only [Point.squaredDistance, Extent.Tile.ahead]
    ring
  rw [reach first m one, reach second n two] at le
  have squares := le_of_mul_le_mul_right le size
  have roots := (sq_le_sq₀ (by positivity) (by positivity)).mp squares
  have steps : (m : ℚ) ≤ n := by linarith
  exact_mod_cast steps

/-- A closed step stops the move where the line leaves the tile. -/
theorem Under.find_stopped (under : Under t c k n n u) (agrees : g.Agrees) (closed : g.Closed c u) :
    ∃ hit, (g.compass t c k).find u = some hit ∧ Beside t c k n hit.tile ∧
      hit.point = t.ahead c (n + 1 / 2) := by
  have before : n < k := by simpa using under.before
  have beside : Beside t c k n u :=
    ⟨n, n, under.displaced, min_self n, before.le, .inl rfl⟩
  have both : ∀ d : Direction, d.along n n = min n n := by simp
  by_cases own : ∃ d, c.faces d = true ∧ (g.walls u).has d = true
  · obtain ⟨d, facing, walled⟩ := own
    obtain ⟨hit, found, rfl, point⟩ := under.find_walled facing (both d) walled
    exact ⟨hit, found, beside, by rwa [min_self] at point⟩
  · have clear : ∀ d, c.faces d = true → (g.walls u).has d = false := by
      intro d facing
      by_contra walled
      exact own ⟨d, facing, by simpa using walled⟩
    obtain ⟨d, facing, walled | ⟨diagonal, v, next, walled⟩⟩ := closed
    · exact absurd ⟨d, facing, walled⟩ own
    · -- The walled edge behind the corner is an exit of the tile to which the other edge ahead leads.
      obtain ⟨d', facing', column, row⟩ := Course.faces_across diagonal d
      obtain ⟨e, among, rfl⟩ := under.exists_exit facing' (both d')
      obtain ⟨w, -, aside, onward⟩ := under.exists_next (clear e.edge facing')
      rw [column, row] at aside
      have steps : min (n + d.along 0 1) (n + d.along 1 0) = n ∧
          d.along (n + d.along 0 1) (n + d.along 1 0) = n ∧
          n + d.along 0 1 + d.along 1 0 = n + 1 ∧ n + d.along 1 0 + d.along 0 1 = n + 1 := by
        cases d <;> simp [Direction.along]
      have besides : Under t c k (n + d.along 0 1) (n + d.along 1 0) w :=
        ⟨under.moving, under.short, aside, .inr diagonal, by omega⟩
      have behind : g.extent.neighbour? w.x w.y d = some v := by
        have last := under.displaced.trans (Extent.along?_eq_some_iff.mp next)
        exact aside.neighbour facing (by rwa [steps.2.2.1, steps.2.2.2])
      obtain ⟨other, found, -, point⟩ := besides.find_walled facing (by omega)
        ((agrees.walls_opposite behind).trans walled)
      rw [steps.1] at point
      have further : (g.compass t c k).onward u e = some other := onward.trans found
      have unblocked : (g.compass t c k).Open u := fun e _ => clear e.edge (under.facing e)
      cases ends : (g.compass t c k).find u with
      | none =>
        have nothing := ((WallSearch.find_eq_none under.elsewhere).mp ends).2 e among
        cases further.symm.trans nothing
      | some hit =>
        obtain ⟨m, later, -, there, crossing⟩ := beside.find_hit under.moving under.short ends
        rw [WallSearch.find_open under.elsewhere unblocked] at ends
        have nearest := WallSearch.nearest_reach ends (.inr ⟨e, among, further⟩)
        obtain rfl := le_antisymm later (le_of_reach under.moving crossing point nearest)
        exact ⟨hit, rfl, there, crossing⟩

/-- Step `n` of the line from a tile leads to a tile of the grid, and the step after it is closed. -/
def ClosedAt (g : Grid) (t : g.Tile) (c : Course) (n : ℕ) : Prop :=
  ∃ u, g.extent.along? t c n = some u ∧ g.Closed c u

section
variable (agrees : g.Agrees) (moving : c ≠ ⟨none, none⟩) (short : k < UInt32.size)
include agrees moving short

/-- As long as the steps are open the search goes on along the line. -/
theorem find_line (le : n ≤ k) (opened : ∀ i < n, ¬g.ClosedAt t c i) :
    ∃ u, t.Displaced c n n u ∧ (g.compass t c k).find t = (g.compass t c k).find u := by
  induction n with
  | zero => exact ⟨t, .start, rfl⟩
  | succ n ih =>
    obtain ⟨u, displaced, same⟩ := ih (by omega) fun i less => opened i (by omega)
    have under : Under t c k n n u := ⟨moving, short, displaced, .inl rfl, by omega⟩
    obtain ⟨v, displaced', same'⟩ := under.find_passed agrees fun closed =>
      opened n (by omega) ⟨u, Extent.along?_eq_some_iff.mpr displaced, closed⟩
    exact ⟨v, displaced', same.trans same'⟩

theorem find_compass_free (opened : ∀ i < k, ¬g.ClosedAt t c i) :
    (g.compass t c k).find t = none := by
  obtain ⟨u, displaced, same⟩ := find_line agrees moving short le_rfl opened
  exact same.trans (WallSearch.find_arrived (Extent.tileAt?_ahead.mpr displaced))

theorem find_compass_stopped (before : n < k) (closed : g.ClosedAt t c n)
    (opened : ∀ i < n, ¬g.ClosedAt t c i) :
    ∃ hit, (g.compass t c k).find t = some hit ∧ Beside t c k n hit.tile ∧
      hit.point = t.ahead c (n + 1 / 2) := by
  obtain ⟨u, displaced, same⟩ := find_line agrees moving short before.le opened
  obtain ⟨u', along, closed⟩ := closed
  obtain rfl := displaced.unique (Extent.along?_eq_some_iff.mp along)
  have under : Under t c k n n u := ⟨moving, short, displaced, .inl rfl, by omega⟩
  rw [same]
  exact under.find_stopped agrees closed

end

theorem inside_low (n : ℕ) : inside (Scalar.ofNat n) (n : ℚ) = Exact.nextUp n := if_pos le_rfl

theorem inside_high (n : ℕ) :
    inside (Scalar.ofNat n) ((n : ℚ) + 1) = Scalar.nextDown ((n : ℚ) + 1) := by
  simp only [inside, Exact.ofNat_eq, Exact.one_eq]
  rw [if_neg (by linarith), if_pos le_rfl]

section
variable {limit : ℕ} {size : ℚ} (steps : Exact.Steps limit size) (fine : size < 1)
include steps fine

/-- A number on the rim of a unit interval or in its middle is moved inside by a step at most. -/
theorem inside_near {v : ℚ} {n : ℕ} (below : n < limit) (place : v = n ∨ v = n + 1 / 2 ∨ v = n + 1) :
    n < inside (Scalar.ofNat n) v ∧ inside (Scalar.ofNat n) v < n + 1 ∧
      Exact.NextTo v (inside (Scalar.ofNat n) v) ∧ |inside (Scalar.ofNat n) v - v| ≤ size := by
  have up := steps.up n (by omega) (by omega)
  have small := steps.small n (by omega) (by omega)
  have down := steps.down (n + 1) (by omega) (by omega)
  push_cast at up small down
  have positive : 0 < size := by linarith
  rcases place with rfl | rfl | rfl
  · rw [inside_low, abs_of_pos (by linarith)]
    exact ⟨up, by linarith, .inr (.inl rfl), by linarith⟩
  · have middle : inside (Scalar.ofNat n) ((n : ℚ) + 1 / 2) = n + 1 / 2 := by
      simp only [inside, Exact.ofNat_eq, Exact.one_eq]
      rw [if_neg (by linarith), if_neg (by linarith)]
    rw [middle, sub_self, abs_zero]
    exact ⟨by linarith, by linarith, .inl rfl, positive.le⟩
  · rw [inside_high, abs_of_neg (by linarith [down.1])]
    exact ⟨by linarith [down.2], down.1, .inr (.inr rfl), by linarith [down.2]⟩

end

omit [Exact] in
/-- Where the line leaves a tile on it or beside it, it is on the rim of the tile. -/
theorem Beside.crossing (beside : Beside t c k n u) :
    ((t.ahead c (n + 1 / 2)).x = u.x ∨ (t.ahead c (n + 1 / 2)).x = u.x + 1 / 2 ∨
        (t.ahead c (n + 1 / 2)).x = u.x + 1) ∧
      ((t.ahead c (n + 1 / 2)).y = u.y ∨ (t.ahead c (n + 1 / 2)).y = u.y + 1 / 2 ∨
        (t.ahead c (n + 1 / 2)).y = u.y + 1) := by
  obtain ⟨i, j, ⟨column, row⟩, least, -, shape⟩ := beside
  have axis : ∀ (way : Option Sense) (first place m : ℕ), (place : ℤ) = first + m * Sense.step way →
      m = n ∨ m = n + 1 →
      (first + 1 / 2 + (n + 1 / 2) * Sense.step way : ℚ) = place ∨
        (first + 1 / 2 + (n + 1 / 2) * Sense.step way : ℚ) = place + 1 / 2 ∨
        (first + 1 / 2 + (n + 1 / 2) * Sense.step way : ℚ) = place + 1 := by
    intro way first place m column near
    have place : (place : ℚ) = first + m * Sense.step way := by exact_mod_cast column
    rw [place]
    obtain _ | _ | _ := way <;> rcases near with rfl | rfl <;> simp only [Sense.step] <;>
      push_cast
    · exact .inr (.inl (by ring))
    · exact .inr (.inl (by ring))
    · exact .inr (.inr (by ring))
    · exact .inl (by ring)
    · exact .inl (by ring)
    · exact .inr (.inr (by ring))
  exact ⟨axis _ _ _ i column (by omega), axis _ _ _ j row (by omega)⟩

/-- What is moved inside a tile from its rim stays near and inside the grid. -/
theorem Beside.insideTile (beside : Beside t c k n u) {limit : ℕ} {size : ℚ}
    (steps : Exact.Steps limit size) (fine : size < 1) (wide : g.extent.width ≤ limit)
    (tall : g.extent.height ≤ limit) :
    let crossing : Point ℚ := t.ahead c (n + 1 / 2)
    let p := Grid.insideTile u crossing
    Exact.NextTo crossing.x p.x ∧ Exact.NextTo crossing.y p.y ∧ g.extent.contains p = true ∧
      p.squaredDistance crossing ≤ 2 * size ^ 2 := by
  intro crossing p
  obtain ⟨x, y⟩ := beside.crossing
  have columns := u.x.isLt
  have rows := u.y.isLt
  obtain ⟨west, east, nextX, near⟩ := inside_near steps fine (by omega) x
  obtain ⟨north, south, nextY, near'⟩ := inside_near steps fine (by omega) y
  have column : ((u.x : ℕ) : ℚ) + 1 ≤ g.extent.width := by exact_mod_cast columns
  have row : ((u.y : ℕ) : ℚ) + 1 ≤ g.extent.height := by exact_mod_cast rows
  refine ⟨nextX, nextY, ?_, ?_⟩
  · have zeroX : (0 : ℚ) ≤ (u.x : ℕ) := Nat.cast_nonneg _
    have zeroY : (0 : ℚ) ≤ (u.y : ℕ) := Nat.cast_nonneg _
    simp only [p, Grid.insideTile, Extent.contains, Exact.zero_eq, Bool.and_eq_true]
    exact ⟨⟨⟨decide_eq_true (zeroX.trans west.le), decide_eq_true (zeroY.trans north.le)⟩,
      decide_eq_true (east.trans_le column)⟩, decide_eq_true (south.trans_le row)⟩
  · have squareX := sq_le_sq' (by linarith [(abs_le.mp near).1]) (abs_le.mp near).2
    have squareY := sq_le_sq' (by linarith [(abs_le.mp near').1]) (abs_le.mp near').2
    simp only [p, Grid.insideTile, Point.squaredDistance]
    linarith

/-- A move along a compass line is what the search along it answers. -/
theorem route_compass (moving : c ≠ ⟨none, none⟩) (positive : 0 < k)
    {found : (g.compass t c k).Found} (search : (g.compass t c k).find t = found) :
    g.route (t.center : Point ℚ) (t.ahead c k) =
      found.elim (.free (t.ahead c k)) fun hit =>
        ⟨Grid.insideTile hit.tile hit.point, some hit.edge⟩ := by
  have first : (t.center : Point ℚ) = t.ahead c (0 : ℕ) := by
    rw [Segment.center_eq t c, Nat.cast_zero]
  have start : g.extent.tileAt? (t.center : Point ℚ) = some t := by
    rw [first]
    exact Extent.tileAt?_ahead.mpr .start
  have apart : (t.center : Point ℚ).agrees (t.ahead c k) = false := by
    by_contra same
    simp only [Point.agrees, Bool.not_eq_false, Bool.and_eq_true, beq_iff_eq] at same
    have there : t.center = t.ahead c k := by
      obtain ⟨x, y⟩ := same
      rw [first] at x y ⊢
      exact congrArg₂ Point.mk x y
    obtain ⟨d, facing⟩ := Course.exists_facing moving
    have steps := (Extent.tileAt?_ahead.mp (there ▸ start)).along_eq facing .start
    cases d <;> simp only [Direction.along] at steps <;> omega
  have plain : (g.searchAlong ⟨t.center, t.ahead c k⟩).find t = found := search
  rw [route_eq start apart rfl, plain]
  cases found <;> rfl

/-- A move along a compass line ends where the first closed step stops it. -/
theorem route_stopped (agrees : g.Agrees) (moving : c ≠ ⟨none, none⟩) (short : k < UInt32.size)
    (before : n < k) (closed : g.ClosedAt t c n) (opened : ∀ i < n, ¬g.ClosedAt t c i) :
    ∃ u d, Beside t c k n u ∧ g.route (t.center : Point ℚ) (t.ahead c k) =
      ⟨Grid.insideTile u (t.ahead c (n + 1 / 2)), some d⟩ := by
  obtain ⟨hit, found, beside, point⟩ :=
    find_compass_stopped agrees moving short before closed opened
  refine ⟨hit.tile, hit.edge, beside, ?_⟩
  rw [route_compass moving (by omega) found, ← point]
  rfl

omit [Exact] in
/-- A move along a compass line is stopped exactly if one of its steps is closed. It is stopped by the
first of them, on each axis where the line leaves the tile or at the number next to this, and inside the
grid; in grids of up to `2 ^ 22` columns and rows that is near. Otherwise it ends at its destination.
Coordinates and crossings are computed exactly, and the number next to another one is the binary64 one. -/
theorem compass_exact (built : g.Built) (t : g.Tile) (moving : c ≠ ⟨none, none⟩) (positive : 1 ≤ k)
    (within : k ≤ max g.extent.width g.extent.height) :
    letI := Exact.binary64
    let way := g.route (t.center : Point ℚ) (t.ahead c k)
    (way.collided = true ↔ ∃ i < k, g.ClosedAt t c i) ∧
      (∀ i < k, g.ClosedAt t c i → (∀ j < i, ¬g.ClosedAt t c j) →
        let crossing : Point ℚ := t.ahead c (i + 1 / 2)
        Exact.NextTo crossing.x way.point.x ∧ Exact.NextTo crossing.y way.point.y ∧
          g.extent.contains way.point = true ∧
          (g.extent.width ≤ 2 ^ 22 → g.extent.height ≤ 2 ^ 22 →
            way.point.squaredDistance crossing < (1 / 10 ^ 9) ^ 2)) ∧
      (way.collided = false → way = .free (t.ahead c k)) := by
  classical
  let := Exact.binary64
  intro way
  have agrees := built.agrees
  have wide := g.extent.width_lt
  have tall := g.extent.height_lt
  have short : k < UInt32.size := within.trans_lt (max_lt wide tall)
  have stopped : ∀ i < k, g.ClosedAt t c i → (∀ j < i, ¬g.ClosedAt t c j) →
      ∃ u d, Beside t c k i u ∧ way = ⟨Grid.insideTile u (t.ahead c (i + 1 / 2)), some d⟩ :=
    fun i before closed opened => route_stopped agrees moving short before closed opened
  have free : (∀ i < k, ¬g.ClosedAt t c i) → way = .free (t.ahead c k) := fun opened =>
    route_compass moving positive (find_compass_free agrees moving short opened)
  have collides : (∃ i < k, g.ClosedAt t c i) → way.collided = true := by
    intro some
    obtain ⟨before, closed⟩ := Nat.find_spec some
    obtain ⟨u, d, -, ends⟩ := stopped _ before closed fun j less closed =>
      Nat.find_min some less ⟨less.trans before, closed⟩
    rw [ends]
    rfl
  refine ⟨⟨?_, collides⟩, fun i before closed opened => ?_, ?_⟩
  · intro collided
    by_contra nowhere
    rw [free fun i before closed => nowhere ⟨i, before, closed⟩] at collided
    cases collided
  · obtain ⟨u, d, beside, ends⟩ := stopped i before closed opened
    obtain ⟨nextX, nextY, inside, -⟩ := beside.insideTile (Exact.binary64_steps (e := 32) (by decide))
      (by norm_num) wide.le tall.le
    rw [ends]
    refine ⟨nextX, nextY, inside, fun narrow low => ?_⟩
    obtain ⟨-, -, -, near⟩ := beside.insideTile (Exact.binary64_steps (e := 22) (by decide))
      (by norm_num) narrow low
    exact near.trans_lt (by norm_num)
  · intro uncollided
    apply free
    intro i before closed
    cases uncollided.symm.trans (collides ⟨i, before, closed⟩)

omit [Exact] in
/-- A wall behind the corner that a diagonal move passes closes the step. -/
theorem compass_exact_corner :
    letI := Exact.binary64
    ∃ g : Grid, ∃ t : g.Tile, let c : Course := ⟨some .rising, some .rising⟩
      g.Built ∧ c ≠ ⟨none, none⟩ ∧ 1 ≤ max g.extent.width g.extent.height ∧ g.ClosedAt t c 0 ∧
        (g.route (t.center : Point ℚ) (t.ahead c 1)).collided = true ∧
        g.extent.contains (g.route (t.center : Point ℚ) (t.ahead c 1)).point = true ∧
        (g.route (t.center : Point ℚ) (t.ahead c 1)).point.squaredDistance ⟨1, 1⟩ <
          (1 / 10 ^ 9) ^ 2 := by
  let := Exact.binary64
  let g := (Grid.empty ⟨2, 2, by decide, by decide, by decide, by decide⟩).setEdge
    ⟨⟨1, by decide⟩, ⟨1, by decide⟩⟩ .north true
  let t : g.Tile := ⟨⟨0, by decide⟩, ⟨0, by decide⟩⟩
  let c : Course := ⟨some .rising, some .rising⟩
  have built : g.Built := (Grid.Built.empty _).setEdge _ _ _
  have moving : c ≠ ⟨none, none⟩ := by decide
  have within : 1 ≤ max g.extent.width g.extent.height := by decide
  have walled : (g.walls ⟨⟨1, by decide⟩, ⟨1, by decide⟩⟩).has .north = true := by decide
  have closed : g.ClosedAt t c 0 := ⟨t, Extent.along?_eq_some_iff.mpr .start, .south, rfl,
    .inr ⟨rfl, ⟨⟨1, by decide⟩, ⟨1, by decide⟩⟩, by decide, walled⟩⟩
  have corner : t.ahead c ((0 : ℕ) + 1 / 2) = ⟨1, 1⟩ := by
    simp only [Extent.Tile.ahead, t, c, Sense.step, Point.mk.injEq]
    norm_num
  obtain ⟨collides, stopped, -⟩ := compass_exact built t moving le_rfl within
  obtain ⟨-, -, inside, near⟩ := stopped 0 Nat.one_pos closed (by simp)
  rw [corner] at near
  exact ⟨g, t, built, moving, within, closed, collides.mpr ⟨0, Nat.one_pos, closed⟩, inside,
    near (by decide) (by decide)⟩

omit [Exact] in
/-- In a wide grid the numbers lie farther apart, and a move may end farther from the wall. -/
theorem compass_exact_wide :
    letI := Exact.binary64
    ∃ g : Grid, ∃ t : g.Tile, let c : Course := ⟨some .rising, none⟩
      g.Built ∧ g.extent.width = 9000000 ∧ g.extent.height = 1 ∧ t.x.val = 8388608 ∧
        c ≠ ⟨none, none⟩ ∧ 1 ≤ max g.extent.width g.extent.height ∧ g.ClosedAt t c 0 ∧
        (∀ j < 0, ¬g.ClosedAt t c j) ∧
        (1 / 10 ^ 9) ^ 2 < (g.route (t.center : Point ℚ) (t.ahead c 1)).point.squaredDistance
          (t.ahead c ((0 : ℕ) + 1 / 2)) := by
  let := Exact.binary64
  let e : Extent := ⟨9000000, 1, by decide, by decide, by decide, by decide⟩
  let g := (Grid.empty e).setEdge ⟨⟨8388608, by decide⟩, ⟨0, by decide⟩⟩ .east true
  let t : g.Tile := ⟨⟨8388608, by decide⟩, ⟨0, by decide⟩⟩
  let c : Course := ⟨some .rising, none⟩
  have built : g.Built := (Grid.Built.empty e).setEdge _ _ _
  have moving : c ≠ ⟨none, none⟩ := by decide
  have walled : (g.walls t).has .east = true := by decide
  have closed : g.ClosedAt t c 0 := ⟨t, Extent.along?_eq_some_iff.mpr .start, .east, rfl, .inl walled⟩
  have opened : ∀ j < 0, ¬g.ClosedAt t c j := by simp
  obtain ⟨u, d, beside, ends⟩ :=
    route_stopped built.agrees moving (k := 1) (by decide) Nat.one_pos closed opened
  obtain rfl : u = t := by
    obtain ⟨i, j, displaced, least, -, rfl | ⟨diagonal, -⟩⟩ := beside
    · obtain rfl : i = 0 := by simpa using least
      exact displaced.unique .start
    · cases diagonal
  have crossing : (t.ahead c ((0 : ℕ) + 1 / 2)).x = ((8388608 : ℕ) : ℚ) + 1 := by
    simp only [Extent.Tile.ahead, t, c, Sense.step]
    norm_num
  have step : inside (Scalar.ofNat 8388608) (((8388608 : ℕ) : ℚ) + 1) = 8388609 - 1 / 2 ^ 29 := by
    rw [inside_high, ← Exact.binary64_nextDown_wide]
    norm_num
  have place : (Grid.insideTile t (t.ahead c ((0 : ℕ) + 1 / 2))).x = 8388609 - 1 / 2 ^ 29 := by
    rw [← step, ← crossing]
    rfl
  refine ⟨g, t, built, rfl, rfl, rfl, moving, by decide, closed, opened, ?_⟩
  have far : (1 / 10 ^ 9 : ℚ) ^ 2 < (8388609 - 1 / 2 ^ 29 - (((8388608 : ℕ) : ℚ) + 1)) ^ 2 := by
    norm_num
  have height := sq_nonneg ((Grid.insideTile t (t.ahead c ((0 : ℕ) + 1 / 2))).y -
    (t.ahead c ((0 : ℕ) + 1 / 2)).y)
  rw [← place, ← crossing] at far
  rw [Nat.cast_one] at ends
  change _ < (g.route (t.center : Point ℚ) (t.ahead c 1)).point.squaredDistance
    (t.ahead c ((0 : ℕ) + 1 / 2))
  rw [ends]
  simp only [Point.squaredDistance]
  linarith

end Grid
end Vivarium
