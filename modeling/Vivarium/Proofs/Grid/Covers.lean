import Vivarium.Proofs.Scalar.Rounded

/-! Which tile a point lies in, said with the numbers that its coordinates stand for. -/
namespace Vivarium.Extent
open Scalar Rounded
variable {F : Type} [Scalar F] {e : Extent}

/-- The point lies strictly inside the tile, on none of its edges. -/
structure Tile.Encloses (t : e.Tile) (p : Point F) : Prop where
  west : ofNat t.x < p.x
  east : p.x < ofNat t.x + one
  north : ofNat t.y < p.y
  south : p.y < ofNat t.y + one

variable [Rounded F]

/-- The point lies in the half-open unit square of the tile. -/
structure Tile.Covers (t : e.Tile) (p : Point F) : Prop where
  number_x : IsNumber p.x
  number_y : IsNumber p.y
  west : (t.x : ℚ) ≤ level p.x
  east : level p.x < t.x + 1
  north : (t.y : ℚ) ≤ level p.y
  south : level p.y < t.y + 1

theorem contains_iff {p : Point F} : e.contains p = true ↔
    IsNumber p.x ∧ IsNumber p.y ∧ 0 ≤ level p.x ∧ 0 ≤ level p.y ∧
      level p.x < e.width ∧ level p.y < e.height := by
  obtain ⟨widthNumber, width⟩ := ofNat_spec (F := F) e.width_lt
  obtain ⟨heightNumber, height⟩ := ofNat_spec (F := F) e.height_lt
  simp only [contains, Bool.and_eq_true, decide_eq_true_eq, le_iff, lt_iff, level_zero, width,
    height, number_zero, widthNumber, heightNumber, true_and]
  tauto

theorem isFinite_of_contains {p : Point F} (inside : e.contains p = true) : p.isFinite = true := by
  obtain ⟨nx, ny, lowX, lowY, highX, highY⟩ := contains_iff.mp inside
  have width : (e.width : ℚ) < UInt32.size := by exact_mod_cast e.width_lt
  have height : (e.height : ℚ) < UInt32.size := by exact_mod_cast e.height_lt
  rw [Point.isFinite, number_finite nx lowX (highX.trans width),
    number_finite ny lowY (highY.trans height)]
  rfl

theorem clip_eq {n : Nat} {pos : 0 < n} {v : F} (number : IsNumber v) (low : 0 ≤ level v)
    (high : level v < n) (small : n < UInt32.size) :
    (tileAt?.clip n pos v).val = ⌊level v⌋₊ := by
  have wide : level v < UInt32.size := high.trans (by exact_mod_cast small)
  have below : ⌊level v⌋₊ < n := (Nat.floor_lt low).mpr high
  simp only [tileAt?.clip, wholePart_eq number low wide]
  omega

theorem tileAt?_eq_some_iff {p : Point F} {t : e.Tile} : e.tileAt? p = some t ↔ t.Covers p := by
  constructor
  · intro found
    rw [tileAt?] at found
    split at found
    · rename_i inside
      obtain ⟨numberX, numberY, lowX, lowY, highX, highY⟩ := contains_iff.mp inside
      obtain rfl := Option.some.inj found
      refine ⟨numberX, numberY, ?_, ?_, ?_, ?_⟩
      all_goals simp only [clip_eq numberX lowX highX e.width_lt, clip_eq numberY lowY highY e.height_lt]
      · exact Nat.floor_le lowX
      · exact Nat.lt_floor_add_one _
      · exact Nat.floor_le lowY
      · exact Nat.lt_floor_add_one _
    · cases found
  · intro covers
    have columns : (t.x : ℚ) + 1 ≤ e.width := by exact_mod_cast t.x.isLt
    have rows : (t.y : ℚ) + 1 ≤ e.height := by exact_mod_cast t.y.isLt
    have lowX : 0 ≤ level p.x := le_trans (Nat.cast_nonneg _) covers.west
    have lowY : 0 ≤ level p.y := le_trans (Nat.cast_nonneg _) covers.north
    have highX : level p.x < e.width := covers.east.trans_le columns
    have highY : level p.y < e.height := covers.south.trans_le rows
    have inside : e.contains p = true :=
      contains_iff.mpr ⟨covers.number_x, covers.number_y, lowX, lowY, highX, highY⟩
    have column : ⌊level p.x⌋₊ = t.x :=
      (Nat.floor_eq_iff lowX).mpr ⟨covers.west, covers.east⟩
    have row : ⌊level p.y⌋₊ = t.y := (Nat.floor_eq_iff lowY).mpr ⟨covers.north, covers.south⟩
    rw [tileAt?]
    rw [if_pos inside, Option.some.injEq]
    obtain ⟨tx, ty⟩ := t
    simp only [Tile.mk.injEq]
    exact ⟨Fin.ext ((clip_eq covers.number_x lowX highX e.width_lt).trans column),
      Fin.ext ((clip_eq covers.number_y lowY highY e.height_lt).trans row)⟩

/-- The points of the grid are those that a tile covers. -/
theorem contains_iff_covered {p : Point F} : e.contains p = true ↔ ∃ t : e.Tile, t.Covers p := by
  constructor
  · intro inside
    cases found : e.tileAt? p with
    | some t => exact ⟨t, tileAt?_eq_some_iff.mp found⟩
    | none => simp [tileAt?, inside] at found
  · rintro ⟨t, covers⟩
    have found := tileAt?_eq_some_iff.mpr covers
    rw [tileAt?] at found
    split at found
    · assumption
    · cases found

end Vivarium.Extent
