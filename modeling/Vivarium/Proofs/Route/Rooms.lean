import Vivarium.Proofs.Route.Exits
import Vivarium.Proofs.Route.Walks
import Vivarium.Route.Terrain

/-! Routes stay in their room. Every edge that a search crosses is open, so a hit lies on a tile of
the room it started in; a search without a hit goes on until the tile of the destination, because
some exit always leads toward it. -/
namespace Vivarium

namespace Grid
open Scalar Rounded
variable {F : Type} [Scalar F] [Rounded F] {g : Grid}

/-- A search that meets no wall arrives in the tile of the destination. -/
theorem find_arrives {s : Segment F} {origin t : g.Tile}
    (starts : s.Starts origin) (onWay : s.OnWay origin t)
    (free : (g.searchAlong s).find t = none) :
    ∃ last : g.Tile, last.Covers s.finish ∧ (g.searchAlong s).Walks t last := by
  generalize ahead : s.course.ahead t = n
  induction n using Nat.strong_induction_on generalizing t with
  | _ n ih =>
    by_cases covers : t.Covers s.finish
    · exact ⟨t, covers, .refl⟩
    · have elsewhere : (g.searchAlong s).goal ≠ some t := by
        intro arrived
        exact covers (Extent.tileAt?_eq_some_iff.mp arrived)
      have pending : ∃ d, s.Leads t d := by
        by_contra last
        exact covers (starts.arrived onWay fun d leads => last ⟨d, leads⟩)
      obtain ⟨d, leads⟩ := pending
      obtain ⟨e, among, leads⟩ := starts.exit_leads onWay leads
      obtain ⟨unblocked, onward⟩ := (WallSearch.find_eq_none elsewhere).mp free
      have clear := unblocked e among
      obtain ⟨next, step, same⟩ := WallSearch.onward_open (s := g.searchAlong s) clear
      have passes : (g.searchAlong s).Passes t next := ⟨elsewhere, e, among, clear, step⟩
      have behind := onWay.next e.facing leads step
      obtain ⟨last, covers, walks⟩ := ih _ (lt_of_lt_of_eq passes.ahead_lt ahead) behind
        (same.symm.trans (onward e among)) rfl
      exact ⟨last, covers, .head passes walks⟩

/-- What is moved inside lies strictly between two whole numbers. -/
theorem inside_spec {n : Nat} (small : n + 1 < UInt32.size) {v : F} (number : IsNumber v) :
    IsNumber (inside (ofNat n) v) ∧ (n : ℚ) < level (inside (ofNat n) v) ∧
      level (inside (ofNat n) v) < n + 1 := by
  obtain ⟨lowNumber, low⟩ := ofNat_spec (F := F) (n := n) (by omega)
  have lowFinite := finite_ofNat (F := F) (n := n) (by omega)
  obtain ⟨highFinite, high⟩ := add_one_spec (F := F) small
  have highNumber := finite_number highFinite
  obtain ⟨middle, middleNumber, above, below⟩ := exists_between (F := F) (n := n) (by omega)
  unfold inside
  dsimp only
  split
  · obtain ⟨upNumber, up, least⟩ := nextUp_spec lowFinite
    rw [low] at up least
    exact ⟨upNumber, up, (least middle middleNumber above).trans_lt below⟩
  · rename_i notLow
    split
    · obtain ⟨negNumber, neg⟩ := neg_spec highNumber
      obtain ⟨middleNeg, middleLevel⟩ := neg_spec middleNumber
      have negFinite : isFinite (-(ofNat n + one) : F) = true := by
        refine finite_iff.mpr ⟨negNumber, ?_⟩
        rw [neg, abs_neg]
        exact (finite_iff.mp highFinite).2
      obtain ⟨upNumber, up, least⟩ := nextUp_spec negFinite
      rw [neg, high] at up least
      have downTo := least (-middle) middleNeg (by rw [middleLevel]; linarith)
      obtain ⟨downNumber, down⟩ := neg_spec upNumber
      refine ⟨downNumber, ?_, ?_⟩
      · simp only [nextDown, down]
        rw [middleLevel] at downTo
        linarith
      · simp only [nextDown, down]
        linarith
    · rename_i notHigh
      refine ⟨number, ?_, ?_⟩
      · by_contra under
        exact notLow (le_iff.mpr ⟨number, lowNumber, by rw [low]; linarith⟩)
      · by_contra above
        exact notHigh (le_iff.mpr ⟨highNumber, number, by rw [high]; linarith⟩)

theorem insideTile_covers (t : g.Tile) {p : Point F} (x : IsNumber p.x) (y : IsNumber p.y) :
    t.Covers (insideTile t p) := by
  obtain ⟨numberX, west, east⟩ := inside_spec (Segment.column_small t) x
  obtain ⟨numberY, north, south⟩ := inside_spec (Segment.row_small t) y
  exact ⟨numberX, numberY, west.le, east, north.le, south⟩

theorem insideTile_encloses (t : g.Tile) {p : Point F} (x : IsNumber p.x) (y : IsNumber p.y) :
    t.Encloses (insideTile t p) := by
  have interval : ∀ {n : Nat} {v : F}, n + 1 < UInt32.size → IsNumber v →
      ofNat n < inside (ofNat n) v ∧ inside (ofNat n) v < ofNat n + one := by
    intro n v small number
    obtain ⟨inNumber, above, below⟩ := inside_spec small number
    obtain ⟨lowNumber, low⟩ := ofNat_spec (F := F) (n := n) (by omega)
    obtain ⟨highFinite, high⟩ := add_one_spec (F := F) small
    exact ⟨lt_iff.mpr ⟨lowNumber, inNumber, low ▸ above⟩,
      lt_iff.mpr ⟨inNumber, finite_number highFinite, high ▸ below⟩⟩
  obtain ⟨west, east⟩ := interval (Segment.column_small t) x
  obtain ⟨north, south⟩ := interval (Segment.row_small t) y
  exact ⟨west, east, north, south⟩

/-- A route ends in the room it starts in, wherever it is to lead. -/
theorem route_room (built : g.Built) {origin destination : Point F} {t : g.Tile}
    (covers : t.Covers origin) :
    ∃ last : g.Tile, last.Covers (g.route origin destination).point ∧ g.SameRoom t last := by
  have agrees := built.agrees
  rw [route]
  split
  · rename_i same
    simp only [Point.agrees, Bool.and_eq_true, beq_iff] at same
    obtain ⟨⟨-, x, column⟩, -, y, row⟩ := same
    obtain ⟨-, -, west, east, north, south⟩ := covers
    rw [column] at west east
    rw [row] at north south
    exact ⟨t, ⟨x, y, west, east, north, south⟩, .refl⟩
  · split
    · exact ⟨t, covers, .refl⟩
    · rename_i finite
      simp only [Point.isFinite, Bool.not_eq_true, Bool.not_eq_false', Bool.and_eq_true] at finite
      have starts : Segment.Starts ⟨origin, destination⟩ t := ⟨covers, finite.1, finite.2⟩
      rw [Extent.tileAt?_eq_some_iff.mpr covers]
      dsimp only
      have plain := (g.searchAlong ⟨origin, destination⟩).trace_eq_find t
      split
      · rename_i free
        obtain ⟨last, arrived, walks⟩ := find_arrives starts starts.onWay (plain.symm.trans free)
        exact ⟨last, arrived, walks.sameRoom agrees⟩
      · rename_i hit found
        obtain ⟨walks, e, among, -, -, point⟩ := WallSearch.find_walks (plain.symm.trans found)
        obtain ⟨x, y⟩ := starts.exit_number hit.tile among
        exact ⟨hit.tile, insideTile_covers hit.tile (by rwa [point]) (by rwa [point]),
          walks.sameRoom agrees⟩

end Grid
end Vivarium
