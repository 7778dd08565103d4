import Vivarium.Proofs.Route.Sight
import Vivarium.Proofs.Space.Queries

/-! Who sees whom. Rounding is symmetric about zero, so distances in a grid are the same there and
back. Main statement: two objects see each other, or neither sees the other, unless the segment
between them passes a corner of the grid. -/
namespace Vivarium
open Scalar Binary64

namespace Binary64
variable {a b : Float}

/-- The square of a moderate difference. -/
theorem square_sub_spec (fa : isFinite a = true) (fb : isFinite b = true)
    (moderate : |reading (view a) - reading (view b)| ≤ 2 ^ 32) :
    isFinite ((a - b) * (a - b)) = true ∧ reading (view ((a - b) * (a - b))) =
      nearest (nearest (reading (view a) - reading (view b)) ^ 2) := by
  have coarse := le_coarsest
  have kept : nearest (2 ^ 32) = 2 ^ 32 := by
    simpa using nearest_multiple (k := 1) (e := 32) (by norm_num) (by norm_num) (by norm_num)
  obtain ⟨low, high⟩ := abs_le.mp moderate
  have below := nearest_mono low
  have above := nearest_mono high
  rw [nearest_neg, kept] at below
  rw [kept] at above
  obtain ⟨number, value⟩ := sub_reading fa fb
  have finite : isFinite (a - b) = true := by
    refine finite_iff_reading.mpr ⟨number, ?_⟩
    rw [value, bound]
    exact abs_lt.mpr ⟨by linarith, by linarith⟩
  obtain ⟨square, product⟩ := mul_reading finite finite
  rw [value, ← sq] at product
  refine ⟨finite_iff_reading.mpr ⟨square, ?_⟩, product⟩
  rw [product]
  refine abs_nearest_lt_bound ?_
  rw [abs_of_nonneg (sq_nonneg _), bound]
  nlinarith

theorem squaredDistance_spec {e : Extent} {p q : Point Float} (start : e.contains p = true)
    (finish : e.contains q = true) : IsNumber (p.squaredDistance q) ∧
      reading (view (p.squaredDistance q)) =
        nearest (nearest (nearest (reading (view q.x) - reading (view p.x)) ^ 2) +
          nearest (nearest (reading (view q.y) - reading (view p.y)) ^ 2)) := by
  have finite := Extent.isFinite_of_contains start
  have finite' := Extent.isFinite_of_contains finish
  simp only [Point.isFinite, Bool.and_eq_true] at finite finite'
  have close : ∀ {n : ℕ} {x y : ℚ}, n < UInt32.size → 0 ≤ x → 0 ≤ y → x < n → y < n →
      |y - x| ≤ 2 ^ 32 := by
    intro n x y small lowX lowY highX highY
    have size : (n : ℚ) < 2 ^ 32 := by exact_mod_cast small
    exact abs_le.mpr ⟨by linarith, by linarith⟩
  obtain ⟨-, -, left, top, right, bottom⟩ := Extent.contains_iff.mp start
  obtain ⟨-, -, left', top', right', bottom'⟩ := Extent.contains_iff.mp finish
  obtain ⟨finiteX, squareX⟩ := square_sub_spec finite'.1 finite.1
    (close e.width_lt left left' right right')
  obtain ⟨finiteY, squareY⟩ := square_sub_spec finite'.2 finite.2
    (close e.height_lt top top' bottom bottom')
  obtain ⟨number, sum⟩ := add_reading finiteX finiteY
  rw [squareX, squareY] at sum
  exact ⟨number, sum⟩

/-- Between two points of a grid it is as far there as back. -/
theorem squaredDistance_comm {e : Extent} {p q : Point Float} (start : e.contains p = true)
    (finish : e.contains q = true) :
    reading (view (p.squaredDistance q)) = reading (view (q.squaredDistance p)) := by
  have mirrored : ∀ x y : ℚ, nearest (x - y) ^ 2 = nearest (y - x) ^ 2 := fun x y => by
    rw [← neg_sub, nearest_neg, neg_sq]
  rw [(squaredDistance_spec start finish).2, (squaredDistance_spec finish start).2,
    mirrored (reading (view q.x)), mirrored (reading (view q.y))]

end Binary64

namespace Space
variable {g : Grid} {s : Space Float} {a b : Entry Float} {radius : Float}

theorem Neighbours.symm (housed : s.Housed g) (stored : a ∈ s.entries)
    (near : s.Neighbours radius a b) : s.Neighbours radius b a where
  stored := stored
  different := near.different.symm
  wide := near.wide
  near := by
    have start := housed.inside a stored
    have finish := housed.inside b near.stored
    obtain ⟨-, number, less⟩ := Rounded.le_iff.mp near.near
    exact Rounded.le_iff.mpr ⟨(Binary64.squaredDistance_spec finish start).1, number,
      (Binary64.squaredDistance_comm finish start).trans_le less⟩

/-- An object that is seen within a radius sees back as far. -/
theorem Housed.sees_back (housed : s.Housed g) (fresh : s.Fresh) (built : g.Built)
    (stored : a ∈ s.entries) (avoids : g.Avoids ⟨a.projection.position, b.projection.position⟩)
    (sees : b ∈ (s.visibleNeighbours a.id radius).1) :
    a ∈ (s.visibleNeighbours b.id radius).1 := by
  simp only [visibleNeighbours, fresh.mem_neighboursOf, Space.sees, housed.terrain] at sees ⊢
  obtain ⟨a', stored', same, near, seen⟩ := sees
  obtain rfl := fresh.wellFormed.unique stored' stored same
  exact ⟨b, near.stored, rfl, near.symm housed stored,
    avoids.sees_back built (housed.inside a' stored) (housed.inside b near.stored) seen⟩

/-- Two points of a grid see each other, or neither sees the other, and after any changes and queries
so do two objects within any radius, if the segment between them keeps off the corners of the grid or
leads along an axis. -/
theorem sight_mutual [Trig Float] (built : g.Built) :
    (∀ p q : Point Float, g.extent.contains p = true → g.extent.contains q = true →
      g.Avoids ⟨p, q⟩ →
        (Terrain.ofGrid g).isVisible p q = (Terrain.ofGrid g).isVisible q p) ∧
      ∀ events : List (Event Float),
        let s := (empty (.ofGrid g)).metAll events
        ∀ a ∈ s.entries, ∀ b ∈ s.entries,
          g.Avoids ⟨a.projection.position, b.projection.position⟩ → ∀ radius,
            (b ∈ (s.visibleNeighbours a.id radius).1 ↔
              a ∈ (s.visibleNeighbours b.id radius).1) := by
  refine ⟨fun p q => Grid.isVisible_comm built, ?_⟩
  intro events s a there b there' avoids radius
  have housed : s.Housed g := (empty_housed g).metAll built events
  have fresh : s.Fresh := (empty_fresh _).metAll events
  exact ⟨housed.sees_back fresh built there avoids,
    housed.sees_back fresh built there' avoids.reverse⟩

/-- A wall between two points hides each from the other, and two objects in a row see each other. -/
theorem sight_mutual_wall :
    (∃ (g : Grid) (p q : Point Float), g.Built ∧ g.extent.contains p = true ∧
      g.extent.contains q = true ∧ g.Avoids ⟨p, q⟩ ∧
      (Terrain.ofGrid g).isVisible p q = false ∧ (Terrain.ofGrid g).isVisible q p = false) ∧
      pairGrid.Built ∧ (⟨⟨1⟩, "a", .placed 1.5 0.5⟩ : Entry Float) ∈ (pair.visibleNeighbours ⟨0⟩ 1.0).1 ∧
        ⟨⟨0⟩, "a", .placed 0.5 0.5⟩ ∈ (pair.visibleNeighbours ⟨1⟩ 1.0).1 := by
  constructor
  · let g := (Grid.empty ⟨2, 2, by decide, by decide, by decide, by decide⟩).setEdge
      ⟨⟨0, by decide⟩, ⟨0, by decide⟩⟩ .east true
    let t : g.Tile := ⟨⟨0, by decide⟩, ⟨0, by decide⟩⟩
    let p : Point Float := ⟨0.5, 0.25⟩
    let q : Point Float := ⟨1.5, 1.5⟩
    have built : g.Built := (Grid.Built.empty _).setEdge _ _ _
    have start : g.extent.contains p = true := by decide +kernel
    have finish : g.extent.contains q = true := by decide +kernel
    have there : g.extent.tileAt? p = some t := by decide +kernel
    have apart : p.agrees q = false := by decide +kernel
    have avoids : g.Avoids ⟨p, q⟩ := by
      intro _ _ i wide j tall _
      simp only [Segment.crossing, Segment.run, Point.across, p, q, level_half, level_quarter,
        level_three_halves]
      change i ≤ 2 at wide
      change j ≤ 2 at tall
      rw [lt_abs]
      interval_cases i <;> interval_cases j <;> norm_num
    have stopped : ((g.searchAlong ⟨p, q⟩).find t).isNone = false := by decide +kernel
    have hidden : (Terrain.ofGrid g).isVisible p q = false :=
      (Grid.isVisible_eq there apart (Extent.isFinite_of_contains finish)).trans stopped
    exact ⟨g, p, q, built, start, finish, avoids, hidden,
      ((sight_mutual built).1 p q start finish avoids).symm.trans hidden⟩
  · let a : Entry Float := ⟨⟨0⟩, "a", .placed 0.5 0.5⟩
    let b : Entry Float := ⟨⟨1⟩, "a", .placed 1.5 0.5⟩
    let p : Point Float := a.projection.position
    let q : Point Float := b.projection.position
    let t : pairGrid.Tile := ⟨⟨0, by decide⟩, ⟨0, by decide⟩⟩
    have built : pairGrid.Built := .empty _
    have fresh : pair.Fresh := (empty_fresh _).metAll pairEvents
    have terrain : pair.terrain = .ofGrid pairGrid := (empty_fresh _).metAll_terrain pairEvents
    have west : a ∈ pair.entries := by simp [a, pair_spec.2]
    have east : b ∈ pair.entries := by simp [b, pair_spec.2]
    have there : pairGrid.extent.tileAt? p = some t := by decide +kernel
    have apart : p.agrees q = false := by decide +kernel
    have finite : q.isFinite = true := by decide +kernel
    have free : ((pairGrid.searchAlong ⟨p, q⟩).find t).isNone = true := by decide +kernel
    have seen : (Terrain.ofGrid pairGrid).isVisible p q = true :=
      (Grid.isVisible_eq there apart finite).trans free
    have sees : b ∈ (pair.visibleNeighbours a.id 1.0).1 := by
      simp only [visibleNeighbours, fresh.mem_neighboursOf, Space.sees, terrain]
      exact ⟨a, west, rfl, ⟨east, by decide, by decide +kernel, by decide +kernel⟩, seen⟩
    have straight : pairGrid.Avoids ⟨p, q⟩ := fun _ moves =>
      absurd (sub_self (Rounded.level (0.5 : Float))) moves
    obtain ⟨-, both⟩ := sight_mutual built
    exact ⟨built, sees, (both pairEvents a west b east straight 1.0).mp sees⟩

end Space
end Vivarium
