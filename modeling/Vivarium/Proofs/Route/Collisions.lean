import Vivarium.Proofs.Binary64.Laws
import Vivarium.Proofs.Route.Outcome
import Vivarium.Proofs.Route.Rooms

/-! Which wall stops a move. A route is free exactly if no walk meets a wall before it ends; else it
names a wall that faces the direction of travel, and ends strictly inside the tile that a walk has
reached through open edges. -/
namespace Vivarium

theorem filterMap_map_sublist {α β : Type} {f : α → Option β} {g : β → α}
    (back : ∀ a b, f a = some b → g b = a) (xs : List α) :
    ((xs.filterMap f).map g).Sublist xs := by
  induction xs with
  | nil => exact .slnil
  | cons a rest ih =>
    cases kept : f a with
    | none =>
      rw [List.filterMap_cons_none kept]
      exact ih.cons a
    | some b =>
      rw [List.filterMap_cons_some kept, List.map_cons, back a b kept]
      exact ih.cons_cons a

/-- A segment leaves a tile through edges in the order of testing. -/
theorem Segment.exits_sublist {F : Type} [Scalar F] (s : Segment F) (x y : Nat) :
    ((s.exits x y).map (·.edge)).Sublist Direction.all := by
  unfold exits
  dsimp only
  split
  · exact List.nil_sublist _
  · split
    · apply filterMap_map_sublist
      intro d e proposed
      simp only [Option.dite_none_right_eq_some, Option.ite_none_right_eq_some,
        Option.some.injEq] at proposed
      obtain ⟨facing, crossed, rfl⟩ := proposed
      rfl
    · exact List.nil_sublist _

namespace Grid
open Scalar Rounded

section
variable {F : Type} [Scalar F] {g : Grid} {origin destination : Point F} {t : g.Tile}

theorem searchAlong_ordered (g : Grid) (s : Segment F) : (g.searchAlong s).Ordered :=
  fun t => s.exits_sublist t.x t.y

/-- A route between different places is what the search along the segment answers. -/
theorem route_eq (start : g.extent.tileAt? origin = some t)
    (apart : origin.agrees destination = false) (finite : destination.isFinite = true) :
    g.route origin destination =
      match (g.searchAlong ⟨origin, destination⟩).find t with
      | none => .free destination
      | some hit => ⟨insideTile hit.tile hit.point, some hit.edge⟩ := by
  have plain := (g.searchAlong ⟨origin, destination⟩).trace_eq_find t
  rw [route, if_neg (by simp [apart]), if_neg (by simp [finite])]
  simp only [start]
  exact plain ▸ rfl

variable [Rounded F]

/-- Every point is reached from itself, wherever it lies. -/
theorem route_self (g : Grid) (p : Point F) : g.route p p = .free p := by
  rw [route]
  split
  · rfl
  · rename_i apart
    rw [if_pos]
    rw [Point.agrees, Bool.and_eq_true] at apart
    rw [Bool.not_eq_true', Point.isFinite, Bool.and_eq_false_iff]
    by_contra finite
    simp only [not_or, Bool.not_eq_false] at finite
    exact apart ⟨finite_number finite.1, finite_number finite.2⟩

/-- A route that a wall cuts short. -/
theorem route_collides (start : g.extent.tileAt? origin = some t)
    (apart : origin.agrees destination = false) (finite : destination.isFinite = true)
    {d : Direction} (stopped : (g.route origin destination).collision = some d) :
    ∃ u, (g.searchAlong ⟨origin, destination⟩).Walks t u ∧ (g.walls u).has d = true ∧
      (g.searchAlong ⟨origin, destination⟩).course.faces d = true ∧
      u.Encloses (g.route origin destination).point := by
  have ends := route_eq start apart finite
  cases found : (g.searchAlong ⟨origin, destination⟩).find t with
  | none =>
    rw [ends, found] at stopped
    cases stopped
  | some hit =>
    rw [found] at ends
    rw [ends] at stopped ⊢
    obtain rfl : hit.edge = d := Option.some.inj stopped
    obtain ⟨walks, e, among, walled, edge, point⟩ := WallSearch.find_walks found
    simp only [Point.isFinite, Bool.and_eq_true] at finite
    have starts : Segment.Starts ⟨origin, destination⟩ t :=
      ⟨Extent.tileAt?_eq_some_iff.mp start, finite.1, finite.2⟩
    obtain ⟨x, y⟩ := starts.exit_number hit.tile among
    rw [edge]
    exact ⟨hit.tile, walks, walled, e.facing,
      insideTile_encloses hit.tile (by rwa [point]) (by rwa [point])⟩

end

/-- Taking notes does not show: the search answers by the rules of `Outcome`. Therefore a move between
different places is free exactly if no walk meets a wall before it ends, and one that is stopped names
a wall ahead on a tile that a walk reaches, and ends strictly inside this tile. -/
theorem collisions_exact :
    (∀ s : WallSearch Float, s.Ordered → ∀ t found, s.trace t = found ↔ s.Outcome t found) ∧
    ∀ (g : Grid) (origin destination : Point Float) (t : g.Tile),
      g.extent.tileAt? origin = some t → origin.agrees destination = false →
      destination.isFinite = true →
      let s := g.searchAlong ⟨origin, destination⟩
      let way := g.route origin destination
      s.Ordered ∧
      (way = .free destination ↔ ∀ u, s.Walks t u → s.goal ≠ some u → s.Open u) ∧
      (way = .free destination ∨ ∃ d, way.collision = some d) ∧
      ∀ d, way.collision = some d → ∃ u, s.Walks t u ∧ (g.walls u).has d = true ∧
        s.course.faces d = true ∧ u.Encloses way.point ∧ (g.Built → g.SameRoom t u) := by
  refine ⟨fun s ordered t found => ordered.trace_eq_iff, ?_⟩
  intro g origin destination t start apart finite s way
  have ends : way = _ := route_eq start apart finite
  refine ⟨searchAlong_ordered g _, ?_, ?_, ?_⟩
  · refine Iff.trans ?_ WallSearch.find_eq_none_iff
    rw [ends]
    cases s.find t <;> simp [Transition.free]
  · rw [ends]
    cases s.find t with
    | none => exact .inl rfl
    | some hit => exact .inr ⟨hit.edge, rfl⟩
  · intro d stopped
    obtain ⟨u, walks, walled, facing, encloses⟩ := route_collides start apart finite stopped
    exact ⟨u, walks, walled, facing, encloses, fun built => walks.sameRoom built.agrees⟩

/-- A wall behind the corner that a diagonal move passes. The search meets it on the way around the
corner to the east, and not on the way to the south. -/
theorem collisions_exact_corner :
    ∃ g : Grid, ∃ start : g.Tile, g.Built ∧
      g.extent.tileAt? (⟨0.5, 0.5⟩ : Point Float) = some start ∧
      (g.searchAlong (⟨⟨0.5, 0.5⟩, ⟨1.5, 1.5⟩⟩ : Segment Float)).Outcome start
        ((g.searchAlong ⟨⟨0.5, 0.5⟩, ⟨1.5, 1.5⟩⟩).trace start) ∧
      (g.route (⟨0.5, 0.5⟩ : Point Float) ⟨1.5, 1.5⟩).collision = some .south ∧
      ∃ u : g.Tile, (g.walls u).has .south = true ∧ g.SameRoom start u ∧
        u.Encloses (g.route (⟨0.5, 0.5⟩ : Point Float) ⟨1.5, 1.5⟩).point := by
  let g := (Grid.empty ⟨2, 2, by decide, by decide, by decide, by decide⟩).setEdge
    ⟨⟨1, by decide⟩, ⟨1, by decide⟩⟩ .north true
  let start : g.Tile := ⟨⟨0, by decide⟩, ⟨0, by decide⟩⟩
  let s := g.searchAlong (⟨⟨0.5, 0.5⟩, ⟨1.5, 1.5⟩⟩ : Segment Float)
  have built : g.Built := (Grid.Built.empty _).setEdge _ _ _
  have there : g.extent.tileAt? (⟨0.5, 0.5⟩ : Point Float) = some start := by decide +kernel
  have apart : (⟨0.5, 0.5⟩ : Point Float).agrees ⟨1.5, 1.5⟩ = false := by decide +kernel
  have finite : (⟨1.5, 1.5⟩ : Point Float).isFinite = true := by decide +kernel
  have found : (s.find start).map (·.edge) = some .south := by decide +kernel
  have stopped : (g.route (⟨0.5, 0.5⟩ : Point Float) ⟨1.5, 1.5⟩).collision = some .south := by
    rw [route_eq there apart finite, ← found]
    cases s.find start <;> rfl
  obtain ⟨ordered, -, -, names⟩ := collisions_exact.2 g _ _ start there apart finite
  obtain ⟨u, -, walled, -, encloses, room⟩ := names .south stopped
  exact ⟨g, start, built, there, (collisions_exact.1 s ordered start _).mp rfl, stopped, u, walled,
    room built, encloses⟩

end Grid
end Vivarium
