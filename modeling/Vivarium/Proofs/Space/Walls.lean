import Vivarium.Proofs.Binary64.Laws
import Vivarium.Proofs.Space.Rooms

/-! Walls hold over whole runs of a store with binary64 coordinates. No law of sine and cosine is
used, so the argument covers every destination that a motion can ask for. -/
namespace Vivarium.Space

section
variable [Trig Float]

theorem Reachable.housed {g : Grid} (built : g.Built) {s : Space Float}
    (reached : s.Reachable (.ofGrid g)) : s.Housed g := by
  obtain ⟨requests, rfl⟩ := reached
  exact (empty_housed g).afterAll built requests

/-- Every object lies in the grid, no request takes an object out of its room, and no run does so
while the object stays stored. -/
theorem walls_hold {g : Grid} (built : g.Built) {s : Space Float}
    (reached : s.Reachable (.ofGrid g)) :
    (∀ e ∈ s.entries, g.extent.contains e.projection.position = true) ∧
      (∀ r : Request Float, ∀ e ∈ s.entries, ∀ e' ∈ (s.after r).entries, e'.id = e.id →
        e.SharesRoom g e') ∧
      ∀ requests : List (Request Float), ∀ e ∈ s.entries,
        (∀ n, e.id ∈ (s.afterAll (requests.take n)).ids) →
        ∀ e' ∈ (s.afterAll requests).entries, e'.id = e.id → e.SharesRoom g e' := by
  have housed := reached.housed built
  refine ⟨housed.inside, ?_, ?_⟩
  · intro r e before e' later same
    exact housed.after_room built r before later same
  · intro requests e before kept e' later same
    exact housed.afterAll_room built before kept later same

end

/-- Two tiles with a wall between them, and an object that runs against it. -/
theorem walls_hold_two_tiles :
    let g := (Grid.empty ⟨2, 1, by decide, by decide, by decide, by decide⟩).setEdge
      ⟨⟨0, by decide⟩, ⟨0, by decide⟩⟩ .east true
    let s := (empty (.ofGrid g)).after (.insert ⟨⟨0⟩, "runner", .placed 0.5 0.5⟩)
    let moved := s.after (.moveObject ⟨0⟩ ⟨0.0, 1.0⟩)
    g.Built ∧ s.Reachable (.ofGrid g) ∧ s.ids = [⟨0⟩] ∧
      (∀ e ∈ s.entries, g.extent.contains e.projection.position = true) ∧
      ∀ e ∈ s.entries, ∀ e' ∈ moved.entries, e'.id = e.id → e.SharesRoom g e' := by
  intro g s moved
  have built : g.Built := (Grid.Built.empty _).setEdge _ _ _
  have reached : s.Reachable (.ofGrid g) := ⟨[.insert ⟨⟨0⟩, "runner", .placed 0.5 0.5⟩], rfl⟩
  have placed : (Terrain.ofGrid g).contains (F := Float) (Projection.placed 0.5 0.5).position =
      true := by decide +kernel
  have stored : s.ids = [⟨0⟩] := by
    simp [s, after, insert, Space.contains, empty, placed, ids]
  obtain ⟨inside, room, -⟩ := walls_hold built reached
  exact ⟨built, reached, stored, inside, room _⟩

end Vivarium.Space
