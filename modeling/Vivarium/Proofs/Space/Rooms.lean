import Vivarium.Proofs.Route.Rooms
import Vivarium.Proofs.Space.Run

/-! Walls hold. Every entry of a store over a grid lies in a tile, and no request puts an entry into
another room. -/
namespace Vivarium
open Extent

/-- The two entries lie in tiles of one room. -/
def Entry.SharesRoom {F : Type} [Scalar F] (g : Grid) (e e' : Entry F) : Prop :=
  ∃ t u : g.Tile, g.extent.tileAt? e.projection.position = some t ∧
    g.extent.tileAt? e'.projection.position = some u ∧ g.SameRoom t u

namespace Entry
variable {F : Type} [Scalar F] {g : Grid} {e e' : Entry F}

theorem SharesRoom.trans {e'' : Entry F} (first : e.SharesRoom g e')
    (second : e'.SharesRoom g e'') : e.SharesRoom g e'' := by
  obtain ⟨t, u, start, middle, room⟩ := first
  obtain ⟨u', v, middle', last, room'⟩ := second
  obtain rfl := Option.some.inj (middle.symm.trans middle')
  exact ⟨t, v, start, last, room.trans room'⟩

theorem SharesRoom.inside (shares : e.SharesRoom g e') :
    g.extent.contains e'.projection.position = true := by
  obtain ⟨t, u, -, there, -⟩ := shares
  rw [tileAt?] at there
  split at there
  · assumption
  · cases there

/-- A motion leads into a tile of the same room. -/
theorem Becomes.room [Rounded F] [Trig F] (built : g.Built)
    (inside : g.extent.contains e.projection.position = true)
    (becomes : e.Becomes (.ofGrid g) e') : e.SharesRoom g e' := by
  obtain ⟨t, covers⟩ := contains_iff_covered.mp inside
  rcases becomes with rfl | ⟨m, moved⟩
  · have here := tileAt?_eq_some_iff.mpr covers
    exact ⟨t, t, here, here, .refl⟩
  · rw [moved?] at moved
    split at moved
    · cases moved
    · cases moved
      have arrives : ∀ destination, ∃ last : g.Tile,
          last.Covers (g.route e.projection.position destination).point ∧ g.SameRoom t last :=
        fun _ => Grid.route_room built covers
      obtain ⟨last, arrived, room⟩ := arrives (m.aim e.projection).destination
      exact ⟨t, last, tileAt?_eq_some_iff.mpr covers, tileAt?_eq_some_iff.mpr arrived, room⟩

end Entry

namespace Space
variable {F : Type} [Scalar F] {g : Grid} {s : Space F} {e e' : Entry F}

/-- A store over a grid, with every entry in a tile. -/
structure Housed (g : Grid) (s : Space F) : Prop where
  wellFormed : s.WellFormed
  terrain : s.terrain = .ofGrid g
  inside : ∀ e ∈ s.entries, g.extent.contains e.projection.position = true

theorem empty_housed (g : Grid) : (empty (.ofGrid g) : Space F).Housed g where
  wellFormed := empty_wellFormed _
  terrain := rfl
  inside e stored := by simp [empty] at stored

variable [Rounded F] [Trig F]

theorem Housed.after_room (housed : s.Housed g) (built : g.Built) (r : Request F)
    (before : e ∈ s.entries) (later : e' ∈ (s.after r).entries) (same : e'.id = e.id) :
    e.SharesRoom g e' := by
  rcases housed.wellFormed.mem_after later with ⟨origin, stored, becomes⟩ | ⟨-, fresh, -⟩
  · obtain rfl := housed.wellFormed.unique before stored (same.symm.trans becomes.id_eq)
    rw [housed.terrain] at becomes
    exact becomes.room built (housed.inside e before)
  · exact absurd (mem_ids.mpr ⟨e, before, same.symm⟩) fresh

theorem Housed.after (housed : s.Housed g) (built : g.Built) (r : Request F) :
    (s.after r).Housed g where
  wellFormed := housed.wellFormed.after r
  terrain := (after_terrain s r).trans housed.terrain
  inside e' later := by
    rcases housed.wellFormed.mem_after later with ⟨e, stored, becomes⟩ | ⟨-, -, inside⟩
    · exact (housed.after_room built r stored later becomes.id_eq).inside
    · rw [housed.terrain] at inside
      exact inside

theorem Housed.afterAll (housed : s.Housed g) (built : g.Built) (requests : List (Request F)) :
    (s.afterAll requests).Housed g := by
  induction requests generalizing s with
  | nil => exact housed
  | cons r rest ih => exact ih (housed.after built r)

/-- As long as an entry is stored it stays in its room. -/
theorem Housed.afterAll_room (housed : s.Housed g) (built : g.Built) {requests : List (Request F)}
    (before : e ∈ s.entries) (kept : ∀ n, e.id ∈ (s.afterAll (requests.take n)).ids)
    (later : e' ∈ (s.afterAll requests).entries) (same : e'.id = e.id) : e.SharesRoom g e' := by
  induction requests generalizing s e with
  | nil =>
    obtain rfl := housed.wellFormed.unique before later same.symm
    exact Entry.Becomes.room built (housed.inside e before) (.inl rfl)
  | cons r rest ih =>
    obtain ⟨middle, stored, id⟩ := mem_ids.mp (kept 1)
    have first := housed.after_room built r before stored id
    refine first.trans (ih (housed.after built r) stored ?_ later (same.trans id.symm))
    intro n
    rw [id]
    exact kept (n + 1)

end Space
end Vivarium
