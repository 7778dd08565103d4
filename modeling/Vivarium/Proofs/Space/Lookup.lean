import Vivarium.Proofs.Space.Store

/-! Finding an object by its id, after each of the operations of a step. A motion takes a projection to
another one; the object it belongs to does not matter. -/
namespace Vivarium

/-- Where a motion leads, as far as the terrain lets it; a motion that is still leads nowhere. -/
def Projection.carried {F : Type} [Scalar F] [Trig F] (p : Projection F) (t : Terrain F)
    (m : Motion F) : Projection F :=
  if m.isStill then p
  else
    let aim := m.aim p
    let way := t.route p.position aim.destination
    ⟨way.point, aim.orientation, way.collided⟩

theorem Entry.moved?_eq {F : Type} [Scalar F] [Trig F] (t : Terrain F) (m : Motion F) (e : Entry F) :
    e.moved? t m =
      if m.isStill then none else some { e with projection := e.projection.carried t m } := by
  rw [moved?, Projection.carried]
  split
  · rfl
  · rfl

namespace Space
variable {F : Type} {s s' : Space F} {id : AgentId} {e : Entry F} {p : Projection F}

theorem WellFormed.entry?_eq_some (wf : s.WellFormed) :
    s.entry? id = some e ↔ e ∈ s.entries ∧ e.id = id := by
  rw [Space.entry?, Option.map_eq_some_iff]
  constructor
  · rintro ⟨⟨slot, e⟩, found, rfl⟩
    obtain ⟨there, named⟩ := wf.find?_eq_some found
    exact ⟨Array.mem_of_getElem? there, named⟩
  · rintro ⟨stored, rfl⟩
    rcases found : s.find? e.id with - | ⟨slot, other⟩
    · exact absurd (mem_ids.mpr ⟨e, stored, rfl⟩) (wf.find?_eq_none.mp found)
    · obtain ⟨there, named⟩ := wf.find?_eq_some found
      obtain rfl := wf.unique stored (Array.mem_of_getElem? there) named.symm
      exact ⟨(slot, e), rfl, rfl⟩

theorem WellFormed.projection?_eq_some (wf : s.WellFormed) :
    s.projection? id = some p ↔ ∃ e ∈ s.entries, e.id = id ∧ e.projection = p := by
  rw [projection?, Option.map_eq_some_iff]
  exact exists_congr fun e => by rw [wf.entry?_eq_some, and_assoc]

/-- Only the entries under the id matter. -/
theorem WellFormed.projection?_congr (wf : s.WellFormed) (wf' : s'.WellFormed)
    (same : ∀ e, e.id = id → (e ∈ s'.entries ↔ e ∈ s.entries)) :
    s'.projection? id = s.projection? id := by
  apply Option.ext
  intro p
  rw [wf.projection?_eq_some, wf'.projection?_eq_some]
  apply exists_congr
  intro e
  constructor
  · rintro ⟨stored, named, there⟩
    exact ⟨(same e named).mp stored, named, there⟩
  · rintro ⟨stored, named, there⟩
    exact ⟨(same e named).mpr stored, named, there⟩

/-- Neighbours are stored, however old the picture is. -/
theorem WellFormed.neighboursOf_stored [Scalar F] (wf : s.WellFormed) {id : AgentId} {radius : F}
    {accept : Entry F → Entry F → Bool} {other : Entry F}
    (among : other ∈ (s.neighboursOf id radius accept).1) : other ∈ s.entries := by
  rw [neighboursOf] at among
  split at among
  · cases among
  · rename_i me found
    obtain ⟨kept, -⟩ := List.mem_filter.mp among
    obtain ⟨id', -, entry⟩ := List.mem_filterMap.mp kept
    exact (wf.entry?_eq_some.mp entry).1

theorem WellFormed.projection?_insert (wf : s.WellFormed) (inserted : s.insert e = .ok s') :
    s'.projection? e.id = some e.projection ∧
      ∀ id, id ≠ e.id → s'.projection? id = s.projection? id := by
  have wf' := wf.insert inserted
  obtain ⟨-, -, rfl⟩ := insert_eq_ok inserted
  constructor
  · rw [wf'.projection?_eq_some]
    exact ⟨e, Array.mem_push_self, rfl, rfl⟩
  · intro id different
    apply wf.projection?_congr wf'
    intro other named
    have older : other ≠ e := by
      rintro rfl
      exact different named.symm
    simp [older]

variable [Scalar F] [Trig F] {t : Terrain F} {m : Motion F}

theorem moveEntry_eq {motionOf : AgentId → Option (Motion F)} (moves : motionOf e.id = some m) :
    (moveEntry t motionOf e).1 = { e with projection := e.projection.carried t m } := by
  simp only [moveEntry, moves, Option.bind_some, Entry.moved?_eq]
  by_cases still : m.isStill = true
  · rw [if_pos still, Projection.carried, if_pos still]
  · rw [if_neg still]

theorem WellFormed.projection?_moveAll (wf : s.WellFormed) (chunkSize : Nat)
    {motionOf : AgentId → Option (Motion F)} (moves : motionOf id = some m)
    (before : s.projection? id = some p) :
    (s.moveAll chunkSize motionOf).2.projection? id = some (p.carried s.terrain m) := by
  obtain ⟨e, stored, rfl, rfl⟩ := wf.projection?_eq_some.mp before
  rw [(wf.moveAll chunkSize motionOf).projection?_eq_some]
  refine ⟨{ e with projection := e.projection.carried s.terrain m }, ?_, rfl, rfl⟩
  rw [← Array.mem_toList_iff, moveAll_entries, List.mem_map]
  exact ⟨e, Array.mem_toList_iff.mpr stored, moveEntry_eq moves⟩

end Space
end Vivarium
