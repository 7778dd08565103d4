import Vivarium.Proofs.Space.Store

/-! Runs of the store: any requests in any order, where one that is refused changes nothing. -/
namespace Vivarium.Space

/-- What changes a store. -/
inductive Request (F : Type) where
  | insert (e : Entry F)
  | remove (id : AgentId)
  | removeIf (doomed : Entry F → Bool)
  | moveObject (id : AgentId) (m : Motion F)
  | moveAll (chunkSize : Nat) (motionOf : AgentId → Option (Motion F))

variable {F : Type} [Scalar F] [Trig F] {s : Space F} {e e' : Entry F}

/-- The store after a request, whether it was granted or refused. -/
def after (s : Space F) : Request F → Space F
  | .insert e => match s.insert e with
    | .ok s => s
    | .error _ => s
  | .remove id => match s.remove id with
    | .ok (_, s) => s
    | .error _ => s
  | .removeIf doomed => (s.removeIf doomed).2
  | .moveObject id m => match s.moveObject id m with
    | .ok (_, s) => s
    | .error _ => s
  | .moveAll chunkSize motionOf => (s.moveAll chunkSize motionOf).2

def afterAll (s : Space F) (requests : List (Request F)) : Space F := requests.foldl after s

/-- A store that some requests make of an empty one. -/
def Reachable (t : Terrain F) (s : Space F) : Prop :=
  ∃ requests, s = (empty t).afterAll requests

theorem afterAll_append (s : Space F) (first second : List (Request F)) :
    s.afterAll (first ++ second) = (s.afterAll first).afterAll second :=
  List.foldl_append

theorem Reachable.after {t : Terrain F} (reached : s.Reachable t) (r : Request F) :
    (s.after r).Reachable t := by
  obtain ⟨requests, rfl⟩ := reached
  exact ⟨requests ++ [r], by rw [afterAll_append]; rfl⟩

theorem WellFormed.after (wf : s.WellFormed) (r : Request F) : (s.after r).WellFormed := by
  cases r with
  | insert e =>
    simp only [Space.after]
    split
    · rename_i inserted
      exact wf.insert inserted
    · exact wf
  | remove id =>
    simp only [Space.after]
    split
    · rename_i removed
      exact wf.remove removed
    · exact wf
  | removeIf doomed => exact wf.removeIf doomed
  | moveObject id m =>
    simp only [Space.after]
    split
    · rename_i moved
      exact wf.moveObject moved
    · exact wf
  | moveAll chunkSize motionOf => exact wf.moveAll chunkSize motionOf

theorem after_terrain (s : Space F) (r : Request F) : (s.after r).terrain = s.terrain := by
  cases r with
  | insert e =>
    simp only [after]
    split
    · rename_i inserted
      obtain ⟨-, -, rfl⟩ := insert_eq_ok inserted
      rfl
    · rfl
  | remove id =>
    simp only [after]
    split
    · rename_i removed
      obtain ⟨slot, last, -, -, rfl⟩ := remove_eq_ok removed
      rfl
    · rfl
  | removeIf doomed =>
    simp only [after, removeIf]
    split <;> rfl
  | moveObject id m =>
    simp only [after]
    split
    · rename_i moved
      obtain ⟨slot, e, -, ⟨-, rfl⟩ | ⟨e', -, rfl⟩⟩ := moveObject_eq_ok moved <;> rfl
    · rfl
  | moveAll chunkSize motionOf => rfl

/-- Where an entry comes from: from one that was there and may have moved, or from an insertion. -/
theorem WellFormed.mem_after (wf : s.WellFormed) {r : Request F} (stored : e' ∈ (s.after r).entries) :
    (∃ e ∈ s.entries, e.Becomes s.terrain e') ∨
      r = .insert e' ∧ e'.id ∉ s.ids ∧ s.terrain.contains e'.projection.position = true := by
  have same : ∀ {e' : Entry F}, e' ∈ s.entries → ∃ e ∈ s.entries, e.Becomes s.terrain e' :=
    fun stored => ⟨_, stored, .inl rfl⟩
  cases r with
  | insert e =>
    simp only [Space.after] at stored
    split at stored
    · rename_i inserted
      obtain ⟨absent, inside, rfl⟩ := insert_eq_ok inserted
      rw [wf.contains_eq, decide_eq_false_iff_not] at absent
      rcases Array.mem_push.mp stored with there | rfl
      · exact .inl (same there)
      · exact .inr ⟨rfl, absent, inside⟩
    · exact .inl (same stored)
  | remove id =>
    simp only [Space.after] at stored
    split at stored
    · rename_i removed
      obtain ⟨slot, last, found, final, rfl⟩ := remove_eq_ok removed
      obtain ⟨there, -⟩ := wf.find?_eq_some found
      rw [← Array.getElem?_toList] at there
      rw [← Array.getLast?_toList] at final
      rw [← Array.mem_toList_iff, Array.toList_pop, Array.toList_setIfInBounds] at stored
      exact .inl (same (Array.mem_toList_iff.mp
        ((swap_perm there final).mem_iff.mpr (List.mem_cons_of_mem _ stored))))
    · exact .inl (same stored)
  | removeIf doomed =>
    rw [← Array.mem_toList_iff, Space.after, removeIf_entries] at stored
    exact .inl (same (Array.mem_toList_iff.mp (List.mem_of_mem_filter stored)))
  | moveObject id m =>
    simp only [Space.after] at stored
    split at stored
    · rename_i moved
      obtain ⟨slot, e, found, ⟨-, rfl⟩ | ⟨e', way, rfl⟩⟩ := moveObject_eq_ok moved
      · exact .inl (same stored)
      · obtain ⟨there, -⟩ := wf.find?_eq_some found
        rw [← Array.mem_toList_iff, Array.toList_setIfInBounds] at stored
        rcases List.mem_or_eq_of_mem_set stored with elsewhere | rfl
        · exact .inl (same (Array.mem_toList_iff.mp elsewhere))
        · exact .inl ⟨e, Array.mem_of_getElem? there, .inr ⟨m, way⟩⟩
    · exact .inl (same stored)
  | moveAll chunkSize motionOf =>
    rw [← Array.mem_toList_iff, Space.after, moveAll_entries] at stored
    obtain ⟨e, there, rfl⟩ := List.mem_map.mp stored
    exact .inl ⟨e, Array.mem_toList_iff.mp there, moveEntry_becomes s.terrain motionOf e⟩

theorem WellFormed.afterAll (wf : s.WellFormed) (requests : List (Request F)) :
    (s.afterAll requests).WellFormed := by
  induction requests generalizing s with
  | nil => exact wf
  | cons r rest ih => exact ih (wf.after r)

theorem afterAll_terrain (s : Space F) (requests : List (Request F)) :
    (s.afterAll requests).terrain = s.terrain := by
  induction requests generalizing s with
  | nil => rfl
  | cons r rest ih => exact (ih (s.after r)).trans (after_terrain s r)

end Vivarium.Space
