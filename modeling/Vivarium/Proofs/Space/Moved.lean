import Vivarium.Proofs.Space.Bulk

/-! What the number of moved objects counts. An object is counted when its motion is not still, before
anything is known of its way; whether it is somewhere else afterwards is up to the terrain, to the
folding of angles and to rounding. So the number is that of the objects that changed together with those
that were set in motion and ended as they were. -/
namespace Vivarium

/-- The number `n` of those that are set in motion, next to the number of those that it changes. -/
structure Counted {α : Type} (xs : List α) (driven changed : α → Bool) (n : Nat) : Prop where
  total : n = xs.countP driven
  split : n = xs.countP changed + xs.countP fun x => driven x && !changed x
  exact_iff : n = xs.countP changed ↔ ∀ x ∈ xs, driven x = true → changed x = true

/-- Only what is set in motion changes. -/
theorem Counted.of_driven {α : Type} {xs : List α} {driven changed : α → Bool}
    (moves : ∀ x ∈ xs, changed x = true → driven x = true) :
    Counted xs driven changed (xs.countP driven) := by
  have both : xs.countP (fun x => driven x && changed x) = xs.countP changed := by
    apply List.countP_congr
    intro x among
    rw [Bool.and_eq_true]
    exact ⟨And.right, fun change => ⟨moves x among change, change⟩⟩
  have split : xs.countP driven =
      xs.countP changed + xs.countP fun x => driven x && !changed x := by
    have parts := List.countP_eq_countP_filter_add xs driven changed
    rwa [List.countP_filter, List.countP_filter, both] at parts
  refine ⟨rfl, split, ?_⟩
  rw [split, Nat.add_eq_left, List.countP_eq_zero]
  simp

namespace Space
variable {F : Type} {s s' : Space F} {id : AgentId} {changes : Projection F → Projection F → Bool}

/-- An object that is stored before and after differs in what `changes` looks at. -/
def shifted (changes : Projection F → Projection F → Bool) (s s' : Space F) (id : AgentId) : Bool :=
  match s.projection? id, s'.projection? id with
  | some p, some p' => changes p p'
  | _, _ => false

theorem shifted_of_unmoved (unmoved : s'.projection? id = s.projection? id) :
    s.shifted changes s' id = s.shifted changes s id := by
  rw [shifted, shifted, unmoved]

theorem shifted_self (same : ∀ p, changes p p = false) : s.shifted changes s id = false := by
  rw [shifted]
  cases s.projection? id with
  | none => rfl
  | some p => exact same p

variable [Scalar F] [Trig F] {motionOf : AgentId → Option (Motion F)}

/-- A movement leaves an object where it is whose motion is still or that has none. -/
theorem WellFormed.projection?_moveAll_rest (wf : s.WellFormed) (chunkSize : Nat)
    (rests : (motionOf id).any (!·.isStill) = false) :
    (s.moveAll chunkSize motionOf).2.projection? id = s.projection? id := by
  have stays : ∀ e : Entry F, e.id = id → (moveEntry s.terrain motionOf e).1 = e := by
    rintro e rfl
    exact moveEntry_unmoved (by rw [moveEntry_snd, rests])
  apply wf.projection?_congr (wf.moveAll chunkSize motionOf)
  intro e named
  rw [← Array.mem_toList_iff, moveAll_entries, List.mem_map]
  constructor
  · rintro ⟨e, stored, rfl⟩
    have before : e.id = id := (moveEntry_becomes s.terrain motionOf e).id_eq.symm.trans named
    rw [stays e before]
    exact Array.mem_toList_iff.mp stored
  · intro stored
    exact ⟨e, Array.mem_toList_iff.mpr stored, stays e named⟩

/-- The number of moved objects, for any notion of change by which nothing differs from itself. -/
theorem WellFormed.moveAll_counted (wf : s.WellFormed) (chunkSize : Nat)
    (motionOf : AgentId → Option (Motion F)) (steady : ∀ id ∈ s.ids, s.shifted changes s id = false) :
    Counted s.ids (fun id => (motionOf id).any (!·.isStill))
      (s.shifted changes (s.moveAll chunkSize motionOf).2) (s.moveAll chunkSize motionOf).1 := by
  rw [moveAll_total]
  apply Counted.of_driven
  intro id stored change
  by_contra rests
  rw [Bool.not_eq_true] at rests
  rw [shifted_of_unmoved (wf.projection?_moveAll_rest chunkSize rests), steady id stored] at change
  cases change

end Space
end Vivarium
