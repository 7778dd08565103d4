import Mathlib.Data.List.Induction
import Mathlib.Data.List.Nodup
import Std.Data.HashMap.Lemmas
import Vivarium.AgentId

/-! Tables that tell at which place of a list an id stands. The store of objects and the simulation
keep one each and update it by appending, by swapping the last element into a gap, or by numbering
what is left anew. -/
namespace Vivarium

/-- The table holds exactly the ids of the list, each with its place. -/
def Indexes (slots : Std.HashMap AgentId Nat) (ids : List AgentId) : Prop :=
  ∀ (id : AgentId) (i : Nat), slots[id]? = some i ↔ ids[i]? = some id

namespace Indexes
variable {slots : Std.HashMap AgentId Nat} {ids : List AgentId} {id : AgentId} {i : Nat}

theorem empty : Indexes ∅ [] := by
  intro id i
  simp

theorem nodup (indexes : Indexes slots ids) : ids.Nodup := by
  rw [List.nodup_iff_getElem?_ne_getElem?]
  intro i j less bound same
  have present : ids[i]? = some ids[i] := List.getElem?_eq_getElem (by omega)
  have first := (indexes _ i).mpr present
  have second := (indexes _ j).mpr (same.symm.trans present)
  have equal := Option.some.inj (first.symm.trans second)
  omega

theorem mem_iff (indexes : Indexes slots ids) : id ∈ slots ↔ id ∈ ids := by
  rw [List.mem_iff_getElem?, Std.HashMap.mem_iff_isSome_getElem?, Option.isSome_iff_exists]
  exact exists_congr fun i => indexes id i

theorem contains_eq (indexes : Indexes slots ids) : slots.contains id = decide (id ∈ ids) := by
  rw [Bool.eq_iff_iff, Std.HashMap.contains_iff_mem, indexes.mem_iff, decide_eq_true_iff]

theorem getElem?_eq_none (indexes : Indexes slots ids) (absent : id ∉ ids) : slots[id]? = none :=
  Std.HashMap.getElem?_eq_none (mt indexes.mem_iff.mp absent)

/-- A new id is appended. -/
theorem push (indexes : Indexes slots ids) (fresh : id ∉ ids) :
    Indexes (slots.insert id ids.length) (ids ++ [id]) := by
  intro other i
  rw [Std.HashMap.getElem?_insert]
  split
  · rename_i same
    obtain rfl := eq_of_beq same
    rw [Option.some.injEq]
    constructor
    · rintro rfl
      simp
    · intro there
      by_contra elsewhere
      have bound : i < (ids ++ [id]).length := (List.getElem?_eq_some_iff.mp there).1
      rw [List.length_append, List.length_singleton] at bound
      rw [List.getElem?_append_left (by omega)] at there
      exact fresh (List.mem_of_getElem? there)
  · rename_i different
    rw [beq_iff_eq] at different
    rw [indexes, List.getElem?_append]
    split
    · rfl
    · have past : ids[i]? = none := List.getElem?_eq_none (by omega)
      rw [past]
      constructor
      · rintro ⟨⟩
      · intro last
        have value := List.mem_of_getElem? last
        rw [List.mem_singleton] at value
        exact absurd value.symm different

/-- Numbering a list of distinct ids. -/
theorem number {α : Type} (key : α → AgentId) (xs : List α) (nodup : (xs.map key).Nodup) :
    Indexes (xs.zipIdx.foldl (fun slots (x, i) => slots.insert (key x) i) ∅) (xs.map key) := by
  induction xs using List.reverseRecOn with
  | nil => exact empty
  | append_singleton xs x ih =>
    rw [List.map_append, List.nodup_append] at nodup
    obtain ⟨before, -, apart⟩ := nodup
    have fresh : key x ∉ xs.map key := by
      intro among
      exact apart _ among _ (by simp) rfl
    have last := (ih before).push fresh
    rw [List.length_map] at last
    simpa [List.zipIdx_append, List.foldl_append] using last

theorem unique (indexes : Indexes slots ids) {j : Nat} (here : ids[i]? = some id)
    (there : ids[j]? = some id) : i = j :=
  Option.some.inj (((indexes id i).mpr here).symm.trans ((indexes id j).mpr there))

/-- What stands where after the last element has taken the place of another. -/
theorem getElem?_swapRemove {last : AgentId} (bound : i < ids.length) (j : Nat) :
    ((ids.set i last).dropLast)[j]? =
      if j < ids.length - 1 then (if i = j then some last else ids[j]?) else none := by
  rw [List.getElem?_dropLast, List.length_set]
  split
  · rw [List.getElem?_set]
    split
    · rfl
    · rfl
  · rfl

/-- The id at place `i` is removed, and the last one takes its place. -/
theorem swapRemove (indexes : Indexes slots ids) {last : AgentId}
    (there : ids[i]? = some id) (ends : ids.getLast? = some last) :
    Indexes
      (match ((ids.set i last).dropLast)[i]? with
        | some filler => (slots.erase id).insert filler i
        | none => slots.erase id)
      (ids.set i last).dropLast := by
  have bound : i < ids.length := (List.getElem?_eq_some_iff.mp there).1
  have final : ids[ids.length - 1]? = some last := by rw [← List.getLast?_eq_getElem?, ends]
  intro other j
  have known := indexes other j
  have within : ids[j]? = some other → j < ids.length := by
    intro found
    exact (List.getElem?_eq_some_iff.mp found).1
  have gone : ids[j]? = some id → i = j := indexes.unique there
  have moved : ids[j]? = some last → ids.length - 1 = j := indexes.unique final
  rw [getElem?_swapRemove bound, getElem?_swapRemove bound]
  by_cases inner : i < ids.length - 1
  · rw [if_pos inner, if_pos rfl]
    dsimp only
    rw [Std.HashMap.getElem?_insert, Std.HashMap.getElem?_erase]
    grind
  · rw [if_neg inner]
    dsimp only
    rw [Std.HashMap.getElem?_erase]
    grind

end Indexes
end Vivarium
