import Mathlib.Data.List.Dedup
import Vivarium.Proofs.Slots
import Vivarium.Proofs.Space.Populations
import Vivarium.Space.Basic

/-! The store keeps its entries, the table of their places and the population index in step. Every
operation preserves this, and says of each entry afterwards where it comes from. -/
namespace Vivarium

/-- An entry before and after a motion, or left alone. -/
def Entry.Becomes {F : Type} [Scalar F] [Trig F] (t : Terrain F) (e e' : Entry F) : Prop :=
  e' = e ∨ ∃ m, e.moved? t m = some e'

namespace Entry

/-- How the population index knows an entry. -/
def member {F : Type} (e : Entry F) : Population × AgentId := (e.population, e.id)

variable {F : Type} [Scalar F] [Trig F] {t : Terrain F} {e e' : Entry F} {m : Motion F}

theorem Becomes.member_eq (becomes : e.Becomes t e') : e'.member = e.member := by
  rcases becomes with rfl | ⟨m, moved⟩
  · rfl
  · rw [moved?] at moved
    split at moved
    · cases moved
    · cases moved
      rfl

theorem Becomes.id_eq (becomes : e.Becomes t e') : e'.id = e.id :=
  congrArg Prod.snd becomes.member_eq

end Entry

namespace Space
variable {F : Type} {s s' : Space F} {id : AgentId} {e e' : Entry F}

def ids (s : Space F) : List AgentId := s.entries.toList.map (·.id)

def members (s : Space F) : List (Population × AgentId) :=
  s.entries.toList.map Entry.member

theorem ids_eq_map (s : Space F) : s.ids = s.members.map Prod.snd := by
  rw [ids, members, List.map_map]
  rfl

/-- The table of places and the population index are those of the entries. -/
structure WellFormed (s : Space F) : Prop where
  slots : Indexes s.slots s.ids
  populations : s.populations.Lists s.members

theorem empty_wellFormed (t : Terrain F) : (empty t).WellFormed :=
  ⟨Indexes.empty, PopulationIndex.Lists.empty⟩

theorem getElem?_ids (i : Nat) : s.ids[i]? = s.entries[i]?.map (·.id) := by
  rw [ids, List.getElem?_map, Array.getElem?_toList]

theorem mem_ids : id ∈ s.ids ↔ ∃ e ∈ s.entries, e.id = id := by
  simp [ids]

namespace WellFormed

theorem contains_eq (wf : s.WellFormed) : s.contains id = decide (id ∈ s.ids) :=
  wf.slots.contains_eq

theorem find?_eq_some (wf : s.WellFormed) {slot : Nat} (found : s.find? id = some (slot, e)) :
    s.entries[slot]? = some e ∧ e.id = id := by
  simp only [find?, Option.pure_def, Option.bind_eq_bind, Option.bind_eq_some_iff,
    Option.some.injEq, Prod.mk.injEq] at found
  obtain ⟨i, place, entry, there, rfl, rfl⟩ := found
  have known := (wf.slots id i).mp place
  rw [getElem?_ids, there] at known
  exact ⟨there, Option.some.inj known⟩

theorem find?_eq_none (wf : s.WellFormed) : s.find? id = none ↔ id ∉ s.ids := by
  constructor
  · intro missing among
    obtain ⟨i, there⟩ := List.mem_iff_getElem?.mp among
    have place := (wf.slots id i).mpr there
    rw [getElem?_ids, Option.map_eq_some_iff] at there
    obtain ⟨e, entry, -⟩ := there
    simp [find?, place, entry] at missing
  · intro absent
    have missing := wf.slots.getElem?_eq_none absent
    simp [find?, missing]

/-- An id names one entry. -/
theorem unique (wf : s.WellFormed) (first : e ∈ s.entries) (second : e' ∈ s.entries)
    (same : e.id = e'.id) : e = e' :=
  List.inj_on_of_nodup_map wf.slots.nodup (Array.mem_toList_iff.mpr first)
    (Array.mem_toList_iff.mpr second) same

/-- Only ids, populations, the table and the index matter. -/
theorem of_same (wf : s.WellFormed)
    (members : s'.members = s.members)
    (slots : s'.slots = s.slots) (populations : s'.populations = s.populations) :
    s'.WellFormed := by
  have ids : s'.ids = s.ids := by rw [ids_eq_map, ids_eq_map, members]
  exact ⟨by rw [slots, ids]; exact wf.slots, by rw [populations, members]; exact wf.populations⟩

end WellFormed

/-- The population index names an object under the population of its entry. -/
theorem WellFormed.populations_contain (wf : s.WellFormed) (p : Population) (id : AgentId) :
    s.populations.contains p id = true ↔ ∃ e ∈ s.entries, e.id = id ∧ e.population = p := by
  rw [wf.populations.contains_iff, members, List.mem_map]
  simp only [Entry.member, Prod.mk.injEq, Array.mem_toList_iff]
  exact exists_congr fun e => and_congr_right fun _ => and_comm

/-! Inserting and removing. -/

/-- What a successful insertion checked and did. -/
theorem insert_eq_ok (inserted : s.insert e = .ok s') :
    s.contains e.id = false ∧ s.terrain.contains e.projection.position = true ∧
      s' = { s with
        entries := s.entries.push e
        slots := s.slots.insert e.id s.entries.size
        populations := s.populations.insert e.population e.id
        index := s.index.invalidate } := by
  rw [insert] at inserted
  split at inserted
  · cases inserted
  · rename_i fresh
    split at inserted
    · cases inserted
    · rename_i inside
      exact ⟨by simpa using fresh, by simpa using inside, (Except.ok.inj inserted).symm⟩

/-- What a refused insertion found; a duplicate is reported first. -/
theorem insert_eq_error {x : StoreError F} (refused : s.insert e = .error x) :
    s.contains e.id = true ∧ x = .duplicate e.id ∨
      s.contains e.id = false ∧ s.terrain.contains e.projection.position = false ∧
        x = .outside e.id e.projection.position := by
  rw [insert] at refused
  split at refused
  · rename_i stored
    exact .inl ⟨stored, (Except.error.inj refused).symm⟩
  · rename_i fresh
    split at refused
    · rename_i outside
      exact .inr ⟨by simpa using fresh, by simpa using outside, (Except.error.inj refused).symm⟩
    · cases refused

theorem WellFormed.insert (wf : s.WellFormed) (inserted : s.insert e = .ok s') :
    s'.WellFormed := by
  obtain ⟨absent, -, rfl⟩ := insert_eq_ok inserted
  rw [wf.contains_eq, decide_eq_false_iff_not] at absent
  constructor
  · have pushed := wf.slots.push absent
    simpa [ids] using pushed
  · have fresh : (e.population, e.id) ∉ s.members := by
      intro among
      apply absent
      obtain ⟨other, stored, same⟩ := List.mem_map.mp among
      exact List.mem_map.mpr ⟨other, stored, (Prod.mk.inj same).2⟩
    have inserted := wf.populations.insert fresh
    apply inserted.perm
    simpa [members, Entry.member] using (List.perm_append_singleton e.member s.members).symm

theorem swap_perm {α : Type} {xs : List α} {i : Nat} {x last : α} (there : xs[i]? = some x)
    (ends : xs.getLast? = some last) : xs.Perm (x :: (xs.set i last).dropLast) := by
  obtain ⟨front, rfl⟩ := List.getLast?_eq_some_iff.mp ends
  rcases Nat.lt_or_ge i front.length with inner | outer
  · rw [List.getElem?_append_left inner] at there
    obtain ⟨bound, value⟩ := List.getElem?_eq_some_iff.mp there
    rw [List.set_append_left i last inner, List.dropLast_concat]
    have taken : (x :: front.eraseIdx i).Perm front := value ▸ List.getElem_cons_eraseIdx_perm bound
    calc front ++ [last]
      _ |>.Perm (last :: front) := List.perm_append_singleton last front
      _ |>.Perm (last :: x :: front.eraseIdx i) := taken.symm.cons last
      _ |>.Perm (x :: last :: front.eraseIdx i) := .swap x last _
      _ |>.Perm (x :: front.set i last) := (List.set_perm_cons_eraseIdx bound last).symm.cons x
  · have bound := (List.getElem?_eq_some_iff.mp there).1
    rw [List.length_append, List.length_singleton] at bound
    have final : i = front.length := by omega
    subst final
    rw [List.getElem?_concat_length] at there
    obtain rfl := Option.some.inj there
    simp

/-- What a successful removal took away, and what the last entry did. -/
theorem remove_eq_ok (removed : s.remove id = .ok (e, s')) :
    ∃ slot last, s.find? id = some (slot, e) ∧ s.entries.back? = some last ∧
      s' = { s with
        entries := (s.entries.setIfInBounds slot last).pop
        slots :=
          match (s.entries.setIfInBounds slot last).pop[slot]? with
          | some filler => (s.slots.erase id).insert filler.id slot
          | none => s.slots.erase id
        populations := s.populations.erase e.population id
        index := s.index.invalidate } := by
  rw [remove] at removed
  split at removed
  · cases removed
  · rename_i slot entry found
    cases final : s.entries.back? with
    | none =>
      have blank : s.entries = #[] := Array.back?_eq_none_iff.mp final
      simp [find?, blank] at found
    | some last =>
      simp only [final, Except.ok.injEq, Prod.mk.injEq] at removed
      obtain ⟨rfl, rfl⟩ := removed
      exact ⟨slot, last, found, rfl, rfl⟩

theorem remove_eq_error {x : StoreError F} (refused : s.remove id = .error x) :
    s.find? id = none ∧ x = .unknown id := by
  rw [remove] at refused
  split at refused
  · rename_i missing
    exact ⟨missing, (Except.error.inj refused).symm⟩
  · cases refused

theorem WellFormed.remove (wf : s.WellFormed) (removed : s.remove id = .ok (e, s')) :
    s'.WellFormed := by
  obtain ⟨slot, last, found, final, rfl⟩ := remove_eq_ok removed
  obtain ⟨there, rfl⟩ := wf.find?_eq_some found
  rw [← Array.getElem?_toList] at there
  rw [← Array.getLast?_toList] at final
  have rest : ((s.entries.setIfInBounds slot last).pop).toList =
      (s.entries.toList.set slot last).dropLast := by simp
  constructor
  · have held : s.ids[slot]? = some e.id := by
      rw [ids, List.getElem?_map, there]
      rfl
    have ends : s.ids.getLast? = some last.id := by
      rw [ids, List.getLast?_map, final]
      rfl
    have swapped := wf.slots.swapRemove held ends
    have kept : (s.ids.set slot last.id).dropLast =
        ((s.entries.setIfInBounds slot last).pop).toList.map (·.id) := by
      rw [rest, ids, ← List.map_set, List.map_dropLast]
    rw [kept] at swapped
    refine Eq.mp ?_ swapped
    congr 1
    rw [List.getElem?_map, Array.getElem?_toList]
    cases ((s.entries.setIfInBounds slot last).pop)[slot]? <;> rfl
  · have erased := (wf.populations.perm ((swap_perm there final).map Entry.member)).erase
    rwa [← rest] at erased

theorem WellFormed.removeIf (wf : s.WellFormed) (doomed : Entry F → Bool) :
    (s.removeIf doomed).2.WellFormed := by
  unfold Space.removeIf
  dsimp only
  split
  · exact wf
  · constructor
    · have sublist := (List.filter_sublist (p := fun e => !doomed e)
        (l := s.entries.toList)).map (·.id)
      exact Indexes.number _ _ (wf.slots.nodup.sublist sublist)
    · have parts := ((List.filter_append_perm doomed s.entries.toList).map
        Entry.member).symm
      rw [List.map_append] at parts
      have erased := (wf.populations.perm parts).eraseAll
      rwa [List.foldl_map] at erased

theorem removeIf_entries (doomed : Entry F → Bool) :
    (s.removeIf doomed).2.entries.toList = s.entries.toList.filter fun e => !doomed e := by
  unfold removeIf
  dsimp only
  split
  · rename_i none
    rw [List.isEmpty_iff, List.filter_eq_nil_iff] at none
    exact (List.filter_eq_self.mpr fun e stored => by simpa using none e stored).symm
  · rfl

theorem removeIf_fst (doomed : Entry F → Bool) :
    (s.removeIf doomed).1 = s.entries.toList.countP doomed := by
  unfold removeIf
  dsimp only
  split
  · rename_i none
    rw [List.isEmpty_iff] at none
    rw [List.countP_eq_length_filter, none]
    rfl
  · exact List.countP_eq_length_filter.symm

/-! Moving. -/

section
variable [Scalar F] [Trig F] {m : Motion F}

theorem moveEntry_becomes (t : Terrain F) (motionOf : AgentId → Option (Motion F)) (e : Entry F) :
    e.Becomes t (moveEntry t motionOf e).1 := by
  rw [moveEntry]
  split
  · rename_i e' moved
    obtain ⟨m, -, moved⟩ := Option.bind_eq_some_iff.mp moved
    exact .inr ⟨m, moved⟩
  · exact .inl rfl

/-- Cutting into chunks does not show in the entries. -/
theorem moveAll_entries (chunkSize : Nat) (motionOf : AgentId → Option (Motion F)) :
    (s.moveAll chunkSize motionOf).2.entries.toList =
      s.entries.toList.map fun e => (moveEntry s.terrain motionOf e).1 := by
  have flat := chunks_flatten chunkSize s.entries.toList
  simp only [moveAll, moveChunk, List.flatMap_map, List.map_map]
  conv_rhs => rw [← flat]
  rw [List.map_flatten, List.flatMap_def]
  rfl

/-- The counts of the chunks add up to the number of entries set in motion. -/
theorem moveAll_fst (chunkSize : Nat) (motionOf : AgentId → Option (Motion F)) :
    (s.moveAll chunkSize motionOf).1 =
      s.entries.toList.countP fun e => (moveEntry s.terrain motionOf e).2 := by
  conv_rhs => rw [← chunks_flatten chunkSize s.entries.toList]
  rw [List.countP_flatten, List.sum_eq_foldl, List.foldl_map]
  simp only [moveAll, moveChunk, List.foldl_map, List.countP_map]
  rfl

/-- Moves every object that has a motion, one after the other. -/
def moveEach (s : Space F) (motionOf : AgentId → Option (Motion F)) : Nat × Space F :=
  let moves := s.entries.toList.map (moveEntry s.terrain motionOf)
  let total := moves.countP (·.2)
  (total, { s with
    entries := (moves.map (·.1)).toArray
    index := if total = 0 then s.index else s.index.invalidate })

/-- Cutting into chunks does not show at all. -/
theorem moveAll_eq (chunkSize : Nat) (motionOf : AgentId → Option (Motion F)) :
    s.moveAll chunkSize motionOf = s.moveEach motionOf := by
  have total : (s.moveAll chunkSize motionOf).1 = (s.moveEach motionOf).1 := by
    rw [moveAll_fst, moveEach, List.countP_map]
    rfl
  have entries : (s.moveAll chunkSize motionOf).2.entries = (s.moveEach motionOf).2.entries := by
    apply Array.toList_inj.mp
    rw [moveAll_entries, moveEach, List.map_map]
    rfl
  have whole : s.moveAll chunkSize motionOf =
      ((s.moveAll chunkSize motionOf).1, { s with
        entries := (s.moveAll chunkSize motionOf).2.entries
        index := if (s.moveAll chunkSize motionOf).1 = 0 then s.index else s.index.invalidate }) :=
    rfl
  rw [whole, total, entries]
  rfl

theorem moveEntry_unmoved {t : Terrain F} {motionOf : AgentId → Option (Motion F)}
    (unmoved : (moveEntry t motionOf e).2 = false) : (moveEntry t motionOf e).1 = e := by
  rw [moveEntry] at unmoved ⊢
  split at unmoved
  · cases unmoved
  · rfl

/-- Where nothing is set in motion the entries stay as they are. -/
theorem moveAll_unmoved {chunkSize : Nat} {motionOf : AgentId → Option (Motion F)}
    (unmoved : (s.moveAll chunkSize motionOf).1 = 0) :
    (s.moveAll chunkSize motionOf).2.entries = s.entries := by
  rw [moveAll_fst, List.countP_eq_zero] at unmoved
  apply Array.toList_inj.mp
  rw [moveAll_entries]
  conv_rhs => rw [← List.map_id s.entries.toList]
  apply List.map_congr_left
  intro e stored
  exact moveEntry_unmoved (by simpa using unmoved e stored)

theorem moveAll_members (chunkSize : Nat) (motionOf : AgentId → Option (Motion F)) :
    (s.moveAll chunkSize motionOf).2.members = s.members := by
  rw [members, moveAll_entries, List.map_map]
  apply List.map_congr_left
  intro e _
  exact (moveEntry_becomes s.terrain motionOf e).member_eq

theorem WellFormed.moveAll (wf : s.WellFormed) (chunkSize : Nat)
    (motionOf : AgentId → Option (Motion F)) : (s.moveAll chunkSize motionOf).2.WellFormed :=
  wf.of_same (moveAll_members chunkSize motionOf) rfl rfl

/-- What a motion of one object does to the store. -/
theorem moveObject_eq_ok {p : Projection F} (moved : s.moveObject id m = .ok (p, s')) :
    ∃ slot e, s.find? id = some (slot, e) ∧
      (e.moved? s.terrain m = none ∧ s' = s ∨
        ∃ e', e.moved? s.terrain m = some e' ∧ s' = { s with
          entries := s.entries.setIfInBounds slot e'
          index := s.index.invalidate }) := by
  rw [moveObject] at moved
  split at moved
  · cases moved
  · rename_i slot e found
    refine ⟨slot, e, found, ?_⟩
    split at moved
    · rename_i still
      cases moved
      exact .inl ⟨still, rfl⟩
    · rename_i e' way
      cases moved
      exact .inr ⟨e', way, rfl⟩

theorem moveObject_eq_error {x : StoreError F} (refused : s.moveObject id m = .error x) :
    s.find? id = none ∧ x = .unknown id := by
  rw [moveObject] at refused
  split at refused
  · rename_i missing
    exact ⟨missing, (Except.error.inj refused).symm⟩
  · split at refused
    · cases refused
    · cases refused

theorem WellFormed.moveObject (wf : s.WellFormed) {p : Projection F}
    (moved : s.moveObject id m = .ok (p, s')) : s'.WellFormed := by
  obtain ⟨slot, e, found, ⟨-, rfl⟩ | ⟨e', way, rfl⟩⟩ := moveObject_eq_ok moved
  · exact wf
  · refine wf.of_same ?_ rfl rfl
    obtain ⟨there, -⟩ := wf.find?_eq_some found
    rw [← Array.getElem?_toList] at there
    obtain ⟨bound, value⟩ := List.getElem?_eq_some_iff.mp there
    have same : e'.member = e.member := Entry.Becomes.member_eq (.inr ⟨m, way⟩)
    rw [members, Array.toList_setIfInBounds, List.map_set, same, ← value, ← List.map_set,
      List.set_getElem_self]
    rfl

end
end Space
end Vivarium
