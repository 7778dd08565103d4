import Mathlib.Data.List.Nodup
import Mathlib.Data.List.Perm.Basic
import Mathlib.Data.List.Perm.Subperm
import Std.Data.TreeSet.Lemmas
import Vivarium.Space.Populations

/-! The population index as a list of members, each named with its population. Only the members
count, not their order. -/
namespace Vivarium

theorem AgentId.compare_beq_eq (a b : AgentId) : (compare a b == .eq) = decide (a = b) := by
  rw [Bool.eq_iff_iff, beq_iff_eq, Std.compare_eq_iff_eq, decide_eq_true_iff]

theorem AgentId.compare_eq_lt {a b : AgentId} : compare a b = .lt ↔ a.index < b.index := by
  show compare a.val b.val = .lt ↔ _
  rw [Std.compare_eq_lt]
  exact UInt32.lt_iff_toNat_lt

namespace PopulationIndex
variable {x : PopulationIndex} {p q : Population} {a b : AgentId}
  {members gone : List (Population × AgentId)}

theorem contains_empty : empty.contains p a = false := by
  have blank : empty.bucket p = ∅ := Std.TreeMap.getD_emptyc
  rw [contains, blank]
  rfl

theorem contains_insert :
    (x.insert p a).contains q b = (x.contains q b || decide ((p, a) = (q, b))) := by
  rw [insert]
  split
  · rename_i present
    by_cases same : (p, a) = (q, b)
    · cases same
      simp [present]
    · simp [same]
  · simp only [contains, bucket, Std.TreeMap.getD_insert, Std.compare_eq_iff_eq]
    by_cases here : p = q
    · subst here
      simp [Std.TreeSet.contains_insert, AgentId.compare_beq_eq, Bool.or_comm]
    · simp [here]

theorem contains_erase :
    (x.erase p a).contains q b = (x.contains q b && !decide ((p, a) = (q, b))) := by
  rw [erase]
  split
  · simp only [contains, bucket, Std.TreeMap.getD_insert, Std.compare_eq_iff_eq]
    by_cases here : p = q
    · subst here
      simp [Std.TreeSet.contains_erase, bne, AgentId.compare_beq_eq, Bool.and_comm]
    · simp [here]
  · rename_i absent
    by_cases same : (p, a) = (q, b)
    · cases same
      simpa using absent
    · simp [same]

theorem mem_members : a ∈ x.members p ↔ x.contains p a = true := by
  rw [members, contains, Std.TreeSet.mem_toList, Std.TreeSet.contains_iff_mem]

/-- Members are listed by their ids, however they came in. -/
theorem members_ascending (x : PopulationIndex) (p : Population) :
    (x.members p).Pairwise (·.index < ·.index) :=
  Std.TreeSet.ordered_toList.imp AgentId.compare_eq_lt.mp

theorem populations_nodup (x : PopulationIndex) : x.populations.Nodup := by
  have keys : x.buckets.keys.Nodup :=
    Std.TreeMap.distinct_keys.imp fun apart same => apart (Std.compare_eq_iff_eq.mpr same)
  rw [← Std.TreeMap.map_fst_toList_eq_keys] at keys
  exact keys.sublist (List.filter_sublist.map _)

/-- A population that has lost its last member is not listed, although its bucket stays. -/
theorem mem_populations : p ∈ x.populations ↔ ∃ a, x.contains p a = true := by
  simp only [populations, contains, bucket, List.mem_map, List.mem_filter, Prod.exists,
    Std.TreeMap.mem_toList_iff_getElem?_eq_some, Std.TreeMap.getD_eq_getD_getElem?]
  constructor
  · rintro ⟨q, members, ⟨stored, some⟩, rfl⟩
    rw [Bool.not_eq_true', Std.TreeSet.isEmpty_eq_false_iff_exists_contains_eq_true] at some
    rw [stored]
    exact some
  · rintro ⟨a, present⟩
    rcases stored : x.buckets[p]? with - | members
    · rw [stored] at present
      cases present
    · rw [stored] at present
      refine ⟨p, members, ⟨stored, ?_⟩, rfl⟩
      rw [Bool.not_eq_true', Std.TreeSet.isEmpty_eq_false_iff_exists_contains_eq_true]
      exact ⟨a, present⟩

/-- The index holds exactly the listed members. -/
structure Lists (x : PopulationIndex) (members : List (Population × AgentId)) : Prop where
  nodup : members.Nodup
  contains_iff : ∀ p a, x.contains p a = true ↔ (p, a) ∈ members
  total : x.total = members.length

namespace Lists

theorem empty : PopulationIndex.empty.Lists [] where
  nodup := .nil
  contains_iff p a := by simp [contains_empty]
  total := rfl

theorem perm (lists : x.Lists members) {others : List (Population × AgentId)}
    (same : members.Perm others) : x.Lists others where
  nodup := same.nodup_iff.mp lists.nodup
  contains_iff p a := (lists.contains_iff p a).trans same.mem_iff
  total := lists.total.trans same.length_eq

theorem insert (lists : x.Lists members) (fresh : (p, a) ∉ members) :
    (x.insert p a).Lists ((p, a) :: members) where
  nodup := List.nodup_cons.mpr ⟨fresh, lists.nodup⟩
  contains_iff q b := by
    rw [contains_insert, Bool.or_eq_true, lists.contains_iff, decide_eq_true_iff, List.mem_cons,
      or_comm, @eq_comm _ (p, a)]
  total := by
    have absent : ¬x.contains p a = true := mt (lists.contains_iff p a).mp fresh
    rw [PopulationIndex.insert, if_neg absent, List.length_cons, lists.total]

theorem erase (lists : x.Lists ((p, a) :: members)) : (x.erase p a).Lists members where
  nodup := (List.nodup_cons.mp lists.nodup).2
  contains_iff q b := by
    have absent := (List.nodup_cons.mp lists.nodup).1
    rw [contains_erase, Bool.and_eq_true, lists.contains_iff, List.mem_cons, Bool.not_eq_true',
      decide_eq_false_iff_not]
    constructor
    · rintro ⟨here | there, different⟩
      · exact absurd here.symm different
      · exact there
    · intro there
      refine ⟨.inr there, ?_⟩
      rintro ⟨⟩
      exact absent there
  total := by
    have present : x.contains p a = true := (lists.contains_iff p a).mpr List.mem_cons_self
    rw [PopulationIndex.erase, if_pos present, lists.total, List.length_cons,
      Nat.add_sub_cancel]

theorem eraseAll (lists : x.Lists (gone ++ members)) :
    (gone.foldl (fun x m => x.erase m.1 m.2) x).Lists members := by
  induction gone generalizing x with
  | nil => exact lists
  | cons m rest ih => exact ih (erase lists)

/-- A population counts as many members as the list names of it. -/
theorem count_eq (lists : x.Lists members) (p : Population) :
    x.count p = members.countP fun m => m.1 = p := by
  have distinct : (x.bucket p).toList.Nodup := by
    apply Std.TreeSet.distinct_toList.imp
    intro a b apart same
    exact apart (Std.compare_eq_iff_eq.mpr same)
  have named : ((members.filter fun m => m.1 = p).map (·.2)).Nodup := by
    refine List.Nodup.map_on ?_ (lists.nodup.filter _)
    rintro ⟨q, a⟩ first ⟨r, b⟩ second same
    simp only [List.mem_filter, decide_eq_true_eq] at first second same
    rw [first.2, second.2, same]
  have same : (x.bucket p).toList.Perm ((members.filter fun m => m.1 = p).map (·.2)) := by
    rw [List.perm_ext_iff_of_nodup distinct named]
    intro a
    have member := lists.contains_iff p a
    rw [contains, Std.TreeSet.contains_iff_mem, ← Std.TreeSet.mem_toList] at member
    rw [member]
    simp
  rw [count, ← Std.TreeSet.length_toList, same.length_eq, List.length_map, List.countP_eq_length_filter]

end Lists
end PopulationIndex
end Vivarium
