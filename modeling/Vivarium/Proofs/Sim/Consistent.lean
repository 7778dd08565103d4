import Vivarium.Proofs.Agent.Pool
import Vivarium.Proofs.Behavior.Acts
import Vivarium.Proofs.Space.Store
import Vivarium.Sim.Step

/-! The stores of a simulation describe the same agents. The list of agents with its table, the store
of objects with its own table, and the pool are written by separate code; what they have in common is
one invariant. Behaviours cannot touch it, because it reads of an agent only what its behaviour may
not write. -/
namespace Vivarium

namespace AgentId

theorem index_le_invalid (a : AgentId) : a.index ≤ invalid.index := Nat.le_of_lt_succ a.val.toNat_lt

theorem ext_index {a b : AgentId} (same : a.index = b.index) : a = b := by
  cases a
  cases b
  exact congrArg AgentId.mk (UInt32.toNat_inj.mp same)

theorem ne_invalid_of_lt {a b : AgentId} (less : a.index < b.index) : a ≠ invalid := by
  rintro rfl
  exact absurd b.index_le_invalid (by omega)

theorem remaining_pos {a : AgentId} : 0 < a.remaining ↔ a ≠ invalid := by
  constructor
  · intro left
    exact ne_invalid_of_lt (Nat.lt_of_sub_pos left)
  · intro valid
    have different : a.index ≠ invalid.index := by
      intro same
      exact valid (ext_index same)
    have bound := a.index_le_invalid
    rw [remaining]
    omega

/-- The allocator counts up by one, to the invalid id at last. -/
theorem next?_index {a : AgentId} (valid : a ≠ invalid) :
    (a.next?.getD invalid).index = a.index + 1 := by
  have left := remaining_pos.mpr valid
  rw [remaining] at left
  rw [next?]
  split
  · rename_i more
    have word : a.index + 1 < 2 ^ 32 := Nat.lt_trans more (by decide)
    exact (UInt32.toNat_add a.val 1).trans (Nat.mod_eq_of_lt word)
  · show invalid.index = _
    omega

end AgentId

/-- What of an agent only the simulation writes, its inbox apart. -/
structure Agent.Identity where
  id : AgentId
  population : Population
  active : Bool
  birthStep : Step
  incarnation : Nat

namespace Agent
variable {σ μ : Type} {a a' : Agent σ μ} {agents agents' : List (Agent σ μ)}

def identity (a : Agent σ μ) : Identity :=
  ⟨a.id, a.population, a.active, a.birthStep, a.incarnation⟩

/-- How the store of objects knows an agent. -/
def member (a : Agent σ μ) : Population × AgentId := (a.population, a.id)

theorem Rewritten.identity_eq (rewritten : a.Rewritten a') : a'.identity = a.identity := by
  obtain ⟨body, rfl⟩ := rewritten
  rfl

theorem identities_eq (rewritten : List.Forall₂ Rewritten agents agents') :
    agents'.map identity = agents.map identity := by
  induction rewritten with
  | nil => rfl
  | cons head tail ih => rw [List.map_cons, List.map_cons, head.identity_eq, ih]

theorem ids_eq (rewritten : List.Forall₂ Rewritten agents agents') :
    agents'.map (·.id) = agents.map (·.id) := by
  have ids := congrArg (List.map Identity.id) (identities_eq rewritten)
  rwa [List.map_map, List.map_map] at ids

end Agent

namespace Sim
variable {σ μ η : Type} {s s' : Sim σ μ η} {a : Agent σ μ}

def ids (s : Sim σ μ η) : List AgentId := s.agents.toList.map (·.id)

def identities (s : Sim σ μ η) : List Agent.Identity := s.agents.toList.map Agent.identity

/-- All stores agree on who lives. -/
structure Consistent (s : Sim σ μ η) : Prop where
  ascending : s.ids.Pairwise (·.index < ·.index)
  below : ∀ id ∈ s.ids, id.index < s.nextId.index
  slots : Indexes s.slots s.ids
  active : ∀ a ∈ s.agents, a.active = true
  registered : ∀ a ∈ s.agents, s.pool.contains a.population = true
  members : s.space.members = s.agents.toList.map Agent.member
  space : s.space.WellFormed
  pool : s.pool.Stocked

theorem mem_ids (stored : a ∈ s.agents) : a.id ∈ s.ids :=
  List.mem_map.mpr ⟨a, Array.mem_toList_iff.mpr stored, rfl⟩

theorem mem_identities {i : Agent.Identity} :
    i ∈ s.identities ↔ ∃ a ∈ s.agents, a.identity = i := by
  simp [identities]

theorem ids_eq_map (s : Sim σ μ η) : s.ids = s.identities.map (·.id) := by
  rw [ids, identities, List.map_map]
  rfl

theorem members_eq_map (s : Sim σ μ η) :
    s.agents.toList.map Agent.member = s.identities.map fun i => (i.population, i.id) := by
  rw [identities, List.map_map]
  rfl

/-- What agents have is seen from their identities. -/
theorem forall_agents (P : Agent.Identity → Prop) :
    (∀ a ∈ s.agents, P a.identity) ↔ ∀ i ∈ s.identities, P i := by
  simp [identities]

namespace Consistent

/-- Bodies and inboxes do not matter, and of the pool only the prototypes. -/
theorem of_same (consistent : s.Consistent) (agents : s'.identities = s.identities)
    (slots : s'.slots = s.slots) (next : s'.nextId = s.nextId)
    (members : s'.space.members = s.space.members) (space : s'.space.WellFormed)
    (pool : s'.pool.Stocked) (patterns : ∀ p, s'.pool.pattern? p = s.pool.pattern? p) :
    s'.Consistent where
  ascending := by
    rw [ids_eq_map, agents, ← ids_eq_map]
    exact consistent.ascending
  below := by
    rw [ids_eq_map, agents, ← ids_eq_map, next]
    exact consistent.below
  slots := by
    rw [ids_eq_map, agents, ← ids_eq_map, slots]
    exact consistent.slots
  active := by
    have before := (forall_agents (·.active = true)).mp consistent.active
    rw [← agents] at before
    exact (forall_agents (·.active = true)).mpr before
  registered := by
    have before := (forall_agents (s.pool.contains ·.population = true)).mp consistent.registered
    rw [← agents] at before
    simp only [Pool.contains_congr (patterns _)]
    exact (forall_agents (s.pool.contains ·.population = true)).mpr before
  members := by rw [members, members_eq_map, agents, ← members_eq_map, consistent.members]
  space := space
  pool := pool

theorem ids_eq (consistent : s.Consistent) : s.space.ids = s.ids := by
  rw [Space.ids_eq_map, consistent.members, List.map_map]
  rfl

theorem valid (consistent : s.Consistent) (stored : a ∈ s.agents) : a.id ≠ .invalid :=
  AgentId.ne_invalid_of_lt (consistent.below a.id (mem_ids stored))

/-- The next id is not in use. -/
theorem fresh (consistent : s.Consistent) : s.nextId ∉ s.ids := by
  intro used
  have below := consistent.below _ used
  exact Nat.lt_irrefl _ below

theorem slot_contains (consistent : s.Consistent) (stored : a ∈ s.agents) :
    s.slots.contains a.id = true := by
  rw [consistent.slots.contains_eq]
  exact decide_eq_true (mem_ids stored)

theorem agent?_eq_some {id : AgentId} (consistent : s.Consistent) :
    s.agent? id = some a ↔ a ∈ s.agents ∧ a.id = id := by
  have known : ∀ i, s.slots[id]? = some i ↔ s.agents[i]?.map (·.id) = some id := by
    intro i
    rw [consistent.slots id i, ids, List.getElem?_map, Array.getElem?_toList]
  simp only [agent?, Option.bind_eq_bind, Option.bind_eq_some_iff, known]
  constructor
  · rintro ⟨i, named, there⟩
    rw [there] at named
    exact ⟨Array.mem_of_getElem? there, Option.some.inj named⟩
  · rintro ⟨stored, rfl⟩
    obtain ⟨i, there⟩ := Array.mem_iff_getElem?.mp stored
    exact ⟨i, by rw [there]; rfl, there⟩

theorem unique {a' : Agent σ μ} (consistent : s.Consistent) (stored : a ∈ s.agents)
    (stored' : a' ∈ s.agents) (same : a.id = a'.id) : a = a' := by
  have first := consistent.agent?_eq_some.mpr ⟨stored, same⟩
  have second := consistent.agent?_eq_some.mpr ⟨stored', rfl⟩
  exact Option.some.inj (first.symm.trans second)

/-- The population index counts agents. -/
theorem countOf_eq (consistent : s.Consistent) (p : Population) :
    s.countOf p = s.agents.toList.countP fun a => a.population = p := by
  rw [countOf, consistent.space.populations.count_eq, consistent.members, List.countP_map]
  rfl

end Consistent
end Sim
end Vivarium
