import Vivarium.Proofs.Sim.Consistent

/-! Births. A request that is admitted is carried out without fail as long as ids are left, because the
next id is fresh in every store. -/
namespace Vivarium.Sim
variable {σ μ η : Type} {s s' s'' : Sim σ μ η} {a : Addition σ μ η}
  {additions : List (Addition σ μ η)} {e : SimError} {id : AgentId} {now : Step} {n : Nat}

/-! Checking. -/

/-- The population is known and the position lies in the grid. -/
def Admits (s : Sim σ μ η) (a : Addition σ μ η) : Prop :=
  s.pool.contains a.population = true ∧
    s.space.terrain.contains a.projection.position = true

/-- What is said of a request that is not admitted; the population comes first. -/
def refusal (s : Sim σ μ η) (a : Addition σ μ η) : SimError :=
  if s.pool.contains a.population then .outside a.population a.projection.position
  else .unknownPopulation a.population

theorem validateAddition_eq_ok : s.validateAddition a = .ok () ↔ s.Admits a := by
  simp only [validateAddition, Admits]
  cases s.pool.contains a.population <;>
    cases s.space.terrain.contains a.projection.position <;> simp

theorem validateAddition_eq_error :
    s.validateAddition a = .error e ↔ ¬s.Admits a ∧ e = s.refusal a := by
  simp only [validateAddition, Admits, refusal]
  cases s.pool.contains a.population <;>
    cases s.space.terrain.contains a.projection.position <;> simp [eq_comm]

theorem validateAll_eq_ok :
    s.validateAll additions = .ok () ↔ ∀ a ∈ additions, s.Admits a := by
  induction additions with
  | nil => simp [validateAll]
  | cons a rest ih =>
    rw [List.forall_mem_cons, ← ih, ← validateAddition_eq_ok]
    simp only [validateAll]
    rcases s.validateAddition a with e | ⟨⟨⟩⟩ <;> simp

/-- The first request that is not admitted is reported. -/
theorem validateAll_eq_error :
    s.validateAll additions = .error e ↔
      ∃ before a rest, additions = before ++ a :: rest ∧ (∀ b ∈ before, s.Admits b) ∧
        ¬s.Admits a ∧ e = s.refusal a := by
  constructor
  · intro refused
    induction additions with
    | nil => cases refused
    | cons a rest ih =>
      simp only [validateAll] at refused
      split at refused
      · rename_i here
        cases refused
        obtain ⟨bad, named⟩ := validateAddition_eq_error.mp here
        exact ⟨[], a, rest, rfl, by simp, bad, named⟩
      · rename_i good
        obtain ⟨before, b, others, rfl, admitted, bad, named⟩ := ih refused
        refine ⟨a :: before, b, others, rfl, ?_, bad, named⟩
        rw [List.forall_mem_cons]
        exact ⟨validateAddition_eq_ok.mp good, admitted⟩
  · rintro ⟨before, a, rest, rfl, admitted, bad, rfl⟩
    induction before with
    | nil =>
      have refused := validateAddition_eq_error.mpr ⟨bad, rfl⟩
      simp only [List.nil_append, validateAll, refused]
    | cons b before ih =>
      rw [List.forall_mem_cons] at admitted
      have good := validateAddition_eq_ok.mpr admitted.1
      simp only [List.cons_append, validateAll, good]
      exact ih admitted.2

theorem ensureIds_eq_ok : s.ensureIds n = .ok () ↔ n ≤ s.nextId.remaining := by
  rw [ensureIds]
  split
  · simp only [reduceCtorEq, false_iff]
    omega
  · simp only [true_iff]
    omega

theorem ensureIds_eq_error :
    s.ensureIds n = .error e ↔ s.nextId.remaining < n ∧ e = .idsExhausted := by
  rw [ensureIds]
  split
  · rename_i short
    simp only [Except.error.injEq, short, true_and]
    exact eq_comm
  · rename_i enough
    simp [enough]

/-! What no operation changes. -/

structure Keeps (s s' : Sim σ μ η) : Prop where
  config : s'.config = s.config
  behavior : s'.behavior = s.behavior
  terrain : s'.space.terrain = s.space.terrain
  patterns : ∀ p, s'.pool.pattern? p = s.pool.pattern? p

namespace Keeps

theorem refl (s : Sim σ μ η) : s.Keeps s := ⟨rfl, rfl, rfl, fun _ => rfl⟩

theorem trans (first : s.Keeps s') (second : s'.Keeps s'') : s.Keeps s'' where
  config := second.config.trans first.config
  behavior := second.behavior.trans first.behavior
  terrain := second.terrain.trans first.terrain
  patterns p := (second.patterns p).trans (first.patterns p)

theorem known (keeps : s.Keeps s') (p : Population) : s'.pool.contains p = s.pool.contains p :=
  Pool.contains_congr (keeps.patterns p)

theorem admits_iff (keeps : s.Keeps s') : s'.Admits a ↔ s.Admits a := by
  rw [Admits, Admits, keeps.known, keeps.terrain]

end Keeps

/-! Activating. -/

theorem raise_rewritten (b : Behavior σ μ η) (a : Addition σ μ η) (newborn : Agent σ μ) :
    newborn.Rewritten (raise b a newborn) := by
  rw [raise]
  split <;> split <;> exact ⟨_, rfl⟩

/-- What an activation took from the pool, and what it put into the stores. -/
theorem activate_eq_ok (activated : s.activate a now = (.ok id, s')) :
    ∃ storage pool space, s.pool.borrow a.population = .ok (storage, pool) ∧
      s.space.insert ⟨id, a.population, a.projection⟩ = .ok space ∧
      id = s.nextId ∧ id ≠ .invalid ∧
      s' = { s with
        pool
        space
        nextId := id.next?.getD .invalid
        slots := s.slots.insert id s.agents.size
        agents := s.agents.push (raise s.behavior a (storage.activate id now s.config.seed))
        journal := s.journal.push (.created now id a.population) } := by
  rw [activate] at activated
  split at activated
  · cases activated
  · rename_i storage pool borrowed
    simp only [allocateId] at activated
    split at activated
    · cases activated
    · rename_i id' next allocated
      split at allocated
      · cases allocated
      · rename_i valid
        cases allocated
        split at activated
        · cases activated
        · rename_i space inserted
          cases activated
          exact ⟨storage, pool, space, borrowed, inserted, rfl, valid, rfl⟩

theorem activate_keeps (activated : s.activate a now = (.ok id, s')) : s.Keeps s' := by
  obtain ⟨storage, pool, space, borrowed, inserted, -, -, rfl⟩ := activate_eq_ok activated
  obtain ⟨-, -, rfl⟩ := Space.insert_eq_ok inserted
  exact ⟨rfl, rfl, rfl, fun p => Pool.borrow_pattern? borrowed⟩

theorem activate_nextId (activated : s.activate a now = (.ok id, s')) :
    s'.nextId.index = s.nextId.index + 1 := by
  obtain ⟨-, -, -, -, -, rfl, valid, rfl⟩ := activate_eq_ok activated
  exact AgentId.next?_index valid

/-- One agent more, and it is new in every store. -/
theorem Consistent.activate_identities (consistent : s.Consistent)
    (activated : s.activate a now = (.ok id, s')) :
    ∃ n, s'.identities = s.identities ++ [⟨s.nextId, a.population, true, now, n⟩] := by
  obtain ⟨storage, pool, space, borrowed, -, rfl, -, rfl⟩ := activate_eq_ok activated
  obtain ⟨state, n, -, rfl⟩ := consistent.pool.borrowed borrowed
  refine ⟨n, ?_⟩
  simp only [identities, Array.toList_push, List.map_append, List.map_cons, List.map_nil,
    (raise_rewritten _ _ _).identity_eq]
  rfl

theorem Consistent.activate_ids (consistent : s.Consistent)
    (activated : s.activate a now = (.ok id, s')) : s'.ids = s.ids ++ [s.nextId] := by
  obtain ⟨n, identities⟩ := consistent.activate_identities activated
  rw [ids_eq_map, ids_eq_map, identities, List.map_append]
  rfl

theorem Consistent.activate (consistent : s.Consistent)
    (activated : s.activate a now = (.ok id, s')) : s'.Consistent := by
  obtain ⟨n, identities⟩ := consistent.activate_identities activated
  have ids := consistent.activate_ids activated
  have known := (activate_keeps activated).known
  have next := activate_nextId activated
  obtain ⟨storage, pool, space, borrowed, inserted, rfl, valid, updated⟩ :=
    activate_eq_ok activated
  constructor
  case ascending =>
    rw [ids, List.pairwise_append]
    refine ⟨consistent.ascending, List.pairwise_singleton _ _, ?_⟩
    intro old among new last
    rw [List.mem_singleton.mp last]
    exact consistent.below old among
  case below =>
    intro id among
    rw [ids, List.mem_append, List.mem_singleton] at among
    rcases among with old | rfl
    · have under := consistent.below id old
      omega
    · omega
  case slots =>
    rw [ids, updated]
    have pushed := consistent.slots.push consistent.fresh
    rwa [Sim.ids, List.length_map, Array.length_toList] at pushed
  case active =>
    apply (forall_agents (·.active = true)).mpr
    rw [identities, List.forall_mem_append, List.forall_mem_singleton]
    exact ⟨(forall_agents (·.active = true)).mp consistent.active, rfl⟩
  case registered =>
    have here : s.pool.contains a.population = true := by
      obtain ⟨b, bucket, -⟩ := Pool.borrow_eq_ok borrowed
      exact Pool.contains_iff.mpr ⟨b, bucket⟩
    simp only [known]
    apply (forall_agents (s.pool.contains ·.population = true)).mpr
    rw [identities, List.forall_mem_append, List.forall_mem_singleton]
    exact ⟨(forall_agents (s.pool.contains ·.population = true)).mp consistent.registered, here⟩
  case members =>
    rw [members_eq_map, identities, List.map_append, ← members_eq_map, ← consistent.members, updated]
    obtain ⟨-, -, rfl⟩ := Space.insert_eq_ok inserted
    simp [Space.members, Entry.member]
  case space =>
    rw [updated]
    exact consistent.space.insert inserted
  case pool =>
    rw [updated]
    exact consistent.pool.borrow borrowed

/-- An admitted request cannot fail while an id is left. -/
theorem Consistent.activate_succeeds (consistent : s.Consistent) (admitted : s.Admits a)
    (left : s.nextId ≠ .invalid) (now : Step) :
    ∃ s', s.activate a now = (.ok s.nextId, s') := by
  obtain ⟨known, inside⟩ := admitted
  obtain ⟨storage, pool, borrowed⟩ := Pool.borrow_of_contains known
  have unused : s.space.contains s.nextId = false := by
    rw [consistent.space.contains_eq, consistent.ids_eq]
    exact decide_eq_false consistent.fresh
  have inserted : ∃ space,
      s.space.insert ⟨s.nextId, a.population, a.projection⟩ = .ok space := by
    simp [Space.insert, unused, inside]
  obtain ⟨space, inserted⟩ := inserted
  simp only [Sim.activate, borrowed, allocateId, if_neg left, inserted]
  exact ⟨_, rfl⟩

theorem activateAll_cons (activated : activateAll now (a :: additions) s = (.ok (), s'')) :
    ∃ id s', s.activate a now = (.ok id, s') ∧ activateAll now additions s' = (.ok (), s'') := by
  simp only [activateAll] at activated
  split at activated
  · cases activated
  · rename_i id s' first
    exact ⟨id, s', first, activated⟩

/-- Admitted requests cannot fail while there are ids for all of them. -/
theorem Consistent.activateAll_succeeds (consistent : s.Consistent)
    (admitted : ∀ a ∈ additions, s.Admits a) (left : additions.length ≤ s.nextId.remaining)
    (now : Step) : ∃ s', activateAll now additions s = (.ok (), s') := by
  induction additions generalizing s with
  | nil => exact ⟨s, rfl⟩
  | cons a rest ih =>
    rw [List.forall_mem_cons] at admitted
    rw [List.length_cons] at left
    have valid : s.nextId ≠ .invalid := AgentId.remaining_pos.mp (by omega)
    obtain ⟨s', first⟩ := consistent.activate_succeeds admitted.1 valid now
    have keeps := activate_keeps first
    have next := activate_nextId first
    obtain ⟨s'', others⟩ := ih (consistent.activate first)
      (fun b among => keeps.admits_iff.mpr (admitted.2 b among))
      (by unfold AgentId.remaining at left ⊢; omega)
    refine ⟨s'', ?_⟩
    simp only [activateAll, first, others]

end Vivarium.Sim
