import Vivarium.Proofs.Sim.Births
import Vivarium.Proofs.Space.Lookup

/-! Newborns. Where the storage of a newborn comes from does not matter: it is the prototype of its
population, stamped and then raised as the request says. -/
namespace Vivarium.Sim
variable {σ μ η : Type} {s s' s'' : Sim σ μ η} {a : Addition σ μ η} {newborn : Agent σ μ}
  {newborns : List (Agent σ μ)} {additions : List (Addition σ μ η)} {id : AgentId} {now : Step}

/-- What a request brings to life: the prototype activated under an id, after inheriting and being
initialized. -/
structure Born (s : Sim σ μ η) (now : Step) (a : Addition σ μ η) (newborn : Agent σ μ) : Prop where
  raised : ∃ pattern n, s.pool.pattern? a.population = some pattern ∧
    newborn = raise s.behavior a
      ({ pattern with incarnation := n }.activate newborn.id now s.config.seed)
  population : newborn.population = a.population
  birthStep : newborn.birthStep = now
  inbox : newborn.inbox = []

theorem Keeps.born (keeps : s.Keeps s') (born : s'.Born now a newborn) : s.Born now a newborn := by
  obtain ⟨pattern, n, known, raised⟩ := born.raised
  rw [keeps.patterns] at known
  rw [keeps.behavior, keeps.config] at raised
  exact ⟨⟨pattern, n, known, raised⟩, born.population, born.birthStep, born.inbox⟩

/-- Newborns have no mail, and their ids were not in use. -/
theorem newborns_fresh {P : Addition σ μ η → Agent σ μ → Prop}
    (born : List.Forall₂ (fun a newborn => s.Born now a newborn ∧ P a newborn) additions newborns)
    {n : Nat} (ids : newborns.map (·.id.index) = List.range' n additions.length) :
    ∀ newborn ∈ newborns, newborn.inbox = [] ∧ n ≤ newborn.id.index := by
  intro newborn among
  constructor
  · obtain ⟨lengths, all⟩ := List.forall₂_iff_zip.mp born
    rw [← List.map_snd_zip (Nat.le_of_eq lengths.symm)] at among
    obtain ⟨⟨a, newborn⟩, pair, rfl⟩ := List.mem_map.mp among
    exact (all pair).1.inbox
  · have index : newborn.id.index ∈ newborns.map (·.id.index) :=
      List.mem_map.mpr ⟨newborn, among, rfl⟩
    rw [ids, List.mem_range'_1] at index
    exact index.1

/-- From one state to another with newborns behind the other agents. -/
structure Peopled (now : Step) (additions : List (Addition σ μ η)) (newborns : List (Agent σ μ))
    (s s' : Sim σ μ η) : Prop where
  agents : s'.agents.toList = s.agents.toList ++ newborns
  ids : newborns.map (·.id.index) = List.range' s.nextId.index additions.length
  born : List.Forall₂ (fun a newborn => s.Born now a newborn ∧
    s'.space.projection? newborn.id = some a.projection) additions newborns
  others : ∀ id ∈ s.ids, s'.space.projection? id = s.space.projection? id
  queues : s'.queues = s.queues
  nextId : s'.nextId.index = s.nextId.index + additions.length

theorem Consistent.activate_peopled (consistent : s.Consistent)
    (activated : s.activate a now = (.ok id, s')) :
    ∃ newborn, Peopled now [a] [newborn] s s' := by
  have next := activate_nextId activated
  obtain ⟨storage, pool, space, borrowed, inserted, rfl, -, updated⟩ := activate_eq_ok activated
  obtain ⟨state, n, pattern, rfl⟩ := consistent.pool.borrowed borrowed
  let start : Agent σ μ :=
    { Agent.prototype a.population state with incarnation := n }.activate s.nextId now s.config.seed
  let newborn := raise s.behavior a start
  obtain ⟨body, rewritten⟩ : start.Rewritten newborn := raise_rewritten _ _ _
  have own : newborn.id = s.nextId := by rw [rewritten]; rfl
  have born : s.Born now a newborn := by
    constructor
    case raised => exact ⟨_, n, pattern, by rw [own]⟩
    case population => rw [rewritten]; rfl
    case birthStep => rw [rewritten]; rfl
    case inbox => rw [rewritten]; rfl
  obtain ⟨here, elsewhere⟩ := consistent.space.projection?_insert inserted
  refine ⟨newborn, ?_⟩
  rw [updated] at next ⊢
  constructor
  case agents => exact Array.toList_push
  case ids => exact congrArg (fun id : AgentId => [id.index]) own
  case born =>
    refine .cons ⟨born, ?_⟩ .nil
    show space.projection? newborn.id = _
    rw [own]
    exact here
  case others =>
    intro id among
    have older : id ≠ s.nextId := by
      rintro rfl
      exact consistent.fresh among
    exact elsewhere id older
  case queues => rfl
  case nextId => exact next

theorem Peopled.refl (s : Sim σ μ η) (now : Step) : Peopled now [] [] s s where
  agents := (List.append_nil _).symm
  ids := rfl
  born := .nil
  others _ _ := rfl
  queues := rfl
  nextId := rfl

/-- Newborns first for some requests, then for others. -/
theorem Peopled.trans {more : List (Addition σ μ η)} {others : List (Agent σ μ)}
    (keeps : s.Keeps s') (first : Peopled now additions newborns s s')
    (second : Peopled now more others s' s'') :
    Peopled now (additions ++ more) (newborns ++ others) s s'' where
  agents := by rw [second.agents, first.agents, List.append_assoc]
  ids := by rw [List.map_append, first.ids, second.ids, first.nextId, List.length_append,
    List.range'_append_1]
  born := by
    obtain ⟨lengths, born⟩ := List.forall₂_iff_zip.mp first.born
    refine List.rel_append (List.forall₂_iff_zip.mpr ⟨lengths, ?_⟩)
      (second.born.imp fun _ _ later => ⟨keeps.born later.1, later.2⟩)
    intro a newborn pair
    have known : newborn.id ∈ s'.ids := by
      apply mem_ids
      rw [← Array.mem_toList_iff, first.agents]
      exact List.mem_append_right _ (List.of_mem_zip pair).2
    rw [second.others _ known]
    exact born pair
  others := by
    intro id among
    have still : id ∈ s'.ids := by
      rw [Sim.ids, first.agents, List.map_append]
      exact List.mem_append_left _ among
    rw [second.others id still, first.others id among]
  queues := by rw [second.queues, first.queues]
  nextId := by rw [second.nextId, first.nextId, List.length_append, Nat.add_assoc]

theorem Consistent.activateAll_peopled (consistent : s.Consistent)
    (activated : activateAll now additions s = (.ok (), s')) :
    ∃ newborns, Peopled now additions newborns s s' := by
  induction additions generalizing s with
  | nil =>
    cases activated
    exact ⟨[], .refl _ now⟩
  | cons a rest ih =>
    obtain ⟨id, middle, first, others⟩ := activateAll_cons activated
    obtain ⟨newborn, one⟩ := consistent.activate_peopled first
    obtain ⟨newborns, more⟩ := ih (consistent.activate first) others
    have whole : Peopled now ([a] ++ rest) ([newborn] ++ newborns) _ _ :=
      one.trans (activate_keeps first) more
    exact ⟨_, whole⟩

end Vivarium.Sim
