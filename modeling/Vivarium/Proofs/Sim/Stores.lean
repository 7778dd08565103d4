import Vivarium.Proofs.Sim.Engine

/-! All stores of a reachable simulation describe the same agents, and its counters are in step with
its journal. The counter of steps is a machine word: numbers of steps are compared as long as one word
can hold them. -/
namespace Vivarium.Sim
variable {σ μ η : Type} {s s' : Sim σ μ η}

/-- The counter counts the completed steps, and the word in an agent is the number of one of them. -/
structure Timely (s : Sim σ μ η) : Prop where
  step : s.step.val = UInt64.ofNat s.summaries.length
  births : ∀ i ∈ s.identities, ∃ n ≤ s.summaries.length, i.birthStep.val = UInt64.ofNat n

theorem Timely.proceeds (timely : s.Timely) (proceeds : s.Proceeds s') : s'.Timely := by
  have later : s.summaries.length ≤ s'.summaries.length := by
    rcases proceeds.clock with ⟨-, same⟩ | ⟨-, summary, more⟩
    · exact Nat.le_of_eq (congrArg List.length same.symm)
    · rw [more, List.length_append]
      exact Nat.le_add_right _ _
  constructor
  · rcases proceeds.clock with ⟨stays, same⟩ | ⟨ticks, summary, more⟩
    · rw [stays, same, timely.step]
    · rw [ticks, more, List.length_append, List.length_singleton, UInt64.ofNat_add, ← timely.step,
        Step.next_val]
      rfl
  · intro i among
    rcases proceeds.births i among with old | new
    · obtain ⟨n, bound, word⟩ := timely.births i old
      exact ⟨n, Nat.le_trans bound later, word⟩
    · exact ⟨s.summaries.length, later, by rw [new, timely.step]⟩

theorem Engine.Reaches.timely {E : Engine σ μ η} (among : E ∈ program) (reached : E.Reaches s) :
    s.Sound ∧ s.Timely := by
  apply reached.proceeds (fun _ proceeds timely => timely.proceeds proceeds) among
  intro setup s built
  obtain ⟨grid, pool, -, rfl⟩ := Setup.build_eq_ok built
  exact ⟨rfl, fun i among => by cases among⟩

/-- No agent is younger than the simulation. -/
theorem Timely.birthStep_le (timely : s.Timely) (counted : s.summaries.length < UInt64.size)
    {a : Agent σ μ} (stored : a ∈ s.agents) : a.birthStep.index ≤ s.step.index := by
  obtain ⟨n, bound, word⟩ := timely.births a.identity (mem_identities.mpr ⟨a, stored, rfl⟩)
  have born : a.birthStep.val = UInt64.ofNat n := word
  rw [Step.index, Step.index, born, timely.step,
    UInt64.toNat_ofNat_of_lt' (Nat.lt_of_le_of_lt bound counted), UInt64.toNat_ofNat_of_lt' counted]
  exact bound

/-- The list of agents, the table of their places, the store of objects, the pool and the counters
agree in every reachable state, and an agent can be asked for at any time. -/
theorem Engine.Reaches.stores_agree {E : Engine σ μ η} (among : E ∈ program)
    (reached : E.Reaches s) :
    s.ids.Pairwise (·.index < ·.index) ∧
      (∀ a ∈ s.agents, a.id.index < s.nextId.index ∧ a.id ≠ .invalid) ∧
      (∀ (id : AgentId) (i : Nat), s.slots[id]? = some i ↔ s.ids[i]? = some id) ∧
      (∀ a ∈ s.agents, a.active = true ∧ s.pool.contains a.population = true) ∧
      s.step.val = UInt64.ofNat s.summaries.length ∧
      (∀ a ∈ s.agents, ∃ n ≤ s.summaries.length, a.birthStep.val = UInt64.ofNat n) ∧
      (s.summaries.length < UInt64.size → ∀ a ∈ s.agents, a.birthStep.index ≤ s.step.index) ∧
      s.space.entries.toList.map (fun e => (e.population, e.id)) =
        s.agents.toList.map (fun a => (a.population, a.id)) ∧
      (∀ p, s.countOf p = s.agents.toList.countP fun a => a.population = p) ∧
      s.phase = .idle ∧
      ∀ a expected actual, (s.spawn a).1 ≠ .error (.wrongPhase expected actual) := by
  obtain ⟨sound, timely⟩ := reached.timely among
  have consistent := sound.consistent
  refine ⟨consistent.ascending, ?_, consistent.slots, ?_, timely.step, ?_, ?_, consistent.members,
    consistent.countOf_eq, sound.idle, ?_⟩
  · intro a stored
    exact ⟨consistent.below _ (mem_ids stored), consistent.valid stored⟩
  · intro a stored
    exact ⟨consistent.active a stored, consistent.registered a stored⟩
  · intro a stored
    exact timely.births a.identity (mem_identities.mpr ⟨a, stored, rfl⟩)
  · intro counted a stored
    exact timely.birthStep_le counted stored
  · intro a expected actual
    rcases sound.spawn_cases a with ⟨-, ends⟩ | ⟨-, -, ends⟩ | ⟨s', -, ends⟩
    · rw [ends, refusal]
      split <;> simp
    · simp [ends]
    · simp [ends]

/-- One agent in a world of one tile. -/
theorem stores_agree_walker :
    ∃ s s' : Sim Unit Unit Unit, Setup.walkers.build = .ok s ∧
      s.spawn (.plain "walker" (.placed 0.5 0.5)) = (.ok ⟨0⟩, s') ∧ s'.Reachable ∧
      s'.slots[(⟨0⟩ : AgentId)]? = some 0 := by
  obtain ⟨s, built, admits, next, blank⟩ : ∃ s, Setup.walkers.build = .ok s ∧
      s.Admits (.plain "walker" (.placed 0.5 0.5)) ∧ s.nextId = ⟨0⟩ ∧ s.ids = [] :=
    ⟨_, rfl, ⟨rfl, rfl⟩, rfl, rfl⟩
  have sound := build_sound built
  have valid : s.nextId ≠ .invalid := by
    rw [next]
    decide
  obtain ⟨s', activated, spawned⟩ := sound.spawn_succeeds admits valid
  have reached : s'.Reachable := by
    have called := Reachable.after (.spawn (.plain "walker" (.placed 0.5 0.5))) (.built built)
    rwa [Sim.after, spawned] at called
  refine ⟨s, s', built, next ▸ spawned, reached, ?_⟩
  obtain ⟨-, -, slots, -⟩ := reached.own.stores_agree Engine.own_mem_program
  rw [slots, sound.consistent.activate_ids activated, blank, next]
  rfl

end Vivarium.Sim
