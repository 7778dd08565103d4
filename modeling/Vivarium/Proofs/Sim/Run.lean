import Vivarium.Proofs.Sim.NextStep
import Vivarium.Sim.Setup

/-! Runs of a simulation: any calls in any order on what a setup has built, each taken whether it
succeeds or fails. What one proceeding preserves, every run preserves. -/
namespace Vivarium

namespace Setup
variable {σ μ η : Type} {setup : Setup σ μ η} {pool pool' : Pool σ μ}

theorem reserveAll_stocked (stocked : pool.Stocked) {bytes : Nat}
    {capacities : List (Population × Nat)}
    (reserved : reserveAll bytes pool capacities = .ok pool') : pool'.Stocked := by
  induction capacities generalizing pool with
  | nil =>
    cases reserved
    exact stocked
  | cons c rest ih =>
    simp only [reserveAll] at reserved
    split at reserved
    · cases reserved
    · rename_i more first
      exact ih (stocked.reserve first) reserved

/-- Storage is reserved, population by population, once all prototypes are registered. -/
theorem stockedPool_eq_ok (stocked : setup.stockedPool = .ok pool) :
    ∃ asked, totals setup.capacities = .ok asked ∧
      reserveAll setup.agentBytes setup.registered asked.toList = .ok pool := by
  simp only [stockedPool, bind, Except.bind] at stocked
  split at stocked
  · cases stocked
  · exact ⟨_, ‹_›, stocked⟩

theorem registered_stocked (setup : Setup σ μ η) : setup.registered.Stocked :=
  List.foldlRecOn _ _ Pool.empty_stocked fun _ stocked _ _ => stocked.register _ _

theorem stockedPool_stocked (stocked : setup.stockedPool = .ok pool) : pool.Stocked := by
  obtain ⟨asked, -, reserved⟩ := stockedPool_eq_ok stocked
  exact reserveAll_stocked setup.registered_stocked reserved

/-- What a setup that succeeds has built: a grid and a pool, and no agents. -/
theorem build_parts {s : Sim σ μ η} (built : setup.build = .ok s) :
    ∃ base grid pool, setup.baseGrid = .ok base ∧ base.withWalls setup.walls = .ok grid ∧
      setup.stockedPool = .ok pool ∧ s = {
        config := setup.config
        behavior := setup.behavior
        space := .empty (.ofGrid grid)
        pool
        agents := #[]
        slots := ∅
        queues := .empty
        board := .empty
        journal := #[]
        phase := .idle
        step := .zero
        nextId := ⟨0⟩ } := by
  simp only [build, bind, Except.bind, pure, Except.pure] at built
  split at built
  · cases built
  · split at built
    · cases built
    · rename_i base based
      rcases walled : base.withWalls setup.walls with e | grid
      · rw [walled] at built
        cases built
      · rcases stocked : setup.stockedPool with e | pool
        · rw [walled, stocked] at built
          cases built
        · rw [walled, stocked] at built
          cases built
          exact ⟨base, grid, pool, based, walled, rfl, rfl⟩

/-- A new simulation has no agents, and its pool serves every registered population. -/
theorem build_eq_ok {s : Sim σ μ η} (built : setup.build = .ok s) :
    ∃ grid pool, pool.Stocked ∧ s = {
      config := setup.config
      behavior := setup.behavior
      space := .empty (.ofGrid grid)
      pool
      agents := #[]
      slots := ∅
      queues := .empty
      board := .empty
      journal := #[]
      phase := .idle
      step := .zero
      nextId := ⟨0⟩ } := by
  obtain ⟨-, grid, pool, -, -, stocked, made⟩ := build_parts built
  exact ⟨grid, pool, stockedPool_stocked stocked, made⟩

/-- Agents of one population that never act, in a world of one tile. -/
def walkers : Setup Unit Unit Unit :=
  { Setup.new (.sized 1 1) .passive with prototypes := [("walker", ())] }

end Setup

namespace Sim
variable {σ μ η : Type} {s s' : Sim σ μ η}

/-- What a simulation can be asked for between its steps. -/
inductive Call (σ μ η : Type) where
  | spawn (a : Addition σ μ η)
  | enqueueAddition (a : Addition σ μ η)
  | enqueueRemoval (id : AgentId)
  | enqueueDelivery (m : Message μ)
  | discardQueued
  /-- Rewrites the body of an agent, if it is active. -/
  | edit (id : AgentId) (f : Agent σ μ → Body σ)
  | nextStep
  | runSteps (n : Nat)
  | run

/-- The simulation after a call, whether it succeeded or failed. -/
def after (s : Sim σ μ η) : Call σ μ η → Sim σ μ η
  | .spawn a => (s.spawn a).2
  | .enqueueAddition a => s.enqueueAddition a
  | .enqueueRemoval id => s.enqueueRemoval id
  | .enqueueDelivery m => s.enqueueDelivery m
  | .discardQueued => s.discardQueued.2
  | .edit id f => (s.edit? id f).getD s
  | .nextStep => s.nextStep.2
  | .runSteps n => (s.runSteps n).2
  | .run => s.run.2

def afterAll (s : Sim σ μ η) (calls : List (Call σ μ η)) : Sim σ μ η := calls.foldl after s

/-- What a call answers. -/
inductive Reply (σ μ η : Type) where
  | none
  | spawned (result : Except SimError AgentId)
  | discarded (queues : Queues σ μ η)
  | edited (found : Bool)
  | stepped (result : Except SimError StepSummary)
  | ran (result : Except SimError Unit)

def reply (s : Sim σ μ η) : Call σ μ η → Reply σ μ η
  | .spawn a => .spawned (s.spawn a).1
  | .enqueueAddition _ => .none
  | .enqueueRemoval _ => .none
  | .enqueueDelivery _ => .none
  | .discardQueued => .discarded s.discardQueued.1
  | .edit id f => .edited (s.edit? id f).isSome
  | .nextStep => .stepped s.nextStep.1
  | .runSteps n => .ran (s.runSteps n).1
  | .run => .ran s.run.1

/-- The answers to calls in a row. -/
def replies (s : Sim σ μ η) : List (Call σ μ η) → List (Reply σ μ η)
  | [] => []
  | c :: rest => s.reply c :: (s.after c).replies rest

/-- What some calls make of a simulation that was set up. -/
inductive Reachable : Sim σ μ η → Prop where
  | built {setup : Setup σ μ η} {s : Sim σ μ η} : setup.build = .ok s → Reachable s
  | after {s : Sim σ μ η} (c : Call σ μ η) : Reachable s → Reachable (s.after c)

theorem Reachable.afterAll (reached : s.Reachable) (calls : List (Call σ μ η)) :
    (s.afterAll calls).Reachable := by
  induction calls generalizing s with
  | nil => exact reached
  | cons c rest ih => exact ih (reached.after c)

theorem Proceeds.requeue (s : Sim σ μ η) (queues : Queues σ μ η) : s.Proceeds { s with queues } :=
  ⟨⟨rfl, rfl, rfl, fun _ => rfl⟩, fun _ old => .inl old, .inl ⟨rfl, rfl⟩⟩

theorem Sound.requeue (sound : s.Sound) (queues : Queues σ μ η) : { s with queues }.Sound :=
  ⟨sound.consistent.of_same rfl rfl rfl rfl sound.consistent.space sound.consistent.pool
    fun _ => rfl, sound.idle, sound.board⟩

theorem Sound.spawn_succeeds (sound : s.Sound) {a : Addition σ μ η} (admitted : s.Admits a)
    (valid : s.nextId ≠ .invalid) :
    ∃ s', s.activate a s.step = (.ok s.nextId, s') ∧ s.spawn a = (.ok s.nextId, s') := by
  obtain ⟨s', activated⟩ := sound.consistent.activate_succeeds admitted valid s.step
  refine ⟨s', activated, ?_⟩
  rw [Sim.spawn]
  rw [if_neg (not_not_intro sound.idle), validateAddition_eq_ok.mpr admitted,
    ensureIds_eq_ok.mpr (AgentId.remaining_pos.mpr valid)]
  exact activated

/-- How a request for an agent at once ends. -/
theorem Sound.spawn_cases (sound : s.Sound) (a : Addition σ μ η) :
    (¬s.Admits a ∧ s.spawn a = (.error (s.refusal a), s)) ∨
      (s.Admits a ∧ s.nextId = .invalid ∧ s.spawn a = (.error .idsExhausted, s)) ∨
      ∃ s', s.activate a s.step = (.ok s.nextId, s') ∧ s.spawn a = (.ok s.nextId, s') := by
  by_cases admitted : s.Admits a
  · by_cases valid : s.nextId = .invalid
    · have short : s.nextId.remaining < 1 := by
        rw [valid]
        decide
      refine .inr (.inl ⟨admitted, valid, ?_⟩)
      rw [Sim.spawn]
      rw [if_neg (not_not_intro sound.idle), validateAddition_eq_ok.mpr admitted,
        ensureIds_eq_error.mpr ⟨short, rfl⟩]
    · exact .inr (.inr (sound.spawn_succeeds admitted valid))
  · refine .inl ⟨admitted, ?_⟩
    rw [Sim.spawn]
    rw [if_neg (not_not_intro sound.idle), validateAddition_eq_error.mpr ⟨admitted, rfl⟩]

theorem Sound.spawn (sound : s.Sound) (a : Addition σ μ η) :
    s.Proceeds (s.spawn a).2 ∧ (s.spawn a).2.Sound := by
  have same : s.Proceeds s ∧ s.Sound := ⟨.requeue s s.queues, sound⟩
  rcases sound.spawn_cases a with ⟨-, ends⟩ | ⟨-, -, ends⟩ | ⟨s', activated, ends⟩
  · rw [ends]
    exact same
  · rw [ends]
    exact same
  · rw [ends]
    have modified := sound.consistent.activate_modified activated
    obtain ⟨_, _, _, _, _, _, _, rfl⟩ := activate_eq_ok activated
    exact ⟨⟨modified.keeps, modified.births, .inl ⟨rfl, modified.summaries⟩⟩,
      modified.consistent, sound.idle, sound.board⟩

/-- What a successful edit found and rewrote. -/
theorem edit?_eq_some {id : AgentId} {f : Agent σ μ → Body σ} (edited : s.edit? id f = some s') :
    ∃ slot a, s.agents[slot]? = some a ∧
      s' = { s with agents := s.agents.setIfInBounds slot (a.withBody (f a)) } := by
  simp only [edit?, Option.pure_def, Option.bind_eq_bind, Option.bind_eq_some_iff,
    Option.some.injEq] at edited
  obtain ⟨slot, -, a, there, rfl⟩ := edited
  exact ⟨slot, a, there, rfl⟩

/-- What a behaviour may not write, an edit does not write either. -/
theorem edit?_map {β : Type} {key : Agent σ μ → β} (same : ∀ a body, key (a.withBody body) = key a)
    {id : AgentId} {f : Agent σ μ → Body σ} (edited : s.edit? id f = some s') :
    s'.agents.toList.map key = s.agents.toList.map key := by
  obtain ⟨slot, a, there, rfl⟩ := edit?_eq_some edited
  rw [← Array.getElem?_toList] at there
  obtain ⟨bound, value⟩ := List.getElem?_eq_some_iff.mp there
  rw [Array.toList_setIfInBounds, List.map_set, same, ← value, ← List.map_set,
    List.set_getElem_self]

theorem Sound.edit (sound : s.Sound) (id : AgentId) (f : Agent σ μ → Body σ) :
    s.Proceeds ((s.edit? id f).getD s) ∧ ((s.edit? id f).getD s).Sound := by
  rcases edited : s.edit? id f with - | s'
  · exact ⟨.requeue s s.queues, sound⟩
  · have same : s'.identities = s.identities := edit?_map (fun _ _ => rfl) edited
    obtain ⟨slot, a, there, rfl⟩ := edit?_eq_some edited
    have redrawn : s.Redrawn { s with agents := s.agents.setIfInBounds slot (a.withBody (f a)) } :=
      ⟨_, rfl, same⟩
    have modified := redrawn.modified sound.consistent s.step
    exact ⟨⟨modified.keeps, modified.births, .inl ⟨rfl, rfl⟩⟩, modified.consistent, sound.idle,
      sound.board⟩

theorem build_sound {setup : Setup σ μ η} (built : setup.build = .ok s) : s.Sound := by
  obtain ⟨grid, pool, stocked, rfl⟩ := Setup.build_eq_ok built
  refine ⟨⟨.nil, ?_, .empty, ?_, ?_, rfl, Space.empty_wellFormed _, stocked⟩, rfl, rfl⟩
  · exact List.forall_mem_nil _
  · simp
  · simp

section
variable {P : Sim σ μ η → Prop}
  (preserves : ∀ {s s' : Sim σ μ η}, s.Sound → s.Proceeds s' → P s → P s')
include preserves

theorem Sound.runSteps (sound : s.Sound) (holds : P s) (n : Nat) :
    (s.runSteps n).2.Sound ∧ P (s.runSteps n).2 := by
  induction n generalizing s with
  | zero => exact ⟨sound, holds⟩
  | succ n ih =>
    obtain ⟨proceeds, sound'⟩ := sound.nextStep
    have holds' := preserves sound proceeds holds
    simp only [Sim.runSteps]
    split
    · rename_i e s' failed
      rw [failed] at sound' holds'
      exact ⟨sound', holds'⟩
    · rename_i summary s' completed
      rw [completed] at sound' holds'
      exact ih sound' holds'

theorem Sound.after (sound : s.Sound) (holds : P s) (c : Call σ μ η) :
    (s.after c).Sound ∧ P (s.after c) := by
  have proceed : ∀ {s'}, s.Proceeds s' ∧ s'.Sound → s'.Sound ∧ P s' := by
    rintro s' ⟨next, sound'⟩
    exact ⟨sound', preserves sound next holds⟩
  cases c with
  | spawn a => exact proceed (sound.spawn a)
  | enqueueAddition a => exact proceed ⟨.requeue s _, sound.requeue _⟩
  | enqueueRemoval id => exact proceed ⟨.requeue s _, sound.requeue _⟩
  | enqueueDelivery m => exact proceed ⟨.requeue s _, sound.requeue _⟩
  | discardQueued => exact proceed ⟨.requeue s _, sound.requeue _⟩
  | edit id f => exact proceed (sound.edit id f)
  | nextStep => exact proceed sound.nextStep
  | runSteps n => exact sound.runSteps preserves holds n
  | run => exact sound.runSteps preserves holds _

/-- What holds of every new simulation and of every proceeding holds of every reachable one. -/
theorem Reachable.invariant (initially : ∀ {setup : Setup σ μ η} {s}, setup.build = .ok s → P s)
    (reached : s.Reachable) : s.Sound ∧ P s := by
  induction reached with
  | built built => exact ⟨build_sound built, initially built⟩
  | after c reached ih => exact ih.1.after preserves ih.2 c

end

theorem Reachable.sound (reached : s.Reachable) : s.Sound :=
  (reached.invariant (P := fun _ => True) (fun _ _ _ => trivial) fun _ => trivial).1

/-- Activation gives an agent its stream and leaves the rest of its body. -/
theorem activate_body (a : Agent σ μ) (id : AgentId) (now : Step) (seed : UInt64) :
    (a.activate id now seed).toBody = { a.toBody with rng := .ofAgent seed id } := rfl

/-- An agent that is asked for without further wishes is as the pattern of its population. -/
theorem Reachable.spawn_plain (reached : s.Reachable) {population : Population}
    {place : Projection Float} {pattern : Agent σ μ}
    (known : s.pool.pattern? population = some pattern)
    (admits : s.Admits (.plain population place)) (valid : s.nextId ≠ .invalid) :
    ∃ (s' : Sim σ μ η) (newborn : Agent σ μ), s'.Reachable ∧ s.Keeps s' ∧ s'.queues = s.queues ∧
      s'.nextId.index = s.nextId.index + 1 ∧ s'.agents.toList = s.agents.toList ++ [newborn] ∧
      newborn.id = s.nextId ∧ newborn.state = pattern.state ∧
      s'.space.entries.toList = s.space.entries.toList ++ [⟨s.nextId, population, place⟩] ∧
      s'.space.index.outdated = true := by
  let a : Addition σ μ η := .plain population place
  obtain ⟨s', activated, spawned⟩ := reached.sound.spawn_succeeds admits valid
  have reached' : s'.Reachable := by
    have called := Reachable.after (.spawn a) reached
    rwa [Sim.after, spawned] at called
  obtain ⟨newborn, peopled⟩ := reached.sound.consistent.activate_peopled activated
  obtain ⟨⟨born, -⟩, -⟩ := List.forall₂_cons.mp peopled.born
  obtain ⟨pattern', n, known', raised⟩ := born.raised
  obtain rfl : pattern = pattern' := Option.some.inj (known.symm.trans known')
  refine ⟨s', newborn, reached', activate_keeps activated, peopled.queues, peopled.nextId,
    peopled.agents, ?_, ?_, ?_⟩
  · exact AgentId.ext_index (List.cons.inj peopled.ids).1
  · have same : newborn = { pattern with incarnation := n }.activate newborn.id s.step
        s.config.seed := raised
    have body := (congrArg (·.toBody) same).trans (activate_body _ _ _ _)
    exact (congrArg Body.state body).trans rfl
  · obtain ⟨_, _, _, _, inserted, _, _, rfl⟩ := activate_eq_ok activated
    obtain ⟨-, -, rfl⟩ := Space.insert_eq_ok inserted
    exact ⟨Array.toList_push, rfl⟩

/-- One agent in a world of one tile. -/
theorem walkers_spawn {a : Addition Unit Unit Unit} (walks : a.population = "walker")
    (place : a.projection.position = ⟨0.5, 0.5⟩) :
    ∃ (s : Sim Unit Unit Unit) (walker start : Agent Unit Unit), s.Reachable ∧ s.Admits a ∧
      s.nextId = ⟨1⟩ ∧ s.behavior = .passive ∧ s.queues = .empty ∧ s.agents.toList = [walker] ∧
      walker.id = ⟨0⟩ ∧ walker = raise .passive a start ∧
      s.space.projection? ⟨0⟩ = some a.projection ∧ ∃ g, s.space.terrain = .ofGrid g := by
  obtain ⟨s, g, built, known, terrain, inside, next, passive, empty, blank⟩ :
      ∃ (s : Sim Unit Unit Unit) (g : Grid), Setup.walkers.build = .ok s ∧
        s.pool.contains "walker" = true ∧ s.space.terrain = .ofGrid g ∧
        s.space.terrain.contains ⟨0.5, 0.5⟩ = true ∧ s.nextId = ⟨0⟩ ∧ s.behavior = .passive ∧
        s.queues = .empty ∧ s.agents = #[] :=
    ⟨_, _, rfl, rfl, rfl, rfl, rfl, rfl, rfl, rfl⟩
  have admits : s.Admits a := ⟨walks ▸ known, place ▸ inside⟩
  have sound := build_sound built
  have valid : s.nextId ≠ .invalid := by
    rw [next]
    decide
  obtain ⟨s', activated, spawned⟩ := sound.spawn_succeeds admits valid
  have reached : s'.Reachable := by
    have called := Reachable.after (.spawn a) (.built built)
    rwa [Sim.after, spawned] at called
  have keeps := activate_keeps activated
  have second : s'.nextId = ⟨1⟩ := by
    apply AgentId.ext_index
    rw [activate_nextId activated, next]
    rfl
  obtain ⟨walker, peopled⟩ := sound.consistent.activate_peopled activated
  have first : walker.id = ⟨0⟩ := by
    have ids := peopled.ids
    rw [next] at ids
    exact AgentId.ext_index (List.cons.inj ids).1
  obtain ⟨⟨born, there⟩, -⟩ := List.forall₂_cons.mp peopled.born
  obtain ⟨pattern, n, -, raised⟩ := born.raised
  refine ⟨s', walker, _, reached, keeps.admits_iff.mpr admits, second, keeps.behavior.trans passive,
    peopled.queues.trans empty, ?_, first, passive ▸ raised, first ▸ there, g,
    keeps.terrain.trans terrain⟩
  rw [peopled.agents, blank]
  rfl

end Sim
end Vivarium
